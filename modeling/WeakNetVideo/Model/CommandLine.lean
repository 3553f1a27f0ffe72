import WeakNetVideo.Model.Signaling

/-! # The command line

`main` walks over its arguments, most of which take the next one as their value, and constructs a session of what it has
read. Numbers are read as `strtol` and `strtoul` do: white space before them and anything behind them is ignored. Texts
are lists of characters here.
-/

namespace WeakNetVideo

abbrev Text := List Char

/-! ## Numbers and endpoints -/

/-- `isspace` in the C locale. -/
def isSpace (c : Char) : Bool := decide (c.toNat = 32 ∨ (9 ≤ c.toNat ∧ c.toNat ≤ 13))

/-- A number as it is written. -/
structure WrittenNumber where
  negative : Bool
  magnitude : ℕ
deriving DecidableEq, Repr

/-- The digits up to something else. -/
def readDigits (negative : Bool) (text : Text) : Option WrittenNumber :=
  match text.takeWhile Char.isDigit with
  | [] => none
  | digits => some ⟨negative, Nat.ofDigitChars 10 digits 0⟩

/-- What `strtol` and `strtoul` convert to base ten. -/
def readNumber (text : Text) : Option WrittenNumber :=
  match text.dropWhile isSpace with
  | '-' :: text => readDigits true text
  | '+' :: text => readDigits false text
  | text => readDigits false text

/-- `std::stoi`. Both exceptions have the name of the function as their text. -/
def stoi (text : Text) : Except Text ℤ :=
  match readNumber text with
  | none => .error "stoi".toList
  | some number =>
    let value : ℤ := if number.negative then -number.magnitude else number.magnitude
    if value < -2 ^ 31 ∨ 2 ^ 31 ≤ value then .error "stoi".toList else .ok value

/-- `std::stoul`, which takes a negative number modulo `2 ^ 64`. -/
def stoul (text : Text) : Except Text UInt64 :=
  match readNumber text with
  | none => .error "stoul".toList
  | some number =>
    if 2 ^ 64 ≤ number.magnitude then .error "stoul".toList
    else .ok (if number.negative then 0 - UInt64.ofNat number.magnitude else UInt64.ofNat number.magnitude)

structure Endpoint where
  ip : Text
  port : UInt16 := 0
deriving DecidableEq, Repr

/-- `parse_endpoint`; the port is cast to sixteen bits. -/
def parseEndpoint (value : Text) : Except Text Endpoint :=
  match value.dropWhile fun c => c != ':' with
  | [] => .error ("endpoint must be ip:port, got: ".toList ++ value)
  | _ :: port =>
    match stoul port with
    | .error what => .error what
    | .ok port => .ok ⟨value.takeWhile fun c => c != ':', port.toUInt16⟩

/-! ## The arguments -/

/-- The arguments that take a value. -/
inductive CommandOption where
  | role
  | localEndpoint
  | peerEndpoint
  | videoFile
  | outputFile
  | maxVideoKbps
  | recoveryTimeoutMs
deriving DecidableEq, Repr

namespace CommandOption

def name : CommandOption → Text
  | role => "--role".toList
  | localEndpoint => "--local".toList
  | peerEndpoint => "--peer".toList
  | videoFile => "--video-file".toList
  | outputFile => "--output-file".toList
  | maxVideoKbps => "--max-video-kbps".toList
  | recoveryTimeoutMs => "--recovery-timeout-ms".toList

/-- All of them, in the order of the comparisons. -/
def all : List CommandOption :=
  [role, localEndpoint, peerEndpoint, videoFile, outputFile, maxVideoKbps, recoveryTimeoutMs]

/-- The option that an argument is compared equal to. -/
def named (arg : Text) : Option CommandOption := all.find? fun option => option.name = arg

end CommandOption

/-- The local variables of `main`. -/
structure CommandOptions where
  role : Option Role := none
  localEndpoint : Option Endpoint := none
  peerEndpoint : Option Endpoint := none
  videoFile : Text := []
  outputFile : Text := "received.h264".toList
  maxVideoKbps : ℤ := 2000
  recoveryTimeoutMs : ℤ := 1000
deriving DecidableEq, Repr

/-- A value is read and checked. -/
def readRole (value : Text) : Except Text Role :=
  if value = "sender".toList then .ok .sender
  else if value = "receiver".toList then .ok .receiver
  else .error "--role must be sender or receiver".toList

def readBounded (low high : ℤ) (what : Text) (value : Text) : Except Text ℤ :=
  match stoi value with
  | .error what => .error what
  | .ok number => if number < low ∨ number > high then .error what else .ok number

def readMaxVideoKbps (value : Text) : Except Text ℤ :=
  readBounded 150 2000 "--max-video-kbps must be between 150 and 2000".toList value

def readRecoveryTimeoutMs (value : Text) : Except Text ℤ :=
  readBounded 100 1000 "--recovery-timeout-ms must be between 100 and 1000".toList value

/-- The branch of an option that has its value. -/
def CommandOptions.set (options : CommandOptions) (value : Text) : CommandOption → Except Text CommandOptions
  | .role => (readRole value).map fun role => { options with role := some role }
  | .localEndpoint => (parseEndpoint value).map fun endpoint => { options with localEndpoint := some endpoint }
  | .peerEndpoint => (parseEndpoint value).map fun endpoint => { options with peerEndpoint := some endpoint }
  | .videoFile => .ok { options with videoFile := value }
  | .outputFile => .ok { options with outputFile := value }
  | .maxVideoKbps => (readMaxVideoKbps value).map fun kbps => { options with maxVideoKbps := kbps }
  | .recoveryTimeoutMs => (readRecoveryTimeoutMs value).map fun ms => { options with recoveryTimeoutMs := ms }

/-- What ends the loop before its last argument: the usage is asked for, or an exception is thrown. -/
inductive Stopped where
  | help
  | thrown (what : Text)
deriving DecidableEq, Repr

/-- The branches of an argument without a value. -/
def lastBranches (arg : Text) : Stopped :=
  if arg = "--help".toList ∨ arg = "-h".toList then .help
  else .thrown ("unknown or incomplete argument: ".toList ++ arg)

/-- The loop over the arguments. -/
def readArguments : CommandOptions → List Text → Except Stopped CommandOptions
  | options, [] => .ok options
  | _, [arg] => .error (lastBranches arg)
  | options, arg :: value :: args =>
    match CommandOption.named arg with
    | none => .error (lastBranches arg)
    | some option =>
      match options.set value option with
      | .error what => .error (.thrown what)
      | .ok options => readArguments options args

/-- What the session is constructed of. -/
structure SessionConfig where
  role : Role
  localEndpoint : Endpoint
  peerEndpoint : Endpoint
  videoFile : Text
  outputFile : Text
  maxVideoKbps : ℤ
  recoveryTimeoutMs : ℤ
deriving DecidableEq, Repr

/-- How `main` goes on behind its arguments: it prints the usage and returns a code, prints what was thrown and returns
one, or runs a session. -/
inductive MainOutcome where
  | usage (code : ℤ)
  | fatal (what : Text)
  | session (config : SessionConfig)
deriving DecidableEq, Repr

/-- `main` up to the session, for the arguments behind the program's name. -/
def commandLine (args : List Text) : MainOutcome :=
  match readArguments {} args with
  | .error .help => .usage 0
  | .error (.thrown what) => .fatal what
  | .ok options =>
    match options.role, options.localEndpoint, options.peerEndpoint with
    | some role, some localEndpoint, some peerEndpoint =>
      if role = .sender ∧ options.videoFile = [] then .fatal "--video-file is required for sender".toList
      else .session {
        role := role
        localEndpoint := localEndpoint
        peerEndpoint := peerEndpoint
        videoFile := options.videoFile
        outputFile := options.outputFile
        maxVideoKbps := options.maxVideoKbps
        recoveryTimeoutMs := options.recoveryTimeoutMs }
    | _, _, _ => .usage 1

end WeakNetVideo
