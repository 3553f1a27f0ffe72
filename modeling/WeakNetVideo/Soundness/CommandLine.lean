import Mathlib.Data.List.TakeWhile
import WeakNetVideo.Library.Settings
import WeakNetVideo.Model.Adaptation
import WeakNetVideo.Model.CommandLine
import WeakNetVideo.Model.Receiver

/-! # What the command line accepts

A session is constructed exactly of arguments that are options with values, each of which is read without an exception,
with everything there that is required. The last value of an option counts. So every session has a configuration within
the documented bounds, and every such configuration can be written, in any order.
-/

namespace WeakNetVideo

/-! ## Settings -/

/-- An option and its value, as two arguments. -/
def spelled (setting : CommandOption × Text) : List Text := [setting.1.name, setting.2]

/-- The value of an option is read without an exception. -/
def readable : CommandOption × Text → Bool
  | (.role, value) => (readRole value).isOk
  | (.localEndpoint, value) => (parseEndpoint value).isOk
  | (.peerEndpoint, value) => (parseEndpoint value).isOk
  | (.videoFile, _) => true
  | (.outputFile, _) => true
  | (.maxVideoKbps, value) => (readMaxVideoKbps value).isOk
  | (.recoveryTimeoutMs, value) => (readRecoveryTimeoutMs value).isOk

/-- What settings mean: of every option the last value, or the default. -/
def meant (defaults : CommandOptions) (settings : List (CommandOption × Text)) : CommandOptions where
  role := ((Settings.last .role settings).bind fun value => (readRole value).toOption).or defaults.role
  localEndpoint :=
    ((Settings.last .localEndpoint settings).bind fun value => (parseEndpoint value).toOption).or
      defaults.localEndpoint
  peerEndpoint :=
    ((Settings.last .peerEndpoint settings).bind fun value => (parseEndpoint value).toOption).or defaults.peerEndpoint
  videoFile := (Settings.last .videoFile settings).getD defaults.videoFile
  outputFile := (Settings.last .outputFile settings).getD defaults.outputFile
  maxVideoKbps :=
    ((Settings.last .maxVideoKbps settings).bind fun value => (readMaxVideoKbps value).toOption).getD
      defaults.maxVideoKbps
  recoveryTimeoutMs :=
    ((Settings.last .recoveryTimeoutMs settings).bind fun value => (readRecoveryTimeoutMs value).toOption).getD
      defaults.recoveryTimeoutMs

theorem named_name (option : CommandOption) : CommandOption.named option.name = some option := by
  cases option <;> decide

theorem name_of_named {arg : Text} {option : CommandOption} (named : CommandOption.named arg = some option) :
    option.name = arg := by
  rw [CommandOption.named] at named
  simpa using List.find?_some named

section Last

variable {α : Type*} {read : Text → Except Text α} {latest : Option Text} {value : Text} {x : α}

/-- Where the last value can be read, it is what counts. -/
private theorem or_last (here : read value = .ok x) (later : ∀ value ∈ latest, (read value).isOk = true)
    (default : Option α) : (latest.bind fun value => (read value).toOption).or (some x) =
      ((latest.or (some value)).bind fun value => (read value).toOption).or default := by
  cases latest with
  | none => simp [here, Except.toOption]
  | some last =>
    have there := later last rfl
    cases found : read last with
    | error => simp [found, Except.isOk, Except.toBool] at there
    | ok y => simp [found, Except.toOption]

private theorem getD_last (here : read value = .ok x) (later : ∀ value ∈ latest, (read value).isOk = true)
    (default : α) : (latest.bind fun value => (read value).toOption).getD x =
      ((latest.or (some value)).bind fun value => (read value).toOption).getD default := by
  cases latest with
  | none => simp [here, Except.toOption]
  | some last =>
    have there := later last rfl
    cases found : read last with
    | error => simp [found, Except.isOk, Except.toBool] at there
    | ok y => simp [found, Except.toOption]

end Last

/-- A setting is taken exactly when its value can be read, and counts from then on. -/
theorem set_ok (options : CommandOptions) (setting : CommandOption × Text) {rest : List (CommandOption × Text)}
    (ok : ∀ later ∈ rest, readable later = true) :
    match options.set setting.2 setting.1 with
    | .error _ => readable setting = false
    | .ok next => readable setting = true ∧ meant next rest = meant options (setting :: rest) := by
  have later {option : CommandOption} {value : Text} (counts : value ∈ Settings.last option rest) :
      readable (option, value) = true := ok _ (Settings.mem_of_last counts)
  obtain ⟨option, value⟩ := setting
  cases option with
  | role =>
    cases read : readRole value with
    | error what => simp [CommandOptions.set, readable, read, Except.map, Except.isOk, Except.toBool]
    | ok role =>
      have counts := or_last read (fun _ => @later .role _) options.role
      simp [CommandOptions.set, readable, read, Except.map, Except.isOk, Except.toBool, meant, Settings.last_cons,
        counts]
  | localEndpoint =>
    cases read : parseEndpoint value with
    | error what => simp [CommandOptions.set, readable, read, Except.map, Except.isOk, Except.toBool]
    | ok endpoint =>
      have counts := or_last read (fun _ => @later .localEndpoint _) options.localEndpoint
      simp [CommandOptions.set, readable, read, Except.map, Except.isOk, Except.toBool, meant, Settings.last_cons,
        counts]
  | peerEndpoint =>
    cases read : parseEndpoint value with
    | error what => simp [CommandOptions.set, readable, read, Except.map, Except.isOk, Except.toBool]
    | ok endpoint =>
      have counts := or_last read (fun _ => @later .peerEndpoint _) options.peerEndpoint
      simp [CommandOptions.set, readable, read, Except.map, Except.isOk, Except.toBool, meant, Settings.last_cons,
        counts]
  | videoFile =>
    refine ⟨rfl, ?_⟩
    cases latest : Settings.last .videoFile rest <;> simp [meant, Settings.last_cons, latest]
  | outputFile =>
    refine ⟨rfl, ?_⟩
    cases latest : Settings.last .outputFile rest <;> simp [meant, Settings.last_cons, latest]
  | maxVideoKbps =>
    cases read : readMaxVideoKbps value with
    | error what => simp [CommandOptions.set, readable, read, Except.map, Except.isOk, Except.toBool]
    | ok kbps =>
      have counts := getD_last read (fun _ => @later .maxVideoKbps _) options.maxVideoKbps
      simp [CommandOptions.set, readable, read, Except.map, Except.isOk, Except.toBool, meant, Settings.last_cons,
        counts]
  | recoveryTimeoutMs =>
    cases read : readRecoveryTimeoutMs value with
    | error what => simp [CommandOptions.set, readable, read, Except.map, Except.isOk, Except.toBool]
    | ok ms =>
      have counts := getD_last read (fun _ => @later .recoveryTimeoutMs _) options.recoveryTimeoutMs
      simp [CommandOptions.set, readable, read, Except.map, Except.isOk, Except.toBool, meant, Settings.last_cons,
        counts]

/-- Settings that can all be read lead to what they mean, and others are not taken. -/
theorem readArguments_spelled (options : CommandOptions) (settings : List (CommandOption × Text))
    (final : CommandOptions) : readArguments options (settings.flatMap spelled) = .ok final ↔
      (∀ setting ∈ settings, readable setting = true) ∧ meant options settings = final := by
  induction settings generalizing options with
  | nil => simp [readArguments, meant]
  | cons setting settings ih =>
    have first : readArguments options ((setting :: settings).flatMap spelled) =
        match options.set setting.2 setting.1 with
        | .error what => .error (.thrown what)
        | .ok next => readArguments next (settings.flatMap spelled) := by
      cases next : options.set setting.2 setting.1 <;>
        simp only [List.flatMap_cons, spelled, List.cons_append, List.nil_append, readArguments, named_name, next]
    rw [first, List.forall_mem_cons]
    by_cases ok : ∀ later ∈ settings, readable later = true
    · have taken := set_ok options setting ok
      cases next : options.set setting.2 setting.1 with
      | error what =>
        rw [next] at taken
        simp [taken]
      | ok next =>
        rw [next] at taken
        rw [ih, taken.2, and_iff_right taken.1]
    · cases options.set setting.2 setting.1 with
      | error what => exact iff_of_false (fun taken => by cases taken) fun all => ok all.1.2
      | ok next => exact (ih next).trans (iff_of_false (fun all => ok all.1) fun all => ok all.1.2)

/-- Only settings are taken. -/
theorem settings_of_readArguments {options final : CommandOptions} {args : List Text}
    (taken : readArguments options args = .ok final) :
    ∃ settings : List (CommandOption × Text), args = settings.flatMap spelled := by
  induction options, args using readArguments.induct with
  | case1 options => exact ⟨[], rfl⟩
  | case2 options arg => contradiction
  | case3 options arg value args unnamed =>
    rw [readArguments, unnamed] at taken
    contradiction
  | case4 options arg value args option named what thrown =>
    simp only [readArguments, named, thrown] at taken
    contradiction
  | case5 options arg value args option named next set ih =>
    simp only [readArguments, named, set] at taken
    obtain ⟨settings, rfl⟩ := ih taken
    refine ⟨(option, value) :: settings, ?_⟩
    rw [List.flatMap_cons, spelled, name_of_named named]
    rfl

/-! ## Sessions -/

/-- What `main` has read when it constructs a session. -/
def SessionConfig.read (config : SessionConfig) : CommandOptions where
  role := some config.role
  localEndpoint := some config.localEndpoint
  peerEndpoint := some config.peerEndpoint
  videoFile := config.videoFile
  outputFile := config.outputFile
  maxVideoKbps := config.maxVideoKbps
  recoveryTimeoutMs := config.recoveryTimeoutMs

private theorem session_iff_options {args : List Text} {config : SessionConfig} :
    commandLine args = .session config ↔
      readArguments {} args = .ok config.read ∧ (config.role = .sender → config.videoFile ≠ []) := by
  rw [commandLine]
  cases readArguments {} args with
  | error stopped => cases stopped <;> simp
  | ok options =>
    constructor
    · intro accepted
      dsimp only at accepted
      split at accepted
      case h_1 role localEndpoint peerEndpoint hasRole hasLocal hasPeer =>
        split_ifs at accepted with without
        obtain rfl := MainOutcome.session.inj accepted
        refine ⟨congrArg Except.ok ?_, fun sends empty => without ⟨sends, empty⟩⟩
        rw [SessionConfig.read, ← hasRole, ← hasLocal, ← hasPeer]
      case h_2 => contradiction
    · rintro ⟨same, file⟩
      obtain rfl := Except.ok.inj same
      exact if_neg fun both => file both.1 both.2

/-- A session is constructed exactly of options with values that can all be read, where the last values are those of its
configuration, everything that is required is there, and a sender has a file. -/
theorem session_iff (args : List Text) (config : SessionConfig) :
    commandLine args = .session config ↔
      ∃ settings : List (CommandOption × Text), args = settings.flatMap spelled ∧
        (∀ setting ∈ settings, readable setting = true) ∧ meant {} settings = config.read ∧
        (config.role = .sender → config.videoFile ≠ []) := by
  rw [session_iff_options]
  constructor
  · rintro ⟨taken, file⟩
    obtain ⟨settings, rfl⟩ := settings_of_readArguments taken
    obtain ⟨ok, same⟩ := (readArguments_spelled {} settings _).mp taken
    exact ⟨settings, rfl, ok, same, file⟩
  · rintro ⟨settings, rfl, ok, same, file⟩
    exact ⟨(readArguments_spelled {} settings _).mpr ⟨ok, same⟩, file⟩

/-! ## Written configurations -/

private theorem readNumber_toDigits (n : ℕ) : readNumber (Nat.toDigits 10 n) = some ⟨false, n⟩ := by
  have digits : ∀ c ∈ Nat.toDigits 10 n, c.isDigit = true := fun c =>
    Nat.isDigit_of_mem_toDigits (by decide) (by decide)
  have all : (Nat.toDigits 10 n).takeWhile Char.isDigit = Nat.toDigits 10 n := List.takeWhile_eq_self_iff.mpr digits
  have read : readDigits false (Nat.toDigits 10 n) = some ⟨false, n⟩ := by
    rw [readDigits, all]
    cases written : Nat.toDigits 10 n with
    | nil => exact absurd written Nat.toDigits_ne_nil
    | cons c rest => simp only [← written, Nat.ofDigitChars_ten_toDigits]
  cases written : Nat.toDigits 10 n with
  | nil => exact absurd written Nat.toDigits_ne_nil
  | cons c rest =>
    have digit := digits c (by rw [written]; exact List.mem_cons_self)
    have bounds : 48 ≤ c.toNat ∧ c.toNat ≤ 57 := by
      simpa [Char.isDigit, UInt32.le_iff_toNat_le] using digit
    have other : isSpace c = false := decide_eq_false (by omega)
    rw [written] at read
    rw [readNumber, List.dropWhile_cons_of_neg (by simp [other])]
    split
    · rename_i same
      obtain ⟨rfl, _⟩ := List.cons.inj same
      exact absurd digit (by decide)
    · rename_i same
      obtain ⟨rfl, _⟩ := List.cons.inj same
      exact absurd digit (by decide)
    · exact read

/-- A number that is not negative, in base ten. -/
def writtenNumber (number : ℤ) : Text := Nat.toDigits 10 number.toNat

theorem stoi_writtenNumber {number : ℤ} (nonneg : 0 ≤ number) (small : number < 2 ^ 31) :
    stoi (writtenNumber number) = .ok number := by
  have same : (number.toNat : ℤ) = number := Int.toNat_of_nonneg nonneg
  have inside : ¬(number < -2 ^ 31 ∨ 2 ^ 31 ≤ number) := by omega
  rw [stoi, writtenNumber, readNumber_toDigits]
  simp only [Bool.false_eq_true, if_false, same, if_neg inside]

/-- An endpoint whose address has no colon. -/
def writtenEndpoint (endpoint : Endpoint) : Text := endpoint.ip ++ ':' :: Nat.toDigits 10 endpoint.port.toNat

theorem parseEndpoint_writtenEndpoint {endpoint : Endpoint} (noColon : ':' ∉ endpoint.ip) :
    parseEndpoint (writtenEndpoint endpoint) = .ok endpoint := by
  have free : ∀ c ∈ endpoint.ip, (c != ':') = true := fun c member =>
    bne_iff_ne.mpr fun same => noColon (same ▸ member)
  have behind : (writtenEndpoint endpoint).dropWhile (fun c => c != ':') =
      ':' :: Nat.toDigits 10 endpoint.port.toNat := by
    rw [writtenEndpoint, List.dropWhile_append_of_pos free]
    rfl
  have front : (writtenEndpoint endpoint).takeWhile (fun c => c != ':') = endpoint.ip := by
    rw [writtenEndpoint, List.takeWhile_append_of_pos free]
    exact List.append_nil _
  have small : ¬2 ^ 64 ≤ endpoint.port.toNat := by
    have bound := endpoint.port.toNat_lt
    omega
  have number : stoul (Nat.toDigits 10 endpoint.port.toNat) = .ok (UInt64.ofNat endpoint.port.toNat) := by
    rw [stoul, readNumber_toDigits]
    simp only [if_neg small, Bool.false_eq_true, if_false]
  have port : (UInt64.ofNat endpoint.port.toNat).toUInt16 = endpoint.port := by
    simp
  rw [parseEndpoint, behind, front]
  simp only [number, port]

namespace SessionConfig

/-- A configuration within the bounds that the usage tells. -/
structure WellFormed (config : SessionConfig) : Prop where
  localIp : ':' ∉ config.localEndpoint.ip
  peerIp : ':' ∉ config.peerEndpoint.ip
  videoFile : config.role = .sender → config.videoFile ≠ []
  maxVideoKbps : 150 ≤ config.maxVideoKbps ∧ config.maxVideoKbps ≤ 2000
  recoveryTimeoutMs : 100 ≤ config.recoveryTimeoutMs ∧ config.recoveryTimeoutMs ≤ 1000

def writtenRole : Role → Text
  | .sender => "sender".toList
  | .receiver => "receiver".toList

/-- The settings that say a configuration, each of them once. -/
def settings (config : SessionConfig) : List (CommandOption × Text) :=
  [(.role, writtenRole config.role), (.localEndpoint, writtenEndpoint config.localEndpoint),
    (.peerEndpoint, writtenEndpoint config.peerEndpoint), (.videoFile, config.videoFile),
    (.outputFile, config.outputFile), (.maxVideoKbps, writtenNumber config.maxVideoKbps),
    (.recoveryTimeoutMs, writtenNumber config.recoveryTimeoutMs)]

theorem settings_once (config : SessionConfig) : (config.settings.map Prod.fst).Nodup := by
  change CommandOption.all.Nodup
  decide

end SessionConfig

private theorem readRole_writtenRole (role : Role) : readRole (SessionConfig.writtenRole role) = .ok role := by
  cases role <;> decide

private theorem readBounded_writtenNumber {low high number : ℤ} (what : Text) (nonneg : 0 ≤ low) (small : high < 2 ^ 31)
    (inside : low ≤ number ∧ number ≤ high) : readBounded low high what (writtenNumber number) = .ok number := by
  rw [readBounded, stoi_writtenNumber (by omega) (by omega)]
  exact if_neg (by omega)

private theorem readBounded_ok {low high number : ℤ} {what value : Text}
    (read : readBounded low high what value = .ok number) : low ≤ number ∧ number ≤ high := by
  rw [readBounded] at read
  split at read
  · contradiction
  · split_ifs at read with outside
    obtain rfl := Except.ok.inj read
    omega

private theorem parseEndpoint_ok {value : Text} {endpoint : Endpoint} (read : parseEndpoint value = .ok endpoint) :
    ':' ∉ endpoint.ip := by
  rw [parseEndpoint] at read
  split at read
  · contradiction
  · split at read
    · contradiction
    · obtain rfl := Except.ok.inj read
      intro colon
      have passed := List.mem_takeWhile_imp colon
      exact absurd passed (by decide)

private theorem ok_of_toOption {α : Type*} {e : Except Text α} {x : α} (some_ : e.toOption = some x) : e = .ok x := by
  cases e with
  | error => contradiction
  | ok y => exact congrArg Except.ok (Option.some.inj some_)

private theorem getD_bounded {low high default : ℤ} {what : Text} {value : Option Text}
    (inside : low ≤ default ∧ default ≤ high) :
    low ≤ (value.bind fun value => (readBounded low high what value).toOption).getD default ∧
      (value.bind fun value => (readBounded low high what value).toOption).getD default ≤ high := by
  cases read : value.bind fun value => (readBounded low high what value).toOption with
  | none => exact inside
  | some number =>
    obtain ⟨value, -, number_⟩ := Option.bind_eq_some_iff.mp read
    exact readBounded_ok (ok_of_toOption number_)

/-- What is read of the options is well formed. -/
theorem wellFormed_of_meant {settings : List (CommandOption × Text)} {config : SessionConfig}
    (same : meant {} settings = config.read) (file : config.role = .sender → config.videoFile ≠ []) :
    config.WellFormed := by
  have endpoint {key : CommandOption} {endpoint : Endpoint}
      (here : ((Settings.last key settings).bind fun value => (parseEndpoint value).toOption).or none = some endpoint) :
      ':' ∉ endpoint.ip := by
    rw [Option.or_none] at here
    obtain ⟨value, -, read⟩ := Option.bind_eq_some_iff.mp here
    exact parseEndpoint_ok (ok_of_toOption read)
  constructor
  · exact endpoint (congrArg CommandOptions.localEndpoint same)
  · exact endpoint (congrArg CommandOptions.peerEndpoint same)
  · exact file
  · rw [show config.maxVideoKbps = (meant {} settings).maxVideoKbps from congrArg CommandOptions.maxVideoKbps same.symm]
    exact getD_bounded (by decide)
  · rw [show config.recoveryTimeoutMs = (meant {} settings).recoveryTimeoutMs from
      congrArg CommandOptions.recoveryTimeoutMs same.symm]
    exact getD_bounded (by decide)

/-- The settings of a well-formed configuration, in any order, mean that configuration. -/
theorem meant_of_perm {config : SessionConfig} (wellFormed : config.WellFormed)
    {settings : List (CommandOption × Text)} (order : settings.Perm config.settings) :
    (∀ setting ∈ settings, readable setting = true) ∧ meant {} settings = config.read := by
  have kbps : readMaxVideoKbps (writtenNumber config.maxVideoKbps) = .ok config.maxVideoKbps :=
    readBounded_writtenNumber _ (by decide) (by decide) wellFormed.maxVideoKbps
  have ms : readRecoveryTimeoutMs (writtenNumber config.recoveryTimeoutMs) = .ok config.recoveryTimeoutMs :=
    readBounded_writtenNumber _ (by decide) (by decide) wellFormed.recoveryTimeoutMs
  have role := readRole_writtenRole config.role
  have localEndpoint := parseEndpoint_writtenEndpoint wellFormed.localIp
  have peerEndpoint := parseEndpoint_writtenEndpoint wellFormed.peerIp
  constructor
  · intro setting member
    have one := order.mem_iff.mp member
    simp only [SessionConfig.settings, List.mem_cons, List.not_mem_nil, or_false] at one
    rcases one with rfl | rfl | rfl | rfl | rfl | rfl | rfl <;>
      simp only [readable, role, localEndpoint, peerEndpoint, kbps, ms, Except.isOk, Except.toBool]
  · have last {key : CommandOption} {value : Text} (member : (key, value) ∈ config.settings) :
        Settings.last key settings = some value := by
      rw [Settings.last_of_perm config.settings_once order]
      exact Settings.last_of_mem config.settings_once member
    have lastRole := @last .role (SessionConfig.writtenRole config.role) (by simp [SessionConfig.settings])
    have lastLocal := @last .localEndpoint (writtenEndpoint config.localEndpoint) (by simp [SessionConfig.settings])
    have lastPeer := @last .peerEndpoint (writtenEndpoint config.peerEndpoint) (by simp [SessionConfig.settings])
    have lastVideo := @last .videoFile config.videoFile (by simp [SessionConfig.settings])
    have lastOutput := @last .outputFile config.outputFile (by simp [SessionConfig.settings])
    have lastKbps := @last .maxVideoKbps (writtenNumber config.maxVideoKbps) (by simp [SessionConfig.settings])
    have lastMs := @last .recoveryTimeoutMs (writtenNumber config.recoveryTimeoutMs) (by simp [SessionConfig.settings])
    simp only [meant, lastRole, lastLocal, lastPeer, lastVideo, lastOutput, lastKbps, lastMs, role, localEndpoint,
      peerEndpoint, kbps, ms, Except.toOption, Option.bind_some, Option.some_or, Option.getD_some, SessionConfig.read]

/-- Every session has a configuration within the bounds, so that the controller and the transport handler take its
values as they are; and every such configuration can be written, with its options in any order. -/
theorem session_roundTrip (config : SessionConfig) :
    (∀ args, commandLine args = .session config → config.WellFormed ∧
        (VideoAdaptationController.fresh config.maxVideoKbps).maxVideoKbps = config.maxVideoKbps ∧
        (Receiver.new config.recoveryTimeoutMs).recoveryTimeoutUs = config.recoveryTimeoutMs * 1000) ∧
      (config.WellFormed → ∀ settings : List (CommandOption × Text), settings.Perm config.settings →
        commandLine (settings.flatMap spelled) = .session config) := by
  constructor
  · intro args accepted
    obtain ⟨taken, file⟩ := session_iff_options.mp accepted
    obtain ⟨settings, rfl⟩ := settings_of_readArguments taken
    have wellFormed := wellFormed_of_meant ((readArguments_spelled {} settings _).mp taken).2 file
    refine ⟨wellFormed, ?_, ?_⟩
    · have inside := wellFormed.maxVideoKbps
      change max 150 (min config.maxVideoKbps 2000) = _
      omega
    · have inside := wellFormed.recoveryTimeoutMs
      change max 100 config.recoveryTimeoutMs * 1000 = _
      omega
  · intro wellFormed settings order
    obtain ⟨ok, same⟩ := meant_of_perm wellFormed order
    exact session_iff_options.mpr ⟨(readArguments_spelled {} settings _).mpr ⟨ok, same⟩, wellFormed.videoFile⟩

end WeakNetVideo
