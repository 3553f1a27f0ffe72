import WeakNetVideo.Library.RunLength
import WeakNetVideo.Library.Transducer
import WeakNetVideo.Model.HeaderExtension
import WeakNetVideo.Model.RtcpObservation

/-! # Transport feedback of the receiver

The sender stamps its packets with a counter. The statistics handler of the receiver keeps the number of
every stamped packet that comes in. At the first call 200 ms after the last feedback it reports the
numbers from the oldest sample to the newest, received or not, in one feedback message, and starts again
with nothing pending.
-/

namespace WeakNetVideo

open BigEndian

/-- `kTwccExtMapId` and `kTwccFeedbackIntervalUs`. -/
def twccExtMapId : Byte := 3
def twccFeedbackIntervalUs : ℤ := 200000

/-- The most samples that are kept, and the most packets that one feedback reports. -/
def maxTwccSamples : ℕ := 4096
def maxTwccPackets : UInt16 := 4096

/-- The longest run a status chunk can hold. -/
def maxStatusRun : ℕ := 0x1fff

/-! ## Stamps -/

/-- The descriptor byte of the two-byte element. -/
def twccDescriptor : Byte := twccExtMapId <<< 4 ||| 1

/-- `write_twcc_extension`, with the next sequence number of the handler that sends. -/
def writeTwccExtension (rtc : Rtc) (next : UInt16) (message : Message) : Message × UInt16 :=
  if message.bytes.length < Rtp.headerSize || rtc.isRtcp message.bytes then (message, next)
  else if Rtp.version message.bytes ≠ 2 || Rtp.padding message.bytes then (message, next)
  else if (oldExtension message.bytes).isNone then (message, next)
  else
    ({ message with bytes := rewriteExtension message.bytes (twccDescriptor :: bytesU16 next) }, next + 1)

/-- `read_twcc_sequence`. -/
def readTwccSequence (rtc : Rtc) : MessagePtr → Option UInt16
  | none => none
  | some message =>
    if message.bytes.length < Rtp.headerSize || rtc.isRtcp message.bytes then none
    else if Rtp.version message.bytes ≠ 2 then none
    else (readableExtension message.bytes).bind fun body =>
      ((elements body).find? fun element => element.id = twccExtMapId ∧ element.valueSize = 2).map
        fun element => readU16 body (element.offset + 1)

/-! ## Samples -/

/-- `TwccReceiveSample`. -/
structure TwccSample where
  sequence : UInt16
  atUs : ℤ
deriving DecidableEq, Repr

/-- The members of the handler that its receiving side uses. -/
structure TwccReceiver where
  lastFeedbackUs : ℤ := 0
  feedbackCount : UInt8 := 0
  pending : List TwccSample := []
deriving DecidableEq, Repr

/-- Append to a queue, and drop from its front what exceeds the limit. -/
def pushLatest {α : Type*} (limit : ℕ) (queue : List α) (item : α) : List α :=
  (queue ++ [item]).drop (queue.length + 1 - limit)

/-- `observe_twcc_extension`, with the clock read when the message is observed. -/
def TwccReceiver.observeTwccExtension (rtc : Rtc) (r : TwccReceiver) (atUs : ℤ)
    (message : MessagePtr) : TwccReceiver :=
  match readTwccSequence rtc message with
  | none => r
  | some sequence => { r with pending := pushLatest maxTwccSamples r.pending ⟨sequence, atUs⟩ }

/-! ## Feedback -/

/-- A feedback message before it is laid out. -/
structure TwccFeedback where
  baseSequence : UInt16
  packetCount : UInt16
  referenceTime : UInt32
  feedbackCount : UInt8
  chunks : List UInt16
  receivedCount : ℕ
deriving DecidableEq, Repr

/-- The newer of two numbers, as a signed difference of 16 bits tells it. -/
def newerSequence (latest sequence : UInt16) : UInt16 :=
  if 0 < (sequence - latest).toInt16 then sequence else latest

def maxSequence (base : UInt16) (samples : List TwccSample) : UInt16 :=
  samples.foldl (fun latest sample => newerSequence latest sample.sequence) base

/-- Which of the numbers from a base on are among the received. -/
def receivedStatuses (received : List UInt16) (base packetCount : UInt16) : List Bool :=
  (List.range packetCount.toNat).map fun offset => decide (base + UInt16.ofNat offset ∈ received)

/-- The word of a run of one status. -/
def statusChunk (run : Bool × ℕ) : UInt16 :=
  ((if run.1 then 1 else 0 : UInt16) <<< 13) ||| UInt16.ofNat run.2

/-- `maybe_send_twcc_feedback` with the clock reading; what is pending is gone even when its span does
not fit a feedback. -/
def TwccReceiver.maybeSendTwccFeedback (r : TwccReceiver) (atUs : ℤ) :
    TwccReceiver × Option TwccFeedback :=
  match r.pending with
  | [] => (r, none)
  | front :: _ =>
    if atUs - r.lastFeedbackUs < twccFeedbackIntervalUs then (r, none)
    else
      let base := front.sequence
      let packetCount := maxSequence base r.pending - base + 1
      let cleared := { r with lastFeedbackUs := atUs, pending := [] }
      if packetCount = 0 ∨ packetCount > maxTwccPackets then (cleared, none)
      else
        let statuses := receivedStatuses (r.pending.map TwccSample.sequence) base packetCount
        ({ cleared with feedbackCount := r.feedbackCount + 1 },
          some {
            baseSequence := base
            packetCount := packetCount
            referenceTime := UInt32.ofNat (((front.atUs.tdiv 1000).tdiv 64) % 0x1000000).toNat
            feedbackCount := r.feedbackCount
            chunks := (RunLength.runs maxStatusRun statuses).map statusChunk
            receivedCount := statuses.count true })

/-- The bytes of a feedback: its header, the chunks, one empty delta for every received packet, and
zeros up to a whole word. -/
def TwccFeedback.message (feedback : TwccFeedback) : Message where
  type := .control
  bytes :=
    let size := 20 + feedback.chunks.length * 2 + feedback.receivedCount
    let padded := (size + 3) / 4 * 4
    Rtcp.header (UInt8.ofNat twccFeedbackFormat) rtcpTransportFeedback (UInt16.ofNat (padded / 4 - 1)) ++
      (bytesU32 0 ++ (bytesU32 0 ++ (bytesU16 feedback.baseSequence ++
        (bytesU16 feedback.packetCount ++ (encode 3 feedback.referenceTime.toNat ++
          (feedback.feedbackCount :: feedback.chunks.flatMap bytesU16 ++
            List.replicate (padded - 20 - feedback.chunks.length * 2) 0))))))

/-! ## Calls -/

/-- One `incoming` call: the messages with the clock readings at which they are observed, and the
reading at which the feedback is considered. -/
structure TwccCall where
  arrivals : List (ℤ × MessagePtr)
  atUs : ℤ
deriving DecidableEq, Repr

def TwccReceiver.incoming (rtc : Rtc) (r : TwccReceiver) (call : TwccCall) :
    TwccReceiver × Option TwccFeedback :=
  (call.arrivals.foldl (fun r arrival => r.observeTwccExtension rtc arrival.1 arrival.2)
    r).maybeSendTwccFeedback call.atUs

def twccMachine (rtc : Rtc) : Transducer TwccReceiver TwccCall (Option TwccFeedback) where
  step := TwccReceiver.incoming rtc

/-! ## What a feedback tells -/

/-- The sequence numbers that a feedback reports. -/
def TwccFeedback.sequences (feedback : TwccFeedback) : List UInt16 :=
  (List.range feedback.packetCount.toNat).map fun offset => feedback.baseSequence + UInt16.ofNat offset

/-- Which packets of its run a run-length chunk calls received. -/
def chunkStatuses (chunk : UInt16) : List Bool :=
  List.replicate (chunk &&& 0x1fff).toNat ((chunk >>> 13) &&& 0x03 ≠ 0)

/-- The sequence numbers that a feedback marks as not received. -/
def TwccFeedback.markedLost (feedback : TwccFeedback) : List UInt16 :=
  ((feedback.sequences.zip (feedback.chunks.flatMap chunkStatuses)).filter fun entry => !entry.2).map Prod.fst

/-- The packets that one run-length chunk calls lost. -/
def chunkLost (chunk : UInt16) : ℕ :=
  if (chunk >>> 13) &&& 0x03 = 0 then (chunk &&& 0x1fff).toNat else 0

/-- The packets that a feedback calls lost. -/
def TwccFeedback.lost (feedback : TwccFeedback) : ℕ := (feedback.chunks.map chunkLost).sum

end WeakNetVideo
