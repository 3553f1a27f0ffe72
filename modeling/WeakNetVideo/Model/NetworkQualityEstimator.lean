import Mathlib.Algebra.GroupWithZero.Nat
import Mathlib.Algebra.Order.Group.Unbundled.Abs
import Mathlib.Data.List.Dedup
import WeakNetVideo.Library.Window
import WeakNetVideo.Model.Adaptation

/-! # The quality estimator

The estimator keeps windows of two seconds over what was sent and received, and the last reports of the
other side. A snapshot measures the windows and lets fresh reports of the other side overrule them. A call
reads the clock once; doubles are exact rationals.
-/

namespace WeakNetVideo

/-- `kStatsWindowUs`, `kRemoteReportFreshUs` and `kTransportLossReportFreshUs`. -/
def statsWindowUs : ℤ := 2000000
def remoteReportFreshUs : ℤ := 3000000
def transportLossReportFreshUs : ℤ := 3000000

/-- `kVideoClockRate` and `kNtpUnixEpochDelta`. -/
def videoClockRate : ℚ := 90000
def ntpUnixEpochDelta : UInt64 := 2208988800

structure PacketSample where
  atUs : ℤ
  sequence : UInt16
  rtpTimestamp : UInt32
  bytes : ℕ
deriving DecidableEq, Repr

structure RemoteReport where
  atUs : ℤ
  lossPercent : ℚ
  jitterMs : ℚ
  rttMs : ℚ
deriving DecidableEq, Repr

structure TwccReport where
  atUs : ℤ
  baseSequence : UInt16
  packetStatusCount : UInt16
  referenceTime24bit : UInt32
deriving DecidableEq, Repr

/-- `TransportLossSample`, and `RemoteTransportLoss` with the same members. -/
structure TransportLossSample where
  atUs : ℤ
  expectedPackets : UInt32
  lostPackets : UInt32
deriving DecidableEq, Repr

/-- When some bytes went by, and how many. -/
abbrev ByteWindow := List (ℤ × ℕ)

structure NetworkQualityEstimator where
  sentPackets : List PacketSample := []
  receivedPackets : List PacketSample := []
  sentBytesWindow : ByteWindow := []
  receivedBytesWindow : ByteWindow := []
  rtcpBytesWindow : ByteWindow := []
  transportLossSamples : List TransportLossSample := []
  remoteReport : Option RemoteReport := none
  remoteTransportLoss : Option TransportLossSample := none
  twccReport : Option TwccReport := none
  lastTransportSequence : Option UInt16 := none
deriving DecidableEq, Repr

/-- What a snapshot measures: the members that the controller reads, and the bit rates. -/
structure MeasuredQuality extends NetworkQuality where
  sendKbps : ℚ := 0
  receiveKbps : ℚ := 0
  ackKbps : ℚ := 0
deriving DecidableEq, Repr

/-! ## Windows -/

def trimByteWindow (atUs : ℤ) (window : ByteWindow) : ByteWindow :=
  Window.trim Prod.fst (atUs - statsWindowUs) window

def trimPacketWindow (atUs : ℤ) (window : List PacketSample) : List PacketSample :=
  Window.trim PacketSample.atUs (atUs - statsWindowUs) window

def trimTransportLossWindow (atUs : ℤ) (window : List TransportLossSample) : List TransportLossSample :=
  Window.trim TransportLossSample.atUs (atUs - statsWindowUs) window

def bitrateKbps (window : ByteWindow) : ℚ :=
  match window.head?, window.getLast? with
  | some front, some back =>
    let seconds : ℚ := (back.1 - front.1 : ℤ) / 1000000
    if window.length < 2 ∨ seconds ≤ 0 then 0
    else ((window.map Prod.snd).sum * 8 : ℕ) / seconds / 1000
  | _, _ => 0

/-! ## Measurements -/

/-- `local_loss_percent`: the distinct sequence numbers against the span of their values. -/
def localLossPercent (receivedPackets : List PacketSample) : ℚ :=
  match receivedPackets with
  | front :: next :: rest =>
    let sequences := (front :: next :: rest).map PacketSample.sequence
    let minSequence := sequences.foldl min front.sequence
    let maxSequence := sequences.foldl max front.sequence
    let received := sequences.dedup.length
    let expected : UInt32 := maxSequence.toUInt32 - minSequence.toUInt32 + 1
    if expected = 0 ∨ received > expected.toNat then 0
    else (expected - UInt32.ofNat received).toNat * 100 / expected.toNat
  | _ => 0

/-- How much longer a packet took than its timestamp tells, up to a constant. -/
def PacketSample.transit (sample : PacketSample) : ℚ :=
  sample.atUs / 1000000 - sample.rtpTimestamp.toNat / videoClockRate

/-- The loop over neighbouring packets behind one of them. -/
def jitterFrom (previous : PacketSample) (jitter : ℚ) : List PacketSample → ℚ
  | [] => jitter
  | current :: rest =>
    let deltaMs := |current.transit - previous.transit| * 1000
    jitterFrom current (jitter + (deltaMs - jitter) / 16) rest

/-- `local_jitter_ms`. -/
def localJitterMs (receivedPackets : List PacketSample) : ℚ :=
  match receivedPackets with
  | first :: second :: third :: rest => jitterFrom first 0 (second :: third :: rest)
  | _ => 0

/-- Expected and lost packets of the samples, in counters of 32 bits. -/
def sumTransportLoss (samples : List TransportLossSample) : UInt32 × UInt32 :=
  samples.foldl (fun sums sample => (sums.1 + sample.expectedPackets, sums.2 + sample.lostPackets)) (0, 0)

def lossPercentOf (expectedPackets lostPackets : UInt32) : ℚ :=
  lostPackets.toNat * 100 / expectedPackets.toNat

/-- `local_transport_loss_percent`. -/
def localTransportLossPercent (samples : List TransportLossSample) : ℚ :=
  let (expectedPackets, lostPackets) := sumTransportLoss samples
  if expectedPackets = 0 then 0 else lossPercentOf expectedPackets lostPackets

/-- `compact_ntp_now` with the reading of the clock. -/
def compactNtp (atUs : ℤ) : UInt32 :=
  let unixUs := UInt64.ofInt atUs
  let ntpSeconds := unixUs / 1000000 + ntpUnixEpochDelta
  let ntpFraction := ((unixUs % 1000000) <<< 32) / 1000000
  let ntp := (ntpSeconds <<< 32) ||| ntpFraction
  ((ntp >>> 16) &&& 0xffffffff).toUInt32

/-- The round trip time of a report block; what is not plausible is replaced by zero. -/
def roundTripMs (atUs : ℤ) (lastSr delaySinceLastSr : UInt32) : ℚ :=
  if lastSr ≠ 0 then
    let rttNtp := compactNtp atUs - lastSr - delaySinceLastSr
    let rttMs : ℚ := rttNtp.toNat * 1000 / 65536
    if rttMs < 0 ∨ rttMs > 60000 then 0 else rttMs
  else 0

namespace NetworkQualityEstimator

/-! ## Calls -/

def onRtpSent (e : NetworkQualityEstimator) (atUs : ℤ) (sequence : UInt16) (rtpTimestamp : UInt32)
    (bytes : ℕ) : NetworkQualityEstimator :=
  { e with
    sentPackets := trimPacketWindow atUs (e.sentPackets ++ [⟨atUs, sequence, rtpTimestamp, bytes⟩])
    sentBytesWindow := trimByteWindow atUs (e.sentBytesWindow ++ [(atUs, bytes)]) }

/-- What a received number adds to the transport loss, and the newest number from then on. -/
def transportLoss (lastTransportSequence : Option UInt16) (sequence : UInt16) :
    UInt32 × UInt32 × Option UInt16 :=
  match lastTransportSequence with
  | none => (1, 0, some sequence)
  | some last =>
    let delta := (sequence - last).toInt16
    if delta > 0 then (UInt32.ofInt delta.toInt, UInt32.ofInt (delta.toInt - 1), some sequence)
    else (0, 0, some last)

def onRtpReceived (e : NetworkQualityEstimator) (atUs : ℤ) (sequence : UInt16) (rtpTimestamp : UInt32)
    (bytes : ℕ) : NetworkQualityEstimator :=
  let (expectedPackets, lostPackets, last) := transportLoss e.lastTransportSequence sequence
  { e with
    lastTransportSequence := last
    transportLossSamples :=
      if expectedPackets > 0 then
        trimTransportLossWindow atUs (e.transportLossSamples ++ [⟨atUs, expectedPackets, lostPackets⟩])
      else e.transportLossSamples
    receivedPackets := trimPacketWindow atUs (e.receivedPackets ++ [⟨atUs, sequence, rtpTimestamp, bytes⟩])
    receivedBytesWindow := trimByteWindow atUs (e.receivedBytesWindow ++ [(atUs, bytes)]) }

/-- `on_rtcp_sent` and `on_rtcp_received`. -/
def onRtcp (e : NetworkQualityEstimator) (atUs : ℤ) (bytes : ℕ) : NetworkQualityEstimator :=
  { e with rtcpBytesWindow := trimByteWindow atUs (e.rtcpBytesWindow ++ [(atUs, bytes)]) }

def onReceiverReport (e : NetworkQualityEstimator) (atUs : ℤ) (fractionLost : UInt8)
    (jitterRtpTicks lastSr delaySinceLastSr : UInt32) : NetworkQualityEstimator :=
  { e with
    remoteReport := some {
      atUs := atUs
      lossPercent := fractionLost.toNat * 100 / 256
      jitterMs := jitterRtpTicks.toNat * 1000 / videoClockRate
      rttMs := roundTripMs atUs lastSr delaySinceLastSr } }

def onTwccFeedback (e : NetworkQualityEstimator) (atUs : ℤ) (baseSequence packetStatusCount : UInt16)
    (referenceTime24bit : UInt32) : NetworkQualityEstimator :=
  { e with twccReport := some ⟨atUs, baseSequence, packetStatusCount, referenceTime24bit⟩ }

def onTransportLossReport (e : NetworkQualityEstimator) (atUs : ℤ)
    (expectedPackets lostPackets : UInt32) : NetworkQualityEstimator :=
  { e with remoteTransportLoss := some ⟨atUs, expectedPackets, min lostPackets expectedPackets⟩ }

def transportLossReport (e : NetworkQualityEstimator) (atUs : ℤ) : NetworkQualityEstimator × UInt32 × UInt32 :=
  let samples := trimTransportLossWindow atUs e.transportLossSamples
  ({ e with transportLossSamples := samples }, sumTransportLoss samples)

/-- The windows as a snapshot leaves them. -/
def trimmed (e : NetworkQualityEstimator) (atUs : ℤ) : NetworkQualityEstimator :=
  { e with
    sentPackets := trimPacketWindow atUs e.sentPackets
    receivedPackets := trimPacketWindow atUs e.receivedPackets
    sentBytesWindow := trimByteWindow atUs e.sentBytesWindow
    receivedBytesWindow := trimByteWindow atUs e.receivedBytesWindow
    rtcpBytesWindow := trimByteWindow atUs e.rtcpBytesWindow
    transportLossSamples := trimTransportLossWindow atUs e.transportLossSamples }

/-- What a snapshot measures locally. -/
def localQuality (e : NetworkQualityEstimator) : MeasuredQuality where
  lossPercent := localLossPercent e.receivedPackets
  jitterMs := localJitterMs e.receivedPackets
  transportLossPercent := localTransportLossPercent e.transportLossSamples
  sendKbps := bitrateKbps e.sentBytesWindow
  receiveKbps := bitrateKbps e.receivedBytesWindow
  ackKbps := bitrateKbps e.rtcpBytesWindow

/-- A fresh report of the other side overrules what is measured locally. -/
def overruled (e : NetworkQualityEstimator) (atUs : ℤ) (quality : MeasuredQuality) : MeasuredQuality :=
  let quality :=
    match e.remoteReport with
    | some report =>
      if atUs - report.atUs < remoteReportFreshUs then
        { quality with
          rttMs := report.rttMs
          lossPercent := report.lossPercent
          jitterMs := report.jitterMs }
      else quality
    | none => quality
  match e.remoteTransportLoss with
  | some loss =>
    if atUs - loss.atUs < transportLossReportFreshUs ∧ loss.expectedPackets > 0 then
      { quality with transportLossPercent := lossPercentOf loss.expectedPackets loss.lostPackets }
    else quality
  | none => quality

def snapshot (e : NetworkQualityEstimator) (atUs : ℤ) : NetworkQualityEstimator × MeasuredQuality :=
  (e.trimmed atUs, e.overruled atUs (e.trimmed atUs).localQuality)

end NetworkQualityEstimator

/-- The public calls of the estimator, with the reading of the clock. -/
inductive EstimatorCall where
  | rtpSent (atUs : ℤ) (sequence : UInt16) (rtpTimestamp : UInt32) (bytes : ℕ)
  | rtpReceived (atUs : ℤ) (sequence : UInt16) (rtpTimestamp : UInt32) (bytes : ℕ)
  | rtcp (atUs : ℤ) (bytes : ℕ)
  | receiverReport (atUs : ℤ) (fractionLost : UInt8) (jitterRtpTicks lastSr delaySinceLastSr : UInt32)
  | twccFeedback (atUs : ℤ) (baseSequence packetStatusCount : UInt16) (referenceTime24bit : UInt32)
  | remoteTransportLoss (atUs : ℤ) (expectedPackets lostPackets : UInt32)
  | transportLossReport (atUs : ℤ)
  | snapshot (atUs : ℤ)
deriving DecidableEq, Repr

namespace EstimatorCall

def atUs : EstimatorCall → ℤ
  | rtpSent atUs .. | rtpReceived atUs .. | rtcp atUs .. | receiverReport atUs .. | twccFeedback atUs ..
  | remoteTransportLoss atUs .. | transportLossReport atUs | snapshot atUs => atUs

/-- What a call does to the estimator. -/
def apply (e : NetworkQualityEstimator) : EstimatorCall → NetworkQualityEstimator
  | rtpSent atUs sequence rtpTimestamp bytes => e.onRtpSent atUs sequence rtpTimestamp bytes
  | rtpReceived atUs sequence rtpTimestamp bytes => e.onRtpReceived atUs sequence rtpTimestamp bytes
  | rtcp atUs bytes => e.onRtcp atUs bytes
  | receiverReport atUs fractionLost jitterRtpTicks lastSr delaySinceLastSr =>
    e.onReceiverReport atUs fractionLost jitterRtpTicks lastSr delaySinceLastSr
  | twccFeedback atUs baseSequence packetStatusCount referenceTime24bit =>
    e.onTwccFeedback atUs baseSequence packetStatusCount referenceTime24bit
  | remoteTransportLoss atUs expectedPackets lostPackets =>
    e.onTransportLossReport atUs expectedPackets lostPackets
  | transportLossReport atUs => (e.transportLossReport atUs).1
  | snapshot atUs => (e.snapshot atUs).1

end EstimatorCall

/-- The estimator after some calls. -/
def estimatorAfter (calls : List EstimatorCall) : NetworkQualityEstimator :=
  calls.foldl EstimatorCall.apply {}

end WeakNetVideo
