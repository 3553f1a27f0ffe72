import WeakNetVideo.Model.NetworkQualityEstimator
import WeakNetVideo.Model.TwccFeedback

/-! # The statistics handler

A handler in the media chain of either side tells the quality estimator what goes by. The one of the sender
stamps the media it sends and reads the reports that come back; the one of the receiver collects the stamps
and sends feedback. All readings of the clock for one message are taken as one.
-/

namespace WeakNetVideo

/-- `MediaStatisticsHandler::Direction`. -/
inductive StatisticsDirection where
  | sender
  | receiver
deriving DecidableEq, Repr

/-- The members of `MediaStatisticsHandler` beside the estimator, which other threads call too. -/
structure MediaStatisticsHandler where
  direction : StatisticsDirection
  nextTwccSequence : UInt16 := 1
  twcc : TwccReceiver := {}
deriving DecidableEq, Repr

/-- A message that goes by, with the reading of the clock and what the memory holds behind its buffer. -/
structure Passing where
  atUs : ℤ
  message : MessagePtr
  behind : List Byte := []
deriving DecidableEq, Repr

/-! ## Observations -/

/-- `observe_rtp`, as the calls that it makes. -/
def observeRtp (rtc : Rtc) (sent : Bool) (atUs : ℤ) : MessagePtr → List EstimatorCall
  | none => []
  | some message =>
    if message.bytes.length < Rtp.headerSize || rtc.isRtcp message.bytes then []
    else if Rtp.version message.bytes ≠ 2 then []
    else
      let call := if sent then EstimatorCall.rtpSent else EstimatorCall.rtpReceived
      [call atUs (Rtp.seqNumber message.bytes) (Rtp.timestamp message.bytes) message.bytes.length]

/-- The call of the estimator that an update is. -/
def EstimatorUpdate.call (atUs : ℤ) : EstimatorUpdate → EstimatorCall
  | receiverReport fractionLost jitter lastSr delaySinceLastSr =>
    .receiverReport atUs fractionLost jitter lastSr delaySinceLastSr
  | twccFeedback baseSequence statusCount referenceTime =>
    .twccFeedback atUs baseSequence statusCount referenceTime
  | transportLossReport expectedPackets lostPackets =>
    .remoteTransportLoss atUs expectedPackets lostPackets

/-- `observe_rtcp`, as the calls that it makes. -/
def observeRtcp (rtc : Rtc) (structs : RtcpStructs) (sent : Bool) (passing : Passing) : List EstimatorCall :=
  match passing.message with
  | none => []
  | some message =>
    if message.bytes.length < Rtcp.headerSize || !rtc.isRtcp message.bytes then []
    else
      .rtcp passing.atUs message.bytes.length ::
        if sent then []
        else
          (observeRtcpPacket structs (message.bytes ++ passing.behind) message.bytes.length).map
            fun observation => observation.update.call passing.atUs

namespace MediaStatisticsHandler

/-- `observe_incoming`. -/
def observeIncoming (rtc : Rtc) (structs : RtcpStructs) (h : MediaStatisticsHandler) (passing : Passing) :
    MediaStatisticsHandler × List EstimatorCall :=
  match h.direction with
  | .receiver =>
    ({ h with twcc := h.twcc.observeTwccExtension rtc passing.atUs passing.message },
      observeRtp rtc false passing.atUs passing.message)
  | .sender => (h, observeRtcp rtc structs false passing)

/-- `observe_outgoing`, with the message as the call leaves it. -/
def observeOutgoing (rtc : Rtc) (structs : RtcpStructs) (h : MediaStatisticsHandler) (passing : Passing) :
    MediaStatisticsHandler × MessagePtr × List EstimatorCall :=
  match h.direction with
  | .sender =>
    match passing.message with
    | none => (h, none, [])
    | some message =>
      let (stamped, next) := writeTwccExtension rtc h.nextTwccSequence message
      ({ h with nextTwccSequence := next }, some stamped, observeRtp rtc true passing.atUs (some stamped))
  | .receiver => (h, passing.message, observeRtcp rtc structs true passing)

/-! ## Calls -/

/-- The loop of `incoming`. -/
def observeAll (rtc : Rtc) (structs : RtcpStructs) : MediaStatisticsHandler → List Passing →
    MediaStatisticsHandler × List EstimatorCall
  | h, [] => (h, [])
  | h, passing :: passings =>
    let (next, calls) := h.observeIncoming rtc structs passing
    let (last, more) := next.observeAll rtc structs passings
    (last, calls ++ more)

/-- `incoming`, with the reading at which the feedback is considered and the feedback that is sent. -/
def incoming (rtc : Rtc) (structs : RtcpStructs) (h : MediaStatisticsHandler) (messages : List Passing)
    (atUs : ℤ) : MediaStatisticsHandler × List EstimatorCall × Option Message :=
  let (h, calls) := h.observeAll rtc structs messages
  match h.direction with
  | .receiver =>
    let (twcc, feedback) := h.twcc.maybeSendTwccFeedback atUs
    ({ h with twcc := twcc }, calls, feedback.map TwccFeedback.message)
  | .sender => (h, calls, none)

/-- `outgoing`, with the messages as the call leaves them. -/
def outgoing (rtc : Rtc) (structs : RtcpStructs) : MediaStatisticsHandler → List Passing →
    MediaStatisticsHandler × List MessagePtr × List EstimatorCall
  | h, [] => (h, [], [])
  | h, passing :: passings =>
    let (next, message, calls) := h.observeOutgoing rtc structs passing
    let (last, messages, more) := next.outgoing rtc structs passings
    (last, message :: messages, calls ++ more)

end MediaStatisticsHandler

end WeakNetVideo
