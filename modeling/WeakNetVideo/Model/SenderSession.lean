import WeakNetVideo.Model.MediaStatistics
import WeakNetVideo.Model.VideoSender

/-! # The sending process

Three threads share the sender's side: the sending loop, the transport's callbacks with what comes in, and
the loop that once a second adapts the video to the measured quality. The last one lets go of every lock
between its calls; its turn is cut there. Bit rates are exact rationals.
-/

namespace WeakNetVideo

/-- The rate that `set_track` constructs the pacing handler with. -/
def initialPacingBps : ℚ := 2300000

/-- `std::clamp`. -/
def stdClamp (value low high : ℚ) : ℚ :=
  if value < low then low else if high < value then high else value

/-- The part of the packets that is taken to survive. -/
def NetworkQuality.survival (quality : NetworkQuality) : ℚ := max (1 / 5) (1 - quality.loss / 100)

/-- The rate that `update_network_quality` sets the pacing handler to. -/
def pacingBpsFor (profile : VideoProfile) (quality : NetworkQuality) : ℚ :=
  stdClamp (profile.bitrateKbps * 1000 * (115 / 100) / quality.survival) (profile.bitrateKbps * 1150) 8000000

/-- Where the turn of `stats_loop` stands: the controller has made a profile of a quality, or the sender
has been given the profile. -/
inductive StatsTurn where
  | top
  | adapted (quality : MeasuredQuality) (profile : VideoProfile)
  | profiled (quality : MeasuredQuality)
deriving DecidableEq, Repr

/-- The members of `WebRtcSession` that a sender uses. -/
structure SenderSession where
  video : VideoSender
  statistics : MediaStatisticsHandler := { direction := .sender }
  estimator : NetworkQualityEstimator := {}
  adaptation : VideoAdaptationController
  statsTurn : StatsTurn := .top
  pacingBps : ℚ := initialPacingBps

/-- What the sending loop and the callbacks do on their own. -/
def VideoSenderEvent.Own : VideoSenderEvent → Prop
  | .updateProfile _ | .send .. => False
  | _ => True

/-- What happens in the sending process. -/
inductive SessionEvent where
  | sending (event : VideoSenderEvent) (own : event.Own)
  | send (outcome : SendOutcome) (packets : List Passing)
  | incoming (messages : List Passing) (atUs : ℤ)
  | takeSnapshot (atUs : ℤ)
  | updateProfile
  | updateNetworkQuality

namespace SenderSession

/-- The session when its threads start. -/
def start (maxVideoKbps : ℤ) : SenderSession where
  video := .start true
  adaptation := .fresh maxVideoKbps

/-- The estimator after some calls on it. -/
def observe (s : SenderSession) (calls : List EstimatorCall) : SenderSession :=
  { s with estimator := calls.foldl EstimatorCall.apply s.estimator }

/-- The packets of a frame pass the statistics handler before they come to the transport handler. -/
def send (rtc : Rtc) (structs : RtcpStructs) (s : SenderSession) (outcome : SendOutcome)
    (packets : List Passing) : SenderSession × SenderShown :=
  match s.video.turn with
  | .encoded .. =>
    if outcome = .threwBefore then
      let (video, shown) := s.video.send rtc outcome []
      ({ s with video := video }, shown)
    else
      let (statistics, messages, calls) := s.statistics.outgoing rtc structs packets
      let (video, shown) := s.video.send rtc outcome messages
      ({ s.observe calls with video := video, statistics := statistics }, shown)
  | _ => (s, .nothing)

/-- What comes in, as the statistics handler sees it. -/
def incoming (rtc : Rtc) (structs : RtcpStructs) (s : SenderSession) (messages : List Passing) (atUs : ℤ) :
    SenderSession :=
  let (statistics, calls, _) := s.statistics.incoming rtc structs messages atUs
  { s.observe calls with statistics := statistics }

/-- `snapshot` of the estimator and `update` of the controller. -/
def takeSnapshot (s : SenderSession) (atUs : ℤ) : SenderSession :=
  match s.statsTurn with
  | .top =>
    let (estimator, quality) := s.estimator.snapshot atUs
    let adaptation := s.adaptation.update quality.toNetworkQuality
    { s with
      estimator := estimator
      adaptation := adaptation
      statsTurn := .adapted quality adaptation.profile }
  | _ => s

/-- `update_profile`, which waits while a frame is encoded. -/
def updateProfile (s : SenderSession) : SenderSession :=
  match s.statsTurn, s.video.turn with
  | .adapted _ _, .decided .. => s
  | .adapted quality profile, _ =>
    { s with video := s.video.updateProfile profile, statsTurn := .profiled quality }
  | _, _ => s

/-- `update_network_quality`. -/
def updateNetworkQuality (s : SenderSession) : SenderSession :=
  match s.statsTurn with
  | .profiled quality =>
    { s with pacingBps := pacingBpsFor s.video.profile quality.toNetworkQuality, statsTurn := .top }
  | _ => s

def step (rtc : Rtc) (structs : RtcpStructs) (s : SenderSession) : SessionEvent → SenderSession × SenderShown
  | .sending event _ =>
    let (video, shown) := s.video.step rtc event
    ({ s with video := video }, shown)
  | .send outcome packets => s.send rtc structs outcome packets
  | .incoming messages atUs => (s.incoming rtc structs messages atUs, .nothing)
  | .takeSnapshot atUs => (s.takeSnapshot atUs, .nothing)
  | .updateProfile => (s.updateProfile, .nothing)
  | .updateNetworkQuality => (s.updateNetworkQuality, .nothing)

end SenderSession

/-- The machine of the sending process. -/
def senderSessionMachine (rtc : Rtc) (structs : RtcpStructs) :
    Transducer SenderSession SessionEvent SenderShown :=
  ⟨SenderSession.step rtc structs⟩

end WeakNetVideo
