import WeakNetVideo.Library.Blocks
import WeakNetVideo.Library.RunLength
import WeakNetVideo.Library.Transducer
import WeakNetVideo.Model.Rtp
import WeakNetVideo.Model.FrameMetadata
import WeakNetVideo.Model.Receiver
import WeakNetVideo.Model.Sender
import WeakNetVideo.Model.TwccFeedback
import WeakNetVideo.Proofs.FrameMetadata
import WeakNetVideo.Soundness.FrameGate
import WeakNetVideo.Soundness.FrameIntegrity
import WeakNetVideo.Soundness.EpochOrder
import WeakNetVideo.Soundness.NoReplay
import WeakNetVideo.Soundness.Duplicates
import WeakNetVideo.Soundness.Reordering
import WeakNetVideo.Soundness.Resync
import WeakNetVideo.Soundness.Handshake
import WeakNetVideo.Soundness.ReportBlocks
import WeakNetVideo.Soundness.TwccCoverage
import WeakNetVideo.Soundness.Adaptation
import WeakNetVideo.Soundness.Signaling
import WeakNetVideo.Soundness.TwccCodec
import WeakNetVideo.Soundness.Nack
import WeakNetVideo.Soundness.Rtx
import WeakNetVideo.Soundness.Stamps
import WeakNetVideo.Soundness.TwccLoss
import WeakNetVideo.Soundness.OutputFile
import WeakNetVideo.Soundness.SentStream
import WeakNetVideo.Soundness.Accounting
import WeakNetVideo.Soundness.Hysteresis
import WeakNetVideo.Soundness.Convergence
import WeakNetVideo.Soundness.FeedbackGrouping
import WeakNetVideo.Soundness.FeedbackSymbols
import WeakNetVideo.Soundness.TransportLoss
import WeakNetVideo.Soundness.LocalQuality
import WeakNetVideo.Soundness.RoundTrip
import WeakNetVideo.Soundness.Overdue
import WeakNetVideo.Soundness.RepairAttempts
import WeakNetVideo.Soundness.SourceTime
import WeakNetVideo.Soundness.InBounds
import WeakNetVideo.Soundness.KeyframeDetection
import WeakNetVideo.Soundness.ReassemblyMap
import WeakNetVideo.Soundness.EndToEnd
import WeakNetVideo.Soundness.FeedbackLoop
import WeakNetVideo.Soundness.SenderSession
import WeakNetVideo.Soundness.Restoration
import WeakNetVideo.Soundness.NackRepair
import WeakNetVideo.Soundness.RepairTraffic
import WeakNetVideo.Soundness.RecoveryTraffic
import WeakNetVideo.Soundness.Renderer
import WeakNetVideo.Soundness.Drawings
import WeakNetVideo.Soundness.ReceiverFigures
import WeakNetVideo.Soundness.FileDecoding
import WeakNetVideo.Soundness.FileTranscoding
import WeakNetVideo.Soundness.FileObjects
import WeakNetVideo.Soundness.EstimatorHistory
import WeakNetVideo.Soundness.Negotiation
import WeakNetVideo.Soundness.CommandLine
