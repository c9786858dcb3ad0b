import Rtvbp.Lib.Machine
import Rtvbp.Envelope.Proofs.AgreementProofs
import Rtvbp.Envelope.GoCodec
import Rtvbp.Envelope.RustCodec
import Rtvbp.TypeScript.EnvelopeCodec
import Rtvbp.TypeScript.Session.Proofs.SuperviseProofs
import Rtvbp.TypeScript.Session.Proofs.ReplyProofs
import Rtvbp.TypeScript.Session.Proofs.DispatchProofs
import Rtvbp.TypeScript.Session.Proofs.RequestProofs
import Rtvbp.TypeScript.Session.Proofs.ControlProofs
import Rtvbp.TypeScript.Proofs.WebSocketProofs
import Rtvbp.TypeScript.Proofs.BrowserPlaybackProofs
import Rtvbp.Pending.Proofs.CompletionProofs
import Rtvbp.Isolation.HandlerErrors
import Rtvbp.Close.OrderlyClose
import Rtvbp.Go.Proofs.SuperviseProofs
import Rtvbp.Go.Proofs.ReplyProofs
import Rtvbp.Go.Proofs.DrainProofs
import Rtvbp.Go.Proofs.MediaProofs
import Rtvbp.Rust.Session.Proofs.RunProofs
import Rtvbp.Rust.Session.Proofs.ReplyProofs
import Rtvbp.Rust.Session.Proofs.PendingProofs
import Rtvbp.Rust.Session.Proofs.AudioProofs
import Rtvbp.Rust.Proofs.ListenerProofs
import Rtvbp.Close.ServerShutdown
import Rtvbp.TypeScript.Proofs.NodeCloseProofs
import Rtvbp.Negotiation.Agreement
import Rtvbp.Go.Proofs.VoiceHandlerProofs
import Rtvbp.Rust.Proofs.TelephonyProofs
import Rtvbp.Validation.Agreement
import Rtvbp.TypeScript.Proofs.QueueMachineProofs
import Rtvbp.TypeScript.Proofs.ResamplerProofs
import Rtvbp.Rust.Proofs.AudioBufferProofs
import Rtvbp.TypeScript.Proofs.AudioWriteProofs
import Rtvbp.TypeScript.Proofs.AudioReadProofs
import Rtvbp.Spec.Proofs.ScenarioProofs
import Rtvbp.Spec.Proofs.VectorProofs
import Rtvbp.Spec.Proofs.EmitProofs
import Rtvbp.TypeScript.Proofs.CatalogRoundTripProofs
import Rtvbp.Rust.Proofs.ByteBufferProofs
import Rtvbp.Rust.Proofs.AudioStreamProofs
import Rtvbp.TypeScript.PlaybackCapacity
import Rtvbp.TypeScript.MemoryTransport
import Rtvbp.Go.Proofs.WebRtcProofs
import Rtvbp.Rust.WebRtc
import Rtvbp.Close.Terminal
import Rtvbp.Go.Proofs.StaticMediaProofs
import Rtvbp.Go.Proofs.TransportOwnerProofs
import Rtvbp.TypeScript.Proofs.ClearPlaybackProofs
import Rtvbp.TypeScript.Proofs.BrowserDeviceProofs
import Rtvbp.Media.Proofs.FrameSizeProofs
import Rtvbp.Media.Proofs.PcmuProofs
import Rtvbp.Media.RtpTime
import Rtvbp.Lib.Regex
import Rtvbp.Release.Version
import Rtvbp.Lib.Text
import Rtvbp.Release.Proofs.VersionProofs
import Rtvbp.Release.Changelog
import Rtvbp.Release.Proofs.ChangelogProofs
import Rtvbp.TypeScript.OpenMap
import Rtvbp.Lib.Heartbeat
import Rtvbp.Close.Keepalive
import Rtvbp.Lib.ReadyQueue
import Rtvbp.Go.Queues
import Rtvbp.Lib.FileTree
import Rtvbp.Spec.Write
import Rtvbp.Spec.Proofs.WriteProofs
import Rtvbp.Lib.Registry
import Rtvbp.Lib.Reorder
import Rtvbp.Json.Same
import Rtvbp.Spec.Resolution
import Rtvbp.Spec.Proofs.ResolutionProofs
import Rtvbp.Go.Conversation
import Rtvbp.Go.Proofs.ConversationProofs
import Rtvbp.Spec.Proofs.ValidateProofs
import Rtvbp.Spec.Profiles
import Rtvbp.Spec.Proofs.ProfileProofs
import Rtvbp.Lib.Notify
import Rtvbp.Media.MemoryPair
import Rtvbp.Media.Proofs.MemoryPairProofs
import Rtvbp.Go.AudioStream
import Rtvbp.Go.Proofs.AudioStreamProofs
import Rtvbp.Lib.RingBuffer
import Rtvbp.Media.Signaling
import Rtvbp.Media.Proofs.SignalingProofs
import Rtvbp.Lib.Endpoint
import Rtvbp.Go.Proofs.PartyProofs
import Rtvbp.Rust.Session.Conversation
import Rtvbp.Rust.Session.Proofs.ConversationProofs
import Rtvbp.Conversations
