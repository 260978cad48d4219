import GhciRelay.Text.Uppercase
import GhciRelay.Output.Prompt
import GhciRelay.Diagnostic.Aggregator
import GhciRelay.Process.Simulation
import GhciRelay.Config.LaunchCommand
import GhciRelay.Editor.Wire
import GhciRelay.Lifecycle.Schedule
import GhciRelay.Log.Setup
import GhciRelay.CommandLine.Program
import GhciRelay.Main
import GhciRelay.Proofs.Index
import GhciRelay.Proofs.Aggregator
import GhciRelay.Proofs.CompileCycle
import GhciRelay.Proofs.EditorView
import GhciRelay.Proofs.LineReader
import GhciRelay.Proofs.Session
import GhciRelay.Proofs.ServerStep
import GhciRelay.Proofs.Lifecycle
import GhciRelay.Proofs.Delivery
import GhciRelay.Proofs.Succession
import GhciRelay.Proofs.RestartIsolation
import GhciRelay.Proofs.Outward
import GhciRelay.Proofs.Supervision
import GhciRelay.Proofs.Attunement
import GhciRelay.Proofs.Channels
import GhciRelay.Proofs.JsonNotation
import GhciRelay.Proofs.JsonNumber
import GhciRelay.Proofs.JsonReading
import GhciRelay.Proofs.WireMessage
import GhciRelay.Proofs.Shutdown
import GhciRelay.Proofs.Retraction
import GhciRelay.Proofs.HandlerFailure
import GhciRelay.Proofs.CommandLog
import GhciRelay.Proofs.Stepwise
import GhciRelay.Proofs.Refusal
import GhciRelay.Proofs.Visibility
import GhciRelay.Proofs.Banner
import GhciRelay.Proofs.Recompilation
import GhciRelay.Proofs.Lines
import GhciRelay.Proofs.Watch
import GhciRelay.Proofs.Waiting
import GhciRelay.Proofs.Simulation
import GhciRelay.Proofs.Utf8
import GhciRelay.Proofs.Pumping
import GhciRelay.Proofs.LongLines
import GhciRelay.Proofs.ByteAccount
import GhciRelay.Proofs.Prompt
import GhciRelay.Proofs.PromptLiteral
import GhciRelay.Proofs.BannerGrammar
import GhciRelay.Proofs.StructuredBanner
import GhciRelay.Proofs.FileUri
import GhciRelay.Proofs.NormalPath
import GhciRelay.Proofs.PathSpelling
import GhciRelay.Proofs.IndexHistory
import GhciRelay.Proofs.Publication
import GhciRelay.Proofs.RootSpelling
import GhciRelay.Proofs.LaunchCommand
