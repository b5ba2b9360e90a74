import DeviceSheet.Action
import DeviceSheet.Command.Arguments
import DeviceSheet.Command.Basic
import DeviceSheet.Command.Filter
import DeviceSheet.Command.Program
import DeviceSheet.Device
import DeviceSheet.Disk.Access
import DeviceSheet.Disk.Basic
import DeviceSheet.Disk.Edit
import DeviceSheet.Disk.Identity
import DeviceSheet.Disk.Walk
import DeviceSheet.Event
import DeviceSheet.Expander
import DeviceSheet.Extraction
import DeviceSheet.Failure
import DeviceSheet.Fault
import DeviceSheet.Job
import DeviceSheet.Layout
import DeviceSheet.Main
import DeviceSheet.Path
import DeviceSheet.Project
import DeviceSheet.Registration
import DeviceSheet.Script
import DeviceSheet.Text.Basic
import DeviceSheet.Text.Plain
import DeviceSheet.Text.Quoted
import DeviceSheet.Text.Space
import DeviceSheet.Text.Unseen
import DeviceSheet.Token.Basic
import DeviceSheet.Token.Read
import DeviceSheet.Token.Scan
import DeviceSheet.Proofs.Grammar
import DeviceSheet.Proofs.Unambiguity
import DeviceSheet.Proofs.Tokenization
import DeviceSheet.Proofs.CallSearch
import DeviceSheet.Proofs.Reading
import DeviceSheet.Proofs.Extraction
import DeviceSheet.Proofs.Walks
import DeviceSheet.Proofs.DiskGrowth
import DeviceSheet.Proofs.FileIdentity
import DeviceSheet.Proofs.Expansion
import DeviceSheet.Proofs.PlainExpansion
import DeviceSheet.Proofs.Inlining
import DeviceSheet.Proofs.ImportGraph
import DeviceSheet.Proofs.Watching
import DeviceSheet.Proofs.Reuse
import DeviceSheet.Proofs.Nesting
import DeviceSheet.Proofs.DepthLimit
import DeviceSheet.Proofs.AppendedCall
import DeviceSheet.Proofs.Seams
import DeviceSheet.Proofs.LeftmostDirectives
import DeviceSheet.Proofs.Compilation
import DeviceSheet.Proofs.Lookups
import DeviceSheet.Proofs.RegistrationRuns
import DeviceSheet.Proofs.Lines
import DeviceSheet.Proofs.EnclosingPaths
import DeviceSheet.Proofs.NewDirectories
import DeviceSheet.Proofs.WritingJobs
import DeviceSheet.Proofs.CallChecks
import DeviceSheet.Proofs.RegistrationEffects
import DeviceSheet.Proofs.Deliveries
import DeviceSheet.Proofs.Recompilation
import DeviceSheet.Proofs.MediaBlocks
import DeviceSheet.Proofs.CompanionScript
import DeviceSheet.Proofs.FragmentIsolation
import DeviceSheet.Proofs.Readback
import DeviceSheet.Proofs.SingleRegistration
import DeviceSheet.Proofs.Trimming
import DeviceSheet.Proofs.Braces
import DeviceSheet.Proofs.FragmentLines
import DeviceSheet.Proofs.ScriptLines
import DeviceSheet.Proofs.PathComponents
import DeviceSheet.Proofs.FragmentPaths
import DeviceSheet.Proofs.ImportBase
