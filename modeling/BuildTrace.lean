import BuildTrace.Main
import BuildTrace.Proofs.Configuration.Update
import BuildTrace.Proofs.Configure.Repetition
import BuildTrace.Proofs.Configure.Cancellation
import BuildTrace.Proofs.Configure.Delivery
import BuildTrace.Proofs.Configure.Persistence
import BuildTrace.Proofs.Configure.Verdict
import BuildTrace.Proofs.Configure.Selection
import BuildTrace.Proofs.Configure.Discovery
import BuildTrace.Proofs.LaunchTarget.Extraction
import BuildTrace.Proofs.LaunchTarget.Linking
import BuildTrace.Proofs.LaunchTarget.RoundTrip
import BuildTrace.Proofs.LaunchTarget.Run
import BuildTrace.Proofs.CompileUnit.Nesting
import BuildTrace.Proofs.Configure.Forgetting
import BuildTrace.Proofs.Configure.Exclusion
import BuildTrace.Proofs.Configure.Outputs
import BuildTrace.Proofs.FileTree.Reading
import BuildTrace.Proofs.Store.Restart
import BuildTrace.Proofs.Settings.Validation
import BuildTrace.Proofs.Switch.Longest
import BuildTrace.Proofs.CompileUnit.Family
import BuildTrace.Proofs.Configuration.Lookup
import BuildTrace.Proofs.Configure.Tidy
import BuildTrace.Proofs.Tool.Arguments
import BuildTrace.Proofs.CompileUnit.Standard
import BuildTrace.Proofs.Switch.Concatenation
import BuildTrace.Proofs.Switch.Written
import BuildTrace.Proofs.BuildTarget.Assignment
import BuildTrace.Proofs.BuildTarget.Declaration
import BuildTrace.Proofs.CompileUnit.Grouping
import BuildTrace.Proofs.WellFormed
import BuildTrace.Proofs.Tool.Exclusion
import BuildTrace.Proofs.CompileUnit.Version
import BuildTrace.Proofs.Command.Normal
import BuildTrace.Proofs.Command.Written
