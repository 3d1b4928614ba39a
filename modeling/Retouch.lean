import Retouch.Text
import Retouch.Segment
import Retouch.Session
import Retouch.Script
import Retouch.Run
import Retouch.Rule
import Retouch.Linter
import Retouch.Toml.Grammar
import Retouch.Config.Load
import Retouch.Diff.Tool
import Retouch.Files.Tree
import Retouch.Files.Fix
import Retouch.Command
import Retouch.Main
import Retouch.Proofs.History
import Retouch.Proofs.Session.Landing
import Retouch.Proofs.Session.Batch
import Retouch.Proofs.Session.Turn
import Retouch.Proofs.Session.Exchange
import Retouch.Proofs.Session.Reach
import Retouch.Proofs.Session.Atomicity
import Retouch.Proofs.Run.Settling
import Retouch.Proofs.Text.Segment
import Retouch.Proofs.Rule.Wish
import Retouch.Proofs.Rule.Walk
import Retouch.Proofs.Session.Sweep
import Retouch.Proofs.Linter.Mending
import Retouch.Proofs.Rule.Tidy
import Retouch.Proofs.Linter.Tidying
import Retouch.Proofs.Linter.Thinning
import Retouch.Proofs.Linter.Convergence
import Retouch.Proofs.Session.Residue
import Retouch.Proofs.Run.Repetition
import Retouch.Proofs.Linter.Sweeping
import Retouch.Proofs.Linter.Preservation
import Retouch.Proofs.Linter.Normalization
import Retouch.Proofs.Run.Conflicts
import Retouch.Proofs.Run.Stability
import Retouch.Proofs.Linter.Harmony
import Retouch.Proofs.Run.Independence
import Retouch.Proofs.Run.Quarantine
import Retouch.Proofs.Session.Overlay
import Retouch.Proofs.Linter.Cleanliness
import Retouch.Proofs.Linter.Resumption
import Retouch.Proofs.Text.Rows
import Retouch.Proofs.Linter.Uniformity
import Retouch.Proofs.Linter.Trimming
import Retouch.Proofs.Linter.Spacing
import Retouch.Proofs.Linter.Rendering
import Retouch.Proofs.Linter.Sufficiency
import Retouch.Proofs.Session.Reindent
import Retouch.Proofs.Session.Precedence
import Retouch.Proofs.Session.Range
import Retouch.Proofs.Linter.Location
import Retouch.Proofs.Paint
import Retouch.Proofs.Path
import Retouch.Proofs.Files.Tree
import Retouch.Proofs.Files.Collect
import Retouch.Proofs.Files.Fix
import Retouch.Proofs.Command.Agreement
