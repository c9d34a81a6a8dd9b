import Formulary.Column.Comparison
import Formulary.Column.Logic
import Formulary.Document.Reader
import Formulary.Document.Writer
import Formulary.Expr.Canonical
import Formulary.Expr.Document
import Formulary.Expr.Parser
import Formulary.Text.Diagnostic
import Formulary.Value.Document
import Formulary.Value.Logic
import Formulary.Value.Text
import Formulary.Function.Registry
import Formulary.Pattern.Basic
import Formulary.Pattern.Reader
import Formulary.Pattern.Matching
import Formulary.Compilation.Failure
import Formulary.Compilation.Rewriting
import Formulary.Compilation.Cache
import Formulary.Compilation.Inspection
import Formulary.Toml.Basic
import Formulary.Toml.Outline
import Formulary.Toml.Reader
import Formulary.Toml.Writer
import Formulary.Csv.Frame
import Formulary.Settings.Basic
import Formulary.Settings.Document
import Formulary.Command.Session
import Formulary.Command.Build
import Formulary.Command.Program
import Formulary.Main
import Formulary.Proofs.Grammar.Acceptance
import Formulary.Proofs.Compilation.Confinement
import Formulary.Proofs.Compilation.Meaning
import Formulary.Proofs.Canonical.RoundTrip
import Formulary.Proofs.Compilation.Touched
import Formulary.Proofs.Evaluation.Safety
import Formulary.Proofs.Evaluation.Requirement
import Formulary.Proofs.Evaluation.WellFormed
import Formulary.Proofs.Compilation.Refusal
import Formulary.Proofs.Compilation.Termination
import Formulary.Proofs.Canonical.Fragment
import Formulary.Proofs.Grammar.Position
import Formulary.Proofs.Column.Agreement
import Formulary.Proofs.Compilation.Extension
import Formulary.Proofs.Compilation.Recency
import Formulary.Proofs.Value.Conversion
import Formulary.Proofs.Pattern.Embedding
import Formulary.Proofs.Pattern.Execution
import Formulary.Proofs.Pattern.Wholeness
import Formulary.Proofs.Value.Coherence
import Formulary.Proofs.Evaluation.Chain
import Formulary.Proofs.Column.Truth
import Formulary.Proofs.Compilation.Lockstep
import Formulary.Proofs.Compilation.Stability
import Formulary.Proofs.Evaluation.Grouping
import Formulary.Proofs.Compilation.Registration
import Formulary.Proofs.Function.Sum
import Formulary.Proofs.Function.Extreme
import Formulary.Proofs.Evaluation.Selection
import Formulary.Proofs.Column.Building
import Formulary.Proofs.Value.Subscript
import Formulary.Proofs.Canonical.Words
import Formulary.Proofs.Grammar.Spacing
import Formulary.Proofs.Function.Ranges
import Formulary.Proofs.Grammar.Branches
import Formulary.Proofs.Settings.Storage
