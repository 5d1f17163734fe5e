import Inlay.ClassName
import Inlay.Variance
import Inlay.Span
import Inlay.Symbol
import Inlay.Ty.Basic
import Inlay.Ty.Equality
import Inlay.Ty.Writer
import Inlay.Ty.Instance
import Inlay.Ty.Names
import Inlay.Hint.Basic
import Inlay.Hint.Draft
import Inlay.Config
import Inlay.Diagnostic.Basic
import Inlay.Diagnostic.Finding
import Inlay.Problem.Basic
import Inlay.Problem.Hint
import Inlay.Overload.Basic
import Inlay.Overload.Table
import Inlay.Overload.Hint
import Inlay.Event
import Inlay.Scan
import Inlay.Workspace
import Inlay.Wire.Json
import Inlay.Wire.Name
import Inlay.Wire.Ty
import Inlay.Wire.Hint
import Inlay.Proofs.CanonicalName
import Inlay.Proofs.ParsedName
import Inlay.Proofs.Walk
import Inlay.Proofs.PackageText
import Inlay.Proofs.UniqueReading
import Inlay.Proofs.Instances
import Inlay.Proofs.InstanceOrder
import Inlay.Proofs.ConfigCheck
import Inlay.Proofs.TableSpec
import Inlay.Proofs.Suppression
import Inlay.Proofs.CandidateChange
import Inlay.Proofs.Relabeling
import Inlay.Proofs.NormalForm
import Inlay.Proofs.DraftRuns
import Inlay.Proofs.HintText
import Inlay.Proofs.ProblemHint
import Inlay.Proofs.ShownTogether
import Inlay.Proofs.CallHints
import Inlay.Proofs.Alternatives
import Inlay.Proofs.ScanSpec
import Inlay.Proofs.Classification
import Inlay.Proofs.Recognition
import Inlay.Proofs.ScanQueries
import Inlay.Proofs.ScanLog
import Inlay.Proofs.RoundTrip
