import Letterpress.Main
import Letterpress.Proofs.Expansion.Lexical
import Letterpress.Proofs.Expansion.Scoping
import Letterpress.Proofs.Expansion.Unresolved
import Letterpress.Proofs.Formula.Precedence
import Letterpress.Proofs.Page.Depth
import Letterpress.Proofs.Page.Ending
import Letterpress.Proofs.Param.WellFormed
import Letterpress.Proofs.Param.Shape
import Letterpress.Proofs.Template.Shape
import Letterpress.Proofs.Param.Alike
import Letterpress.Proofs.Template.Acceptance
import Letterpress.Proofs.Files.Tree
import Letterpress.Proofs.Path.Parts
import Letterpress.Proofs.Files.Walk
import Letterpress.Proofs.Path.Relative
import Letterpress.Proofs.Files.Way
import Letterpress.Proofs.Site.Pages
import Letterpress.Proofs.Site.Writing
import Letterpress.Proofs.Files.Apart
import Letterpress.Proofs.Site.Generation
import Letterpress.Proofs.Site.Templates
import Letterpress.Proofs.Site.Building
import Letterpress.Proofs.Site.Rebuilding
import Letterpress.Proofs.Page.Confinement
import Letterpress.Proofs.Registry
import Letterpress.Proofs.Expansion.Inserted
import Letterpress.Proofs.Markup.Scanning
import Letterpress.Proofs.Markup.RoundTrip
import Letterpress.Proofs.Decimal.Numeral
import Letterpress.Proofs.Formula.Outcome
import Letterpress.Proofs.Template.FormulaTable
import Letterpress.Proofs.Expansion.Stack
import Letterpress.Proofs.Marker.Occurrence
import Letterpress.Proofs.Formula.Scanning
import Letterpress.Proofs.Formula.Printing
import Letterpress.Proofs.Formula.Comparison
import Letterpress.Proofs.Expansion.Splicing
import Letterpress.Proofs.Expansion.Hole
import Letterpress.Proofs.Expansion.Removal
import Letterpress.Proofs.Expansion.Actionless
import Letterpress.Proofs.Param.Printing
import Letterpress.Proofs.Template.Format
import Letterpress.Proofs.Markup.TopLevel
import Letterpress.Proofs.Markup.ClosingTags
import Letterpress.Proofs.Param.NormalForm
import Letterpress.Proofs.Path.Below
import Letterpress.Proofs.Site.Outputs
import Letterpress.Proofs.Text.Bytes
import Letterpress.Proofs.Site.Discovery
import Letterpress.Proofs.Files.UnderRoot
import Letterpress.Proofs.Formula.Spelling
import Letterpress.Proofs.Scope.History
import Letterpress.Proofs.Template.Search
