import BlockScript.Main
import BlockScript.Proofs.Lexical.Inscription
import BlockScript.Proofs.Lexical.Lexemes
import BlockScript.Proofs.Lexical.Longest
import BlockScript.Proofs.Lexical.Tiling
import BlockScript.Proofs.Lexical.Spans
import BlockScript.Proofs.Lexical.Layout
import BlockScript.Proofs.Lexical.Concatenation
import BlockScript.Proofs.Syntax.Grammar
import BlockScript.Proofs.Syntax.Run
import BlockScript.Proofs.Syntax.Soundness
import BlockScript.Proofs.Syntax.Completeness
import BlockScript.Proofs.Syntax.Recognition
import BlockScript.Proofs.Syntax.Lookahead
import BlockScript.Proofs.Syntax.Positions
import BlockScript.Proofs.Syntax.Ground
import BlockScript.Proofs.Syntax.Blame
import BlockScript.Proofs.Syntax.Levels
import BlockScript.Proofs.Syntax.Limit
import BlockScript.Proofs.Session.Machine
import BlockScript.Proofs.Session.Mirror
import BlockScript.Proofs.Session.Simulation
import BlockScript.Proofs.Session.Safety
import BlockScript.Proofs.Session.Agreement
import BlockScript.Proofs.Source.Layout
import BlockScript.Proofs.Source.Concatenation
import BlockScript.Proofs.Source.Faults
import BlockScript.Proofs.Number.Code
import BlockScript.Proofs.Number.ReadBack
import BlockScript.Proofs.Printing.Producible
import BlockScript.Proofs.Printing.Pieces
import BlockScript.Proofs.Printing.Derivation
import BlockScript.Proofs.Printing.Spacing
import BlockScript.Proofs.Printing.Legible
import BlockScript.Proofs.Printing.RoundTrip
import BlockScript.Proofs.Printing.Forms
import BlockScript.Proofs.Printing.Groupings
import BlockScript.Proofs.Printing.Fewest
import BlockScript.Proofs.Printing.Necessity
import BlockScript.Proofs.Printing.Origin
import BlockScript.Proofs.Tree.Paths
import BlockScript.Proofs.Tree.Shape
import BlockScript.Proofs.Tree.Height
import BlockScript.Proofs.Syntax.Splitting
import BlockScript.Proofs.Json.Alike
import BlockScript.Proofs.Json.Lossless
import BlockScript.Proofs.Lexical.Outcomes
import BlockScript.Proofs.Lexical.Calls
import BlockScript.Proofs.Lexical.Locality
import BlockScript.Proofs.Storage.Effect
import BlockScript.Proofs.Syntax.Choice
import BlockScript.Proofs.Source.Bytes
import BlockScript.Proofs.Source.Lines
import BlockScript.Proofs.Report.Markup
import BlockScript.Proofs.Report.Scene
import BlockScript.Proofs.Report.Excerpt
import BlockScript.Proofs.Report.Colours
import BlockScript.Proofs.Json.ReadBack
