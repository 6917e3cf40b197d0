import Docblock.Command.Basic
import Docblock.Main
import Docblock.Proofs.Command.AllOrNothing
import Docblock.Proofs.DocFile.Isolation
import Docblock.Proofs.Document.Heading
import Docblock.Proofs.Document.Row
import Docblock.Proofs.Extraction.Concatenation
import Docblock.Proofs.Extraction.Coverage
import Docblock.Proofs.Field.LastWins
import Docblock.Proofs.Files.Expansion
import Docblock.Proofs.Language.Repetition
import Docblock.Proofs.RoundTrip.Code
import Docblock.Proofs.RoundTrip.Fields
import Docblock.Proofs.RoundTrip.Structured
import Docblock.Proofs.Snippet.Remnant
import Docblock.Proofs.Snippet.Unescaping
import Docblock.Proofs.Span.EscapedMarker
import Docblock.Proofs.Tagging.Grammar
import Docblock.Proofs.Tagging.Occurrence
import Docblock.Proofs.Tagging.Separation
import Docblock.Proofs.Token.MaximalRun
