import Descent.Command.Directory
import Descent.Double.Literal
import Descent.Literal.Quoted
import Descent.Literal.Word
import Descent.Main
import Descent.Proofs.Agreement
import Descent.Proofs.Command.Delivery
import Descent.Proofs.Comment.Banner
import Descent.Proofs.Comment.Characters
import Descent.Proofs.Comment.Concatenation
import Descent.Proofs.Comment.Layout
import Descent.Proofs.Comment.LineEnding
import Descent.Proofs.Comment.StringLiteral
import Descent.Proofs.Deepening
import Descent.Proofs.Encoding
import Descent.Proofs.Erasure
import Descent.Proofs.Excerpt
import Descent.Proofs.FirstMatch
import Descent.Proofs.Invariant
import Descent.Proofs.Isolation
import Descent.Proofs.Literal.Decoding
import Descent.Proofs.Literal.Float
import Descent.Proofs.Literal.Integer
import Descent.Proofs.Lossless
import Descent.Proofs.Refinement
import Descent.Proofs.Regrouping
import Descent.Proofs.Separated
import Descent.Proofs.Termination
import Descent.Proofs.Totality
import Descent.Session
