import Marginalia.Main
import Marginalia.Proofs.Command.Codes
import Marginalia.Proofs.Comment.Blocks
import Marginalia.Proofs.Comment.Layout
import Marginalia.Proofs.Extraction.Accounts
import Marginalia.Proofs.Extraction.Strictness
import Marginalia.Proofs.FileTree
import Marginalia.Proofs.Literal.Numerals
import Marginalia.Proofs.Literal.RawItems
import Marginalia.Proofs.Literal.Replacing
import Marginalia.Proofs.Literal.Runs
import Marginalia.Proofs.Literal.Strings
import Marginalia.Proofs.Marker.Joined
import Marginalia.Proofs.Marker.Obeying
import Marginalia.Proofs.Marker.Refusals
import Marginalia.Proofs.Marker.Single
import Marginalia.Proofs.Marker.Written
import Marginalia.Proofs.Shape.Notation
import Marginalia.Proofs.Widths
import Marginalia.Proofs.Marker.HeadForms
import Marginalia.Proofs.Holding
import Marginalia.Proofs.Literal.Positions
import Marginalia.Proofs.Literal.Shifts
import Marginalia.Proofs.Marker.Positions
import Marginalia.Proofs.Literal.Recursion
import Marginalia.Proofs.Literal.WellSpelled
import Marginalia.Proofs.Registry
import Marginalia.Proofs.Scanner
