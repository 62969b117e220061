import Reckoner.Main
import Reckoner.Proofs.Outcome
import Reckoner.Proofs.Phrase
import Reckoner.Proofs.Derivation
import Reckoner.Proofs.Program
import Reckoner.Proofs.Lexing
import Reckoner.Proofs.Reference
import Reckoner.Proofs.Scan
import Reckoner.Proofs.Render
import Reckoner.Proofs.RoundTrip
import Reckoner.Proofs.Placement
import Reckoner.Proofs.Failure
import Reckoner.Proofs.Erasure
import Reckoner.Proofs.Log
import Reckoner.Proofs.Gap
import Reckoner.Proofs.Cut
import Reckoner.Proofs.Coverage
import Reckoner.Proofs.Layout
import Reckoner.Proofs.Relocation
import Reckoner.Proofs.Passage
import Reckoner.Proofs.Verdict
import Reckoner.Proofs.Excerpt
import Reckoner.Proofs.Truncation
import Reckoner.Proofs.Join
import Reckoner.Proofs.Viable
import Reckoner.Proofs.Division
import Reckoner.Proofs.Digits
import Reckoner.Proofs.Results
import Reckoner.Proofs.JsonText
import Reckoner.Proofs.TreeText
import Reckoner.Proofs.LayoutFree
import Reckoner.Proofs.Terminator
import Reckoner.Proofs.Continuation
import Reckoner.Proofs.Enclosure
import Reckoner.Proofs.Semicolon
import Reckoner.Proofs.CommandLine
import Reckoner.Proofs.Unrolling
import Reckoner.Proofs.Progress
import Reckoner.Proofs.Pattern
import Reckoner.Proofs.Matching
import Reckoner.Proofs.Alike
import Reckoner.Proofs.Context
import Reckoner.Proofs.Spans
import Reckoner.Proofs.Respanning
