import Reckoner.Eval
import Reckoner.Grammar.Program
import Reckoner.Tree.Json

/-!
# Running a text

A text is read and evaluated in one go. What is put out of it is the list of its results, its tree
or its tokens.
-/

namespace Reckoner

/-- The results of a text, one for each statement, with the trace of the run. -/
def run (text : String) : Traced (Except Error (List (Option Float))) :=
  let p := Program.read .located text
  match p.result with
  | .error e => ⟨.error (.parse e), p.trace⟩
  | .ok program =>
    let v := program.evalTraced
    ⟨v.result.mapError .runtime, p.trace ++ .evaluation program.body.length :: v.trace⟩

/-- What is put out of a text. -/
inductive Mode where
  /-- the results, a line each -/
  | results
  /-- the tree as JSON -/
  | ast
  /-- the tokens as JSON -/
  | tokens
deriving DecidableEq, Inhabited, Repr

namespace Mode

def name : Mode → String
  | results => "results"
  | ast => "ast"
  | tokens => "tokens"

/-- The mode that the word `s` asks for. -/
def ofName? (s : String) : Option Mode := [results, ast, tokens].find? (·.name == s)

end Mode

def resultLines (results : List (Option Float)) : String :=
  "\n".intercalate (results.map Value.resultText)

/-- The trace of reading a stream to its end without a parser. -/
def Stream.trace (s : Stream) : List Event := s.tokens.map .ofToken ++ (s.cut.map .cut).toList

/-- What is put out of a text in the mode, with the trace of the work. -/
def Mode.output (text : String) : Mode → Traced (Except Error String)
  | results =>
    let r := run text
    ⟨r.result.map resultLines, r.trace⟩
  | ast =>
    let p := Program.read .located text
    ⟨(p.result.mapError .parse).map (·.json.pretty 0), p.trace⟩
  | tokens =>
    let s := Stream.ofText text
    ⟨.ok ((Json.array (s.tokens.map Token.json)).pretty 0), s.trace⟩

end Reckoner
