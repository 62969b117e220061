import Reckoner.Decimal.Layout
import Reckoner.Text.Quoted
import Reckoner.Token.Reader

/-!
# The trace of a run

What is noted while a text is read and evaluated. Each event belongs to a part of the calculator,
its target, and has a level; both decide whether it is shown.
-/

namespace Reckoner

/-- How much an event matters, the gravest level first. -/
inductive Level where
  | error
  | warn
  | info
  | debug
  | trace
deriving DecidableEq, Inhabited, Repr

namespace Level

/-- All levels, the gravest first. -/
def all : List Level := [error, warn, info, debug, trace]

/-- The place of the level in their order, counted from one. -/
def rank : Level → Nat
  | error => 1
  | warn => 2
  | info => 3
  | debug => 4
  | trace => 5

/-- The name at the front of a line. -/
def name : Level → String
  | error => "ERROR"
  | warn => "WARN"
  | info => "INFO"
  | debug => "DEBUG"
  | trace => "TRACE"

end Level

/-- Something that happens while a text is read or evaluated. -/
inductive Event where
  /-- a token of the text comes into view -/
  | token (t : Token)
  /-- the closing semicolon is supplied -/
  | terminator (offset : Nat)
  /-- the text is found to be cut -/
  | cut (c : Cut)
  /-- an empty statement has been read -/
  | emptyStatement (span : Span)
  /-- a statement with an expression has been read -/
  | expressionStatement (span : Span)
  /-- the whole program has been read -/
  | program (statements : Nat) (span : Span)
  /-- evaluation begins -/
  | evaluation (statements : Nat)
  /-- a statement has been evaluated -/
  | evaluated (span : Span) (result : Option Float)
deriving BEq, Inhabited, Repr

namespace Event

/-- The event of a token that comes into view. -/
def ofToken (t : Token) : Event := if t.isSynthetic then terminator t.span.start else token t

def level : Event → Level
  | cut _ | program _ _ | evaluation _ => .debug
  | _ => .trace

/-- The part of the calculator that the event belongs to. -/
def target : Event → String
  | token _ | terminator _ | cut _ => "tally::interpreter::lexer"
  | emptyStatement _ | expressionStatement _ | program _ _ =>
    "tally::interpreter::parser::statement"
  | evaluation _ => "tally"
  | evaluated _ _ => "tally::interpreter::evaluator::core"

/-- Numbers between `1e-4` and `1e16` are noted without an exponent and with a fraction. -/
def layout : Decimal.Layout where
  positional e := -4 ≤ e && e < 16
  fraction := true
  plus := false
  tie := .up
  infinity := "inf"
  minusInfinity := "-inf"
  nan := "NaN"

/-- The written form of the result of a statement. -/
def resultText : Option Float → String
  | none => "None"
  | some x => "Some(" ++ layout.write x ++ ")"

def message : Event → String
  | token t =>
    s!"token kind={t.kind.name} lexeme={Text.quoted t.lexeme} " ++
      s!"start={t.span.start} end={t.span.stop}"
  | terminator n => s!"synthesizing end-of-input terminator offset={n}"
  | cut c =>
    s!"unrecognized input, ending token stream offset={c.offset} " ++
      s!"slice={Text.quoted c.char.toString}"
  | emptyStatement s => s!"parsed empty statement span={s.text}"
  | expressionStatement s => s!"parsed expression statement span={s.text}"
  | program n s => s!"parsed program statements={n} start={s.start} end={s.stop}"
  | evaluation n => s!"evaluating program statements={n}"
  | evaluated s r => s!"evaluated statement span={s.text} result={resultText r}"

/-- The line that shows the event. -/
def line (e : Event) : String := e.level.name ++ " " ++ e.message

end Event

/-- A result, and the trace of how it came about. -/
structure Traced (α : Type) where
  result : α
  trace : List Event

end Reckoner
