import Reckoner.Token

/-!
# Errors

Why a text has no value: it cannot be read, or it divides by zero. Each error says where.
-/

namespace Reckoner

/-- Why a text cannot be read. -/
inductive ParseError where
  /-- a token of one kind stands where one of another kind has to stand -/
  | unexpectedToken (found expected : Kind) (span : Span)
  /-- a token that starts no operand stands where an operand has to start -/
  | unexpectedLiteral (found : Kind) (span : Span)
  /-- there is no token where one has to be; the last one ended at `offset` -/
  | unexpectedEnd (offset : Nat)
deriving DecidableEq, Inhabited, Repr

namespace ParseError

def name : ParseError → String
  | unexpectedToken _ _ _ => "UnexpectedToken"
  | unexpectedLiteral _ _ => "UnexpectedLiteral"
  | unexpectedEnd _ => "UnexpectedEndOfInput"

def span : ParseError → Span
  | unexpectedToken _ _ s => s
  | unexpectedLiteral _ s => s
  | unexpectedEnd n => .emptyAt n

def message : ParseError → String
  | unexpectedToken found expected s =>
    s!"Error at {s.text}: Unexpected token {found.description}, expected {expected.description}."
  | unexpectedLiteral found s => s!"Error at {s.text}: Unexpected literal {found.description}."
  | unexpectedEnd n => s!"Error at {n}: Unexpected end of input."

end ParseError

/-- Why a tree has no value. -/
inductive RuntimeError where
  /-- the right operand of the division at `span` is zero -/
  | divisionByZero (span : Span)
deriving DecidableEq, Inhabited, Repr

namespace RuntimeError

def name : RuntimeError → String
  | divisionByZero _ => "DivisionByZero"

def span : RuntimeError → Span
  | divisionByZero s => s

def message : RuntimeError → String
  | divisionByZero s => s!"Error at {s.text}: Division by zero."

end RuntimeError

/-- Why a text has no value. -/
inductive Error where
  | parse (e : ParseError)
  | runtime (e : RuntimeError)
deriving DecidableEq, Inhabited, Repr

namespace Error

def name : Error → String
  | parse e => e.name
  | runtime e => e.name

def span : Error → Span
  | parse e => e.span
  | runtime e => e.span

def message : Error → String
  | parse e => e.message
  | runtime e => e.message

end Error

end Reckoner
