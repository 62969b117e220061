import Reckoner.Span

/-!
# Tokens

The words of the calculator: numbers, operators, parentheses and semicolons.
-/

namespace Reckoner

/-- What a stretch of a text is. All kinds but `blank` are kinds of tokens. -/
inductive Kind where
  /-- white space or a comment -/
  | blank
  | semicolon
  | opening
  | closing
  | number
  /-- `+` or `-` -/
  | additive
  /-- `*` or `/` -/
  | multiplicative
deriving DecidableEq, Inhabited, Repr

namespace Kind

/-- All kinds, in the order in which their patterns are tried. -/
def all : List Kind := [.blank, .semicolon, .opening, .closing, .number, .additive, .multiplicative]

/-- The name in listings of tokens. -/
def name : Kind → String
  | blank => "Skip"
  | semicolon => "Semicolon"
  | opening => "OpeningParen"
  | closing => "ClosingParen"
  | number => "Number"
  | additive => "AddOp"
  | multiplicative => "MulOp"

/-- How error messages speak of the kind. -/
def description : Kind → String
  | blank => "whitespace"
  | semicolon => "';'"
  | opening => "'('"
  | closing => "')'"
  | number => "number"
  | additive => "'+' or '-'"
  | multiplicative => "'*' or '/'"

/-- The kind with the given name. -/
def ofName? (s : String) : Option Kind := all.find? (·.name == s)

theorem mem_all (k : Kind) : k ∈ all := by cases k <;> decide

end Kind

/-- A token: its kind, its characters and where they stand. -/
structure Token where
  kind : Kind
  lexeme : String
  span : Span
deriving DecidableEq, Inhabited, Repr

namespace Token

/-- The semicolon of no width that closes a text which does not close itself. -/
def terminator (offset : Nat) : Token := ⟨.semicolon, "", .emptyAt offset⟩

/-- Whether the token is a semicolon without a character in the text. -/
def isSynthetic (t : Token) : Bool := t.kind == .semicolon && t.span.isEmpty

theorem isSynthetic_terminator (n : Nat) : (terminator n).isSynthetic := by
  simp [terminator, isSynthetic, Span.isEmpty, Span.emptyAt]

end Token

end Reckoner
