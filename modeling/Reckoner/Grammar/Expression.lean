import Reckoner.Grammar.Cursor
import Reckoner.Tree.Builder

/-!
# Reading expressions

    expression     := additive
    additive       := multiplicative (("+" | "-") multiplicative)*
    multiplicative := primary (("*" | "/") primary)*
    primary        := "(" expression ")" | "-" literal | literal
    literal        := number

Operators of a level group to the left, and each node of a level starts where the level starts. All
phrases but the tails of the two loops leave at least one token behind, so reading ends.
-/

namespace Reckoner.Grammar

/-- The outcome of reading a phrase from `c`: it leaves at least one token behind, or it fails. -/
abbrev Phrase (α : Type) (c : Cursor) := Except Failure (α × c.Beyond)

/-- The outcome of reading what may be nothing from `c`. -/
abbrev Tail (α : Type) (c : Cursor) := Except Failure (α × c.Onward)

/-- The number that is written with the given digits. -/
def numberValue (digits : String) : Float :=
  Float.ofScientific (Nat.ofDigitChars 10 digits.toList 0) false 0

/-- The operator of an additive token. -/
def additiveOp (t : Token) : BinaryOp := if t.lexeme = "-" then .sub else .add

/-- The operator of a multiplicative token. -/
def multiplicativeOp (t : Token) : BinaryOp := if t.lexeme = "/" then .div else .mul

/-- Reads a number. -/
def literal (b : Builder) (c : Cursor) : Phrase Literal c := do
  let t ← c.ahead
  if t.kind = .number then
    let (t, d) ← c.look.take .number
    return (b.literal (numberValue t.lexeme) t.lexeme t.span, d)
  else
    throw ⟨.unexpectedLiteral t.kind t.span, c.look⟩

/-- Reads a literal behind a minus. A plus may not stand there, nor anything but a literal. -/
def unary (b : Builder) (c : Cursor) : Phrase Expr c := do
  let (t, d) ← c.take .additive
  match UnaryOp.ofSymbol? t.lexeme with
  | none => throw ⟨.unexpectedToken t.kind .number t.span, d⟩
  | some op =>
    let (l, e) ← literal b d
    return (.unary (b.unary op (.literal l) ⟨t.span.start, e.1.lastEnd⟩), ⟨e, Nat.lt_trans e.2 d.2⟩)

mutual

/-- Reads an expression. -/
def expression (b : Builder) (c : Cursor) : Phrase Expr c := additive b c
termination_by 8 * c.tokens.length + 4

/-- Reads a sum. -/
def additive (b : Builder) (c : Cursor) : Phrase Expr c := do
  let t ← c.ahead
  let (left, d) ← multiplicative b c.look
  let (e, d') ← additiveTail b t.span.start left d
  return (e, ⟨d', Nat.lt_of_le_of_lt d'.2 d.2⟩)
termination_by 8 * c.tokens.length + 3
decreasing_by
  · simp
  · have := d.2; simp at this; omega

/-- Reads the terms that follow the sum `left`, which starts at `start`. -/
def additiveTail (b : Builder) (start : Nat) (left : Expr) (c : Cursor) : Tail Expr c := do
  let t ← c.ahead
  if t.kind = .additive then
    let (op, d) ← c.look.take .additive
    let (right, d') ← multiplicative b d
    let sum := b.binary (additiveOp op) left right ⟨start, d'.1.lastEnd⟩
    let (e, d'') ← additiveTail b start sum d'
    return (e, ⟨d'', by have := d.2; have := d'.2; have := d''.2; simp at *; omega⟩)
  else
    return (left, ⟨c.look, Nat.le_refl _⟩)
termination_by 8 * c.tokens.length
decreasing_by
  · have := d.2; simp at this; omega
  · have := d.2; have := d'.2; simp at *; omega

/-- Reads a product. -/
def multiplicative (b : Builder) (c : Cursor) : Phrase Expr c := do
  let t ← c.ahead
  let (left, d) ← primary b c.look
  let (e, d') ← multiplicativeTail b t.span.start left d
  return (e, ⟨d', Nat.lt_of_le_of_lt d'.2 d.2⟩)
termination_by 8 * c.tokens.length + 2
decreasing_by
  · simp
  · have := d.2; simp at this; omega

/-- Reads the factors that follow the product `left`, which starts at `start`. -/
def multiplicativeTail (b : Builder) (start : Nat) (left : Expr) (c : Cursor) : Tail Expr c := do
  let t ← c.ahead
  if t.kind = .multiplicative then
    let (op, d) ← c.look.take .multiplicative
    let (right, d') ← primary b d
    let product := b.binary (multiplicativeOp op) left right ⟨start, d'.1.lastEnd⟩
    let (e, d'') ← multiplicativeTail b start product d'
    return (e, ⟨d'', by have := d.2; have := d'.2; have := d''.2; simp at *; omega⟩)
  else
    return (left, ⟨c.look, Nat.le_refl _⟩)
termination_by 8 * c.tokens.length
decreasing_by
  · have := d.2; simp at this; omega
  · have := d.2; have := d'.2; simp at *; omega

/-- Reads an operand. -/
def primary (b : Builder) (c : Cursor) : Phrase Expr c := do
  let t ← c.ahead
  match t.kind with
  | .opening => parenthesized b c.look
  | .additive => unary b c.look
  | _ => (fun r => (.literal r.1, r.2)) <$> literal b c.look
termination_by 8 * c.tokens.length + 1
decreasing_by simp

/-- Reads an expression in parentheses. It is stretched up to the closing one, but not back to the
opening one. -/
def parenthesized (b : Builder) (c : Cursor) : Phrase Expr c := do
  let (_, d) ← c.take .opening
  let (inner, d') ← expression b d
  let (closing, d'') ← d'.1.take .closing
  let e := b.parenthesized inner ⟨inner.span.start, closing.span.stop⟩
  return (e, ⟨d'', by have := d.2; have := d'.2; have := d''.2; omega⟩)
termination_by 8 * c.tokens.length
decreasing_by have := d.2; omega

end

end Reckoner.Grammar
