import Reckoner.Tree

/-!
# Builders

Reading a text decides which nodes there are and where they stand; a `Builder` makes them. One
builder keeps the places, the other leaves them out, so that texts of different layout give the same
tree.
-/

namespace Reckoner

/-- How the nodes of a tree are made out of their parts and the place they were read from. -/
structure Builder where
  program : List Statement → Span → Program
  empty : Span → Statement
  expression : Expr → Span → Statement
  literal : Float → String → Span → Literal
  binary : BinaryOp → Expr → Expr → Span → Expr
  unary : UnaryOp → Operand → Span → Unary
  /-- the expression in parentheses, at its place up to the closing one -/
  parenthesized : Expr → Span → Expr := fun e s => e.withSpan s

namespace Builder

/-- The builder that keeps every place. -/
def located : Builder where
  program := Program.mk
  empty := .empty
  expression := .expression
  literal := Literal.mk
  binary := .binary
  unary := Unary.mk

/-- The builder that puts every node nowhere. -/
def unlocated : Builder where
  program body _ := ⟨body, .nowhere⟩
  empty _ := .empty .nowhere
  expression e _ := .expression e .nowhere
  literal value raw _ := ⟨value, raw, .nowhere⟩
  binary op l r _ := .binary op l r .nowhere
  unary op a _ := ⟨op, a, .nowhere⟩
  parenthesized e _ := e

end Builder

end Reckoner
