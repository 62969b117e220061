import Reckoner.Span

/-!
# Trees

What a text says once it is read: a program is a list of statements, a statement is empty or an
expression. Every node carries the span it was read from. A `Node` is any part of a tree.
-/

namespace Reckoner

/-- A number as it is written. -/
structure Literal where
  value : Float
  /-- the digits as they stand in the text -/
  raw : String
  span : Span
deriving BEq, Inhabited, Repr

/-- An operator between two operands. -/
inductive BinaryOp where
  | add
  | sub
  | mul
  | div
deriving DecidableEq, Inhabited, Repr

namespace BinaryOp

def symbol : BinaryOp → String
  | add => "+"
  | sub => "-"
  | mul => "*"
  | div => "/"

def ofSymbol? : String → Option BinaryOp
  | "+" => some add
  | "-" => some sub
  | "*" => some mul
  | "/" => some div
  | _ => none

theorem ofSymbol?_symbol (op : BinaryOp) : ofSymbol? op.symbol = some op := by cases op <;> rfl

end BinaryOp

/-- An operator before its only operand. -/
inductive UnaryOp where
  | negate
deriving DecidableEq, Inhabited, Repr

namespace UnaryOp

def symbol : UnaryOp → String
  | negate => "-"

/-- The operator that is written `s`. A plus is none. -/
def ofSymbol? : String → Option UnaryOp
  | "-" => some negate
  | _ => none

theorem ofSymbol?_symbol (op : UnaryOp) : ofSymbol? op.symbol = some op := by cases op; rfl

end UnaryOp

/-- What a unary operator may stand before. Reading a text gives literals only. -/
inductive Operand where
  | literal (l : Literal)
  | unary (op : UnaryOp) (argument : Operand) (span : Span)
deriving BEq, Inhabited, Repr

/-- A unary operator before its operand. -/
structure Unary where
  op : UnaryOp
  argument : Operand
  span : Span
deriving BEq, Inhabited, Repr

inductive Expr where
  | literal (l : Literal)
  | binary (op : BinaryOp) (left right : Expr) (span : Span)
  | unary (u : Unary)
deriving BEq, Inhabited, Repr

/-- A statement; the span takes in the semicolon at its end. -/
inductive Statement where
  | empty (span : Span)
  | expression (e : Expr) (span : Span)
deriving BEq, Inhabited, Repr

/-- The statements of a text in their order. -/
structure Program where
  body : List Statement
  span : Span
deriving BEq, Inhabited, Repr

def Operand.span : Operand → Span
  | literal l => l.span
  | unary _ _ s => s

/-- The operation as an operand of another one. -/
def Unary.toOperand (u : Unary) : Operand := .unary u.op u.argument u.span

namespace Expr

def span : Expr → Span
  | literal l => l.span
  | binary _ _ _ s => s
  | unary u => u.span

/-- The same expression at another place. Only the outermost node moves. -/
def withSpan (s : Span) : Expr → Expr
  | literal l => literal { l with span := s }
  | binary op l r _ => binary op l r s
  | unary u => unary { u with span := s }

@[simp] theorem span_withSpan (s : Span) (e : Expr) : (e.withSpan s).span = s := by cases e <;> rfl

end Expr

def Statement.span : Statement → Span
  | empty s => s
  | expression _ s => s

/-- Any part of a tree. A statement, an expression and an operand each come in two ways: as a member
of its family, and as the thing of a certain kind that it is. -/
inductive Node where
  | program (p : Program)
  | statement (s : Statement)
  | emptyStatement (span : Span)
  | expressionStatement (e : Expr) (span : Span)
  | expression (e : Expr)
  | binary (op : BinaryOp) (left right : Expr) (span : Span)
  | unary (u : Unary)
  | literal (l : Literal)
  | operand (a : Operand)
deriving BEq, Inhabited, Repr

namespace Node

def name : Node → String
  | program _ => "Program"
  | statement _ => "Statement"
  | emptyStatement _ => "EmptyStatement"
  | expressionStatement _ _ => "ExpressionStatement"
  | expression _ => "Expression"
  | binary _ _ _ _ => "BinaryExpression"
  | unary _ => "UnaryExpression"
  | literal _ => "NumericLiteral"
  | operand _ => "UnaryArgument"

def span : Node → Span
  | program p => p.span
  | statement s => s.span
  | emptyStatement s => s
  | expressionStatement _ s => s
  | expression e => e.span
  | binary _ _ _ s => s
  | unary u => u.span
  | literal l => l.span
  | operand a => a.span

/-- The statement as what it is. -/
def ofStatement : Statement → Node
  | .empty s => emptyStatement s
  | .expression e s => expressionStatement e s

def ofExpr : Expr → Node
  | .literal l => literal l
  | .binary op l r s => binary op l r s
  | .unary u => unary u

def ofOperand : Operand → Node
  | .literal l => literal l
  | .unary op a s => unary ⟨op, a, s⟩

/-- The one part directly inside the node, for nodes that have exactly one. -/
def inner? : Node → Option Node
  | statement s => some (ofStatement s)
  | expressionStatement e _ => some (expression e)
  | expression e => some (ofExpr e)
  | unary u => some (operand u.argument)
  | operand a => some (ofOperand a)
  | _ => none

theorem span_ofStatement (s : Statement) : (ofStatement s).span = s.span := by cases s <;> rfl

theorem span_ofExpr (e : Expr) : (ofExpr e).span = e.span := by cases e <;> rfl

theorem span_ofOperand (a : Operand) : (ofOperand a).span = a.span := by cases a <;> rfl

end Node

/-- The nodes of an operand, each before its parts. -/
def Operand.nodes : Operand → List Node
  | literal l => [.literal l]
  | unary op a s => .unary ⟨op, a, s⟩ :: a.nodes

/-- The nodes of an expression, each before its parts and the left operand before the right. -/
def Expr.nodes : Expr → List Node
  | literal l => [.expression (literal l), .literal l]
  | binary op l r s => .expression (binary op l r s) :: .binary op l r s :: (l.nodes ++ r.nodes)
  | unary u => .expression (unary u) :: .unary u :: u.argument.nodes

/-- The nodes of a statement, each before its parts. -/
def Statement.nodes : Statement → List Node
  | empty s => [.statement (empty s), .emptyStatement s]
  | expression e s => .statement (expression e s) :: .expressionStatement e s :: e.nodes

/-- The nodes of a program, each before its parts. -/
def Program.nodes (p : Program) : List Node := .program p :: p.body.flatMap Statement.nodes

end Reckoner
