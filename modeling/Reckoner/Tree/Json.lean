import Reckoner.Json
import Reckoner.Token
import Reckoner.Tree
import Reckoner.Value

/-!
# Trees as JSON

Every node is an object that ends with its place. A member of a family of nodes (a statement, an
expression, an operand) starts with its type; a node whose type is known does not. A program always
says that it is one.
-/

namespace Reckoner

abbrev Fields := List (String × Json)

/-- The fields that say where something stands. -/
def Span.fields (s : Span) : Fields := [("start", .nat s.start), ("end", .nat s.stop)]

def Span.json (s : Span) : Json := .object s.fields

def Token.json (t : Token) : Json :=
  .object ([("kind", .string t.kind.name), ("lexeme", .string t.lexeme)] ++ t.span.fields)

def BinaryOp.json (op : BinaryOp) : Json := .string op.symbol

def UnaryOp.json (op : UnaryOp) : Json := .string op.symbol

/-- The fields of an object that starts with its type. -/
def typed (name : String) (f : Fields) : Json := .object (("type", .string name) :: f)

def Literal.fields (l : Literal) : Fields :=
  [("value", .number l.value), ("raw", .string l.raw)] ++ l.span.fields

def unaryFields (op : UnaryOp) (argument : Json) (s : Span) : Fields :=
  [("operator", op.json), ("argument", argument)] ++ s.fields

def binaryFields (op : BinaryOp) (left right : Json) (s : Span) : Fields :=
  [("operator", op.json), ("left", left), ("right", right)] ++ s.fields

def Operand.json : Operand → Json
  | literal l => typed "NumericLiteral" l.fields
  | unary op a s => typed "UnaryExpression" (unaryFields op a.json s)

def Expr.json : Expr → Json
  | literal l => typed "NumericLiteral" l.fields
  | binary op l r s => typed "BinaryExpression" (binaryFields op l.json r.json s)
  | unary u => typed "UnaryExpression" (unaryFields u.op u.argument.json u.span)

def expressionFields (e : Expr) (s : Span) : Fields := ("expression", e.json) :: s.fields

def Statement.json : Statement → Json
  | empty s => typed "EmptyStatement" s.fields
  | expression e s => typed "ExpressionStatement" (expressionFields e s)

def Program.json (p : Program) : Json :=
  typed "Program" (("body", .array (p.body.map Statement.json)) :: p.span.fields)

def Node.json : Node → Json
  | program p => p.json
  | statement s => s.json
  | emptyStatement s => .object s.fields
  | expressionStatement e s => .object (expressionFields e s)
  | expression e => e.json
  | binary op l r s => .object (binaryFields op l.json r.json s)
  | unary u => .object (unaryFields u.op u.argument.json u.span)
  | literal l => .object l.fields
  | operand a => a.json

def resultJson : Option Float → Json
  | none => .null
  | some x => .number x

def Value.json : Value → Json
  | null => .null
  | number x => .number x
  | sequence items => .array (items.map resultJson)

end Reckoner
