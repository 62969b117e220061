import Reckoner.Error
import Reckoner.Trace
import Reckoner.Tree
import Reckoner.Value

/-!
# Evaluation

Arithmetic is that of floats, but a division by zero is an error. Operands are evaluated from left
to right and statements in their order, and the first error ends it all. A run of a program notes
each statement once it has its result; but for that, it is evaluation (`Program.result_evalTraced`).
-/

namespace Reckoner

/-- The operator on two numbers; `s` is where the operation stands. -/
def BinaryOp.apply (s : Span) : BinaryOp → Float → Float → Except RuntimeError Float
  | add, x, y => .ok (x + y)
  | sub, x, y => .ok (x - y)
  | mul, x, y => .ok (x * y)
  | div, x, y => if y == 0 then .error (.divisionByZero s) else .ok (x / y)

def UnaryOp.apply : UnaryOp → Float → Float
  | negate, x => -x

def Operand.eval : Operand → Float
  | literal l => l.value
  | unary op a _ => op.apply a.eval

def Unary.eval (u : Unary) : Float := u.op.apply u.argument.eval

def Expr.eval : Expr → Except RuntimeError Float
  | literal l => .ok l.value
  | binary op l r s => do op.apply s (← l.eval) (← r.eval)
  | unary u => .ok u.eval

/-- The result of a statement: none if it is empty. -/
def Statement.eval : Statement → Except RuntimeError (Option Float)
  | empty _ => .ok none
  | expression e _ => some <$> e.eval

/-- The results of the statements of a program, in their order. -/
def Program.eval (p : Program) : Except RuntimeError (List (Option Float)) :=
  p.body.mapM Statement.eval

/-- The result of a statement, with a note of it. -/
def Statement.evalTraced (s : Statement) : Traced (Except RuntimeError (Option Float)) :=
  match s.eval with
  | .ok v => ⟨.ok v, [.evaluated s.span v]⟩
  | .error e => ⟨.error e, []⟩

/-- The results of statements up to the first that fails, with a note of each. -/
def Statement.evalTracedAll : List Statement → Traced (Except RuntimeError (List (Option Float)))
  | [] => ⟨.ok [], []⟩
  | s :: r =>
    let first := s.evalTraced
    match first.result with
    | .ok v =>
      let others := evalTracedAll r
      ⟨(v :: ·) <$> others.result, first.trace ++ others.trace⟩
    | .error e => ⟨.error e, first.trace⟩

/-- The results of the statements of a program, with a note of each. -/
def Program.evalTraced (p : Program) : Traced (Except RuntimeError (List (Option Float))) :=
  Statement.evalTracedAll p.body

theorem Statement.evalTracedAll_cons_of_ok {s : Statement} {v : Option Float}
    (h : s.eval = .ok v) (r : List Statement) : evalTracedAll (s :: r) =
      ⟨(v :: ·) <$> (evalTracedAll r).result, .evaluated s.span v :: (evalTracedAll r).trace⟩ := by
  simp [evalTracedAll, evalTraced, h]

theorem Statement.evalTracedAll_cons_of_error {s : Statement} {e : RuntimeError}
    (h : s.eval = .error e) (r : List Statement) : evalTracedAll (s :: r) = ⟨.error e, []⟩ := by
  simp [evalTracedAll, evalTraced, h]

theorem Statement.result_evalTracedAll (ss : List Statement) :
    (evalTracedAll ss).result = ss.mapM eval := by
  induction ss with
  | nil => rfl
  | cons s ss ih =>
    rw [List.mapM_cons]
    cases h : s.eval with
    | ok v => rw [evalTracedAll_cons_of_ok h, ih, ← bind_pure_comp]; rfl
    | error e => rw [evalTracedAll_cons_of_error h]; rfl

/-- Noting the results changes none of them. -/
theorem Program.result_evalTraced (p : Program) : p.evalTraced.result = p.eval :=
  Statement.result_evalTracedAll p.body

def Node.eval : Node → Except RuntimeError Value
  | program p => .sequence <$> p.eval
  | statement s => .ofResult <$> s.eval
  | emptyStatement _ => .ok .null
  | expressionStatement e _ => .number <$> e.eval
  | expression e => .number <$> e.eval
  | binary op l r s => .number <$> (Expr.binary op l r s).eval
  | unary u => .ok (.number u.eval)
  | literal l => .ok (.number l.value)
  | operand a => .ok (.number a.eval)

end Reckoner
