import Reckoner.Eval
import Reckoner.Proofs.Scan

/-!
# Moving tokens and trees

`relocate f` moves whatever stands at the offset `n` to the offset `f n`, in tokens, trees and
errors. Reading looks at the places of tokens only to copy them: moved tokens are read as the moved
tree (`Reads.relocate`, `ReadsStatement.relocate`), and the scan stops at them with the moved error
(`Scan.verdictFrom_relocate`). Evaluation copies places into errors and does nothing else with them
(`Statement.eval_relocate`).
-/

namespace Reckoner

/-! ### What is moved -/

def Span.relocate (f : Nat → Nat) (s : Span) : Span := ⟨f s.start, f s.stop⟩

def Token.relocate (f : Nat → Nat) (t : Token) : Token := { t with span := t.span.relocate f }

def Literal.relocate (f : Nat → Nat) (l : Literal) : Literal := { l with span := l.span.relocate f }

def Operand.relocate (f : Nat → Nat) : Operand → Operand
  | literal l => literal (l.relocate f)
  | unary op a s => unary op (a.relocate f) (s.relocate f)

def Unary.relocate (f : Nat → Nat) (u : Unary) : Unary :=
  ⟨u.op, u.argument.relocate f, u.span.relocate f⟩

/-- The expression with every part of it moved. -/
def Expr.relocate (f : Nat → Nat) : Expr → Expr
  | literal l => literal (l.relocate f)
  | binary op l r s => binary op (l.relocate f) (r.relocate f) (s.relocate f)
  | unary u => unary (u.relocate f)

/-- The statement with every part of it moved. -/
def Statement.relocate (f : Nat → Nat) : Statement → Statement
  | empty s => empty (s.relocate f)
  | expression e s => expression (e.relocate f) (s.relocate f)

def ParseError.relocate (f : Nat → Nat) : ParseError → ParseError
  | unexpectedToken found expected s => unexpectedToken found expected (s.relocate f)
  | unexpectedLiteral found s => unexpectedLiteral found (s.relocate f)
  | unexpectedEnd n => unexpectedEnd (f n)

def RuntimeError.relocate (f : Nat → Nat) : RuntimeError → RuntimeError
  | divisionByZero s => divisionByZero (s.relocate f)

section
variable {f : Nat → Nat} {ts : List Token}

@[simp] theorem Token.kind_relocate (t : Token) : (t.relocate f).kind = t.kind := rfl

@[simp] theorem Token.lexeme_relocate (t : Token) : (t.relocate f).lexeme = t.lexeme := rfl

@[simp] theorem Token.span_relocate (t : Token) : (t.relocate f).span = t.span.relocate f := rfl

@[simp] theorem Token.relocate_terminator (n : Nat) :
    (terminator n).relocate f = terminator (f n) := rfl

theorem Rank.op_relocate (q : Rank) (t : Token) : q.op (t.relocate f) = q.op t := by
  cases q <;> rfl

theorem Span.hull_relocate (h : ts ≠ []) :
    hull (ts.map (Token.relocate f)) = (hull ts).relocate f := by
  obtain ⟨t, us, hts⟩ := List.exists_cons_of_ne_nil h
  have hlast : ts.getLast? = some (ts.getLast h) := List.getLast?_eq_some_getLast h
  simp only [hull, List.head?_map, List.getLast?_map, hlast]
  simp only [hts, List.head?_cons, Option.map_some, Option.getD_some]
  rfl

theorem Expr.span_relocate (e : Expr) : (e.relocate f).span = e.span.relocate f := by
  cases e <;> rfl

theorem Statement.span_relocate (s : Statement) : (s.relocate f).span = s.span.relocate f := by
  cases s <;> rfl

theorem Expr.relocate_withSpan (s : Span) (e : Expr) :
    (e.withSpan s).relocate f = (e.relocate f).withSpan (s.relocate f) := by
  cases e <;> rfl

end

/-! ### Reading moved tokens -/

namespace Grammar
variable {f : Nat → Nat} {q : Option Rank} {ts : List Token} {e : Expr} {s : Statement}

theorem Reads.relocate (f : Nat → Nat) (h : Reads .located q ts e) :
    Reads .located q (ts.map (Token.relocate f)) (e.relocate f) := by
  induction h with
  | number h => exact .number h
  | @minus m t hm hs h => exact .minus (m := m.relocate f) (t := t.relocate f) hm hs h
  | @parens o cl ts e ho _ hc ih =>
    have ho' : (o.relocate f).kind = .opening := ho
    have hc' : (cl.relocate f).kind = .closing := hc
    have h' := Reads.parens ho' ih hc'
    -- The builder asks the expression for its span, and gets the same when both are moved.
    rw [List.map_cons, List.map_append]
    show Reads _ _ _ ((e.withSpan ⟨e.span.start, cl.span.stop⟩).relocate f)
    rw [Expr.relocate_withSpan]
    rw [Expr.span_relocate] at h'
    exact h'
  | single q _ ih => exact .single q ih
  | @chain q o ls rs l r _ ho _ ihl ihr =>
    have h' := Reads.chain q (o := o.relocate f) ihl ho ihr
    rw [Rank.op_relocate, ← List.map_cons, ← List.map_append, Span.hull_relocate (by simp)] at h'
    exact h'

theorem ReadsStatement.relocate (f : Nat → Nat) (h : ReadsStatement .located ts s) :
    ReadsStatement .located (ts.map (Token.relocate f)) (s.relocate f) := by
  cases h with
  | @empty t hk => exact .empty (t := t.relocate f) hk
  | @expression t ts e h ht =>
    have h' := ReadsStatement.expression (t := t.relocate f) (h.relocate f) ht
    rw [← List.map_singleton, ← List.map_append, Span.hull_relocate (by simp)] at h'
    exact h'

theorem forall₂_relocate {tss : List (List Token)} {ss : List Statement} (f : Nat → Nat)
    (h : List.Forall₂ (ReadsStatement .located) tss ss) :
    List.Forall₂ (ReadsStatement .located) (tss.map (List.map (Token.relocate f)))
      (ss.map (Statement.relocate f)) := by
  rw [List.forall₂_map_left_iff, List.forall₂_map_right_iff]
  exact h.imp fun _ _ h => h.relocate f

end Grammar

namespace Scan
variable {f : Nat → Nat}

theorem operandStep_relocate (n : Nat) (t : Token) :
    operandStep n (t.relocate f) = (operandStep n t).mapError (ParseError.relocate f) := by
  cases hk : t.kind with
  | additive =>
    by_cases hs : t.lexeme = "-" <;>
      simp [operandStep, hk, hs, Except.mapError, ParseError.relocate]
  | _ => simp [operandStep, hk, Except.mapError, ParseError.relocate]

theorem operatorStep_relocate (n : Nat) (t : Token) :
    operatorStep n (t.relocate f) = (operatorStep n t).mapError (ParseError.relocate f) := by
  cases hk : t.kind <;> cases n <;>
    simp [operatorStep, hk, Except.mapError, ParseError.relocate]

theorem step_relocate (s : Scan) (t : Token) :
    s.step (t.relocate f) = (s.step t).mapError (ParseError.relocate f) := by
  obtain ⟨mode, n⟩ := s
  cases mode with
  | statementStart =>
    rw [step, step, operandStep_relocate, Token.kind_relocate]
    dsimp only
    split <;> rfl
  | operand => exact operandStep_relocate n t
  | afterMinus =>
    rw [step, step, Token.kind_relocate]
    dsimp only
    split <;> rfl
  | operator => exact operatorStep_relocate n t

theorem verdictFrom_relocate (s : Scan) (last : Nat) (ts : List Token) :
    verdictFrom s (f last) (ts.map (Token.relocate f)) =
      (verdictFrom s last ts).mapError (ParseError.relocate f) := by
  -- `last` moves as well: it is where a text ends too early.
  induction ts generalizing s last with
  | nil =>
    simp only [verdictFrom, List.map_nil, List.foldlM_nil, List.getLast?_nil]
    show (if _ then _ else _) = Except.mapError _ (if _ then _ else _)
    split <;> rfl
  | cons t ts ih =>
    rw [List.map_cons, verdictFrom_cons, verdictFrom_cons, step_relocate]
    cases s.step t with
    | error e => rfl
    | ok s' => exact ih s' t.span.stop

end Scan

/-! ### Evaluating moved trees -/

section
variable {f : Nat → Nat}

theorem BinaryOp.apply_relocate (op : BinaryOp) (s : Span) (x y : Float) :
    op.apply (s.relocate f) x y = (op.apply s x y).mapError (RuntimeError.relocate f) := by
  cases op with
  | div => rw [apply, apply]; split <;> rfl
  | _ => rfl

theorem Operand.eval_relocate (a : Operand) : (a.relocate f).eval = a.eval := by
  induction a with
  | literal l => rfl
  | unary op a s ih => rw [relocate, eval, eval, ih]

theorem Unary.eval_relocate (u : Unary) : (u.relocate f).eval = u.eval :=
  congrArg u.op.apply (Operand.eval_relocate u.argument)

theorem Expr.eval_relocate (e : Expr) :
    (e.relocate f).eval = e.eval.mapError (RuntimeError.relocate f) := by
  induction e with
  | literal l => rfl
  | unary u => exact congrArg Except.ok (Unary.eval_relocate u)
  | binary op l r s ihl ihr =>
    rw [relocate, eval, eval, ihl, ihr]
    cases l.eval with
    | error e => rfl
    | ok x =>
      cases r.eval with
      | error e => rfl
      | ok y => exact op.apply_relocate s x y

theorem Statement.eval_relocate (s : Statement) :
    (s.relocate f).eval = s.eval.mapError (RuntimeError.relocate f) := by
  cases s with
  | empty s => rfl
  | expression e s =>
    rw [relocate, eval, eval, Expr.eval_relocate]
    cases e.eval <;> rfl

theorem Statement.mapM_eval_relocate (ss : List Statement) :
    (ss.map (Statement.relocate f)).mapM eval =
      (ss.mapM eval).mapError (RuntimeError.relocate f) := by
  induction ss with
  | nil => rfl
  | cons s ss ih =>
    rw [List.map_cons, List.mapM_cons, List.mapM_cons, eval_relocate, ih]
    cases s.eval with
    | error e => rfl
    | ok v => cases ss.mapM eval <;> rfl

end

end Reckoner
