import Reckoner.Proofs.Erasure

/-!
# The spans of a tree

All the spans of a node, as a list in which a node comes before its parts. They are what erasing
takes away and nothing more: a node is known from them and from what is left of it
(`Node.eq_of_spans`).
-/

namespace Reckoner

def Literal.spans (l : Literal) : List Span := [l.span]

/-- All spans of an operand, that of a node before those of its parts. -/
def Operand.spans : Operand → List Span
  | literal l => l.spans
  | unary _ a s => s :: a.spans

def Unary.spans (u : Unary) : List Span := u.span :: u.argument.spans

def Expr.spans : Expr → List Span
  | literal l => l.spans
  | binary _ l r s => s :: (l.spans ++ r.spans)
  | unary u => u.spans

def Statement.spans : Statement → List Span
  | empty s => [s]
  | expression e s => s :: e.spans

def Program.spans (p : Program) : List Span := p.span :: p.body.flatMap Statement.spans

namespace Node

def spans : Node → List Span
  | program p => p.spans
  | statement s => s.spans
  | emptyStatement s => [s]
  | expressionStatement e s => s :: e.spans
  | expression e => e.spans
  | binary op l r s => (Expr.binary op l r s).spans
  | unary u => u.spans
  | literal l => l.spans
  | operand a => a.spans

/-- The node, with every part of it nowhere. -/
def erase : Node → Node
  | program p => program p.erase
  | statement s => statement s.erase
  | emptyStatement _ => emptyStatement .nowhere
  | expressionStatement e _ => expressionStatement e.erase .nowhere
  | expression e => expression e.erase
  | binary op l r _ => binary op l.erase r.erase .nowhere
  | unary u => unary u.erase
  | literal l => literal l.erase
  | operand a => operand a.erase

end Node

theorem Expr.spans_withSpan (e : Expr) (s : Span) : (e.withSpan s).spans = s :: e.spans.tail := by
  cases e <;> rfl

theorem Expr.withSpan_span (e : Expr) : e.withSpan e.span = e := by cases e <;> rfl

/-! ### Spans are all that erasing takes away -/

theorem Literal.eq_of_spans {l m : Literal} (h : l.erase = m.erase) (hs : l.span = m.span) :
    l = m := by
  obtain ⟨x, raw, s⟩ := l
  obtain ⟨y, raw', t⟩ := m
  cases hs
  cases h
  rfl

theorem Operand.eq_of_spans {a a' : Operand} {us vs : List Span} (h : a.erase = a'.erase)
    (hs : a.spans ++ us = a'.spans ++ vs) : a = a' ∧ us = vs := by
  induction a generalizing a' with
  | literal l =>
    cases a' with
    | literal m =>
      obtain ⟨hspan, hrest⟩ := List.cons.inj hs
      exact ⟨congrArg _ (Literal.eq_of_spans (Operand.literal.inj h) hspan), hrest⟩
    | unary => cases h
  | unary op a s ih =>
    cases a' with
    | literal => cases h
    | unary op' a' s' =>
      obtain ⟨rfl, ha, -⟩ := Operand.unary.inj h
      obtain ⟨rfl, has⟩ := List.cons.inj hs
      obtain ⟨rfl, hrest⟩ := ih ha has
      exact ⟨rfl, hrest⟩

theorem Unary.eq_of_spans {u u' : Unary} {us vs : List Span} (h : u.erase = u'.erase)
    (hs : u.spans ++ us = u'.spans ++ vs) : u = u' ∧ us = vs := by
  obtain ⟨op, a, s⟩ := u
  obtain ⟨op', a', s'⟩ := u'
  obtain ⟨rfl, ha, -⟩ := Unary.mk.inj h
  obtain ⟨rfl, has⟩ := List.cons.inj hs
  obtain ⟨rfl, hrest⟩ := Operand.eq_of_spans ha has
  exact ⟨rfl, hrest⟩

theorem Expr.eq_of_spans {e e' : Expr} {us vs : List Span} (h : e.erase = e'.erase)
    (hs : e.spans ++ us = e'.spans ++ vs) : e = e' ∧ us = vs := by
  induction e generalizing e' us vs with
  | literal l =>
    cases e' with
    | literal m =>
      obtain ⟨hspan, hrest⟩ := List.cons.inj hs
      exact ⟨congrArg _ (Literal.eq_of_spans (Expr.literal.inj h) hspan), hrest⟩
    | _ => cases h
  | unary u =>
    cases e' with
    | unary u' =>
      obtain ⟨rfl, hrest⟩ := Unary.eq_of_spans (Expr.unary.inj h) hs
      exact ⟨rfl, hrest⟩
    | _ => cases h
  | binary op l r s ihl ihr =>
    cases e' with
    | binary op' l' r' s' =>
      obtain ⟨rfl, hl, hr, -⟩ := Expr.binary.inj h
      simp only [spans, List.cons_append, List.append_assoc] at hs
      obtain ⟨rfl, hls⟩ := List.cons.inj hs
      obtain ⟨rfl, hrs⟩ := ihl hl hls
      obtain ⟨rfl, hrest⟩ := ihr hr hrs
      exact ⟨rfl, hrest⟩
    | _ => cases h

theorem Statement.eq_of_spans {s s' : Statement} {us vs : List Span} (h : s.erase = s'.erase)
    (hs : s.spans ++ us = s'.spans ++ vs) : s = s' ∧ us = vs := by
  cases s with
  | empty t =>
    cases s' with
    | empty t' => obtain ⟨rfl, hrest⟩ := List.cons.inj hs; exact ⟨rfl, hrest⟩
    | expression => cases h
  | expression e t =>
    cases s' with
    | empty => cases h
    | expression e' t' =>
      obtain ⟨rfl, hes⟩ := List.cons.inj hs
      obtain ⟨rfl, hrest⟩ := Expr.eq_of_spans (Statement.expression.inj h).1 hes
      exact ⟨rfl, hrest⟩

theorem Statement.eq_of_flatMap_spans {ss ss' : List Statement}
    (h : ss.map erase = ss'.map erase) (hs : ss.flatMap spans = ss'.flatMap spans) : ss = ss' := by
  induction ss generalizing ss' with
  | nil => exact (List.map_eq_nil_iff.1 h.symm).symm
  | cons s ss ih =>
    cases ss' with
    | nil => cases h
    | cons s' ss' =>
      obtain ⟨hse, hss⟩ := List.cons.inj h
      obtain ⟨rfl, hrest⟩ := eq_of_spans hse hs
      rw [ih hss hrest]

theorem Program.eq_of_spans {p p' : Program} (h : p.erase = p'.erase) (hs : p.spans = p'.spans) :
    p = p' := by
  obtain ⟨ss, t⟩ := p
  obtain ⟨ss', t'⟩ := p'
  obtain ⟨rfl, hss⟩ := List.cons.inj hs
  have hbody : ss = ss' := Statement.eq_of_flatMap_spans (Program.mk.inj h).1 hss
  subst hbody
  rfl

/-- A node is known from its spans and what erasing leaves of it. -/
theorem Node.eq_of_spans {n n' : Node} (h : n.erase = n'.erase) (hs : n.spans = n'.spans) :
    n = n' := by
  have ofExpr : ∀ {e e' : Expr}, e.erase = e'.erase → e.spans = e'.spans → e = e' :=
    fun h hs => (Expr.eq_of_spans h (congrArg (· ++ []) hs)).1
  cases n with
  | program p =>
    cases n' with
    | program p' => rw [Program.eq_of_spans (Node.program.inj h) hs]
    | _ => cases h
  | statement s =>
    cases n' with
    | statement s' =>
      have hs' : s.spans ++ [] = s'.spans ++ [] := congrArg (· ++ []) hs
      rw [(Statement.eq_of_spans (Node.statement.inj h) hs').1]
    | _ => cases h
  | emptyStatement s =>
    cases n' with
    | emptyStatement s' => rw [(List.cons.inj hs).1]
    | _ => cases h
  | expressionStatement e s =>
    cases n' with
    | expressionStatement e' s' =>
      obtain ⟨rfl, hes⟩ := List.cons.inj hs
      rw [ofExpr (Node.expressionStatement.inj h).1 hes]
    | _ => cases h
  | expression e =>
    cases n' with
    | expression e' => rw [ofExpr (Node.expression.inj h) hs]
    | _ => cases h
  | binary op l r s =>
    cases n' with
    | binary op' l' r' s' =>
      obtain ⟨rfl, hl, hr, -⟩ := Node.binary.inj h
      have he : (Expr.binary op l r s).erase = (Expr.binary op l' r' s').erase := by
        rw [Expr.erase, hl, hr, Expr.erase]
      obtain ⟨-, rfl, rfl, rfl⟩ := Expr.binary.inj (ofExpr he hs)
      rfl
    | _ => cases h
  | unary u =>
    cases n' with
    | unary u' =>
      have hs' : u.spans ++ [] = u'.spans ++ [] := congrArg (· ++ []) hs
      rw [(Unary.eq_of_spans (Node.unary.inj h) hs').1]
    | _ => cases h
  | literal l =>
    cases n' with
    | literal l' => rw [Literal.eq_of_spans (Node.literal.inj h) (List.cons.inj hs).1]
    | _ => cases h
  | operand a =>
    cases n' with
    | operand a' =>
      have hs' : a.spans ++ [] = a'.spans ++ [] := congrArg (· ++ []) hs
      rw [(Operand.eq_of_spans (Node.operand.inj h) hs').1]
    | _ => cases h

end Reckoner
