import Mathlib.Data.List.Forall2
import Reckoner.Proofs.Division

/-!
# Trees that are alike

Two trees are alike if they differ at most in their spans and in the raw text of their literals.
They come to the same values, or both fail at the division to which one and the same path leads from
their roots, and each error tells where that division stands in its own tree
(`Node.Alike.sameOutcome`).
-/

namespace Reckoner

/-! ### What is alike -/

inductive Operand.Alike : Operand → Operand → Prop
  | literal {l l' : Literal} (h : l.value = l'.value) : Alike (.literal l) (.literal l')
  | unary {op : UnaryOp} {a a' : Operand} {s s' : Span} (h : Alike a a') :
    Alike (.unary op a s) (.unary op a' s')

structure Unary.Alike (u u' : Unary) : Prop where
  op : u.op = u'.op
  argument : u.argument.Alike u'.argument

inductive Expr.Alike : Expr → Expr → Prop
  | literal {l l' : Literal} (h : l.value = l'.value) : Alike (.literal l) (.literal l')
  | binary {op : BinaryOp} {l r l' r' : Expr} {s s' : Span} (hl : Alike l l') (hr : Alike r r') :
    Alike (.binary op l r s) (.binary op l' r' s')
  | unary {u u' : Unary} (h : u.Alike u') : Alike (.unary u) (.unary u')

inductive Statement.Alike : Statement → Statement → Prop
  | empty {s s' : Span} : Alike (.empty s) (.empty s')
  | expression {e e' : Expr} {s s' : Span} (h : e.Alike e') :
    Alike (.expression e s) (.expression e' s')

def Program.Alike (p p' : Program) : Prop := List.Forall₂ Statement.Alike p.body p'.body

/-- Nodes of the same kind whose trees are alike. -/
inductive Node.Alike : Node → Node → Prop
  | program {p p' : Program} (h : p.Alike p') : Alike (.program p) (.program p')
  | statement {s s' : Statement} (h : s.Alike s') : Alike (.statement s) (.statement s')
  | emptyStatement {s s' : Span} : Alike (.emptyStatement s) (.emptyStatement s')
  | expressionStatement {e e' : Expr} {s s' : Span} (h : e.Alike e') :
    Alike (.expressionStatement e s) (.expressionStatement e' s')
  | expression {e e' : Expr} (h : e.Alike e') : Alike (.expression e) (.expression e')
  | binary {op : BinaryOp} {l r l' r' : Expr} {s s' : Span} (hl : l.Alike l') (hr : r.Alike r') :
    Alike (.binary op l r s) (.binary op l' r' s')
  | unary {u u' : Unary} (h : u.Alike u') : Alike (.unary u) (.unary u')
  | literal {l l' : Literal} (h : l.value = l'.value) : Alike (.literal l) (.literal l')
  | operand {a a' : Operand} (h : a.Alike a') : Alike (.operand a) (.operand a')

/-! ### Outcomes -/

/-- The outcomes are one and the same value, or errors between which `R` holds. -/
inductive Agree {α : Type} (R : RuntimeError → RuntimeError → Prop) :
    Except RuntimeError α → Except RuntimeError α → Prop
  | value (v : α) : Agree R (.ok v) (.ok v)
  | failure {f f' : RuntimeError} (h : R f f') : Agree R (.error f) (.error f')

namespace Agree
variable {α β : Type} {R R' : RuntimeError → RuntimeError → Prop} {x y : Except RuntimeError α}

theorem refl (hR : ∀ f, R f f) (x : Except RuntimeError α) : Agree R x x := by
  cases x with
  | error f => exact .failure (hR f)
  | ok v => exact .value v

theorem mono (hR : ∀ f f', R f f' → R' f f') (h : Agree R x y) : Agree R' x y := by
  cases h with
  | value v => exact .value v
  | failure h => exact .failure (hR _ _ h)

theorem bind {k k' : α → Except RuntimeError β} (h : Agree R x y)
    (hk : ∀ v, x = .ok v → y = .ok v → Agree R (k v) (k' v)) : Agree R (x >>= k) (y >>= k') := by
  cases h with
  | value v => exact hk v rfl rfl
  | failure h => exact .failure h

theorem map (g : α → β) (h : Agree R x y) : Agree R (g <$> x) (g <$> y) := by
  cases h with
  | value v => exact .value (g v)
  | failure h => exact .failure h

end Agree

namespace Node

/-- The nodes directly inside the node, from left to right. -/
def children : Node → List Node
  | program p => p.body.map statement
  | binary _ l r _ => [expression l, expression r]
  | n => n.inner?.toList

/-- The node to which the path leads, which tells for each step which child it goes to. -/
def at? : Node → List Nat → Option Node
  | n, [] => some n
  | n, i :: path => n.children[i]?.bind fun m => m.at? path

end Node

/-- The errors of the divisions to which one path leads from both nodes, each with its own span. -/
inductive SameDivision (n n' : Node) : RuntimeError → RuntimeError → Prop
  | intro {path : List Nat} {l r l' r' : Expr} {s s' : Span}
    (h : n.at? path = some (.binary .div l r s)) (h' : n'.at? path = some (.binary .div l' r' s'))
    (hd : Division.Fails ⟨l, r, s⟩) (hd' : Division.Fails ⟨l', r', s'⟩) :
    SameDivision n n' (.divisionByZero s) (.divisionByZero s')

/-- The outcomes of two nodes are one value, or both nodes fail at the same division. -/
abbrev SameOutcome {α : Type} (n n' : Node) (x y : Except RuntimeError α) : Prop :=
  Agree (SameDivision n n') x y

/-- A division in a child is one in the node. -/
theorem SameDivision.child {n n' m m' : Node} {i : Nat} (hm : n.children[i]? = some m)
    (hm' : n'.children[i]? = some m') (f f' : RuntimeError) (h : SameDivision m m' f f') :
    SameDivision n n' f f' := by
  obtain @⟨path, l, r, l', r', s, s', h, h', hd, hd'⟩ := h
  have hn : n.at? (i :: path) = some (.binary .div l r s) := by rw [Node.at?, hm]; exact h
  have hn' : n'.at? (i :: path) = some (.binary .div l' r' s') := by rw [Node.at?, hm']; exact h'
  exact .intro hn hn' hd hd'

theorem SameOutcome.child {α : Type} {n n' m m' : Node} {x y : Except RuntimeError α} {i : Nat}
    (hm : n.children[i]? = some m) (hm' : n'.children[i]? = some m') (h : SameOutcome m m' x y) :
    SameOutcome n n' x y :=
  h.mono (SameDivision.child hm hm')

/-! ### Trees that are alike have the same outcome -/

theorem Operand.Alike.eval_eq {a a' : Operand} (h : a.Alike a') : a.eval = a'.eval := by
  induction h with
  | literal h => exact h
  | unary _ ih => rw [Operand.eval, ih, Operand.eval]

theorem Unary.Alike.eval_eq {u u' : Unary} (h : u.Alike u') : u.eval = u'.eval := by
  rw [Unary.eval, h.op, h.argument.eval_eq, Unary.eval]

theorem SameOutcome.apply {op : BinaryOp} {l r l' r' : Expr} {s s' : Span} {x y : Float}
    (hl : l.eval = .ok x) (hr : r.eval = .ok y) (hl' : l'.eval = .ok x) (hr' : r'.eval = .ok y) :
    SameOutcome (.binary op l r s) (.binary op l' r' s') (op.apply s x y) (op.apply s' x y) := by
  cases op with
  | div =>
    rw [BinaryOp.apply, BinaryOp.apply]
    split
    · next hy =>
      have hzero := beq_zero_iff.1 hy
      have hd : Division.Fails ⟨l, r, s⟩ := ⟨⟨x, hl⟩, by simpa [hr] using hzero⟩
      have hd' : Division.Fails ⟨l', r', s'⟩ := ⟨⟨x, hl'⟩, by simpa [hr'] using hzero⟩
      have here : ∀ n : Node, n.at? [] = some n := fun _ => rfl
      exact .failure (.intro (here _) (here _) hd hd')
    · exact .value _
  | _ => exact .value _

namespace Expr.Alike

/-- An operation, if its operands have the same outcome: the left one comes first, then the right
one, then the operator. -/
theorem binary_outcome {op : BinaryOp} {l r l' r' : Expr} {s s' : Span}
    (hl : SameOutcome (.expression l) (.expression l') l.eval l'.eval)
    (hr : SameOutcome (.expression r) (.expression r') r.eval r'.eval) :
    SameOutcome (.binary op l r s) (.binary op l' r' s') (Expr.binary op l r s).eval
      (Expr.binary op l' r' s').eval := by
  refine (hl.child (i := 0) rfl rfl).bind fun x hx hx' => ?_
  refine (hr.child (i := 1) rfl rfl).bind fun y hy hy' => ?_
  exact SameOutcome.apply hx hy hx' hy'

theorem sameOutcome {e e' : Expr} (h : e.Alike e') :
    SameOutcome (.expression e) (.expression e') e.eval e'.eval := by
  induction h with
  | literal h => rw [Expr.eval, Expr.eval, h]; exact .value _
  | unary h => rw [Expr.eval, Expr.eval, h.eval_eq]; exact .value _
  | binary _ _ ihl ihr => exact (binary_outcome ihl ihr).child (i := 0) rfl rfl

end Expr.Alike

theorem Statement.Alike.sameOutcome {s s' : Statement} (h : s.Alike s') :
    SameOutcome (.statement s) (.statement s') s.eval s'.eval := by
  cases h with
  | empty => exact .value none
  | @expression e e' s s' h =>
    have hs : SameOutcome (.expressionStatement e s) (.expressionStatement e' s') e.eval e'.eval :=
      h.sameOutcome.child (i := 0) rfl rfl
    exact SameOutcome.child (i := 0) rfl rfl (hs.map some)

/-- The statements that a program has from the `k`th one on. -/
theorem SameOutcome.mapM {n n' : Node} {ss ss' : List Statement}
    (h : List.Forall₂ Statement.Alike ss ss') (k : Nat)
    (hn : ∀ i s, ss[i]? = some s → n.children[k + i]? = some (.statement s))
    (hn' : ∀ i s, ss'[i]? = some s → n'.children[k + i]? = some (.statement s)) :
    SameOutcome n n' (ss.mapM Statement.eval) (ss'.mapM Statement.eval) := by
  induction h generalizing k with
  | nil => exact .value []
  | cons hs _ ih =>
    rw [List.mapM_cons, List.mapM_cons]
    refine (hs.sameOutcome.child (hn 0 _ rfl) (hn' 0 _ rfl)).bind fun v _ _ => ?_
    refine (ih (k + 1) (fun i s hi => ?_) fun i s hi => ?_).bind fun vs _ _ => .value (v :: vs)
    · rw [Nat.add_assoc, Nat.add_comm 1]; exact hn (i + 1) s hi
    · rw [Nat.add_assoc, Nat.add_comm 1]; exact hn' (i + 1) s hi

theorem Program.Alike.sameOutcome {p p' : Program} (h : p.Alike p') :
    SameOutcome (.program p) (.program p') p.eval p'.eval := by
  refine SameOutcome.mapM h 0 (fun i s hi => ?_) fun i s hi => ?_
  · simp [Node.children, hi]
  · simp [Node.children, hi]

theorem Node.Alike.sameOutcome {n n' : Node} (h : n.Alike n') :
    SameOutcome n n' n.eval n'.eval := by
  cases h with
  | program h => exact h.sameOutcome.map _
  | statement h => exact h.sameOutcome.map _
  | emptyStatement => exact .value _
  | expressionStatement h => exact (h.sameOutcome.child (i := 0) rfl rfl).map _
  | expression h => exact h.sameOutcome.map _
  | binary hl hr => exact (Expr.Alike.binary_outcome hl.sameOutcome hr.sameOutcome).map _
  | unary h => rw [Node.eval, Node.eval, h.eval_eq]; exact .value _
  | literal h => rw [Node.eval, Node.eval, h]; exact .value _
  | operand h => rw [Node.eval, Node.eval, h.eval_eq]; exact .value _

end Reckoner
