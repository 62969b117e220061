import Reckoner.Proofs.Context
import Reckoner.Proofs.Spans

/-!
# Spans decide nothing

An expression that is given another span in its place leaves the rest of the node as it is. The
outcome stays too, unless the expression is itself the division that fails, and then the error tells
the other span (`Context.moves`). Together with the outcomes of trees that are alike this is
`spanFree`.
-/

namespace Reckoner

/-! ### Another span -/

/-- `e'` is `e` with another span, by itself or as a builder puts it into parentheses. -/
inductive Expr.Respanned (e : Expr) (s : Span) : Expr → Prop
  | withSpan : Respanned e s (e.withSpan s)
  | located : Respanned e s (Builder.located.parenthesized e s)
  | unlocated : Respanned e s (Builder.unlocated.parenthesized e s)

theorem Expr.Respanned.eq_withSpan {e e' : Expr} {s : Span} (h : e.Respanned s e') :
    ∃ t, (t = s ∨ t = e.span) ∧ e' = e.withSpan t := by
  cases h with
  | withSpan | located => exact ⟨s, .inl rfl, rfl⟩
  | unlocated => exact ⟨e.span, .inr rfl, e.withSpan_span.symm⟩

/-! ### The tree -/

theorem Frame.exists_spans_plugAll (fs : List Frame) :
    ∃ before after, ∀ e, (plugAll fs e).spans = before ++ e.spans ++ after := by
  induction fs with
  | nil => exact ⟨[], [], fun e => by simp [plugAll]⟩
  | cons f fs ih =>
    obtain ⟨before, after, ih⟩ := ih
    cases f with
    | left op r s =>
      exact ⟨s :: before, after ++ r.spans, fun e => by simp [plugAll, plug, Expr.spans, ih]⟩
    | right op l s =>
      exact ⟨s :: (l.spans ++ before), after, fun e => by simp [plugAll, plug, Expr.spans, ih]⟩

theorem Frame.erase_plugAll {e e' : Expr} (h : e.erase = e'.erase) (fs : List Frame) :
    (plugAll fs e).erase = (plugAll fs e').erase := by
  induction fs with
  | nil => exact h
  | cons f fs ih => cases f <;> simp [plugAll, plug, Expr.erase, ih]

namespace Context

theorem exists_spans_fill (C : Context) :
    ∃ before after, ∀ e, (C.fill e).spans = before ++ e.spans ++ after := by
  obtain ⟨shell, fs⟩ := C
  obtain ⟨before, after, hfs⟩ := Frame.exists_spans_plugAll fs
  cases shell with
  | expression => exact ⟨before, after, hfs⟩
  | ofExpr =>
    refine ⟨before, after, fun e => ?_⟩
    rw [← hfs, fill, Shell.close]
    cases Frame.plugAll fs e <;> rfl
  | expressionStatement s =>
    exact ⟨s :: before, after, fun e => by simp [fill, Shell.close, Node.spans, hfs]⟩
  | statement s =>
    refine ⟨s :: before, after, fun e => ?_⟩
    simp [fill, Shell.close, Node.spans, Statement.spans, hfs]
  | program ss s rest t =>
    refine ⟨t :: (ss.flatMap Statement.spans ++ s :: before),
      after ++ rest.flatMap Statement.spans, fun e => ?_⟩
    simp [fill, Shell.close, Node.spans, Program.spans, Statement.spans, hfs]

theorem erase_fill {e e' : Expr} (h : e.erase = e'.erase) (C : Context) :
    (C.fill e).erase = (C.fill e').erase := by
  obtain ⟨shell, fs⟩ := C
  have hfs := Frame.erase_plugAll h fs
  cases shell with
  | ofExpr =>
    have ofExpr : ∀ x : Expr, (Node.ofExpr x).erase = .ofExpr x.erase := fun x => by cases x <;> rfl
    simp only [fill, Shell.close, ofExpr, hfs]
  | _ => simp [fill, Shell.close, Node.erase, Statement.erase, Program.erase, hfs]

end Context

/-! ### The outcome -/

/-- What becomes of an error when `e` becomes `e'`. It stays, unless `e` is the division that
fails. -/
inductive Expr.ErrorKept (e e' : Expr) : RuntimeError → RuntimeError → Prop
  | same (f : RuntimeError) : ErrorKept e e' f f
  | own {l r : Expr} {s : Span} (he : e = .binary .div l r s) (hd : Division.Fails ⟨l, r, s⟩) :
    ErrorKept e e' (.divisionByZero s) (.divisionByZero e'.span)

/-- The outcome stays, or the error tells another span because `e` is the division that fails. -/
abbrev Expr.Kept (e e' : Expr) {α : Type} (x y : Except RuntimeError α) : Prop :=
  Agree (ErrorKept e e') x y

theorem Expr.Kept.same {e e' : Expr} {α : Type} (x : Except RuntimeError α) : e.Kept e' x x :=
  .refl .same x

/-- An expression comes to its operands before it is seen where it stands. -/
theorem Expr.kept_withSpan (e : Expr) (t : Span) :
    e.Kept (e.withSpan t) e.eval (e.withSpan t).eval := by
  cases e with
  | literal l => exact Kept.same _
  | unary u => exact Kept.same _
  | binary op l r s =>
    have heval : ∀ s, (binary op l r s).eval = l.eval >>= fun x => r.eval >>= op.apply s x :=
      fun _ => rfl
    rw [withSpan, heval, heval]
    refine (Kept.same l.eval).bind fun x hl _ => (Kept.same r.eval).bind fun y hr _ => ?_
    cases op with
    | div =>
      rw [BinaryOp.apply, BinaryOp.apply]
      split
      · next hy => exact .failure (.own rfl ⟨⟨x, hl⟩, by simpa [hr] using beq_zero_iff.1 hy⟩)
      · exact Kept.same _
    | _ => exact Kept.same _

theorem Frame.kept_plugAll {e e' : Expr} (h : e.Kept e' e.eval e'.eval) (fs : List Frame) :
    e.Kept e' (plugAll fs e).eval (plugAll fs e').eval := by
  induction fs with
  | nil => exact h
  | cons f fs ih =>
    cases f with
    | left op r s => exact ih.bind fun x _ _ => Expr.Kept.same _
    | right op l s =>
      exact (Expr.Kept.same l.eval).bind fun x _ _ => ih.bind fun y _ _ => Expr.Kept.same _

theorem Node.eval_ofExpr (e : Expr) : (ofExpr e).eval = .number <$> e.eval := by cases e <;> rfl

theorem Context.kept_fill {e e' : Expr} (h : e.Kept e' e.eval e'.eval) (C : Context) :
    e.Kept e' (C.fill e).eval (C.fill e').eval := by
  obtain ⟨shell, fs⟩ := C
  have hfs := Frame.kept_plugAll h fs
  cases shell with
  | expression => exact hfs.map _
  | ofExpr =>
    show e.Kept e' (Node.ofExpr _).eval (Node.ofExpr _).eval
    rw [Node.eval_ofExpr, Node.eval_ofExpr]
    exact hfs.map _
  | expressionStatement s => exact hfs.map _
  | statement s => exact (hfs.map _).map _
  | program ss s rest t =>
    have hbody : ∀ x : Expr, (ss ++ .expression x s :: rest).mapM Statement.eval =
        ss.mapM Statement.eval >>= fun vs => (some <$> x.eval) >>= fun v =>
          rest.mapM Statement.eval >>= fun ws => pure (vs ++ v :: ws) := by
      intro x
      simp [List.mapM_append, List.mapM_cons, Statement.eval]
    refine Agree.map Value.sequence ?_
    show e.Kept e' (List.mapM _ _) (List.mapM _ _)
    rw [hbody, hbody]
    refine (Expr.Kept.same _).bind fun vs _ _ => ?_
    exact (hfs.map some).bind fun v _ _ => Expr.Kept.same _

/-! ### All together -/

/-- The expression in the context moves alone: its other span is the only thing that changes in the
tree, and the outcome stays unless the error is its own. -/
structure Context.Moves (C : Context) (e : Expr) : Prop where
  tree : ∃ before after, (C.fill e).spans = before ++ e.span :: after ∧
    ∀ s e', e.Respanned s e' → (e'.span = s ∨ e'.span = e.span) ∧
      (C.fill e').spans = before ++ e'.span :: after ∧ (C.fill e').erase = (C.fill e).erase
  outcome : ∀ s e', e.Respanned s e' → e.Kept e' (C.fill e).eval (C.fill e').eval

theorem Context.moves (C : Context) (e : Expr) : C.Moves e := by
  obtain ⟨before, after, hspans⟩ := C.exists_spans_fill
  have hfill : ∀ t, (C.fill (e.withSpan t)).spans = before ++ t :: (e.spans.tail ++ after) := by
    intro t
    rw [hspans, e.spans_withSpan, List.append_assoc]
    rfl
  refine ⟨⟨before, e.spans.tail ++ after, ?_, fun s e' h => ?_⟩, fun s e' h => ?_⟩
  · rw [← hfill, e.withSpan_span]
  · obtain ⟨t, ht, rfl⟩ := h.eq_withSpan
    rw [Expr.span_withSpan]
    exact ⟨ht, hfill t, erase_fill (e.erase_withSpan t) C⟩
  · obtain ⟨t, -, rfl⟩ := h.eq_withSpan
    exact kept_fill (e.kept_withSpan t) C

/-- Spans decide nothing: neither those of whole trees, nor that of one expression in its place. -/
structure SpanFree : Prop where
  program (p p' : Program) : p.Alike p' → SameOutcome (.program p) (.program p') p.eval p'.eval
  statement (s s' : Statement) :
    s.Alike s' → SameOutcome (.statement s) (.statement s') s.eval s'.eval
  expression (e e' : Expr) :
    e.Alike e' → SameOutcome (.expression e) (.expression e') e.eval e'.eval
  unary (u u' : Unary) : u.Alike u' → u.eval = u'.eval
  node (n n' : Node) : n.Alike n' → SameOutcome n n' n.eval n'.eval
  moves (C : Context) (e : Expr) : C.Moves e
  /-- every expression in a node is in some context -/
  context (n : Node) (path : List Nat) (e : Expr) : n.at? path = some (.expression e) →
    ∃ C : Context, C.fill e = n ∧ ∀ e', (C.fill e').at? path = some (.expression e')
  /-- no span is left out -/
  spans (n n' : Node) : n.erase = n'.erase → n.spans = n'.spans → n = n'

theorem spanFree : SpanFree where
  program _ _ h := h.sameOutcome
  statement _ _ h := h.sameOutcome
  expression _ _ h := h.sameOutcome
  unary _ _ h := h.eval_eq
  node _ _ h := h.sameOutcome
  moves C e := C.moves e
  context _ _ _ h := Node.exists_context h
  spans _ _ h hs := Node.eq_of_spans h hs

/-- A quotient that fails, at two places and with two ways of writing its numbers. -/
theorem spanFree_division : ∃ e e' : Expr, e.Alike e' ∧
    e.eval = .error (.divisionByZero ⟨0, 3⟩) ∧ e'.eval = .error (.divisionByZero ⟨5, 11⟩) ∧
    SameOutcome (.expression e) (.expression e') e.eval e'.eval :=
  have hl : Expr.Alike (.literal ⟨8, "8", ⟨0, 1⟩⟩) (.literal ⟨8, "08", ⟨5, 7⟩⟩) := .literal rfl
  have hr : Expr.Alike (.literal ⟨0, "0", ⟨2, 3⟩⟩) (.literal ⟨0, "00", ⟨9, 11⟩⟩) := .literal rfl
  ⟨.binary .div _ _ ⟨0, 3⟩, .binary .div _ _ ⟨5, 11⟩, .binary hl hr, by decide, by decide,
    spanFree.expression _ _ (.binary hl hr)⟩

end Reckoner
