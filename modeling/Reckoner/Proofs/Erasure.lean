import Reckoner.Proofs.Failure

/-!
# Trees without places

Erasing puts every node of a tree nowhere. Reading asks the nodes that it has made where they stand,
for the span of an expression in parentheses and for that of the program, and without places the
answer is always nowhere. The answers go into spans and nothing else: step for step, reading without
places does what reading with places does, and gives its tree erased (`parse_unlocated_eq`).
-/

namespace Reckoner

/-! ### Erasing -/

def Literal.erase (l : Literal) : Literal := { l with span := .nowhere }

def Operand.erase : Operand → Operand
  | literal l => literal l.erase
  | unary op a _ => unary op a.erase .nowhere

def Unary.erase (u : Unary) : Unary := ⟨u.op, u.argument.erase, .nowhere⟩

/-- The expression, with every part of it nowhere. -/
def Expr.erase : Expr → Expr
  | literal l => literal l.erase
  | binary op l r _ => binary op l.erase r.erase .nowhere
  | unary u => unary u.erase

def Statement.erase : Statement → Statement
  | empty _ => empty .nowhere
  | expression e _ => expression e.erase .nowhere

/-- The program, with every part of it nowhere. -/
def Program.erase (p : Program) : Program := ⟨p.body.map Statement.erase, .nowhere⟩

theorem Expr.erase_withSpan (e : Expr) (s : Span) : (e.withSpan s).erase = e.erase := by
  cases e <;> rfl

namespace Outcome
variable {α β γ δ : Type} {f : α → β} {g : γ → δ} {x : Outcome α}

/-- The outcome with another result; the cursor and the failure stay. -/
def mapResult (f : α → β) (x : Outcome α) : Outcome β := x.map (Prod.map f id)

theorem mapResult_ite {p : Prop} [Decidable p] {x y : Outcome α} :
    mapResult f (if p then x else y) = if p then mapResult f x else mapResult f y := by
  split <;> rfl

theorem mapResult_bind {k : α × Cursor → Outcome γ} {l : β × Cursor → Outcome δ}
    (h : ∀ a d, x = .ok (a, d) → l (f a, d) = mapResult g (k (a, d))) :
    (mapResult f x).bind l = mapResult g (x.bind k) := by
  cases x with
  | error e => rfl
  | ok r => exact h r.1 r.2 rfl

theorem bind_mapResult {k : α × Cursor → Outcome γ} {l : α × Cursor → Outcome δ}
    (h : ∀ a d, l (a, d) = mapResult g (k (a, d))) : x.bind l = mapResult g (x.bind k) := by
  cases x with
  | error e => rfl
  | ok r => exact h r.1 r.2

end Outcome

namespace Grammar
open Outcome
variable {q : Option Rank} {c : Cursor} {t : Token} {rest : List Token}

/-! ### Expressions -/

theorem literal_unlocated :
    of (literal .unlocated c) = mapResult Literal.erase (of (literal .located c)) := by
  by_cases hc : c.tokens = []
  · rw [literal_nil hc, literal_nil hc]; rfl
  obtain ⟨t, rest, hc⟩ := List.exists_cons_of_ne_nil hc
  rw [literal_cons hc, literal_cons hc, mapResult_ite]
  rfl

theorem ranked_unlocated {q : Rank}
    (operand : phrase .unlocated q.tighter c = mapResult Expr.erase (phrase .located q.tighter c))
    (tails : ∀ d, d.tokens.length < c.tokens.length → ∀ start left,
      tail .unlocated start left.erase q d = mapResult Expr.erase (tail .located start left q d)) :
    phrase .unlocated (some q) c = mapResult Expr.erase (phrase .located (some q) c) := by
  cases hc : c.tokens with
  | nil => rw [ranked_nil q hc, ranked_nil q hc]; rfl
  | cons t rest =>
    rw [ranked_cons q hc, ranked_cons q hc, operand]
    exact mapResult_bind fun l d hl => tails d (length_tokens_of_phrase hl) _ l

theorem operand_unlocated
    (sum : ∀ t rest, c.tokens = t :: rest → phrase .unlocated (some .sum) (c.past [t]) =
      mapResult Expr.erase (phrase .located (some .sum) (c.past [t]))) :
    phrase .unlocated none c = mapResult Expr.erase (phrase .located none c) := by
  cases hc : c.tokens with
  | nil => rw [operand_nil hc, operand_nil hc]; rfl
  | cons t rest =>
    by_cases ho : t.kind = .opening
    · rw [operand_opening hc ho, operand_opening hc ho, sum t rest hc]
      refine mapResult_bind fun e d _ => bind_mapResult fun s d' => ?_
      -- The builder is given another span than its counterpart, and lets it go.
      exact congrArg (fun e => Except.ok (e, d')) (Expr.erase_withSpan e _).symm
    by_cases ha : t.kind = .additive
    · rw [operand_additive hc ha, operand_additive hc ha, literal_unlocated, mapResult_ite]
      split
      · exact mapResult_bind fun _ _ _ => rfl
      · rfl
    · rw [operand_other hc ho ha, operand_other hc ho ha, mapResult_ite]
      rfl

theorem tail_unlocated {q : Rank}
    (further : ∀ d, d.tokens.length < c.tokens.length →
      phrase .unlocated q.tighter d = mapResult Expr.erase (phrase .located q.tighter d) ∧
        ∀ start left, tail .unlocated start left.erase q d =
          mapResult Expr.erase (tail .located start left q d)) (start : Nat) (left : Expr) :
    tail .unlocated start left.erase q c = mapResult Expr.erase (tail .located start left q c) := by
  cases hc : c.tokens with
  | nil => rw [tail_nil q hc, tail_nil q hc]; rfl
  | cons o rest =>
    by_cases ho : o.kind = q.kind
    · have shorter : (c.past [o]).tokens.length < c.tokens.length := by
        rw [Cursor.tokens_past_singleton hc, hc]
        exact Nat.lt_succ_self _
      rw [tail_more q hc ho, tail_more q hc ho, (further _ shorter).1]
      refine mapResult_bind fun r d hr => ?_
      have shorter' := Nat.lt_trans (length_tokens_of_phrase hr) shorter
      exact (further d shorter').2 start (.binary (q.op o) left r ⟨start, d.lastEnd⟩)
    · rw [tail_stop q hc ho, tail_stop q hc ho]
      rfl

theorem phrase_unlocated (q : Option Rank) (c : Cursor) :
    phrase .unlocated q c = mapResult Expr.erase (phrase .located q c) :=
  (phrase_induct
    (M := fun q c => phrase .unlocated q c = mapResult Expr.erase (phrase .located q c))
    (N := fun q c => ∀ start left, tail .unlocated start left.erase q c =
      mapResult Expr.erase (tail .located start left q c))
    (fun _ _ => ranked_unlocated) (fun _ => operand_unlocated) (fun _ _ => tail_unlocated)).1 q c

/-! ### Programs -/

theorem statement_unlocated (c : Cursor) :
    of (statement .unlocated c) = mapResult Statement.erase (of (statement .located c)) := by
  by_cases hc : c.tokens = []
  · rw [statement_nil hc, statement_nil hc]; rfl
  obtain ⟨t, rest, hc⟩ := List.exists_cons_of_ne_nil hc
  by_cases hk : t.kind = .semicolon
  · rw [statement_semicolon hc hk, statement_semicolon hc hk]
    rfl
  · rw [statement_other hc hk, statement_other hc hk, phrase_unlocated]
    exact mapResult_bind fun _ _ _ => bind_mapResult fun _ _ => rfl

theorem bodyTail_unlocated (c : Cursor) :
    of (bodyTail .unlocated c) = mapResult (List.map Statement.erase) (of (bodyTail .located c)) := by
  by_cases hc : c.tokens = []
  · rw [bodyTail_nil hc, bodyTail_nil hc]; rfl
  obtain ⟨t, rest, hc⟩ := List.exists_cons_of_ne_nil hc
  rw [bodyTail_cons hc, bodyTail_cons hc, statement_unlocated]
  refine mapResult_bind fun s d hs => ?_
  have shorter : d.tokens.length < c.tokens.length :=
    bound_of_ok (P := fun d => d.tokens.length < c.tokens.length) hs
  rw [bodyTail_unlocated d]
  exact mapResult_bind fun _ _ _ => rfl
termination_by c.tokens.length
decreasing_by exact shorter

theorem body_unlocated (c : Cursor) :
    of (body .unlocated c) = mapResult (List.map Statement.erase) (of (body .located c)) := by
  by_cases hc : c.tokens = []
  · rw [body_nil hc, body_nil hc]; rfl
  obtain ⟨t, rest, hc⟩ := List.exists_cons_of_ne_nil hc
  rw [body_cons hc, body_cons hc, bodyTail_unlocated]

end Grammar

namespace Program
open Grammar Outcome

/-- Reading without places gives the erased tree of reading with places, and the same error, which
points into the text all the same. -/
theorem parse_unlocated_eq (text : String) :
    parse .unlocated text = (parse .located text).map erase ∧
      ∀ e, parse .unlocated text = .error e → e.PointsInto (tokenize text) := by
  refine ⟨?_, fun e => pointsInto_of_parse_eq_error⟩
  rw [parse_eq, parse_eq, program_eq, program_eq, body_unlocated]
  cases of (Grammar.body .located (.start (.ofText text))) <;> rfl

/-- The parenthesis that is missing is missed where the text ends, behind a comment. -/
theorem parse_unlocated_eq_unclosed : ∃ e, parse .unlocated "1;(2 // ü" = .error e ∧
    e.PointsInto (tokenize "1;(2 // ü") := by
  have hno : (parse .unlocated "1;(2 // ü").toBool = false := by decide +kernel
  cases h : parse .unlocated "1;(2 // ü" with
  | ok p => rw [h] at hno; cases hno
  | error e => exact ⟨e, rfl, (parse_unlocated_eq "1;(2 // ü").2 e h⟩

end Program
end Reckoner
