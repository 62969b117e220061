import Reckoner.Proofs.Outcome

/-!
# Phrases

Sums and products are read alike: an operand, and then a tail of operators and operands for as long
as operators of the right kind come. `phrase` and `tail` are the reading functions told apart by
rank. The equations here say what each of them does at the token that comes next, and
`phrase_induct` is the induction along their calls.
-/

namespace Reckoner

/-- How tightly the operators between operands bind. -/
inductive Rank where
  | sum
  | product
deriving DecidableEq, Repr

namespace Rank

/-- The kind of the operators of the rank. -/
def kind : Rank → Kind
  | sum => .additive
  | product => .multiplicative

/-- The operator of the rank that a token stands for. -/
def op : Rank → Token → BinaryOp
  | sum => Grammar.additiveOp
  | product => Grammar.multiplicativeOp

/-- What stands between the operators of the rank: products in sums, and in products operands that
hold no operator but those in parentheses, which have no rank. -/
def tighter : Rank → Option Rank
  | sum => some product
  | product => none

end Rank

namespace Grammar
open Outcome
variable {b : Builder} {c d : Cursor} {t : Token} {ts rest : List Token} {e : Expr}

/-- Reads a phrase of a rank, or an operand. -/
def phrase (b : Builder) : Option Rank → Cursor → Outcome Expr
  | some .sum, c => of (additive b c)
  | some .product, c => of (multiplicative b c)
  | none, c => of (primary b c)

/-- Reads the tail of a phrase of a rank. -/
def tail (b : Builder) (start : Nat) (left : Expr) : Rank → Cursor → Outcome Expr
  | .sum, c => of (additiveTail b start left c)
  | .product, c => of (multiplicativeTail b start left c)

/-! ### Literals and signs -/

theorem literal_nil (h : c.tokens = []) : of (literal b c) = .error c.ended := by
  rw [literal, Cursor.ahead_nil h]; rfl

theorem literal_cons (h : c.tokens = t :: rest) :
    of (literal b c) = if t.kind = .number then
        .ok (b.literal (numberValue t.lexeme) t.lexeme t.span, c.past [t])
      else .error ⟨.unexpectedLiteral t.kind t.span, c.look⟩ := by
  rw [literal, Cursor.ahead_cons h]
  show of (if t.kind = .number then _ else _) = _
  split
  · next hk =>
    have h' : c.look.tokens = t :: rest := h
    refine (of_bind (g := fun r =>
      .ok (b.literal (numberValue r.1.lexeme) r.1.lexeme r.1.span, r.2)) fun _ _ => rfl).trans ?_
    rw [Cursor.take_cons _ h', if_pos hk, Cursor.past_look_cons, ok_bind]
  · rfl

theorem ofSymbol?_eq_none {s : String} (h : s ≠ "-") : UnaryOp.ofSymbol? s = none := by
  unfold UnaryOp.ofSymbol?
  split
  · exact absurd rfl h
  · rfl

theorem unary_cons (h : c.tokens = t :: rest) (hk : t.kind = .additive) :
    of (unary b c) = if t.lexeme = "-" then
        (of (literal b (c.past [t]))).bind fun r =>
          .ok (.unary (b.unary .negate (.literal r.1) ⟨t.span.start, r.2.lastEnd⟩), r.2)
      else .error ⟨.unexpectedToken t.kind .number t.span, c.past [t]⟩ := by
  rw [unary]
  refine (of_bind (g := fun s => if s.1.lexeme = "-" then
      (of (literal b s.2)).bind fun r =>
        .ok (.unary (b.unary .negate (.literal r.1) ⟨s.1.span.start, r.2.lastEnd⟩), r.2)
    else .error ⟨.unexpectedToken s.1.kind .number s.1.span, s.2⟩) fun s d => ?_).trans ?_
  · by_cases hs : s.lexeme = "-"
    · simp only [hs, if_true]
      exact of_bind fun _ _ => rfl
    · simp only [ofSymbol?_eq_none hs, if_neg hs]
      rfl
  · rw [Cursor.take_cons _ h, if_pos hk, ok_bind]

/-! ### Operands -/

theorem operand_nil (h : c.tokens = []) : phrase b none c = .error c.ended := by
  rw [phrase, primary, Cursor.ahead_nil h]; rfl

theorem operand_opening (h : c.tokens = t :: rest) (hk : t.kind = .opening) :
    phrase b none c = (phrase b (some .sum) (c.past [t])).bind fun r =>
      (of (r.2.take .closing)).bind fun s =>
        .ok (b.parenthesized r.1 ⟨r.1.span.start, s.1.span.stop⟩, s.2) := by
  have h' : c.look.tokens = t :: rest := h
  have hp : phrase b none c = of (parenthesized b c.look) := by
    rw [phrase, primary, Cursor.ahead_cons h]
    simp only [bind, Except.bind, hk]
    rfl
  rw [hp, parenthesized]
  refine (of_bind (g := fun s => (phrase b (some .sum) s.2).bind fun r =>
    (of (r.2.take .closing)).bind fun s =>
      .ok (b.parenthesized r.1 ⟨r.1.span.start, s.1.span.stop⟩, s.2)) fun s d => ?_).trans ?_
  · show _ = (of (additive b d.1)).bind _
    rw [← expression]
    exact of_bind fun _ _ => of_bind fun _ _ => rfl
  · rw [Cursor.take_cons _ h', if_pos hk, Cursor.past_look_cons, ok_bind]

theorem operand_additive (h : c.tokens = t :: rest) (hk : t.kind = .additive) :
    phrase b none c = if t.lexeme = "-" then
        (of (literal b (c.past [t]))).bind fun r =>
          .ok (.unary (b.unary .negate (.literal r.1) ⟨t.span.start, r.2.lastEnd⟩), r.2)
      else .error ⟨.unexpectedToken t.kind .number t.span, c.past [t]⟩ := by
  have h' : c.look.tokens = t :: rest := h
  have hp : phrase b none c = of (unary b c.look) := by
    rw [phrase, primary, Cursor.ahead_cons h]
    simp only [bind, Except.bind, hk]
    rfl
  rw [hp, unary_cons h' hk, Cursor.past_look_cons]

theorem operand_other (h : c.tokens = t :: rest) (ho : t.kind ≠ .opening)
    (ha : t.kind ≠ .additive) :
    phrase b none c = if t.kind = .number then
        .ok (.literal (b.literal (numberValue t.lexeme) t.lexeme t.span), c.past [t])
      else .error ⟨.unexpectedLiteral t.kind t.span, c.look⟩ := by
  have h' : c.look.tokens = t :: rest := h
  have hp : phrase b none c = (of (literal b c.look)).map fun r => (.literal r.1, r.2) := by
    rw [phrase, primary, Cursor.ahead_cons h]
    simp only [bind, Except.bind]
    cases hk : t.kind with
    | opening => exact absurd hk ho
    | additive => exact absurd hk ha
    | _ => cases literal b c.look <;> rfl
  rw [hp, literal_cons h', Cursor.past_look_cons, Cursor.look_look_eq]
  split <;> rfl

theorem operand_look : phrase b none c.look = phrase b none c := by
  cases h : c.tokens with
  | nil => rw [operand_nil h, operand_nil (c := c.look) h, Cursor.ended_look]
  | cons t rest =>
    have h' : c.look.tokens = t :: rest := h
    by_cases ho : t.kind = .opening
    · rw [operand_opening h ho, operand_opening h' ho, Cursor.past_look_cons]
    by_cases ha : t.kind = .additive
    · rw [operand_additive h ha, operand_additive h' ha, Cursor.past_look_cons]
    · rw [operand_other h ho ha, operand_other h' ho ha, Cursor.past_look_cons,
        Cursor.look_look_eq]

/-! ### Phrases with a rank -/

theorem ranked_nil (q : Rank) (h : c.tokens = []) : phrase b (some q) c = .error c.ended := by
  cases q with
  | sum => rw [phrase, additive, Cursor.ahead_nil h]; rfl
  | product => rw [phrase, multiplicative, Cursor.ahead_nil h]; rfl

theorem ranked_look_cons (q : Rank) (h : c.tokens = t :: rest) :
    phrase b (some q) c = (phrase b q.tighter c.look).bind fun r =>
      tail b t.span.start r.1 q r.2 := by
  cases q with
  | sum =>
    show of (additive b c) = (of (multiplicative b c.look)).bind _
    rw [additive, Cursor.ahead_cons h]
    exact of_bind fun left d => of_rebound _
  | product =>
    show of (multiplicative b c) = (of (primary b c.look)).bind _
    rw [multiplicative, Cursor.ahead_cons h]
    exact of_bind fun left d => of_rebound _

theorem phrase_nil (q : Option Rank) (h : c.tokens = []) : phrase b q c = .error c.ended := by
  cases q with
  | none => exact operand_nil h
  | some q => exact ranked_nil q h

/-- Whether the next token is in view already makes no difference to reading it. -/
theorem phrase_look (q : Option Rank) : phrase b q c.look = phrase b q c := by
  cases q with
  | none => exact operand_look
  | some q =>
    cases h : c.tokens with
    | nil => rw [ranked_nil q h, ranked_nil (c := c.look) q h, Cursor.ended_look]
    | cons t rest =>
      have h' : c.look.tokens = t :: rest := h
      rw [ranked_look_cons q h, ranked_look_cons q h', Cursor.look_look_eq]

theorem ranked_cons (q : Rank) (h : c.tokens = t :: rest) :
    phrase b (some q) c = (phrase b q.tighter c).bind fun r =>
      tail b t.span.start r.1 q r.2 := by
  rw [ranked_look_cons q h, phrase_look]

/-! ### Tails -/

section
variable {start : Nat} {left : Expr}

theorem tail_nil (q : Rank) (h : c.tokens = []) : tail b start left q c = .error c.ended := by
  cases q with
  | sum => rw [tail, additiveTail, Cursor.ahead_nil h]; rfl
  | product => rw [tail, multiplicativeTail, Cursor.ahead_nil h]; rfl

theorem tail_stop (q : Rank) (h : c.tokens = t :: rest) (hk : t.kind ≠ q.kind) :
    tail b start left q c = .ok (left, c.look) := by
  cases q with
  | sum =>
    have hk' : t.kind ≠ .additive := hk
    rw [tail, additiveTail, Cursor.ahead_cons h]
    simp only [bind, Except.bind, if_neg hk']
    rfl
  | product =>
    have hk' : t.kind ≠ .multiplicative := hk
    rw [tail, multiplicativeTail, Cursor.ahead_cons h]
    simp only [bind, Except.bind, if_neg hk']
    rfl

theorem tail_more (q : Rank) (h : c.tokens = t :: rest) (hk : t.kind = q.kind) :
    tail b start left q c = (phrase b q.tighter (c.past [t])).bind fun r =>
      tail b start (b.binary (q.op t) left r.1 ⟨start, r.2.lastEnd⟩) q r.2 := by
  have h' : c.look.tokens = t :: rest := h
  have ht : of (c.look.take q.kind) = .ok (t, c.past [t]) := by
    rw [Cursor.take_cons _ h', if_pos hk, Cursor.past_look_cons]
  have hs : tail b start left q c = (of (c.look.take q.kind)).bind fun s =>
      (phrase b q.tighter s.2).bind fun r =>
        tail b start (b.binary (q.op s.1) left r.1 ⟨start, r.2.lastEnd⟩) q r.2 := by
    cases q with
    | sum =>
      have hk' : t.kind = .additive := hk
      rw [tail, additiveTail, Cursor.ahead_cons h]
      simp only [bind, Except.bind, if_pos hk']
      refine of_bind fun s d => of_bind fun right d' => ?_
      exact of_rebound _
    | product =>
      have hk' : t.kind = .multiplicative := hk
      rw [tail, multiplicativeTail, Cursor.ahead_cons h]
      simp only [bind, Except.bind, if_pos hk']
      refine of_bind fun s d => of_bind fun right d' => ?_
      exact of_rebound _
  rw [hs, ht, ok_bind]

theorem tail_look (q : Rank) : tail b start left q c.look = tail b start left q c := by
  cases h : c.tokens with
  | nil => rw [tail_nil q h, tail_nil (c := c.look) q h, Cursor.ended_look]
  | cons t rest =>
    have h' : c.look.tokens = t :: rest := h
    by_cases hk : t.kind = q.kind
    · rw [tail_more q h hk, tail_more q h' hk, Cursor.past_look_cons]
    · rw [tail_stop q h hk, tail_stop q h' hk, Cursor.look_look_eq]

end

/-! ### Induction -/

theorem length_tokens_of_phrase {q : Option Rank} (h : phrase b q c = .ok (e, d)) :
    d.tokens.length < c.tokens.length := by
  match q with
  | some .sum => exact bound_of_ok (P := fun d => d.tokens.length < c.tokens.length) h
  | some .product => exact bound_of_ok (P := fun d => d.tokens.length < c.tokens.length) h
  | none => exact bound_of_ok (P := fun d => d.tokens.length < c.tokens.length) h

/-- Induction along the calls of the reading functions: a phrase calls for a phrase of the next
rank and for tails further on, an operand for a sum behind a parenthesis, and a tail for phrases
and tails further on. -/
theorem phrase_induct {M : Option Rank → Cursor → Prop} {N : Rank → Cursor → Prop}
    (ranked : ∀ q c, M q.tighter c → (∀ d, d.tokens.length < c.tokens.length → N q d) →
      M (some q) c)
    (operand : ∀ c, (∀ t rest, c.tokens = t :: rest → M (some .sum) (c.past [t])) → M none c)
    (tail : ∀ q c, (∀ d, d.tokens.length < c.tokens.length → M q.tighter d ∧ N q d) → N q c) :
    (∀ q c, M q c) ∧ ∀ q c, N q c := by
  suffices H : ∀ n c, c.tokens.length = n → (∀ q, M q c) ∧ ∀ q, N q c from
    ⟨fun q c => (H _ c rfl).1 q, fun q c => (H _ c rfl).2 q⟩
  intro n
  induction n using Nat.strongRecOn with
  | ind n ih =>
    rintro c rfl
    have further : ∀ d, d.tokens.length < c.tokens.length → (∀ q, M q d) ∧ ∀ q, N q d :=
      fun d hd => ih _ hd d rfl
    have hoperand : M none c := operand c fun t rest h =>
      (further _ (by rw [Cursor.tokens_past_singleton h, h]; exact Nat.lt_succ_self _)).1 _
    have hproduct : M (some .product) c := ranked .product c hoperand fun d hd => (further d hd).2 _
    have hsum : M (some .sum) c := ranked .sum c hproduct fun d hd => (further d hd).2 _
    refine ⟨fun q => ?_, fun q => tail q c fun d hd => ⟨(further d hd).1 _, (further d hd).2 _⟩⟩
    match q with
    | some .sum => exact hsum
    | some .product => exact hproduct
    | none => exact hoperand

end Grammar
end Reckoner
