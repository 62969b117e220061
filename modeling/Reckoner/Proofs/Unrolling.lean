import Reckoner.Proofs.Program

/-!
# Reading, unrolled

The reading functions call one another. `Call.step` says what one of them does with any functions in
place of those that it calls, and a call that it makes has fewer tokens left or is of a lower rank
(`Call.step_congr`). So the calls go no deeper than the number of tokens allows: unrolled that
often, the recursion never comes to its bottom, and it does not matter what stands there
(`Call.unrolled_eq`).
-/

namespace Reckoner

theorem Outcome.bind_congr_ok {α β ε : Type} {x y : Except ε α} {f g : α → Except ε β} (h : x = y)
    (hfg : ∀ a, y = .ok a → f a = g a) : x.bind f = y.bind g := by
  subst h
  cases x with
  | error e => rfl
  | ok a => exact hfg a rfl

namespace Grammar
open Outcome

/-- A reading function, with what it is given besides the cursor. -/
inductive Call where
  | program
  | body
  | bodyTail
  | statement
  | expression
  /-- a sum, a product or an operand -/
  | phrase (q : Option Rank)
  /-- the loop behind the first operand of a sum or product -/
  | tail (q : Rank) (start : Nat) (left : Expr)
  | parenthesized
  | unary
  | literal

namespace Call

def Result : Call → Type
  | program => Program
  | body | bodyTail => List Statement
  | statement => Statement
  | literal => Literal
  | _ => Expr

abbrev Callees := (k : Call) → Cursor → Outcome k.Result

def read (b : Builder) : Callees
  | program, c => of (Grammar.program b c)
  | body, c => of (Grammar.body b c)
  | bodyTail, c => of (Grammar.bodyTail b c)
  | statement, c => of (Grammar.statement b c)
  | expression, c => of (Grammar.expression b c)
  | phrase q, c => Grammar.phrase b q c
  | tail q start left, c => Grammar.tail b start left q c
  | parenthesized, c => of (Grammar.parenthesized b c)
  | unary, c => of (Grammar.unary b c)
  | literal, c => of (Grammar.literal b c)

/-- What the function does, with `call` in place of the functions that it calls. -/
def step (b : Builder) (call : Callees) : Callees
  | program, c => (call body c).bind fun r =>
    let ss : List Statement := r.1
    .ok (b.program ss (bodySpan ss), r.2.note (.program ss.length (bodySpan ss)))
  | body, c => (call statement c).bind fun s => (call bodyTail s.2).bind fun r =>
    .ok (.cons s.1 r.1, r.2)
  | bodyTail, c =>
    if c.tokens.isEmpty then .ok ([], c.look)
    else (call statement c.look).bind fun s => (call bodyTail s.2).bind fun r =>
      .ok (.cons s.1 r.1, r.2)
  | statement, c => c.ahead.bind fun t =>
    if t.kind = .semicolon then (of (c.look.take .semicolon)).bind fun t =>
      .ok (b.empty t.1.span, t.2.note (.emptyStatement t.1.span))
    else (call expression c.look).bind fun e => (of (e.2.take .semicolon)).bind fun semicolon =>
      let span := ⟨t.span.start, semicolon.1.span.stop⟩
      .ok (b.expression e.1 span, semicolon.2.note (.expressionStatement span))
  | expression, c => call (phrase (some .sum)) c
  | phrase (some q), c => c.ahead.bind fun t => (call (phrase q.tighter) c.look).bind fun left =>
    call (tail q t.span.start left.1) left.2
  | phrase none, c => c.ahead.bind fun t =>
    match t.kind with
    | .opening => call parenthesized c.look
    | .additive => call unary c.look
    | _ => (call literal c.look).bind fun l => .ok (.literal l.1, l.2)
  | tail q start left, c => c.ahead.bind fun t =>
    if t.kind = q.kind then (of (c.look.take q.kind)).bind fun op =>
      (call (phrase q.tighter) op.2).bind fun right =>
        call (tail q start (b.binary (q.op op.1) left right.1 ⟨start, right.2.lastEnd⟩)) right.2
    else .ok (left, c.look)
  | parenthesized, c => (of (c.take .opening)).bind fun opening =>
    (call expression opening.2).bind fun inner =>
      (of (inner.2.take .closing)).bind fun closing =>
        let e : Expr := inner.1
        .ok (b.parenthesized e ⟨e.span.start, closing.1.span.stop⟩, closing.2)
  | unary, c => (of (c.take .additive)).bind fun t =>
    match UnaryOp.ofSymbol? t.1.lexeme with
    | none => .error ⟨.unexpectedToken t.1.kind .number t.1.span, t.2⟩
    | some op => (call literal t.2).bind fun l =>
      .ok (.unary (b.unary op (.literal l.1) ⟨t.1.span.start, l.2.lastEnd⟩), l.2)
  | literal, c => c.ahead.bind fun t =>
    if t.kind = .number then (of (c.look.take .number)).bind fun t =>
      .ok (b.literal (numberValue t.1.lexeme) t.1.lexeme t.1.span, t.2)
    else .error ⟨.unexpectedLiteral t.kind t.span, c.look⟩

/-- The functions with their calls unrolled `n` deep, and those of `bottom` called below that. -/
def unrolled (b : Builder) (bottom : Callees) : Nat → Callees
  | 0 => bottom
  | n + 1 => step b (unrolled b bottom n)

/-- Functions call those of lower rank where they stand, and any of them further on. -/
def rank : Call → Nat
  | program => 7
  | body | bodyTail => 6
  | statement => 5
  | expression => 4
  | phrase (some .sum) => 3
  | phrase (some .product) => 2
  | phrase none => 1
  | _ => 0

/-- How deep the calls may go. -/
def depth (k : Call) (c : Cursor) : Nat := 8 * c.tokens.length + k.rank

variable {b : Builder} {k k' : Call} {c d : Cursor} {call bottom : Callees}

/-! ### The functions are what their step makes of them -/

theorem read_eq (b : Builder) (k : Call) (c : Cursor) : k.read b c = step b (read b) k c := by
  cases k with
  | program => exact program_eq
  | body => exact of_bind fun _ _ => of_bind fun _ _ => rfl
  | bodyTail =>
    rw [read, Grammar.bodyTail, step]
    split
    · rfl
    · exact of_bind fun _ _ => of_bind fun _ _ => rfl
  | statement =>
    rw [read, Grammar.statement, step]
    cases c.ahead with
    | error f => rfl
    | ok t =>
      simp only [bind, Except.bind]
      split
      · exact of_bind fun _ _ => rfl
      · exact of_bind fun _ _ => of_bind fun _ _ => rfl
  | expression => rw [read, Grammar.expression]; rfl
  | phrase q =>
    cases q with
    | some q =>
      rw [read, step]
      cases h : c.tokens with
      | nil => rw [ranked_nil q h, Cursor.ahead_nil h]; rfl
      | cons t rest => rw [ranked_look_cons q h, Cursor.ahead_cons h]; rfl
    | none =>
      rw [read, Grammar.phrase, Grammar.primary, step]
      cases c.ahead with
      | error f => rfl
      | ok t =>
        simp only [bind, Except.bind]
        cases t.kind with
        | opening | additive => rfl
        | _ => simp only [read]; cases Grammar.literal b c.look <;> rfl
  | tail q start left =>
    rw [read, step]
    cases h : c.tokens with
    | nil => rw [tail_nil q h, Cursor.ahead_nil h]; rfl
    | cons t rest =>
      have h' : c.look.tokens = t :: rest := h
      rw [Cursor.ahead_cons h]
      simp only [Except.bind]
      split
      · next hk =>
        rw [tail_more q h hk, Cursor.take_cons _ h', if_pos hk, Cursor.past_look_cons]
        rfl
      · next hk => exact tail_stop q h hk
  | parenthesized =>
    rw [read, Grammar.parenthesized, step]
    exact of_bind fun _ _ => of_bind fun _ _ => of_bind fun _ _ => rfl
  | unary =>
    refine of_bind fun t d => ?_
    cases h : UnaryOp.ofSymbol? t.lexeme with
    | none => simp only [h]; rfl
    | some op => simp only [h]; exact of_bind fun _ _ => rfl
  | literal =>
    rw [read, Grammar.literal, step]
    cases c.ahead with
    | error f => rfl
    | ok t =>
      simp only [bind, Except.bind]
      split
      · exact of_bind fun _ _ => rfl
      · rfl

/-! ### How deep the calls go -/

theorem depth_lt_of_rank_lt (hr : k'.rank < k.rank) (h : d.tokens.length ≤ c.tokens.length) :
    k'.depth d < k.depth c := by
  unfold depth
  omega

theorem depth_lt_of_length_lt (h : d.tokens.length < c.tokens.length) : k'.depth d < k.depth c := by
  have : k'.rank < 8 := by unfold rank; split <;> omega
  unfold depth
  omega

theorem length_tokens_of_take {κ : Kind} {r : Token × Cursor} (h : of (c.take κ) = .ok r) :
    r.2.tokens.length < c.tokens.length :=
  bound_of_ok (P := fun d => d.tokens.length < c.tokens.length) h

theorem length_tokens_of_statement {r : Statement × Cursor}
    (h : read b statement c = .ok r) : r.2.tokens.length < c.tokens.length :=
  bound_of_ok (P := fun d => d.tokens.length < c.tokens.length) h

/-- The calls that a function makes are less deep than it. -/
theorem step_congr (h : ∀ k' d, k'.depth d < k.depth c → call k' d = k'.read b d) :
    step b call k c = step b (read b) k c := by
  -- the three ways in which a call is less deep
  have here : ∀ k' : Call, k'.rank < k.rank → call k' c = k'.read b c := fun k' hr =>
    h k' c (depth_lt_of_rank_lt hr (Nat.le_refl _))
  have inView : ∀ k' : Call, k'.rank < k.rank → call k' c.look = k'.read b c.look := fun k' hr =>
    h k' c.look (depth_lt_of_rank_lt hr (Nat.le_refl _))
  have further : ∀ (k' : Call) d, d.tokens.length < c.tokens.length →
      call k' d = k'.read b d := fun k' d hd => h k' d (depth_lt_of_length_lt hd)
  cases k with
  | program => exact bind_congr_ok (here body (by decide)) fun _ _ => rfl
  | body =>
    refine bind_congr_ok (here statement (by decide)) fun s hs => ?_
    exact bind_congr_ok (further bodyTail s.2 (length_tokens_of_statement hs)) fun _ _ => rfl
  | bodyTail =>
    rw [step, step]
    split
    · rfl
    refine bind_congr_ok (inView statement (by decide)) fun s hs => ?_
    exact bind_congr_ok (further bodyTail s.2 (length_tokens_of_statement hs)) fun _ _ => rfl
  | statement =>
    refine bind_congr_ok rfl fun t _ => ?_
    split
    · rfl
    · exact bind_congr_ok (inView expression (by decide)) fun _ _ => rfl
  | expression => exact here (phrase (some .sum)) (by decide)
  | phrase q =>
    cases q with
    | some q =>
      refine bind_congr_ok rfl fun t _ => ?_
      refine bind_congr_ok (inView (phrase q.tighter) (by cases q <;> decide)) fun left hl => ?_
      have shorter : left.2.tokens.length < c.look.tokens.length := length_tokens_of_phrase hl
      exact further _ left.2 shorter
    | none =>
      refine bind_congr_ok rfl fun t _ => ?_
      cases t.kind with
      | opening => exact inView parenthesized (by decide)
      | additive => exact inView unary (by decide)
      | _ => exact bind_congr_ok (inView literal (by decide)) fun _ _ => rfl
  | tail q start left =>
    refine bind_congr_ok rfl fun t _ => ?_
    split
    · refine bind_congr_ok rfl fun op hop => ?_
      have shorter := length_tokens_of_take hop
      refine bind_congr_ok (further (phrase q.tighter) op.2 shorter) fun right hr => ?_
      exact further _ right.2 (Nat.lt_trans (length_tokens_of_phrase hr) shorter)
    · rfl
  | parenthesized =>
    refine bind_congr_ok rfl fun opening ho => ?_
    exact bind_congr_ok (further expression opening.2 (length_tokens_of_take ho)) fun _ _ => rfl
  | unary =>
    refine bind_congr_ok rfl fun t ht => ?_
    split
    · rfl
    · exact bind_congr_ok (further literal t.2 (length_tokens_of_take ht)) fun _ _ => rfl
  | literal => rfl

/-- As deep as the tokens allow, it makes no difference what stands at the bottom. -/
theorem unrolled_eq {n : Nat} (h : k.depth c < n) : unrolled b bottom n k c = k.read b c := by
  induction n generalizing k c with
  | zero => omega
  | succ n ih =>
    rw [unrolled, read_eq]
    exact step_congr fun k' d hd => ih (by omega)

end Call
end Grammar
end Reckoner
