import Reckoner.Proofs.Failure
import Reckoner.Proofs.Unrolling

/-!
# Progress

`c.Takes ts d` says that the steps of a cursor lead from `c` to `d` and leave the tokens `ts`
behind, one step for each. What a function calls takes tokens, so it does so itself
(`Call.step_advance`), and by going as deep as the calls do this is so of all the reading functions
(`Call.read_advances`). A phrase takes at least one token, and a loop what its rounds take
(`Call.round_or_stop`). `Progress` puts it together.
-/

namespace Reckoner
open Outcome

namespace Cursor

inductive Takes : Cursor → List Token → Cursor → Prop
  | look (c : Cursor) : Takes c [] c.look
  | note (c : Cursor) (e : Event) : Takes c [] (c.note e)
  | take {c d : Cursor} {k : Kind} {t : Token} (h : of (c.take k) = .ok (t, d)) : Takes c [t] d
  | trans {c d e : Cursor} {ts us : List Token} (h : Takes c ts d) (h' : Takes d us e) :
    Takes c (ts ++ us) e

variable {c d : Cursor} {k : Kind} {t : Token} {ts : List Token} {m : Nat}

theorem eq_of_take_eq_ok (h : of (c.take k) = .ok (t, d)) :
    c.tokens = t :: d.tokens ∧ d.lastEnd = t.span.stop := by
  cases hc : c.tokens with
  | nil => rw [take_nil k hc] at h; cases h
  | cons u rest =>
    rw [take_cons k hc] at h
    split at h
    · cases h
      exact ⟨by rw [tokens_past_singleton hc], rfl⟩
    · cases h

theorem Takes.tokens_eq (h : c.Takes ts d) : c.tokens = ts ++ d.tokens := by
  induction h with
  | look | note => rfl
  | take h => exact (eq_of_take_eq_ok h).1
  | trans _ _ ih ih' => rw [ih, ih', List.append_assoc]

theorem Takes.lastEnd_eq (h : c.Takes ts d) :
    d.lastEnd = (ts.getLast?.map (·.span.stop)).getD c.lastEnd := by
  induction h with
  | look | note => rfl
  | take h => exact (eq_of_take_eq_ok h).2
  | @trans c d e ts us _ _ ih ih' =>
    rw [ih', ih, List.getLast?_append]
    cases us.getLast? <;> rfl

/-- From `c` to `d` at least `m` tokens are taken, and the cursor keeps account of them: left are
those behind them, and the last one left behind is the last of them. -/
def Consumes (c : Cursor) (m : Nat) (d : Cursor) : Prop :=
  ∃ ts, m ≤ ts.length ∧ c.tokens = ts ++ d.tokens ∧ d.lastEnd = (Span.hull ts).stop ∧ c.Takes ts d

theorem Takes.consumes (h : c.Takes ts d) (hts : ts ≠ []) (hm : m ≤ ts.length) :
    c.Consumes m d := by
  refine ⟨ts, hm, h.tokens_eq, ?_, h⟩
  rw [h.lastEnd_eq]
  obtain ⟨us, u, rfl⟩ := ts.eq_nil_or_concat'.resolve_left hts
  simp [Span.hull]

theorem take_eq_error {f : Failure} (h : c.take k = .error f) :
    f.cursor.tokens = c.tokens ∧ f.cursor.lastEnd = c.lastEnd := by
  have hf : f.cursor = c.look := by
    unfold take at h
    split at h
    · cases h; rfl
    · split at h
      · cases h
      · cases h; rfl
  rw [hf]
  exact ⟨rfl, rfl⟩

end Cursor

namespace Grammar
namespace Call
open Cursor
variable {b : Builder} {k : Call} {c d : Cursor} {call : Callees}

/-! ### Phrases take tokens -/

/-- Whether the function is a loop that has been entered, which may stop at once. -/
def isLoop : Call → Bool
  | bodyTail | tail .. => true
  | _ => false

/-- All that lies between `c` and `d` is taken, and unless a loop stops at once it is something. -/
def Advances (k : Call) (c d : Cursor) : Prop := ∃ ts, c.Takes ts d ∧ (k.isLoop = false → ts ≠ [])

def Advance (call : Callees) : Prop := ∀ k c a d, call k c = .ok (a, d) → k.Advances c d

theorem exists_of_bind_ahead {α : Type} {f : Token → Outcome α} {r : α × Cursor}
    (h : c.ahead.bind f = .ok r) : ∃ t, f t = .ok r := by
  cases ha : c.ahead with
  | error e => rw [ha] at h; cases h
  | ok t => rw [ha] at h; exact ⟨t, h⟩

/-- If what the functions call takes tokens, so do they. -/
theorem step_advance (h : Advance call) : Advance (step b call) := by
  intro k c a d hr
  cases k with
  | program =>
    obtain ⟨ss, d₁, hs, hr⟩ := bind_eq_ok.1 hr
    cases hr
    obtain ⟨ts, ht, hne⟩ := h _ _ _ _ hs
    exact ⟨_, ht.trans (.note d₁ _), fun _ => by simp [hne rfl]⟩
  | body =>
    obtain ⟨s, d₁, hs, hr⟩ := bind_eq_ok.1 hr
    obtain ⟨r, d₂, hr', hr⟩ := bind_eq_ok.1 hr
    cases hr
    obtain ⟨ts, ht, hne⟩ := h _ _ _ _ hs
    obtain ⟨us, hu, -⟩ := h _ _ _ _ hr'
    exact ⟨_, ht.trans hu, fun _ => by simp [hne rfl]⟩
  | bodyTail =>
    rw [step] at hr
    split at hr
    · cases hr
      exact ⟨[], .look c, fun hk => by cases hk⟩
    obtain ⟨s, d₁, hs, hr⟩ := bind_eq_ok.1 hr
    obtain ⟨r, d₂, hr', hr⟩ := bind_eq_ok.1 hr
    cases hr
    obtain ⟨ts, ht, -⟩ := h _ _ _ _ hs
    obtain ⟨us, hu, -⟩ := h _ _ _ _ hr'
    exact ⟨_, (Takes.look c).trans (ht.trans hu), fun hk => by cases hk⟩
  | statement =>
    obtain ⟨t, hr⟩ := exists_of_bind_ahead hr
    split at hr
    · obtain ⟨u, d₁, hu, hr⟩ := bind_eq_ok.1 hr
      cases hr
      exact ⟨_, (Takes.look c).trans ((Takes.take hu).trans (.note d₁ _)), fun _ => by simp⟩
    · obtain ⟨e, d₁, he, hr⟩ := bind_eq_ok.1 hr
      obtain ⟨u, d₂, hu, hr⟩ := bind_eq_ok.1 hr
      cases hr
      obtain ⟨ts, ht, -⟩ := h _ _ _ _ he
      exact ⟨_, (Takes.look c).trans (ht.trans ((Takes.take hu).trans (.note d₂ _))),
        fun _ => by simp⟩
  | expression => exact h (phrase (some .sum)) c a d hr
  | phrase q =>
    cases q with
    | some q =>
      obtain ⟨t, hr⟩ := exists_of_bind_ahead hr
      obtain ⟨left, d₁, hl, hr⟩ := bind_eq_ok.1 hr
      obtain ⟨ts, ht, hne⟩ := h _ _ _ _ hl
      obtain ⟨us, hu, -⟩ := h _ _ _ _ hr
      exact ⟨_, (Takes.look c).trans (ht.trans hu), fun _ => by simp [hne rfl]⟩
    | none =>
      obtain ⟨t, hr⟩ := exists_of_bind_ahead hr
      generalize t.kind = kind at hr
      cases kind with
      | opening | additive =>
        obtain ⟨ts, ht, hne⟩ := h _ _ _ _ hr
        exact ⟨_, (Takes.look c).trans ht, hne⟩
      | _ =>
        obtain ⟨l, d₁, hl, hr⟩ := bind_eq_ok.1 hr
        cases hr
        obtain ⟨ts, ht, hne⟩ := h _ _ _ _ hl
        exact ⟨_, (Takes.look c).trans ht, hne⟩
  | tail q start left =>
    obtain ⟨t, hr⟩ := exists_of_bind_ahead hr
    split at hr
    · obtain ⟨op, d₁, ho, hr⟩ := bind_eq_ok.1 hr
      obtain ⟨right, d₂, hr', hr⟩ := bind_eq_ok.1 hr
      obtain ⟨ts, ht, -⟩ := h _ _ _ _ hr'
      obtain ⟨us, hu, -⟩ := h _ _ _ _ hr
      exact ⟨_, (Takes.look c).trans ((Takes.take ho).trans (ht.trans hu)), fun hk => by cases hk⟩
    · cases hr
      exact ⟨[], .look c, fun hk => by cases hk⟩
  | parenthesized =>
    obtain ⟨o, d₁, ho, hr⟩ := bind_eq_ok.1 hr
    obtain ⟨e, d₂, he, hr⟩ := bind_eq_ok.1 hr
    obtain ⟨cl, d₃, hcl, hr⟩ := bind_eq_ok.1 hr
    cases hr
    obtain ⟨ts, ht, -⟩ := h _ _ _ _ he
    exact ⟨_, (Takes.take ho).trans (ht.trans (.take hcl)), fun _ => by simp⟩
  | unary =>
    obtain ⟨m, d₁, hm, hr⟩ := bind_eq_ok.1 hr
    split at hr
    · cases hr
    · obtain ⟨l, d₂, hl, hr⟩ := bind_eq_ok.1 hr
      cases hr
      obtain ⟨ts, ht, -⟩ := h _ _ _ _ hl
      exact ⟨_, (Takes.take hm).trans ht, fun _ => by simp⟩
  | literal =>
    obtain ⟨t, hr⟩ := exists_of_bind_ahead hr
    split at hr
    · obtain ⟨u, d₁, hu, hr⟩ := bind_eq_ok.1 hr
      cases hr
      exact ⟨_, (Takes.look c).trans (.take hu), fun _ => by simp⟩
    · cases hr

theorem read_advances : Advance (read b) := by
  intro k c a d h
  -- unrolled with nothing at the bottom, the functions take tokens, however deep that is
  have : ∀ n, Advance (unrolled b (fun _ c => .error c.ended) n) := by
    intro n
    induction n with
    | zero => intro _ _ _ _ h; cases h
    | succ n ih => exact step_advance ih
  rw [← unrolled_eq (Nat.lt_succ_self _)] at h
  exact this _ k c a d h

theorem consumes_of_read {a : k.Result} (hk : k.isLoop = false) (h : k.read b c = .ok (a, d)) :
    c.Consumes 1 d := by
  obtain ⟨ts, ht, hne⟩ := read_advances k c a d h
  exact ht.consumes (hne hk) (List.length_pos_of_ne_nil (hne hk))

/-! ### Loops go round -/

/-- One more round of a loop, which comes back to it. -/
inductive Round (b : Builder) : Call → Cursor → Call → Cursor → Prop
  | statement {c d : Cursor} {s : Statement} (hc : c.tokens ≠ [])
    (h : read b statement c.look = .ok (s, d)) : Round b bodyTail c bodyTail d
  | operator {q : Rank} {start : Nat} {left right : Expr} {c c' d : Cursor} {op : Token}
    (h : of (c.look.take q.kind) = .ok (op, c'))
    (hr : read b (phrase q.tighter) c' = .ok (right, d)) :
    Round b (tail q start left) c
      (tail q start (b.binary (q.op op) left right ⟨start, d.lastEnd⟩)) d

def perRound : Call → Nat
  | tail .. => 2
  | _ => 1

theorem Round.consumes {k' : Call} (h : Round b k c k' d) : c.Consumes k.perRound d := by
  cases h with
  | statement _ h =>
    obtain ⟨ts, ht, hne⟩ := read_advances _ _ _ _ h
    exact ((Takes.look c).trans ht).consumes (hne rfl) (List.length_pos_of_ne_nil (hne rfl))
  | operator h hr =>
    obtain ⟨ts, ht, hne⟩ := read_advances _ _ _ _ hr
    have := List.length_pos_of_ne_nil (hne rfl)
    exact ((Takes.look c).trans ((Takes.take h).trans ht)).consumes (by simp)
      (by simp only [perRound]; simp; omega)

/-- A loop goes round and then on from there, or it does not and takes nothing more. -/
theorem round_or_stop (b : Builder) (c : Cursor) (hk : k.isLoop = true) :
    (∃ k' d, Round b k c k' d ∧ (k.read b c).map Prod.snd = (k'.read b d).map Prod.snd) ∨
      (∀ k' d, ¬ Round b k c k' d) ∧ ∀ a d, k.read b c = .ok (a, d) → d = c.look := by
  cases k with
  | bodyTail =>
    by_cases hc : c.tokens = []
    · have hr : read b bodyTail c = .ok ([], c.look) := bodyTail_nil hc
      refine .inr ⟨?_, ?_⟩
      · rintro k' d ⟨hne, -⟩
        exact hne hc
      · intro a d h
        rw [hr] at h
        cases h
        rfl
    have hr : read b bodyTail c = (read b statement c.look).bind fun s =>
        (read b bodyTail s.2).bind fun r => .ok (.cons s.1 r.1, r.2) := by
      rw [read_eq, step, if_neg (by simpa using hc)]
    cases hs : read b statement c.look with
    | ok s =>
      refine .inl ⟨_, s.2, .statement hc hs, ?_⟩
      rw [hr, hs, ok_bind]
      cases read b bodyTail s.2 <;> rfl
    | error f =>
      refine .inr ⟨?_, ?_⟩
      · rintro k' d (⟨-, h⟩)
        rw [hs] at h
        cases h
      · intro a d h
        rw [hr, hs] at h
        cases h
  | tail q start left =>
    cases hc : c.tokens with
    | nil =>
      refine .inr ⟨?_, ?_⟩
      · rintro k' d (- | ⟨h, -⟩)
        have := (eq_of_take_eq_ok h).1
        simp [hc] at this
      · intro a d h
        rw [read, tail_nil q hc] at h
        cases h
    | cons t rest =>
      have hc' : c.look.tokens = t :: rest := hc
      by_cases ht : t.kind = q.kind
      · have htake : of (c.look.take q.kind) = .ok (t, c.past [t]) := by
          rw [take_cons _ hc', if_pos ht, past_look_cons]
        cases hr : read b (phrase q.tighter) (c.past [t]) with
        | ok r =>
          refine .inl ⟨_, r.2, .operator htake hr, ?_⟩
          have hr' : Grammar.phrase b q.tighter (c.past [t]) = .ok r := hr
          rw [read, tail_more q hc ht, hr']
          rfl
        | error f =>
          refine .inr ⟨?_, ?_⟩
          · rintro k' d (- | ⟨h, h'⟩)
            rw [htake] at h
            cases h
            rw [hr] at h'
            cases h'
          · intro a d h
            have hr' : Grammar.phrase b q.tighter (c.past [t]) = .error f := hr
            rw [read, tail_more q hc ht, hr'] at h
            cases h
      · refine .inr ⟨?_, ?_⟩
        · rintro k' d (- | ⟨h, -⟩)
          rw [take_cons _ hc', if_neg ht] at h
          cases h
        · intro a d h
          rw [read, tail_stop q hc ht] at h
          cases h
          rfl
  | _ => cases hk

/-! ### Programs -/

theorem tokens_of_program {p : Program} (h : read b program c = .ok (p, d)) : d.tokens = [] := by
  have hp : of (Grammar.program b c) = .ok (p, d) := h
  rw [program_eq] at hp
  obtain ⟨ss, d₁, hb, hp⟩ := bind_eq_ok.1 hp
  cases hp
  obtain ⟨-, tss, htok, -, rfl⟩ := body_eq_ok_iff.1 hb
  have htok' : c.tokens = tss.flatten ++ [] := by rw [htok, List.append_nil]
  exact tokens_pastAll htok'

theorem parse_eq_read (b : Builder) (text : String) : Program.parse b text =
    ((read b program (.start (.ofText text))).map Prod.fst).mapError Failure.error :=
  Program.parse_eq b text

end Call

open Call

/-- Reading gets on, with the builder `b`, wherever it stands. -/
structure Progress (b : Builder) : Prop where
  /-- a phrase takes at least one token -/
  phrase (k : Call) (c : Cursor) (a : k.Result) (d : Cursor) : k.isLoop = false →
    k.read b c = .ok (a, d) → c.Consumes 1 d
  /-- a round of a loop takes at least one token, and where there are operators two -/
  round (k : Call) (c : Cursor) (k' : Call) (d : Cursor) : Round b k c k' d →
    c.Consumes k.perRound d
  /-- a loop is made of rounds, and takes nothing besides them -/
  loop (k : Call) (c : Cursor) : k.isLoop = true →
    (∃ k' d, Round b k c k' d ∧ (k.read b c).map Prod.snd = (k'.read b d).map Prod.snd) ∨
      (∀ k' d, ¬ Round b k c k' d) ∧ ∀ a d, k.read b c = .ok (a, d) →
        d.tokens = c.tokens ∧ d.lastEnd = c.lastEnd
  /-- a token that may not be taken is left where it is -/
  refusal (k : Kind) (c : Cursor) (f : Failure) : c.take k = .error f →
    f.cursor.tokens = c.tokens ∧ f.cursor.lastEnd = c.lastEnd
  /-- calls come to an end -/
  ends (k : Call) (c : Cursor) (bottom : Callees) (n : Nat) : k.depth c < n →
    k.read b c = unrolled b bottom n k c
  /-- with every text, after no more calls than its tokens allow -/
  parse_ends (text : String) (bottom : Callees) : Program.parse b text =
    ((unrolled b bottom (8 * ((tokenize text).length + 1)) .program (.start (.ofText text))).map
      Prod.fst).mapError Failure.error
  /-- what is read of a text has taken each of its tokens, once -/
  parse_takes (text : String) (p : Program) : Program.parse b text = .ok p →
    ∃ d, Call.program.read b (.start (.ofText text)) = .ok (p, d) ∧ d.tokens = [] ∧
      (Cursor.start (.ofText text)).Takes (tokenize text) d

theorem reading_progresses (b : Builder) : Progress b where
  phrase _ _ _ _ hk h := consumes_of_read hk h
  round _ _ _ _ h := h.consumes
  loop k c hk := by
    rcases round_or_stop b c hk with hround | ⟨hno, hstop⟩
    · exact .inl hround
    · refine .inr ⟨hno, fun a d h => ?_⟩
      rw [hstop a d h]
      exact ⟨rfl, rfl⟩
  refusal _ _ _ h := Cursor.take_eq_error h
  ends _ _ _ _ h := (unrolled_eq h).symm
  parse_ends text bottom := by
    have hd : Call.program.depth (.start (.ofText text)) < 8 * ((tokenize text).length + 1) := by
      show 8 * (tokenize text).length + 7 < _
      omega
    rw [unrolled_eq hd]
    exact parse_eq_read b text
  parse_takes text p h := by
    rw [parse_eq_read] at h
    cases hr : Call.program.read b (.start (.ofText text)) with
    | error f => rw [hr] at h; cases h
    | ok r =>
      obtain ⟨p', d⟩ := r
      rw [hr] at h
      cases h
      have hd := tokens_of_program hr
      obtain ⟨ts, ht, -⟩ := read_advances _ _ _ _ hr
      have hts : tokenize text = ts := by
        have := ht.tokens_eq
        rw [hd, List.append_nil] at this
        exact this
      exact ⟨d, rfl, hd, hts ▸ ht⟩

end Grammar
end Reckoner
