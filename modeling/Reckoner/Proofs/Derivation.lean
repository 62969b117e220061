import Mathlib.Data.List.Forall2
import Reckoner.Proofs.Phrase

/-!
# What reading derives

`Reads b q ts e`: the tokens `ts` are a phrase of rank `q`, and the builder `b` makes `e` of it.
The relation groups to the left by its form, reading does so with a loop. `phrase_eq_ok_iff` says
that they agree: reading returns exactly the phrases with which the tokens begin and which no
operator goes on, and the cursor behind them. `parse_eq_ok_iff` is the same for whole programs.
-/

namespace Reckoner
namespace Grammar
open Outcome

/-- The tokens `ts` are a phrase of rank `q`, of which `b` makes `e`. -/
inductive Reads (b : Builder) : Option Rank → List Token → Expr → Prop
  | number {t : Token} (h : t.kind = .number) :
    Reads b none [t] (.literal (b.literal (numberValue t.lexeme) t.lexeme t.span))
  | minus {m t : Token} (hm : m.kind = .additive) (hs : m.lexeme = "-") (h : t.kind = .number) :
    Reads b none [m, t] (.unary (b.unary .negate
      (.literal (b.literal (numberValue t.lexeme) t.lexeme t.span)) (.hull [m, t])))
  | parens {o cl : Token} {ts : List Token} {e : Expr} (ho : o.kind = .opening)
    (h : Reads b (some .sum) ts e) (hc : cl.kind = .closing) :
    Reads b none (o :: (ts ++ [cl])) (b.parenthesized e ⟨e.span.start, cl.span.stop⟩)
  | single (q : Rank) {ts : List Token} {e : Expr} (h : Reads b q.tighter ts e) :
    Reads b (some q) ts e
  | chain (q : Rank) {o : Token} {ls rs : List Token} {l r : Expr} (hl : Reads b (some q) ls l)
    (ho : o.kind = q.kind) (hr : Reads b q.tighter rs r) :
    Reads b (some q) (ls ++ o :: rs) (b.binary (q.op o) l r (.hull (ls ++ o :: rs)))

/-- No operator goes on a phrase of rank `q` with the tokens `ts` behind it. An operand needs
nothing behind it; of a phrase with a rank the end shows only at the next token. -/
def Stops : Option Rank → List Token → Prop
  | none, _ => True
  | some .product, ts => ∃ t rest, ts = t :: rest ∧ t.kind ≠ .multiplicative
  | some .sum, ts => ∃ t rest, ts = t :: rest ∧ t.kind ≠ .multiplicative ∧ t.kind ≠ .additive

variable {b : Builder} {q : Option Rank} {c d : Cursor} {t : Token} {ts rest : List Token}
  {e : Expr} {f : Failure}

theorem stops_some {q : Rank} :
    Stops (some q) ts ↔ Stops q.tighter ts ∧ ∃ t rest, ts = t :: rest ∧ t.kind ≠ q.kind := by
  cases q with
  | product => simp [Stops, Rank.tighter, Rank.kind]
  | sum =>
    constructor
    · rintro ⟨t, rest, rfl, hm, ha⟩
      exact ⟨⟨t, rest, rfl, hm⟩, t, rest, rfl, ha⟩
    · rintro ⟨⟨t, rest, rfl, hm⟩, t', rest', h, ha⟩
      cases h
      exact ⟨t, rest, rfl, hm, ha⟩

theorem stops_of_kind_eq {q : Rank} (h : t.kind = q.kind) : Stops q.tighter (t :: ts) := by
  cases q with
  | sum => exact ⟨t, ts, rfl, by rw [h]; decide⟩
  | product => trivial

theorem Reads.ne_nil (h : Reads b q ts e) : ts ≠ [] := by
  induction h with
  | number | minus | parens => simp
  | single _ _ ih => exact ih
  | chain => simp

end Grammar

namespace Cursor
variable {c : Cursor} {ts : List Token}

/-- The cursor behind a phrase of rank `q`: with a rank, the next token is in view. -/
def behind (c : Cursor) : Option Rank → Cursor
  | none => c
  | some _ => c.look

@[simp] theorem tokens_behind (q : Option Rank) : (c.behind q).tokens = c.tokens := by
  cases q <;> rfl

@[simp] theorem lastEnd_behind (q : Option Rank) : (c.behind q).lastEnd = c.lastEnd := by
  cases q <;> rfl

theorem look_past_behind (q : Option Rank) : ((c.behind q).past ts).look = (c.past ts).look := by
  cases q with
  | none => rfl
  | some q =>
    cases ts with
    | nil => exact look_look c
    | cons t ts => exact congrArg look past_look_cons

end Cursor

namespace Grammar
open Outcome
variable {b : Builder} {q : Option Rank} {c d : Cursor} {t : Token} {ts rest : List Token}
  {e : Expr} {f : Failure}

theorem tail_behind {start : Nat} {left : Expr} (p : Rank) (q : Option Rank) :
    tail b start left p (c.behind q) = tail b start left p c := by
  cases q with
  | none => rfl
  | some q => exact tail_look p

/-! ### Phrases are read -/

/-- Reading a text that begins with the tokens `ts` of a phrase comes as far as their end. With a
rank it is then in the tail, where more operators may come. -/
def Reaches (b : Builder) : Option Rank → List Token → Expr → Prop
  | none, ts, e => ∀ c rest, c.tokens = ts ++ rest → phrase b none c = .ok (e, c.past ts)
  | some q, ts, e => ∀ c rest, c.tokens = ts ++ rest → Stops q.tighter rest →
    phrase b (some q) c = tail b (Span.hull ts).start e q (c.past ts)

theorem Reaches.phrase_eq (h : Reaches b q ts e) (hc : c.tokens = ts ++ rest)
    (hs : Stops q rest) : phrase b q c = .ok (e, (c.past ts).behind q) := by
  cases q with
  | none => exact h c rest hc
  | some q =>
    obtain ⟨hq, t, rest, rfl, hk⟩ := stops_some.1 hs
    rw [h c _ hc hq, tail_stop q (Cursor.tokens_past hc) hk]
    rfl

theorem Reads.reaches (h : Reads b q ts e) : Reaches b q ts e := by
  induction h with
  | @number t ht =>
    intro c rest hc
    rw [operand_other hc (by simp [ht]) (by simp [ht]), if_pos ht]
  | @minus m t hm hs ht =>
    intro c rest hc
    have hd : (c.past [m]).tokens = t :: rest := Cursor.tokens_past_singleton hc
    rw [operand_additive hc hm, if_pos hs, literal_cons hd, if_pos ht, ok_bind]
    rfl
  | @parens o cl ts e ho h hcl ih =>
    intro c rest hc
    have hc' : c.tokens = o :: (ts ++ cl :: rest) := by simp [hc]
    have hd : (c.past [o]).tokens = ts ++ cl :: rest := Cursor.tokens_past_singleton hc'
    have hd' : (((c.past [o]).past ts).look).tokens = cl :: rest := Cursor.tokens_past hd
    have hin : phrase b (some .sum) (c.past [o]) = .ok (e, ((c.past [o]).past ts).look) :=
      Reaches.phrase_eq ih hd ⟨cl, rest, rfl, by simp [hcl], by simp [hcl]⟩
    rw [operand_opening hc' ho, hin, ok_bind,
      Cursor.take_cons _ hd', if_pos hcl, ok_bind, Cursor.past_look_cons,
      ← Cursor.past_append (c.past [o]) ts [cl]]
    rfl
  | @single q ts e h ih =>
    intro c rest hc hs
    obtain ⟨t, us, rfl⟩ := List.exists_cons_of_ne_nil h.ne_nil
    rw [ranked_cons q hc, Reaches.phrase_eq ih hc hs, ok_bind, tail_behind]
    rfl
  | @chain q o ls rs l r hl ho hr ihl ihr =>
    intro c rest hc hs
    have hc' : c.tokens = ls ++ o :: (rs ++ rest) := by simp [hc]
    have hd : (c.past ls).tokens = o :: (rs ++ rest) := Cursor.tokens_past hc'
    have hd' : ((c.past ls).past [o]).tokens = rs ++ rest := Cursor.tokens_past_singleton hd
    rw [ihl c _ hc' (stops_of_kind_eq ho), tail_more q hd ho, Reaches.phrase_eq ihr hd' hs,
      ok_bind, tail_behind]
    simp only [Cursor.lastEnd_behind, Cursor.lastEnd_past hr.ne_nil]
    rw [Span.start_hull_append hl.ne_nil, Span.hull_append_cons hl.ne_nil hr.ne_nil,
      Cursor.past_append c ls (o :: rs)]
    rfl

/-! ### What is read is a phrase -/

/-- What reading returns at `c` is made of the tokens of a phrase, as many as belong to it. -/
def ReturnsPhrases (b : Builder) (q : Option Rank) (c : Cursor) : Prop :=
  ∀ e d, phrase b q c = .ok (e, d) → ∃ ts rest, c.tokens = ts ++ rest ∧ Reads b q ts e ∧
    Stops q rest ∧ d = (c.past ts).behind q

/-- What the tail returns at `c` goes on the phrase `ls` that has been read before it. -/
def ExtendsPhrases (b : Builder) (q : Rank) (c : Cursor) : Prop :=
  ∀ ls l, Reads b (some q) ls l → Stops q.tighter c.tokens → ∀ e d,
    tail b (Span.hull ls).start l q c = .ok (e, d) → ∃ ts rest, c.tokens = ts ++ rest ∧
      Reads b (some q) (ls ++ ts) e ∧ Stops (some q) rest ∧ d = (c.past ts).look

theorem returnsPhrases_some {q : Rank} (operand : ReturnsPhrases b q.tighter c)
    (tails : ∀ d, d.tokens.length < c.tokens.length → ExtendsPhrases b q d) :
    ReturnsPhrases b (some q) c := by
  intro e d h
  cases hc : c.tokens with
  | nil => rw [phrase_nil _ hc] at h; cases h
  | cons t rest =>
    rw [ranked_cons q hc, bind_eq_ok] at h
    obtain ⟨l, d₁, hl, ht⟩ := h
    have shorter := length_tokens_of_phrase hl
    obtain ⟨ls, us, htok, hr, hs, rfl⟩ := operand l d₁ hl
    have hus : ((c.past ls).behind q.tighter).tokens = us := by
      rw [Cursor.tokens_behind, Cursor.tokens_past htok]
    have hstart : t.span.start = (Span.hull ls).start := by
      obtain ⟨t', ls, rfl⟩ := List.exists_cons_of_ne_nil hr.ne_nil
      simp only [hc, List.cons_append, List.cons.injEq] at htok
      rw [htok.1, Span.start_hull_cons]
    rw [hstart] at ht
    obtain ⟨ts, rest', htok', hr', hs', hd⟩ :=
      tails _ shorter ls l (.single q hr) (hus ▸ hs) e d ht
    refine ⟨ls ++ ts, rest', ?_, hr', hs', ?_⟩
    · rw [← hc, htok, ← hus, htok', List.append_assoc]
    · rw [hd, Cursor.look_past_behind, Cursor.past_append]; rfl

theorem returnsPhrases_parens (hc : c.tokens = t :: rest) (ho : t.kind = .opening)
    (sum : ReturnsPhrases b (some .sum) (c.past [t])) : ReturnsPhrases b none c := by
  intro e d h
  have hd₁ : (c.past [t]).tokens = rest := Cursor.tokens_past_singleton hc
  rw [operand_opening hc ho, bind_eq_ok] at h
  obtain ⟨e', d₁, he, h⟩ := h
  obtain ⟨cl, d₂, hcl, h⟩ := bind_eq_ok.1 h
  obtain ⟨ts, us, htok, hr, ⟨cl', us, rfl, -⟩, rfl⟩ := sum e' d₁ he
  have hd₂ : ((c.past [t]).past ts).look.tokens = cl' :: us := Cursor.tokens_past htok
  have hcl' : of (Cursor.take .closing ((c.past [t]).past ts).look) = .ok (cl, d₂) := hcl
  rw [Cursor.take_cons _ hd₂] at hcl'
  split at hcl'
  · next hk =>
    cases hcl'
    cases h
    refine ⟨t :: (ts ++ [cl]), us, ?_, .parens ho hr hk, trivial, ?_⟩
    · rw [hc, ← hd₁, htok]; simp
    · rw [Cursor.past_look_cons, ← Cursor.past_append (c.past [t]) ts [cl]]; rfl
  · cases hcl'

theorem returnsPhrases_minus (hc : c.tokens = t :: rest) (ha : t.kind = .additive) :
    ReturnsPhrases b none c := by
  intro e d h
  have hd₁ : (c.past [t]).tokens = rest := Cursor.tokens_past_singleton hc
  rw [operand_additive hc ha] at h
  split at h
  · next hs =>
    obtain ⟨l, d₁, hl, h⟩ := bind_eq_ok.1 h
    cases hrest : rest with
    | nil => rw [literal_nil (hd₁.trans hrest)] at hl; cases hl
    | cons n rest' =>
      rw [literal_cons (hd₁.trans hrest)] at hl
      split at hl
      · next hn =>
        cases hl
        cases h
        exact ⟨[t, n], rest', by rw [hc, hrest]; rfl, .minus ha hs hn, trivial, rfl⟩
      · cases hl
  · cases h

theorem returnsPhrases_none
    (sum : ∀ t rest, c.tokens = t :: rest → ReturnsPhrases b (some .sum) (c.past [t])) :
    ReturnsPhrases b none c := by
  cases hc : c.tokens with
  | nil => intro e d h; rw [operand_nil hc] at h; cases h
  | cons t rest =>
    by_cases ho : t.kind = .opening
    · exact returnsPhrases_parens hc ho (sum t rest hc)
    by_cases ha : t.kind = .additive
    · exact returnsPhrases_minus hc ha
    intro e d h
    rw [operand_other hc ho ha] at h
    split at h
    · next hn => cases h; exact ⟨[t], rest, hc, .number hn, trivial, rfl⟩
    · cases h

theorem extendsPhrases {q : Rank} (further : ∀ d, d.tokens.length < c.tokens.length →
    ReturnsPhrases b q.tighter d ∧ ExtendsPhrases b q d) : ExtendsPhrases b q c := by
  intro ls l hl hstop e d h
  cases hc : c.tokens with
  | nil => rw [tail_nil q hc] at h; cases h
  | cons o rest =>
    by_cases ho : o.kind = q.kind
    · rw [tail_more q hc ho, bind_eq_ok] at h
      obtain ⟨r, d₁, hr, ht⟩ := h
      have hd₁ : (c.past [o]).tokens = rest := Cursor.tokens_past_singleton hc
      have shorter : (c.past [o]).tokens.length < c.tokens.length := by
        rw [hd₁, hc]; exact Nat.lt_succ_self _
      obtain ⟨rs, us, htok, hrs, hs, rfl⟩ := (further _ shorter).1 r d₁ hr
      have hus : (((c.past [o]).past rs).behind q.tighter).tokens = us := by
        rw [Cursor.tokens_behind, Cursor.tokens_past htok]
      have shorter' := Nat.lt_trans (length_tokens_of_phrase hr) shorter
      have hspan : (⟨(Span.hull ls).start, (((c.past [o]).past rs).behind q.tighter).lastEnd⟩ :
          Span) = .hull (ls ++ o :: rs) := by
        rw [Cursor.lastEnd_behind, Cursor.lastEnd_past hrs.ne_nil,
          Span.hull_append_cons hl.ne_nil hrs.ne_nil]
      rw [hspan, ← Span.start_hull_append hl.ne_nil (o :: rs)] at ht
      obtain ⟨ts, rest', htok', hr', hs', hd⟩ :=
        (further _ shorter').2 _ _ (.chain q hl ho hrs) (hus ▸ hs) e d ht
      refine ⟨o :: (rs ++ ts), rest', ?_, by simpa using hr', hs', ?_⟩
      · rw [← hd₁, htok, ← hus, htok']; simp
      · rw [hd, Cursor.look_past_behind, ← Cursor.past_append]; rfl
    · rw [tail_stop q hc ho] at h
      cases h
      exact ⟨[], o :: rest, rfl, by simpa using hl,
        stops_some.2 ⟨hc ▸ hstop, o, rest, rfl, ho⟩, rfl⟩

theorem returnsPhrases (q : Option Rank) (c : Cursor) : ReturnsPhrases b q c :=
  (phrase_induct (fun _ _ => returnsPhrases_some) (fun _ => returnsPhrases_none)
    fun _ _ => extendsPhrases).1 q c

/-- Reading returns exactly the phrases with which the tokens begin and which nothing goes on. -/
theorem phrase_eq_ok_iff : phrase b q c = .ok (e, d) ↔ ∃ ts rest, c.tokens = ts ++ rest ∧
    Reads b q ts e ∧ Stops q rest ∧ d = (c.past ts).behind q :=
  ⟨returnsPhrases q c e d, fun ⟨_, _, hc, h, hs, hd⟩ => hd ▸ h.reaches.phrase_eq hc hs⟩

end Grammar
end Reckoner
