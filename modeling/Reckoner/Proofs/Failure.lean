import Reckoner.Proofs.Program

/-!
# Where reading fails

Reading fails at the first token that it cannot use, or where the tokens end (`Failure.From`). The
tokens before that one are left behind, and since a semicolon ends a statement, none of those that
belong to the failing statement is one. `body_eq_error` says the same for programs: what comes
before the failing statement are complete statements. So an error always points into the text that
was read (`ParseError.PointsInto`).
-/

namespace Reckoner

/-- The error is about the token `t`. -/
def ParseError.Names (t : Token) : ParseError → Prop
  | unexpectedToken found _ s | unexpectedLiteral found s => found = t.kind ∧ s = t.span
  | unexpectedEnd _ => False

/-- The error names one of the tokens, or the end of the last one. -/
def ParseError.PointsInto (ts : List Token) (e : ParseError) : Prop :=
  (∃ t ∈ ts, e.Names t) ∨ e = .unexpectedEnd (Span.hull ts).stop

namespace Cursor
variable {c : Cursor} {ts us : List Token} {tss : List (List Token)}

theorem past_behind_cons (q : Option Rank) (t : Token) (ts : List Token) :
    (c.behind q).past (t :: ts) = c.past (t :: ts) := by
  cases q with
  | none => rfl
  | some q => exact past_look_cons

theorem ended_past_behind (q : Option Rank) :
    ((c.behind q).past ts).ended = (c.past ts).ended := by
  cases ts with
  | nil =>
    cases q with
    | none => rfl
    | some q => exact ended_look
  | cons t ts => rw [past_behind_cons]

theorem tokens_pastAll (h : c.tokens = tss.flatten ++ us) : (c.pastAll tss).tokens = us := by
  induction tss generalizing c with
  | nil => exact h
  | cons ts tss ih =>
    refine ih ?_
    rw [tokens_note]
    exact tokens_past (by rw [h, List.flatten_cons, List.append_assoc])

theorem lastEnd_past_eq (c : Cursor) (ts : List Token) :
    (c.past ts).lastEnd = (ts.getLast?.map (·.span.stop)).getD c.lastEnd := by
  rcases ts.eq_nil_or_concat' with rfl | ⟨ts, t, rfl⟩
  · rfl
  · rw [lastEnd_past_concat, List.getLast?_concat]; rfl

theorem lastEnd_pastAll (c : Cursor) (tss : List (List Token)) :
    (c.pastAll tss).lastEnd = (c.past tss.flatten).lastEnd := by
  induction tss generalizing c with
  | nil => rfl
  | cons ts tss ih =>
    rw [pastAll, ih, List.flatten_cons, past_append, lastEnd_past_eq, lastEnd_past_eq (c.past ts)]
    rfl

end Cursor

namespace Failure
variable {c : Cursor} {f : Failure} {k : Kind} {q : Option Rank} {ts us rest : List Token}
  {t : Token}

/-- Reading what comes at `c` up to the next semicolon has failed with `f`. -/
inductive From (c : Cursor) : Failure → Prop
  /-- at a token in view -/
  | token {ts rest : List Token} {t : Token} {e : ParseError} (h : c.tokens = ts ++ t :: rest)
    (hts : ∀ u ∈ ts, u.kind ≠ .semicolon) (he : e.Names t) : From c ⟨e, (c.past ts).look⟩
  /-- at a token that was left behind before it proved to be none of use -/
  | taken {ts rest : List Token} {t : Token} {e : ParseError} (h : c.tokens = ts ++ t :: rest)
    (hts : ∀ u ∈ ts, u.kind ≠ .semicolon) (he : e.Names t) : From c ⟨e, c.past (ts ++ [t])⟩
  /-- where there is no token left -/
  | ended (hts : ∀ u ∈ c.tokens, u.kind ≠ .semicolon) : From c (c.past c.tokens).ended

theorem From.of_nil (h : c.tokens = []) : c.ended.From c := by
  have := From.ended (c := c) (by simp [h])
  rwa [h] at this

theorem From.of_cons {e : ParseError} (h : c.tokens = t :: rest) (he : e.Names t) :
    From c ⟨e, c.look⟩ := by
  have hts : ∀ u ∈ ([] : List Token), u.kind ≠ .semicolon := by simp
  exact .token h hts he

/-- Behind tokens that were read, a failure is one from before them. -/
theorem From.prepend (hc : c.tokens = ts ++ us) (hts : ∀ t ∈ ts, t.kind ≠ .semicolon)
    (h : f.From ((c.past ts).behind q)) : f.From c := by
  have hd : ((c.past ts).behind q).tokens = us := by
    rw [Cursor.tokens_behind, Cursor.tokens_past hc]
  cases h with
  | @token vs rest t e h hvs he =>
    rw [Cursor.look_past_behind, ← Cursor.past_append]
    have hc' : c.tokens = (ts ++ vs) ++ t :: rest := by rw [hc, ← hd, h, List.append_assoc]
    exact .token hc' (List.forall_mem_append.2 ⟨hts, hvs⟩) he
  | @taken vs rest t e h hvs he =>
    obtain ⟨v, vs', hv⟩ := List.exists_cons_of_ne_nil (List.append_ne_nil_of_right_ne_nil vs
      (List.cons_ne_nil t []))
    rw [hv, Cursor.past_behind_cons, ← hv, ← Cursor.past_append, ← List.append_assoc]
    have hc' : c.tokens = (ts ++ vs) ++ t :: rest := by rw [hc, ← hd, h, List.append_assoc]
    exact .taken hc' (List.forall_mem_append.2 ⟨hts, hvs⟩) he
  | ended hvs =>
    rw [hd] at hvs ⊢
    rw [Cursor.ended_past_behind, ← Cursor.past_append, ← hc]
    exact .ended (hc ▸ List.forall_mem_append.2 ⟨hts, hvs⟩)

end Failure

namespace Grammar
open Outcome
variable {b : Builder} {q : Option Rank} {c d : Cursor} {t : Token} {ts rest : List Token}
  {e : Expr} {f : Failure} {k : Kind}

theorem from_take (h : of (c.take k) = .error f) : f.From c := by
  cases hc : c.tokens with
  | nil =>
    rw [Cursor.take_nil k hc] at h
    cases h
    exact .of_nil hc
  | cons t rest =>
    rw [Cursor.take_cons _ hc] at h
    split at h
    · cases h
    · cases h
      exact .of_cons hc ⟨rfl, rfl⟩

theorem from_literal (h : of (literal b c) = .error f) : f.From c := by
  cases hc : c.tokens with
  | nil =>
    rw [literal_nil hc] at h
    cases h
    exact .of_nil hc
  | cons t rest =>
    rw [literal_cons hc] at h
    split at h
    · cases h
    · cases h
      exact .of_cons hc ⟨rfl, rfl⟩

/-! ### Expressions -/

theorem from_of_phrase (he : phrase b q c = .ok (e, d)) (h : f.From d) : f.From c := by
  obtain ⟨ts, rest, hc, hr, -, rfl⟩ := phrase_eq_ok_iff.1 he
  exact h.prepend hc hr.kind_ne_semicolon

theorem from_of_token (hc : c.tokens = t :: rest) (ht : t.kind ≠ .semicolon)
    (h : f.From (c.past [t])) : f.From c := by
  have hts : ∀ u ∈ [t], u.kind ≠ .semicolon := by simpa using ht
  exact Failure.From.prepend (q := none) hc hts h

theorem from_ranked {q : Rank} (operand : ∀ f, phrase b q.tighter c = .error f → f.From c)
    (tails : ∀ d, d.tokens.length < c.tokens.length →
      ∀ start left f, tail b start left q d = .error f → f.From d) :
    ∀ f, phrase b (some q) c = .error f → f.From c := by
  intro f h
  cases hc : c.tokens with
  | nil =>
    rw [phrase_nil _ hc] at h
    cases h
    exact .of_nil hc
  | cons t rest =>
    rw [ranked_cons q hc, bind_eq_error] at h
    rcases h with h | ⟨l, d, hl, h⟩
    · exact operand f h
    · exact from_of_phrase hl (tails d (length_tokens_of_phrase hl) _ _ f h)

theorem from_operand
    (sum : ∀ t rest, c.tokens = t :: rest →
      ∀ f, phrase b (some .sum) (c.past [t]) = .error f → f.From (c.past [t])) :
    ∀ f, phrase b none c = .error f → f.From c := by
  intro f h
  cases hc : c.tokens with
  | nil =>
    rw [operand_nil hc] at h
    cases h
    exact .of_nil hc
  | cons t rest =>
    by_cases ho : t.kind = .opening
    · refine from_of_token hc (by simp [ho]) ?_
      rw [operand_opening hc ho, bind_eq_error] at h
      rcases h with h | ⟨e, d, he, h⟩
      · exact sum t rest hc f h
      rcases bind_eq_error.1 h with h | ⟨_, _, _, h⟩
      · exact from_of_phrase he (from_take h)
      · cases h
    by_cases ha : t.kind = .additive
    · rw [operand_additive hc ha] at h
      split at h
      · refine from_of_token hc (by simp [ha]) ?_
        rcases bind_eq_error.1 h with h | ⟨_, _, _, h⟩
        · exact from_literal h
        · cases h
      · cases h
        have hts : ∀ u ∈ ([] : List Token), u.kind ≠ .semicolon := by simp
        exact .taken hc hts ⟨rfl, rfl⟩
    rw [operand_other hc ho ha] at h
    split at h
    · cases h
    · cases h
      exact .of_cons hc ⟨rfl, rfl⟩

theorem from_tail {q : Rank}
    (further : ∀ d, d.tokens.length < c.tokens.length →
      (∀ f, phrase b q.tighter d = .error f → f.From d) ∧
        ∀ start left f, tail b start left q d = .error f → f.From d) :
    ∀ start left f, tail b start left q c = .error f → f.From c := by
  intro start left f h
  cases hc : c.tokens with
  | nil =>
    rw [tail_nil q hc] at h
    cases h
    exact .of_nil hc
  | cons o rest =>
    by_cases ho : o.kind = q.kind
    · have shorter : (c.past [o]).tokens.length < c.tokens.length := by
        rw [Cursor.tokens_past_singleton hc, hc]
        exact Nat.lt_succ_self _
      refine from_of_token hc (by rw [ho]; cases q <;> decide) ?_
      rw [tail_more q hc ho, bind_eq_error] at h
      rcases h with h | ⟨r, d, hr, h⟩
      · exact (further _ shorter).1 f h
      · have shorter' := Nat.lt_trans (length_tokens_of_phrase hr) shorter
        exact from_of_phrase hr ((further _ shorter').2 _ _ f h)
    · rw [tail_stop q hc ho] at h
      cases h

theorem from_phrase (h : phrase b q c = .error f) : f.From c :=
  (phrase_induct (M := fun q c => ∀ f, phrase b q c = .error f → f.From c)
    (N := fun q c => ∀ start left f, tail b start left q c = .error f → f.From c)
    (fun _ _ => from_ranked) (fun _ => from_operand) (fun _ _ => from_tail)).1 q c f h

/-! ### Programs -/

theorem from_statement (h : of (statement b c) = .error f) : f.From c := by
  cases hc : c.tokens with
  | nil =>
    rw [statement_nil hc] at h
    cases h
    exact .of_nil hc
  | cons t rest =>
    by_cases hk : t.kind = .semicolon
    · rw [statement_semicolon hc hk] at h
      cases h
    rw [statement_other hc hk] at h
    rcases bind_eq_error.1 h with h | ⟨e, d, he, h⟩
    · exact from_phrase h
    rcases bind_eq_error.1 h with h | ⟨_, _, _, h⟩
    · exact from_of_phrase he (from_take h)
    · cases h

theorem bodyTail_eq_error (h : of (bodyTail b c) = .error f) :
    ∃ tss ss us, c.tokens = tss.flatten ++ us ∧ us ≠ [] ∧
      List.Forall₂ (ReadsStatement b) tss ss ∧ f.From (c.pastAll tss) := by
  generalize hn : c.tokens.length = n
  induction n using Nat.strongRecOn generalizing c with
  | ind n ih =>
    subst hn
    by_cases hc : c.tokens = []
    · rw [bodyTail_nil hc] at h
      cases h
    obtain ⟨t, rest, hc'⟩ := List.exists_cons_of_ne_nil hc
    rw [bodyTail_cons hc'] at h
    rcases bind_eq_error.1 h with h | ⟨s, d, hs, h⟩
    · exact ⟨[], [], c.tokens, rfl, hc, .nil, from_statement h⟩
    have shorter : d.tokens.length < c.tokens.length :=
      bound_of_ok (P := fun d => d.tokens.length < c.tokens.length) hs
    obtain ⟨ts, vs, htok, hr, rfl⟩ := statement_eq_ok_iff.1 hs
    have hvs : ((c.past ts).note (.ofStatement ts)).tokens = vs := Cursor.tokens_past htok
    rcases bind_eq_error.1 h with h | ⟨_, _, _, h⟩
    · obtain ⟨tss, ss, us, htok', hne, hall, hf⟩ := ih _ shorter h rfl
      refine ⟨ts :: tss, s :: ss, us, ?_, hne, .cons hr hall, hf⟩
      rw [htok, ← hvs, htok', List.flatten_cons, List.append_assoc]
    · cases h

/-- Reading a body fails behind complete statements. Some tokens are left of the one that fails,
unless there is none at all. -/
theorem body_eq_error (h : of (body b c) = .error f) :
    ∃ tss ss us, c.tokens = tss.flatten ++ us ∧ (us = [] → tss = []) ∧
      List.Forall₂ (ReadsStatement b) tss ss ∧ f.From (c.pastAll tss) := by
  cases hc : c.tokens with
  | nil =>
    rw [body_nil hc] at h
    cases h
    exact ⟨[], [], [], rfl, fun _ => rfl, .nil, .of_nil hc⟩
  | cons t rest =>
    rw [body_cons hc] at h
    obtain ⟨tss, ss, us, htok, hne, hall, hf⟩ := bodyTail_eq_error h
    exact ⟨tss, ss, us, hc ▸ htok, fun h => absurd h hne, hall, hf⟩

end Grammar

open Grammar in
/-- An error is about a token of the text, or about the end of the last one. -/
theorem Program.pointsInto_of_parse_eq_error {b : Builder} {text : String} {e : ParseError}
    (h : Program.parse b text = .error e) : e.PointsInto (tokenize text) := by
  obtain ⟨f, hf, rfl⟩ := Program.parse_eq_error_iff.1 h
  obtain ⟨tss, ss, us, htok, -, -, hfrom⟩ := body_eq_error hf
  have htext : tokenize text = tss.flatten ++ us := htok
  have hus := Cursor.tokens_pastAll htok
  cases hfrom with
  | token hleft _ he | taken hleft _ he =>
    refine .inl ⟨_, ?_, he⟩
    rw [htext, ← hus, hleft]
    simp
  | ended _ =>
    refine .inr (congrArg ParseError.unexpectedEnd ?_)
    rw [hus, Cursor.lastEnd_past_eq, Cursor.lastEnd_pastAll, ← Cursor.lastEnd_past_eq,
      ← Cursor.past_append, ← htext, Cursor.lastEnd_past_eq]
    rfl

end Reckoner
