import Reckoner.Proofs.Derivation

/-!
# What reading a program derives

`ReadsStatement b ts s`: the tokens `ts` are a statement, of which `b` makes `s`. A text is a
program if its tokens fall into statements, at least one. `parse_eq_ok_iff` says that these are the
texts that are read, and `body_eq_ok_iff` also says where the cursor comes to stand.
-/

namespace Reckoner

/-- What is noted of a statement with the tokens `ts`. -/
def Event.ofStatement (ts : List Token) : Event :=
  if ts.length = 1 then .emptyStatement (.hull ts) else .expressionStatement (.hull ts)

/-- The cursor behind the statements with the tokens `tss`, which come next. -/
def Cursor.pastAll (c : Cursor) : List (List Token) → Cursor
  | [] => c
  | ts :: tss => ((c.past ts).note (.ofStatement ts)).pastAll tss

namespace Grammar
open Outcome

/-- The tokens `ts` are a statement, of which `b` makes `s`. -/
inductive ReadsStatement (b : Builder) : List Token → Statement → Prop
  | empty {t : Token} (h : t.kind = .semicolon) : ReadsStatement b [t] (b.empty t.span)
  | expression {t : Token} {ts : List Token} {e : Expr} (h : Reads b (some .sum) ts e)
    (ht : t.kind = .semicolon) :
    ReadsStatement b (ts ++ [t]) (b.expression e (.hull (ts ++ [t])))

variable {b : Builder} {q : Option Rank} {c d : Cursor} {t : Token} {ts rest : List Token}
  {e : Expr} {s : Statement} {ss : List Statement} {p : Program}

theorem Reads.kind_ne_semicolon (h : Reads b q ts e) : ∀ t ∈ ts, t.kind ≠ .semicolon := by
  induction h with
  | number h => simp [h]
  | minus hm _ h => simp [hm, h]
  | parens ho _ hc ih =>
    intro t ht
    simp only [List.mem_cons, List.mem_append, List.not_mem_nil, or_false] at ht
    rcases ht with rfl | ht | rfl
    · rw [ho]; decide
    · exact ih t ht
    · rw [hc]; decide
  | single _ _ ih => exact ih
  | chain q _ ho _ ihl ihr =>
    intro t ht
    rcases List.mem_append.1 ht with ht | ht
    · exact ihl t ht
    rcases List.mem_cons.1 ht with rfl | ht
    · rw [ho]; cases q <;> decide
    · exact ihr t ht

theorem ReadsStatement.ne_nil (h : ReadsStatement b ts s) : ts ≠ [] := by
  cases h <;> simp

/-! ### Statements -/

theorem statement_nil (h : c.tokens = []) : of (statement b c) = .error c.ended := by
  rw [statement, Cursor.ahead_nil h]; rfl

theorem statement_semicolon (h : c.tokens = t :: rest) (hk : t.kind = .semicolon) :
    of (statement b c) = .ok (b.empty t.span, (c.past [t]).note (.emptyStatement t.span)) := by
  have h' : c.look.tokens = t :: rest := h
  rw [statement, Cursor.ahead_cons h]
  simp only [bind, Except.bind, if_pos hk]
  refine (of_bind (g := fun s =>
    .ok (b.empty s.1.span, s.2.note (.emptyStatement s.1.span))) fun _ _ => rfl).trans ?_
  rw [Cursor.take_cons _ h', if_pos hk, Cursor.past_look_cons, ok_bind]

theorem statement_other (h : c.tokens = t :: rest) (hk : t.kind ≠ .semicolon) :
    of (statement b c) = (phrase b (some .sum) c).bind fun r =>
      (of (r.2.take .semicolon)).bind fun s =>
        .ok (b.expression r.1 ⟨t.span.start, s.1.span.stop⟩,
          s.2.note (.expressionStatement ⟨t.span.start, s.1.span.stop⟩)) := by
  rw [← phrase_look (some .sum), statement, Cursor.ahead_cons h]
  simp only [bind, Except.bind, if_neg hk]
  show _ = (of (additive b c.look)).bind _
  rw [← expression]
  exact of_bind fun _ _ => of_bind fun _ _ => rfl

theorem statement_look : of (statement b c.look) = of (statement b c) := by
  by_cases h : c.tokens = []
  · rw [statement_nil h, statement_nil (c := c.look) h, Cursor.ended_look]
  obtain ⟨t, rest, h⟩ := List.exists_cons_of_ne_nil h
  have h' : c.look.tokens = t :: rest := h
  by_cases hk : t.kind = .semicolon
  · rw [statement_semicolon h hk, statement_semicolon h' hk, Cursor.past_look_cons]
  · rw [statement_other h hk, statement_other h' hk, phrase_look]

theorem ReadsStatement.statement_eq (h : ReadsStatement b ts s) (hc : c.tokens = ts ++ rest) :
    of (statement b c) = .ok (s, (c.past ts).note (.ofStatement ts)) := by
  cases h with
  | empty hk => rw [statement_semicolon hc hk]; rfl
  | @expression t ts e h ht =>
    have hc' : c.tokens = ts ++ t :: rest := by simp [hc]
    have hd : (c.past ts).look.tokens = t :: rest := Cursor.tokens_past hc'
    have he : phrase b (some .sum) c = .ok (e, (c.past ts).look) :=
      h.reaches.phrase_eq hc' ⟨t, rest, rfl, by simp [ht], by simp [ht]⟩
    obtain ⟨t₀, ts, rfl⟩ := List.exists_cons_of_ne_nil h.ne_nil
    have hhull : (⟨t₀.span.start, t.span.stop⟩ : Span) = .hull ((t₀ :: ts) ++ [t]) := by
      simp only [Span.hull, List.cons_append, List.head?_cons, Option.map_some, Option.getD_some]
      rw [← List.cons_append, List.getLast?_concat]
      rfl
    have hlen : ((t₀ :: ts) ++ [t]).length ≠ 1 := by simp
    rw [statement_other hc' (h.kind_ne_semicolon t₀ List.mem_cons_self), he, ok_bind,
      Cursor.take_cons _ hd, if_pos ht, ok_bind, Cursor.past_look_cons, ← Cursor.past_append]
    simp only [hhull, Event.ofStatement, if_neg hlen]

theorem readsStatement_of_statement_eq_ok (h : of (statement b c) = .ok (s, d)) :
    ∃ ts rest, c.tokens = ts ++ rest ∧ ReadsStatement b ts s ∧
      d = (c.past ts).note (.ofStatement ts) := by
  by_cases hc : c.tokens = []
  · rw [statement_nil hc] at h; cases h
  obtain ⟨t, rest, hc⟩ := List.exists_cons_of_ne_nil hc
  by_cases hk : t.kind = .semicolon
  · rw [statement_semicolon hc hk] at h
    cases h
    exact ⟨[t], rest, hc, .empty hk, rfl⟩
  have h' := h
  rw [statement_other hc hk, bind_eq_ok] at h'
  obtain ⟨e, d₁, he, h'⟩ := h'
  obtain ⟨u, d₂, hu, -⟩ := bind_eq_ok.1 h'
  obtain ⟨ts, us, htok, hr, ⟨u', us, rfl, -⟩, rfl⟩ := phrase_eq_ok_iff.1 he
  have hd₁ : (c.past ts).look.tokens = u' :: us := Cursor.tokens_past htok
  have hu' : of (Cursor.take .semicolon (c.past ts).look) = .ok (u, d₂) := hu
  rw [Cursor.take_cons _ hd₁] at hu'
  split at hu'
  · next hk' =>
    have hs : ReadsStatement b (ts ++ [u']) _ := .expression hr hk'
    have htok' : c.tokens = (ts ++ [u']) ++ us := by simp [htok]
    rw [hs.statement_eq htok'] at h
    cases h
    exact ⟨_, us, htok', hs, rfl⟩
  · cases hu'

theorem statement_eq_ok_iff : of (statement b c) = .ok (s, d) ↔ ∃ ts rest, c.tokens = ts ++ rest ∧
    ReadsStatement b ts s ∧ d = (c.past ts).note (.ofStatement ts) :=
  ⟨readsStatement_of_statement_eq_ok, fun ⟨_, _, hc, h, hd⟩ => hd ▸ h.statement_eq hc⟩

/-! ### Bodies -/

theorem bodyTail_nil (h : c.tokens = []) : of (bodyTail b c) = .ok ([], c.look) := by
  rw [bodyTail, if_pos (by simp [h])]; rfl

theorem bodyTail_cons (h : c.tokens = t :: rest) :
    of (bodyTail b c) = (of (statement b c)).bind fun r =>
      (of (bodyTail b r.2)).bind fun s => .ok (r.1 :: s.1, s.2) := by
  rw [← statement_look, bodyTail, if_neg (by simp [h])]
  exact of_bind fun _ _ => of_bind fun _ _ => rfl

theorem bodyTail_eq (tss : List (List Token)) (h : List.Forall₂ (ReadsStatement b) tss ss)
    (hc : c.tokens = tss.flatten) : of (bodyTail b c) = .ok (ss, (c.pastAll tss).look) := by
  induction h generalizing c with
  | nil => exact bodyTail_nil hc
  | @cons ts s tss ss hs _ ih =>
    have hc' : c.tokens = ts ++ tss.flatten := hc
    have hd : ((c.past ts).note (.ofStatement ts)).tokens = tss.flatten := Cursor.tokens_past hc'
    obtain ⟨t, us, rfl⟩ := List.exists_cons_of_ne_nil hs.ne_nil
    rw [bodyTail_cons hc', hs.statement_eq hc', ok_bind, ih hd, ok_bind]
    rfl

theorem readsStatement_of_bodyTail_eq_ok (h : of (bodyTail b c) = .ok (ss, d)) :
    ∃ tss, c.tokens = tss.flatten ∧ List.Forall₂ (ReadsStatement b) tss ss ∧
      d = (c.pastAll tss).look := by
  induction ss generalizing c with
  | nil =>
    by_cases hc : c.tokens = []
    · rw [bodyTail_nil hc] at h
      cases h
      exact ⟨[], hc, .nil, rfl⟩
    obtain ⟨t, rest, hc⟩ := List.exists_cons_of_ne_nil hc
    rw [bodyTail_cons hc, bind_eq_ok] at h
    obtain ⟨_, _, -, h⟩ := h
    obtain ⟨_, _, -, h⟩ := bind_eq_ok.1 h
    cases h
  | cons s ss ih =>
    by_cases hc : c.tokens = []
    · rw [bodyTail_nil hc] at h; cases h
    obtain ⟨t, rest, hc⟩ := List.exists_cons_of_ne_nil hc
    rw [bodyTail_cons hc, bind_eq_ok] at h
    obtain ⟨s', d₁, hs, h⟩ := h
    obtain ⟨ss', d₂, hss, h⟩ := bind_eq_ok.1 h
    cases h
    obtain ⟨ts, us, htok, hr, rfl⟩ := statement_eq_ok_iff.1 hs
    have hd : ((c.past ts).note (.ofStatement ts)).tokens = us := Cursor.tokens_past htok
    obtain ⟨tss, htok', hall, rfl⟩ := ih hss
    refine ⟨ts :: tss, ?_, .cons hr hall, rfl⟩
    rw [htok, ← hd, htok', List.flatten_cons]

theorem bodyTail_eq_ok_iff : of (bodyTail b c) = .ok (ss, d) ↔ ∃ tss, c.tokens = tss.flatten ∧
    List.Forall₂ (ReadsStatement b) tss ss ∧ d = (c.pastAll tss).look :=
  ⟨readsStatement_of_bodyTail_eq_ok, fun ⟨tss, hc, h, hd⟩ => hd ▸ bodyTail_eq tss h hc⟩

theorem body_nil (h : c.tokens = []) : of (body b c) = .error c.ended := by
  have hb : of (body b c) = (of (statement b c)).bind fun r =>
      (of (bodyTail b r.2)).bind fun s => .ok (r.1 :: s.1, s.2) :=
    of_bind fun _ _ => of_bind fun _ _ => rfl
  rw [hb, statement_nil h, error_bind]

/-- Where there is a token, a body differs in nothing from the rest of one. -/
theorem body_cons (h : c.tokens = t :: rest) : of (body b c) = of (bodyTail b c) := by
  rw [bodyTail_cons h]
  exact of_bind fun _ _ => of_bind fun _ _ => rfl

theorem body_eq_ok_iff : of (body b c) = .ok (ss, d) ↔ c.tokens ≠ [] ∧ ∃ tss,
    c.tokens = tss.flatten ∧ List.Forall₂ (ReadsStatement b) tss ss ∧ d = (c.pastAll tss).look := by
  by_cases hc : c.tokens = []
  · rw [body_nil hc]
    exact ⟨fun h => (nomatch h), fun h => absurd hc h.1⟩
  · obtain ⟨t, rest, hc'⟩ := List.exists_cons_of_ne_nil hc
    rw [body_cons hc', bodyTail_eq_ok_iff]
    exact ⟨fun h => ⟨hc, h⟩, fun h => h.2⟩

theorem program_eq : of (program b c) = (of (body b c)).bind fun r =>
    .ok (b.program r.1 (bodySpan r.1), r.2.note (.program r.1.length (bodySpan r.1))) :=
  of_bind fun _ _ => rfl

end Grammar

namespace Program
open Grammar Outcome
variable {b : Builder} {text : String} {p : Program} {e : ParseError}

theorem parse_eq (b : Builder) (text : String) :
    parse b text = ((of (program b (.start (.ofText text)))).map Prod.fst).mapError
      Failure.error := by
  rw [parse, read]
  cases program b (.start (.ofText text)) <;> rfl

theorem parse_eq_error_iff : parse b text = .error e ↔
    ∃ f, of (Grammar.body b (.start (.ofText text))) = .error f ∧ f.error = e := by
  rw [parse_eq, program_eq]
  cases of (Grammar.body b (.start (.ofText text))) with
  | error f => simp [Except.map, Except.mapError]
  | ok r => simp [Except.map, Except.mapError, Except.bind]

theorem parse_eq_ok_iff_body : parse b text = .ok p ↔
    ∃ ss d, of (Grammar.body b (.start (.ofText text))) = .ok (ss, d) ∧
      p = b.program ss (bodySpan ss) := by
  rw [parse_eq, program_eq]
  cases of (Grammar.body b (.start (.ofText text))) with
  | error f => simp [Except.map, Except.mapError]
  | ok r =>
    refine ⟨fun h => ⟨r.1, r.2, rfl, ?_⟩, ?_⟩
    · cases h; rfl
    · rintro ⟨ss, d, h, rfl⟩; cases h; rfl

/-- A text is read as a program exactly if its tokens fall into statements, at least one. -/
theorem parse_eq_ok_iff : parse b text = .ok p ↔ ∃ tss ss, tokenize text = tss.flatten ∧
    tss ≠ [] ∧ List.Forall₂ (ReadsStatement b) tss ss ∧ p = b.program ss (bodySpan ss) := by
  have htok : (Cursor.start (.ofText text)).tokens = tokenize text := rfl
  rw [parse_eq_ok_iff_body]
  constructor
  · rintro ⟨ss, d, h, rfl⟩
    obtain ⟨hne, tss, hflat, hall, -⟩ := body_eq_ok_iff.1 h
    rw [htok] at hne hflat
    refine ⟨tss, ss, hflat, ?_, hall, rfl⟩
    rintro rfl
    exact hne hflat
  · rintro ⟨tss, ss, hflat, hne, hall, rfl⟩
    refine ⟨ss, _, body_eq_ok_iff.2 ⟨?_, tss, hflat, hall, rfl⟩, rfl⟩
    rw [htok, hflat]
    cases hall with
    | nil => exact absurd rfl hne
    | cons hs _ => simp [hs.ne_nil]

end Program
end Reckoner
