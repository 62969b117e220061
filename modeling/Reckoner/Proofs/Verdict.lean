import Reckoner.Proofs.Failure
import Reckoner.Proofs.Scan
import Reckoner.Run

/-!
# From the verdict to the outcome

What a text comes to depends on its tokens only (`parse_congr`), and whether it can be read on the
verdict of the scan. A scan that stops names the token that it stops at (`names_of_step`), and it has
come to the end of a statement just if a semicolon came last (`mode_of_foldlM`).
-/

namespace Reckoner

theorem ParseError.Names.span_eq {e : ParseError} {t : Token} (h : e.Names t) :
    e.span = t.span := by
  cases e with
  | unexpectedToken | unexpectedLiteral => exact h.2
  | unexpectedEnd => exact h.elim

namespace Scan
open Grammar Outcome
variable {b : Builder} {text : String} {p : Program} {e : ParseError} {s s' : Scan} {t : Token}
  {ts us : List Token} {last : Nat}

/-! ### The verdict on a text -/

theorem verdict_of_parse_eq_ok (h : Program.parse b text = .ok p) :
    verdict (tokenize text) = .ok () := by
  obtain ⟨tss, ss, hflat, hne, hall, -⟩ := Program.parse_eq_ok_iff.1 h
  cases hall with
  | nil => exact absurd rfl hne
  | cons hs hall =>
    rw [hflat, verdict_eq (by simp [hs.ne_nil])]
    exact verdictFrom_flatten (.cons hs hall)

theorem verdict_of_parse_eq_error (h : Program.parse b text = .error e) :
    verdict (tokenize text) = .error e := by
  obtain ⟨f, hf, rfl⟩ := Program.parse_eq_error_iff.1 h
  cases htok : tokenize text with
  | nil =>
    rw [body_nil htok] at hf
    cases hf
    rfl
  | cons t rest =>
    rw [body_cons htok] at hf
    rw [← htok, verdict_eq (by simp [htok])]
    exact verdictFrom_bodyTail hf

theorem parse_eq_error_iff : Program.parse b text = .error e ↔ verdict (tokenize text) = .error e := by
  refine ⟨verdict_of_parse_eq_error, fun h => ?_⟩
  cases hp : Program.parse b text with
  | ok p => rw [verdict_of_parse_eq_ok hp] at h; cases h
  | error e' => rw [verdict_of_parse_eq_error hp] at h; rw [Except.error.inj h]

theorem exists_parse_eq_ok_iff :
    (∃ p, Program.parse b text = .ok p) ↔ verdict (tokenize text) = .ok () := by
  refine ⟨fun ⟨_, h⟩ => verdict_of_parse_eq_ok h, fun h => ?_⟩
  cases hp : Program.parse b text with
  | ok p => exact ⟨p, rfl⟩
  | error e => rw [verdict_of_parse_eq_error hp] at h; cases h

/-- Where the last token ended matters only if no other comes. -/
theorem verdictFrom_of_ne_nil (h : ts ≠ []) (last last' : Nat) :
    verdictFrom s last ts = verdictFrom s last' ts := by
  obtain ⟨t, ts, rfl⟩ := List.exists_cons_of_ne_nil h
  rw [verdictFrom_cons, verdictFrom_cons]

theorem verdictFrom_flatten_append {tss : List (List Token)} {ss : List Statement}
    (h : List.Forall₂ (ReadsStatement b) tss ss) (hne : us ≠ []) (last last' : Nat) :
    verdictFrom start last (tss.flatten ++ us) = verdictFrom start last' us := by
  induction h generalizing last with
  | nil => exact verdictFrom_of_ne_nil hne last last'
  | cons hs _ ih => rw [List.flatten_cons, List.append_assoc, verdictFrom_readsStatement hs, ih]

/-! ### Steps -/

theorem operandStep_cases (n : Nat) (t : Token) :
    (∃ s', operandStep n t = .ok s' ∧ s'.mode ≠ .statementStart ∧ t.kind ≠ .semicolon) ∨
      ∃ e, operandStep n t = .error e ∧ e.Names t := by
  unfold operandStep
  split
  · next hk => exact .inl ⟨_, rfl, by simp, by simp [hk]⟩
  · next hk => exact .inl ⟨_, rfl, by simp, by simp [hk]⟩
  · next hk =>
    split
    · exact .inl ⟨_, rfl, by simp, by simp [hk]⟩
    · exact .inr ⟨_, rfl, hk.symm, rfl⟩
  · exact .inr ⟨_, rfl, rfl, rfl⟩

/-- A step stops and names its token, or goes on: to the start of a statement over a semicolon, and
to somewhere within one over anything else. -/
theorem step_cases (s : Scan) (t : Token) :
    (∃ s', s.step t = .ok s' ∧ (s'.mode = .statementStart ↔ t.kind = .semicolon)) ∨
      ∃ e, s.step t = .error e ∧ e.Names t := by
  obtain ⟨mode, n⟩ := s
  have operand : (∃ s', operandStep n t = .ok s' ∧
      (s'.mode = .statementStart ↔ t.kind = .semicolon)) ∨
      ∃ e, operandStep n t = .error e ∧ e.Names t :=
    (operandStep_cases n t).imp_left fun ⟨s', h, hm, hk⟩ => ⟨s', h, by simp [hm, hk]⟩
  cases mode with
  | statementStart =>
    by_cases hk : t.kind = .semicolon
    · exact .inl ⟨⟨.statementStart, n⟩, by simp [step, hk], by simp [hk]⟩
    · rw [step_statementStart hk]
      exact operand
  | operand => exact operand
  | afterMinus =>
    by_cases hk : t.kind = .number
    · exact .inl ⟨⟨.operator, n⟩, by simp [step, hk], by simp [hk]⟩
    · exact .inr ⟨.unexpectedLiteral t.kind t.span, by simp [step, hk], rfl, rfl⟩
  | operator =>
    dsimp only [step]
    unfold operatorStep
    split
    · next hk => exact .inl ⟨_, rfl, by simp [hk]⟩
    · next hk => exact .inl ⟨_, rfl, by simp [hk]⟩
    · next hk => exact .inl ⟨_, rfl, by simp [hk]⟩
    · next hk => exact .inl ⟨_, rfl, by simp [hk]⟩
    · exact .inr ⟨_, rfl, rfl, rfl⟩

theorem names_of_step (h : s.step t = .error e) : e.Names t := by
  rcases step_cases s t with ⟨s', hs, -⟩ | ⟨e', he, hnames⟩
  · rw [hs] at h; cases h
  · rw [he] at h; cases h; exact hnames

theorem mode_of_step (h : s.step t = .ok s') : s'.mode = .statementStart ↔ t.kind = .semicolon := by
  rcases step_cases s t with ⟨s'', hs, hmode⟩ | ⟨e, he, -⟩
  · rw [hs] at h; cases h; exact hmode
  · rw [he] at h; cases h

/-! ### Runs of steps -/

theorem foldlM_concat (s : Scan) (ts : List Token) (t : Token) :
    (ts ++ [t]).foldlM step s = (ts.foldlM step s).bind (·.step t) := by
  rw [List.foldlM_append]
  exact bind_congr fun s' => bind_pure (s'.step t)

/-- Where a scan stops, it stops at some token. -/
theorem exists_step_eq_error (h : ts.foldlM step s = .error e) :
    ∃ us t vs s', ts = us ++ t :: vs ∧ us.foldlM step s = .ok s' ∧ s'.step t = .error e := by
  induction ts generalizing s with
  | nil => cases h
  | cons t ts ih =>
    rw [List.foldlM_cons] at h
    cases ht : s.step t with
    | error e' =>
      rw [ht] at h
      cases h
      exact ⟨[], t, ts, s, rfl, rfl, ht⟩
    | ok s₁ =>
      rw [ht] at h
      obtain ⟨us, u, vs, s', rfl, hus, hu⟩ := ih h
      refine ⟨t :: us, u, vs, s', rfl, ?_, hu⟩
      rw [List.foldlM_cons, ht]
      exact hus

theorem exists_names_of_foldlM (h : ts.foldlM step s = .error e) : ∃ t ∈ ts, e.Names t := by
  obtain ⟨us, t, vs, s', rfl, -, ht⟩ := exists_step_eq_error h
  exact ⟨t, by simp, names_of_step ht⟩

theorem mode_of_foldlM (h : ts.foldlM step s = .ok s') (ht : ts.getLast? = some t) :
    s'.mode = .statementStart ↔ t.kind = .semicolon := by
  obtain ⟨us, rfl⟩ := List.getLast?_eq_some_iff.1 ht
  rw [foldlM_concat] at h
  cases hs : us.foldlM step s with
  | error e => rw [hs] at h; cases h
  | ok s₁ =>
    rw [hs] at h
    exact mode_of_step h

theorem verdict_of_error (h : ts.foldlM step start = .error e) : verdict ts = .error e := by
  rw [verdict, h]
  rfl

theorem verdict_of_ok (h : ts.foldlM step start = .ok s) : verdict ts =
    if s.mode = .statementStart ∧ ts ≠ [] then .ok ()
    else .error (.unexpectedEnd (Span.hull ts).stop) := by
  rw [verdict, h]
  rfl

theorem verdict_append_of_error (h : ts.foldlM step start = .error e) (us : List Token) :
    verdict (ts ++ us) = .error e :=
  verdict_of_error (by rw [List.foldlM_append, h]; rfl)

theorem verdict_eq_ok_iff : verdict ts = .ok () ↔
    ∃ s, ts.foldlM step start = .ok s ∧ s.mode = .statementStart ∧ ts ≠ [] := by
  cases h : ts.foldlM step start with
  | error e => rw [verdict_of_error h]; simp
  | ok s =>
    rw [verdict_of_ok h]
    split
    · next hc => simpa using hc
    · next hc => simpa using hc

/-- A scan that does not stop fails only where no semicolon ends the tokens. -/
theorem verdict_of_foldlM (h : ts.foldlM step start = .ok s) (ht : ts.getLast? = some t) :
    verdict ts = if t.kind = .semicolon then .ok () else .error (.unexpectedEnd t.span.stop) := by
  have hne : ts ≠ [] := by rintro rfl; cases ht
  have hstop : (Span.hull ts).stop = t.span.stop := by rw [Span.hull, ht]; rfl
  rw [verdict_of_ok h, hstop]
  exact if_congr (by rw [mode_of_foldlM h ht]; simp [hne]) rfl rfl

theorem exists_eq_unexpectedEnd (h : ts.foldlM step start = .ok s) (he : verdict ts = .error e) :
    ∃ n, e = .unexpectedEnd n := by
  rw [verdict_of_ok h] at he
  split at he
  · cases he
  · cases he
    exact ⟨_, rfl⟩

theorem verdict_concat (ts : List Token) (hk : t.kind = .semicolon) : verdict (ts ++ [t]) =
    (ts.foldlM step start).bind fun s => (s.step t).map fun _ => () := by
  cases hs : ts.foldlM step start with
  | error e => exact verdict_append_of_error hs [t]
  | ok s =>
    have hall : (ts ++ [t]).foldlM step start = s.step t := by rw [foldlM_concat, hs]; rfl
    cases ht : s.step t with
    | error e =>
      rw [verdict_of_error (hall.trans ht), Except.bind, ht]
      rfl
    | ok s' =>
      rw [verdict_of_foldlM (hall.trans ht) List.getLast?_concat, if_pos hk, Except.bind, ht]
      rfl

/-- Tokens that end with a semicolon never end too early. -/
theorem exists_names_of_verdict (ht : ts.getLast? = some t) (hk : t.kind = .semicolon)
    (h : verdict ts = .error e) : ∃ u ∈ ts, e.Names u := by
  cases hs : ts.foldlM step start with
  | error e' =>
    rw [verdict_of_error hs] at h
    cases h
    exact exists_names_of_foldlM hs
  | ok s => rw [verdict_of_foldlM hs ht, if_pos hk] at h; cases h

end Scan

/-! ### Outcomes -/

section
variable {b : Builder} {s text : String} {p : Program} {e : ParseError}

theorem Program.parse_congr (h : tokenize s = tokenize text) : parse b s = parse b text := by
  cases hp : parse b s with
  | ok p =>
    rw [parse_eq_ok_iff, h] at hp
    rw [parse_eq_ok_iff.2 hp]
  | error e =>
    rw [Scan.parse_eq_error_iff, h] at hp
    rw [Scan.parse_eq_error_iff.2 hp]

theorem run_of_parse_eq_ok (h : Program.parse .located text = .ok p) :
    (run text).result = p.eval.mapError .runtime := by
  have hresult : (Program.read .located text).result = .ok p := h
  simp only [run, hresult, Program.result_evalTraced]

theorem run_of_parse_eq_error (h : Program.parse .located text = .error e) :
    (run text).result = .error (.parse e) := by
  have hresult : (Program.read .located text).result = .error e := h
  simp only [run, hresult]

theorem run_eq_parse_error_iff :
    (run text).result = .error (.parse e) ↔ Program.parse .located text = .error e := by
  refine ⟨fun h => ?_, run_of_parse_eq_error⟩
  cases hp : Program.parse .located text with
  | error e' =>
    rw [run_of_parse_eq_error hp] at h
    cases h
    rfl
  | ok p =>
    rw [run_of_parse_eq_ok hp] at h
    cases he : p.eval <;> rw [he] at h <;> cases h

theorem run_eq_ok_iff {rs : List (Option Float)} : (run text).result = .ok rs ↔
    ∃ p, Program.parse .located text = .ok p ∧ p.eval = .ok rs := by
  cases hp : Program.parse .located text with
  | error e => rw [run_of_parse_eq_error hp]; simp
  | ok p =>
    rw [run_of_parse_eq_ok hp]
    cases he : p.eval <;> simp [Except.mapError, he]

theorem run_eq_runtime_error_iff {e : RuntimeError} : (run text).result = .error (.runtime e) ↔
    ∃ p, Program.parse .located text = .ok p ∧ p.eval = .error e := by
  cases hp : Program.parse .located text with
  | error e => rw [run_of_parse_eq_error hp]; simp
  | ok p =>
    rw [run_of_parse_eq_ok hp]
    cases he : p.eval <;> simp [Except.mapError, he]

theorem run_congr (h : Program.parse .located s = Program.parse .located text) :
    (run s).result = (run text).result := by
  cases hp : Program.parse .located text with
  | ok p => rw [run_of_parse_eq_ok hp, run_of_parse_eq_ok (h.trans hp)]
  | error e => rw [run_of_parse_eq_error hp, run_of_parse_eq_error (h.trans hp)]

end

end Reckoner
