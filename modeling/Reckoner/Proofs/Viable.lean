import Reckoner.Proofs.Layout
import Reckoner.Proofs.Passage
import Reckoner.Proofs.Verdict

/-!
# The first token that cannot be right

What has been read when reading fails is the beginning of some text that can be read: from every
state of the scan there are words that bring it to the end of a statement (`Scan.completion`). With
the token that it fails at there is no such text, since the scan looks at the spelling of tokens and
at nothing else (`Scan.toOption_foldlM_congr`). So the error is at the first token that cannot be
right (`FailsFirst`).
-/

namespace Reckoner
open Text Layout

namespace Token

/-- What the token is and how it is written, wherever it stands. -/
def spelling (t : Token) : Kind × String := (t.kind, t.lexeme)

/-- The spelling, with the semicolon supplied for a text spelled as any other. -/
def form (t : Token) : Kind × String := (t.kind, if t.kind = .semicolon then ";" else t.lexeme)

theorem form_eq_of_spelling_eq {t u : Token} (h : t.spelling = u.spelling) : t.form = u.form := by
  obtain ⟨hk, hl⟩ := Prod.mk.inj h
  rw [form, form, hk, hl]

theorem map_form_of_map_spelling {ts us : List Token} (h : ts.map spelling = us.map spelling) :
    ts.map form = us.map form := by
  rw [← List.forall₂_eq_eq_eq, List.forall₂_map_left_iff, List.forall₂_map_right_iff] at h ⊢
  exact h.imp fun _ _ => form_eq_of_spelling_eq

end Token

/-! ### The scan looks at spellings only -/

def ParseError.withSpan (s : Span) : ParseError → ParseError
  | unexpectedToken found expected _ => unexpectedToken found expected s
  | unexpectedLiteral found _ => unexpectedLiteral found s
  | unexpectedEnd n => unexpectedEnd n

namespace Scan
variable {b : Builder} {s s' : Scan} {t u : Token} {ts us : List Token}

/-- A step over a token of the same form is the same, or stops with the same error there. -/
theorem step_congr (h : t.form = u.form) (s : Scan) :
    s.step u = (s.step t).mapError (ParseError.withSpan u.span) := by
  obtain ⟨k, l, sp⟩ := t
  obtain ⟨k', l', sp'⟩ := u
  obtain ⟨rfl, hl⟩ := Prod.mk.inj h
  obtain ⟨mode, n⟩ := s
  have operand : operandStep n ⟨k, l', sp'⟩ =
      (operandStep n ⟨k, l, sp⟩).mapError (ParseError.withSpan sp') := by
    cases k with
    | additive =>
      obtain rfl : l = l' := hl
      by_cases hm : l = "-" <;> simp [operandStep, hm, Except.mapError, ParseError.withSpan]
    | _ => rfl
  cases mode with
  | statementStart =>
    by_cases hk : k = .semicolon
    · subst hk
      rfl
    · rw [step_statementStart (t := ⟨k, l, sp⟩) hk, step_statementStart (t := ⟨k, l', sp'⟩) hk]
      exact operand
  | operand => exact operand
  | afterMinus => cases k <;> rfl
  | operator => cases k <;> cases n <;> rfl

theorem toOption_foldlM_congr (h : ts.map Token.form = us.map Token.form) (s : Scan) :
    (ts.foldlM step s).toOption = (us.foldlM step s).toOption := by
  induction ts generalizing us s with
  | nil =>
    obtain rfl : us = [] := List.map_eq_nil_iff.1 h.symm
    rfl
  | cons t ts ih =>
    obtain ⟨u, us, rfl, hu, hus⟩ := List.map_eq_cons_iff.1 h.symm
    rw [List.foldlM_cons, List.foldlM_cons, step_congr hu.symm]
    cases s.step t with
    | error e => rfl
    | ok s' => exact ih hus.symm s'

theorem foldlM_congr (h : ts.map Token.form = us.map Token.form) (hts : ts.foldlM step s = .ok s') :
    us.foldlM step s = .ok s' := by
  have hcongr := toOption_foldlM_congr h s
  rw [hts] at hcongr
  cases hus : us.foldlM step s with
  | error e => rw [hus] at hcongr; cases hcongr
  | ok s'' => rw [hus] at hcongr; cases hcongr; rfl

theorem verdict_congr (h : ts.map Token.form = us.map Token.form) (hts : verdict ts = .ok ()) :
    verdict us = .ok () := by
  obtain ⟨s, hs, hmode, hne⟩ := verdict_eq_ok_iff.1 hts
  refine verdict_eq_ok_iff.2 ⟨s, foldlM_congr h hs, hmode, ?_⟩
  rintro rfl
  exact hne (List.map_eq_nil_iff.1 h)

/-! ### Going on from a state -/

/-- What closes the parentheses that are open, and then the statement. -/
def closings (n : Nat) : List Token :=
  List.replicate n ⟨.closing, ")", .nowhere⟩ ++ [⟨.semicolon, ";", .nowhere⟩]

/-- What brings the scan to the end of a statement. -/
def completion (s : Scan) : List Token :=
  match s.mode with
  | .statementStart => [⟨.semicolon, ";", .nowhere⟩]
  | .operand | .afterMinus => ⟨.number, "0", .nowhere⟩ :: closings s.depth
  | .operator => closings s.depth

theorem foldlM_closings (n : Nat) : (closings n).foldlM step ⟨.operator, n⟩ = .ok start := by
  induction n with
  | zero => rfl
  | succ n ih => exact ih

theorem foldlM_completion (s : Scan) : ∃ s', s.completion.foldlM step s = .ok s' := by
  obtain ⟨mode, n⟩ := s
  cases mode with
  | statementStart => exact ⟨⟨.statementStart, n⟩, rfl⟩
  | operand | afterMinus | operator => exact ⟨start, foldlM_closings n⟩

theorem spells_completion (s : Scan) : ∀ t ∈ s.completion, t.kind.Spells t.lexeme.toList := by
  have semicolon : Kind.Spells .semicolon ";".toList := rfl
  have closed : ∀ t ∈ closings s.depth, t.kind.Spells t.lexeme.toList := by
    intro t ht
    rcases List.mem_append.1 ht with ht | ht
    · rw [List.eq_of_mem_replicate ht]
      rfl
    · rw [List.mem_singleton.1 ht]
      exact semicolon
  unfold completion
  split
  · exact List.forall_mem_singleton.2 semicolon
  · exact List.forall_mem_cons.2 ⟨by simp [Kind.Spells], closed⟩
  · exact List.forall_mem_cons.2 ⟨by simp [Kind.Spells], closed⟩
  · exact closed

theorem getLast?_completion (s : Scan) :
    s.completion.getLast? = some ⟨.semicolon, ";", .nowhere⟩ := by
  have closed : (closings s.depth).getLast? = some ⟨.semicolon, ";", .nowhere⟩ :=
    List.getLast?_concat
  unfold completion
  split
  · rfl
  · rw [List.getLast?_cons, closed]; rfl
  · rw [List.getLast?_cons, closed]; rfl
  · exact closed

end Scan

/-! ### Texts with given tokens -/

/-- With a blank before each of them, words of any kinds can stand next to each other. -/
theorem exists_spaced_of_spells {ts : List Token} (h : ∀ t ∈ ts, t.kind.Spells t.lexeme.toList) :
    ∃ ws, Spaced ws [] ∧ (∀ c ∈ (write [] ws).head?, c = ' ') ∧
      ws.map (·.2.kind) = ts.map Token.kind ∧
      ∀ n, (placed n ws).map Token.spelling = ts.map Token.spelling := by
  induction ts with
  | nil => exact ⟨[], spaced_nil.2 (.gap .nil), by simp [write], rfl, fun _ => rfl⟩
  | cons t ts ih =>
    obtain ⟨ht, hts⟩ := List.forall_mem_cons.1 h
    obtain ⟨ws, hws, hblank, hkind, hspelling⟩ := ih hts
    have hgap : Gap [' '] := .blank (by decide) .nil
    have hends : Piece.Ends t.kind t.lexeme.toList (write [] ws) := fun c hc => by
      rw [hblank c hc]
      exact ⟨fun _ => by decide, fun _ => by decide⟩
    refine ⟨([' '], ⟨t.kind, t.lexeme.toList, ht⟩) :: ws, spaced_cons.2 ⟨hgap, hends, hws⟩,
      fun c hc => by cases hc; rfl, ?_, fun n => ?_⟩
    · rw [List.map_cons, List.map_cons, hkind]
    · rw [placed, List.map_cons, List.map_cons, hspelling]
      simp [Word.token, Token.spelling]

/-- What is spelled as tokens are, and ends with a semicolon, is what some text is read as. -/
theorem exists_tokenize_eq {ts : List Token} {t : Token}
    (h : ∀ t ∈ ts, t.kind.Spells t.lexeme.toList) (ht : ts.getLast? = some t)
    (hk : t.kind = .semicolon) :
    ∃ text, (tokenize text).map Token.spelling = ts.map Token.spelling := by
  obtain ⟨ws, hws, -, hkind, hspelling⟩ := exists_spaced_of_spells h
  have hlast : ws.getLast?.map (·.2.kind) = some .semicolon := by
    rw [← List.getLast?_map, hkind, List.getLast?_map, ht, Option.map_some, hk]
  have hclosed : (ws.getLast?.map (·.2.kind == .semicolon)).getD false = true := by
    cases hw : ws.getLast? with
    | none => rw [hw] at hlast; cases hlast
    | some w =>
      rw [hw] at hlast
      exact beq_iff_eq.2 (Option.some.inj hlast)
  refine ⟨String.ofList (write [] ws), ?_⟩
  have htext : (Reader.start (String.ofList (write [] ws))).text = write [] ws :=
    String.toList_ofList
  have hdrain := hws.drain_eq rfl htext
  rw [show (Reader.start _).closed = false from rfl, if_pos ⟨hclosed, rfl⟩, List.append_nil] at hdrain
  exact (congrArg _ hdrain).trans (hspelling 0)

/-! ### Viable beginnings -/

/-- Some text that can be read begins with the tokens, as they are spelled. -/
def Viable (b : Builder) (ts : List Token) : Prop :=
  ∃ text p, Program.parse b text = .ok p ∧
    ts.map Token.spelling <+: (tokenize text).map Token.spelling

/-- Reading the text fails at the first token that cannot be right, or else where more has to come. -/
inductive FailsFirst (b : Builder) (text : String) : ParseError → Prop
  | token {e : ParseError} {before after : List Token} {t : Token}
    (htok : tokenize text = before ++ t :: after) (he : e.Names t) (hviable : Viable b before)
    (hdead : ∀ s, (before ++ [t]).map Token.form <+: (tokenize s).map Token.form →
      ∀ p, Program.parse b s ≠ .ok p) : FailsFirst b text e
  | ending {n : Nat} (hviable : Viable b (tokenize text)) : FailsFirst b text (.unexpectedEnd n)

section
variable {b : Builder} {text : String} {e : ParseError} {t : Token} {ts us : List Token} {s : Scan}

/-- Where the scan has not stopped, something can still come of it. -/
theorem viable_of_foldlM (b : Builder) (h : ∀ t ∈ ts, t.kind.Spells t.lexeme.toList)
    (hs : ts.foldlM Scan.step Scan.start = .ok s) : Viable b ts := by
  have hspells := List.forall_mem_append.2 ⟨h, s.spells_completion⟩
  have hlast : (ts ++ s.completion).getLast? = some ⟨.semicolon, ";", .nowhere⟩ := by
    rw [List.getLast?_append, s.getLast?_completion]
    rfl
  obtain ⟨s', hs'⟩ := s.foldlM_completion
  have hall : (ts ++ s.completion).foldlM Scan.step Scan.start = .ok s' := by
    rw [List.foldlM_append, hs]
    exact hs'
  have hverdict : Scan.verdict (ts ++ s.completion) = .ok () := by
    rw [Scan.verdict_of_foldlM hall hlast, if_pos rfl]
  obtain ⟨text, htext⟩ := exists_tokenize_eq hspells hlast rfl
  obtain ⟨p, hp⟩ := Scan.exists_parse_eq_ok_iff.2
    (Scan.verdict_congr (Token.map_form_of_map_spelling htext.symm) hverdict)
  exact ⟨text, p, hp, by rw [htext, List.map_append]; exact List.prefix_append _ _⟩

/-- Where the scan stops, nothing can come of it. -/
theorem parse_ne_ok_of_prefix (h : us.foldlM Scan.step Scan.start = .error e)
    (hpre : us.map Token.form <+: (tokenize text).map Token.form) (p : Program) :
    Program.parse b text ≠ .ok p := by
  intro hp
  obtain ⟨rest, hrest⟩ := hpre
  obtain ⟨vs, ws, htok, hvs, -⟩ := List.map_eq_append_iff.1 hrest.symm
  have hcongr := Scan.toOption_foldlM_congr hvs Scan.start
  rw [h] at hcongr
  cases hf : vs.foldlM Scan.step Scan.start with
  | ok s => rw [hf] at hcongr; cases hcongr
  | error e' =>
    have hverdict := Scan.verdict_of_parse_eq_ok hp
    rw [htok, Scan.verdict_append_of_error hf] at hverdict
    cases hverdict

theorem spells_of_tokenize_eq (h : tokenize text = ts ++ t :: us) :
    ∀ u ∈ ts, u.kind.Spells u.lexeme.toList := by
  have hdrain : (Reader.start text).drain.1 = ts ++ t :: us := h
  obtain ⟨r₁, -, hpass, -⟩ := Reader.exists_before rfl hdrain
  exact hpass.spells

theorem spells_of_mem_tokenize (h : ∀ t ∈ (tokenize text).getLast?, t.kind ≠ .semicolon) :
    ∀ t ∈ tokenize text, t.kind.Spells t.lexeme.toList := by
  rcases (tokenize text).eq_nil_or_concat' with hnil | ⟨ts, t, hts⟩
  · rw [hnil]
    exact fun _ ht => absurd ht List.not_mem_nil
  · have hk : t.kind ≠ .semicolon := h t (by rw [hts, List.getLast?_concat]; rfl)
    have ht : t ∈ tokenize text := by rw [hts]; simp
    rw [hts]
    exact List.forall_mem_append.2 ⟨spells_of_tokenize_eq hts,
      List.forall_mem_singleton.2 ((standsIn_of_mem_tokenize ht).spells hk)⟩

/-- An error is at the first token that cannot be right, and a text that ends too early can go on. -/
theorem failsFirst_of_parse (h : Program.parse b text = .error e) : FailsFirst b text e := by
  have hverdict := Scan.verdict_of_parse_eq_error h
  cases hs : (tokenize text).foldlM Scan.step Scan.start with
  | error e' =>
    rw [Scan.verdict_of_error hs] at hverdict
    cases hverdict
    obtain ⟨before, t, after, s, htok, hbefore, hstep⟩ := Scan.exists_step_eq_error hs
    have hstop : (before ++ [t]).foldlM Scan.step Scan.start = .error e := by
      rw [Scan.foldlM_concat, hbefore]
      exact hstep
    exact .token htok (Scan.names_of_step hstep)
      (viable_of_foldlM b (spells_of_tokenize_eq htok) hbefore)
      fun s hpre p => parse_ne_ok_of_prefix hstop hpre p
  | ok s =>
    obtain ⟨n, rfl⟩ := Scan.exists_eq_unexpectedEnd hs hverdict
    -- No semicolon comes last, so none has been supplied: the text is cut, or it has no tokens.
    have hlast : ∀ t ∈ (tokenize text).getLast?, t.kind ≠ .semicolon := by
      intro t ht hk
      rw [Scan.verdict_of_foldlM hs ht, if_pos hk] at hverdict
      cases hverdict
    exact .ending (viable_of_foldlM b (spells_of_mem_tokenize hlast) hs)

/-- A sign behind a sign, two parentheses deep. -/
theorem failsFirst_signs : Program.parse .located "1;(2*(-3*--4" =
      .error (.unexpectedLiteral .additive ⟨10, 11⟩) ∧
    FailsFirst .located "1;(2*(-3*--4" (.unexpectedLiteral .additive ⟨10, 11⟩) := by
  have h : Program.parse .located "1;(2*(-3*--4" =
      .error (.unexpectedLiteral .additive ⟨10, 11⟩) := by
    rw [Scan.parse_eq_error_iff]
    decide +kernel
  exact ⟨h, failsFirst_of_parse h⟩

end

end Reckoner
