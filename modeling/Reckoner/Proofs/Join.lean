import Mathlib.Data.List.ModifyLast
import Reckoner.Proofs.Excerpt

/-!
# Joining texts

Two texts with a semicolon between them are read one after the other: the semicolon takes the place
of the one that was supplied for the first text, and the second is as far to the right as the first
and the semicolon are long (`tokenize_join`). So a result or an error of the joined text is one of the
first text, or else one of the second that is moved (`Joined`).
-/

namespace Reckoner
open Text

/-- The texts with a semicolon between them. -/
def join (a b : String) : String := a ++ ";" ++ b

/-- The texts can be joined: a semicolon is supplied for the first one, and nothing in it takes in
the semicolon that is put in its place. -/
structure Joinable (a b : String) : Prop where
  uncut : ∀ i, ¬ Stray a.toList i
  supplied : ∃ t ∈ (tokenize a).getLast?, t.isSynthetic
  comment : ¬ InComment a.toList (a.length - 1)
  nonempty : b ≠ ""

/-! ### One more character -/

def Span.widen (s : Span) : Span := ⟨s.start, s.stop + 1⟩

/-- The statement with a semicolon that has a character. -/
def Statement.widen : Statement → Statement
  | empty s => empty s.widen
  | expression e s => expression e s.widen

def ParseError.widen : ParseError → ParseError
  | unexpectedToken found expected s => unexpectedToken found expected s.widen
  | unexpectedLiteral found s => unexpectedLiteral found s.widen
  | unexpectedEnd n => unexpectedEnd n

/-- The semicolon at the offset `n`. -/
def Token.semicolon (n : Nat) : Token := ⟨.semicolon, ";", ⟨n, n + 1⟩⟩

theorem Span.hull_semicolon (ts : List Token) (n : Nat) :
    hull (ts ++ [Token.semicolon n]) = (hull (ts ++ [Token.terminator n])).widen := by
  have hstart : (hull (ts ++ [Token.semicolon n])).start =
      (hull (ts ++ [Token.terminator n])).start := by cases ts <;> rfl
  have hstop : (hull (ts ++ [Token.semicolon n])).stop =
      (hull (ts ++ [Token.terminator n])).stop + 1 := by
    rw [stop_hull_concat, stop_hull_concat]
    rfl
  exact congrArg₂ Span.mk hstart hstop

theorem Statement.eval_widen (s : Statement) : s.widen.eval = s.eval := by cases s <;> rfl

theorem Scan.step_semicolon (s : Scan) (n : Nat) :
    s.step (.semicolon n) = (s.step (.terminator n)).mapError ParseError.widen := by
  obtain ⟨mode, depth⟩ := s
  cases mode <;> cases depth <;> rfl

namespace Grammar
variable {ts : List Token} {n : Nat} {s : Statement}

theorem ReadsStatement.widen (h : ReadsStatement .located (ts ++ [.terminator n]) s) :
    ReadsStatement .located (ts ++ [.semicolon n]) s.widen := by
  generalize hts : ts ++ [Token.terminator n] = us at h
  cases h with
  | @empty t hk =>
    have hts : ts ++ [Token.terminator n] = [] ++ [t] := hts
    obtain ⟨rfl, ht⟩ := List.append_inj' hts rfl
    cases ht
    exact ReadsStatement.empty (b := .located) (t := .semicolon n) rfl
  | @expression t us e h hk =>
    obtain ⟨rfl, ht⟩ := List.append_inj' hts rfl
    cases ht
    have h' := ReadsStatement.expression (t := .semicolon n) h rfl
    rw [Span.hull_semicolon] at h'
    exact h'

end Grammar

/-! ### The tokens of joined texts -/

theorem inComment_of_suffix {cs ds : List Char} (h : '/' :: '/' :: ds <:+ cs)
    (hds : ∀ c ∈ ds, ¬ isLineBreak c) : InComment cs (cs.length - 1) := by
  obtain ⟨front, rfl⟩ := h
  have hlen : (front ++ '/' :: '/' :: ds).length = front.length + (ds.length + 2) := by simp
  refine ⟨front.length, by omega, by simp, by simp, fun k hk _ c hc => ?_⟩
  have hmem : c ∈ '/' :: '/' :: ds := by
    rw [Option.mem_def, List.getElem?_append_right hk] at hc
    exact List.mem_of_getElem? hc
  rcases List.mem_cons.1 hmem with rfl | hmem
  · decide
  rcases List.mem_cons.1 hmem with rfl | hmem
  · decide
  · exact hds c hmem

/-- Reading a text for which a semicolon is supplied comes to its end. -/
theorem exists_passes_of_isSynthetic {a : String}
    (h : ∃ t ∈ (tokenize a).getLast?, t.isSynthetic) : ∃ ts r, (Reader.start a).Passes ts r ∧
      r.text = [] ∧ r.offset = a.length ∧ tokenize a = ts ++ [.terminator a.length] := by
  obtain ⟨t, ht, hsynthetic⟩ := h
  obtain ⟨ts, hts⟩ := List.getLast?_eq_some_iff.1 ht
  have hdrain : (Reader.start a).drain.1 = ts ++ [t] := hts
  obtain ⟨r, hpass, hfaces⟩ := Reader.exists_facing rfl hdrain
  obtain ⟨hnil, htoken, -⟩ := hfaces.of_isSynthetic hsynthetic
  obtain ⟨w, hw, ho⟩ := hpass.exists_text_eq
  have hlen : r.offset = a.length := by
    rw [hnil, List.append_nil] at hw
    rw [ho, ← hw, ← String.length_toList]
    exact Nat.zero_add _
  exact ⟨ts, r, hpass, hnil, hlen, by rw [hts, ← htoken, hlen]⟩

/-- A character that goes on nothing may be put behind the text, in place of the semicolon. -/
theorem exists_passes_append {a : String} {c : Char}
    (h : ∃ t ∈ (tokenize a).getLast?, t.isSynthetic) (hcomment : ¬ InComment a.toList (a.length - 1))
    (hb : ¬ isBlank c) (hd : ¬ c.isDigit) (hs : c ≠ '/') (cs : List Char) :
    ∃ ts r, tokenize a = ts ++ [.terminator a.length] ∧ (∀ t ∈ ts, t.span.start < t.span.stop) ∧
      ({ Reader.start a with text := a.toList ++ c :: cs } : Reader).Passes ts r ∧
      r.text = c :: cs ∧ r.offset = a.length := by
  obtain ⟨ts, r, hpass, hnil, ho, htok⟩ := exists_passes_of_isSynthetic h
  have hfit : ∀ k v, v <:+ a.toList → Piece.Fits r.text k v → Piece.Fits (c :: cs) k v := by
    intro k v hv hfits
    cases hfits with
    | word hw _ => exact .word hw fun d hd' => by cases hd'; exact ⟨fun _ => hd, fun _ => hs⟩
    | blanks hne hw _ => exact .blanks hne hw fun d hd' => by cases hd'; exact hb
    | comment hds _ =>
      refine absurd (inComment_of_suffix hv hds) ?_
      rw [String.length_toList]
      exact hcomment
  have hw : (Reader.start a).text = a.toList ++ r.text := by rw [hnil, List.append_nil]; rfl
  exact ⟨ts, _, htok, hpass.start_lt_stop, hpass.transfer hw hfit, rfl, ho⟩

namespace Joinable
variable {a b : String} {t : Token}

theorem tokenize_join (h : Joinable a b) : ∃ ts, tokenize a = ts ++ [.terminator a.length] ∧
    (∀ t ∈ ts, t.span.start < t.span.stop) ∧ tokenize (join a b) =
      ts ++ .semicolon a.length :: (tokenize b).map (Token.relocate (· + (a.length + 1))) := by
  obtain ⟨ts, r, htok, hlt, hpass, ht, ho⟩ := exists_passes_append (c := ';') h.supplied h.comment
    (by decide) (by decide) (by decide) b.toList
  refine ⟨ts, htok, hlt, ?_⟩
  have hstart : ({ Reader.start a with text := a.toList ++ ';' :: b.toList } : Reader) =
      Reader.start (join a b) := by
    simp [Reader.start, join, String.toList_append]
  rw [hstart] at hpass
  have hsemicolon := Reader.drain_word (k := .semicolon) (w := [';']) hpass.ended_right ht rfl
    (Piece.ends_of_ne (by decide) (by decide))
  have hb : b.toList ≠ [] := fun hnil => h.nonempty (String.toList_eq_nil_iff.1 hnil)
  have hrest : (⟨b.toList, a.length + 1, true, false⟩ : Reader).drain.1 =
      (tokenize b).map (Token.relocate (· + (a.length + 1))) :=
    Reader.drain_relocate (r := .start b) rfl rfl rfl (fun hnil => absurd hnil hb)
      fun i => by simp only [Reader.start]; omega
  show (Reader.start (join a b)).drain.1 = _
  rw [hpass.drain_eq, hsemicolon, ← hrest]
  simp only [Reader.token, Reader.pass, ho]
  rfl

end Joinable

/-! ### Reading joined texts -/

/-- What joining the texts comes to. The second one is moved behind the semicolon. -/
structure Joined (a b : String) : Prop where
  parse : ∀ p q, Program.parse .located a = .ok p → Program.parse .located b = .ok q →
    let ss := p.body.modifyLast Statement.widen ++
      q.body.map (Statement.relocate (· + (a.length + 1)))
    Program.parse .located (join a b) = .ok ⟨ss, Grammar.bodySpan ss⟩
  results : ∀ xs ys, (run a).result = .ok xs → (run b).result = .ok ys →
    (run (join a b)).result = .ok (xs ++ ys)
  runtimeLeft : ∀ q e, Program.parse .located b = .ok q → (run a).result = .error (.runtime e) →
    (run (join a b)).result = .error (.runtime e)
  runtimeRight : ∀ xs e, (run a).result = .ok xs → (run b).result = .error (.runtime e) →
    (run (join a b)).result = .error (.runtime (e.relocate (· + (a.length + 1))))
  parseRight : ∀ p e, Program.parse .located a = .ok p → Program.parse .located b = .error e →
    (∀ n, e = .unexpectedEnd n → tokenize b ≠ []) →
    Program.parse .located (join a b) = .error (e.relocate (· + (a.length + 1)))
  /-- the second text is cut before its first token, and so adds nothing to the first one -/
  parseNothing : ∀ p, Program.parse .located a = .ok p → tokenize b = [] →
    let ss := p.body.modifyLast Statement.widen
    Program.parse .located (join a b) = .ok ⟨ss, Grammar.bodySpan ss⟩
  /-- an error at the semicolon supplied for the first text is one at the semicolon that is there -/
  parseLeft : ∀ e, Program.parse .located a = .error e → Program.parse .located (join a b) =
    .error (if e.span = .emptyAt a.length then e.widen else e)

namespace Grammar
variable {ts : List Token} {tss : List (List Token)} {ss : List Statement} {n : Nat}

/-- Statements that a semicolon is supplied for can do with one that has a character. -/
theorem exists_forall₂_widen (h : List.Forall₂ (ReadsStatement .located) tss ss) (hne : tss ≠ [])
    (hts : tss.flatten = ts ++ [.terminator n]) : ∃ tss', tss' ≠ [] ∧
      tss'.flatten = ts ++ [.semicolon n] ∧
      List.Forall₂ (ReadsStatement .located) tss' (ss.modifyLast Statement.widen) := by
  have hss : ss ≠ [] := by
    rintro rfl
    exact hne (List.forall₂_nil_right_iff.1 h)
  -- The semicolon that is supplied is the last token, so it belongs to the last statement.
  obtain ⟨ss, s, rfl⟩ := ss.eq_nil_or_concat'.resolve_left hss
  obtain ⟨front, us, back, rfl, hfront, hs, hback⟩ := exists_split h
  obtain rfl := List.forall₂_nil_right_iff.1 hback
  obtain ⟨vs, t, rfl, -⟩ := hs.exists_eq_concat
  rw [List.flatten_append, List.flatten_singleton, ← List.append_assoc] at hts
  obtain ⟨hvs, ht⟩ := List.append_inj' hts rfl
  cases ht
  refine ⟨front ++ [vs ++ [.semicolon n]], by simp, ?_, ?_⟩
  · rw [List.flatten_append, List.flatten_singleton, ← List.append_assoc, hvs]
  · rw [List.modifyLast_concat]
    exact List.rel_append hfront (.cons hs.widen .nil)

end Grammar

namespace Joinable
open Grammar
variable {a b : String} {p q : Program} {e : ParseError}

theorem exists_reads (h : Joinable a b) (ha : Program.parse .located a = .ok p) :
    ∃ tss, tss ≠ [] ∧ tokenize (join a b) =
        tss.flatten ++ (tokenize b).map (Token.relocate (· + (a.length + 1))) ∧
      List.Forall₂ (ReadsStatement .located) tss (p.body.modifyLast Statement.widen) := by
  obtain ⟨tss, ss, hflat, hne, hall, rfl⟩ := Program.parse_eq_ok_iff.1 ha
  obtain ⟨ts, hts, -, hjoin⟩ := h.tokenize_join
  obtain ⟨tss', hne', hflat', hall'⟩ := exists_forall₂_widen hall hne (hflat.symm.trans hts)
  refine ⟨tss', hne', ?_, hall'⟩
  rw [hjoin, hflat', List.append_assoc, List.singleton_append]

theorem parse_of_ok_of_ok (h : Joinable a b) (ha : Program.parse .located a = .ok p)
    (hb : Program.parse .located b = .ok q) :
    let ss := p.body.modifyLast Statement.widen ++
      q.body.map (Statement.relocate (· + (a.length + 1)))
    Program.parse .located (join a b) = .ok ⟨ss, bodySpan ss⟩ := by
  obtain ⟨tss, hne, hjoin, hall⟩ := h.exists_reads ha
  obtain ⟨uss, ss, hflat, -, hall', rfl⟩ := Program.parse_eq_ok_iff.1 hb
  refine Program.parse_eq_ok_iff.2 ⟨_, _, ?_, List.append_ne_nil_of_left_ne_nil hne _,
    List.rel_append hall (forall₂_relocate (· + (a.length + 1)) hall'), rfl⟩
  rw [hjoin, hflat, List.flatten_append, List.map_flatten]

theorem parse_of_ok_of_nil (h : Joinable a b) (ha : Program.parse .located a = .ok p)
    (hb : tokenize b = []) :
    let ss := p.body.modifyLast Statement.widen
    Program.parse .located (join a b) = .ok ⟨ss, bodySpan ss⟩ := by
  obtain ⟨tss, hne, hjoin, hall⟩ := h.exists_reads ha
  rw [hb, List.map_nil, List.append_nil] at hjoin
  exact Program.parse_eq_ok_iff.2 ⟨tss, _, hjoin, hne, hall, rfl⟩

theorem parse_of_ok_of_error (h : Joinable a b) (ha : Program.parse .located a = .ok p)
    (hb : Program.parse .located b = .error e) (hne : tokenize b ≠ []) :
    Program.parse .located (join a b) = .error (e.relocate (· + (a.length + 1))) := by
  obtain ⟨tss, htss, hjoin, hall⟩ := h.exists_reads ha
  have hverdict := Scan.verdict_of_parse_eq_error hb
  rw [Scan.verdict_eq hne] at hverdict
  have hmoved := Scan.verdictFrom_relocate (f := (· + (a.length + 1))) Scan.start 0 (tokenize b)
  rw [hverdict] at hmoved
  have hmap : (tokenize b).map (Token.relocate (· + (a.length + 1))) ≠ [] := by simpa using hne
  rw [Scan.parse_eq_error_iff, hjoin, Scan.verdict_eq (by simp [hmap]),
    Scan.verdictFrom_flatten_append hall hmap]
  exact hmoved

theorem parse_of_error (h : Joinable a b) (ha : Program.parse .located a = .error e) :
    Program.parse .located (join a b) =
      .error (if e.span = .emptyAt a.length then e.widen else e) := by
  obtain ⟨ts, hts, hexplicit, hjoin⟩ := h.tokenize_join
  rw [Scan.parse_eq_error_iff] at ha ⊢
  rw [hts, Scan.verdict_concat ts rfl] at ha
  rw [hjoin]
  -- The scan stops at a token of the first text that has characters, or at the semicolon behind it.
  cases hs : ts.foldlM Scan.step Scan.start with
  | error e' =>
    rw [hs] at ha
    cases ha
    obtain ⟨t, ht, hnames⟩ := Scan.exists_names_of_foldlM hs
    rw [Scan.verdict_append_of_error hs, if_neg fun he => ?_]
    have hspan : t.span = .emptyAt a.length := hnames.span_eq.symm.trans he
    have hlt := hexplicit t ht
    rw [hspan] at hlt
    exact Nat.lt_irrefl _ hlt
  | ok s =>
    rw [hs] at ha
    cases hstep : s.step (.terminator a.length) with
    | ok s' => rw [Except.bind, hstep] at ha; cases ha
    | error e' =>
      rw [Except.bind, hstep] at ha
      cases ha
      have hstop : (ts ++ [Token.semicolon a.length]).foldlM Scan.step Scan.start =
          .error e.widen := by
        rw [Scan.foldlM_concat, hs, Except.bind, Scan.step_semicolon, hstep]
        rfl
      have hspan : e.span = .emptyAt a.length := (Scan.names_of_step hstep).span_eq
      rw [if_pos hspan, ← List.singleton_append, ← List.append_assoc,
        Scan.verdict_append_of_error hstop]

/-! ### Running joined texts -/

theorem mapM_eval_widen (ss : List Statement) :
    (ss.modifyLast Statement.widen).mapM Statement.eval = ss.mapM Statement.eval := by
  rcases ss.eq_nil_or_concat' with rfl | ⟨ss, s, rfl⟩
  · rfl
  · rw [List.modifyLast_concat, List.mapM_append, List.mapM_append, List.mapM_cons, List.mapM_cons,
      Statement.eval_widen]

theorem run_of_ok_of_ok (h : Joinable a b) (ha : Program.parse .located a = .ok p)
    (hb : Program.parse .located b = .ok q) : (run (join a b)).result =
      (p.eval.bind fun xs => (q.eval.mapError (RuntimeError.relocate (· + (a.length + 1)))).map
        (xs ++ ·)).mapError .runtime := by
  rw [run_of_parse_eq_ok (h.parse_of_ok_of_ok ha hb)]
  refine congrArg (Except.mapError Error.runtime) ?_
  rw [Program.eval, List.mapM_append, mapM_eval_widen, Statement.mapM_eval_relocate]
  rfl

/-- Joined texts are read and run one after the other. -/
theorem joined (h : Joinable a b) : Joined a b where
  parse p q ha hb := h.parse_of_ok_of_ok ha hb
  results xs ys ha hb := by
    obtain ⟨p, hp, hpe⟩ := run_eq_ok_iff.1 ha
    obtain ⟨q, hq, hqe⟩ := run_eq_ok_iff.1 hb
    rw [h.run_of_ok_of_ok hp hq, hpe, hqe]
    rfl
  runtimeLeft q e hq ha := by
    obtain ⟨p, hp, hpe⟩ := run_eq_runtime_error_iff.1 ha
    rw [h.run_of_ok_of_ok hp hq, hpe]
    rfl
  runtimeRight xs e ha hb := by
    obtain ⟨p, hp, hpe⟩ := run_eq_ok_iff.1 ha
    obtain ⟨q, hq, hqe⟩ := run_eq_runtime_error_iff.1 hb
    rw [h.run_of_ok_of_ok hp hq, hpe, hqe]
    rfl
  parseRight p e ha hb hend := by
    refine h.parse_of_ok_of_error ha hb fun hnil => ?_
    have hverdict := Scan.verdict_of_parse_eq_error hb
    rw [hnil] at hverdict
    cases hverdict
    exact hend _ rfl hnil
  parseNothing p ha hb := h.parse_of_ok_of_nil ha hb
  parseLeft e ha := h.parse_of_error ha

/-- The first text ends with a blank behind a comment, and the second one divides by zero. -/
theorem joined_division : Joinable "1;(2)//x\n-3 " "//y\n7/0" ∧ Joined "1;(2)//x\n-3 " "//y\n7/0" :=
  have h : Joinable "1;(2)//x\n-3 " "//y\n7/0" :=
    { uncut := fun i hi => absurd (readLength_lt_iff.2 ⟨i, hi⟩) (by decide +kernel)
      supplied := by decide +kernel
      comment := by decide
      nonempty := by decide }
  ⟨h, h.joined⟩

end Joinable
end Reckoner
