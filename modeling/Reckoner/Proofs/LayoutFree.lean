import Reckoner.Proofs.Division
import Reckoner.Proofs.Erasure
import Reckoner.Proofs.Viable

/-!
# Texts that differ in layout only

Two texts with the same tokens, but for the places of the tokens and for whether a semicolon is in the
text or supplied, come to the same, from reading to evaluation (`sameUpToLayout`). Step by step the
scan does the same on both, and where it stops it stops at tokens of the same number. What is read
without places is the same tree, so what is read with places has the same divisions but for the
places, and the same one of them fails first.
-/

namespace Reckoner

/-! ### Results and errors of two texts -/

/-- The same error, about the one token or about the other. -/
inductive ParseError.Same (t u : Token) : ParseError → ParseError → Prop
  | unexpectedToken (found expected : Kind) : Same t u (.unexpectedToken found expected t.span)
    (.unexpectedToken found expected u.span)
  | unexpectedLiteral (found : Kind) : Same t u (.unexpectedLiteral found t.span)
    (.unexpectedLiteral found u.span)

/-- The same error, about tokens of the same number, or where the tokens end. -/
inductive ParseError.Correspond (ts us : List Token) : ParseError → ParseError → Prop
  | token {i : Nat} {t u : Token} {e e' : ParseError} (ht : ts[i]? = some t) (hu : us[i]? = some u)
      (h : Same t u e e') : Correspond ts us e e'
  | ending : Correspond ts us (.unexpectedEnd (Span.hull ts).stop)
      (.unexpectedEnd (Span.hull us).stop)

/-- Both programs come to the same results, or fail at divisions of the same number. -/
inductive Program.EvaluateAlike (p q : Program) : Prop
  | results {rs : List (Option Float)} (hp : p.eval = .ok rs) (hq : q.eval = .ok rs)
  | division {i : Nat} {c d : Division} (hc : p.divisions[i]? = some c)
      (hd : q.divisions[i]? = some d) (hp : p.eval = .error (.divisionByZero c.span))
      (hq : q.eval = .error (.divisionByZero d.span))

/-- Both texts are read, as the same tree but for the places, and evaluated alike; or neither is read,
and for the same reason. -/
inductive SameUpToLayout (s t : String) : Prop
  | read {p q r : Program} (hs : Program.parse .located s = .ok p)
      (ht : Program.parse .located t = .ok q) (hs' : Program.parse .unlocated s = .ok r)
      (ht' : Program.parse .unlocated t = .ok r) (h : p.EvaluateAlike q)
  | refused {e e' : ParseError} (hs : ∀ b, Program.parse b s = .error e)
      (ht : ∀ b, Program.parse b t = .error e')
      (h : ParseError.Correspond (tokenize s) (tokenize t) e e')

/-! ### Reading without places -/

namespace Token
variable {t u : Token}

theorem kind_eq_of_form_eq (h : t.form = u.form) : t.kind = u.kind := (Prod.mk.inj h).1

theorem lexeme_eq_of_form_eq (h : t.form = u.form) (hk : t.kind ≠ .semicolon) :
    t.lexeme = u.lexeme := by
  obtain ⟨hkind, hlexeme⟩ := Prod.mk.inj h
  rwa [if_neg hk, if_neg (hkind ▸ hk)] at hlexeme

end Token

theorem Rank.op_eq_of_form_eq {q : Rank} {t u : Token} (h : t.form = u.form)
    (ht : t.kind = q.kind) : q.op t = q.op u := by
  have hlexeme := Token.lexeme_eq_of_form_eq h (by rw [ht]; cases q <;> decide)
  cases q with
  | sum => rw [Rank.op, Grammar.additiveOp, Grammar.additiveOp, hlexeme]
  | product => rw [Rank.op, Grammar.multiplicativeOp, Grammar.multiplicativeOp, hlexeme]

namespace Grammar
variable {q : Option Rank} {ts us : List Token} {e : Expr} {s : Statement} {ss : List Statement}
  {tss : List (List Token)} {t u : Token}

/-- A number reads the same wherever it stands. -/
theorem literal_eq_of_form_eq (h : t.form = u.form) (ht : t.kind = .number) :
    Builder.unlocated.literal (numberValue t.lexeme) t.lexeme t.span =
      Builder.unlocated.literal (numberValue u.lexeme) u.lexeme u.span := by
  have hlexeme := Token.lexeme_eq_of_form_eq h (by rw [ht]; decide)
  rw [hlexeme]
  rfl

theorem Reads.congr (h : Reads .unlocated q ts e) (hus : ts.map Token.form = us.map Token.form) :
    Reads .unlocated q us e := by
  induction h generalizing us with
  | @number t ht =>
    obtain ⟨u, rfl, hu⟩ := List.map_eq_singleton_iff.1 hus.symm
    rw [literal_eq_of_form_eq hu.symm ht]
    exact .number ((Token.kind_eq_of_form_eq hu).trans ht)
  | @minus m t hm hs ht =>
    obtain ⟨n, us, rfl, hn, hrest⟩ := List.map_eq_cons_iff.1 hus.symm
    obtain ⟨u, rfl, hu⟩ := List.map_eq_singleton_iff.1 hrest
    have hlexeme := Token.lexeme_eq_of_form_eq hn.symm (by rw [hm]; decide)
    rw [literal_eq_of_form_eq hu.symm ht]
    exact .minus ((Token.kind_eq_of_form_eq hn).trans hm) (hlexeme ▸ hs)
      ((Token.kind_eq_of_form_eq hu).trans ht)
  | @parens o cl ts e ho _ hc ih =>
    obtain ⟨o', rest, rfl, ho', hrest⟩ := List.map_eq_cons_iff.1 hus.symm
    rw [List.map_append] at hrest
    obtain ⟨ts', cls, rfl, hts, hcls⟩ := List.map_eq_append_iff.1 hrest
    obtain ⟨cl', rfl, hcl⟩ := List.map_eq_singleton_iff.1 hcls
    exact .parens ((Token.kind_eq_of_form_eq ho').trans ho) (ih hts.symm)
      ((Token.kind_eq_of_form_eq hcl).trans hc)
  | single q _ ih => exact .single q (ih hus)
  | @chain q o ls rs l r _ ho _ ihl ihr =>
    rw [List.map_append] at hus
    obtain ⟨ls', rest, rfl, hls, hrest⟩ := List.map_eq_append_iff.1 hus.symm
    obtain ⟨o', rs', rfl, ho', hrs⟩ := List.map_eq_cons_iff.1 hrest
    rw [Rank.op_eq_of_form_eq ho'.symm ho]
    exact .chain q (ihl hls.symm) ((Token.kind_eq_of_form_eq ho').trans ho) (ihr hrs.symm)

theorem ReadsStatement.congr (h : ReadsStatement .unlocated ts s)
    (hus : ts.map Token.form = us.map Token.form) : ReadsStatement .unlocated us s := by
  cases h with
  | empty hk =>
    obtain ⟨u, rfl, hu⟩ := List.map_eq_singleton_iff.1 hus.symm
    exact .empty ((Token.kind_eq_of_form_eq hu).trans hk)
  | expression h ht =>
    rw [List.map_append] at hus
    obtain ⟨ts', rest, rfl, hts, hrest⟩ := List.map_eq_append_iff.1 hus.symm
    obtain ⟨u, rfl, hu⟩ := List.map_eq_singleton_iff.1 hrest
    exact .expression (h.congr hts.symm) ((Token.kind_eq_of_form_eq hu).trans ht)

theorem exists_forall₂_congr (h : List.Forall₂ (ReadsStatement .unlocated) tss ss)
    (hus : tss.flatten.map Token.form = us.map Token.form) :
    ∃ uss, us = uss.flatten ∧ List.Forall₂ (ReadsStatement .unlocated) uss ss := by
  induction h generalizing us with
  | nil => exact ⟨[], List.map_eq_nil_iff.1 hus.symm, .nil⟩
  | cons hs _ ih =>
    rw [List.flatten_cons, List.map_append] at hus
    obtain ⟨ts', rest, rfl, hts, hrest⟩ := List.map_eq_append_iff.1 hus.symm
    obtain ⟨uss, rfl, huss⟩ := ih hrest.symm
    exact ⟨ts' :: uss, rfl, .cons (hs.congr hts.symm) huss⟩

end Grammar

namespace Program
open Grammar
variable {s t : String} {p r : Program}

theorem parse_unlocated_congr
    (h : (tokenize s).map Token.form = (tokenize t).map Token.form)
    (hs : parse .unlocated s = .ok r) : parse .unlocated t = .ok r := by
  obtain ⟨tss, ss, hflat, hne, hall, rfl⟩ := parse_eq_ok_iff.1 hs
  rw [hflat] at h
  obtain ⟨uss, huss, hall'⟩ := exists_forall₂_congr hall h
  refine parse_eq_ok_iff.2 ⟨uss, ss, huss, ?_, hall', rfl⟩
  rintro rfl
  exact hne (List.length_eq_zero_iff.1 (hall.length_eq.trans hall'.length_eq.symm))

theorem parse_unlocated_of_ok (h : parse .located s = .ok p) :
    parse .unlocated s = .ok p.erase := by
  obtain ⟨ss, d, hbody, rfl⟩ := parse_eq_ok_iff_body.1 h
  exact parse_eq_ok_iff_body.2 ⟨ss.map Statement.erase, d, by rw [body_unlocated, hbody]; rfl, rfl⟩

end Program

/-! ### Evaluating without places -/

/-- The division with its operands, and itself, nowhere. -/
def Division.erase (d : Division) : Division := ⟨d.left.erase, d.right.erase, .nowhere⟩

theorem Operand.erase_eq_relocate (a : Operand) : a.erase = a.relocate fun _ => 0 := by
  induction a with
  | literal l => rfl
  | unary op a s ih => exact congrArg (unary op · .nowhere) ih

theorem Expr.erase_eq_relocate (e : Expr) : e.erase = e.relocate fun _ => 0 := by
  induction e with
  | literal l => rfl
  | binary op l r s ihl ihr => exact congrArg₂ (binary op · · .nowhere) ihl ihr
  | unary u => exact congrArg (fun a => unary ⟨u.op, a, .nowhere⟩) u.argument.erase_eq_relocate

theorem Statement.erase_eq_relocate (s : Statement) : s.erase = s.relocate fun _ => 0 := by
  cases s with
  | empty s => rfl
  | expression e s => exact congrArg (expression · .nowhere) e.erase_eq_relocate

theorem Expr.eval_erase_eq_ok_iff {e : Expr} {x : Float} : e.erase.eval = .ok x ↔ e.eval = .ok x := by
  rw [erase_eq_relocate, eval_relocate]
  cases e.eval <;> simp [Except.mapError]

theorem Program.eval_erase_eq_ok_iff {p : Program} {rs : List (Option Float)} :
    p.erase.eval = .ok rs ↔ p.eval = .ok rs := by
  have hbody : p.erase.body = p.body.map (Statement.relocate fun _ => 0) :=
    List.map_congr_left fun s _ => s.erase_eq_relocate
  rw [eval, hbody, Statement.mapM_eval_relocate, eval]
  cases p.body.mapM Statement.eval <;> simp [Except.mapError]

theorem Division.fails_erase_iff (d : Division) : d.erase.Fails ↔ d.Fails := by
  simp only [Fails, erase, Expr.eval_erase_eq_ok_iff]

theorem Division.fails_iff_of_erase_eq {c d : Division} (h : c.erase = d.erase) :
    c.Fails ↔ d.Fails := by
  rw [← fails_erase_iff c, h, fails_erase_iff]

theorem Expr.divisions_erase (e : Expr) : e.erase.divisions = e.divisions.map Division.erase := by
  induction e with
  | literal | unary => rfl
  | binary op l r s ihl ihr =>
    rw [erase, divisions, divisions, ihl, ihr, List.map_append, List.map_append]
    congr 2
    split <;> rfl

theorem Program.divisions_erase (p : Program) :
    p.erase.divisions = p.divisions.map Division.erase := by
  rw [divisions, divisions, erase, List.flatMap_map, List.map_flatMap]
  refine List.flatMap_congr fun s _ => ?_
  cases s with
  | empty => rfl
  | expression e => exact e.divisions_erase

/-- Programs that are equal but for the places are evaluated alike. -/
theorem Program.evaluateAlike {p q : Program} (h : p.erase = q.erase) : p.EvaluateAlike q := by
  rcases Division.exists_first_or p.divisions with ⟨before, c, after, hp, hbefore, hc⟩ | hnone
  · have hmap : q.divisions.map Division.erase =
        before.map Division.erase ++ c.erase :: after.map Division.erase := by
      rw [← divisions_erase, ← h, divisions_erase, hp, List.map_append, List.map_cons]
    -- The divisions of `q` split where those of `p` do, and erasing does not change which of them fail.
    obtain ⟨before', rest, hq, hbefore', hrest⟩ := List.map_eq_append_iff.1 hmap
    obtain ⟨d, after', rfl, hd, -⟩ := List.map_eq_cons_iff.1 hrest
    have hlen : before.length = before'.length := by
      simpa using (congrArg List.length hbefore').symm
    have hfirst : ∀ d ∈ before', ¬ d.Fails := by
      intro d hd hfails
      obtain ⟨c, hc, hcd⟩ := List.mem_map.1 (hbefore' ▸ List.mem_map_of_mem hd)
      exact hbefore c hc ((Division.fails_iff_of_erase_eq hcd).2 hfails)
    have hpc : p.divisions[before.length]? = some c := by simp [hp]
    have hqd : q.divisions[before.length]? = some d := by simp [hq, hlen]
    refine .division hpc hqd ?_ ?_
    · rw [p.eval_eq]
      exact Division.decision_eq_error hp hbefore hc _
    · rw [q.eval_eq]
      exact Division.decision_eq_error hq hfirst ((Division.fails_iff_of_erase_eq hd).2 hc) _
  · have hp := p.eval_eq.trans (Division.decision_eq_ok hnone _)
    have hq := eval_erase_eq_ok_iff.2 hp
    rw [h] at hq
    exact .results hp (eval_erase_eq_ok_iff.1 hq)

/-! ### Errors -/

namespace Scan
variable {s : Scan} {t u : Token} {ts us : List Token} {e : ParseError}

theorem exists_step_same (h : t.form = u.form) (ht : s.step t = .error e) :
    ∃ e', s.step u = .error e' ∧ e.Same t u e' := by
  refine ⟨e.withSpan u.span, by rw [step_congr h, ht]; rfl, ?_⟩
  have hnames := names_of_step ht
  cases e with
  | unexpectedToken | unexpectedLiteral =>
    obtain ⟨-, rfl⟩ := hnames
    constructor
  | unexpectedEnd => exact hnames.elim

/-- Tokens of the same forms get the same verdict: if it is an error, then one at tokens of the same
number. -/
theorem exists_verdict_correspond (h : ts.map Token.form = us.map Token.form)
    (hts : verdict ts = .error e) : ∃ e', verdict us = .error e' ∧ e.Correspond ts us e' := by
  cases hs : ts.foldlM step start with
  | error e₁ =>
    rw [verdict_of_error hs] at hts
    cases hts
    obtain ⟨before, t, after, s, rfl, hbefore, ht⟩ := exists_step_eq_error hs
    rw [List.map_append] at h
    obtain ⟨before', rest, rfl, hforms, hrest⟩ := List.map_eq_append_iff.1 h.symm
    obtain ⟨u, after', rfl, hu, -⟩ := List.map_eq_cons_iff.1 hrest
    obtain ⟨e', he', hsame⟩ := exists_step_same hu.symm ht
    have hlen : before'.length = before.length := by simpa using congrArg List.length hforms
    have hstop : (before' ++ [u]).foldlM step start = .error e' := by
      rw [foldlM_concat, foldlM_congr hforms.symm hbefore]
      exact he'
    have hverdict : verdict (before' ++ u :: after') = .error e' := by
      rw [List.append_cons]
      exact verdict_append_of_error hstop after'
    have hti : (before ++ t :: after)[before.length]? = some t := by simp
    have hui : (before' ++ u :: after')[before.length]? = some u := by simp [← hlen]
    exact ⟨e', hverdict, .token hti hui hsame⟩
  | ok s =>
    -- Both scans come to the same state, and each error tells where its own tokens end.
    have hnil : ts ≠ [] ↔ us ≠ [] := by
      rw [ne_eq, ← List.map_eq_nil_iff, h, List.map_eq_nil_iff]
    rw [verdict_of_ok hs] at hts
    split at hts
    · cases hts
    · next hend =>
      cases hts
      refine ⟨_, ?_, .ending⟩
      rw [verdict_of_ok (foldlM_congr h hs)]
      exact if_neg fun hus => hend ⟨hus.1, hnil.2 hus.2⟩

end Scan

/-! ### The whole way -/

/-- Texts whose tokens have the same forms come to the same. -/
theorem sameUpToLayout {s t : String} (h : (tokenize s).map Token.form = (tokenize t).map Token.form) :
    SameUpToLayout s t := by
  cases hs : Program.parse .located s with
  | ok p =>
    have hs' := Program.parse_unlocated_of_ok hs
    have ht' := Program.parse_unlocated_congr h hs'
    obtain ⟨q, ht⟩ : ∃ q, Program.parse .located t = .ok q :=
      Scan.exists_parse_eq_ok_iff.2 (Scan.verdict_of_parse_eq_ok ht')
    have herase : p.erase = q.erase := by
      rw [Program.parse_unlocated_of_ok ht] at ht'
      exact (Except.ok.inj ht').symm
    exact .read hs ht hs' ht' (Program.evaluateAlike herase)
  | error e =>
    have hverdict := Scan.verdict_of_parse_eq_error hs
    obtain ⟨e', hverdict', hcorrespond⟩ := Scan.exists_verdict_correspond h hverdict
    exact .refused (fun _ => Scan.parse_eq_error_iff.2 hverdict)
      (fun _ => Scan.parse_eq_error_iff.2 hverdict') hcorrespond

/-- One semicolon is supplied, and the other one is in the text. -/
theorem sameUpToLayout_quotient :
    (tokenize "1/(2-2) // x").map Token.form = (tokenize " 1 /\n( 2- 2 );").map Token.form ∧
      SameUpToLayout "1/(2-2) // x" " 1 /\n( 2- 2 );" := by
  have h : (tokenize "1/(2-2) // x").map Token.form =
      (tokenize " 1 /\n( 2- 2 );").map Token.form := by decide +kernel
  exact ⟨h, sameUpToLayout h⟩

end Reckoner
