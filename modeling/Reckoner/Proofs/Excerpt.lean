import Reckoner.Proofs.Passage
import Reckoner.Proofs.Placement
import Reckoner.Proofs.Verdict

/-!
# Statements on their own

The characters that a statement covers are a program of one statement, which is the same statement
moved to the front, and between the statements of a text there is nothing but gaps. So running a text
comes to the same as running its statements one by one (`Program.SelfContained`). A statement is read
from a run of tokens up to a semicolon, and such a run is a passage of the reader: what the text has
before it or behind it makes no difference to it.
-/

namespace Reckoner

/-! ### Runs of tokens in the text -/

section
variable {t : Token} {ts : List Token} {n : Nat}

theorem lastStop_eq (n : Nat) (ts : List Token) :
    lastStop n ts = (ts.getLast?.map (·.span.stop)).getD n := by
  induction ts generalizing n with
  | nil => rfl
  | cons t ts ih =>
    rw [lastStop, ih, List.getLast?_cons]
    cases ts.getLast? <;> rfl

theorem Token.relocate_relocate (f g : Nat → Nat) (t : Token) :
    (t.relocate f).relocate g = t.relocate (g ∘ f) := rfl

theorem Token.relocate_id (t : Token) : t.relocate id = t := rfl

theorem Token.map_relocate_sub_add {us : List Token} (h : us.map (relocate (· + n)) = ts) :
    ts.map (relocate (· - n)) = us := by
  have hid : (· - n) ∘ (· + n) = (id : Nat → Nat) := funext fun i => Nat.add_sub_cancel i n
  rw [← h, List.map_map]
  refine (List.map_congr_left fun t _ => ?_).trans (List.map_id us)
  rw [Function.comp, relocate_relocate, hid, relocate_id]
  rfl

end

namespace Reader
variable {text : String} {t : Token} {front ts back : List Token}

/-- The reader comes to the end of the tokens `front`, and to the start of the next ones. -/
theorem exists_before_run (h : tokenize text = front ++ (ts ++ back)) (hne : ts ≠ []) :
    ∃ r₁ r₂ t us, (start text).Passes front r₁ ∧ r₁.offset = lastStop 0 front ∧
      Passes r₁ [] r₂ ∧ r₂.offset = (Span.hull ts).start ∧ ts = t :: us ∧ r₂.Faces t (us ++ back) := by
  obtain ⟨t, us, rfl⟩ := List.exists_cons_of_ne_nil hne
  have hdrain : (start text).drain.1 = front ++ t :: (us ++ back) := h
  obtain ⟨r₁, r₂, hpass₁, ho, hpass₂, hfaces⟩ := exists_before rfl hdrain
  exact ⟨r₁, r₂, t, us, hpass₁, ho, hpass₂, hfaces.offset_eq, rfl, hfaces⟩

/-- Tokens up to a semicolon, read on their own. -/
theorem tokenize_excerpt_hull (h : tokenize text = front ++ (ts ++ [t] ++ back))
    (hk : t.kind = .semicolon) : (tokenize ((Span.hull (ts ++ [t])).excerpt text)).map
      (Token.relocate (· + (Span.hull (ts ++ [t])).start)) = ts ++ [t] := by
  obtain ⟨r₁, r₂, u, us, hpass₁, -, hpass₂, ho, -, -⟩ := exists_before_run h (by simp)
  have hpass := hpass₁.trans hpass₂
  have hdrain : r₂.drain.1 = ts ++ t :: back := by
    have hd : tokenize text = front ++ [] ++ r₂.drain.1 := congrArg Prod.fst hpass.drain_eq
    rw [h, List.append_nil] at hd
    simpa using (List.append_cancel_left hd).symm
  obtain ⟨r₃, ws, hpass₃, ho₃, hws, hne⟩ := exists_through hpass₂.ended_right hdrain hk
  have hstop : (Span.hull (ts ++ [t])).stop = t.span.stop := Span.stop_hull_concat
  have hhull : Span.hull (ts ++ [t]) = ⟨r₂.offset, r₃.offset⟩ := by rw [ho, ho₃, ← hstop]
  rw [hhull]
  exact (hpass₃.tokenize_excerpt (hpass.within (within_start text)) hne).trans hws

/-- What stands before tokens is a gap; a comment may go up to them only where the text ends. -/
theorem gap_before_run (h : tokenize text = front ++ (ts ++ back)) (hne : ts ≠ []) :
    let g := Span.slice text.toList ⟨lastStop 0 front, (Span.hull ts).start⟩
    LastGap g ∧ ((Span.hull ts).isEmpty = false → Gap g) := by
  obtain ⟨r₁, r₂, t, us, hpass₁, ho₁, hpass₂, ho₂, rfl, hfaces⟩ := exists_before_run h hne
  have hw := hpass₁.within (within_start text)
  rw [← ho₁, ← ho₂]
  cases hfaces with
  | piece hp hk _ _ =>
    have hgap := hpass₂.gap_slice hw hp hk
    exact ⟨.gap hgap, fun _ => hgap⟩
  | ending hnil _ ht hus =>
    refine ⟨hpass₂.lastGap_slice hw hnil, fun he => ?_⟩
    obtain ⟨rfl, -⟩ := List.append_eq_nil_iff.1 hus
    rw [← ht] at he
    simp [Span.hull, Token.terminator, Span.isEmpty, Span.emptyAt] at he

end Reader

/-! ### Statements -/

namespace Grammar
open Outcome
variable {b : Builder} {ts : List Token} {tss : List (List Token)} {s s' : Statement}
  {ss ss' : List Statement} {text : String} {p : Program}

theorem ReadsStatement.exists_eq_concat (h : ReadsStatement b ts s) :
    ∃ us t, ts = us ++ [t] ∧ t.kind = .semicolon := by
  cases h with
  | @empty t hk => exact ⟨[], t, rfl, hk⟩
  | @expression t us e _ hk => exact ⟨us, t, rfl, hk⟩

theorem ReadsStatement.unique (h : ReadsStatement b ts s) (h' : ReadsStatement b ts s') :
    s = s' := by
  have hc : (Cursor.start ⟨ts, none⟩).tokens = ts ++ [] := (List.append_nil ts).symm
  have heq := (h.statement_eq hc).symm.trans (h'.statement_eq hc)
  exact (Prod.ext_iff.1 (Except.ok.inj heq)).1

theorem exists_split (h : List.Forall₂ (ReadsStatement b) tss (ss ++ s :: ss')) :
    ∃ front ts back, tss = front ++ ts :: back ∧ List.Forall₂ (ReadsStatement b) front ss ∧
      ReadsStatement b ts s ∧ List.Forall₂ (ReadsStatement b) back ss' := by
  induction ss generalizing tss with
  | nil =>
    obtain ⟨ts, back, hs, hback, rfl⟩ := List.forall₂_cons_right_iff.1 h
    exact ⟨[], ts, back, rfl, .nil, hs, hback⟩
  | cons s₁ ss ih =>
    obtain ⟨ts₁, tss, hs₁, htss, rfl⟩ := List.forall₂_cons_right_iff.1 h
    obtain ⟨front, ts, back, rfl, hfront, hs⟩ := ih htss
    exact ⟨ts₁ :: front, ts, back, rfl, .cons hs₁ hfront, hs⟩

theorem lastStop_flatten (h : List.Forall₂ (ReadsStatement .located) tss ss) (n : Nat) :
    lastStop n tss.flatten = (ss.getLast?.map (·.span.stop)).getD n := by
  induction h generalizing n with
  | nil => rfl
  | @cons ts s tss ss hs _ ih =>
    obtain ⟨us, t, rfl, -⟩ := hs.exists_eq_concat
    have hstop : lastStop n ((us ++ [t]) ++ tss.flatten) = lastStop s.span.stop tss.flatten := by
      rw [lastStop_eq, lastStop_eq, List.getLast?_append, List.getLast?_concat, hs.span_eq,
        Span.stop_hull_concat]
      cases tss.flatten.getLast? <;> rfl
    rw [List.flatten_cons, hstop, ih, List.getLast?_cons]
    cases ss.getLast? <;> rfl

theorem parse_of_readsStatement (h : ReadsStatement .located (tokenize text) s) :
    Program.parse .located text = .ok ⟨[s], s.span⟩ :=
  Program.parse_eq_ok_iff.2
    ⟨[tokenize text], [s], by simp, List.cons_ne_nil _ _, .cons h .nil, rfl⟩

/-- What a statement is read from is read alone as the statement moved to the front. -/
theorem readsStatement_excerpt (htok : tokenize text = tss.flatten)
    (h : List.Forall₂ (ReadsStatement .located) tss (ss ++ s :: ss')) :
    ReadsStatement .located (tokenize (s.span.excerpt text)) (s.relocate (· - s.span.start)) ∧
      (s.relocate (· - s.span.start)).relocate (· + s.span.start) = s := by
  obtain ⟨front, ts, back, rfl, -, hs, -⟩ := exists_split h
  obtain ⟨us, t, rfl, hk⟩ := hs.exists_eq_concat
  rw [List.flatten_append, List.flatten_cons] at htok
  -- Moved back, the excerpt has the tokens of `s`, and tokens are read as one statement only.
  have hback := Reader.tokenize_excerpt_hull htok hk
  rw [← hs.span_eq] at hback
  have hread := hs.relocate (· - s.span.start)
  rw [Token.map_relocate_sub_add hback] at hread
  refine ⟨hread, ReadsStatement.unique ?_ hs⟩
  rw [← hback]
  exact hread.relocate _

theorem gap_before_statement (htok : tokenize text = tss.flatten)
    (h : List.Forall₂ (ReadsStatement .located) tss (ss ++ s :: ss')) :
    let g := Span.slice text.toList ⟨(ss.getLast?.map (·.span.stop)).getD 0, s.span.start⟩
    LastGap g ∧ (s.span.isEmpty = false → Gap g) := by
  obtain ⟨front, ts, back, rfl, hfront, hs, -⟩ := exists_split h
  rw [List.flatten_append, List.flatten_cons] at htok
  have hgap := Reader.gap_before_run htok hs.ne_nil
  rwa [← hs.span_eq, lastStop_flatten hfront] at hgap

end Grammar

/-! ### Programs -/

/-- The statements of the program, which was read from the text, do not depend on each other. -/
structure Program.SelfContained (text : String) (p : Program) : Prop where
  statement : ∀ s ∈ p.body, parse .located (s.span.excerpt text) =
    .ok ⟨[s.relocate (· - s.span.start)], s.span.relocate (· - s.span.start)⟩
  /-- no part of a statement stands before it, so moving it to the front loses nothing -/
  moved : ∀ s ∈ p.body, (s.relocate (· - s.span.start)).relocate (· + s.span.start) = s
  /-- before a statement there are blanks and comments only; a comment goes up to the statement only
  where the text ends -/
  gap : ∀ ss s ss', p.body = ss ++ s :: ss' →
    let g := Span.slice text.toList ⟨(ss.getLast?.map (·.span.stop)).getD 0, s.span.start⟩
    LastGap g ∧ (s.span.isEmpty = false → Gap g)
  results : ∀ rs, (run text).result = .ok rs →
    (p.body.mapM fun s => (run (s.span.excerpt text)).result).map List.flatten = .ok rs

section
variable {text : String} {p : Program} {s : Statement} {v : Option Float}

theorem run_of_statement (hp : Program.parse .located text = .ok p) (hbody : p.body = [s])
    (hs : s.eval = .ok v) : (run text).result = .ok [v] := by
  rw [run_of_parse_eq_ok hp, Program.eval, hbody, List.mapM_cons, hs]
  rfl

theorem mapM_of_eval {f : Statement → Except Error (List (Option Float))} {ss : List Statement}
    {rs : List (Option Float)} (hf : ∀ s ∈ ss, ∀ v, s.eval = .ok v → f s = .ok [v])
    (h : ss.mapM Statement.eval = .ok rs) : ss.mapM f = .ok (rs.map ([·])) := by
  induction ss generalizing rs with
  | nil => cases h; rfl
  | cons s ss ih =>
    obtain ⟨hs, hss⟩ := List.forall_mem_cons.1 hf
    rw [List.mapM_cons] at h ⊢
    cases hv : s.eval with
    | error e => rw [hv] at h; cases h
    | ok v =>
      rw [hv] at h
      rw [hs v hv]
      cases hvs : ss.mapM Statement.eval with
      | error e => rw [hvs] at h; cases h
      | ok vs =>
        rw [hvs] at h
        cases h
        rw [ih hss hvs]
        rfl

/-- Each statement of a text is a program of its own, and the text is nothing but its statements. -/
theorem Program.selfContained_of_parse (h : parse .located text = .ok p) :
    p.SelfContained text := by
  obtain ⟨tss, ss, htok, -, hall, rfl⟩ := parse_eq_ok_iff.1 h
  have alone : ∀ s ∈ ss, parse .located (s.span.excerpt text) =
        .ok ⟨[s.relocate (· - s.span.start)], s.span.relocate (· - s.span.start)⟩ ∧
      (s.relocate (· - s.span.start)).relocate (· + s.span.start) = s := by
    intro s hs
    obtain ⟨front, back, rfl⟩ := List.append_of_mem hs
    obtain ⟨hread, hmoved⟩ := Grammar.readsStatement_excerpt htok hall
    rw [← Statement.span_relocate]
    exact ⟨Grammar.parse_of_readsStatement hread, hmoved⟩
  refine ⟨fun s hs => (alone s hs).1, fun s hs => (alone s hs).2, ?_, fun rs hrun => ?_⟩
  · rintro front s back rfl
    exact Grammar.gap_before_statement htok hall
  · obtain ⟨p, hp, heval⟩ := run_eq_ok_iff.1 hrun
    cases h.symm.trans hp
    have each : ∀ s ∈ ss, ∀ v, s.eval = .ok v → (run (s.span.excerpt text)).result = .ok [v] := by
      intro s hs v hv
      refine run_of_statement (alone s hs).1 rfl ?_
      rw [Statement.eval_relocate, hv]
      rfl
    rw [show (Builder.located.program ss _).body = ss from rfl, mapM_of_eval each heval, Except.map,
      ← List.flatMap_def, List.flatMap_singleton']

/-- Statements with parentheses in front, with a comment within, and one of no width at the end. -/
theorem Program.selfContained_differences : ∃ p,
    parse .located "((1) - 2) //a\n;\t;4/-2; //b" = .ok p ∧
      p.SelfContained "((1) - 2) //a\n;\t;4/-2; //b" := by
  have hok : (parse .located "((1) - 2) //a\n;\t;4/-2; //b").toBool := by decide +kernel
  cases h : parse .located "((1) - 2) //a\n;\t;4/-2; //b" with
  | error e => rw [h] at hok; cases hok
  | ok p => exact ⟨p, rfl, selfContained_of_parse h⟩

end

end Reckoner
