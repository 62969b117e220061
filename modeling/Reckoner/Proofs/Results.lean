import Mathlib.Data.List.Forall2
import Reckoner.Proofs.Digits
import Reckoner.Proofs.Verdict

/-!
# The ways to the results

Results can be had from a program as a whole, from its statements one by one, from the nodes inside
of those, or as lines of output. A program has its results exactly if each of its statements has
one, and else the error of the first that has none (`Program.ByStatement`). A statement has the value
of what it is and of the expression in it (`Statement.ByContents`). The output has a line for each
statement with its value, since no written number contains a line break (`Printed`).
-/

namespace Reckoner

/-- The evaluation of the program is that of its statements, in their order. -/
structure Program.ByStatement (p : Program) : Prop where
  ok_iff : ∀ rs, Node.eval (.program p) = .ok (.sequence rs) ↔
    List.Forall₂ (fun s r => Node.eval (.statement s) = .ok (.ofResult r)) p.body rs
  sequence : ∀ v, Node.eval (.program p) = .ok v → ∃ rs, v = .sequence rs
  error_iff : ∀ e, Node.eval (.program p) = .error e ↔ ∃ before s after,
    p.body = before ++ s :: after ∧ (∀ s' ∈ before, ∃ v, Node.eval (.statement s') = .ok v) ∧
      Node.eval (.statement s) = .error e

/-- The evaluation of the statement is that of what it is and of the expression in it. -/
structure Statement.ByContents (s : Statement) : Prop where
  inside : Node.eval (.statement s) = Node.eval (.ofStatement s)
  expression : ∀ e span, s = .expression e span →
    Node.eval (.statement s) = Node.eval (.expression e) ∧
      Node.eval (.statement s) = Node.eval (.ofExpr e)

def outputLines (s : String) : List String := (s.toList.splitOn '\n').map String.ofList

/-- What is put out for a text: the message of its error, or a line for each statement. -/
inductive Printed (text : String) : Except String String → Prop
  | unread {e : ParseError} (h : Program.parse .located text = .error e) :
    Printed text (.error e.message)
  | failed {p : Program} {e : RuntimeError} (h : Program.parse .located text = .ok p)
    (he : Node.eval (.program p) = .error e) : Printed text (.error e.message)
  | results {p : Program} {v : Value} {out : String} (h : Program.parse .located text = .ok p)
    (hv : Node.eval (.program p) = .ok v)
    (hlines : List.Forall₂ (fun s line => ∃ w, Node.eval (.statement s) = .ok w ∧ w.text = line)
      p.body (outputLines out))
    (htext : v.text = "[" ++ ", ".intercalate (outputLines out) ++ "]") : Printed text (.ok out)

/-! ### Traversals -/

section
variable {α β ε : Type} {f : α → Except ε β} {g : β → α} {xs : List α} {ys : List β} {e : ε}

theorem mapM_cons_of_ok {x : α} {y : β} (h : f x = .ok y) :
    (x :: xs).mapM f = (xs.mapM f).map (y :: ·) := by
  rw [List.mapM_cons, h]
  cases xs.mapM f <;> rfl

theorem mapM_eq_ok_iff : xs.mapM f = .ok ys ↔ List.Forall₂ (fun x y => f x = .ok y) xs ys := by
  induction xs generalizing ys with
  | nil => simp [pure, Except.pure, eq_comm]
  | cons x xs ih =>
    cases hx : f x with
    | error e => simp [List.mapM_cons, List.forall₂_cons_left_iff, hx, bind, Except.bind]
    | ok y =>
      rw [mapM_cons_of_ok hx, List.forall₂_cons_left_iff]
      constructor
      · intro h
        cases hys : xs.mapM f with
        | error e => rw [hys] at h; cases h
        | ok ys =>
          rw [hys] at h
          cases h
          exact ⟨y, ys, hx, ih.1 hys, rfl⟩
      · rintro ⟨y', ys, hy, hys, rfl⟩
        cases hx.symm.trans hy
        rw [ih.2 hys]
        rfl

/-- A traversal fails with the error of the first element that has one. -/
theorem mapM_eq_error_iff : xs.mapM f = .error e ↔ ∃ before x after, xs = before ++ x :: after ∧
    (∀ y ∈ before, ∃ v, f y = .ok v) ∧ f x = .error e := by
  constructor
  · intro h
    induction xs with
    | nil => cases h
    | cons x xs ih =>
      cases hx : f x with
      | error e' =>
        rw [List.mapM_cons, hx] at h
        cases h
        exact ⟨[], x, xs, rfl, nofun, hx⟩
      | ok y =>
        rw [mapM_cons_of_ok hx] at h
        cases hys : xs.mapM f with
        | ok ys => rw [hys] at h; cases h
        | error e' =>
          rw [hys] at h
          cases h
          obtain ⟨before, x', after, rfl, hbefore, hx'⟩ := ih hys
          exact ⟨x :: before, x', after, rfl, List.forall_mem_cons.2 ⟨⟨y, hx⟩, hbefore⟩, hx'⟩
  · rintro ⟨before, x, after, rfl, hbefore, hx⟩
    induction before with
    | nil => rw [List.nil_append, List.mapM_cons, hx]; rfl
    | cons x' before ih =>
      obtain ⟨⟨y, hy⟩, hbefore⟩ := List.forall_mem_cons.1 hbefore
      rw [List.cons_append, mapM_cons_of_ok hy, ih hbefore]
      rfl

end

/-! ### Nodes -/

section
variable {p : Program} {s : Statement} {r : Option Float} {rs : List (Option Float)} {v : Value}
  {e : RuntimeError}

theorem Value.ofResult_injective : Function.Injective ofResult := by
  intro r r' h
  cases r <;> cases r' <;> cases h <;> rfl

theorem Node.eval_statement_eq_ok_iff :
    Node.eval (.statement s) = .ok v ↔ ∃ r, s.eval = .ok r ∧ .ofResult r = v := by
  rw [eval]
  cases s.eval <;> simp [Functor.map, Except.map]

theorem Node.eval_statement_eq_error_iff :
    Node.eval (.statement s) = .error e ↔ s.eval = .error e := by
  rw [eval]
  cases s.eval <;> simp [Functor.map, Except.map]

theorem Node.eval_program_eq_ok_iff :
    Node.eval (.program p) = .ok v ↔ ∃ rs, p.eval = .ok rs ∧ .sequence rs = v := by
  rw [eval]
  cases p.eval <;> simp [Functor.map, Except.map]

theorem Node.eval_program_eq_error_iff :
    Node.eval (.program p) = .error e ↔ p.eval = .error e := by
  rw [eval]
  cases p.eval <;> simp [Functor.map, Except.map]

theorem Node.eval_statement_ofResult_iff :
    Node.eval (.statement s) = .ok (.ofResult r) ↔ s.eval = .ok r := by
  rw [eval_statement_eq_ok_iff]
  constructor
  · rintro ⟨r', h, hr⟩
    rwa [Value.ofResult_injective hr] at h
  · exact fun h => ⟨r, h, rfl⟩

theorem Program.byStatement (p : Program) : p.ByStatement := by
  refine ⟨fun rs => ?_, fun v h => ?_, fun e => ?_⟩
  · have hseq : Node.eval (.program p) = .ok (.sequence rs) ↔ p.eval = .ok rs := by
      simp [Node.eval_program_eq_ok_iff]
    rw [hseq, Program.eval, mapM_eq_ok_iff]
    simp only [Node.eval_statement_ofResult_iff]
  · obtain ⟨rs, -, rfl⟩ := Node.eval_program_eq_ok_iff.1 h
    exact ⟨rs, rfl⟩
  · rw [Node.eval_program_eq_error_iff, Program.eval, mapM_eq_error_iff]
    have hok : ∀ s : Statement, (∃ r, s.eval = .ok r) ↔ ∃ v, Node.eval (.statement s) = .ok v := by
      intro s
      simp [Node.eval_statement_eq_ok_iff]
    simp only [hok, Node.eval_statement_eq_error_iff]

theorem Statement.byContents (s : Statement) : s.ByContents := by
  have hexpr : ∀ e span, Node.eval (.statement (.expression e span)) =
      Node.eval (.expression e) := by
    intro e span
    rw [Node.eval, Node.eval, Statement.eval]
    cases e.eval <;> rfl
  refine ⟨?_, ?_⟩
  · cases s with
    | empty span => rfl
    | expression e span => exact hexpr e span
  · rintro e span rfl
    refine ⟨hexpr e span, (hexpr e span).trans ?_⟩
    cases e <;> rfl

end

/-! ### Lines -/

theorem Value.newline_not_mem_numberText (x : Float) : '\n' ∉ (numberText x).toList := by
  have hother : ∀ c ∈ (numberText x).toList, c ≠ '\n' := by
    refine Decimal.Layout.forall_mem_write ?_ ?_ ?_ ?_ ?_ x
    · rintro c hc rfl
      exact absurd hc (by decide)
    all_goals simp [Decimal.marks, layout]
  exact fun h => hother _ h rfl

theorem Value.newline_not_mem_resultText (r : Option Float) : '\n' ∉ (resultText r).toList := by
  cases r with
  | none => decide
  | some x => exact newline_not_mem_numberText x

theorem Value.text_ofResult (r : Option Float) : (ofResult r).text = resultText r := by
  cases r <;> rfl

theorem outputLines_resultLines {rs : List (Option Float)} (h : rs ≠ []) :
    outputLines (resultLines rs) = rs.map Value.resultText := by
  have hne : (rs.map Value.resultText).map String.toList ≠ [] := by simpa using h
  have hline : ∀ l ∈ (rs.map Value.resultText).map String.toList, '\n' ∉ l := by
    intro l hl
    obtain ⟨_, hr, rfl⟩ := List.mem_map.1 hl
    obtain ⟨r, -, rfl⟩ := List.mem_map.1 hr
    exact Value.newline_not_mem_resultText r
  have hbreak : "\n".toList = ['\n'] := rfl
  rw [outputLines, resultLines, String.toList_intercalate, hbreak,
    List.splitOn_intercalate '\n' hline hne, List.map_map]
  simp

theorem Program.body_ne_nil {b : Builder} {text : String} {p : Program}
    (hb : ∀ ss span, (b.program ss span).body = ss) (h : parse b text = .ok p) : p.body ≠ [] := by
  obtain ⟨tss, ss, -, hne, hall, rfl⟩ := parse_eq_ok_iff.1 h
  rw [hb]
  rintro rfl
  exact hne (List.forall₂_nil_right_iff.1 hall)

theorem printed_output (text : String) :
    Printed text ((Mode.output text .results).result.mapError Error.message) := by
  show Printed text (((run text).result.map resultLines).mapError Error.message)
  cases hp : Program.parse .located text with
  | error e =>
    rw [run_of_parse_eq_error hp]
    exact .unread hp
  | ok p =>
    rw [run_of_parse_eq_ok hp]
    cases he : p.eval with
    | error e => exact .failed hp (Node.eval_program_eq_error_iff.2 he)
    | ok rs =>
      have hall := mapM_eq_ok_iff.1 he
      have hne : rs ≠ [] := by
        rintro rfl
        exact Program.body_ne_nil (fun _ _ => rfl) hp (List.forall₂_nil_right_iff.1 hall)
      have hlines := outputLines_resultLines hne
      refine .results hp (Node.eval_program_eq_ok_iff.2 ⟨rs, he, rfl⟩) ?_ ?_
      · rw [hlines, List.forall₂_map_right_iff]
        refine hall.imp fun s r hs => ⟨.ofResult r, ?_, Value.text_ofResult r⟩
        exact Node.eval_statement_ofResult_iff.2 hs
      · rw [hlines]
        rfl

/-- The program, its statements, the nodes inside of them and the lines of output all tell of the
same results and the same errors. -/
theorem results_agree : (∀ p : Program, p.ByStatement) ∧ (∀ s : Statement, s.ByContents) ∧
    ∀ text, Printed text ((Mode.output text .results).result.mapError Error.message) :=
  ⟨Program.byStatement, Statement.byContents, printed_output⟩

end Reckoner
