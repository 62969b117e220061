import Reckoner.Proofs.Excerpt
import Reckoner.Proofs.Results

/-!
# Statements by their semicolons

Every semicolon closes a statement, whether it has a character or is supplied: of the tokens that have
come since the last one it makes an expression, and of none an empty statement (`Statement.ClosedBy`).
So semicolons, statements and results are numbered alike (`Program.BySemicolons`).
-/

namespace Reckoner
open Grammar

/-- How many semicolons there are. -/
def semicolons (ts : List Token) : Nat := ts.countP (·.kind = .semicolon)

/-- A statement starts behind the tokens: there are none, or the last one is a semicolon. -/
def Fresh (ts : List Token) : Prop := ∀ t ∈ ts.getLast?, t.kind = .semicolon

/-- The statement that the semicolon `t` closes when the tokens before it are `ts`. -/
inductive Statement.ClosedBy (t : Token) : List Token → Statement → Prop
  | empty {ts : List Token} (h : Fresh ts) : ClosedBy t ts (.empty t.span)
  | expression {ts us : List Token} {u : Token} {e : Expr} (h : Fresh ts)
    (hu : ∀ v ∈ u :: us, v.kind ≠ .semicolon) :
    ClosedBy t (ts ++ u :: us) (.expression e ⟨u.span.start, t.span.stop⟩)

/-- Semicolons, statements and results of the text, of which the program was read, go together. -/
structure Program.BySemicolons (text : String) (p : Program) : Prop where
  length : p.body.length = semicolons (tokenize text)
  /-- the semicolon with `i` of them before it closes the statement with `i` of them before it -/
  closed : ∀ ts t us, tokenize text = ts ++ t :: us → t.kind = .semicolon →
    ∃ s, p.body[semicolons ts]? = some s ∧ s.ClosedBy t ts ∧ s.span.stop = t.span.stop ∧
      ((∃ sp, s = .empty sp) ↔ Fresh ts)
  results : ∀ rs, p.eval = .ok rs → (run text).result = .ok rs ∧
    rs.length = semicolons (tokenize text) ∧
    ∀ i : Nat, rs[i]? = some none ↔ ∃ sp, p.body[i]? = some (.empty sp)

section
variable {t u : Token} {ts us vs : List Token} {s : Statement}

theorem semicolons_append (ts us : List Token) :
    semicolons (ts ++ us) = semicolons ts + semicolons us :=
  List.countP_append

theorem semicolons_eq_zero (h : ∀ t ∈ ts, t.kind ≠ .semicolon) : semicolons ts = 0 := by
  rw [semicolons, List.countP_eq_zero]
  intro t ht
  simpa using h t ht

theorem semicolons_cons (h : t.kind = .semicolon) : semicolons (t :: ts) = semicolons ts + 1 :=
  List.countP_cons_of_pos (by simpa using h)

/-- Tokens up to a semicolon make no difference to whether a statement starts. -/
theorem Fresh.behind (h : Fresh ts) (ht : t.kind = .semicolon) (us : List Token) :
    Fresh (us ++ t :: ts) := by
  intro v hv
  rw [List.getLast?_append, List.getLast?_cons] at hv
  cases hlast : ts.getLast? with
  | none =>
    rw [hlast] at hv
    cases hv
    exact ht
  | some w =>
    rw [hlast] at hv
    cases hv
    exact h w hlast

theorem not_fresh_append (h : ∀ v ∈ u :: us, v.kind ≠ .semicolon) (ts : List Token) :
    ¬ Fresh (ts ++ u :: us) := by
  intro hf
  have hlast : (ts ++ u :: us).getLast? = some ((u :: us).getLast (List.cons_ne_nil u us)) := by
    rw [List.getLast?_append, List.getLast?_eq_some_getLast (List.cons_ne_nil u us)]
    rfl
  exact h _ (List.getLast_mem _) (hf _ hlast)

namespace Statement.ClosedBy

theorem behind (h : ClosedBy t ts s) (hu : u.kind = .semicolon) (us : List Token) :
    ClosedBy t (us ++ u :: ts) s := by
  cases h with
  | empty h => exact .empty (h.behind hu us)
  | @expression ts vs v e h hv =>
    rw [← List.cons_append, ← List.append_assoc]
    exact .expression (h.behind hu us) hv

theorem stop_eq (h : ClosedBy t ts s) : s.span.stop = t.span.stop := by
  cases h <;> rfl

theorem exists_eq_empty_iff (h : ClosedBy t ts s) : (∃ sp, s = .empty sp) ↔ Fresh ts := by
  cases h with
  | empty h => exact ⟨fun _ => h, fun _ => ⟨_, rfl⟩⟩
  | expression _ hu => exact ⟨nofun, fun hf => absurd hf (not_fresh_append hu _)⟩

end Statement.ClosedBy

/-! ### Statement by statement -/

/-- The tokens of a statement are those of an expression or none, and a semicolon. -/
theorem Grammar.ReadsStatement.exists_closedBy (h : ReadsStatement .located vs s) :
    ∃ us u, vs = us ++ [u] ∧ u.kind = .semicolon ∧ (∀ v ∈ us, v.kind ≠ .semicolon) ∧
      s.ClosedBy u us := by
  cases h with
  | @empty u hu => exact ⟨[], u, rfl, hu, nofun, .empty nofun⟩
  | @expression u us e he hu =>
    have hus := he.kind_ne_semicolon
    refine ⟨us, u, rfl, hu, hus, ?_⟩
    obtain ⟨v, us, rfl⟩ := List.exists_cons_of_ne_nil he.ne_nil
    have hstop : (Span.hull (v :: us ++ [u])).stop = u.span.stop := Span.stop_hull_concat
    have hspan : Span.hull (v :: us ++ [u]) = ⟨v.span.start, u.span.stop⟩ :=
      congrArg (Span.mk v.span.start) hstop
    rw [hspan]
    have hfresh : Fresh [] := nofun
    exact .expression hfresh hus

variable {tss : List (List Token)} {ss : List Statement}

theorem length_eq_semicolons (h : List.Forall₂ (ReadsStatement .located) tss ss) :
    ss.length = semicolons tss.flatten := by
  induction h with
  | nil => rfl
  | cons hs _ ih =>
    obtain ⟨us, u, rfl, hu, hus, -⟩ := hs.exists_closedBy
    rw [List.flatten_cons, semicolons_append, semicolons_append, semicolons_eq_zero hus,
      semicolons_cons hu, List.length_cons, ih]
    simp [semicolons, Nat.add_comm]

/-- A semicolon is the first one, or it comes behind the first one. -/
theorem eq_or_exists_behind {ws : List Token} (hws : ∀ v ∈ ws, v.kind ≠ .semicolon)
    (ht : t.kind = .semicolon) (h : ws ++ u :: vs = ts ++ t :: us) :
    ts = ws ∧ t = u ∨ ∃ xs, ts = ws ++ u :: xs ∧ vs = xs ++ t :: us := by
  induction ws generalizing ts with
  | nil =>
    rcases ts with _ | ⟨x, ts⟩
    · exact .inl ⟨rfl, (List.cons.inj h).1.symm⟩
    · obtain ⟨rfl, hvs⟩ := List.cons.inj h
      exact .inr ⟨ts, rfl, hvs⟩
  | cons w ws ih =>
    obtain ⟨hw, hws⟩ := List.forall_mem_cons.1 hws
    rcases ts with _ | ⟨x, ts⟩
    · exact absurd ((List.cons.inj h).1 ▸ ht) hw
    · obtain ⟨rfl, hrest⟩ := List.cons.inj h
      rcases ih hws hrest with ⟨rfl, rfl⟩ | ⟨xs, rfl, hvs⟩
      · exact .inl ⟨rfl, rfl⟩
      · exact .inr ⟨xs, rfl, hvs⟩

/-- The first semicolon closes the first statement, and the next ones what comes behind it. -/
theorem exists_closedBy (h : List.Forall₂ (ReadsStatement .located) tss ss)
    (hts : tss.flatten = ts ++ t :: us) (ht : t.kind = .semicolon) :
    ∃ s, ss[semicolons ts]? = some s ∧ s.ClosedBy t ts := by
  induction h generalizing ts with
  | nil => simp at hts
  | @cons vs s tss ss hs _ ih =>
    obtain ⟨ws, w, rfl, hw, hws, hclosed⟩ := hs.exists_closedBy
    rw [List.flatten_cons, List.append_assoc] at hts
    rcases eq_or_exists_behind hws ht hts with ⟨rfl, rfl⟩ | ⟨xs, rfl, hxs⟩
    · rw [semicolons_eq_zero hws]
      exact ⟨s, rfl, hclosed⟩
    · obtain ⟨s', hs', hclosed'⟩ := ih hxs
      refine ⟨s', ?_, hclosed'.behind hw ws⟩
      rw [semicolons_append, semicolons_eq_zero hws, semicolons_cons hw, Nat.zero_add,
        List.getElem?_cons_succ, hs']

end

/-! ### Results -/

theorem Statement.eval_eq_none_iff {s : Statement} :
    s.eval = .ok none ↔ ∃ sp, s = .empty sp := by
  cases s with
  | empty sp => exact ⟨fun _ => ⟨sp, rfl⟩, fun _ => rfl⟩
  | expression e sp =>
    refine ⟨fun h => ?_, nofun⟩
    rw [eval] at h
    cases he : e.eval <;> rw [he] at h <;> cases h

theorem getElem?_eq_none_iff_of_mapM {ss : List Statement} {rs : List (Option Float)}
    (h : ss.mapM Statement.eval = .ok rs) (i : Nat) :
    rs[i]? = some none ↔ ∃ sp, ss[i]? = some (.empty sp) := by
  have hall := mapM_eq_ok_iff.1 h
  clear h
  induction hall generalizing i with
  | nil => simp
  | @cons s v ss rs hs _ ih =>
    cases i with
    | zero =>
      rw [List.getElem?_cons_zero, List.getElem?_cons_zero]
      constructor
      · intro hv
        cases hv
        obtain ⟨sp, rfl⟩ := Statement.eval_eq_none_iff.1 hs
        exact ⟨sp, rfl⟩
      · rintro ⟨sp, hsp⟩
        cases hsp
        cases hs
        rfl
    | succ i => exact ih i

/-- Every semicolon closes a statement, and every statement has a result. -/
theorem Program.bySemicolons_of_parse {text : String} {p : Program}
    (h : parse .located text = .ok p) : p.BySemicolons text := by
  obtain ⟨tss, ss, htok, -, hall, rfl⟩ := parse_eq_ok_iff.1 h
  have hlen : ss.length = semicolons (tokenize text) := by
    rw [htok, length_eq_semicolons hall]
  refine ⟨hlen, fun ts t us hts ht => ?_, fun rs hrs => ⟨?_, ?_, getElem?_eq_none_iff_of_mapM hrs⟩⟩
  · obtain ⟨s, hs, hclosed⟩ := exists_closedBy hall (htok.symm.trans hts) ht
    exact ⟨s, hs, hclosed, hclosed.stop_eq, hclosed.exists_eq_empty_iff⟩
  · exact run_eq_ok_iff.2 ⟨_, h, hrs⟩
  · have hall' : List.Forall₂ (fun s v => s.eval = .ok v) ss rs := mapM_eq_ok_iff.1 hrs
    rw [← hall'.length_eq, hlen]

/-- Semicolons at the front and one behind the other; the last one is supplied, for that in the
comment is none. -/
theorem Program.bySemicolons_sums : ∃ p, parse .located ";1+2;;(3) //;" = .ok p ∧
    p.BySemicolons ";1+2;;(3) //;" := by
  have hok : (parse .located ";1+2;;(3) //;").toBool := by decide +kernel
  cases h : parse .located ";1+2;;(3) //;" with
  | error e => rw [h] at hok; cases hok
  | ok p => exact ⟨p, rfl, bySemicolons_of_parse h⟩

end Reckoner
