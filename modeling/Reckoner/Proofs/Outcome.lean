import Mathlib.Data.List.Basic
import Reckoner.Grammar.Program

/-!
# Outcomes of reading

A phrase returns a cursor together with a bound on the tokens it has left, which reading needs to
end. Here the bound is dropped: an `Outcome` is a result and a plain cursor. `Cursor.past` is the
cursor behind a run of tokens, and `Span.hull` is where such a run stands.
-/

namespace Reckoner

/-- Where a run of tokens stands: from the start of the first to the end of the last. -/
def Span.hull (ts : List Token) : Span :=
  ⟨(ts.head?.map (·.span.start)).getD 0, (ts.getLast?.map (·.span.stop)).getD 0⟩

namespace Span
variable {t : Token} {ts us : List Token}

@[simp] theorem start_hull_cons : (hull (t :: ts)).start = t.span.start := rfl

@[simp] theorem stop_hull_concat : (hull (ts ++ [t])).stop = t.span.stop := by simp [hull]

theorem start_hull_append (h : ts ≠ []) (us : List Token) :
    (hull (ts ++ us)).start = (hull ts).start := by
  obtain ⟨t, ts, rfl⟩ := List.exists_cons_of_ne_nil h
  rfl

theorem stop_hull_append (ts : List Token) (h : us ≠ []) :
    (hull (ts ++ us)).stop = (hull us).stop := by
  obtain ⟨us, t, rfl⟩ := us.eq_nil_or_concat'.resolve_left h
  rw [← List.append_assoc, stop_hull_concat, stop_hull_concat]

theorem hull_append_cons (ht : ts ≠ []) (hu : us ≠ []) :
    hull (ts ++ t :: us) = ⟨(hull ts).start, (hull us).stop⟩ := by
  rw [← start_hull_append ht (t :: us), ← stop_hull_append (ts ++ [t]) hu, List.append_assoc]
  rfl

end Span

/-- The outcome of reading something: it, and the cursor behind it. -/
abbrev Outcome (α : Type) := Except Failure (α × Cursor)

namespace Outcome
variable {α β : Type} {P Q : Cursor → Prop}

/-- The outcome without the bound on the cursor. -/
def of (x : Except Failure (α × { d : Cursor // P d })) : Outcome α := x.map fun r => (r.1, r.2.1)

theorem of_bind {x : Except Failure (α × { d : Cursor // P d })}
    {f : α × { d : Cursor // P d } → Except Failure (β × { d : Cursor // Q d })}
    {g : α × Cursor → Outcome β} (h : ∀ a d, of (f (a, d)) = g (a, d.1)) :
    of (x >>= f) = (of x).bind g := by
  cases x with
  | error e => rfl
  | ok r => exact h r.1 r.2

theorem of_rebound {x : Except Failure (α × { d : Cursor // P d })}
    (h : ∀ r : α × { d : Cursor // P d }, Q r.2.1) :
    of (x >>= fun r => (pure (r.1, ⟨r.2.1, h r⟩) : Except Failure (α × { d : Cursor // Q d }))) =
      of x := by
  cases x with
  | error e => rfl
  | ok r => rfl

/-- The cursor of an outcome is within the bound that was dropped. -/
theorem bound_of_ok {x : Except Failure (α × { d : Cursor // P d })} {a : α} {d : Cursor}
    (h : of x = .ok (a, d)) : P d := by
  cases x with
  | error e => cases h
  | ok r => cases h; exact r.2.2

theorem bind_eq_ok {x : Outcome α} {g : α × Cursor → Outcome β} {r : β × Cursor} :
    x.bind g = .ok r ↔ ∃ a d, x = .ok (a, d) ∧ g (a, d) = .ok r := by
  cases x with
  | error e => simp [Except.bind]
  | ok s => exact ⟨fun h => ⟨s.1, s.2, rfl, h⟩, fun ⟨_, _, hs, h⟩ => by cases hs; exact h⟩

theorem bind_eq_error {x : Outcome α} {g : α × Cursor → Outcome β} {f : Failure} :
    x.bind g = .error f ↔ x = .error f ∨ ∃ a d, x = .ok (a, d) ∧ g (a, d) = .error f := by
  cases x with
  | error e => simp [Except.bind]
  | ok s =>
    refine ⟨fun h => .inr ⟨s.1, s.2, rfl, h⟩, ?_⟩
    rintro (h | ⟨a, d, hs, h⟩)
    · cases h
    · cases hs; exact h

@[simp] theorem ok_bind {a : α} {d : Cursor} {g : α × Cursor → Outcome β} :
    Except.bind (.ok (a, d)) g = g (a, d) := rfl

@[simp] theorem error_bind {f : Failure} {g : α × Cursor → Outcome β} :
    Except.bind (.error f) g = .error f := rfl

end Outcome

namespace Cursor
variable {c : Cursor} {t : Token} {ts us rest : List Token}

/-- The cursor behind the tokens `ts`, which come next. -/
def past (c : Cursor) : List Token → Cursor
  | [] => c
  | t :: ts => (c.look.advance t c.tokens.tail).past ts

/-- The failure where a token is needed and none is left. -/
def ended (c : Cursor) : Failure := ⟨.unexpectedEnd c.lastEnd, c.look⟩

@[simp] theorem ended_look : c.look.ended = c.ended := by simp [ended, look_look]

@[simp] theorem look_look_eq : c.look.look = c.look := look_look c

@[simp] theorem past_look_cons : c.look.past (t :: ts) = c.past (t :: ts) := by simp [past]

theorem past_append (c : Cursor) (ts us : List Token) : c.past (ts ++ us) = (c.past ts).past us := by
  induction ts generalizing c with
  | nil => rfl
  | cons t ts ih => exact ih _

theorem tokens_past (h : c.tokens = ts ++ rest) : (c.past ts).tokens = rest := by
  induction ts generalizing c with
  | nil => exact h
  | cons t ts ih => exact ih (by simp [advance, h])

theorem tokens_past_singleton (h : c.tokens = t :: rest) : (c.past [t]).tokens = rest := by
  simp [past, advance, h]

theorem lastEnd_past_concat (c : Cursor) (ts : List Token) (t : Token) :
    (c.past (ts ++ [t])).lastEnd = t.span.stop := by
  rw [past_append]; rfl

theorem lastEnd_past (h : ts ≠ []) : (c.past ts).lastEnd = (Span.hull ts).stop := by
  obtain ⟨ts, t, rfl⟩ := ts.eq_nil_or_concat'.resolve_left h
  rw [lastEnd_past_concat, Span.stop_hull_concat]

theorem ahead_nil (h : c.tokens = []) : c.ahead = .error c.ended := by
  rw [ahead, h]; rfl

theorem ahead_cons (h : c.tokens = t :: rest) : c.ahead = .ok t := by
  rw [ahead, h]

theorem take_nil (k : Kind) (h : c.tokens = []) : Outcome.of (c.take k) = .error c.ended := by
  unfold take
  split
  · rfl
  · next h' => rw [h] at h'; cases h'

theorem take_cons (k : Kind) (h : c.tokens = t :: rest) :
    Outcome.of (c.take k) = if t.kind = k then .ok (t, c.past [t])
      else .error ⟨.unexpectedToken t.kind k t.span, c.look⟩ := by
  unfold take
  split
  · simp_all
  · next t' rest' h' =>
    obtain ⟨rfl, rfl⟩ : t' = t ∧ rest' = rest := by simpa [h] using h'.symm
    split
    · simp [Outcome.of, Except.map, past, h]
    · rfl

end Cursor

end Reckoner
