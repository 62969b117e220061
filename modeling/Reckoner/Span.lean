/-!
# Spans

Where something stands in a text. Offsets count characters, whatever their encoded width.
-/

namespace Reckoner

/-- The half-open range of characters from offset `start` up to offset `stop`. -/
structure Span where
  start : Nat
  stop : Nat
deriving DecidableEq, Inhabited, Repr

namespace Span

/-- The span of nothing at the front of a text, which also stands for "nowhere". -/
def nowhere : Span := ⟨0, 0⟩

/-- The span of no character at `offset`. -/
def emptyAt (offset : Nat) : Span := ⟨offset, offset⟩

/-- How many characters the span covers; none if it runs backwards. -/
def length (s : Span) : Nat := s.stop - s.start

/-- Whether the span covers no character. -/
def isEmpty (s : Span) : Bool := s.stop ≤ s.start

/-- Whether `t` lies entirely within `s`. -/
def contains (s t : Span) : Bool := s.start ≤ t.start && t.stop ≤ s.stop

/-- The written form, `start..stop`. -/
def text (s : Span) : String := s!"{s.start}..{s.stop}"

theorem isEmpty_iff_length_eq_zero (s : Span) : s.isEmpty ↔ s.length = 0 := by
  simp [isEmpty, length]; omega

theorem contains_iff (s t : Span) : s.contains t ↔ s.start ≤ t.start ∧ t.stop ≤ s.stop := by
  simp [contains]

end Span

end Reckoner
