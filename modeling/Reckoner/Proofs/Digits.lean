import Mathlib.Data.List.Basic
import Reckoner.Decimal.Layout

/-!
# The characters of a written float

A float is written with digits and four marks, unless it is an infinity or a NaN and has a word of
its own. So what holds of the digits, of the marks and of the words holds of all that is written
(`Layout.forall_mem_write`), and something always is (`Layout.write_ne_empty`).
-/

namespace Reckoner.Decimal

/-- The characters of a numeral that are no digits. -/
def marks : List Char := ['-', '+', '.', 'e']

section
variable {P : Char → Prop} (hdigit : ∀ c, c.isDigit → P c) (hmark : ∀ c ∈ marks, P c)
include hdigit

theorem forall_mem_digits (n : Nat) : ∀ c ∈ digits n, P c := fun c hc =>
  hdigit c (Nat.isDigit_of_mem_toDigits (by decide) (by decide) hc)

theorem forall_mem_zeros (n : Nat) : ∀ c ∈ List.replicate n '0', P c := fun c hc => by
  rw [List.eq_of_mem_replicate hc]
  exact hdigit '0' rfl

include hmark

theorem Numeral.forall_mem_inPlace (fraction : Bool) (d : Numeral) :
    ∀ c ∈ d.inPlace fraction, P c := by
  have hds := forall_mem_digits hdigit d.coefficient
  have hpoint : P '.' := hmark '.' (by decide)
  have hzero : P '0' := hdigit '0' rfl
  unfold inPlace
  dsimp only
  split
  · refine List.forall_mem_append.2 ⟨List.forall_mem_append.2 ⟨hds, forall_mem_zeros hdigit _⟩, ?_⟩
    split
    · simp [hpoint, hzero]
    · simp
  split
  · refine List.forall_mem_append.2 ⟨fun c hc => hds c (List.mem_of_mem_take hc), ?_⟩
    exact List.forall_mem_cons.2 ⟨hpoint, fun c hc => hds c (List.mem_of_mem_drop hc)⟩
  · refine List.forall_mem_cons.2 ⟨hzero, List.forall_mem_cons.2 ⟨hpoint, ?_⟩⟩
    exact List.forall_mem_append.2 ⟨forall_mem_zeros hdigit _, hds⟩

theorem forall_mem_exponent (plus : Bool) (e : Int) : ∀ c ∈ exponent plus e, P c := by
  have hds := forall_mem_digits hdigit e.natAbs
  unfold exponent
  split
  · exact List.forall_mem_cons.2 ⟨hmark '-' (by decide), hds⟩
  split
  · exact List.forall_mem_cons.2 ⟨hmark '+' (by decide), hds⟩
  · exact hds

theorem Numeral.forall_mem_scientific (plus : Bool) (d : Numeral) :
    ∀ c ∈ d.scientific plus, P c := by
  have hds := forall_mem_digits hdigit d.coefficient
  unfold scientific
  dsimp only
  refine List.forall_mem_append.2 ⟨?_, List.forall_mem_cons.2 ⟨hmark 'e' (by decide), ?_⟩⟩
  · split
    · simp
    · next c h => rwa [h] at hds
    · next c cs _ h =>
      obtain ⟨hc, hcs⟩ := List.forall_mem_cons.1 (h ▸ hds)
      exact List.forall_mem_cons.2 ⟨hc, List.forall_mem_cons.2 ⟨hmark '.' (by decide), hcs⟩⟩
  · exact forall_mem_exponent hdigit hmark plus d.leading

theorem Layout.forall_mem_numeral (l : Layout) (d : Numeral) : ∀ c ∈ l.numeral d, P c := by
  unfold numeral
  split
  · exact d.forall_mem_inPlace hdigit hmark l.fraction
  · exact d.forall_mem_scientific hdigit hmark l.plus

theorem Layout.forall_mem_write {l : Layout} (hinfinity : ∀ c ∈ l.infinity.toList, P c)
    (hminus : ∀ c ∈ l.minusInfinity.toList, P c) (hnan : ∀ c ∈ l.nan.toList, P c) (x : Float) :
    ∀ c ∈ (l.write x).toList, P c := by
  unfold write
  dsimp only
  split
  · exact hnan
  split
  · split
    · exact hminus
    · exact hinfinity
  rw [String.toList_ofList]
  split
  · exact List.forall_mem_cons.2 ⟨hmark '-' (by decide), l.forall_mem_numeral hdigit hmark _⟩
  · exact l.forall_mem_numeral hdigit hmark _

end

theorem Layout.numeral_ne_nil (l : Layout) (d : Numeral) : l.numeral d ≠ [] := by
  have hds : digits d.coefficient ≠ [] := Nat.toDigits_ne_nil
  unfold numeral
  split
  · unfold Numeral.inPlace
    dsimp only
    split
    · simp [hds]
    · split <;> simp
  · simp [Numeral.scientific]

theorem Layout.write_ne_empty {l : Layout} (hinfinity : l.infinity ≠ "")
    (hminus : l.minusInfinity ≠ "") (hnan : l.nan ≠ "") (x : Float) : l.write x ≠ "" := by
  unfold write
  dsimp only
  split
  · exact hnan
  split
  · split
    · exact hminus
    · exact hinfinity
  intro h
  have htoList := congrArg String.toList h
  rw [String.toList_ofList, String.toList_empty] at htoList
  split at htoList
  · cases htoList
  · exact l.numeral_ne_nil _ htoList

end Reckoner.Decimal
