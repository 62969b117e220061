import Mathlib.Data.List.MinMax
import Mathlib.Data.Nat.Find
import Reckoner.Proofs.Gap

/-!
# Patterns

The pieces of a text as eight patterns say what they are. Of the patterns that match the front of a
text there are two ways to choose one: the first as they are declared, or the one that matches most.
A slash is the only front that two patterns share, and the comment is both the first and the longer
of them (`eq_or_slashes`). So both ways choose the same pattern, the one whose piece `Piece.first?`
takes off (`choose?_of_first?`).
-/

namespace Reckoner
open Text

inductive Pattern where
  | blanks
  | comment
  | semicolon
  | opening
  | closing
  | digits
  | additive
  | multiplicative
deriving DecidableEq, Repr

namespace Pattern

/-- The patterns in the order of their declaration. -/
def all : List Pattern :=
  [.blanks, .comment, .semicolon, .opening, .closing, .digits, .additive, .multiplicative]

def kind : Pattern → Kind
  | blanks | comment => .blank
  | semicolon => .semicolon
  | opening => .opening
  | closing => .closing
  | digits => .number
  | additive => .additive
  | multiplicative => .multiplicative

/-- What the characters are that the pattern begins with. -/
def lead : Pattern → List (Char → Bool)
  | blanks => [isBlank]
  | comment => [(· == '/'), (· == '/')]
  | semicolon => [(· == ';')]
  | opening => [(· == '(')]
  | closing => [(· == ')')]
  | digits => [Char.isDigit]
  | additive => [fun c => c == '+' || c == '-']
  | multiplicative => [fun c => c == '*' || c == '/']

/-- What the characters are that may follow, any number of them. -/
def more : Pattern → Char → Bool
  | blanks => isBlank
  | comment => (!isLineBreak ·)
  | digits => Char.isDigit
  | _ => fun _ => false

/-- Whether the characters are as in `lead`, and those that follow as in `more`. -/
def fits (more : Char → Bool) : List (Char → Bool) → List Char → Bool
  | [], w => w.all more
  | _ :: _, [] => false
  | q :: lead, c :: w => q c && fits more lead w

/-- Whether the pattern matches `w` as a whole. -/
def accepts (p : Pattern) (w : List Char) : Bool := fits p.more p.lead w

/-- How many characters of the text `cs` the pattern matches at most, from its front. -/
def extent (p : Pattern) (cs : List Char) : Nat :=
  Nat.findGreatest (fun n => p.accepts (cs.take n)) cs.length

inductive Preference where
  | order
  | length
deriving DecidableEq, Repr

/-- The pattern that is preferred among those that match the front of the text. -/
def choose? : Preference → List Char → Option Pattern
  | .order, cs => all.find? fun p => 0 < p.extent cs
  | .length, cs => (all.argmax (extent · cs)).filter fun p => 0 < p.extent cs

variable {p q : Pattern} {c : Char} {cs v w rest : List Char}

theorem mem_all (p : Pattern) : p ∈ all := by cases p <;> decide

/-! ### How far a pattern matches -/

theorem more_of_fits_append {more : Char → Bool} {lead : List (Char → Bool)}
    (hw : fits more lead w) (h : fits more lead (w ++ c :: rest)) : more c := by
  induction lead generalizing w with
  | nil => exact List.all_eq_true.1 h c (by simp)
  | cons q lead ih =>
    cases w with
    | nil => cases hw
    | cons d w =>
      simp only [fits, List.cons_append, Bool.and_eq_true] at hw h
      exact ih hw.2 h.2

/-- A pattern that matches `w` matches no more where what follows does not go on it. -/
theorem extent_append (hw : p.accepts w) (he : ∀ c ∈ rest.head?, ¬ p.more c) :
    p.extent (w ++ rest) = w.length := by
  refine Nat.findGreatest_eq_iff.2 ⟨by simp, fun _ => by rwa [List.take_left], fun n hn hle h => ?_⟩
  -- a longer match would take in the character behind `w`
  obtain ⟨k, rfl⟩ : ∃ k, n = w.length + (k + 1) := ⟨n - w.length - 1, by omega⟩
  rw [List.take_length_add_append] at h
  cases rest with
  | nil => simp only [List.append_nil] at hle; omega
  | cons c rest => exact he c rfl (more_of_fits_append hw h)

theorem accepts_take_extent (h : 0 < p.extent cs) : p.accepts (cs.take (p.extent cs)) := by
  have hn : p.extent cs ≠ 0 := by omega
  exact Nat.findGreatest_of_ne_zero (P := fun n => p.accepts (cs.take n)) rfl hn

/-! ### Which patterns match at once -/

def begins (p : Pattern) (c : Char) : Bool := p.lead.head?.any (· c)

theorem exists_begins (h : p.accepts w) : ∃ c w', w = c :: w' ∧ p.begins c := by
  cases w with
  | nil => cases p <;> cases h
  | cons c w =>
    refine ⟨c, w, rfl, ?_⟩
    cases p <;> simp_all [accepts, fits, lead, begins]

theorem eq_blanks (h : p.begins c) (hc : isBlank c) : p = .blanks := by
  cases p with
  | blanks => rfl
  | digits =>
    have hd : c.isDigit := h
    rw [Piece.isBlank_of_isDigit hd] at hc
    cases hc
  | _ =>
    simp only [begins, lead, List.head?_cons, Option.any_some, Bool.or_eq_true, beq_iff_eq] at h
    rcases h with rfl | rfl <;> revert hc <;> decide

theorem eq_digits (h : p.begins c) (hc : c.isDigit) : p = .digits := by
  cases p with
  | digits => rfl
  | blanks =>
    have hb : isBlank c := h
    rw [Piece.isBlank_of_isDigit hc] at hb
    cases hb
  | _ =>
    simp only [begins, lead, List.head?_cons, Option.any_some, Bool.or_eq_true, beq_iff_eq] at h
    rcases h with rfl | rfl <;> revert hc <;> decide

theorem eq_or_slashes_of_begins (hp : p.begins c) (hq : q.begins c) :
    p = q ∨ (p = .comment ∧ q = .multiplicative) ∨ (p = .multiplicative ∧ q = .comment) := by
  cases p with
  | blanks => exact .inl (eq_blanks hq hp).symm
  | digits => exact .inl (eq_digits hq hp).symm
  | _ =>
    simp only [begins, lead, List.head?_cons, Option.any_some, Bool.or_eq_true, beq_iff_eq] at hp
    rcases hp with rfl | rfl <;> revert hq <;> cases q <;> decide

theorem eq_or_slashes (hp : 0 < p.extent cs) (hq : 0 < q.extent cs) :
    p = q ∨ (p = .comment ∧ q = .multiplicative) ∨ (p = .multiplicative ∧ q = .comment) := by
  obtain ⟨c, v, hv, hpc⟩ := exists_begins (accepts_take_extent hp)
  obtain ⟨d, w, hw, hqd⟩ := exists_begins (accepts_take_extent hq)
  cases cs with
  | nil => simp at hv
  | cons e cs =>
    rw [List.take_cons hp] at hv
    rw [List.take_cons hq] at hw
    obtain ⟨rfl, -⟩ := List.cons.inj hv
    obtain ⟨rfl, -⟩ := List.cons.inj hw
    exact eq_or_slashes_of_begins hpc hqd

theorem exists_slashes (h : accepts .comment w) : ∃ ds, w = '/' :: '/' :: ds := by
  match w, h with
  | [], h => cases h
  | [c], h => simp [accepts, fits, lead] at h
  | c :: d :: ds, h =>
    simp only [accepts, fits, lead, Bool.and_eq_true, beq_iff_eq] at h
    obtain ⟨rfl, rfl, -⟩ := h
    exact ⟨ds, rfl⟩

theorem length_of_accepts_multiplicative (h : accepts .multiplicative w) : w.length = 1 := by
  match w, h with
  | [], h => cases h
  | [c], _ => rfl
  | c :: d :: ds, h => simp [accepts, fits, lead, more] at h

theorem length_take_extent : (cs.take (p.extent cs)).length = p.extent cs :=
  List.length_take_of_le (Nat.findGreatest_le _)

theorem extent_multiplicative_lt (h : 0 < extent .comment cs) :
    extent .multiplicative cs < extent .comment cs := by
  have hc : 2 ≤ extent .comment cs := by
    obtain ⟨ds, hds⟩ := exists_slashes (accepts_take_extent h)
    rw [← length_take_extent, hds, List.length_cons, List.length_cons]
    omega
  by_cases hm : 0 < extent .multiplicative cs
  · have hone := length_of_accepts_multiplicative (accepts_take_extent hm)
    rw [length_take_extent] at hone
    omega
  · omega

/-! ### Both ways choose the piece at the front -/

/-- What stands before a pattern in the order of declaration is another one, and it is not the
operator that is behind the comment. -/
theorem of_mem_before (h : p ∈ all.takeWhile (· ≠ q)) :
    p ≠ q ∧ ¬ (p = .multiplicative ∧ q = .comment) := by
  revert h; cases q <;> cases p <;> decide

theorem all_eq (q : Pattern) :
    all = all.takeWhile (· ≠ q) ++ q :: (all.dropWhile (· ≠ q)).tail := by
  cases q <;> rfl

theorem choose?_eq_some (pref : Preference) (hq : 0 < q.extent cs)
    (h : ∀ p : Pattern, 0 < p.extent cs → p = q ∨ (p = .multiplicative ∧ q = .comment)) :
    choose? pref cs = some q := by
  cases pref with
  | order =>
    refine List.find?_eq_some_iff_append.2 ⟨by simpa using hq, _, _, all_eq q, fun p hp => ?_⟩
    obtain ⟨hne, hnc⟩ := of_mem_before hp
    have := fun hpos => (h p hpos).elim hne hnc
    simpa using this
  | length =>
    have hlt : ∀ p, p ≠ q → p.extent cs < q.extent cs := by
      intro p hne
      by_cases hp : 0 < p.extent cs
      · obtain ⟨rfl, rfl⟩ := (h p hp).resolve_left hne
        exact extent_multiplicative_lt hq
      · omega
    have hmax : all.argmax (extent · cs) = some q := by
      refine List.argmax_eq_some_iff.2 ⟨mem_all q, fun p _ => ?_, fun p _ hle => ?_⟩
      · by_cases hp : p = q
        · rw [hp]
        · exact Nat.le_of_lt (hlt p hp)
      · by_cases hp : p = q
        · rw [hp]
        · exact absurd (hlt p hp) (Nat.not_lt.2 hle)
    rw [choose?, hmax]
    simp [hq]

theorem first?_ne_none (h : p.begins c) : Piece.first? (c :: cs) ≠ none := by
  intro hn
  simp only [Piece.first?] at hn
  repeat' split at hn
  all_goals try cases hn
  cases p <;> simp_all [begins, lead]

theorem exists_of_fits {k : Kind} (h : Piece.Fits rest k w) :
    ∃ q : Pattern, q.kind = k ∧ q.accepts w ∧ ∀ c ∈ rest.head?, ¬ q.more c := by
  cases h with
  | blanks hne hw he =>
    obtain ⟨c, w, rfl⟩ := List.exists_cons_of_ne_nil hne
    obtain ⟨hc, hw⟩ := List.forall_mem_cons.1 hw
    exact ⟨.blanks, rfl, Bool.and_eq_true_iff.2 ⟨hc, List.all_eq_true.2 hw⟩, he⟩
  | comment hds he =>
    refine ⟨.comment, rfl, ?_, fun c hc => by simpa [more] using he c hc⟩
    simpa [accepts, fits, lead, more] using hds
  | word h he =>
    cases k with
    | blank => exact h.elim
    | number =>
      obtain ⟨hne, hd⟩ := h
      obtain ⟨c, w, rfl⟩ := List.exists_cons_of_ne_nil hne
      obtain ⟨hc, hd⟩ := List.forall_mem_cons.1 hd
      exact ⟨.digits, rfl, Bool.and_eq_true_iff.2 ⟨hc, List.all_eq_true.2 hd⟩,
        fun c hc => (he c hc).1 rfl⟩
    | semicolon => exact ⟨.semicolon, rfl, by rw [h]; rfl, fun _ _ => Bool.noConfusion⟩
    | opening => exact ⟨.opening, rfl, by rw [h]; rfl, fun _ _ => Bool.noConfusion⟩
    | closing => exact ⟨.closing, rfl, by rw [h]; rfl, fun _ _ => Bool.noConfusion⟩
    | additive =>
      exact ⟨.additive, rfl, by rcases h with rfl | rfl <;> rfl, fun _ _ => Bool.noConfusion⟩
    | multiplicative =>
      exact ⟨.multiplicative, rfl, by rcases h with rfl | rfl <;> rfl, fun _ _ => Bool.noConfusion⟩

/-- Whichever way is taken, the pattern that is chosen is that of the piece at the front. -/
theorem choose?_of_first? (pref : Preference) {p : Piece} (h : Piece.first? cs = some p) :
    ∃ q, choose? pref cs = some q ∧ q.kind = p.kind ∧ q.extent cs = p.lexeme.length := by
  obtain ⟨q, hk, hw, he⟩ := exists_of_fits (Piece.fits_of_first? h)
  have hext : q.extent cs = p.lexeme.length := by
    rw [← Piece.lexeme_append_rest h]
    exact extent_append hw he
  have hpos : 0 < q.extent cs := hext ▸ List.length_pos_iff.2 (Piece.lexeme_ne_nil h)
  refine ⟨q, choose?_eq_some pref hpos fun p' hp' => ?_, hk, hext⟩
  rcases eq_or_slashes hp' hpos with rfl | ⟨rfl, rfl⟩ | ⟨rfl, rfl⟩
  · exact .inl rfl
  · -- a comment at the front is no operator
    obtain ⟨ds, hds⟩ := exists_slashes (accepts_take_extent hp')
    have hblank : p.kind = .blank := by
      rw [← List.take_append_drop (extent .comment cs) cs, hds] at h
      simp [Piece.first?, isBlank, blankRanges] at h
      rw [← h]
      rfl
    rw [hblank] at hk
    cases hk
  · exact .inr ⟨rfl, rfl⟩

example : choose? .length ['/', '/', ';'] = some .comment ∧
    choose? .order ['/', ' ', '/'] = some .multiplicative := by decide

theorem choose?_eq_none (pref : Preference) (h : Piece.first? cs = none) :
    choose? pref cs = none := by
  have hnone : ∀ p : Pattern, p.extent cs = 0 := by
    intro p
    by_contra hne
    obtain ⟨c, v, hv, hpc⟩ := exists_begins (accepts_take_extent (Nat.pos_of_ne_zero hne))
    cases cs with
    | nil => simp at hv
    | cons d cs =>
      rw [List.take_cons (Nat.pos_of_ne_zero hne)] at hv
      obtain ⟨rfl, -⟩ := List.cons.inj hv
      exact first?_ne_none hpc h
  cases pref with
  | order => simp [choose?, hnone]
  | length => simp [choose?, hnone]

end Pattern
end Reckoner
