import Reckoner.Proofs.Gap

/-!
# Where a text is cut

A text is cut at its first stray character: one that no piece starts with and that is not in a
comment. Whether a character is stray can be told behind each piece of the text as well as in the
whole of it (`stray_add`), so the reader comes to the first one, or to the end of the text if there
is none (`Reader.drain_stray`).
-/

namespace Reckoner
open Text

/-- No piece of a text starts with the character. -/
def Foreign (c : Char) : Prop :=
  ¬ isBlank c ∧ ¬ c.isDigit ∧ c ∉ [';', '(', ')', '+', '-', '*', '/']

/-- The character at `i` is in a comment: two slashes stand there or before it, and there is no line
break from them up to it. -/
def InComment (cs : List Char) (i : Nat) : Prop :=
  ∃ j ≤ i, cs[j]? = some '/' ∧ cs[j + 1]? = some '/' ∧
    ∀ k, j ≤ k → k ≤ i → ∀ c ∈ cs[k]?, ¬ isLineBreak c

instance (cs : List Char) (i : Nat) : Decidable (InComment cs i) :=
  -- the one character at `k` is looked at, and not every character there is
  letI (k : Nat) : Decidable (∀ c ∈ cs[k]?, ¬ isLineBreak c) := Option.decidableForallMem _
  inferInstanceAs (Decidable (∃ j ≤ i, _))

/-- The character at `i` cuts the text, if none before it does. -/
def Stray (cs : List Char) (i : Nat) : Prop :=
  ∃ c ∈ cs[i]?, Foreign c ∧ ¬ InComment cs i

theorem Kind.Spells.not_foreign {k : Kind} {w : List Char} {c : Char} (h : k.Spells w)
    (hc : c ∈ w) : ¬ Foreign c := by
  rintro ⟨-, hd, hs⟩
  cases k with
  | blank => exact h
  | number => exact hd (h.2 c hc)
  | semicolon | opening | closing => subst h; simp_all
  | additive | multiplicative => rcases h with rfl | rfl <;> simp_all

theorem Piece.foreign_of_first?_eq_none {c : Char} {cs : List Char} (h : first? (c :: cs) = none) :
    Foreign c := by
  simp only [first?] at h
  split at h
  · cases h
  next hb =>
  split at h
  · cases h
  next hd =>
  refine ⟨hb, hd, fun hc => ?_⟩
  simp only [List.mem_cons, List.not_mem_nil, or_false] at hc
  rcases hc with rfl | rfl | rfl | rfl | rfl | rfl | rfl <;> simp at h
  split at h <;> cases h

section
variable {cs : List Char} {p : Piece} {i : Nat}

theorem getElem?_append_add (as bs : List Char) (i : Nat) : (as ++ bs)[as.length + i]? = bs[i]? := by
  rw [List.getElem?_append_right (Nat.le_add_right _ _), Nat.add_sub_cancel_left]

theorem inComment_add (hp : Piece.first? cs = some p) (hi : i < p.rest.length) :
    InComment cs (p.lexeme.length + i) ↔ InComment p.rest i := by
  rw [← Piece.lexeme_append_rest hp]
  constructor
  · rintro ⟨j, hj, h1, h2, h⟩
    by_cases hlt : j < p.lexeme.length
    · -- two slashes that start within the piece make a comment of it, and that ends with it
      rw [List.getElem?_append_left hlt] at h1
      have hmem : '/' ∈ p.lexeme := List.mem_of_getElem? h1
      obtain ⟨b, rest, hrest⟩ := List.exists_cons_of_length_pos (Nat.zero_lt_of_lt hi)
      exfalso
      by_cases hk : p.kind = .blank
      · rcases Piece.blank_of_first? hp hk with hb | ⟨ds, -, -, hb⟩
        · exact absurd (hb '/' hmem) (by decide)
        · refine h p.lexeme.length (by omega) (by omega) b ?_ (hb b ?_)
          · rw [← Nat.add_zero p.lexeme.length, getElem?_append_add, hrest]; rfl
          · rw [hrest]; rfl
      · have hw := (Piece.spells_of_first? hp hk).eq_slash hmem
        have hends := Piece.ends_of_first? hp hk
        rw [hw, hrest] at h2 hends
        have hj0 : j = 0 := by rw [hw] at hlt; simpa using hlt
        subst hj0
        exact (hends b rfl).2 rfl (by simpa using h2)
    · obtain ⟨j, rfl⟩ := Nat.exists_eq_add_of_le (Nat.not_lt.1 hlt)
      refine ⟨j, by omega, ?_, ?_, fun k hk hk' c hc => ?_⟩
      · rwa [getElem?_append_add] at h1
      · rwa [Nat.add_assoc, getElem?_append_add] at h2
      · refine h (p.lexeme.length + k) (by omega) (by omega) c ?_
        rwa [getElem?_append_add]
  · rintro ⟨j, hj, h1, h2, h⟩
    refine ⟨p.lexeme.length + j, by omega, ?_, ?_, fun k hk hk' c hc => ?_⟩
    · rwa [getElem?_append_add]
    · rwa [Nat.add_assoc, getElem?_append_add]
    · obtain ⟨k, rfl⟩ := Nat.exists_eq_add_of_le (Nat.le_of_add_right_le hk)
      rw [getElem?_append_add] at hc
      exact h k (by omega) (by omega) c hc

theorem stray_add (hp : Piece.first? cs = some p) :
    Stray cs (p.lexeme.length + i) ↔ Stray p.rest i := by
  have hget : cs[p.lexeme.length + i]? = p.rest[i]? := by
    rw [← Piece.lexeme_append_rest hp, getElem?_append_add]
  have hin : ∀ c ∈ p.rest[i]?, (InComment cs (p.lexeme.length + i) ↔ InComment p.rest i) :=
    fun c hc => inComment_add hp (List.getElem?_eq_some_iff.1 hc).1
  rw [Stray, Stray, hget]
  constructor <;> rintro ⟨c, hc, hf, hn⟩
  · exact ⟨c, hc, hf, fun h => hn ((hin c hc).2 h)⟩
  · exact ⟨c, hc, hf, fun h => hn ((hin c hc).1 h)⟩

theorem not_stray_of_lt (hp : Piece.first? cs = some p) (hi : i < p.lexeme.length) :
    ¬ Stray cs i := by
  rw [← Piece.lexeme_append_rest hp]
  rintro ⟨c, hc, hf, hn⟩
  rw [List.getElem?_append_left hi] at hc
  have hmem : c ∈ p.lexeme := List.mem_of_getElem? hc
  by_cases hk : p.kind = .blank
  · rcases Piece.blank_of_first? hp hk with hb | ⟨ds, hl, hds, -⟩
    · exact hf.1 (hb c hmem)
    · refine hn ⟨0, Nat.zero_le _, by rw [hl]; rfl, by rw [hl]; rfl, fun k _ hk d hd => ?_⟩
      rw [List.getElem?_append_left (by omega), hl] at hd
      rcases List.mem_cons.1 (List.mem_of_getElem? hd) with rfl | hd
      · decide
      rcases List.mem_cons.1 hd with rfl | hd
      · decide
      exact hds d hd
  · exact (Piece.spells_of_first? hp hk).not_foreign hmem hf

theorem stray_zero {c : Char} (h : Foreign c) : Stray (c :: cs) 0 := by
  refine ⟨c, rfl, h, ?_⟩
  rintro ⟨j, hj, h1, -⟩
  obtain rfl := Nat.le_zero.1 hj
  obtain rfl : c = '/' := by simpa using h1
  exact absurd h.2.2 (by decide)

end

namespace Reader
variable {r : Reader} {p : Piece} {cs : List Char}

theorem drain_pass (hr : r.ended = false) (hp : Piece.first? r.text = some p) :
    r.drain.2 = (r.pass p).drain.2 := by
  by_cases hk : p.kind = .blank
  · rw [drain_blank hr hp hk]
  · rw [drain_token hr hp hk]

theorem Within.drain (hr : r.ended = false) (h : r.Within cs) : r.drain.2.Within cs := by
  induction r, hr using piece_induct with
  | stop r hr hp =>
    rw [drain_stop hr hp]
    exact ⟨h.text, h.offset⟩
  | step r p hr hp ih =>
    rw [drain_pass hr hp]
    exact ih (h.pass hp)

/-- A reader goes on to the first stray character, or to the end of the text. -/
theorem drain_stray (hr : r.ended = false) :
    ∃ k, r.drain.2.offset = r.offset + k ∧ r.drain.2.text = r.text.drop k ∧
      (∀ i < k, ¬ Stray r.text i) ∧ (r.drain.2.text ≠ [] → Stray r.text k) := by
  induction r, hr using piece_induct with
  | stop r hr hp =>
    rw [drain_stop hr hp]
    refine ⟨0, rfl, rfl, fun i hi => absurd hi (Nat.not_lt_zero i), fun hne => ?_⟩
    obtain ⟨c, cs, ht⟩ := List.exists_cons_of_ne_nil hne
    rw [ht] at hp
    rw [show r.text = c :: cs from ht]
    exact stray_zero (Piece.foreign_of_first?_eq_none hp)
  | step r p hr hp ih =>
    obtain ⟨k, hoffset, htext, hbefore, hat⟩ := ih
    rw [drain_pass hr hp]
    refine ⟨p.lexeme.length + k, ?_, ?_, fun i hi => ?_, fun hne => (stray_add hp).2 (hat hne)⟩
    · rw [hoffset, pass, Nat.add_assoc]
    · rw [htext, ← Piece.lexeme_append_rest hp, List.drop_append]
      simp [pass]
    · by_cases hlt : i < p.lexeme.length
      · exact not_stray_of_lt hp hlt
      · obtain ⟨i, rfl⟩ := Nat.exists_eq_add_of_le (Nat.not_lt.1 hlt)
        exact fun h => hbefore i (by omega) ((stray_add hp).1 h)

end Reader

/-- How many characters of a text are read. -/
def readLength (text : String) : Nat := (Reader.start text).drain.2.offset

section
variable {text : String} {i : Nat}

theorem readLength_le (text : String) : readLength text ≤ text.length := by
  rw [← String.length_toList]
  exact ((Reader.within_start text).drain rfl).offset

theorem unread_eq (text : String) :
    (Reader.start text).drain.2.text = text.toList.drop (readLength text) :=
  ((Reader.within_start text).drain rfl).text

theorem unread_eq_nil_iff : (Reader.start text).drain.2.text = [] ↔ readLength text = text.length := by
  rw [unread_eq, List.drop_eq_nil_iff, String.length_toList]
  exact ⟨fun h => Nat.le_antisymm (readLength_le text) h, fun h => Nat.le_of_eq h.symm⟩

theorem not_stray_of_lt_readLength (h : i < readLength text) : ¬ Stray text.toList i := by
  obtain ⟨k, hoffset, -, hbefore, -⟩ := (Reader.start text).drain_stray rfl
  exact hbefore i (by rw [readLength, hoffset] at h; simpa [Reader.start] using h)

theorem stray_readLength (h : readLength text < text.length) :
    Stray text.toList (readLength text) := by
  obtain ⟨k, hoffset, -, -, hat⟩ := (Reader.start text).drain_stray rfl
  have hk : readLength text = k := by rw [readLength, hoffset]; simp [Reader.start]
  rw [hk]
  exact hat fun hnil => Nat.ne_of_lt h (unread_eq_nil_iff.1 hnil)

/-- A text is cut just if it has a stray character. -/
theorem readLength_lt_iff : readLength text < text.length ↔ ∃ i, Stray text.toList i := by
  refine ⟨fun h => ⟨_, stray_readLength h⟩, fun ⟨i, h⟩ => ?_⟩
  obtain ⟨c, hc, -⟩ := id h
  have hi := (List.getElem?_eq_some_iff.1 hc).1
  rw [String.length_toList] at hi
  exact Nat.lt_of_not_le fun hle => not_stray_of_lt_readLength (Nat.lt_of_lt_of_le hi hle) h

theorem readLength_eq_length (h : ∀ i, ¬ Stray text.toList i) : readLength text = text.length :=
  Nat.le_antisymm (readLength_le text) (Nat.not_lt.1 fun hlt => (readLength_lt_iff.1 hlt).elim h)

/-- A stray character stands in the text where `c` says, and none before it. -/
structure CutAt (text : String) (c : Cut) : Prop where
  char : text.toList[c.offset]? = some c.char
  stray : Stray text.toList c.offset
  first : ∀ i < c.offset, ¬ Stray text.toList i

theorem CutAt.offset_eq {c : Cut} (h : CutAt text c) : c.offset = readLength text := by
  have hlt := readLength_lt_iff.2 ⟨_, h.stray⟩
  rcases Nat.lt_trichotomy c.offset (readLength text) with hi | hi | hi
  · exact absurd h.stray (not_stray_of_lt_readLength hi)
  · exact hi
  · exact absurd (stray_readLength hlt) (h.first _ hi)

theorem cut_eq_some_iff {c : Cut} : (Stream.ofText text).cut = some c ↔ CutAt text c := by
  have hcut : (Stream.ofText text).cut =
      text.toList[readLength text]?.map (⟨readLength text, ·⟩) := by
    rw [← List.head?_drop, ← unread_eq]
    rfl
  rw [hcut, Option.map_eq_some_iff]
  constructor
  · rintro ⟨d, hd, rfl⟩
    have hlt := (List.getElem?_eq_some_iff.1 hd).1
    rw [String.length_toList] at hlt
    exact ⟨hd, stray_readLength hlt, fun _ => not_stray_of_lt_readLength⟩
  · intro h
    refine ⟨c.char, ?_, ?_⟩
    · rw [← h.offset_eq]; exact h.char
    · rw [← h.offset_eq]

end

end Reckoner
