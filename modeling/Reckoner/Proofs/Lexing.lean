import Mathlib.Data.List.TakeWhile
import Reckoner.Token.Reader

/-!
# The tokens of a text

A reader takes a text apart into pieces, one equation of `drain` for each way in which a text can
go on, and `Reader.piece_induct` is the induction along the pieces. A token is spelled as its kind
asks (`Kind.Spells`) and stands in the text where its span says (`Token.StandsIn`), and the tokens
come in the order of the text. The other way round, what is spelled as a kind asks is read as a
token of that kind if the text behind it does not go on the token (`Reader.drain_word`).
-/

namespace Reckoner
open Text

/-- The characters that tokens of a kind are written with. -/
def Kind.Spells : Kind → List Char → Prop
  | .blank, _ => False
  | .semicolon, cs => cs = [';']
  | .opening, cs => cs = ['(']
  | .closing, cs => cs = [')']
  | .number, cs => cs ≠ [] ∧ ∀ c ∈ cs, c.isDigit
  | .additive, cs => cs = ['+'] ∨ cs = ['-']
  | .multiplicative, cs => cs = ['*'] ∨ cs = ['/']

namespace Kind
variable {k : Kind} {cs : List Char}

theorem Spells.ne_nil (h : k.Spells cs) : cs ≠ [] := by
  cases k with
  | blank => exact h.elim
  | number => exact h.1
  | semicolon | opening | closing => rw [h]; exact List.cons_ne_nil _ _
  | additive | multiplicative => rcases h with rfl | rfl <;> exact List.cons_ne_nil _ _

end Kind

namespace Piece
variable {cs w rest : List Char} {p : Piece} {k : Kind}

theorem spells_of_first? (h : first? cs = some p) (hk : p.kind ≠ .blank) :
    p.kind.Spells p.lexeme := by
  cases cs with
  | nil => cases h
  | cons c cs =>
    simp only [first?] at h
    split at h
    · cases h; exact absurd rfl hk
    split at h
    · next hc =>
      cases h
      refine ⟨List.cons_ne_nil _ _, fun c' hc' => ?_⟩
      rcases List.mem_cons.1 hc' with rfl | hc'
      · exact hc
      · exact List.mem_takeWhile_imp hc'
    split at h
    · next hc => cases h; subst hc; rfl
    split at h
    · next hc => cases h; subst hc; rfl
    split at h
    · next hc => cases h; subst hc; rfl
    split at h
    · next hc => cases h; rcases hc with rfl | rfl <;> simp [Kind.Spells]
    split at h
    · cases h; exact absurd rfl hk
    split at h
    · next hc => cases h; rcases hc with rfl | rfl <;> simp [Kind.Spells]
    · cases h

/-- The text `rest` does not go on the token `w` of kind `k`. -/
def Ends (k : Kind) (w rest : List Char) : Prop :=
  ∀ c ∈ rest.head?, (k = .number → ¬ c.isDigit) ∧ (w = ['/'] → c ≠ '/')

theorem isBlank_of_isDigit {c : Char} (h : c.isDigit) : isBlank c = false := by
  simp only [Char.isDigit, Bool.and_eq_true, decide_eq_true_eq, ge_iff_le, UInt32.le_iff_toNat_le] at h
  have low : 48 ≤ c.toNat := h.1
  have high : c.toNat ≤ 57 := h.2
  have far : ∀ r ∈ blankRanges, r.2 < 48 ∨ 57 < r.1 := by decide
  simp only [isBlank, List.any_eq_false, Bool.and_eq_true, decide_eq_true_eq]
  intro r hr
  have := far r hr
  omega

theorem first?_append (h : k.Spells w) (he : Ends k w rest) :
    first? (w ++ rest) = some ⟨k, w, rest⟩ := by
  cases k with
  | blank => exact h.elim
  | semicolon | opening | closing => rw [h]; simp [first?, isBlank, blankRanges]
  | additive => rcases h with rfl | rfl <;> simp [first?, isBlank, blankRanges]
  | multiplicative =>
    rcases h with rfl | rfl
    · simp [first?, isBlank, blankRanges]
    · have hs : rest.head? ≠ some '/' := fun h' => (he '/' h').2 rfl rfl
      simp [first?, isBlank, blankRanges, hs]
  | number =>
    obtain ⟨hne, hd⟩ := h
    obtain ⟨c, cs, rfl⟩ := List.exists_cons_of_ne_nil hne
    have hc := hd c List.mem_cons_self
    have hcs : ∀ c' ∈ cs, c'.isDigit := fun c' h' => hd c' (List.mem_cons_of_mem _ h')
    have hrest : rest.takeWhile Char.isDigit = [] ∧ rest.dropWhile Char.isDigit = rest := by
      cases rest with
      | nil => exact ⟨rfl, rfl⟩
      | cons d rest =>
        have hd : ¬ d.isDigit := (he d rfl).1 rfl
        exact ⟨List.takeWhile_cons_of_neg hd, List.dropWhile_cons_of_neg hd⟩
    rw [List.cons_append, first?, if_neg (by simp [isBlank_of_isDigit hc]), if_pos hc, run,
      List.takeWhile_append_of_pos hcs, List.dropWhile_append_of_pos hcs, hrest.1, hrest.2,
      List.append_nil]

end Piece

namespace Reader
variable {r r' : Reader} {p : Piece} {t : Token}

theorem next_blank (hr : r.ended = false) (hp : Piece.first? r.text = some p)
    (hk : p.kind = .blank) : r.next = (r.pass p).next := by
  rw [next, if_neg (by simp [hr])]
  split
  · next p' hp' =>
    cases hp.symm.trans hp'
    rw [if_pos hk]
  · next hp' => rw [hp] at hp'; cases hp'

theorem next_token (hr : r.ended = false) (hp : Piece.first? r.text = some p)
    (hk : p.kind ≠ .blank) : r.next = (some (r.token p), r.pass p) := by
  rw [next, if_neg (by simp [hr])]
  split
  · next p' hp' =>
    cases hp.symm.trans hp'
    rw [if_neg hk]
  · next hp' => rw [hp] at hp'; cases hp'

theorem next_stop (hr : r.ended = false) (hp : Piece.first? r.text = none) :
    r.next = if r.text = [] ∧ ¬ r.closed then
        (some (.terminator r.offset), { r with ended := true })
      else (none, { r with ended := true }) := by
  rw [next, if_neg (by simp [hr])]
  split
  · next p' hp' => rw [hp] at hp'; cases hp'
  · rfl

theorem drain_none (h : r.next = (none, r')) : r.drain = ([], r') := by
  rw [drain]
  split
  · next h' => cases h.symm.trans h'; rfl
  · next h' => cases h.symm.trans h'

theorem drain_some (h : r.next = (some t, r')) : r.drain = (t :: r'.drain.1, r'.drain.2) := by
  rw [drain]
  split
  · next h' => cases h.symm.trans h'
  · next h' => cases h.symm.trans h'; rfl

theorem drain_ended (hr : r.ended = true) : r.drain = ([], r) :=
  drain_none (by rw [next, if_pos hr])

theorem drain_blank (hr : r.ended = false) (hp : Piece.first? r.text = some p)
    (hk : p.kind = .blank) : r.drain = (r.pass p).drain := by
  have hn := next_blank hr hp hk
  rcases h : (r.pass p).next with ⟨_ | t, r'⟩
  · rw [drain_none h, drain_none (hn.trans h)]
  · rw [drain_some h, drain_some (hn.trans h)]

theorem drain_token (hr : r.ended = false) (hp : Piece.first? r.text = some p)
    (hk : p.kind ≠ .blank) : r.drain = (r.token p :: (r.pass p).drain.1, (r.pass p).drain.2) :=
  drain_some (next_token hr hp hk)

theorem drain_stop (hr : r.ended = false) (hp : Piece.first? r.text = none) :
    r.drain = (if r.text = [] ∧ ¬ r.closed then [.terminator r.offset] else [],
      { r with ended := true }) := by
  have hn := next_stop hr hp
  split at hn
  · next hc => rw [drain_some hn, drain_ended rfl, if_pos hc]
  · next hc => rw [drain_none hn, if_neg hc]

/-- Induction along the pieces of a text: what holds where no piece starts, and in front of a piece
if it holds behind it, holds everywhere. -/
theorem piece_induct {M : (r : Reader) → r.ended = false → Prop}
    (stop : ∀ r hr, Piece.first? r.text = none → M r hr)
    (step : ∀ r p hr, Piece.first? r.text = some p → M (r.pass p) rfl → M r hr)
    (r : Reader) (hr : r.ended = false) : M r hr := by
  suffices H : ∀ n r, r.text.length = n → ∀ hr : r.ended = false, M r hr from H _ r rfl hr
  clear hr r
  intro n
  induction n using Nat.strongRecOn with
  | ind n ih =>
    rintro r rfl hr
    cases hp : Piece.first? r.text with
    | none => exact stop r hr hp
    | some p => exact step r p hr hp (ih _ (Piece.length_rest_lt hp) _ rfl rfl)

/-- The tokens of a text that is not cut end with a semicolon. -/
theorem getLast?_drain (hr : r.ended = false) (ht : r.drain.2.text = []) :
    r.drain.1 = [] ∧ r.closed = true ∨ ∃ t, r.drain.1.getLast? = some t ∧ t.kind = .semicolon := by
  induction r, hr using piece_induct with
  | stop r hr hp =>
    rw [drain_stop hr hp] at ht ⊢
    by_cases hc : r.closed = true
    · exact .inl ⟨if_neg fun h => h.2 hc, hc⟩
    · refine .inr ⟨.terminator r.offset, ?_, rfl⟩
      rw [if_pos ⟨ht, hc⟩]
      rfl
  | step r p hr hp ih =>
    by_cases hk : p.kind = .blank
    · rw [drain_blank hr hp hk] at ht ⊢
      rcases ih ht with ⟨-, hc⟩ | h
      · simp [pass, hk] at hc
      · exact .inr h
    · rw [drain_token hr hp hk] at ht ⊢
      refine .inr ?_
      rcases ih ht with ⟨hnil, hc⟩ | ⟨t, hlast, ht⟩
      · exact ⟨r.token p, by rw [hnil]; rfl, eq_of_beq hc⟩
      · exact ⟨t, by rw [List.getLast?_cons, hlast]; rfl, ht⟩

/-! ### Words -/

/-- A word at the front of a text is read as a token, if the text behind it does not go on it. -/
theorem drain_word {k : Kind} {w rest : List Char} (hr : r.ended = false)
    (ht : r.text = w ++ rest) (h : k.Spells w) (he : Piece.Ends k w rest) :
    r.drain = (r.token ⟨k, w, rest⟩ :: (r.pass ⟨k, w, rest⟩).drain.1,
      (r.pass ⟨k, w, rest⟩).drain.2) := by
  refine drain_token hr (ht ▸ Piece.first?_append h he) ?_
  rintro rfl
  exact h

/-- The reader has gone through the text `cs`, from its front to where it stands. -/
structure Within (cs : List Char) (r : Reader) : Prop where
  text : r.text = cs.drop r.offset
  offset : r.offset ≤ cs.length

variable {cs : List Char}

theorem Within.pass (h : r.Within cs) (hp : Piece.first? r.text = some p) :
    (r.pass p).Within cs := by
  have happ := Piece.lexeme_append_rest hp
  have hlen : p.lexeme.length + p.rest.length = cs.length - r.offset := by
    rw [← List.length_append, happ, h.text, List.length_drop]
  refine ⟨?_, ?_⟩
  · show p.rest = cs.drop (r.offset + p.lexeme.length)
    rw [← List.drop_drop, ← h.text, ← happ, List.drop_left]
  · show r.offset + p.lexeme.length ≤ cs.length
    have := h.offset
    have := List.length_pos_iff.2 (Piece.lexeme_ne_nil hp)
    omega

theorem within_start (s : String) : (start s).Within s.toList := ⟨rfl, Nat.zero_le _⟩

end Reader

/-! ### Where tokens stand -/

namespace Token
variable {cs : List Char} {t : Token}

/-- The token stands in the text where its span says, and is spelled as its kind asks. Only the
semicolon that closes a text has no characters. -/
structure StandsIn (cs : List Char) (t : Token) : Prop where
  stop : t.span.stop = t.span.start + t.lexeme.length
  within : t.span.stop ≤ cs.length
  slice : (cs.drop t.span.start).take t.lexeme.length = t.lexeme.toList
  spelled : t.kind.Spells t.lexeme.toList ∨ t = .terminator cs.length

theorem StandsIn.start_le_stop (h : t.StandsIn cs) : t.span.start ≤ t.span.stop := by
  rw [h.stop]; exact Nat.le_add_right _ _

theorem StandsIn.spells (h : t.StandsIn cs) (hk : t.kind ≠ .semicolon) :
    t.kind.Spells t.lexeme.toList := by
  refine h.spelled.resolve_right ?_
  rintro rfl
  exact hk rfl

theorem StandsIn.start_lt_stop_of_spells (h : t.StandsIn cs)
    (hs : t.kind.Spells t.lexeme.toList) : t.span.start < t.span.stop := by
  have hpos : 0 < t.lexeme.length := by
    rw [← String.length_toList]
    exact List.length_pos_iff.2 hs.ne_nil
  rw [h.stop]
  omega

theorem StandsIn.start_lt_stop (h : t.StandsIn cs) (hk : t.kind ≠ .semicolon) :
    t.span.start < t.span.stop :=
  h.start_lt_stop_of_spells (h.spells hk)

theorem StandsIn.isSynthetic_iff (h : t.StandsIn cs) :
    t.isSynthetic ↔ t = .terminator cs.length := by
  constructor
  · intro ht
    rcases h.spelled with hs | rfl
    · have hlt := h.start_lt_stop_of_spells hs
      simp only [isSynthetic, Span.isEmpty, Bool.and_eq_true, decide_eq_true_eq] at ht
      omega
    · rfl
  · rintro rfl
    exact isSynthetic_terminator _

theorem StandsIn.lexeme_eq_empty_iff (h : t.StandsIn cs) :
    t.lexeme = "" ↔ t = .terminator cs.length := by
  constructor
  · intro ht
    rcases h.spelled with hs | rfl
    · exact absurd (String.toList_eq_nil_iff.2 ht) hs.ne_nil
    · rfl
  · rintro rfl
    rfl

end Token

namespace Reader
variable {r : Reader} {p : Piece} {cs : List Char}

theorem standsIn_token (h : r.Within cs) (hp : Piece.first? r.text = some p)
    (hk : p.kind ≠ .blank) : (r.token p).StandsIn cs where
  stop := by simp [token]
  within := (h.pass hp).offset
  slice := by
    simp only [token, String.length_ofList, String.toList_ofList]
    rw [← h.text, ← Piece.lexeme_append_rest hp, List.take_left]
  spelled := .inl (by simpa [token] using Piece.spells_of_first? hp hk)

theorem standsIn_of_mem_drain (hr : r.ended = false) (h : r.Within cs) :
    ∀ t ∈ r.drain.1, t.StandsIn cs ∧ r.offset ≤ t.span.start := by
  induction r, hr using piece_induct with
  | stop r hr hp =>
    intro t ht
    rw [drain_stop hr hp] at ht
    split at ht
    · next hc =>
      have hend : r.offset = cs.length := by
        have := h.offset
        have hlen := congrArg List.length (h.text.symm.trans hc.1)
        simp only [List.length_drop, List.length_nil] at hlen
        omega
      rw [List.mem_singleton.1 ht, hend]
      refine ⟨⟨rfl, Nat.le_refl _, ?_, .inr rfl⟩, Nat.le_refl _⟩
      simp [Token.terminator]
    · cases ht
  | step r p hr hp ih =>
    intro t ht
    have hlt : r.offset ≤ (r.pass p).offset := Nat.le_add_right _ _
    by_cases hk : p.kind = .blank
    · rw [drain_blank hr hp hk] at ht
      have := ih (h.pass hp) t ht
      exact ⟨this.1, Nat.le_trans hlt this.2⟩
    rw [drain_token hr hp hk] at ht
    rcases List.mem_cons.1 ht with rfl | ht
    · exact ⟨standsIn_token h hp hk, Nat.le_refl _⟩
    · have := ih (h.pass hp) t ht
      exact ⟨this.1, Nat.le_trans hlt this.2⟩

theorem pairwise_drain (hr : r.ended = false) (h : r.Within cs) :
    r.drain.1.Pairwise fun t u => t.span.stop ≤ u.span.start := by
  induction r, hr using piece_induct with
  | stop r hr hp =>
    rw [drain_stop hr hp]
    split
    · exact List.pairwise_singleton _ _
    · exact .nil
  | step r p hr hp ih =>
    by_cases hk : p.kind = .blank
    · rw [drain_blank hr hp hk]
      exact ih (h.pass hp)
    · rw [drain_token hr hp hk]
      exact .cons (fun t ht => (standsIn_of_mem_drain rfl (h.pass hp) t ht).2) (ih (h.pass hp))

end Reader

theorem standsIn_of_mem_tokenize {s : String} {t : Token} (h : t ∈ tokenize s) :
    t.StandsIn s.toList :=
  (Reader.standsIn_of_mem_drain rfl (Reader.within_start s) t h).1

theorem pairwise_tokenize (s : String) :
    (tokenize s).Pairwise fun t u => t.span.stop ≤ u.span.start :=
  Reader.pairwise_drain rfl (Reader.within_start s)

end Reckoner
