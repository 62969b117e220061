import Reckoner.Proofs.Lexing

/-!
# Gaps

What may stand between tokens: blanks, and comments that end before a line break. Behind the last
token a comment may also end with the text. A piece of a text is a word, a run of blanks or a comment,
and what stands behind it does not go on it (`Piece.Fits`). If it is not a token, it makes a gap again
when it is put in front of a gap (`Gap.piece`). The other way round, the reader passes over a gap
without a token (`Gap.drain_eq`), though its pieces need not be those that the gap is built from: it
takes blanks in runs.
-/

namespace Reckoner
open Text

namespace Kind.Spells
variable {k : Kind} {w : List Char} {c : Char}

theorem not_isBlank (h : k.Spells w) (hc : c ∈ w) : ¬ isBlank c := by
  cases k with
  | blank => exact h.elim
  | number => simp [Piece.isBlank_of_isDigit (h.2 c hc)]
  | semicolon | opening | closing => subst h; simp_all [isBlank, blankRanges]
  | additive | multiplicative => rcases h with rfl | rfl <;> simp_all [isBlank, blankRanges]

theorem eq_number (h : k.Spells w) (hc : c ∈ w) (hd : c.isDigit) : k = .number := by
  cases k with
  | blank => exact h.elim
  | number => rfl
  | semicolon | opening | closing => subst h; simp_all
  | additive | multiplicative => rcases h with rfl | rfl <;> simp_all

theorem eq_slash (h : k.Spells w) (hc : '/' ∈ w) : w = ['/'] := by
  cases k with
  | blank => exact h.elim
  | number => exact absurd (h.2 '/' hc) (by decide)
  | semicolon | opening | closing => subst h; simp at hc
  | additive | multiplicative => rcases h with rfl | rfl <;> simp at hc ⊢

end Kind.Spells

/-- What may stand before a token. -/
inductive Gap : List Char → Prop
  | nil : Gap []
  | blank {c : Char} {cs : List Char} (hc : isBlank c) (h : Gap cs) : Gap (c :: cs)
  | comment {cs rest : List Char} {b : Char} (hcs : ∀ c ∈ cs, ¬ isLineBreak c)
    (hb : isLineBreak b) (h : Gap (b :: rest)) : Gap ('/' :: '/' :: (cs ++ b :: rest))

/-- What may stand behind the last token. -/
inductive LastGap : List Char → Prop
  | gap {cs : List Char} (h : Gap cs) : LastGap cs
  | comment {cs ds : List Char} (h : Gap cs) (hds : ∀ c ∈ ds, ¬ isLineBreak c) :
    LastGap (cs ++ '/' :: '/' :: ds)

theorem Gap.ends {k : Kind} {g w rest : List Char} (h : Gap g) (hne : g ≠ [])
    (hw : w = ['/'] → ¬ ['/', '/'] <+: g) : Piece.Ends k w (g ++ rest) := by
  intro c hc
  cases h with
  | nil => exact absurd rfl hne
  | blank hb h =>
    cases hc
    refine ⟨fun _ hd => ?_, fun _ hs => ?_⟩
    · rw [Piece.isBlank_of_isDigit hd] at hb
      cases hb
    · subst hs
      exact absurd hb (by decide)
  | @comment cs rest b hcs hb h =>
    cases hc
    exact ⟨fun _ => by decide, fun hs => absurd ⟨cs ++ b :: rest, rfl⟩ (hw hs)⟩

namespace Piece
variable {cs : List Char} {p : Piece}

theorem not_of_mem_head?_dropWhile {q : Char → Bool} {c : Char}
    (h : c ∈ (cs.dropWhile q).head?) : ¬ q c := by
  have := List.head?_dropWhile_not q cs
  rw [Option.mem_def.1 h] at this
  simpa using this

theorem ends_of_ne {k : Kind} {w rest : List Char} (hk : k ≠ .number) (hw : w ≠ ['/']) :
    Ends k w rest :=
  fun _ _ => ⟨fun h => absurd h hk, fun h => absurd h hw⟩

/-- What makes the characters `w` a piece of the kind `k`, with `rest` behind them: they are a word
that goes as far as it can, all of a run of blanks, or a comment up to a line break. -/
inductive Fits (rest : List Char) : Kind → List Char → Prop
  | word {k : Kind} {w : List Char} (h : k.Spells w) (he : Ends k w rest) : Fits rest k w
  | blanks {w : List Char} (hne : w ≠ []) (hw : ∀ c ∈ w, isBlank c)
    (he : ∀ c ∈ rest.head?, ¬ isBlank c) : Fits rest .blank w
  | comment {ds : List Char} (hds : ∀ c ∈ ds, ¬ isLineBreak c)
    (he : ∀ c ∈ rest.head?, isLineBreak c) : Fits rest .blank ('/' :: '/' :: ds)

theorem fits_of_first? (h : first? cs = some p) : Fits p.rest p.kind p.lexeme := by
  cases cs with
  | nil => cases h
  | cons c cs =>
    have spelled : p.kind ≠ .blank → p.kind.Spells p.lexeme := spells_of_first? h
    simp only [first?] at h
    split at h
    · next hc =>
      cases h
      refine .blanks (List.cons_ne_nil _ _) (List.forall_mem_cons.2 ⟨hc, fun d hd => ?_⟩)
        fun d hd => not_of_mem_head?_dropWhile hd
      exact List.mem_takeWhile_imp hd
    split at h
    · next hc =>
      cases h
      refine .word (spelled (by simp [run])) fun d hd =>
        ⟨fun _ => not_of_mem_head?_dropWhile hd, fun hs => ?_⟩
      obtain ⟨rfl, -⟩ := List.cons.inj hs
      exact absurd hc (by decide)
    split at h
    · next hc => cases h; exact .word (spelled (by simp)) (ends_of_ne (by simp) (by simp [hc]))
    split at h
    · next hc => cases h; exact .word (spelled (by simp)) (ends_of_ne (by simp) (by simp [hc]))
    split at h
    · next hc => cases h; exact .word (spelled (by simp)) (ends_of_ne (by simp) (by simp [hc]))
    split at h
    · next hc =>
      cases h
      exact .word (spelled (by simp)) (ends_of_ne (by simp) (by rcases hc with rfl | rfl <;> simp))
    split at h
    · next hc =>
      cases h
      obtain ⟨rfl, hs⟩ := hc
      obtain ⟨cs, rfl⟩ := List.head?_eq_some_iff.1 hs
      show Fits _ _ ('/' :: '/' :: cs.takeWhile (!isLineBreak ·))
      refine .comment (fun d hd => ?_) fun d hd => ?_
      · simpa using List.mem_takeWhile_imp hd
      · simpa using not_of_mem_head?_dropWhile hd
    split at h
    · next hc _ =>
      -- a second slash would have made it a comment
      cases h
      refine .word (spelled (by simp)) fun d hd => ⟨by simp, fun hs hd' => ?_⟩
      refine hc ⟨(List.cons.inj hs).1, ?_⟩
      rw [← hd']
      exact hd
    · cases h

theorem first?_blanks {w rest : List Char} (hne : w ≠ []) (hw : ∀ c ∈ w, isBlank c)
    (he : ∀ c ∈ rest.head?, ¬ isBlank c) : first? (w ++ rest) = some ⟨.blank, w, rest⟩ := by
  obtain ⟨c, w, rfl⟩ := List.exists_cons_of_ne_nil hne
  obtain ⟨hc, hw⟩ := List.forall_mem_cons.1 hw
  have hrest : rest.takeWhile isBlank = [] ∧ rest.dropWhile isBlank = rest := by
    cases rest with
    | nil => exact ⟨rfl, rfl⟩
    | cons d rest =>
      exact ⟨List.takeWhile_cons_of_neg (he d rfl), List.dropWhile_cons_of_neg (he d rfl)⟩
  rw [List.cons_append, first?, if_pos hc, run, List.takeWhile_append_of_pos hw,
    List.dropWhile_append_of_pos hw, hrest.1, hrest.2, List.append_nil]

theorem first?_comment {ds rest : List Char} (hds : ∀ c ∈ ds, ¬ isLineBreak c)
    (he : ∀ c ∈ rest.head?, isLineBreak c) :
    first? ('/' :: '/' :: ds ++ rest) = some ⟨.blank, '/' :: '/' :: ds, rest⟩ := by
  have hpos : ∀ c ∈ '/' :: ds, (!isLineBreak c) :=
    List.forall_mem_cons.2 ⟨by decide, fun c hc => by simpa using hds c hc⟩
  have hrest : rest.takeWhile (!isLineBreak ·) = [] ∧ rest.dropWhile (!isLineBreak ·) = rest := by
    cases rest with
    | nil => exact ⟨rfl, rfl⟩
    | cons b rest => simp [he b rfl]
  rw [List.cons_append, first?, if_neg (by decide), if_neg (by decide), if_neg (by decide),
    if_neg (by decide), if_neg (by decide), if_neg (by decide), if_pos ⟨rfl, rfl⟩, run,
    List.takeWhile_append_of_pos hpos, List.dropWhile_append_of_pos hpos, hrest.1, hrest.2,
    List.append_nil]

theorem first?_of_fits {k : Kind} {w rest : List Char} (h : Fits rest k w) :
    first? (w ++ rest) = some ⟨k, w, rest⟩ := by
  cases h with
  | word h he => exact first?_append h he
  | blanks hne hw he => exact first?_blanks hne hw he
  | comment hds he => exact first?_comment hds he

/-- Of what stands behind a piece only the first character matters. -/
theorem Fits.mono {k : Kind} {w rest rest' : List Char} (h : Fits rest k w)
    (hsub : ∀ c ∈ rest'.head?, c ∈ rest.head?) : Fits rest' k w := by
  cases h with
  | word h he => exact .word h fun c hc => he c (hsub c hc)
  | blanks hne hw he => exact .blanks hne hw fun c hc => he c (hsub c hc)
  | comment hds he => exact .comment hds fun c hc => he c (hsub c hc)

theorem ends_of_first? (h : first? cs = some p) (hk : p.kind ≠ .blank) :
    Ends p.kind p.lexeme p.rest := by
  obtain ⟨k, w, rest⟩ := p
  cases fits_of_first? h with
  | word _ he => exact he
  | blanks | comment => exact absurd rfl hk

theorem blank_of_first? (h : first? cs = some p) (hk : p.kind = .blank) :
    (∀ c ∈ p.lexeme, isBlank c) ∨ ∃ ds, p.lexeme = '/' :: '/' :: ds ∧
      (∀ c ∈ ds, ¬ isLineBreak c) ∧ ∀ c ∈ p.rest.head?, isLineBreak c := by
  obtain ⟨k, w, rest⟩ := p
  cases fits_of_first? h with
  | word h _ => cases hk; exact h.elim
  | blanks _ hw _ => exact .inl hw
  | comment hds he => exact .inr ⟨_, rfl, hds, he⟩

end Piece

/-! ### Pieces make gaps -/

theorem Gap.append_of_blank {bs g : List Char} (hb : ∀ c ∈ bs, isBlank c) (h : Gap g) :
    Gap (bs ++ g) := by
  induction bs with
  | nil => exact h
  | cons c bs ih =>
    obtain ⟨hc, hbs⟩ := List.forall_mem_cons.1 hb
    exact .blank hc (ih hbs)

theorem LastGap.append_of_blank {bs g : List Char} (hb : ∀ c ∈ bs, isBlank c) (h : LastGap g) :
    LastGap (bs ++ g) := by
  cases h with
  | gap h => exact .gap (h.append_of_blank hb)
  | comment h hds =>
    rw [← List.append_assoc]
    exact .comment (h.append_of_blank hb) hds

/-- A piece before a gap goes on the gap, if something that is no blank stands behind it: a comment
that comes to its end there would have gone on. -/
theorem Gap.piece {cs g rest : List Char} {p : Piece} {d : Char} (hp : Piece.first? cs = some p)
    (hk : p.kind = .blank) (ht : p.rest = g ++ d :: rest) (hd : ¬ isBlank d) (h : Gap g) :
    Gap (p.lexeme ++ g) := by
  rcases Piece.blank_of_first? hp hk with hb | ⟨ds, hl, hds, hrest⟩
  · exact h.append_of_blank hb
  rw [ht] at hrest
  cases g with
  | nil => exact absurd (isBlank_of_isLineBreak (hrest d rfl)) hd
  | cons b g =>
    rw [hl]
    exact .comment hds (hrest b rfl) h

theorem LastGap.piece {cs : List Char} {p : Piece} (hp : Piece.first? cs = some p)
    (hk : p.kind = .blank) (h : LastGap p.rest) : LastGap (p.lexeme ++ p.rest) := by
  rcases Piece.blank_of_first? hp hk with hb | ⟨ds, hl, hds, hrest⟩
  · exact h.append_of_blank hb
  rw [hl]
  have append : ∀ {b rest}, isLineBreak b → Gap (b :: rest) → Gap ('/' :: '/' :: (ds ++ b :: rest)) :=
    .comment hds
  generalize p.rest = rest at h hrest
  rcases h with h | @⟨g, es, h, hes⟩
  · cases rest with
    | nil =>
      rw [List.append_nil]
      exact .comment .nil hds
    | cons b rest => exact .gap (append (hrest b rfl) h)
  · cases g with
    | nil => exact absurd (hrest '/' rfl) (by decide)
    | cons b g => simpa using LastGap.comment (append (hrest b rfl) h) hes

/-! ### Gaps give no tokens -/

namespace Reader
variable {r : Reader} {c : Char} {cs ds rest : List Char}

/-- Reading a blank on its own comes to the same as reading it in a run. -/
theorem drain_blank_cons (hr : r.ended = false) (ht : r.text = c :: cs) (hc : isBlank c) :
    r.drain = (⟨cs, r.offset + 1, false, false⟩ : Reader).drain := by
  have hp : Piece.first? r.text = some (.run .blank isBlank c cs) := by
    rw [ht, Piece.first?, if_pos hc]
  rw [drain_blank hr hp rfl]
  cases cs with
  | nil => rfl
  | cons d cs =>
    by_cases hd : isBlank d
    · have hq : Piece.first? (d :: cs) = some (.run .blank isBlank d cs) := by
        rw [Piece.first?, if_pos hd]
      rw [drain_blank (r := ⟨d :: cs, r.offset + 1, false, false⟩) rfl hq rfl]
      simp [pass, Piece.run, hd, Nat.add_assoc, Nat.add_comm]
    · simp only [pass, Piece.run, List.takeWhile_cons_of_neg hd, List.dropWhile_cons_of_neg hd]
      rfl

theorem drain_comment (hr : r.ended = false) (ht : r.text = '/' :: '/' :: (ds ++ rest))
    (hds : ∀ c ∈ ds, ¬ isLineBreak c) (hrest : ∀ c ∈ rest.head?, isLineBreak c) :
    r.drain = (⟨rest, r.offset + (ds.length + 2), false, false⟩ : Reader).drain := by
  have hp : Piece.first? r.text = some ⟨.blank, '/' :: '/' :: ds, rest⟩ :=
    ht ▸ Piece.first?_comment hds hrest
  rw [drain_blank hr hp rfl]
  rfl

end Reader

theorem Gap.drain_eq {g rest : List Char} {r : Reader} (h : Gap g) (hr : r.ended = false)
    (ht : r.text = g ++ rest) :
    r.drain = (⟨rest, r.offset + g.length, r.closed && g.isEmpty, false⟩ : Reader).drain := by
  induction h generalizing r with
  | nil => cases r; subst hr ht; simp
  | @blank c cs hc _ ih =>
    have hlen : r.offset + 1 + cs.length = r.offset + (cs.length + 1) := by omega
    rw [Reader.drain_blank_cons hr ht hc, ih rfl rfl]
    simp [hlen]
  | @comment cs rest' b hcs hb _ ih =>
    have ht' : r.text = '/' :: '/' :: (cs ++ (b :: rest' ++ rest)) := by simp [ht]
    have hlen : r.offset + (cs.length + 2) + (b :: rest').length =
        r.offset + ('/' :: '/' :: (cs ++ b :: rest')).length := by
      simp only [List.length_cons, List.length_append]
      omega
    rw [Reader.drain_comment hr ht' hcs (by simpa using hb), ih rfl rfl, hlen]
    simp

/-- Behind the last token of a text only the semicolon that closes it may come. -/
theorem LastGap.drain_eq {g : List Char} {r : Reader} (h : LastGap g) (hr : r.ended = false)
    (ht : r.text = g) : r.drain.1 =
      if r.closed = true ∧ g = [] then [] else [.terminator (r.offset + g.length)] := by
  have stop : ∀ n b, (⟨[], n, b, false⟩ : Reader).drain.1 =
      if b = true then [] else [.terminator n] := by
    intro n b
    rw [Reader.drain_stop rfl rfl]
    cases b <;> rfl
  rcases h with h | @⟨g, ds, h, hds⟩
  · have ht' : r.text = g ++ [] := by simpa using ht
    rw [h.drain_eq hr ht', stop]
    cases g <;> simp
  · have hlen : r.offset + g.length + (ds.length + 2) =
        r.offset + (g ++ '/' :: '/' :: ds).length := by
      simp only [List.length_cons, List.length_append]
      omega
    have ht' : '/' :: '/' :: ds = '/' :: '/' :: (ds ++ []) := by simp
    rw [h.drain_eq hr ht, Reader.drain_comment rfl ht' hds (by simp), stop, hlen]
    simp

end Reckoner
