import Reckoner.Proofs.Truncation

/-!
# Text that is put behind

What is put behind a text can go on its last token, or on a comment at its end, and takes the place
of the semicolon that was supplied for it. It changes nothing before that: a token that it cannot go
on stays where it is (`tokenize_append_of_settled`), and so does an error at such a token. Of a text
that is cut all the tokens stay, and there are no more of them.
-/

namespace Reckoner
open Text

/-- The token has characters, and text that is put behind cannot go on it: it is no number and no
slash, or it does not come last in the text. -/
structure Token.Settled (text : String) (t : Token) : Prop where
  explicit : t.isSynthetic = false
  behind : t.kind = .number ∨ t.lexeme = "/" → t.span.stop ≠ text.length

/-- What stays of the text `p` when `q` is put behind it. -/
structure Stable (p q : String) : Prop where
  token : ∀ (i : Nat) (t : Token), (tokenize p)[i]? = some t → t.Settled p →
    (tokenize (p ++ q))[i]? = some t
  stream : (∃ i, Stray p.toList i) → Stream.ofText (p ++ q) = Stream.ofText p
  parse : (∃ i, Stray p.toList i) → ∀ b, Program.parse b (p ++ q) = Program.parse b p
  error : ∀ b e, Program.parse b p = .error e → (∃ t ∈ tokenize p, e.Names t ∧ t.Settled p) →
    Program.parse b (p ++ q) = .error e

namespace Piece
variable {cs ds : List Char} {p : Piece}

theorem first?_eq_none_of_foreign {c : Char} (h : Foreign c) (cs : List Char) :
    first? (c :: cs) = none := by
  obtain ⟨hb, hd, hs⟩ := h
  simp only [List.mem_cons, List.not_mem_nil, or_false, not_or] at hs
  simp [first?, hb, hd, hs]

/-- A piece that does not come last has the same character behind it when the text goes on. -/
theorem Fits.extend {k : Kind} {w rest : List Char} (h : Fits rest k w) (hne : rest ≠ [])
    (ds : List Char) : Fits (rest ++ ds) k w := by
  obtain ⟨c, rest, rfl⟩ := List.exists_cons_of_ne_nil hne
  exact h.mono fun _ hc => hc

end Piece

/-! ### Readers of a text that goes on -/

namespace Reader
variable {r r' : Reader} {ts us : List Token} {t : Token} {ds : List Char} {p : Piece}

/-- The reader, with more text behind what it has left. -/
def extend (r : Reader) (ds : List Char) : Reader := { r with text := r.text ++ ds }

theorem extend_start (p q : String) : (start p).extend q.toList = start (p ++ q) := by
  simp [extend, start, String.toList_append]

theorem Passes.extend (h : Passes r ts r') (hne : r'.text ≠ []) (ds : List Char) :
    Passes (r.extend ds) ts (r'.extend ds) := by
  obtain ⟨w, ht, -⟩ := h.exists_text_eq
  have h' := h.transfer ht fun _ _ _ hv => hv.extend hne ds
  rwa [← List.append_assoc, ← ht] at h'

/-- The reader of a text that is cut comes to a place where no piece starts. -/
theorem exists_stop (hr : r.ended = false) (hne : r.drain.2.text ≠ []) :
    ∃ r', Passes r r.drain.1 r' ∧ r'.text ≠ [] ∧ Piece.first? r'.text = none := by
  induction r, hr using piece_induct with
  | stop r hr hp =>
    rw [drain_stop hr hp] at hne ⊢
    rw [if_neg fun h => hne h.1]
    exact ⟨r, .refl hr, hne, hp⟩
  | step r p hr hp ih =>
    rw [drain_pass hr hp] at hne
    obtain ⟨r', hpass, hstop⟩ := ih hne
    by_cases hk : p.kind = .blank
    · rw [drain_blank hr hp hk]
      exact ⟨r', .blank hr hp hk hpass, hstop⟩
    · rw [drain_token hr hp hk]
      exact ⟨r', .token hr hp hk hpass, hstop⟩

theorem drain_extend (hr : r.ended = false) (hne : r.drain.2.text ≠ []) (ds : List Char) :
    (r.extend ds).drain = (r.drain.1, r.drain.2.extend ds) := by
  obtain ⟨r', hpass, hne', hp⟩ := exists_stop hr hne
  have hp' : Piece.first? (r'.extend ds).text = none := by
    obtain ⟨c, cs, ht⟩ := List.exists_cons_of_ne_nil hne'
    rw [ht] at hp
    rw [show (r'.extend ds).text = c :: (cs ++ ds) by simp [extend, ht]]
    exact Piece.first?_eq_none_of_foreign (Piece.foreign_of_first?_eq_none hp) _
  have hcut : r.drain.2 = { r' with ended := true } := by
    rw [hpass.drain_eq, drain_stop hpass.ended_right hp]
  have hpass' := hpass.extend hne' ds
  rw [hpass'.drain_eq, drain_stop hpass'.ended_right hp', if_neg fun h => ?_, List.append_nil, hcut]
  · rfl
  · exact hne' (List.append_eq_nil_iff.1 h.1).1

end Reader

/-! ### Tokens that stay -/

section
variable {p q : String} {t u : Token} {ts us : List Token} {b : Builder} {e : ParseError}

/-- What was read up to a token that is settled is read when the text goes on. -/
theorem tokenize_append_of_settled (h : tokenize p = ts ++ t :: us) (ht : t.Settled p)
    (q : String) : ∃ us', tokenize (p ++ q) = ts ++ t :: us' := by
  obtain ⟨r, pc, hpass, hp, hb, rfl, -⟩ := Reader.exists_piece (r := .start p) rfl h ht.explicit
  have hne : r.text ≠ [] := by
    intro hnil
    rw [hnil] at hp
    cases hp
  have hw := (hpass.within (Reader.within_start p)).pass hp
  have hfits : Piece.Fits (pc.rest ++ q.toList) pc.kind pc.lexeme := by
    by_cases hrest : pc.rest = []
    · -- The token comes last, so it is of a kind that nothing goes on.
      have hstop : (r.token pc).span.stop = p.length := by
        have hdrop : p.toList.drop (r.pass pc).offset = [] := hw.text.symm.trans hrest
        rw [List.drop_eq_nil_iff] at hdrop
        exact (Nat.le_antisymm hw.offset hdrop).trans String.length_toList
      refine .word (Piece.spells_of_first? hp hb) (Piece.ends_of_ne ?_ ?_)
      · exact fun hk => ht.behind (.inl hk) hstop
      · exact fun hl => ht.behind (.inr (by rw [Reader.token, hl])) hstop
    · exact (Piece.fits_of_first? hp).extend hrest _
  have hp' : Piece.first? (r.extend q.toList).text =
      some ⟨pc.kind, pc.lexeme, pc.rest ++ q.toList⟩ := by
    rw [Reader.extend, ← Piece.lexeme_append_rest hp, List.append_assoc]
    exact Piece.first?_of_fits hfits
  have hpass' := (hpass.extend hne q.toList).concat hp' hb
  rw [Reader.extend_start] at hpass'
  refine ⟨((r.extend q.toList).pass ⟨pc.kind, pc.lexeme, pc.rest ++ q.toList⟩).drain.1, ?_⟩
  show (Reader.start (p ++ q)).drain.1 = _
  rw [hpass'.drain_eq, List.append_assoc]
  rfl

theorem getElem?_tokenize_append {i : Nat} (hi : (tokenize p)[i]? = some t) (ht : t.Settled p)
    (q : String) : (tokenize (p ++ q))[i]? = some t := by
  obtain ⟨hlt, rfl⟩ := List.getElem?_eq_some_iff.1 hi
  have hsplit : tokenize p = (tokenize p).take i ++ (tokenize p)[i] :: (tokenize p).drop (i + 1) := by
    rw [← List.drop_eq_getElem_cons hlt, List.take_append_drop]
  have hlen : ((tokenize p).take i).length = i := by
    rw [List.length_take]
    omega
  obtain ⟨us, hus⟩ := tokenize_append_of_settled hsplit ht q
  rw [hus, List.getElem?_append_right (Nat.le_of_eq hlen), hlen, Nat.sub_self]
  rfl

/-- Of a text that is cut the rest is not read. -/
theorem ofText_append (h : ∃ i, Stray p.toList i) (q : String) :
    Stream.ofText (p ++ q) = Stream.ofText p := by
  have hne := unread_ne_nil h
  obtain ⟨c, cs, ht⟩ := List.exists_cons_of_ne_nil hne
  rw [Stream.ofText, Stream.ofText, ← Reader.extend_start, Reader.drain_extend rfl hne]
  simp [Reader.cut?, Reader.extend, ht]

/-! ### Errors that stay -/

/-- Tokens of one text that are of one kind and stand at one place are the same. -/
theorem Token.StandsIn.eq {cs : List Char} (ht : t.StandsIn cs) (hu : u.StandsIn cs)
    (hk : t.kind = u.kind) (hs : t.span = u.span) : t = u := by
  have hl : t.lexeme = u.lexeme := by
    rw [← String.toList_inj, ht.lexeme_eq_slice, hu.lexeme_eq_slice, hs]
  obtain ⟨k, l, s⟩ := t
  obtain ⟨k', l', s'⟩ := u
  cases hk; cases hl; cases hs
  rfl

theorem parse_append_of_settled (h : Program.parse b p = .error e) (ht : t ∈ tokenize p)
    (he : e.Names t) (hs : t.Settled p) (q : String) : Program.parse b (p ++ q) = .error e := by
  rw [Scan.parse_eq_error_iff] at h ⊢
  cases hf : (tokenize p).foldlM Scan.step Scan.start with
  | ok s =>
    obtain ⟨n, rfl⟩ := Scan.exists_eq_unexpectedEnd hf h
    exact he.elim
  | error e' =>
    rw [Scan.verdict_of_error hf] at h
    cases h
    obtain ⟨us, u, vs, s, hsplit, hus, hu⟩ := Scan.exists_step_eq_error hf
    -- The scan stops at the token that the error names.
    obtain ⟨hk, hspan⟩ := he.eq (Scan.names_of_step hu)
    have hmem : u ∈ tokenize p := by rw [hsplit]; simp
    obtain rfl := (standsIn_of_mem_tokenize ht).eq (standsIn_of_mem_tokenize hmem) hk hspan
    obtain ⟨vs', hvs⟩ := tokenize_append_of_settled hsplit hs q
    have hstop : (us ++ [t]).foldlM Scan.step Scan.start = .error e := by
      rw [Scan.foldlM_concat, hus]
      exact hu
    rw [hvs, List.append_cons]
    exact Scan.verdict_append_of_error hstop vs'

/-- What is put behind a text changes nothing that has been settled before. -/
theorem stable_append (p q : String) : Stable p q where
  token _ _ hi ht := getElem?_tokenize_append hi ht q
  stream h := ofText_append h q
  parse h _ := Program.parse_congr (congrArg Stream.tokens (ofText_append h q))
  error _ _ h := fun ⟨_, ht, he, hs⟩ => parse_append_of_settled h ht he hs q

-- The slash at the end was not settled.
example : tokenize ("1/" ++ "/2") = [⟨.number, "1", ⟨0, 1⟩⟩, .terminator 4] := by decide +kernel

end

end Reckoner
