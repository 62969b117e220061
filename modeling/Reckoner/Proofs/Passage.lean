import Reckoner.Proofs.Coverage
import Reckoner.Proofs.Relocation

/-!
# Passages

A passage is what a reader goes through on its way from one place in a text to another, with the
tokens that it gives there (`Reader.Passes`). What it gives depends on the characters of the passage
and, at its end, on the one behind them, and on nothing that comes before or further on. So a passage
can be read in another text (`Passes.transfer`), and when it is cut out and read on its own, it
gives the same tokens, moved to the front (`Passes.tokenize_excerpt`).
-/

namespace Reckoner
open Text

/-- The characters that the span covers, as a text of their own. -/
def Span.excerpt (text : String) (s : Span) : String := String.ofList (s.slice text.toList)

namespace Piece
variable {cs w u back rest : List Char} {p : Piece}

theorem lexeme_append_eq (hp : first? cs = some p) (hu : p.rest = u ++ back)
    (ht : cs = w ++ back) : p.lexeme ++ u = w := by
  rw [← lexeme_append_rest hp, hu, ← List.append_assoc] at ht
  exact List.append_cancel_right ht

/-- The piece in front stays a piece when the text `back` gives way to another, for unless the piece
comes up to `back`, it has the same character behind it as before. -/
theorem first?_transfer (hp : first? cs = some p) (hu : p.rest = u ++ back)
    (hfit : ∀ v, v <:+ p.lexeme ++ u → Fits back p.kind v → Fits rest p.kind v) :
    first? (p.lexeme ++ (u ++ rest)) = some ⟨p.kind, p.lexeme, u ++ rest⟩ := by
  refine first?_of_fits ?_
  have hp := fits_of_first? hp
  rw [hu] at hp
  cases u with
  | nil => exact hfit _ (by simp) hp
  | cons c u => exact hp.mono fun _ hc => hc

end Piece

namespace Reader

/-- Reading on from one place gives the tokens and comes to another, which is not the end. -/
inductive Passes : Reader → List Token → Reader → Prop
  | refl {r : Reader} (hr : r.ended = false) : Passes r [] r
  | blank {r r' : Reader} {p : Piece} {ts : List Token} (hr : r.ended = false)
    (hp : Piece.first? r.text = some p) (hk : p.kind = .blank) (h : Passes (r.pass p) ts r') :
    Passes r ts r'
  | token {r r' : Reader} {p : Piece} {ts : List Token} (hr : r.ended = false)
    (hp : Piece.first? r.text = some p) (hk : p.kind ≠ .blank) (h : Passes (r.pass p) ts r') :
    Passes r (r.token p :: ts) r'

/-- The reader stands before the token `t`, and the tokens behind it are `us`. -/
inductive Faces (r : Reader) (t : Token) (us : List Token) : Prop
  | piece {p : Piece} (hp : Piece.first? r.text = some p) (hk : p.kind ≠ .blank)
    (ht : r.token p = t) (hus : (r.pass p).drain.1 = us)
  | ending (hnil : r.text = []) (hc : r.closed = false) (ht : .terminator r.offset = t)
    (hus : us = [])

variable {r r' r'' : Reader} {p : Piece} {t : Token} {ts us : List Token}
  {cs w rest : List Char} {f : Nat → Nat}

namespace Passes

theorem ended (h : Passes r ts r') : r.ended = false := by
  cases h <;> assumption

theorem ended_right (h : Passes r ts r') : r'.ended = false := by
  induction h with
  | refl hr => exact hr
  | blank _ _ _ _ ih | token _ _ _ _ ih => exact ih

theorem trans (h : Passes r ts r') (h' : Passes r' us r'') : Passes r (ts ++ us) r'' := by
  induction h with
  | refl _ => exact h'
  | blank hr hp hk _ ih => exact .blank hr hp hk (ih h')
  | token hr hp hk _ ih => exact .token hr hp hk (ih h')

theorem concat (h : Passes r ts r') (hp : Piece.first? r'.text = some p) (hk : p.kind ≠ .blank) :
    Passes r (ts ++ [r'.token p]) (r'.pass p) :=
  h.trans (.token h.ended_right hp hk (.refl rfl))

theorem drain_eq (h : Passes r ts r') : r.drain = (ts ++ r'.drain.1, r'.drain.2) := by
  induction h with
  | refl _ => rfl
  | blank hr hp hk _ ih => rw [drain_blank hr hp hk, ih]
  | token hr hp hk _ ih => rw [drain_token hr hp hk, ih]; rfl

theorem exists_text_eq (h : Passes r ts r') :
    ∃ w, r.text = w ++ r'.text ∧ r'.offset = r.offset + w.length := by
  induction h with
  | refl _ => exact ⟨[], rfl, rfl⟩
  | @blank _ _ p _ _ hp _ _ ih | @token _ _ p _ _ hp _ _ ih =>
    obtain ⟨w, ht, ho⟩ := ih
    refine ⟨p.lexeme ++ w, ?_, ?_⟩
    · rw [← Piece.lexeme_append_rest hp, List.append_assoc]
      exact congrArg (p.lexeme ++ ·) ht
    · rw [ho, List.length_append, ← Nat.add_assoc]
      rfl

theorem within (h : Passes r ts r') (hw : r.Within cs) : r'.Within cs := by
  induction h with
  | refl _ => exact hw
  | blank _ hp _ _ ih | token _ hp _ _ ih => exact ih (hw.pass hp)

theorem start_lt_stop (h : Passes r ts r') : ∀ t ∈ ts, t.span.start < t.span.stop := by
  induction h with
  | refl _ => exact fun _ ht => absurd ht List.not_mem_nil
  | blank _ _ _ _ ih => exact ih
  | token _ hp _ _ ih =>
    have hpos := List.length_pos_iff.2 (Piece.lexeme_ne_nil hp)
    exact List.forall_mem_cons.2 ⟨Nat.lt_add_of_pos_right hpos, ih⟩

theorem spells (h : Passes r ts r') : ∀ t ∈ ts, t.kind.Spells t.lexeme.toList := by
  induction h with
  | refl _ => exact fun _ ht => absurd ht List.not_mem_nil
  | blank _ _ _ _ ih => exact ih
  | token _ hp hk _ ih =>
    refine List.forall_mem_cons.2 ⟨?_, ih⟩
    simpa [Reader.token] using Piece.spells_of_first? hp hk

/-- A passage without characters has no tokens and leads nowhere. -/
theorem eq_of_text_eq (h : Passes r ts r') (ht : r.text = r'.text) : ts = [] ∧ r' = r := by
  have shrinks : ∀ {p : Piece} {us : List Token}, Piece.first? r.text = some p →
      ¬ Passes (r.pass p) us r' := by
    intro p us hp h'
    obtain ⟨w, ht', -⟩ := h'.exists_text_eq
    have hlen := congrArg List.length ht'
    have := Piece.length_rest_lt hp
    rw [List.length_append, ← ht] at hlen
    simp only [pass] at hlen
    omega
  cases h with
  | refl _ => exact ⟨rfl, rfl⟩
  | blank _ hp _ h | token _ hp _ h => exact absurd h (shrinks hp)

/-- A passage can be read in front of another text, if the piece that it ends with fits there. -/
theorem transfer (h : Passes r ts r') (ht : r.text = w ++ r'.text)
    (hfit : ∀ k v, v <:+ w → Piece.Fits r'.text k v → Piece.Fits rest k v) :
    Passes { r with text := w ++ rest } ts { r' with text := rest } := by
  -- Along the passage: behind its first piece it is a passage of `u`, all of which comes before `rest`.
  induction h generalizing w with
  | refl hr =>
    obtain rfl : w = [] := by simpa using ht
    exact .refl hr
  | @blank r r' p ts hr hp hk h ih =>
    obtain ⟨u, hu, -⟩ := h.exists_text_eq
    obtain rfl := Piece.lexeme_append_eq hp hu ht
    have hp' := Piece.first?_transfer hp hu (hfit p.kind)
    rw [← List.append_assoc] at hp'
    exact .blank hr hp' hk (ih hu fun k v hv => hfit k v (hv.trans (List.suffix_append _ u)))
  | @token r r' p ts hr hp hk h ih =>
    obtain ⟨u, hu, -⟩ := h.exists_text_eq
    obtain rfl := Piece.lexeme_append_eq hp hu ht
    have hp' := Piece.first?_transfer hp hu (hfit p.kind)
    rw [← List.append_assoc] at hp'
    exact .token (p := ⟨p.kind, p.lexeme, u ++ rest⟩) hr hp' hk
      (ih hu fun k v hv => hfit k v (hv.trans (List.suffix_append _ u)))

end Passes

/-! ### Up to a token -/

theorem exists_faces (hr : r.ended = false) (h : r.drain.1 = t :: us) :
    ∃ r', Passes r [] r' ∧ r'.Faces t us := by
  induction r, hr using piece_induct with
  | stop r hr hp =>
    rw [drain_stop hr hp] at h
    split at h
    · next hc =>
      obtain ⟨ht, hus⟩ := List.cons.inj h
      exact ⟨r, .refl hr, .ending hc.1 (by simpa using hc.2) ht hus.symm⟩
    · cases h
  | step r p hr hp ih =>
    by_cases hk : p.kind = .blank
    · rw [drain_blank hr hp hk] at h
      obtain ⟨r', hpass, hfaces⟩ := ih h
      exact ⟨r', .blank hr hp hk hpass, hfaces⟩
    · rw [drain_token hr hp hk] at h
      obtain ⟨ht, hus⟩ := List.cons.inj h
      exact ⟨r, .refl hr, .piece hp hk ht hus⟩

/-- If a token follows the tokens `ts`, the reader comes to the place right behind `ts`. -/
theorem exists_behind (hr : r.ended = false) (h : r.drain.1 = ts ++ t :: us) :
    ∃ r', Passes r ts r' ∧ r'.drain.1 = t :: us ∧ r'.offset = lastStop r.offset ts := by
  induction ts generalizing r with
  | nil => exact ⟨r, .refl hr, h, rfl⟩
  | cons u ts ih =>
    obtain ⟨r₁, hpass, hfaces⟩ := exists_faces hr h
    cases hfaces with
    | piece hp hk hu hus =>
      obtain ⟨r', hpass', hd, ho⟩ := ih rfl hus
      refine ⟨r', ?_, hd, ?_⟩
      · rw [← hu]
        exact hpass.trans (.token hpass.ended_right hp hk hpass')
      · rw [ho, ← hu]
        rfl
    | ending _ _ _ hus => simp at hus

theorem exists_before (hr : r.ended = false) (h : r.drain.1 = ts ++ t :: us) :
    ∃ r₁ r₂, Passes r ts r₁ ∧ r₁.offset = lastStop r.offset ts ∧ Passes r₁ [] r₂ ∧
      r₂.Faces t us := by
  obtain ⟨r₁, hpass, hd, ho⟩ := exists_behind hr h
  obtain ⟨r₂, hpass', hfaces⟩ := exists_faces hpass.ended_right hd
  exact ⟨r₁, r₂, hpass, ho, hpass', hfaces⟩

theorem exists_facing (hr : r.ended = false) (h : r.drain.1 = ts ++ t :: us) :
    ∃ r', Passes r ts r' ∧ r'.Faces t us := by
  obtain ⟨r₁, r₂, hpass, -, hpass', hfaces⟩ := exists_before hr h
  exact ⟨r₂, by simpa using hpass.trans hpass', hfaces⟩

/-- Only the semicolon that is supplied has no characters. -/
theorem Faces.of_isSynthetic (h : r.Faces t us) (ht : t.isSynthetic) :
    r.text = [] ∧ .terminator r.offset = t ∧ us = [] := by
  cases h with
  | piece hp _ htoken _ =>
    rw [← htoken, isSynthetic_token hp] at ht
    cases ht
  | ending hnil _ htoken hus => exact ⟨hnil, htoken, hus⟩

/-- If the token has characters, the reader comes to the piece that they are. -/
theorem exists_piece (hr : r.ended = false) (h : r.drain.1 = ts ++ t :: us)
    (ht : t.isSynthetic = false) : ∃ r' p, Passes r ts r' ∧ Piece.first? r'.text = some p ∧
      p.kind ≠ .blank ∧ r'.token p = t ∧ (r'.pass p).drain.1 = us := by
  obtain ⟨r', hpass, hfaces⟩ := exists_facing hr h
  cases hfaces with
  | piece hp hk htoken hus => exact ⟨r', _, hpass, hp, hk, htoken, hus⟩
  | ending _ _ htoken _ =>
    rw [← htoken, Token.isSynthetic_terminator] at ht
    cases ht

/-- The reader comes through a semicolon, or to the end of the text if it is the one supplied. -/
theorem exists_through (hr : r.ended = false) (h : r.drain.1 = ts ++ t :: us)
    (hk : t.kind = .semicolon) : ∃ r' ws, Passes r ws r' ∧ r'.offset = t.span.stop ∧
      (ws ++ if r'.closed then [] else [.terminator r'.offset]) = ts ++ [t] ∧
      (r'.closed = true → ws ≠ []) := by
  obtain ⟨r₁, hpass, hfaces⟩ := exists_facing hr h
  cases hfaces with
  | @piece p hp hk' ht _ =>
    have hclosed : (r₁.pass p).closed = true := by
      rw [← ht] at hk
      exact beq_iff_eq.2 hk
    refine ⟨r₁.pass p, ts ++ [t], ht ▸ hpass.concat hp hk', ?_, ?_, fun _ => by simp⟩
    · rw [← ht]; rfl
    · rw [hclosed, if_pos rfl, List.append_nil]
  | ending _ hc ht _ =>
    refine ⟨r₁, ts, hpass, by rw [← ht]; rfl, ?_, fun h => ?_⟩
    · rw [hc, if_neg (by simp), ht]
    · rw [hc] at h; cases h

theorem Faces.offset_eq (h : r.Faces t us) : r.offset = t.span.start := by
  cases h with
  | piece _ _ ht _ | ending _ _ ht _ => rw [← ht]; rfl

/-! ### What is passed over without a token -/

theorem Within.slice_eq (h : r.Within cs) (ht : r.text = w ++ rest) :
    Span.slice cs ⟨r.offset, r.offset + w.length⟩ = w := by
  rw [Span.slice, ← h.text, ht, Span.length]
  simp

theorem Passes.slice_eq (h : Passes r ts r') (hw : r.Within cs) (ht : r.text = w ++ r'.text) :
    Span.slice cs ⟨r.offset, r'.offset⟩ = w := by
  obtain ⟨v, hv, ho⟩ := h.exists_text_eq
  obtain rfl : v = w := List.append_cancel_right (hv.symm.trans ht)
  rw [ho, hw.slice_eq ht]

theorem Passes.gap (h : Passes r [] r') (ht : ∃ d rest, r'.text = d :: rest ∧ ¬ isBlank d) :
    ∃ g, r.text = g ++ r'.text ∧ Gap g := by
  generalize hts : ([] : List Token) = ts at h
  induction h with
  | refl _ => exact ⟨[], rfl, .nil⟩
  | token => cases hts
  | @blank r r' p ts _ hp hk h ih =>
    obtain ⟨g, hg, hgap⟩ := ih ht hts
    obtain ⟨d, rest, hd, hb⟩ := ht
    have hrest : p.rest = g ++ r'.text := hg
    refine ⟨p.lexeme ++ g, ?_, hgap.piece hp hk (hd ▸ hrest) hb⟩
    rw [List.append_assoc, ← hrest, Piece.lexeme_append_rest hp]

theorem Passes.lastGap (h : Passes r [] r') (ht : r'.text = []) : LastGap r.text := by
  generalize hts : ([] : List Token) = ts at h
  induction h with
  | refl _ => rw [ht]; exact .gap .nil
  | token => cases hts
  | @blank r r' p ts _ hp hk h ih =>
    rw [← Piece.lexeme_append_rest hp]
    exact (ih ht hts).piece hp hk

theorem Passes.gap_slice (h : Passes r [] r') (hw : r.Within cs)
    (hp : Piece.first? r'.text = some p) (hk : p.kind ≠ .blank) :
    Gap (Span.slice cs ⟨r.offset, r'.offset⟩) := by
  have hspells := Piece.spells_of_first? hp hk
  obtain ⟨d, ds, hl⟩ := List.exists_cons_of_ne_nil hspells.ne_nil
  have htext : r'.text = d :: (ds ++ p.rest) := by
    rw [← Piece.lexeme_append_rest hp, hl, List.cons_append]
  obtain ⟨g, hg, hgap⟩ := h.gap ⟨d, _, htext, hspells.not_isBlank (hl ▸ List.mem_cons_self)⟩
  rwa [h.slice_eq hw hg]

theorem Passes.lastGap_slice (h : Passes r [] r') (hw : r.Within cs) (hnil : r'.text = []) :
    LastGap (Span.slice cs ⟨r.offset, r'.offset⟩) := by
  have hall : r.text = r.text ++ r'.text := by rw [hnil, List.append_nil]
  rw [h.slice_eq hw hall]
  exact h.lastGap hnil

/-! ### Reading elsewhere -/

/-- The same text gives the same tokens at another offset. Whether a semicolon came last matters
only if nothing more comes. -/
theorem drain_relocate (hr : r.ended = false) (hr' : r'.ended = false) (ht : r'.text = r.text)
    (hc : r.text = [] → r'.closed = r.closed) (hf : ∀ i, f (r.offset + i) = r'.offset + i) :
    r'.drain.1 = r.drain.1.map (Token.relocate f) := by
  -- The two readers take the same pieces, and behind a piece they agree on whether it closes the text.
  induction r, hr using piece_induct generalizing r' with
  | stop r hr hp =>
    have ho : f r.offset = r'.offset := hf 0
    rw [drain_stop hr hp, drain_stop hr' (ht ▸ hp), ht]
    by_cases hnil : r.text = []
    · rw [hc hnil]
      split
      · rw [List.map_singleton, Token.relocate_terminator, ho]
      · rfl
    · rw [if_neg fun h => hnil h.1, if_neg fun h => hnil h.1]
      rfl
  | step r p hr hp ih =>
    have hp' : Piece.first? r'.text = some p := ht ▸ hp
    have hpass : (r'.pass p).drain.1 = (r.pass p).drain.1.map (Token.relocate f) := by
      refine ih rfl rfl (fun _ => rfl) fun i => ?_
      rw [pass, pass, Nat.add_assoc, Nat.add_assoc]
      exact hf _
    by_cases hk : p.kind = .blank
    · rw [drain_blank hr hp hk, drain_blank hr' hp' hk, hpass]
    · have ho : f r.offset = r'.offset := hf 0
      rw [drain_token hr hp hk, drain_token hr' hp' hk, hpass, List.map_cons]
      simp only [token, Token.relocate, Span.relocate, ho, hf]

/-- A passage that is read on its own gives the tokens that it gives in the text, as far to the left
as it is moved. If it does not end with a semicolon, one is supplied. -/
theorem Passes.tokenize_excerpt {text : String} (h : Passes r ts r') (hw : r.Within text.toList)
    (hc : r'.closed = true → ts ≠ []) :
    (tokenize ((⟨r.offset, r'.offset⟩ : Span).excerpt text)).map (Token.relocate (· + r.offset)) =
      ts ++ if r'.closed then [] else [.terminator r'.offset] := by
  obtain ⟨w, ht, -⟩ := h.exists_text_eq
  have hexcerpt : ((⟨r.offset, r'.offset⟩ : Span).excerpt text).toList = w := by
    rw [Span.excerpt, String.toList_ofList, h.slice_eq hw ht]
  have hfit : ∀ k v, v <:+ w → Piece.Fits r'.text k v → Piece.Fits [] k v :=
    fun _ _ _ hv => hv.mono (by simp)
  have hcut := h.transfer ht hfit
  have hdrain : ({ r with text := w ++ [] } : Reader).drain.1 =
      ts ++ if r'.closed then [] else [.terminator r'.offset] := by
    rw [hcut.drain_eq, drain_stop hcut.ended_right rfl]
    cases r'.closed <;> rfl
  rw [← hdrain]
  refine (drain_relocate (r := start _) rfl hcut.ended ?_ (fun hnil => ?_) fun i => ?_).symm
  · rw [List.append_nil]
    exact hexcerpt.symm
  · -- The passage is of no length, so the reader has not moved and has given no token.
    obtain rfl : w = [] := hexcerpt.symm.trans hnil
    obtain ⟨hts, rfl⟩ := h.eq_of_text_eq ht
    cases hclosed : r'.closed with
    | false => rfl
    | true => exact absurd hts (hc hclosed)
  · simp [start, Nat.add_comm]

end Reader
end Reckoner
