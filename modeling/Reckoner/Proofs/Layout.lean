import Mathlib.Data.List.Chain
import Reckoner.Proofs.Cut

/-!
# Laying out words

Words that are written one after the other, with gaps between them, are read as they were written
wherever no two of them run together: two numbers with nothing between them would be one number, and
two slashes, or a slash and a comment, would be a comment. That words are `Spaced` keeps them from
it, for it says of each just that what is behind it does not go on it (`spaced_cons`). A `Layout` is
a text of such words: it has them for tokens (`tokenize_text`), and all texts that are not cut are
of this form (`Layout.exists_text_eq`).
-/

namespace Reckoner
open Text

/-- The characters of a token, and the kind that they are spelled for. -/
structure Word where
  kind : Kind
  chars : List Char
  spells : kind.Spells chars

namespace Word

/-- The token of a word that stands at the offset `n`. -/
def token (w : Word) (n : Nat) : Token :=
  ⟨w.kind, String.ofList w.chars, ⟨n, n + w.chars.length⟩⟩

/-- The words are read as something else when one directly follows the other. -/
def Joins (v w : Word) : Prop :=
  v.kind = .number ∧ w.kind = .number ∨ v.chars = ['/'] ∧ w.chars = ['/']

end Word

/-- The words, with gaps before them and `last` behind them, do not run together. -/
structure Spaced (ws : List (List Char × Word)) (last : List Char) : Prop where
  gap : ∀ x ∈ ws, Gap x.1
  lastGap : LastGap last
  apart : ws.IsChain fun x y => x.2.Joins y.2 → y.1 ≠ []
  slash : ws.IsChain fun x y => x.2.chars = ['/'] → ¬ ['/', '/'] <+: y.1
  lastSlash : ∀ x ∈ ws.getLast?, x.2.chars = ['/'] → ¬ ['/', '/'] <+: last

/-- Words with gaps before them, and what stands behind the last one. -/
structure Layout where
  words : List (List Char × Word)
  last : List Char
  spaced : Spaced words last

namespace Layout

/-- The characters of words with gaps before them and `last` behind them. -/
def write (last : List Char) : List (List Char × Word) → List Char
  | [] => last
  | (g, w) :: ws => g ++ (w.chars ++ write last ws)

/-- The tokens of words with gaps before them, the first gap at the offset `n`. -/
def placed : Nat → List (List Char × Word) → List Token
  | _, [] => []
  | n, (g, w) :: ws => w.token (n + g.length) :: placed (n + g.length + w.chars.length) ws

variable (l : Layout)

/-- The text that is laid out. -/
def text : String := String.ofList (write l.last l.words)

/-- Whether the text ends with a semicolon. -/
def Closed : Prop := l.words.getLast?.map (·.2.kind) = some .semicolon ∧ l.last = []

instance : Decidable l.Closed := inferInstanceAs (Decidable (_ ∧ _))

/-- The tokens of the words, and the semicolon that closes the text if it does not close itself. -/
def tokens : List Token :=
  placed 0 l.words ++
    if l.Closed then [] else [⟨.semicolon, "", ⟨l.text.length, l.text.length⟩⟩]

end Layout

open Layout

/-! ### What stands behind a word -/

section
variable {k : Kind} {v w : Word} {g cs last rest : List Char} {ws : List (List Char × Word)}

theorem LastGap.ends (h : LastGap g) (hw : cs = ['/'] → ¬ ['/', '/'] <+: g) :
    Piece.Ends k cs g := by
  rcases h with h | @⟨g, ds, h, hds⟩
  · rcases eq_or_ne g [] with rfl | hne
    · exact nofun
    · rw [← List.append_nil g]
      exact h.ends hne hw
  · rcases eq_or_ne g [] with rfl | hne
    · intro c hc
      cases hc
      exact ⟨fun _ => by decide, fun hs => absurd ⟨ds, rfl⟩ (hw hs)⟩
    · exact h.ends hne fun hs hp => hw hs (hp.trans (List.prefix_append _ _))

theorem Gap.ends_word (h : Gap g) (hslash : v.chars = ['/'] → ¬ ['/', '/'] <+: g)
    (hapart : v.Joins w → g ≠ []) : Piece.Ends v.kind v.chars (g ++ (w.chars ++ rest)) := by
  rcases eq_or_ne g [] with rfl | hne
  · obtain ⟨c, cs, hw⟩ := List.exists_cons_of_ne_nil w.spells.ne_nil
    have hc : c ∈ w.chars := by rw [hw]; exact List.mem_cons_self
    intro d hd
    obtain rfl : c = d := by simpa [hw] using hd
    refine ⟨fun hk hd => ?_, ?_⟩
    · exact hapart (.inl ⟨hk, w.spells.eq_number hc hd⟩) rfl
    · rintro hs rfl
      exact hapart (.inr ⟨hs, w.spells.eq_slash hc⟩) rfl
  · exact h.ends hne hslash

theorem Piece.Ends.not_prefix (h : Ends k cs rest) (hs : cs = ['/']) (hg : g <+: rest) :
    ¬ ['/', '/'] <+: g := by
  intro hp
  obtain ⟨rest, rfl⟩ := hp.trans hg
  exact (h '/' rfl).2 hs rfl

theorem Piece.Ends.not_joins (h : Ends v.kind v.chars (w.chars ++ rest)) : ¬ v.Joins w := by
  obtain ⟨c, cs, hw⟩ := List.exists_cons_of_ne_nil w.spells.ne_nil
  rw [hw] at h
  rintro (⟨hv, hk⟩ | ⟨hv, hs⟩)
  · have hspells := w.spells
    rw [hk, hw] at hspells
    exact (h c rfl).1 hv (hspells.2 c List.mem_cons_self)
  · rw [hw] at hs
    exact (h c rfl).2 hv (List.cons.inj hs).1

theorem spaced_nil : Spaced [] last ↔ LastGap last :=
  ⟨fun h => h.lastGap, fun h => ⟨by simp, h, .nil, .nil, by simp⟩⟩

theorem spaced_cons : Spaced ((g, w) :: ws) last ↔
    Gap g ∧ Piece.Ends w.kind w.chars (write last ws) ∧ Spaced ws last := by
  have hlast? : ((g, w) :: ws).getLast? = some (ws.getLast?.getD (g, w)) := List.getLast?_cons
  constructor
  · rintro ⟨hgap, hlast, hapart, hslash, hlastSlash⟩
    obtain ⟨hg, hgap⟩ := List.forall_mem_cons.1 hgap
    obtain ⟨hapart, hapart'⟩ := List.isChain_cons.1 hapart
    obtain ⟨hslash, hslash'⟩ := List.isChain_cons.1 hslash
    refine ⟨hg, ?_, hgap, hlast, hapart', hslash', fun x hx => hlastSlash x ?_⟩
    · cases ws with
      | nil => exact hlast.ends (hlastSlash _ rfl)
      | cons y ws =>
        exact (hgap y List.mem_cons_self).ends_word (hslash y rfl) (hapart y rfl)
    · rw [hlast?, Option.mem_def.1 hx]; rfl
  · rintro ⟨hg, hends, hgap, hlast, hapart, hslash, hlastSlash⟩
    refine ⟨List.forall_mem_cons.2 ⟨hg, hgap⟩, hlast, List.isChain_cons.2 ⟨?_, hapart⟩,
      List.isChain_cons.2 ⟨?_, hslash⟩, ?_⟩
    · rintro ⟨g', w'⟩ hy hjoins rfl
      obtain ⟨ws, rfl⟩ := List.head?_eq_some_iff.1 hy
      exact Piece.Ends.not_joins hends hjoins
    · rintro ⟨g', w'⟩ hy hs
      obtain ⟨ws, rfl⟩ := List.head?_eq_some_iff.1 hy
      exact hends.not_prefix hs (List.prefix_append _ _)
    · cases ws with
      | nil =>
        rintro x hx hs
        cases hx
        exact hends.not_prefix hs (List.prefix_refl _)
      | cons y ws => exact hlastSlash

end

/-! ### Reading what is laid out -/

theorem Spaced.drain_eq {ws : List (List Char × Word)} {last : List Char} {r : Reader}
    (h : Spaced ws last) (hr : r.ended = false) (ht : r.text = write last ws) :
    r.drain.1 = placed r.offset ws ++
      if (ws.getLast?.map (·.2.kind == .semicolon)).getD r.closed = true ∧ last = [] then []
      else [.terminator (r.offset + (write last ws).length)] := by
  induction ws generalizing r with
  | nil => exact h.lastGap.drain_eq hr ht
  | cons x ws ih =>
    obtain ⟨g, w⟩ := x
    obtain ⟨hg, hends, hws⟩ := spaced_cons.1 h
    have hclosed : (((g, w) :: ws).getLast?.map (·.2.kind == .semicolon)).getD r.closed =
        (ws.getLast?.map (·.2.kind == .semicolon)).getD (w.kind == .semicolon) := by
      rw [List.getLast?_cons]
      cases ws.getLast? <;> rfl
    have hlen : r.offset + (write last ((g, w) :: ws)).length =
        r.offset + g.length + w.chars.length + (write last ws).length := by
      simp only [write, List.length_append]
      omega
    rw [hg.drain_eq hr ht, Reader.drain_word rfl rfl w.spells hends, ih hws rfl rfl, hclosed, hlen]
    rfl

theorem Layout.tokenize_eq (l : Layout) : tokenize l.text =
    placed 0 l.words ++ if l.Closed then [] else [.terminator l.text.length] := by
  have htext : (Reader.start l.text).text = write l.last l.words := String.toList_ofList
  have hdrain := l.spaced.drain_eq rfl htext
  have hlen : l.text.length = (write l.last l.words).length := String.length_ofList
  have hclosed : ((l.words.getLast?.map (·.2.kind == .semicolon)).getD false = true ∧ l.last = []) ↔
      l.Closed := by
    rw [Layout.Closed]
    cases l.words.getLast? <;> simp
  rw [show (Reader.start l.text).offset = 0 from rfl, Nat.zero_add] at hdrain
  rw [hlen, ← if_congr hclosed rfl rfl]
  exact hdrain

/-- A text that is laid out has its words for tokens. -/
theorem tokenize_text (l : Layout) : tokenize l.text = l.tokens := l.tokenize_eq

/-- Two divisions, the second of them with a comment near it. -/
def Layout.divisions : Layout where
  words := [([], ⟨.number, ['7'], by simp [Kind.Spells]⟩), ([], ⟨.multiplicative, ['/'], .inr rfl⟩),
    ([' '], ⟨.multiplicative, ['/'], .inr rfl⟩),
    (['\t', '/', '/', '8', '\n'], ⟨.semicolon, [';'], rfl⟩)]
  last := ['/', '/', '9']
  spaced := by
    have hg : Gap ('\t' :: '/' :: '/' :: (['8'] ++ ['\n'])) :=
      .blank (by decide) (.comment (by simp [isLineBreak]) (by decide) (.blank (by decide) .nil))
    have hb : Gap [' '] := .blank (by decide) .nil
    refine ⟨by simpa [Gap.nil, hb] using hg, .comment .nil (by simp [isLineBreak]), ?_, ?_, ?_⟩
    · simp [Word.Joins]
    · simp
    · simp

theorem tokenize_divisions : tokenize "7/ /\t//8\n;//9" =
    [⟨.number, "7", ⟨0, 1⟩⟩, ⟨.multiplicative, "/", ⟨1, 2⟩⟩, ⟨.multiplicative, "/", ⟨3, 4⟩⟩,
      ⟨.semicolon, ";", ⟨9, 10⟩⟩, ⟨.semicolon, "", ⟨13, 13⟩⟩] := by
  have h := tokenize_text Layout.divisions
  rw [show Layout.divisions.text = "7/ /\t//8\n;//9" by decide] at h
  exact h

/-! ### Laying out a text -/

theorem Reader.exists_spaced {r : Reader} (hr : r.ended = false) (hnil : r.drain.2.text = []) :
    ∃ ws last, Spaced ws last ∧ write last ws = r.text := by
  induction r, hr using piece_induct with
  | stop r hr hp =>
    rw [drain_stop hr hp] at hnil
    exact ⟨[], [], spaced_nil.2 (.gap .nil), hnil.symm⟩
  | step r p hr hp ih =>
    rw [drain_pass hr hp] at hnil
    obtain ⟨ws, last, h, ht⟩ := ih hnil
    rw [← Piece.lexeme_append_rest hp]
    have ht : write last ws = p.rest := ht
    by_cases hk : p.kind = .blank
    · cases ws with
      | nil =>
        have hlast : LastGap p.rest := ht ▸ h.lastGap
        exact ⟨[], p.lexeme ++ p.rest, spaced_nil.2 (hlast.piece hp hk), rfl⟩
      | cons x ws =>
        obtain ⟨g, w⟩ := x
        obtain ⟨hg, hends, hws⟩ := spaced_cons.1 h
        obtain ⟨c, w', hw⟩ := List.exists_cons_of_ne_nil w.spells.ne_nil
        have hc : ¬ isBlank c := w.spells.not_isBlank (hw ▸ List.mem_cons_self)
        have hrest : p.rest = g ++ c :: (w' ++ write last ws) := by rw [← ht, write, hw]; rfl
        refine ⟨(p.lexeme ++ g, w) :: ws, last,
          spaced_cons.2 ⟨hg.piece hp hk hrest hc, hends, hws⟩, ?_⟩
        rw [← ht, write, write, List.append_assoc]
    · refine ⟨([], ⟨p.kind, p.lexeme, Piece.spells_of_first? hp hk⟩) :: ws, last,
        spaced_cons.2 ⟨.nil, ?_, h⟩, ?_⟩
      · rw [ht]
        exact Piece.ends_of_first? hp hk
      · rw [write, ht]
        rfl

/-- A text without a stray character is laid out in some way. -/
theorem Layout.exists_text_eq {text : String} (h : ∀ i, ¬ Stray text.toList i) :
    ∃ l : Layout, l.text = text := by
  have hnil := unread_eq_nil_iff.2 (readLength_eq_length h)
  obtain ⟨ws, last, hs, ht⟩ := Reader.exists_spaced rfl hnil
  refine ⟨⟨ws, last, hs⟩, ?_⟩
  rw [Layout.text, ht]
  exact String.ofList_toList

end Reckoner
