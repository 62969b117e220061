import Reckoner.Proofs.Layout
import Reckoner.Proofs.Truncation

/-!
# When a semicolon is supplied

A text that is not cut ends with a semicolon: with one of its own, or with the one that is supplied
for it. It has one of its own just if that is the last thing in the text (`ClosesItself`), and what
is put behind such a semicolon, blanks and comments though it be, brings the supplied one back and
with it an empty statement (`Supplied`).
-/

namespace Reckoner
open Text Layout

/-- The last character of the text is a semicolon, and a token. -/
def ClosesItself (text : String) : Prop :=
  ∃ t ∈ explicitTokens text, t.kind = .semicolon ∧ t.span.stop = text.length

/-- When a semicolon is supplied for the text, and what it is. -/
structure Supplied (text : String) : Prop where
  cut : (∃ i, Stray text.toList i) → ∀ t ∈ tokenize text, ¬ t.isSynthetic
  ends : (∀ i, ¬ Stray text.toList i) → ∃ t ∈ (tokenize text).getLast?, t.kind = .semicolon
  supplied_iff : (∀ i, ¬ Stray text.toList i) →
    ((∃ t ∈ tokenize text, t.isSynthetic) ↔ ¬ ClosesItself text)
  once : ∀ t ∈ tokenize text, t.isSynthetic →
    t = ⟨.semicolon, "", ⟨text.length, text.length⟩⟩ ∧ tokenize text = explicitTokens text ++ [t]
  isSynthetic_iff : ∀ t ∈ tokenize text, t.isSynthetic ↔ t.lexeme = ""
  append : ClosesItself text → ∀ g, g ≠ "" → LastGap g.toList →
    tokenize (text ++ g) =
      tokenize text ++ [⟨.semicolon, "", ⟨(text ++ g).length, (text ++ g).length⟩⟩]
  parse : ClosesItself text → ∀ g, g ≠ "" → LastGap g.toList →
    ∀ p, Program.parse .located text = .ok p → Program.parse .located (text ++ g) =
      .ok ⟨p.body ++ [.empty (.emptyAt (text ++ g).length)], ⟨p.span.start, (text ++ g).length⟩⟩

/-! ### The last token -/

/-- A reader that has no tokens left has no text left, if nothing cuts the text. -/
theorem Reader.text_eq_nil {r : Reader} (hr : r.ended = false) (hnil : r.drain.2.text = [])
    (h : r.drain.1 = []) : r.text = [] ∧ r.closed = true := by
  induction r, hr using piece_induct with
  | stop r hr hp =>
    rw [drain_stop hr hp] at hnil h
    refine ⟨hnil, ?_⟩
    by_contra hc
    rw [if_pos ⟨hnil, hc⟩] at h
    cases h
  | step r p hr hp ih =>
    by_cases hk : p.kind = .blank
    · rw [drain_blank hr hp hk] at hnil h
      have hc := (ih hnil h).2
      simp [pass, hk] at hc
    · rw [drain_token hr hp hk] at h
      cases h

section
variable {text : String} {t : Token} {ts us : List Token}

theorem eq_terminator_of_isSynthetic (h : t ∈ tokenize text) (ht : t.isSynthetic) :
    t = .terminator text.length := by
  rw [← String.length_toList]
  exact (standsIn_of_mem_tokenize h).isSynthetic_iff.1 ht

/-- Nothing comes behind the semicolon that is supplied. -/
theorem eq_nil_of_isSynthetic (h : tokenize text = ts ++ t :: us) (ht : t.isSynthetic) :
    us = [] := by
  have hdrain : (Reader.start text).drain.1 = ts ++ t :: us := h
  obtain ⟨r, -, hfaces⟩ := Reader.exists_facing rfl hdrain
  exact (hfaces.of_isSynthetic ht).2.2

/-- Nothing comes behind a semicolon with which the text ends. -/
theorem eq_nil_of_stop_eq (h : tokenize text = ts ++ t :: us) (ht : t.isSynthetic = false)
    (hk : t.kind = .semicolon) (hstop : t.span.stop = text.length) : us = [] := by
  obtain ⟨r, p, hpass, hp, hb, rfl, rfl⟩ := Reader.exists_piece (r := .start text) rfl h ht
  have hw := (hpass.within (Reader.within_start text)).pass hp
  have hnil : (r.pass p).text = [] := by
    rw [hw.text, List.drop_eq_nil_iff, String.length_toList]
    exact Nat.le_of_eq hstop.symm
  have hclosed : (r.pass p).closed = true := beq_iff_eq.2 hk
  rw [Reader.drain_stop rfl (by rw [hnil]; rfl), if_neg fun hc => hc.2 hclosed]

theorem getLast?_tokenize (h : ∀ i, ¬ Stray text.toList i) :
    ∃ t, (tokenize text).getLast? = some t ∧ t.kind = .semicolon := by
  have hnil := unread_eq_nil_iff.2 (readLength_eq_length h)
  rcases Reader.getLast?_drain rfl hnil with ⟨-, hc⟩ | hlast
  · cases hc
  · exact hlast

/-- A text that is not cut ends where its last token does, if that has characters. -/
theorem stop_eq_length (h : ∀ i, ¬ Stray text.toList i) (hlast : tokenize text = ts ++ [t])
    (ht : t.isSynthetic = false) : t.span.stop = text.length := by
  obtain ⟨r, p, hpass, hp, hb, rfl, hus⟩ := Reader.exists_piece (r := .start text) rfl hlast ht
  have hpass := hpass.concat hp hb
  have hnil := unread_eq_nil_iff.2 (readLength_eq_length h)
  rw [hpass.drain_eq] at hnil
  have hw := hpass.within (Reader.within_start text)
  have htext := (Reader.text_eq_nil rfl hnil hus).1
  rw [hw.text, List.drop_eq_nil_iff] at htext
  have hle := hw.offset
  rw [String.length_toList] at hle htext
  exact Nat.le_antisymm hle htext

end

/-! ### Text behind a semicolon -/

theorem Layout.write_append (a b : List Char) (ws : List (List Char × Word)) :
    write (a ++ b) ws = write a ws ++ b := by
  induction ws with
  | nil => rfl
  | cons x ws ih =>
    obtain ⟨g, w⟩ := x
    rw [write, write, ih, List.append_assoc, List.append_assoc]

/-- A semicolon may have anything behind it. -/
theorem Spaced.of_semicolon {ws : List (List Char × Word)} {g last : List Char}
    (h : Spaced ws last) (hk : ws.getLast?.map (·.2.kind) = some .semicolon) (hg : LastGap g) :
    Spaced ws g := by
  refine ⟨h.gap, hg, h.apart, h.slash, ?_⟩
  intro x hx hs
  rw [Option.mem_def.1 hx] at hk
  have hspells := x.2.spells
  rw [show x.2.kind = .semicolon from Option.some.inj hk, hs] at hspells
  cases hspells

theorem Layout.exists_append (l : Layout) (h : l.Closed) {g : String} (hg : LastGap g.toList) :
    ∃ l' : Layout, l'.words = l.words ∧ l'.last = g.toList ∧ l'.text = l.text ++ g := by
  refine ⟨⟨l.words, g.toList, l.spaced.of_semicolon h.1 hg⟩, rfl, rfl, ?_⟩
  show String.ofList (write g.toList l.words) = String.ofList (write l.last l.words) ++ g
  rw [h.2, ← String.toList_inj, String.toList_append, String.toList_ofList, String.toList_ofList,
    ← write_append, List.nil_append]

section
variable {text g : String} {p : Program}

theorem not_stray_of_closesItself (h : ClosesItself text) (i : Nat) : ¬ Stray text.toList i := by
  intro hi
  obtain ⟨t, ht, -, hstop⟩ := h
  have hle := stop_le_readLength ⟨i, hi⟩ (List.mem_filter.1 ht).1
  have hlt := readLength_lt_iff.2 ⟨i, hi⟩
  omega

/-- If nothing cuts the text, a semicolon is supplied for it or it has one of its own. -/
theorem exists_isSynthetic_iff (h : ∀ i, ¬ Stray text.toList i) :
    (∃ t ∈ tokenize text, t.isSynthetic) ↔ ¬ ClosesItself text := by
  constructor
  · rintro ⟨t, ht, hsynthetic⟩ ⟨u, hu, hk, hstop⟩
    obtain ⟨hu, hexplicit⟩ := List.mem_filter.1 hu
    have hexplicit : u.isSynthetic = false := by simpa using hexplicit
    -- Nothing comes behind the one token or the other, so they are the same.
    obtain ⟨ts, us, hts⟩ := List.append_of_mem ht
    obtain ⟨ts', us', hts'⟩ := List.append_of_mem hu
    obtain rfl := eq_nil_of_isSynthetic hts hsynthetic
    obtain rfl := eq_nil_of_stop_eq hts' hexplicit hk hstop
    obtain ⟨-, htu⟩ := List.append_inj' (hts.symm.trans hts') rfl
    cases htu
    rw [hsynthetic] at hexplicit
    cases hexplicit
  · intro hopen
    obtain ⟨t, hlast, hk⟩ := getLast?_tokenize h
    obtain ⟨ts, hts⟩ := List.getLast?_eq_some_iff.1 hlast
    have hmem : t ∈ tokenize text := List.mem_of_getLast? hlast
    refine ⟨t, hmem, ?_⟩
    by_contra hexplicit
    have hexplicit : t.isSynthetic = false := by simpa using hexplicit
    exact hopen ⟨t, List.mem_filter.2 ⟨hmem, by simp [hexplicit]⟩, hk, stop_eq_length h hts hexplicit⟩

theorem explicitTokens_concat {t : Token} (ht : t ∈ tokenize text) (hsynthetic : t.isSynthetic) :
    tokenize text = explicitTokens text ++ [t] := by
  obtain ⟨ts, us, hts⟩ := List.append_of_mem ht
  obtain rfl := eq_nil_of_isSynthetic hts hsynthetic
  have hexplicit : ∀ u ∈ ts, (!u.isSynthetic) = true := by
    intro u hu
    by_contra hu'
    obtain ⟨vs, ws, rfl⟩ := List.append_of_mem hu
    rw [List.append_assoc, List.cons_append] at hts
    have hnil := eq_nil_of_isSynthetic hts (by simpa using hu')
    simp at hnil
  rw [explicitTokens, hts, List.filter_append, List.filter_eq_self.2 hexplicit]
  simp [hsynthetic]

/-- Behind a semicolon of its own a text can go on, and another one is supplied where it ends. -/
theorem tokenize_append (h : ClosesItself text) (hne : g ≠ "") (hg : LastGap g.toList) :
    tokenize (text ++ g) = tokenize text ++ [.terminator (text ++ g).length] := by
  have hstray := not_stray_of_closesItself h
  have hnone : ¬ ∃ t ∈ tokenize text, t.isSynthetic := fun hs => (exists_isSynthetic_iff hstray).1 hs h
  obtain ⟨l, rfl⟩ := Layout.exists_text_eq hstray
  have hclosed : l.Closed := by
    by_contra hopen
    refine hnone ⟨.terminator l.text.length, ?_, Token.isSynthetic_terminator _⟩
    rw [l.tokenize_eq, if_neg hopen]
    simp
  obtain ⟨l', hwords, hlast, htext⟩ := l.exists_append hclosed hg
  have hopen : ¬ l'.Closed := fun hc => hne (String.toList_eq_nil_iff.1 (hlast.symm.trans hc.2))
  rw [← htext, l'.tokenize_eq, l.tokenize_eq, hwords, if_neg hopen, if_pos hclosed, List.append_nil]

theorem Grammar.bodySpan_concat {ss : List Statement} (h : ss ≠ []) (s : Statement) :
    bodySpan (ss ++ [s]) = ⟨(bodySpan ss).start, s.span.stop⟩ := by
  obtain ⟨s₁, ss, rfl⟩ := List.exists_cons_of_ne_nil h
  rw [bodySpan, List.getLast?_concat]
  rfl

/-- A semicolon that is supplied behind a program gives it one more statement. -/
theorem parse_of_tokenize_concat {s : String} {n : Nat}
    (htok : tokenize s = tokenize text ++ [.terminator n])
    (h : Program.parse .located text = .ok p) : Program.parse .located s =
      .ok ⟨p.body ++ [.empty (.emptyAt n)], ⟨p.span.start, n⟩⟩ := by
  obtain ⟨tss, ss, hflat, hne, hall, rfl⟩ := Program.parse_eq_ok_iff.1 h
  have hss : ss ≠ [] := by
    rintro rfl
    exact hne (List.forall₂_nil_right_iff.1 hall)
  have hempty : Grammar.ReadsStatement .located [.terminator n] (.empty (.emptyAt n)) := .empty rfl
  refine Program.parse_eq_ok_iff.2 ⟨tss ++ [[.terminator n]], ss ++ [.empty (.emptyAt n)], ?_, by simp,
    List.rel_append hall (.cons hempty .nil), ?_⟩
  · rw [htok, hflat, List.flatten_append, List.flatten_singleton]
  · rw [Grammar.bodySpan_concat hss]
    rfl

/-- A semicolon is supplied for a text just if it is not cut and does not end with one. -/
theorem supplied_tokenize (text : String) : Supplied text where
  cut h t ht := by simp [isSynthetic_of_mem_tokenize h ht]
  ends := getLast?_tokenize
  supplied_iff := exists_isSynthetic_iff
  once t ht hsynthetic :=
    ⟨eq_terminator_of_isSynthetic ht hsynthetic, explicitTokens_concat ht hsynthetic⟩
  isSynthetic_iff t ht := by
    have hstands := standsIn_of_mem_tokenize ht
    rw [hstands.isSynthetic_iff, hstands.lexeme_eq_empty_iff]
  append h _ hne hg := tokenize_append h hne hg
  parse h _ hne hg _ hp := parse_of_tokenize_concat (tokenize_append h hne hg) hp

-- The comment ends with a semicolon, and the text does not.
example : (tokenize "1;//;").getLast? = some (.terminator 5) := by decide +kernel

end

end Reckoner
