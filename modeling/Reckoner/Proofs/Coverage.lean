import Reckoner.Proofs.Cut

/-!
# The tokens cover the text

Every character of a text up to its cut is in one token or in the gap before one, and from the cut on
nothing is read. The parts of this are in `Lossless`. They are proved along the pieces of the text
for a reader that has come to some point of it, with what it has left as `Reader.words`, and the
front of the text is one such point.
-/

namespace Reckoner
open Text

/-- The characters of a text that a span covers. -/
def Span.slice (cs : List Char) (s : Span) : List Char := (cs.drop s.start).take s.length

/-- What stands before each of the tokens in a text, for the first one from `n` on. -/
def gaps (cs : List Char) : Nat → List Token → List (List Char)
  | _, [] => []
  | n, t :: ts => Span.slice cs ⟨n, t.span.start⟩ :: gaps cs t.span.stop ts

/-- Where the last token ends, or `n` if there is none. -/
def lastStop : Nat → List Token → Nat
  | n, [] => n
  | _, t :: ts => lastStop t.span.stop ts

namespace Span
variable {cs : List Char} {a b : Nat}

theorem slice_append_drop (h : a ≤ b) : slice cs ⟨a, b⟩ ++ cs.drop b = cs.drop a := by
  have hb : cs.drop b = (cs.drop a).drop (b - a) := by
    rw [List.drop_drop, Nat.add_sub_cancel' h]
  rw [slice, length, hb, List.take_append_drop]

theorem slice_self (cs : List Char) (a : Nat) : slice cs ⟨a, a⟩ = [] := by
  simp [slice, length]

end Span

/-! ### Call by call -/

namespace Reader
variable {r r' : Reader} {t : Token} {n : Nat}

/-- The reader after `n` calls of `next`. -/
def after (r : Reader) : Nat → Reader
  | 0 => r
  | n + 1 => r.next.2.after n

theorem ended_of_next_eq_none (h : r.next = (none, r')) : r'.ended = true := by
  fun_induction next r with
  | case1 r hr => cases h; exact hr
  | case2 r hr p hp hk ih => exact ih h
  | case3 => cases h
  | case4 => cases h
  | case5 => cases h; rfl

theorem offset_of_next_eq_some (h : r.next = (some t, r')) : r'.offset = t.span.stop := by
  fun_induction next r with
  | case1 => cases h
  | case2 r hr p hp hk ih => exact ih h
  | case3 => cases h; rfl
  | case4 => cases h; rfl
  | case5 => cases h

theorem next_ended (hr : r.ended = true) : r.next = (none, r) := by
  rw [next, if_pos hr]

theorem after_ended (hr : r.ended = true) (n : Nat) : r.after n = r := by
  induction n with
  | zero => rfl
  | succ n ih => rw [after, next_ended hr, ih]

/-- The calls of `next` give what `drain` collects, then nothing. -/
theorem next_after (r : Reader) (n : Nat) : (r.after n).next.1 = r.drain.1[n]? := by
  induction n generalizing r with
  | zero =>
    rcases h : r.next with ⟨_ | t, r'⟩
    · rw [drain_none h, after, h]; rfl
    · rw [drain_some h, after, h]; rfl
  | succ n ih =>
    rcases h : r.next with ⟨_ | t, r'⟩
    · have hr := ended_of_next_eq_none h
      rw [drain_none h, after, h, after_ended hr, next_ended hr]; rfl
    · rw [drain_some h, after, h, ih]; rfl

theorem after_of_lt (h : r.drain.1.length < n) : r.after n = r.drain.2 := by
  induction n generalizing r with
  | zero => exact absurd h (Nat.not_lt_zero _)
  | succ n ih =>
    rcases hn : r.next with ⟨_ | t, r'⟩
    · rw [drain_none hn, after, hn, after_ended (ended_of_next_eq_none hn)]
    · rw [drain_some hn] at h ⊢
      rw [after, hn]
      exact ih (Nat.lt_of_succ_lt_succ h)

theorem offset_after_succ (h : t ∈ r.drain.1[n]?) : (r.after (n + 1)).offset = t.span.stop := by
  have succ : r.after (n + 1) = (r.after n).next.2 := by
    clear h
    induction n generalizing r with
    | zero => rfl
    | succ n ih => rw [after, ih, after]
  rw [← next_after] at h
  rw [succ]
  exact offset_of_next_eq_some (Prod.ext (Option.mem_def.1 h) rfl)

end Reader

/-! ### Words -/

namespace Reader
variable {r : Reader} {p : Piece} {cs : List Char}

/-- The tokens that are left, without the semicolon that the reader supplies. -/
def words (r : Reader) : List Token := r.drain.1.filter fun t => !t.isSynthetic

theorem words_stop (hr : r.ended = false) (hp : Piece.first? r.text = none) : r.words = [] := by
  rw [words, drain_stop hr hp]
  split
  · exact List.filter_eq_nil_iff.2 (by simp [Token.isSynthetic_terminator])
  · rfl

theorem words_blank (hr : r.ended = false) (hp : Piece.first? r.text = some p)
    (hk : p.kind = .blank) : r.words = (r.pass p).words := by
  rw [words, drain_blank hr hp hk, words]

theorem isSynthetic_token (hp : Piece.first? r.text = some p) : (r.token p).isSynthetic = false := by
  have hpos := List.length_pos_iff.2 (Piece.lexeme_ne_nil hp)
  have hempty : (r.token p).span.isEmpty = false :=
    decide_eq_false (Nat.not_le.2 (Nat.lt_add_of_pos_right hpos))
  rw [Token.isSynthetic, hempty, Bool.and_false]

theorem words_token (hr : r.ended = false) (hp : Piece.first? r.text = some p)
    (hk : p.kind ≠ .blank) : r.words = r.token p :: (r.pass p).words := by
  rw [words, drain_token hr hp hk, List.filter_cons_of_pos (by simp [isSynthetic_token hp]), words]

theorem drain_eq_words (hr : r.ended = false) (hne : r.drain.2.text ≠ []) :
    r.drain.1 = r.words := by
  induction r, hr using piece_induct with
  | stop r hr hp =>
    rw [drain_stop hr hp] at hne
    rw [words_stop hr hp, drain_stop hr hp]
    exact if_neg fun h => hne h.1
  | step r p hr hp ih =>
    rw [drain_pass hr hp] at hne
    have ih := ih hne
    by_cases hk : p.kind = .blank
    · rw [words_blank hr hp hk, drain_blank hr hp hk, ih]
    · rw [words_token hr hp hk, drain_token hr hp hk, ih]

end Reader

/-! ### Gaps -/

namespace Reader
variable {r : Reader} {p : Piece} {t : Token} {cs : List Char}

theorem standsIn_of_mem_words (hr : r.ended = false) (h : r.Within cs) (ht : t ∈ r.words) :
    t.StandsIn cs ∧ r.offset ≤ t.span.start :=
  standsIn_of_mem_drain hr h t (List.mem_filter.1 ht).1

theorem spells_of_mem_words (hr : r.ended = false) (h : r.Within cs) (ht : t ∈ r.words) :
    t.kind.Spells t.lexeme.toList := by
  refine (standsIn_of_mem_words hr h ht).1.spelled.resolve_right ?_
  rintro rfl
  have := (List.mem_filter.1 ht).2
  rw [Token.isSynthetic_terminator] at this
  cases this

/-- A piece that is no token goes on the gap behind it, up to the next character that is no blank. -/
theorem gap_pass {m : Nat} (h : r.Within cs) (hp : Piece.first? r.text = some p)
    (hk : p.kind = .blank) (hm : (r.pass p).offset ≤ m) (hd : ∃ d ∈ cs[m]?, ¬ isBlank d)
    (hg : Gap (Span.slice cs ⟨(r.pass p).offset, m⟩)) : Gap (Span.slice cs ⟨r.offset, m⟩) := by
  obtain ⟨d, hd, hblank⟩ := hd
  have hrest : p.rest = Span.slice cs ⟨(r.pass p).offset, m⟩ ++ d :: cs.drop (m + 1) := by
    have hdrop : cs.drop m = d :: cs.drop (m + 1) := by
      obtain ⟨hlt, rfl⟩ := List.getElem?_eq_some_iff.1 hd
      exact List.drop_eq_getElem_cons hlt
    rw [← hdrop, Span.slice_append_drop hm]
    exact (h.pass hp).text
  have hslice : Span.slice cs ⟨r.offset, m⟩ =
      p.lexeme ++ Span.slice cs ⟨(r.pass p).offset, m⟩ := by
    have hle : r.offset ≤ m := Nat.le_trans (Nat.le_add_right _ _) hm
    refine (List.append_left_inj (cs.drop m)).1 ?_
    rw [List.append_assoc, Span.slice_append_drop hle, Span.slice_append_drop hm, ← h.text,
      ← (h.pass hp).text]
    exact (Piece.lexeme_append_rest hp).symm
  rw [hslice]
  exact hg.piece hp hk hrest hblank

theorem exists_not_blank_of_mem_words (hr : r.ended = false) (h : r.Within cs) (ht : t ∈ r.words) :
    ∃ d ∈ cs[t.span.start]?, ¬ isBlank d := by
  have hspells := spells_of_mem_words hr h ht
  obtain ⟨d, ds, hl⟩ := List.exists_cons_of_ne_nil hspells.ne_nil
  refine ⟨d, ?_, hspells.not_isBlank (hl ▸ List.mem_cons_self)⟩
  have happ := List.take_append_drop t.lexeme.length (cs.drop t.span.start)
  rw [(standsIn_of_mem_words hr h ht).1.slice, hl] at happ
  rw [← List.head?_drop, ← happ]
  rfl

theorem exists_foreign_of_cut (hr : r.ended = false) (h : r.Within cs) (hne : r.drain.2.text ≠ []) :
    r.offset ≤ r.drain.2.offset ∧ ∃ c ∈ cs[r.drain.2.offset]?, Foreign c := by
  obtain ⟨k, hoffset, -, -, hat⟩ := drain_stray hr
  obtain ⟨c, hc, hf, -⟩ := hat hne
  refine ⟨by omega, c, ?_, hf⟩
  rwa [hoffset, ← List.getElem?_drop, ← h.text]

theorem gap_of_mem_gaps (hr : r.ended = false) (h : r.Within cs) :
    ∀ g ∈ gaps cs r.offset r.words, Gap g := by
  induction r, hr using piece_induct with
  | stop r hr hp =>
    rw [words_stop hr hp]
    exact fun _ hg => absurd hg List.not_mem_nil
  | step r p hr hp ih =>
    have ih := ih (h.pass hp)
    by_cases hk : p.kind = .blank
    · rw [words_blank hr hp hk]
      cases hws : (r.pass p).words with
      | nil => exact fun _ hg => absurd hg List.not_mem_nil
      | cons t ts =>
        have ht : t ∈ (r.pass p).words := by rw [hws]; exact List.mem_cons_self
        have hd := exists_not_blank_of_mem_words rfl (h.pass hp) ht
        have hle := (standsIn_of_mem_words rfl (h.pass hp) ht).2
        rw [hws] at ih
        obtain ⟨hg, hgs⟩ := List.forall_mem_cons.1 ih
        exact List.forall_mem_cons.2 ⟨gap_pass h hp hk hle hd hg, hgs⟩
    · rw [words_token hr hp hk]
      refine List.forall_mem_cons.2 ⟨?_, ih⟩
      show Gap (Span.slice cs ⟨r.offset, r.offset⟩)
      rw [Span.slice_self]
      exact .nil

theorem gap_before_cut (hr : r.ended = false) (h : r.Within cs) (hne : r.drain.2.text ≠ []) :
    Gap (Span.slice cs ⟨lastStop r.offset r.words, r.drain.2.offset⟩) := by
  induction r, hr using piece_induct with
  | stop r hr hp =>
    rw [words_stop hr hp, drain_stop hr hp, lastStop, Span.slice_self]
    exact .nil
  | step r p hr hp ih =>
    rw [drain_pass hr hp] at hne ⊢
    have ih := ih (h.pass hp) hne
    by_cases hk : p.kind = .blank
    · rw [words_blank hr hp hk]
      cases hws : (r.pass p).words with
      | nil =>
        obtain ⟨hle, c, hc, hf⟩ := exists_foreign_of_cut rfl (h.pass hp) hne
        rw [hws] at ih
        exact gap_pass h hp hk hle ⟨c, hc, hf.1⟩ ih
      | cons t ts => rwa [hws] at ih
    · rw [words_token hr hp hk]
      exact ih

theorem lastGap_drop (hr : r.ended = false) (h : r.Within cs) (hnil : r.drain.2.text = []) :
    LastGap (cs.drop (lastStop r.offset r.words)) := by
  induction r, hr using piece_induct with
  | stop r hr hp =>
    rw [drain_stop hr hp] at hnil
    rw [words_stop hr hp, lastStop, ← h.text, show r.text = [] from hnil]
    exact .gap .nil
  | step r p hr hp ih =>
    rw [drain_pass hr hp] at hnil
    have ih := ih (h.pass hp) hnil
    by_cases hk : p.kind = .blank
    · rw [words_blank hr hp hk]
      cases hws : (r.pass p).words with
      | nil =>
        rw [hws, lastStop, ← (h.pass hp).text] at ih
        rw [lastStop, ← h.text, ← Piece.lexeme_append_rest hp]
        exact ih.piece hp hk
      | cons t ts => rwa [hws] at ih
    · rw [words_token hr hp hk]
      exact ih

end Reader

/-! ### Whole tokens -/

/-- No run of digits goes on through the offset `n`. -/
def Unglued (cs : List Char) (n : Nat) : Prop :=
  ∀ i, i + 1 = n → ∀ c ∈ cs[i]?, c.isDigit → ∀ d ∈ cs[n]?, ¬ d.isDigit

/-- The token does not end where the text would go on it: a number is all of a run of digits, and
what is taken for a division is not the start of a comment. -/
structure Token.Whole (cs : List Char) (t : Token) : Prop where
  before : t.kind = .number → ∀ i, i + 1 = t.span.start → ∀ c ∈ cs[i]?, ¬ c.isDigit
  behind : t.kind = .number → ∀ c ∈ cs[t.span.stop]?, ¬ c.isDigit
  slash : t.lexeme = "/" → cs[t.span.stop]? ≠ some '/'

theorem Piece.not_isDigit_of_getLast? {cs : List Char} {p : Piece} {c d : Char}
    (hp : first? cs = some p) (hc : c ∈ p.lexeme.getLast?) (hdigit : c.isDigit)
    (hd : d ∈ p.rest.head?) : ¬ d.isDigit := by
  have hmem : c ∈ p.lexeme := List.mem_of_getLast? hc
  by_cases hk : p.kind = .blank
  · rcases blank_of_first? hp hk with hb | ⟨ds, -, -, hb⟩
    · have := hb c hmem
      rw [isBlank_of_isDigit hdigit] at this
      cases this
    · intro hd'
      have := isBlank_of_isLineBreak (hb d hd)
      rw [isBlank_of_isDigit hd'] at this
      cases this
  · exact (ends_of_first? hp hk d hd).1 ((spells_of_first? hp hk).eq_number hmem hdigit)

namespace Reader
variable {r : Reader} {p : Piece} {t : Token} {cs : List Char}

theorem Within.head?_rest (h : r.Within cs) (hp : Piece.first? r.text = some p) :
    p.rest.head? = cs[r.offset + p.lexeme.length]? := by
  have := (h.pass hp).text
  rw [← List.head?_drop]
  exact congrArg List.head? this

theorem unglued_pass (h : r.Within cs) (hp : Piece.first? r.text = some p) :
    Unglued cs (r.pass p).offset := by
  intro i hi c hc hdigit d hd
  refine Piece.not_isDigit_of_getLast? hp ?_ hdigit ((h.head?_rest hp).symm ▸ hd)
  have hpos := List.length_pos_iff.2 (Piece.lexeme_ne_nil hp)
  have hi' : i = r.offset + (p.lexeme.length - 1) := by
    simp only [pass] at hi
    omega
  rw [hi', ← List.getElem?_drop, ← h.text, ← Piece.lexeme_append_rest hp,
    List.getElem?_append_left (by omega)] at hc
  rwa [List.getLast?_eq_getElem?]

theorem whole_token (h : r.Within cs) (hu : Unglued cs r.offset)
    (hp : Piece.first? r.text = some p) (hk : p.kind ≠ .blank) : (r.token p).Whole cs where
  before hn i hi c hc hdigit := by
    have hspells := Piece.spells_of_first? hp hk
    rw [show p.kind = .number from hn] at hspells
    obtain ⟨d, ds, hl⟩ := List.exists_cons_of_ne_nil hspells.1
    refine hu i hi c hc hdigit d ?_ (hspells.2 d (hl ▸ List.mem_cons_self))
    rw [← List.head?_drop, ← h.text, ← Piece.lexeme_append_rest hp, hl]
    rfl
  behind hn d hd := by
    rw [show (r.token p).span.stop = r.offset + p.lexeme.length from rfl, ← h.head?_rest hp] at hd
    exact (Piece.ends_of_first? hp hk d hd).1 hn
  slash hl hd := by
    rw [show (r.token p).span.stop = r.offset + p.lexeme.length from rfl, ← h.head?_rest hp] at hd
    refine (Piece.ends_of_first? hp hk '/' hd).2 ?_ rfl
    simpa [token] using congrArg String.toList hl

theorem whole_of_mem_words (hr : r.ended = false) (h : r.Within cs) (hu : Unglued cs r.offset) :
    ∀ t ∈ r.words, t.Whole cs := by
  induction r, hr using piece_induct with
  | stop r hr hp =>
    rw [words_stop hr hp]
    exact fun _ ht => absurd ht List.not_mem_nil
  | step r p hr hp ih =>
    have ih := ih (h.pass hp) (unglued_pass h hp)
    by_cases hk : p.kind = .blank
    · rwa [words_blank hr hp hk]
    · rw [words_token hr hp hk]
      exact List.forall_mem_cons.2 ⟨whole_token h hu hp hk, ih⟩

end Reader

/-! ### The whole text -/

/-- The tokens of a text that the reader has not supplied. -/
def explicitTokens (text : String) : List Token :=
  (tokenize text).filter fun t => !t.isSynthetic

/-- The tokens of a text account for all of it that is read. -/
structure Lossless (text : String) : Prop where
  /-- The tokens come one for each call, and nothing comes behind them. -/
  next : ∀ n, ((Reader.start text).after n).next.1 = (tokenize text)[n]?
  /-- A call that gives a token leaves the reader behind it. -/
  offset : ∀ n, ∀ t ∈ (tokenize text)[n]?, ((Reader.start text).after (n + 1)).offset = t.span.stop
  final : ∀ n > (tokenize text).length, ((Reader.start text).after n).offset = readLength text
  nonempty : ∀ t ∈ explicitTokens text, t.span.start < t.span.stop
  within : ∀ t ∈ explicitTokens text, t.span.stop ≤ text.length
  ordered : (explicitTokens text).Pairwise fun t u => t.span.stop ≤ u.span.start
  lexeme : ∀ t ∈ explicitTokens text, t.lexeme.toList = t.span.slice text.toList
  spelled : ∀ t ∈ explicitTokens text, t.kind.Spells t.lexeme.toList
  whole : ∀ t ∈ explicitTokens text, t.Whole text.toList
  gaps : ∀ g ∈ gaps text.toList 0 (explicitTokens text), Gap g
  early : readLength text < text.length ↔ ∃ i, Stray text.toList i
  /-- A text is cut at its first stray character, and no semicolon is supplied for it. -/
  cut : readLength text < text.length → Stray text.toList (readLength text) ∧
    (∀ i < readLength text, ¬ Stray text.toList i) ∧ tokenize text = explicitTokens text ∧
    Gap (Span.slice text.toList ⟨lastStop 0 (explicitTokens text), readLength text⟩)
  uncut : (∀ i, ¬ Stray text.toList i) → readLength text = text.length ∧
    LastGap (text.toList.drop (lastStop 0 (explicitTokens text)))

theorem Token.StandsIn.lexeme_eq_slice {cs : List Char} {t : Token} (h : t.StandsIn cs) :
    t.lexeme.toList = t.span.slice cs := by
  have hlen : t.span.length = t.lexeme.length := by
    rw [Span.length, h.stop, Nat.add_sub_cancel_left]
  rw [Span.slice, hlen, h.slice]

/-- Every character of a text up to its cut is in one token or in the gap before one. -/
theorem lossless_tokenize (text : String) : Lossless text := by
  have within := Reader.within_start text
  have stands : ∀ t ∈ explicitTokens text, t.StandsIn text.toList := fun t ht =>
    (Reader.standsIn_of_mem_words rfl within ht).1
  have spells : ∀ t ∈ explicitTokens text, t.kind.Spells t.lexeme.toList := fun t ht =>
    Reader.spells_of_mem_words rfl within ht
  exact {
    next := fun n => Reader.next_after _ n
    offset := fun n t ht => Reader.offset_after_succ ht
    final := fun n hn => by rw [Reader.after_of_lt hn, readLength]
    nonempty := fun t ht => (stands t ht).start_lt_stop_of_spells (spells t ht)
    within := fun t ht => (stands t ht).within
    ordered := (pairwise_tokenize text).filter _
    lexeme := fun t ht => (stands t ht).lexeme_eq_slice
    spelled := spells
    whole := Reader.whole_of_mem_words rfl within fun i hi => absurd hi (Nat.succ_ne_zero i)
    gaps := Reader.gap_of_mem_gaps rfl within
    early := readLength_lt_iff
    cut := fun hlt => by
      have hne : (Reader.start text).drain.2.text ≠ [] := fun hnil =>
        Nat.ne_of_lt hlt (unread_eq_nil_iff.1 hnil)
      exact ⟨stray_readLength hlt, fun i hi => not_stray_of_lt_readLength hi,
        Reader.drain_eq_words rfl hne, Reader.gap_before_cut rfl within hne⟩
    uncut := fun hn =>
      have hend := readLength_eq_length hn
      ⟨hend, Reader.lastGap_drop rfl within (unread_eq_nil_iff.2 hend)⟩ }

end Reckoner
