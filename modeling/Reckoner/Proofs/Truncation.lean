import Reckoner.Proofs.Excerpt

/-!
# Reading a text that is cut

Of a text with a stray character only the tokens before it are read, and no semicolon is supplied for
it. Up to its last token the text is a text of its own, for which a semicolon is supplied unless the
last token is one. So the two differ by that semicolon and by nothing else, and what comes of the one
tells what comes of the other (`CutShort`). A text without a stray character never ends too early.
-/

namespace Reckoner

/-- The text up to the end of its last token. -/
def upToLastToken (text : String) : String := (⟨0, lastStop 0 (tokenize text)⟩ : Span).excerpt text

example : upToLastToken "2 * 3 // a\n ? 4" = "2 * 3" := by decide +kernel

/-- What `read` makes of the text, if it fails as `fail` says where a text cannot be read. -/
structure CutShort {ε α : Type} (fail : ParseError → ε) (read : String → Except ε α)
    (text : String) : Prop where
  uncut : (∀ i, ¬ Stray text.toList i) → ∀ n, read text ≠ .error (fail (.unexpectedEnd n))
  /-- the tokens are those before the first stray character, with a gap behind the last -/
  last : ∀ i, Stray text.toList i → (∀ j < i, ¬ Stray text.toList j) →
    (∀ t ∈ tokenize text, t.span.stop ≤ i) ∧
      Gap (Span.slice text.toList ⟨lastStop 0 (tokenize text), i⟩)
  none : (∃ i, Stray text.toList i) → tokenize text = [] →
    read text = .error (fail (.unexpectedEnd 0))
  closed : (∃ i, Stray text.toList i) → ∀ t ∈ (tokenize text).getLast?, t.kind = .semicolon →
    read text = read (upToLastToken text)
  /-- a failure at a token that has characters -/
  explicit : (∃ i, Stray text.toList i) → ∀ t ∈ (tokenize text).getLast?, t.kind ≠ .semicolon →
    ∀ e, read (upToLastToken text) = .error (fail e) →
      (∃ u ∈ explicitTokens (upToLastToken text), e.Names u) → read text = .error (fail e)
  otherwise : (∃ i, Stray text.toList i) → ∀ t ∈ (tokenize text).getLast?, t.kind ≠ .semicolon →
    (∀ e, read (upToLastToken text) = .error (fail e) →
      ∀ u ∈ explicitTokens (upToLastToken text), ¬ e.Names u) →
    read text = .error (fail (.unexpectedEnd t.span.stop))
  /-- the only other failure of the text up to its last token is at the semicolon supplied for it -/
  supplied : (∃ i, Stray text.toList i) → ∀ t ∈ (tokenize text).getLast?, t.kind ≠ .semicolon →
    ∀ e, read (upToLastToken text) = .error (fail e) →
      (∃ u ∈ explicitTokens (upToLastToken text), e.Names u) ∨
        e.Names (.terminator (upToLastToken text).length)

/-! ### The tokens -/

section
variable {text : String} {t : Token} {i : Nat}

theorem unread_ne_nil (h : ∃ i, Stray text.toList i) : (Reader.start text).drain.2.text ≠ [] :=
  fun hnil => Nat.ne_of_lt (readLength_lt_iff.2 h) (unread_eq_nil_iff.1 hnil)

theorem tokenize_eq_words (h : ∃ i, Stray text.toList i) :
    tokenize text = (Reader.start text).words :=
  Reader.drain_eq_words rfl (unread_ne_nil h)

theorem isSynthetic_of_mem_tokenize (h : ∃ i, Stray text.toList i) (ht : t ∈ tokenize text) :
    t.isSynthetic = false := by
  rw [tokenize_eq_words h, Reader.words, List.mem_filter] at ht
  simpa using ht.2

theorem readLength_eq (h : Stray text.toList i) (hfirst : ∀ j < i, ¬ Stray text.toList j) :
    readLength text = i := by
  have hlt := stray_readLength (readLength_lt_iff.2 ⟨i, h⟩)
  refine Nat.le_antisymm (Nat.not_lt.1 fun hi => ?_) (Nat.not_lt.1 fun hi => ?_)
  · exact not_stray_of_lt_readLength hi h
  · exact hfirst _ hi hlt

theorem gap_before_stray (h : ∃ i, Stray text.toList i) :
    Gap (Span.slice text.toList ⟨lastStop 0 (tokenize text), readLength text⟩) := by
  rw [tokenize_eq_words h]
  exact Reader.gap_before_cut rfl (Reader.within_start text) (unread_ne_nil h)

/-- Every token of a text that is cut has characters, so the reader comes to it and through it. -/
theorem exists_passes_of_stray {front back : List Token} (h : ∃ i, Stray text.toList i)
    (hsplit : tokenize text = front ++ t :: back) : ∃ r, (Reader.start text).Passes (front ++ [t]) r ∧
      r.offset = t.span.stop ∧ r.closed = (t.kind == .semicolon) := by
  have hdrain : (Reader.start text).drain.1 = front ++ t :: back := hsplit
  obtain ⟨r₁, r₂, hpass₁, -, hpass₂, hfaces⟩ := Reader.exists_before rfl hdrain
  have hpass : (Reader.start text).Passes front r₂ := by simpa using hpass₁.trans hpass₂
  cases hfaces with
  | @piece p hp hk ht _ =>
    subst ht
    exact ⟨r₂.pass p, hpass.concat hp hk, rfl, rfl⟩
  | ending hnil _ _ _ =>
    refine absurd ?_ (unread_ne_nil h)
    rw [hpass.drain_eq, Reader.drain_stop hpass.ended_right (by rw [hnil]; rfl)]
    exact hnil

theorem stop_le_readLength (h : ∃ i, Stray text.toList i) (ht : t ∈ tokenize text) :
    t.span.stop ≤ readLength text := by
  obtain ⟨front, back, hsplit⟩ := List.append_of_mem ht
  obtain ⟨r, hpass, ho, -⟩ := exists_passes_of_stray h hsplit
  obtain ⟨k, hk, -⟩ := r.drain_stray hpass.ended_right
  rw [readLength, hpass.drain_eq, hk, ho]
  exact Nat.le_add_right _ k

/-- Up to its last token a text that is cut has the same tokens, and the semicolon that is missing. -/
theorem tokenize_upToLastToken (h : ∃ i, Stray text.toList i)
    (ht : (tokenize text).getLast? = some t) : tokenize (upToLastToken text) =
      tokenize text ++ if t.kind = .semicolon then [] else [.terminator t.span.stop] := by
  obtain ⟨front, hsplit⟩ := List.getLast?_eq_some_iff.1 ht
  obtain ⟨r, hpass, ho, hc⟩ := exists_passes_of_stray h hsplit
  have hex := hpass.tokenize_excerpt (Reader.within_start text) fun _ => by simp
  have hclosed : r.closed = true ↔ t.kind = .semicolon := by rw [hc]; exact beq_iff_eq
  rw [ho, if_congr hclosed rfl rfl, ← hsplit] at hex
  rw [upToLastToken, lastStop_eq, ht, ← hex]
  exact (List.map_id _).symm

theorem length_upToLastToken (ht : (tokenize text).getLast? = some t) :
    (upToLastToken text).length = t.span.stop := by
  have hstop : lastStop 0 (tokenize text) = t.span.stop := by rw [lastStop_eq, ht]; rfl
  have hle := (standsIn_of_mem_tokenize (List.mem_of_getLast? ht)).within
  rw [upToLastToken, Span.excerpt, String.length_ofList, hstop, Span.slice]
  simp only [Span.length, List.drop_zero, Nat.sub_zero, List.length_take]
  exact Nat.min_eq_left hle

theorem mem_explicitTokens_upToLastToken {u : Token} (h : ∃ i, Stray text.toList i)
    (ht : (tokenize text).getLast? = some t) (hu : u ∈ tokenize text) :
    u ∈ explicitTokens (upToLastToken text) := by
  refine List.mem_filter.2 ⟨?_, by simp [isSynthetic_of_mem_tokenize h hu]⟩
  rw [tokenize_upToLastToken h ht]
  exact List.mem_append_left _ hu

end

/-! ### The outcome -/

section
variable {b : Builder} {text : String} {e : ParseError} {t u : Token} {n : Nat}

theorem ParseError.Names.eq (ht : e.Names t) (hu : e.Names u) :
    t.kind = u.kind ∧ t.span = u.span := by
  cases e with
  | unexpectedToken | unexpectedLiteral => exact ⟨ht.1.symm.trans hu.1, ht.2.symm.trans hu.2⟩
  | unexpectedEnd => exact ht.elim

theorem ParseError.Names.not_explicit (ht : e.Names (.terminator n))
    (hu : u ∈ explicitTokens text) : ¬ e.Names u := by
  intro h
  obtain ⟨hk, hs⟩ := ht.eq h
  have hsynthetic := (List.mem_filter.1 hu).2
  rw [Token.isSynthetic, ← hk, ← hs] at hsynthetic
  have := Token.isSynthetic_terminator n
  simp_all [Token.isSynthetic]

theorem parse_ne_unexpectedEnd (h : ∀ i, ¬ Stray text.toList i) :
    Program.parse b text ≠ .error (.unexpectedEnd n) := by
  intro hp
  have hend := unread_eq_nil_iff.2 (readLength_eq_length h)
  rcases Reader.getLast?_drain rfl hend with ⟨-, hc⟩ | ⟨t, ht, hk⟩
  · cases hc
  · obtain ⟨u, -, hu⟩ := Scan.exists_names_of_verdict ht hk (Scan.verdict_of_parse_eq_error hp)
    exact hu

/-- A text that is cut behind a token that is no semicolon fails at one of its tokens, and then so
it does up to the last of them, or else it ends too early. -/
theorem parse_of_stray (b : Builder) (h : ∃ i, Stray text.toList i)
    (ht : (tokenize text).getLast? = some t) (hk : t.kind ≠ .semicolon) :
    (∃ e, Program.parse b text = .error e ∧ Program.parse b (upToLastToken text) = .error e ∧
        ∃ u ∈ explicitTokens (upToLastToken text), e.Names u) ∨
      Program.parse b text = .error (.unexpectedEnd t.span.stop) ∧
        ∀ e, Program.parse b (upToLastToken text) = .error e →
          e.Names (.terminator (upToLastToken text).length) := by
  have htok := tokenize_upToLastToken h ht
  rw [if_neg hk] at htok
  simp only [Scan.parse_eq_error_iff, htok]
  -- The scan stops at a token that both texts have, or else at the supplied semicolon if anywhere.
  cases hs : (tokenize text).foldlM Scan.step Scan.start with
  | error e =>
    obtain ⟨u, hu, he⟩ := Scan.exists_names_of_foldlM hs
    exact .inl ⟨e, Scan.verdict_of_error hs, Scan.verdict_append_of_error hs _, u,
      mem_explicitTokens_upToLastToken h ht hu, he⟩
  | ok s =>
    refine .inr ⟨by rw [Scan.verdict_of_foldlM hs ht, if_neg hk], fun e he => ?_⟩
    rw [Scan.verdict_concat _ rfl, hs, ← length_upToLastToken ht] at he
    cases hstep : s.step (.terminator (upToLastToken text).length) with
    | error e' =>
      rw [Except.bind, hstep] at he
      cases he
      exact Scan.names_of_step hstep
    | ok s' => rw [Except.bind, hstep] at he; cases he

end

section
variable {ε α : Type} {fail : ParseError → ε} {read : String → Except ε α} {b : Builder}

/-- What fails where a text cannot be read, and depends on the text only as far as it is read. -/
theorem cutShort_of_parse (b : Builder)
    (hfail : ∀ s e, read s = .error (fail e) ↔ Program.parse b s = .error e)
    (hcongr : ∀ s s', Program.parse b s = Program.parse b s' → read s = read s')
    (text : String) : CutShort fail read text where
  uncut h n := fun hread => parse_ne_unexpectedEnd h ((hfail _ _).1 hread)
  last i hi hfirst := by
    have hlen := readLength_eq hi hfirst
    exact ⟨fun t ht => hlen ▸ stop_le_readLength ⟨i, hi⟩ ht, hlen ▸ gap_before_stray ⟨i, hi⟩⟩
  none h htok := by
    rw [hfail, Scan.parse_eq_error_iff, htok]
    rfl
  closed h t ht hk := by
    refine hcongr _ _ (Program.parse_congr ?_)
    rw [tokenize_upToLastToken h ht, if_pos hk, List.append_nil]
  explicit h t ht hk e he := by
    rintro ⟨u, hu, hnames⟩
    rw [hfail] at he ⊢
    rcases parse_of_stray b h ht hk with ⟨e', htext, hp, -⟩ | ⟨-, hsupplied⟩
    · cases he.symm.trans hp
      exact htext
    · exact absurd hnames ((hsupplied e he).not_explicit hu)
  otherwise h t ht hk hno := by
    rw [hfail]
    rcases parse_of_stray b h ht hk with ⟨e, -, hp, u, hu, hnames⟩ | ⟨htext, -⟩
    · exact absurd hnames (hno e ((hfail _ _).2 hp) u hu)
    · exact htext
  supplied h t ht hk e he := by
    rw [hfail] at he
    rcases parse_of_stray b h ht hk with ⟨e', -, hp, hnames⟩ | ⟨-, hsupplied⟩
    · cases he.symm.trans hp
      exact .inl hnames
    · exact .inr (hsupplied e he)

/-- Reading a text that is cut, and running it, come to what its tokens before the cut come to. -/
theorem cutShort_parse_run (b : Builder) (text : String) :
    CutShort id (Program.parse b) text ∧ CutShort Error.parse (fun s => (run s).result) text :=
  ⟨cutShort_of_parse b (fun _ _ => Iff.rfl) (fun _ _ h => h) text,
    cutShort_of_parse .located (fun _ _ => run_eq_parse_error_iff) (fun _ _ => run_congr) text⟩

end

end Reckoner
