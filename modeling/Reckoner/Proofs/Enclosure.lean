import Reckoner.Proofs.Join
import Reckoner.Proofs.LayoutFree
import Reckoner.Proofs.Truncation

/-!
# Texts in parentheses

A pair of parentheses around an expression moves it by the one character that opens, and makes it go
up to the one that closes (`Enclosable.parse_enclose_one`). The next pair does the same: it moves all
that there is, and overwrites what the pair inside had made of the end. So `n` pairs move the parts
of the expression by `n`, and only the expression as a whole is longer than before (`Enclosed`).
-/

namespace Reckoner
open Text

/-- The text in `n` pairs of parentheses. -/
def enclose (n : Nat) (text : String) : String :=
  String.ofList (List.replicate n '(' ++ text.toList ++ List.replicate n ')')

/-- What the expression of a text of `m` characters is in `n` pairs of parentheses. -/
def Expr.enclose (n m : Nat) (x : Expr) : Expr :=
  (x.relocate (· + n)).withSpan ⟨x.span.start + n, m + 2 * n⟩

/-- The text is the expression `x`. A semicolon is supplied for it, and it does not end with a
comment, which would take in what is put behind. -/
structure Enclosable (text : String) (x : Expr) : Prop where
  uncut : ∀ i, ¬ Stray text.toList i
  supplied : ∃ t ∈ (tokenize text).getLast?, t.isSynthetic
  comment : ¬ InComment text.toList (text.length - 1)
  parse : ∃ s s', Program.parse .located text = .ok ⟨[.expression x s], s'⟩

/-- What becomes of the text, which is the expression `x`, in `n` pairs of parentheses. -/
structure Enclosed (n : Nat) (text : String) (x : Expr) : Prop where
  parse : Program.parse .located (enclose n text) =
    .ok ⟨[.expression (x.enclose n text.length) ⟨0, text.length + 2 * n⟩],
      ⟨0, text.length + 2 * n⟩⟩
  unlocated : ∃ r, Program.parse .unlocated text = .ok r ∧
    Program.parse .unlocated (enclose n text) = .ok r
  evaluation : ∀ p q, Program.parse .located text = .ok p →
    Program.parse .located (enclose n text) = .ok q → p.EvaluateAlike q

/-! ### Pair by pair -/

section
variable {f g : Nat → Nat}

theorem Operand.relocate_relocate (a : Operand) :
    (a.relocate f).relocate g = a.relocate (g ∘ f) := by
  induction a with
  | literal l => rfl
  | unary op a s ih => exact congrArg (unary op · _) ih

theorem Expr.relocate_relocate (e : Expr) : (e.relocate f).relocate g = e.relocate (g ∘ f) := by
  induction e with
  | literal l => rfl
  | binary op l r s ihl ihr => exact congrArg₂ (binary op · · _) ihl ihr
  | unary u => exact congrArg (fun a => unary ⟨u.op, a, _⟩) u.argument.relocate_relocate

theorem Expr.erase_relocate (e : Expr) : (e.relocate f).erase = e.erase := by
  rw [erase_eq_relocate, erase_eq_relocate, relocate_relocate]
  rfl

theorem Expr.withSpan_withSpan (s s' : Span) (e : Expr) :
    (e.withSpan s).withSpan s' = e.withSpan s' := by
  cases e <;> rfl

end

section
variable {n m : Nat} {text : String} {x : Expr}

theorem Expr.enclose_succ (n m : Nat) (x : Expr) :
    (x.enclose n m).enclose 1 (m + 2 * n) = x.enclose (n + 1) m := by
  unfold enclose
  rw [relocate_withSpan, withSpan_withSpan, relocate_relocate, span_withSpan]
  rfl

theorem Expr.erase_enclose (n m : Nat) (x : Expr) : (x.enclose n m).erase = x.erase := by
  rw [enclose, erase_withSpan, erase_relocate]

theorem toList_enclose_one (text : String) :
    (enclose 1 text).toList = '(' :: (text.toList ++ [')']) := by
  simp [enclose]

theorem length_enclose (n : Nat) (text : String) :
    (enclose n text).length = text.length + 2 * n := by
  simp [enclose, ← String.length_toList]
  omega

theorem enclose_succ (n : Nat) (text : String) :
    enclose (n + 1) text = enclose 1 (enclose n text) := by
  rw [← String.toList_inj, toList_enclose_one]
  rw [enclose, List.replicate_succ' (a := ')'), List.replicate_succ]
  simp [enclose]

/-! ### One pair -/

/-- The parenthesis at the offset `n`. -/
def Token.opening (n : Nat) : Token := ⟨.opening, "(", ⟨n, n + 1⟩⟩

def Token.closing (n : Nat) : Token := ⟨.closing, ")", ⟨n, n + 1⟩⟩

theorem not_inComment_enclose {cs : List Char} (h : ¬ InComment cs (cs.length - 1)) :
    ¬ InComment ('(' :: (cs ++ [')'])) (cs.length + 1) := by
  rintro ⟨j, hj, hs, hs', hbreak⟩
  -- The slashes stand between the parentheses, so in the text.
  obtain ⟨i, rfl⟩ : ∃ i, j = i + 1 := by
    refine Nat.exists_eq_add_one_of_ne_zero ?_
    rintro rfl
    cases hs
  rw [List.getElem?_cons_succ] at hs hs'
  have hi : i + 1 < cs.length := by
    by_contra hge
    rw [List.getElem?_append_right (by omega)] at hs'
    have hmem := List.mem_of_getElem? hs'
    simp at hmem
  rw [List.getElem?_append_left (by omega)] at hs hs'
  refine h ⟨i, by omega, hs, hs', fun k hik hk c hc => hbreak (k + 1) (by omega) (by omega) c ?_⟩
  rwa [List.getElem?_cons_succ, List.getElem?_append_left (by omega)]

theorem tokenize_enclose_one (h : ∃ t ∈ (tokenize text).getLast?, t.isSynthetic)
    (hc : ¬ InComment text.toList (text.length - 1)) :
    ∃ ts, tokenize text = ts ++ [Token.terminator text.length] ∧ tokenize (enclose 1 text) =
      Token.opening 0 :: (ts.map (Token.relocate (· + 1)) ++ [Token.closing (text.length + 1)]) ++
        [Token.terminator (text.length + 2)] := by
  obtain ⟨ts, r, htok, -, hpass, ht, ho⟩ := exists_passes_append (c := ')') h hc
    (by decide) (by decide) (by decide) []
  refine ⟨ts, htok, ?_⟩
  have hclosing := Reader.drain_word (k := .closing) (w := [')']) hpass.ended_right ht rfl
    (Piece.ends_of_ne (by decide) (by decide))
  have hinner : ({ Reader.start text with text := text.toList ++ [')'] } : Reader).drain.1 =
      ts ++ [Token.closing text.length, Token.terminator (text.length + 1)] := by
    rw [hpass.drain_eq, hclosing, Reader.drain_stop rfl rfl, Reader.token, ho, Reader.pass, ho]
    rfl
  -- Behind the first parenthesis the reader goes on as from the front, one character later.
  have hmoved : (⟨text.toList ++ [')'], 1, false, false⟩ : Reader).drain.1 =
      (ts ++ [Token.closing text.length, Token.terminator (text.length + 1)]).map
        (Token.relocate (· + 1)) := by
    rw [← hinner]
    refine Reader.drain_relocate rfl rfl rfl (fun _ => rfl) fun i => ?_
    simp only [Reader.start]
    omega
  have hstart : Reader.start (enclose 1 text) =
      ⟨['('] ++ (text.toList ++ [')']), 0, false, false⟩ := by
    rw [Reader.start, toList_enclose_one]
    rfl
  have hopening := Reader.drain_word (k := .opening) (w := ['(']) rfl (congrArg Reader.text hstart)
    rfl (Piece.ends_of_ne (by decide) (by decide))
  show (Reader.start (enclose 1 text)).drain.1 = _
  rw [hopening]
  show Token.opening 0 :: (⟨text.toList ++ [')'], 1, false, false⟩ : Reader).drain.1 = _
  rw [hmoved, List.map_append, List.cons_append, List.append_assoc]
  rfl

theorem Grammar.exists_reads_of_parse {s s' : Span}
    (h : Program.parse .located text = .ok ⟨[.expression x s], s'⟩) :
    ∃ ts t, tokenize text = ts ++ [t] ∧ Reads .located (some .sum) ts x := by
  obtain ⟨tss, ss, hflat, -, hall, hp⟩ := Program.parse_eq_ok_iff.1 h
  obtain rfl : [Statement.expression x s] = ss := congrArg Program.body hp
  obtain ⟨us, tss, hread, hnil, rfl⟩ := List.forall₂_cons_right_iff.1 hall
  obtain rfl := List.forall₂_nil_right_iff.1 hnil
  rw [List.flatten_singleton] at hflat
  generalize hst : Statement.expression x s = st at hread
  cases hread with
  | empty _ => cases hst
  | @expression t ts e he _ =>
    cases hst
    exact ⟨ts, t, hflat, he⟩

namespace Enclosable
open Grammar

theorem parse_enclose_one (h : Enclosable text x) : Program.parse .located (enclose 1 text) =
    .ok ⟨[.expression (x.enclose 1 text.length) ⟨0, text.length + 2⟩], ⟨0, text.length + 2⟩⟩ := by
  obtain ⟨ts, htok, htok'⟩ := tokenize_enclose_one h.supplied h.comment
  obtain ⟨s, s', hp⟩ := h.parse
  obtain ⟨us, t, hus, hx⟩ := exists_reads_of_parse hp
  obtain ⟨rfl, -⟩ := List.append_inj' (htok.symm.trans hus) rfl
  have hopening : (Token.opening 0).kind = .opening := rfl
  have hclosing : (Token.closing (text.length + 1)).kind = .closing := rfl
  have hparens := Reads.parens hopening (hx.relocate (· + 1)) hclosing
  rw [Expr.span_relocate] at hparens
  have hstatement := ReadsStatement.expression (t := .terminator (text.length + 2))
    (.single .sum (.single .product hparens)) rfl
  have hstart : (Span.hull (tokenize (enclose 1 text))).start = 0 := by rw [htok']; rfl
  have hstop : (Span.hull (tokenize (enclose 1 text))).stop = text.length + 2 := by
    rw [htok', Span.stop_hull_concat]
    rfl
  have hspan : Span.hull (tokenize (enclose 1 text)) = ⟨0, text.length + 2⟩ :=
    congrArg₂ Span.mk hstart hstop
  rw [← htok', hspan] at hstatement
  exact parse_of_readsStatement hstatement

theorem enclose_one (h : Enclosable text x) :
    Enclosable (enclose 1 text) (x.enclose 1 text.length) := by
  obtain ⟨ts, -, htok⟩ := tokenize_enclose_one h.supplied h.comment
  have hlast : (tokenize (enclose 1 text)).getLast? = some (.terminator (text.length + 2)) := by
    rw [htok, List.getLast?_concat]
  refine ⟨fun i hi => ?_, ⟨_, hlast, Token.isSynthetic_terminator _⟩, ?_, _, _, h.parse_enclose_one⟩
  · have hno := isSynthetic_of_mem_tokenize ⟨i, hi⟩ (List.mem_of_getLast? hlast)
    rw [Token.isSynthetic_terminator] at hno
    cases hno
  · have hc := h.comment
    rw [← String.length_toList] at hc
    rw [toList_enclose_one, length_enclose, ← String.length_toList]
    exact not_inComment_enclose hc

/-- In `n + 1` pairs of parentheses, by the pair around `n` of them. -/
theorem nested (h : Enclosable text x) (n : Nat) :
    Enclosable (enclose (n + 1) text) (x.enclose (n + 1) text.length) ∧
      Program.parse .located (enclose (n + 1) text) =
        .ok ⟨[.expression (x.enclose (n + 1) text.length) ⟨0, text.length + 2 * (n + 1)⟩],
          ⟨0, text.length + 2 * (n + 1)⟩⟩ := by
  induction n with
  | zero => exact ⟨h.enclose_one, h.parse_enclose_one⟩
  | succ n ih =>
    have hone := ih.1.enclose_one
    have hparse := ih.1.parse_enclose_one
    rw [← enclose_succ, length_enclose, Expr.enclose_succ] at hone hparse
    exact ⟨hone, hparse⟩

/-- Parentheses around the whole of a text change the places of its expression and nothing else. -/
theorem enclosed (h : Enclosable text x) (hn : 0 < n) : Enclosed n text x := by
  obtain ⟨s, s', hp⟩ := h.parse
  obtain ⟨n, rfl⟩ := Nat.exists_eq_add_one_of_ne_zero hn.ne'
  have hq := (h.nested n).2
  have herase : (⟨[.expression x s], s'⟩ : Program).erase =
      Program.erase ⟨[.expression (x.enclose (n + 1) text.length)
        ⟨0, text.length + 2 * (n + 1)⟩], ⟨0, text.length + 2 * (n + 1)⟩⟩ := by
    simp [Program.erase, Statement.erase, Expr.erase_enclose]
  refine ⟨hq, ⟨_, Program.parse_unlocated_of_ok hp, ?_⟩, fun p q hp' hq' => ?_⟩
  · rw [herase]
    exact Program.parse_unlocated_of_ok hq
  · cases hp.symm.trans hp'
    cases hq.symm.trans hq'
    exact Program.evaluateAlike herase

/-- The quotient is in parentheses already, behind a comment and with a blank behind it. -/
theorem enclosed_division : ∃ x, Enclosable "//a
(1/(2-2)) " x ∧ 0 < 2 ∧
    Enclosed 2 "//a
(1/(2-2)) " x := by
  have hok : (Program.parse .located "//a\n(1/(2-2)) ").toOption.map
      (fun p => p.body.map fun s => (Node.ofStatement s).name) = some ["ExpressionStatement"] := by
    decide +kernel
  cases hp : Program.parse .located "//a\n(1/(2-2)) " with
  | error e => rw [hp] at hok; cases hok
  | ok p =>
    rw [hp] at hok
    obtain ⟨st, hbody, hname⟩ := List.map_eq_singleton_iff.1 (Option.some.inj hok)
    cases st with
    | empty s => simp [Node.ofStatement, Node.name] at hname
    | expression x s =>
      have h : Enclosable "//a\n(1/(2-2)) " x :=
        { uncut := fun i hi => absurd (readLength_lt_iff.2 ⟨i, hi⟩) (by decide +kernel)
          supplied := by decide +kernel
          comment := by decide
          parse := ⟨s, p.span, by rw [hp, ← hbody]⟩ }
      exact ⟨x, h, by decide, h.enclosed (by decide)⟩

end Enclosable

end

end Reckoner
