import Reckoner.Proofs.Render

/-!
# Reading what was written

The text of a well-formed tree falls into just the words that were written: nothing in it joins two
words into one, though no blanks stand between them. The words are tokens from which the grammar
derives the tree, so that reading the text gives the tree back (`parse_render`).
-/

namespace Reckoner
open Grammar

/-! ### Ranks of trees -/

/-- The rank that the operator is of. -/
def BinaryOp.rank : BinaryOp → Rank
  | add | sub => .sum
  | mul | div => .product

/-- The rank of the phrases that the expression is written as. -/
def Expr.rank : Expr → Option Rank
  | binary op _ _ _ => some op.rank
  | _ => none

/-- How tightly the phrases of a rank hold together. -/
def Rank.hold : Option Rank → Nat
  | some sum => 1
  | some product => 2
  | none => 3

theorem Rank.one_le_hold (q : Option Rank) : 1 ≤ hold q := by
  rcases q with _ | _ | _ <;> decide

namespace BinaryOp
variable (op : BinaryOp)

theorem hold_rank : Rank.hold (some op.rank) = op.precedence := by cases op <;> rfl

theorem hold_tighter_rank : Rank.hold op.rank.tighter = op.precedence + 1 := by cases op <;> rfl

theorem spells_symbol : op.rank.kind.Spells op.symbol.toList := by
  cases op <;> simp [rank, Rank.kind, Kind.Spells, symbol]

theorem symbol_toList : ∃ c, op.symbol.toList = [c] ∧ ¬ c.isDigit := by
  cases op
  · exact ⟨'+', rfl, by decide⟩
  · exact ⟨'-', rfl, by decide⟩
  · exact ⟨'*', rfl, by decide⟩
  · exact ⟨'/', rfl, by decide⟩

end BinaryOp

namespace Grammar
variable {p q : Option Rank} {ts ls rs : List Token} {o : Token} {e l r : Expr}

theorem Derives.of_primary (q : Option Rank) (h : Derives .primary ts e) :
    Derives (nonterminal q) ts e := by
  cases q with
  | none => exact h
  | some q =>
    cases q with
    | product => exact .primary h
    | sum => exact .multiplicative (.primary h)

/-- What holds together tightly enough stands wherever less is asked for. -/
theorem Derives.lift (h : Derives (nonterminal p) ts e) (hpq : Rank.hold q ≤ Rank.hold p) :
    Derives (nonterminal q) ts e := by
  rcases p with _ | p
  · exact h.of_primary q
  rcases q with _ | q
  · cases p <;> exact absurd hpq (by decide)
  rcases p, q with ⟨_ | _, _ | _⟩
  · exact h
  · exact absurd hpq (by decide)
  · exact .multiplicative h
  · exact h

theorem Derives.binary {op : BinaryOp} (hl : Derives (nonterminal (some op.rank)) ls l)
    (ho : o.kind = op.rank.kind) (hs : o.lexeme = op.symbol)
    (hr : Derives (nonterminal op.rank.tighter) rs r) :
    Derives (nonterminal (some op.rank)) (ls ++ o :: rs) (.binary op l r .nowhere) := by
  have hop : BinaryOp.ofSymbol? o.lexeme = some op := by rw [hs, BinaryOp.ofSymbol?_symbol]
  cases op with
  | add | sub => exact .sum hl ho hop hr
  | mul | div => exact .product hl ho hop hr

end Grammar

theorem Expr.hold_le_of_not_bindsBelow {q : Option Rank} {e : Expr}
    (h : e.bindsBelow (Rank.hold q) = false) : Rank.hold q ≤ Rank.hold e.rank := by
  have hq : Rank.hold q ≤ 3 := by rcases q with _ | _ | _ <;> decide
  cases e with
  | literal | unary => exact hq
  | binary op l r s =>
    simp only [bindsBelow, decide_eq_false_iff_not, Nat.not_lt] at h
    rw [rank, BinaryOp.hold_rank]
    exact h

/-! ### Words in a text -/

/-- Reading the characters `w`, with `rest` behind them, gives tokens of which `P` holds, and comes
to stand before `rest`. -/
def Gives (w rest : List Char) (P : List Token → Prop) : Prop :=
  ∀ r : Reader, r.ended = false → r.text = w ++ rest → ∃ (ts : List Token) (r' : Reader),
    r.drain.1 = ts ++ r'.drain.1 ∧ P ts ∧ r'.ended = false ∧ r'.text = rest

/-- The text does not begin with a digit. -/
def NoDigit (rest : List Char) : Prop := ∀ c ∈ rest.head?, ¬ c.isDigit

namespace Gives
variable {w v rest : List Char} {P Q R : List Token → Prop} {k : Kind}

theorem mono (h : Gives w rest P) (hPQ : ∀ ts, P ts → Q ts) : Gives w rest Q := by
  intro r hr ht
  obtain ⟨ts, r', hd, hp, hr', ht'⟩ := h r hr ht
  exact ⟨ts, r', hd, hPQ ts hp, hr', ht'⟩

theorem append (h : Gives w (v ++ rest) P) (h' : Gives v rest Q)
    (hR : ∀ ts us, P ts → Q us → R (ts ++ us)) : Gives (w ++ v) rest R := by
  intro r hr ht
  obtain ⟨ts, r', hd, hp, hr', ht'⟩ := h r hr (by rw [ht, List.append_assoc])
  obtain ⟨us, r'', hd', hq, hr'', ht''⟩ := h' r' hr' ht'
  exact ⟨ts ++ us, r'', by rw [hd, hd', List.append_assoc], hR ts us hp hq, hr'', ht''⟩

/-- A word gives its token, if the text behind it does not go on it. -/
theorem word (h : k.Spells w) (he : Piece.Ends k w rest) :
    Gives w rest fun ts => ∃ t, ts = [t] ∧ t.kind = k ∧ t.lexeme = String.ofList w := by
  intro r hr ht
  refine ⟨_, _, congrArg Prod.fst (Reader.drain_word hr ht h he), ⟨_, rfl, rfl, rfl⟩, rfl, rfl⟩

theorem number {raw : String} (h : Kind.number.Spells raw.toList) (hrest : NoDigit rest) :
    Gives raw.toList rest fun ts => ∃ t, ts = [t] ∧ t.kind = .number ∧ t.lexeme = raw := by
  have hne : raw.toList ≠ ['/'] := by
    intro h'
    exact absurd (h.2 '/' (by rw [h']; simp)) (by decide)
  have hw : Gives raw.toList rest _ :=
    word h fun c hc => ⟨fun _ => hrest c hc, fun h' => absurd h' hne⟩
  rwa [String.ofList_toList] at hw

theorem parens {e : Expr}
    (h : ∀ rest, NoDigit rest → Gives w rest (Derives .additive · e)) :
    Gives ('(' :: (w ++ [')'])) rest (Derives .primary · e) := by
  have ho : Gives ['('] ((w ++ [')']) ++ rest) _ := word (k := .opening) rfl (by simp [Piece.Ends])
  have hc : Gives [')'] rest _ := word (k := .closing) rfl (by simp [Piece.Ends])
  have hin : Gives w ([')'] ++ rest) _ := h _ (by simp [NoDigit])
  refine ho.append (hin.append hc (R := fun ts => ∃ us cl, ts = us ++ [cl] ∧
    Derives .additive us e ∧ cl.kind = .closing) ?_) ?_
  · rintro us _ hus ⟨cl, rfl, hcl, -⟩
    exact ⟨us, cl, rfl, hus, hcl⟩
  · rintro _ _ ⟨o, rfl, ho, -⟩ ⟨us, cl, rfl, hus, hcl⟩
    exact .parens ho hus hcl

theorem binary {op : BinaryOp} {l r : Expr}
    (hl : ∀ rest, NoDigit rest → Gives w rest (Derives (nonterminal (some op.rank)) · l))
    (hr : Gives v rest (Derives (nonterminal op.rank.tighter) · r))
    (hv : ∃ c cs, v = c :: cs ∧ c ≠ '/') :
    Gives (w ++ (op.symbol.toList ++ v)) rest
      (Derives (nonterminal (some op.rank)) · (.binary op l r .nowhere)) := by
  obtain ⟨c, hc, hdigit⟩ := op.symbol_toList
  obtain ⟨d, ds, rfl, hslash⟩ := hv
  -- What comes behind the operator makes no comment of a slash.
  have ho : Gives op.symbol.toList (d :: ds ++ rest) _ := word op.spells_symbol fun d' hd' => by
    cases hd'
    exact ⟨fun h => absurd h (by cases op <;> decide), fun _ => hslash⟩
  have hleft := hl ((op.symbol.toList ++ d :: ds) ++ rest) (by rw [hc]; simpa [NoDigit] using hdigit)
  refine hleft.append (ho.append hr (R := fun ts => ∃ o rs, ts = o :: rs ∧
    o.kind = op.rank.kind ∧ o.lexeme = op.symbol ∧ Derives (nonterminal op.rank.tighter) rs r)
    ?_) ?_
  · rintro _ rs ⟨o, rfl, ho, hs⟩ hrs
    exact ⟨o, rs, rfl, ho, by rw [hs, String.ofList_toList], hrs⟩
  · rintro ls _ hls ⟨o, rs, rfl, ho, hs, hrs⟩
    exact .binary hls ho hs hrs

end Gives

/-! ### Words of an expression -/

namespace Expr
variable {e : Expr} {q : Option Rank} {rest : List Char}

theorem toList_parenthesize (s : String) :
    (parenthesize true s).toList = '(' :: (s.toList ++ [')']) := by
  simp [parenthesize]

theorem toList_render_unary (raw : String) :
    (render (.unary ⟨.negate, .literal (.plain raw), .nowhere⟩)).toList = ['-'] ++ raw.toList := by
  show ("-" ++ raw).toList = _
  rw [String.toList_append]
  rfl

theorem toList_render_binary (op : BinaryOp) (l r : Expr) (s : Span) :
    (render (.binary op l r s)).toList =
      (parenthesize (l.bindsBelow op.precedence) l.render).toList ++
        (op.symbol.toList ++ (parenthesize (r.bindsBelow (op.precedence + 1)) r.render).toList) := by
  rw [render, String.toList_append, String.toList_append, List.append_assoc]

/-- The text of an operand does not begin with a slash, so that none comes behind a slash. -/
theorem Plain.head (h : e.Plain) (b : Bool) :
    ∃ c cs, (parenthesize b e.render).toList = c :: cs ∧ c ≠ '/' := by
  induction h generalizing b with
  | @literal raw h =>
    cases b with
    | true => exact ⟨_, _, toList_parenthesize _, by decide⟩
    | false =>
      obtain ⟨c, cs, hc⟩ := List.exists_cons_of_ne_nil h.1
      have hd : c.isDigit := h.2 c (by rw [hc]; exact List.mem_cons_self)
      refine ⟨c, cs, hc, ?_⟩
      rintro rfl
      exact absurd hd (by decide)
  | @unary raw h =>
    cases b with
    | true => exact ⟨_, _, toList_parenthesize _, by decide⟩
    | false => exact ⟨'-', raw.toList, toList_render_unary raw, by decide⟩
  | @binary op l r _ _ ihl _ =>
    cases b with
    | true => exact ⟨_, _, toList_parenthesize _, by decide⟩
    | false =>
      obtain ⟨c, cs, hc, hne⟩ := ihl (l.bindsBelow op.precedence)
      have ht := toList_render_binary op l r .nowhere
      rw [hc] at ht
      exact ⟨c, _, ht, hne⟩

theorem gives_operand (h : ∀ rest, NoDigit rest →
    Gives e.render.toList rest (Derives (nonterminal e.rank) · e)) (hrest : NoDigit rest) :
    Gives (parenthesize (e.bindsBelow (Rank.hold q)) e.render).toList rest
      (Derives (nonterminal q) · e) := by
  cases hb : e.bindsBelow (Rank.hold q) with
  | false => exact (h rest hrest).mono fun ts hts => hts.lift (hold_le_of_not_bindsBelow hb)
  | true =>
    rw [toList_parenthesize]
    have hsum : ∀ rest, NoDigit rest → Gives e.render.toList rest (Derives .additive · e) := by
      intro rest hrest
      exact (h rest hrest).mono fun ts hts => hts.lift (q := some .sum) (Rank.one_le_hold _)
    exact (Gives.parens hsum).mono fun ts hts => hts.of_primary q

/-- The text of a plain expression gives tokens from which the grammar derives the expression. -/
theorem Plain.gives (h : e.Plain) : ∀ rest, NoDigit rest →
    Gives e.render.toList rest (Derives (nonterminal e.rank) · e) := by
  induction h with
  | literal h =>
    intro rest hrest
    refine (Gives.number h hrest).mono ?_
    rintro _ ⟨t, rfl, hk, rfl⟩
    exact .number hk
  | @unary raw h =>
    intro rest hrest
    have hm : Gives ['-'] (raw.toList ++ rest) _ :=
      Gives.word (k := .additive) (.inr rfl) (by simp [Piece.Ends])
    rw [toList_render_unary]
    refine hm.append (Gives.number h hrest) ?_
    rintro _ _ ⟨m, rfl, hmk, hs⟩ ⟨t, rfl, hk, rfl⟩
    exact .negation hmk hs hk
  | @binary op l r hl hr ihl ihr =>
    intro rest hrest
    have hright := gives_operand (q := op.rank.tighter) ihr hrest
    rw [op.hold_tighter_rank] at hright
    rw [toList_render_binary]
    refine Gives.binary (fun rest hrest => ?_) hright (hr.head _)
    have hleft := gives_operand (q := some op.rank) ihl hrest
    rwa [op.hold_rank] at hleft

end Expr

/-! ### Whole programs -/

namespace Reader
variable {r : Reader} {rest : List Char}

theorem drain_semicolon (hr : r.ended = false) (ht : r.text = ';' :: rest) :
    ∃ (t : Token) (r' : Reader), r.drain.1 = t :: r'.drain.1 ∧ t.kind = .semicolon ∧
      r'.ended = false ∧ r'.closed = true ∧ r'.text = rest :=
  ⟨_, _, congrArg Prod.fst (drain_word (k := .semicolon) (w := [';']) hr ht rfl
    (by simp [Piece.Ends])), rfl, rfl, rfl, rfl⟩

theorem drain_closed (hr : r.ended = false) (hc : r.closed = true) (ht : r.text = []) :
    r.drain.1 = [] := by
  rw [drain_stop hr (by rw [ht]; rfl), if_neg (by simp [hc])]

end Reader

theorem Statement.Plain.drain_eq {s : Statement} (h : s.Plain) {r : Reader} {rest : List Char}
    (hr : r.ended = false) (ht : r.text = s.render.toList ++ rest) :
    ∃ (ts : List Token) (r' : Reader), r.drain.1 = ts ++ r'.drain.1 ∧ DerivesStatement ts s ∧
      r'.ended = false ∧ r'.closed = true ∧ r'.text = rest := by
  cases h with
  | empty =>
    obtain ⟨t, r', hd, hk, hr', hc, ht'⟩ := Reader.drain_semicolon hr ht
    exact ⟨[t], r', hd, .empty hk, hr', hc, ht'⟩
  | @expression e he =>
    rw [render, String.toList_append, List.append_assoc] at ht
    obtain ⟨ts, r', hd, hts, hr', ht'⟩ := he.gives _ (by simp [NoDigit]) r hr ht
    obtain ⟨t, r'', hd', hk, hr'', hc, ht''⟩ := Reader.drain_semicolon hr' ht'
    have hts : Derives .additive ts e := hts.lift (q := some .sum) (Rank.one_le_hold _)
    refine ⟨ts ++ [t], r'', ?_, .expression hts hk, hr'', hc, ht''⟩
    rw [hd, hd', List.append_assoc, List.singleton_append]

/-- The text of plain statements gives tokens from which the grammar derives the statements. -/
theorem drain_body {ss : List Statement} (h : ∀ s ∈ ss, s.Plain) {r : Reader}
    (hr : r.ended = false) (hc : ss = [] → r.closed = true)
    (ht : r.text = ss.flatMap fun s => s.render.toList) :
    ∃ tss, r.drain.1 = tss.flatten ∧ List.Forall₂ DerivesStatement tss ss := by
  induction ss generalizing r with
  | nil => exact ⟨[], Reader.drain_closed hr (hc rfl) ht, .nil⟩
  | cons s ss ih =>
    obtain ⟨hs, hss⟩ := List.forall_mem_cons.1 h
    obtain ⟨ts, r', hd, hts, hr', hc', ht'⟩ := hs.drain_eq hr ht
    obtain ⟨tss, hd', htss⟩ := ih hss hr' (fun _ => hc') ht'
    exact ⟨ts :: tss, by rw [hd, hd', List.flatten_cons], .cons hts htss⟩

theorem Program.toList_render (p : Program) :
    p.render.toList = p.body.flatMap fun s => s.render.toList := by
  rw [render, String.toList_join, List.flatMap_map]

namespace Grammar
variable {p : Program}

theorem derivesProgram_render (hs : p.SpanFree) (hw : p.WellFormed) :
    DerivesProgram (tokenize p.render) p := by
  obtain ⟨hne, hspan, hplain⟩ := Program.spanFree_and_wellFormed_iff.1 ⟨hs, hw⟩
  obtain ⟨tss, hd, htss⟩ := drain_body hplain (r := .start p.render) rfl
    (fun h => absurd h hne) p.toList_render
  refine ⟨hspan, tss, hd, ?_, htss⟩
  rintro rfl
  exact hne (List.forall₂_nil_left_iff.1 htss)

theorem parse_unlocated_render (hs : p.SpanFree) (hw : p.WellFormed) :
    Program.parse .unlocated p.render = .ok p := by
  rw [Program.parse_eq_ok_iff, ← derivesProgram_iff (spelled_tokenize _)]
  exact derivesProgram_render hs hw

/-- Well-formed trees that stand nowhere are read back from their texts, and reading without places
gives no other trees, so that writing what was read and reading it again gives the same tree. -/
theorem parse_render : (∀ p : Program, p.SpanFree → p.WellFormed →
      Program.parse .unlocated p.render = .ok p) ∧
    ∀ (text : String) (p : Program), Program.parse .unlocated text = .ok p →
      p.SpanFree ∧ p.WellFormed ∧ Program.parse .unlocated p.render = .ok p := by
  refine ⟨fun p => parse_unlocated_render, fun text p h => ?_⟩
  rw [Program.parse_eq_ok_iff, ← derivesProgram_iff (spelled_tokenize text)] at h
  obtain ⟨hs, hw⟩ := h.plain (spelled_tokenize text)
  exact ⟨hs, hw, parse_unlocated_render hs hw⟩

/-- A difference in a quotient keeps its parentheses, and the sign of the divisor needs none. -/
theorem parse_render_quotient : ∃ p : Program, p.SpanFree ∧ p.WellFormed ∧
    p.render = "(1-2)/-3;;" ∧ Program.parse .unlocated "(1-2)/-3;;" = .ok p := by
  have one := @Expr.Plain.literal "1" (by simp [Kind.Spells])
  have two := @Expr.Plain.literal "2" (by simp [Kind.Spells])
  have three := @Expr.Plain.unary "3" (by simp [Kind.Spells])
  have quotient := (Expr.Plain.binary .sub one two).binary .div three
  have hplain := List.forall_mem_cons.2
    ⟨Statement.Plain.expression quotient, List.forall_mem_singleton.2 Statement.Plain.empty⟩
  obtain ⟨hs, hw⟩ := (Program.spanFree_and_wellFormed_iff (p := ⟨_, .nowhere⟩)).2
    ⟨List.cons_ne_nil _ _, rfl, hplain⟩
  have h := parse_render.1 _ hs hw
  exact ⟨_, hs, hw, by decide, (parse_render.2 _ _ h).2.2⟩

end Grammar
end Reckoner
