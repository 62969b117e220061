import Reckoner.Proofs.Lexing
import Reckoner.Proofs.Program

/-!
# Where trees stand

The nodes of a tree that was read with places nest: an operand lies within its operation and the
operands of an operation lie apart, statements follow each other, and the program takes in all of
them (`Program.WellPlaced`). A node starts at a token and ends at one, so that the order of the
tokens (`Laid`) carries over to the nodes. Parentheses stretch the node they are directly around and
nothing below it, so the tokens that a node was read from matter twice: every node lies within them
(`Node.Sits`), and of a literal they are the number and the parentheses directly around it
(`Literal.Wrapped`).
-/

namespace Reckoner

/-! ### Spans in order -/

namespace Span
variable {ss : List Span} {s a : Span}

/-- The spans run forwards and follow each other. -/
structure InOrder (ss : List Span) : Prop where
  start_le_stop : ∀ s ∈ ss, s.start ≤ s.stop
  pairwise : ss.Pairwise fun s t => s.stop ≤ t.start

theorem InOrder.head_start_le (h : InOrder ss) (ha : ss.head? = some a) (hs : s ∈ ss) :
    a.start ≤ s.start := by
  obtain ⟨as, rfl⟩ := List.head?_eq_some_iff.1 ha
  rcases List.mem_cons.1 hs with rfl | hs
  · exact Nat.le_refl _
  · exact Nat.le_trans (h.start_le_stop a List.mem_cons_self)
      (List.rel_of_pairwise_cons h.pairwise hs)

theorem InOrder.stop_le_getLast (h : InOrder ss) (ha : ss.getLast? = some a) (hs : s ∈ ss) :
    s.stop ≤ a.stop := by
  obtain ⟨as, rfl⟩ := List.getLast?_eq_some_iff.1 ha
  rcases List.mem_append.1 hs with hs | hs
  · exact Nat.le_trans ((List.pairwise_append.1 h.pairwise).2.2 s hs a (List.mem_singleton_self a))
      (h.start_le_stop a (by simp))
  · rw [List.mem_singleton.1 hs]

end Span

/-- The tokens stand in the text one behind the other. -/
structure Laid (cs : List Char) (ts : List Token) : Prop where
  standsIn : ∀ t ∈ ts, t.StandsIn cs
  pairwise : ts.Pairwise fun t u => t.span.stop ≤ u.span.start

namespace Laid
variable {cs : List Char} {ts us : List Token} {t : Token}

theorem tokenize (s : String) : Laid s.toList (tokenize s) :=
  ⟨fun _ => standsIn_of_mem_tokenize, pairwise_tokenize s⟩

theorem left (h : Laid cs (ts ++ us)) : Laid cs ts :=
  ⟨fun t ht => h.standsIn t (List.mem_append_left _ ht), (List.pairwise_append.1 h.pairwise).1⟩

theorem right (h : Laid cs (ts ++ us)) : Laid cs us :=
  ⟨fun t ht => h.standsIn t (List.mem_append_right _ ht), (List.pairwise_append.1 h.pairwise).2.1⟩

theorem run (h : Laid cs us) (hi : ts <:+: us) : Laid cs ts := by
  obtain ⟨front, back, rfl⟩ := hi
  exact h.left.right

theorem tail (h : Laid cs (t :: ts)) : Laid cs ts :=
  have h' : Laid cs ([t] ++ ts) := h
  h'.right

theorem inOrder (h : Laid cs ts) : Span.InOrder (ts.map Token.span) where
  start_le_stop := List.forall_mem_map.2 fun t ht => (h.standsIn t ht).start_le_stop
  pairwise := List.pairwise_map.2 h.pairwise

theorem start_le (h : Laid cs ts) (ht : t ∈ ts) : (Span.hull ts).start ≤ t.span.start := by
  obtain ⟨a, as, rfl⟩ := List.exists_cons_of_ne_nil (List.ne_nil_of_mem ht)
  rw [Span.start_hull_cons]
  exact h.inOrder.head_start_le rfl (List.mem_map_of_mem ht)

theorem stop_le (h : Laid cs ts) (ht : t ∈ ts) : t.span.stop ≤ (Span.hull ts).stop := by
  obtain ⟨as, a, rfl⟩ := ts.eq_nil_or_concat'.resolve_left (List.ne_nil_of_mem ht)
  rw [Span.stop_hull_concat]
  exact h.inOrder.stop_le_getLast (by simp) (List.mem_map_of_mem ht)

theorem stop_le_start (h : Laid cs (ts ++ us)) (ht : ts ≠ []) (hu : us ≠ []) :
    (Span.hull ts).stop ≤ (Span.hull us).start := by
  obtain ⟨as, a, rfl⟩ := ts.eq_nil_or_concat'.resolve_left ht
  obtain ⟨b, bs, rfl⟩ := List.exists_cons_of_ne_nil hu
  rw [Span.stop_hull_concat, Span.start_hull_cons]
  exact (List.pairwise_append.1 h.pairwise).2.2 a (by simp) b (by simp)

/-- A token between two runs keeps them apart. -/
theorem stop_lt_start (h : Laid cs (ts ++ t :: us)) (ht : ts ≠ []) (hu : us ≠ [])
    (hk : t.kind ≠ .semicolon) : (Span.hull ts).stop < (Span.hull us).start := by
  have hleft : (Span.hull ts).stop ≤ t.span.start := h.stop_le_start ht (List.cons_ne_nil t us)
  have hright : t.span.stop ≤ (Span.hull us).start := by
    have h' : Laid cs ([t] ++ us) := h.right
    exact h'.stop_le_start (List.cons_ne_nil t []) hu
  have := (h.standsIn t (by simp)).start_lt_stop hk
  omega

/-- A run of the tokens lies within all of them. -/
theorem hull_le (h : Laid cs us) (hi : ts <:+: us) (ht : ts ≠ []) :
    (Span.hull us).start ≤ (Span.hull ts).start ∧ (Span.hull ts).stop ≤ (Span.hull us).stop := by
  constructor
  · obtain ⟨a, as, rfl⟩ := List.exists_cons_of_ne_nil ht
    exact h.start_le (hi.subset List.mem_cons_self)
  · obtain ⟨as, a, rfl⟩ := ts.eq_nil_or_concat'.resolve_left ht
    rw [Span.stop_hull_concat]
    exact h.stop_le (hi.subset (by simp))

theorem start_hull_le_stop (h : Laid cs ts) (ht : ts ≠ []) :
    (Span.hull ts).start ≤ (Span.hull ts).stop := by
  obtain ⟨a, as, rfl⟩ := List.exists_cons_of_ne_nil ht
  exact Nat.le_trans (h.standsIn a List.mem_cons_self).start_le_stop (h.stop_le List.mem_cons_self)

end Laid

/-! ### Nodes and the tokens they were read from -/

/-- Whether the node is an expression or a part of one. -/
def Node.isExpression : Node → Bool
  | expression _ | binary _ _ _ _ | unary _ | literal _ | operand _ => true
  | program _ | statement _ | emptyStatement _ | expressionStatement _ _ => false

/-- The parts directly inside an operation or a statement lie within it: the operands of an
operation apart and in their order, the operand of a sign behind the sign. -/
def Node.Nests : Node → Prop
  | binary _ l r s => s.contains l.span ∧ s.contains r.span ∧ l.span.stop < r.span.start
  | unary u => u.span.contains u.argument.span ∧ u.span.start < u.argument.span.start
  | expressionStatement e s => s.contains e.span
  | _ => True

/-- The literal was read from the number `t` with the parentheses `opens` and `closes` around it,
as many of the one as of the other. It starts at the number and ends at the last parenthesis. -/
structure Literal.Wrapped (opens : List Token) (t : Token) (closes : List Token) (l : Literal) :
    Prop where
  opening : ∀ o ∈ opens, o.kind = .opening
  closing : ∀ c ∈ closes, c.kind = .closing
  length_eq : opens.length = closes.length
  number : t.kind = .number
  raw : l.raw = t.lexeme
  span : l.span = ⟨t.span.start, (Span.hull (t :: closes)).stop⟩

/-- The node lies within the tokens, its parts lie within it as they should, and if it is a literal,
it was read from a number among the tokens. -/
structure Node.Sits (ts : List Token) (n : Node) : Prop where
  start : (Span.hull ts).start ≤ n.span.start
  start_le_stop : n.span.start ≤ n.span.stop
  start_lt_stop : n.isExpression → n.span.start < n.span.stop
  stop : n.span.stop ≤ (Span.hull ts).stop
  nests : n.Nests
  literal : ∀ l, n = .literal l → ∃ before opens t closes after,
    ts = before ++ (opens ++ t :: closes) ++ after ∧ l.Wrapped opens t closes

/-- The nodes inside the expression, without the expression itself. -/
def Expr.inside : Expr → List Node
  | literal _ => []
  | binary _ l r _ => l.nodes ++ r.nodes
  | unary u => u.argument.nodes

/-- The expression lies within the tokens as a node does, and if it is a literal, the tokens are
those of the literal and no others. -/
structure Expr.Sits (ts : List Token) (e : Expr) : Prop where
  start : (Span.hull ts).start ≤ e.span.start
  start_lt_stop : e.span.start < e.span.stop
  stop : e.span.stop ≤ (Span.hull ts).stop
  nests : (Node.ofExpr e).Nests
  literal : ∀ l, e = .literal l → ∃ opens t closes,
    ts = opens ++ t :: closes ∧ l.Wrapped opens t closes
  inside : ∀ n ∈ e.inside, n.Sits ts

section
variable {cs : List Char} {ts us : List Token} {t : Token} {n : Node} {e : Expr} {l : Literal}

theorem Expr.nodes_eq (e : Expr) : e.nodes = .expression e :: .ofExpr e :: e.inside := by
  cases e <;> rfl

theorem Expr.inside_withSpan (s : Span) (e : Expr) : (e.withSpan s).inside = e.inside := by
  cases e <;> rfl

theorem Literal.wrapped_of_number (h : t.kind = .number) (v : Float) :
    Literal.Wrapped [] t [] ⟨v, t.lexeme, t.span⟩ where
  opening := nofun
  closing := nofun
  length_eq := rfl
  number := h
  raw := rfl
  span := rfl

theorem Literal.Wrapped.parenthesize {opens closes : List Token} {o cl : Token}
    (h : l.Wrapped opens t closes) (ho : o.kind = .opening) (hc : cl.kind = .closing) :
    Literal.Wrapped (o :: opens) t (closes ++ [cl]) { l with span := ⟨l.span.start, cl.span.stop⟩ }
    where
  opening := List.forall_mem_cons.2 ⟨ho, h.opening⟩
  closing := List.forall_mem_append.2 ⟨h.closing, List.forall_mem_singleton.2 hc⟩
  length_eq := by simp [h.length_eq]
  number := h.number
  raw := h.raw
  span := by
    rw [← List.cons_append, Span.stop_hull_concat, h.span]

/-- Stretching an expression to the right leaves its parts within it. -/
theorem Node.Nests.stretch {stop : Nat} (h : (Node.ofExpr e).Nests) (hs : e.span.stop ≤ stop) :
    (Node.ofExpr (e.withSpan ⟨e.span.start, stop⟩)).Nests := by
  cases e with
  | literal l => trivial
  | binary op l r s =>
    obtain ⟨hl, hr, hlt⟩ := h
    rw [Span.contains_iff] at hl hr
    refine ⟨(Span.contains_iff _ _).2 ⟨hl.1, Nat.le_trans hl.2 hs⟩,
      (Span.contains_iff _ _).2 ⟨hr.1, Nat.le_trans hr.2 hs⟩, hlt⟩
  | unary u =>
    obtain ⟨ha, hlt⟩ := h
    rw [Span.contains_iff] at ha
    exact ⟨(Span.contains_iff _ _).2 ⟨ha.1, Nat.le_trans ha.2 hs⟩, hlt⟩

theorem Node.Sits.mono (h : n.Sits ts) (hl : Laid cs us) (hi : ts <:+: us) (hne : ts ≠ []) :
    n.Sits us where
  start := Nat.le_trans (hl.hull_le hi hne).1 h.start
  start_le_stop := h.start_le_stop
  start_lt_stop := h.start_lt_stop
  stop := Nat.le_trans h.stop (hl.hull_le hi hne).2
  nests := h.nests
  literal l hn := by
    obtain ⟨before, opens, t, closes, after, rfl, hw⟩ := h.literal l hn
    obtain ⟨front, back, rfl⟩ := hi
    exact ⟨front ++ before, opens, t, closes, after ++ back, by simp, hw⟩

theorem Expr.Sits.hull_contains (h : e.Sits ts) (hl : Laid cs us) (hi : ts <:+: us)
    (hne : ts ≠ []) : (Span.hull us).contains e.span := by
  obtain ⟨hstart, hstop⟩ := hl.hull_le hi hne
  rw [Span.contains_iff]
  exact ⟨Nat.le_trans hstart h.start, Nat.le_trans h.stop hstop⟩

theorem Expr.Sits.nodes (h : e.Sits ts) : ∀ n ∈ e.nodes, n.Sits ts := by
  intro n hn
  rw [Expr.nodes_eq, List.mem_cons, List.mem_cons] at hn
  have hle := Nat.le_of_lt h.start_lt_stop
  rcases hn with rfl | rfl | hn
  · exact ⟨h.start, hle, fun _ => h.start_lt_stop, h.stop, trivial, nofun⟩
  · refine ⟨?_, ?_, ?_, ?_, h.nests, ?_⟩
    · rw [Node.span_ofExpr]; exact h.start
    · rw [Node.span_ofExpr]; exact hle
    · rw [Node.span_ofExpr]; exact fun _ => h.start_lt_stop
    · rw [Node.span_ofExpr]; exact h.stop
    intro l hl
    have he : e = .literal l := by cases e <;> cases hl; rfl
    obtain ⟨opens, t, closes, rfl, hw⟩ := h.literal l he
    exact ⟨[], opens, t, closes, [], by simp, hw⟩
  · exact h.inside n hn

end

namespace Grammar
variable {cs : List Char} {q : Option Rank} {o m cl t : Token} {ts ls rs : List Token}
  {e l r : Expr} {s : Statement}

/-! ### Expressions -/

theorem sits_number (h : t.kind = .number) (hl : Laid cs [t]) (v : Float) :
    (Expr.literal ⟨v, t.lexeme, t.span⟩).Sits [t] where
  start := Nat.le_refl _
  start_lt_stop := (hl.standsIn t (by simp)).start_lt_stop (by simp [h])
  stop := Nat.le_refl _
  nests := trivial
  literal := by
    rintro l ⟨⟩
    exact ⟨[], t, [], rfl, Literal.wrapped_of_number h v⟩
  inside := nofun

theorem sits_minus (hk : m.kind = .additive) (h : t.kind = .number) (hl : Laid cs [m, t])
    (v : Float) :
    (Expr.unary ⟨.negate, .literal ⟨v, t.lexeme, t.span⟩, .hull [m, t]⟩).Sits [m, t] := by
  have hmt : m.span.stop ≤ t.span.start := List.rel_of_pairwise_cons hl.pairwise (by simp)
  have hm : m.span.start < m.span.stop := (hl.standsIn m (by simp)).start_lt_stop (by simp [hk])
  have ht : t.span.start < t.span.stop := (hl.standsIn t (by simp)).start_lt_stop (by simp [h])
  have hlt : m.span.start < t.span.start := Nat.lt_of_lt_of_le hm hmt
  refine ⟨Nat.le_refl _, Nat.lt_trans hlt ht, Nat.le_refl _, ⟨?_, hlt⟩, nofun, ?_⟩
  · exact (Span.contains_iff _ _).2 ⟨Nat.le_of_lt hlt, Nat.le_refl _⟩
  refine List.forall_mem_singleton.2
    ⟨Nat.le_of_lt hlt, Nat.le_of_lt ht, fun _ => ht, Nat.le_refl _, trivial, ?_⟩
  rintro l ⟨⟩
  exact ⟨[m], [], t, [], [], rfl, Literal.wrapped_of_number h v⟩

theorem sits_parens (ho : o.kind = .opening) (hc : cl.kind = .closing) (hne : ts ≠ [])
    (hl : Laid cs (o :: (ts ++ [cl]))) (h : e.Sits ts) :
    (e.withSpan ⟨e.span.start, cl.span.stop⟩).Sits (o :: (ts ++ [cl])) := by
  have hi : ts <:+: o :: (ts ++ [cl]) := ⟨[o], [cl], rfl⟩
  have hhull := hl.hull_le hi hne
  have hstop : (Span.hull (o :: (ts ++ [cl]))).stop = cl.span.stop := by
    rw [← List.cons_append, Span.stop_hull_concat]
  have hcl : e.span.stop ≤ cl.span.stop := Nat.le_trans h.stop (hstop ▸ hhull.2)
  refine ⟨?_, ?_, ?_, h.nests.stretch hcl, ?_, ?_⟩
  · rw [Expr.span_withSpan]
    exact Nat.le_trans hhull.1 h.start
  · rw [Expr.span_withSpan]
    exact Nat.lt_of_lt_of_le h.start_lt_stop hcl
  · rw [Expr.span_withSpan, hstop]
  · intro l hel
    cases e with
    | literal l₀ =>
      cases hel
      obtain ⟨opens, t, closes, rfl, hw⟩ := h.literal l₀ rfl
      exact ⟨o :: opens, t, closes ++ [cl], by simp, hw.parenthesize ho hc⟩
    | binary | unary => cases hel
  · rw [Expr.inside_withSpan]
    intro n hn
    exact (h.inside n hn).mono hl hi hne

theorem sits_chain {op : BinaryOp} (hl : Laid cs (ls ++ o :: rs)) (hls : ls ≠ []) (hrs : rs ≠ [])
    (ho : o.kind ≠ .semicolon) (hsl : l.Sits ls) (hsr : r.Sits rs) :
    (Expr.binary op l r (.hull (ls ++ o :: rs))).Sits (ls ++ o :: rs) := by
  have hil : ls <:+: ls ++ o :: rs := (List.prefix_append ls (o :: rs)).isInfix
  have hir : rs <:+: ls ++ o :: rs := ((List.suffix_cons o rs).trans (List.suffix_append ls _)).isInfix
  have hcl := hsl.hull_contains hl hil hls
  have hcr := hsr.hull_contains hl hir hrs
  have hlt : l.span.stop < r.span.start := by
    have := hl.stop_lt_start hls hrs ho
    have := hsl.stop
    have := hsr.start
    omega
  refine ⟨Nat.le_refl _, ?_, Nat.le_refl _, ⟨hcl, hcr, hlt⟩, nofun, ?_⟩
  · rw [Span.contains_iff] at hcl hcr
    calc (Span.hull (ls ++ o :: rs)).start
      _ ≤ l.span.start := hcl.1
      _ < l.span.stop := hsl.start_lt_stop
      _ < r.span.start := hlt
      _ < r.span.stop := hsr.start_lt_stop
      _ ≤ (Span.hull (ls ++ o :: rs)).stop := hcr.2
  · intro n hn
    rcases List.mem_append.1 hn with hn | hn
    · exact (hsl.nodes n hn).mono hl hil hls
    · exact (hsr.nodes n hn).mono hl hir hrs

/-- What is read from tokens sits in them. -/
theorem Reads.sits (h : Reads .located q ts e) (hl : Laid cs ts) : e.Sits ts := by
  induction h with
  | number h => exact sits_number h hl _
  | minus hm _ h => exact sits_minus hm h hl _
  | parens ho h hc ih => exact sits_parens ho hc h.ne_nil hl (ih hl.tail.left)
  | single _ _ ih => exact ih hl
  | @chain q o _ _ _ _ hl' ho hr ihl ihr =>
    have hne : o.kind ≠ .semicolon := by rw [ho]; cases q <;> decide
    exact sits_chain hl hl'.ne_nil hr.ne_nil hne (ihl hl.left) (ihr hl.right.tail)

/-! ### Statements and programs -/

theorem sits_of_span_eq {n : Node} (hl : Laid cs ts) (hne : ts ≠ []) (hs : n.span = .hull ts)
    (hn : n.isExpression = false) (h : n.Nests) : n.Sits ts where
  start := by rw [hs]
  start_le_stop := by rw [hs]; exact hl.start_hull_le_stop hne
  start_lt_stop he := by rw [hn] at he; cases he
  stop := by rw [hs]
  nests := h
  literal := by rintro l rfl; cases hn

theorem ReadsStatement.span_eq (h : ReadsStatement .located ts s) : s.span = .hull ts := by
  cases h <;> rfl

theorem ReadsStatement.sits (h : ReadsStatement .located ts s) (hl : Laid cs ts) :
    ∀ n ∈ s.nodes, n.Sits ts := by
  have hne := h.ne_nil
  intro n hn
  cases h with
  | empty ht =>
    rcases List.mem_cons.1 hn with rfl | hn
    · exact sits_of_span_eq hl hne rfl rfl trivial
    · rw [List.mem_singleton.1 hn]
      exact sits_of_span_eq hl hne rfl rfl trivial
  | @expression t ts e h ht =>
    have hi : ts <:+: ts ++ [t] := (List.prefix_append ts [t]).isInfix
    have hs := h.sits hl.left
    have hc : (Span.hull (ts ++ [t])).contains e.span := hs.hull_contains hl hi h.ne_nil
    rcases List.mem_cons.1 hn with rfl | hn
    · exact sits_of_span_eq hl hne rfl rfl trivial
    rcases List.mem_cons.1 hn with rfl | hn
    · exact sits_of_span_eq hl hne rfl rfl hc
    · exact (hs.nodes n hn).mono hl hi h.ne_nil

variable {tss : List (List Token)} {ss : List Statement}

theorem exists_run_of_mem (h : List.Forall₂ (ReadsStatement .located) tss ss) (hs : s ∈ ss) :
    ∃ ts, ts <:+: tss.flatten ∧ ReadsStatement .located ts s := by
  induction h with
  | nil => cases hs
  | @cons ts s' tss ss h _ ih =>
    rcases List.mem_cons.1 hs with rfl | hs
    · exact ⟨ts, (List.prefix_append ts tss.flatten).isInfix, h⟩
    · obtain ⟨us, hi, hus⟩ := ih hs
      exact ⟨us, hi.trans (List.suffix_append ts tss.flatten).isInfix, hus⟩

theorem sits_of_forall₂ (h : List.Forall₂ (ReadsStatement .located) tss ss)
    (hl : Laid cs tss.flatten) (hs : s ∈ ss) : ∀ n ∈ s.nodes, n.Sits tss.flatten := by
  intro n hn
  obtain ⟨ts, hi, hts⟩ := exists_run_of_mem h hs
  exact (hts.sits (hl.run hi) n hn).mono hl hi hts.ne_nil

theorem inOrder_of_forall₂ (h : List.Forall₂ (ReadsStatement .located) tss ss)
    (hl : Laid cs tss.flatten) : Span.InOrder (ss.map Statement.span) := by
  induction h with
  | nil => exact ⟨nofun, .nil⟩
  | @cons ts s tss ss h hall ih =>
    have hl' : Laid cs tss.flatten := hl.right
    obtain ⟨hle, hpw⟩ := ih hl'
    refine ⟨List.forall_mem_cons.2 ⟨?_, hle⟩, List.pairwise_cons.2 ⟨?_, hpw⟩⟩
    · rw [h.span_eq]
      exact hl.left.start_hull_le_stop h.ne_nil
    refine List.forall_mem_map.2 fun s' hs' => ?_
    obtain ⟨us, hi, hus⟩ := exists_run_of_mem hall hs'
    have hne : tss.flatten ≠ [] := by
      intro hnil
      exact hus.ne_nil (List.eq_nil_of_infix_nil (hnil ▸ hi))
    rw [h.span_eq, hus.span_eq]
    exact Nat.le_trans (hl.stop_le_start h.ne_nil hne) (hl'.hull_le hi hus.ne_nil).1

end Grammar

/-! ### Well-placed programs -/

/-- Parentheses are directly around the literal among the tokens, and it ends where the last of them
ends. -/
def Literal.StretchedIn (ts : List Token) (l : Literal) : Prop :=
  ∃ before opens t closes after, ts = before ++ (opens ++ t :: closes) ++ after ∧ opens ≠ [] ∧
    l.Wrapped opens t closes

/-- The nodes of the program stand in the text, nested and in order. -/
structure Program.WellPlaced (text : String) (p : Program) : Prop where
  within : ∀ n ∈ p.nodes, n.span.start ≤ n.span.stop ∧ n.span.stop ≤ text.length
  /-- expressions take up characters -/
  expression : ∀ n ∈ p.nodes, n.isExpression → n.span.start < n.span.stop
  program : ∃ first last, p.body.head? = some first ∧ p.body.getLast? = some last ∧
    p.span = ⟨first.span.start, last.span.stop⟩
  statement : ∀ s ∈ p.body, p.span.contains s.span
  expressionStatement : ∀ e s, .expressionStatement e s ∈ p.nodes → s.contains e.span
  binary : ∀ op l r s, .binary op l r s ∈ p.nodes →
    s.contains l.span ∧ s.contains r.span ∧ l.span.stop < r.span.start
  unary : ∀ u, .unary u ∈ p.nodes →
    u.span.contains u.argument.span ∧ u.span.start < u.argument.span.start
  /-- a statement ends before the next ones start -/
  ordered : p.body.Pairwise fun s t => s.span.stop ≤ t.span.start
  /-- the digits of a literal stand in the text where it starts -/
  raw : ∀ l, .literal l ∈ p.nodes →
    (text.toList.drop l.span.start).take l.raw.length = l.raw.toList
  /-- a literal ends with its digits, unless it is stretched -/
  literal : ∀ l, .literal l ∈ p.nodes →
    l.span.stop = l.span.start + l.raw.length ∨ l.StretchedIn (tokenize text)

section
variable {cs : List Char} {ts opens closes : List Token} {t : Token} {l : Literal} {n : Node}

theorem Literal.Wrapped.slice (h : l.Wrapped opens t closes) (ht : t.StandsIn cs) :
    (cs.drop l.span.start).take l.raw.length = l.raw.toList := by
  rw [h.span, h.raw]
  exact ht.slice

theorem Literal.Wrapped.stop_of_nil (h : l.Wrapped [] t closes) (ht : t.StandsIn cs) :
    l.span.stop = l.span.start + l.raw.length := by
  obtain rfl : closes = [] := List.eq_nil_of_length_eq_zero h.length_eq.symm
  rw [h.span, h.raw]
  exact ht.stop

theorem Node.Sits.raw (h : (Node.literal l).Sits ts) (hl : Laid cs ts) :
    (cs.drop l.span.start).take l.raw.length = l.raw.toList := by
  obtain ⟨before, opens, t, closes, after, rfl, hw⟩ := h.literal l rfl
  exact hw.slice (hl.standsIn t (by simp))

theorem Node.Sits.literal_stop (h : (Node.literal l).Sits ts) (hl : Laid cs ts) :
    l.span.stop = l.span.start + l.raw.length ∨ l.StretchedIn ts := by
  obtain ⟨before, opens, t, closes, after, rfl, hw⟩ := h.literal l rfl
  by_cases ho : opens = []
  · subst ho
    exact .inl (hw.stop_of_nil (hl.standsIn t (by simp)))
  · exact .inr ⟨before, opens, t, closes, after, rfl, ho, hw⟩

theorem Laid.stop_hull_le (h : Laid cs ts) : (Span.hull ts).stop ≤ cs.length := by
  rcases ts.eq_nil_or_concat' with rfl | ⟨as, a, rfl⟩
  · exact Nat.zero_le _
  · rw [Span.stop_hull_concat]
    exact (h.standsIn a (by simp)).within

end

namespace Grammar
variable {cs : List Char} {tss : List (List Token)} {ss : List Statement} {first last : Statement}
  {text : String} {p : Program}

theorem bodySpan_eq (hf : ss.head? = some first) (hl : ss.getLast? = some last) :
    bodySpan ss = ⟨first.span.start, last.span.stop⟩ := by
  simp [bodySpan, hf, hl]

theorem contains_bodySpan (h : Span.InOrder (ss.map Statement.span)) (hf : ss.head? = some first)
    (hl : ss.getLast? = some last) {s : Statement} (hs : s ∈ ss) :
    (bodySpan ss).contains s.span := by
  have hmem := List.mem_map_of_mem (f := Statement.span) hs
  have hfirst : (ss.map Statement.span).head? = some first.span := by rw [List.head?_map, hf]; rfl
  have hlast : (ss.map Statement.span).getLast? = some last.span := by
    rw [List.getLast?_map, hl]; rfl
  have hstart := h.head_start_le hfirst hmem
  have hstop := h.stop_le_getLast hlast hmem
  rw [bodySpan_eq hf hl, Span.contains_iff]
  exact ⟨hstart, hstop⟩

theorem sits_program (hall : List.Forall₂ (ReadsStatement .located) tss ss)
    (hl : Laid cs tss.flatten) (hf : ss.head? = some first) (hlast : ss.getLast? = some last) :
    ∀ n ∈ (Program.mk ss (bodySpan ss)).nodes, n.Sits tss.flatten := by
  have sits : ∀ s ∈ ss, (Node.statement s).Sits tss.flatten := by
    intro s hs
    refine sits_of_forall₂ hall hl hs _ ?_
    cases s <;> exact List.mem_cons_self
  have hstart := (sits first (List.mem_of_head? hf)).start
  have hstop := (sits last (List.mem_of_getLast? hlast)).stop
  have hc := contains_bodySpan (inOrder_of_forall₂ hall hl) hf hlast (List.mem_of_head? hf)
  have hle := (sits first (List.mem_of_head? hf)).start_le_stop
  rw [bodySpan_eq hf hlast, Span.contains_iff] at hc
  refine List.forall_mem_cons.2 ⟨⟨?_, ?_, nofun, ?_, trivial, nofun⟩, fun n hn => ?_⟩
  · show _ ≤ (bodySpan ss).start
    rw [bodySpan_eq hf hlast]
    exact hstart
  · show (bodySpan ss).start ≤ (bodySpan ss).stop
    rw [bodySpan_eq hf hlast]
    exact Nat.le_trans hle hc.2
  · show (bodySpan ss).stop ≤ _
    rw [bodySpan_eq hf hlast]
    exact hstop
  · obtain ⟨s, hs, hn⟩ := List.mem_flatMap.1 hn
    exact sits_of_forall₂ hall hl hs n hn

/-- The tree of a text stands in it, nested and in order. -/
theorem wellPlaced_of_parse (h : Program.parse .located text = .ok p) : p.WellPlaced text := by
  obtain ⟨tss, ss, htokens, hne, hall, rfl⟩ := Program.parse_eq_ok_iff.1 h
  have hl : Laid text.toList tss.flatten := htokens ▸ Laid.tokenize text
  have hss : ss ≠ [] := by
    rintro rfl
    exact hne (List.forall₂_nil_right_iff.1 hall)
  obtain ⟨first, rest, hcons⟩ := List.exists_cons_of_ne_nil hss
  have hf : ss.head? = some first := by rw [hcons, List.head?_cons]
  obtain ⟨last, hlast⟩ := Option.isSome_iff_exists.1 (List.getLast?_isSome.2 hss)
  have sits := sits_program hall hl hf hlast
  have hord := inOrder_of_forall₂ hall hl
  exact {
    within := fun n hn => ⟨(sits n hn).start_le_stop, by
      rw [← String.length_toList]
      exact Nat.le_trans (sits n hn).stop hl.stop_hull_le⟩
    expression := fun n hn => (sits n hn).start_lt_stop
    program := ⟨first, last, hf, hlast, bodySpan_eq hf hlast⟩
    statement := fun s hs => contains_bodySpan hord hf hlast hs
    expressionStatement := fun e s hn => (sits _ hn).nests
    binary := fun op l r s hn => (sits _ hn).nests
    unary := fun u hn => (sits _ hn).nests
    ordered := List.pairwise_map.1 hord.pairwise
    raw := fun l hn => (sits _ hn).raw hl
    literal := fun l hn => htokens ▸ (sits _ hn).literal_stop hl }

/-- A literal in parentheses, a sign, a comment and a statement that nothing closes. -/
theorem wellPlaced_quotient : ∃ p, Program.parse .located "((1) - 2)/-3 // ü\n;4" = .ok p ∧
    p.WellPlaced "((1) - 2)/-3 // ü\n;4" := by
  have hok : (Program.parse .located "((1) - 2)/-3 // ü\n;4").toBool := by decide +kernel
  cases h : Program.parse .located "((1) - 2)/-3 // ü\n;4" with
  | error e => rw [h] at hok; cases hok
  | ok p => exact ⟨p, rfl, wellPlaced_of_parse h⟩

end Grammar
end Reckoner
