import Reckoner.Proofs.Reference

/-!
# Trees as text

Trees are written without blanks and with as few parentheses as the grammar allows: an operand is
put in parentheses if it would be read differently without. Among the trees that stand nowhere, the
well-formed ones (`Program.WellFormed`) are those that `Expr.Plain` builds up, and they are those
that the grammar derives from spelled tokens.
-/

namespace Reckoner

/-! ### Writing -/

/-- How tightly the operator binds. -/
def BinaryOp.precedence : BinaryOp → Nat
  | add | sub => 1
  | mul | div => 2

/-- Whether the expression is an operation with two operands that binds less tightly than `n`. -/
def Expr.bindsBelow (n : Nat) : Expr → Bool
  | binary op _ _ _ => op.precedence < n
  | _ => false

/-- The text, in parentheses if `b` says so. -/
def parenthesize (b : Bool) (s : String) : String := if b then "(" ++ s ++ ")" else s

/-- The text of an operand. -/
def Operand.render : Operand → String
  | literal l => l.raw
  | unary op a _ => op.symbol ++ a.render

/-- The text of an expression. The right operand needs parentheses also if it binds as tightly as
the operation, since operators group to the left. -/
def Expr.render : Expr → String
  | literal l => l.raw
  | unary u => u.op.symbol ++ u.argument.render
  | binary op l r _ =>
    parenthesize (l.bindsBelow op.precedence) l.render ++ op.symbol ++
      parenthesize (r.bindsBelow (op.precedence + 1)) r.render

/-- The text of a statement. -/
def Statement.render : Statement → String
  | empty _ => ";"
  | expression e _ => e.render ++ ";"

/-- The text of a program. -/
def Program.render (p : Program) : String := String.join (p.body.map Statement.render)

/-! ### Well-formed trees -/

/-- The literal has digits, and the value of the number that they write. -/
def Literal.WellFormed (l : Literal) : Prop :=
  l.raw ≠ "" ∧ (∀ c ∈ l.raw.toList, c.isDigit) ∧ l.value = Grammar.decimalValue l.raw

/-- The program has a statement, its signs stand before literals, and its literals have the values
that their digits write. -/
structure Program.WellFormed (p : Program) : Prop where
  body : p.body ≠ []
  argument : ∀ u, .unary u ∈ p.nodes → ∃ l, u.argument = .literal l
  literal : ∀ l, .literal l ∈ p.nodes → l.WellFormed

/-- Every node of the program stands nowhere. -/
def Program.SpanFree (p : Program) : Prop := ∀ n ∈ p.nodes, n.span = .nowhere

/-- The literal with the given digits that stands nowhere. -/
def Literal.plain (raw : String) : Literal := ⟨Grammar.decimalValue raw, raw, .nowhere⟩

/-- The expressions that stand nowhere and are well-formed. -/
inductive Expr.Plain : Expr → Prop
  | literal {raw : String} (h : Kind.number.Spells raw.toList) : Plain (.literal (.plain raw))
  | unary {raw : String} (h : Kind.number.Spells raw.toList) :
    Plain (.unary ⟨.negate, .literal (.plain raw), .nowhere⟩)
  | binary (op : BinaryOp) {l r : Expr} (hl : Plain l) (hr : Plain r) :
    Plain (.binary op l r .nowhere)

/-- The statements that stand nowhere and are well-formed. -/
inductive Statement.Plain : Statement → Prop
  | empty : Plain (.empty .nowhere)
  | expression {e : Expr} (h : e.Plain) : Plain (.expression e .nowhere)

/-- What `Program.SpanFree` and `Program.WellFormed` ask of each node. -/
def Node.Plain (n : Node) : Prop :=
  n.span = .nowhere ∧ (∀ u, n = .unary u → ∃ l, u.argument = .literal l) ∧
    ∀ l, n = .literal l → l.WellFormed

variable {e : Expr} {s : Statement} {p : Program} {l : Literal}

theorem Literal.eq_plain (hw : l.WellFormed) (hs : l.span = .nowhere) : l = .plain l.raw := by
  obtain ⟨value, raw, span⟩ := l
  obtain ⟨-, -, hv⟩ := hw
  cases hs
  exact congrArg (fun v => Literal.mk v raw .nowhere) hv

theorem Literal.WellFormed.spells (hw : l.WellFormed) : Kind.number.Spells l.raw.toList :=
  ⟨fun h => hw.1 (String.toList_eq_nil_iff.1 h), hw.2.1⟩

theorem Literal.wellFormed_plain {raw : String} (h : Kind.number.Spells raw.toList) :
    (Literal.plain raw).WellFormed :=
  ⟨fun hr => h.1 (String.toList_eq_nil_iff.2 hr), h.2, rfl⟩

theorem Node.plain_literal (hs : l.span = .nowhere) (hw : l.WellFormed) :
    (Node.literal l).Plain := by
  refine ⟨hs, nofun, fun l' h => ?_⟩
  cases h
  exact hw

theorem Expr.Plain.nodes (h : e.Plain) : ∀ n ∈ e.nodes, n.Plain := by
  induction h with
  | literal h =>
    simp only [Expr.nodes, List.forall_mem_cons]
    exact ⟨⟨rfl, nofun, nofun⟩, Node.plain_literal rfl (Literal.wellFormed_plain h), nofun⟩
  | unary h =>
    simp only [Expr.nodes, Operand.nodes, List.forall_mem_cons]
    refine ⟨⟨rfl, nofun, nofun⟩, ⟨rfl, fun u hu => ?_, nofun⟩,
      Node.plain_literal rfl (Literal.wellFormed_plain h), nofun⟩
    cases hu
    exact ⟨_, rfl⟩
  | binary op _ _ ihl ihr =>
    simp only [Expr.nodes, List.forall_mem_cons, List.forall_mem_append]
    exact ⟨⟨rfl, nofun, nofun⟩, ⟨rfl, nofun, nofun⟩, ihl, ihr⟩

theorem Expr.plain_of_nodes (h : ∀ n ∈ e.nodes, n.Plain) : e.Plain := by
  induction e with
  | literal l =>
    simp only [Expr.nodes, List.forall_mem_cons] at h
    obtain ⟨-, ⟨hs, -, hw⟩, -⟩ := h
    have hw := hw l rfl
    rw [Literal.eq_plain hw hs]
    exact .literal hw.spells
  | unary u =>
    simp only [Expr.nodes, List.forall_mem_cons] at h
    obtain ⟨-, ⟨hs, hu, -⟩, ha⟩ := h
    obtain ⟨l, hl⟩ := hu u rfl
    obtain ⟨⟨⟩, a, span⟩ := u
    cases hs
    cases hl
    obtain ⟨hs, -, hw⟩ := ha (.literal l) (by simp [Operand.nodes])
    have hw := hw l rfl
    rw [Literal.eq_plain hw hs]
    exact .unary hw.spells
  | binary op l r s ihl ihr =>
    simp only [Expr.nodes, List.forall_mem_cons, List.forall_mem_append] at h
    obtain ⟨⟨hs, -⟩, -, hl, hr⟩ := h
    cases hs
    exact .binary op (ihl hl) (ihr hr)

theorem Statement.plain_iff : s.Plain ↔ ∀ n ∈ s.nodes, n.Plain := by
  constructor
  · rintro (_ | h)
    · simp only [Statement.nodes, List.forall_mem_cons]
      exact ⟨⟨rfl, nofun, nofun⟩, ⟨rfl, nofun, nofun⟩, nofun⟩
    · simp only [Statement.nodes, List.forall_mem_cons]
      exact ⟨⟨rfl, nofun, nofun⟩, ⟨rfl, nofun, nofun⟩, h.nodes⟩
  · intro h
    cases s with
    | empty s =>
      obtain ⟨hs, -⟩ := h (.statement (.empty s)) (by simp [Statement.nodes])
      cases hs
      exact .empty
    | expression e s =>
      simp only [Statement.nodes, List.forall_mem_cons] at h
      obtain ⟨⟨hs, -⟩, -, he⟩ := h
      cases hs
      exact .expression (Expr.plain_of_nodes he)

/-- The well-formed programs that stand nowhere are those made of plain statements. -/
theorem Program.spanFree_and_wellFormed_iff : p.SpanFree ∧ p.WellFormed ↔
    p.body ≠ [] ∧ p.span = .nowhere ∧ ∀ s ∈ p.body, s.Plain := by
  constructor
  · rintro ⟨hs, hb, hu, hl⟩
    refine ⟨hb, hs (.program p) (by simp [Program.nodes]), fun s hmem => ?_⟩
    refine Statement.plain_iff.2 fun n hn => ?_
    have hn : n ∈ p.nodes := List.mem_cons_of_mem _ (List.mem_flatMap.2 ⟨s, hmem, hn⟩)
    exact ⟨hs n hn, fun u h => hu u (h ▸ hn), fun l h => hl l (h ▸ hn)⟩
  · rintro ⟨hb, hs, hplain⟩
    have hnodes : ∀ n ∈ p.nodes, n.Plain := by
      simp only [Program.nodes, List.forall_mem_cons, List.mem_flatMap]
      refine ⟨⟨hs, nofun, nofun⟩, ?_⟩
      rintro n ⟨s, hmem, hn⟩
      exact Statement.plain_iff.1 (hplain s hmem) n hn
    exact ⟨fun n hn => (hnodes n hn).1, hb, fun u hn => (hnodes _ hn).2.1 u rfl,
      fun l hn => (hnodes _ hn).2.2 l rfl⟩

namespace Grammar
variable {n : Nonterminal} {ts : List Token}

theorem Derives.plain (h : Derives n ts e) (hs : Spelled ts) : e.Plain := by
  induction h with
  | @number t h =>
    have := hs t (by simp) (by simp [h])
    exact .literal (h ▸ this)
  | @negation m t hm hl h =>
    have := hs t (by simp) (by simp [h])
    exact .unary (h ▸ this)
  | parens _ _ _ ih => exact ih hs.of_cons.of_append.1
  | primary _ ih => exact ih hs
  | multiplicative _ ih => exact ih hs
  | product _ _ _ _ ihl ihr => exact .binary _ (ihl hs.of_append.1) (ihr hs.of_append.2.of_cons)
  | sum _ _ _ _ ihl ihr => exact .binary _ (ihl hs.of_append.1) (ihr hs.of_append.2.of_cons)

theorem DerivesStatement.plain (h : DerivesStatement ts s) (hs : Spelled ts) : s.Plain := by
  cases h with
  | empty => exact .empty
  | expression h => exact .expression (h.plain hs.of_append.1)

theorem plain_of_forall₂ {tss : List (List Token)} {ss : List Statement}
    (h : List.Forall₂ DerivesStatement tss ss) (hs : Spelled tss.flatten) : ∀ s ∈ ss, s.Plain := by
  induction h with
  | nil => simp
  | cons h _ ih => exact List.forall_mem_cons.2 ⟨h.plain hs.of_append.1, ih hs.of_append.2⟩

theorem DerivesProgram.plain (h : DerivesProgram ts p) (hs : Spelled ts) :
    p.SpanFree ∧ p.WellFormed := by
  obtain ⟨hspan, tss, rfl, hne, hall⟩ := h
  rw [Program.spanFree_and_wellFormed_iff]
  refine ⟨fun hb => ?_, hspan, plain_of_forall₂ hall hs⟩
  rw [hb] at hall
  cases hall
  exact hne rfl

end Grammar
end Reckoner
