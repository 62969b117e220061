import Reckoner.Tree.Json
import Reckoner.Proofs.JsonText
import Reckoner.Proofs.Program

/-!
# What the JSON text of a tree tells

The JSON text of a program tells the program, all but the values of its literals: infinities and NaNs
are written alike. `revalue f` gives every literal the value that `f` finds in its digits, so trees
that it makes equal differ in values at most. A tree that was read has the values that its digits
say, hence it is told completely (`Program.eq_of_json`).
-/

namespace Reckoner

/-! ### Values anew -/

def Literal.revalue (f : String → Float) (l : Literal) : Literal := { l with value := f l.raw }

def Operand.revalue (f : String → Float) : Operand → Operand
  | literal l => literal (l.revalue f)
  | unary op a s => unary op (a.revalue f) s

def Unary.revalue (f : String → Float) (u : Unary) : Unary := ⟨u.op, u.argument.revalue f, u.span⟩

/-- The expression with the values that `f` finds in the digits of its literals. -/
def Expr.revalue (f : String → Float) : Expr → Expr
  | literal l => literal (l.revalue f)
  | binary op l r s => binary op (l.revalue f) (r.revalue f) s
  | unary u => unary (u.revalue f)

def Statement.revalue (f : String → Float) : Statement → Statement
  | empty s => empty s
  | expression e s => expression (e.revalue f) s

/-- The program with the values that `f` finds in the digits of its literals. -/
def Program.revalue (f : String → Float) (p : Program) : Program :=
  { p with body := p.body.map (Statement.revalue f) }

/-! ### Trees of one shape -/

theorem BinaryOp.eq_of_symbol_eq {op op' : BinaryOp} (h : op.symbol = op'.symbol) : op = op' := by
  have hsome := ofSymbol?_symbol op
  rw [h, ofSymbol?_symbol] at hsome
  exact (Option.some.inj hsome).symm

/-- Objects that start with their types tell the types and the rest apart. -/
theorem typed_shape_inj {name name' : String} {fs fs' : Fields} :
    (typed name fs).shape = (typed name' fs').shape ↔
      name = name' ∧ (Json.object fs).shape = (Json.object fs').shape := by
  simp [typed]

theorem Span.eq_of_shape {s s' : Span}
    (h : (Json.object s.fields).shape = (Json.object s'.fields).shape) : s = s' := by
  obtain ⟨start, stop⟩ := s
  obtain ⟨start', stop'⟩ := s'
  simpa [fields] using h

theorem unaryFields_inj {op op' : UnaryOp} {a a' : Json} {s s' : Span}
    (h : (Json.object (unaryFields op a s)).shape = (Json.object (unaryFields op' a' s')).shape) :
    op = op' ∧ a.shape = a'.shape ∧ s = s' := by
  simp only [unaryFields, List.cons_append, List.nil_append, Json.shape_object_cons_inj] at h
  obtain ⟨-, -, -, ha, hspan⟩ := h
  exact ⟨by cases op; cases op'; rfl, ha, Span.eq_of_shape hspan⟩

theorem binaryFields_inj {op op' : BinaryOp} {l l' r r' : Json} {s s' : Span}
    (h : (Json.object (binaryFields op l r s)).shape =
      (Json.object (binaryFields op' l' r' s')).shape) :
    op = op' ∧ l.shape = l'.shape ∧ r.shape = r'.shape ∧ s = s' := by
  simp only [binaryFields, List.cons_append, List.nil_append, Json.shape_object_cons_inj] at h
  obtain ⟨-, hop, -, hl, -, hr, hspan⟩ := h
  exact ⟨BinaryOp.eq_of_symbol_eq (Json.shape_string_inj.1 hop), hl, hr, Span.eq_of_shape hspan⟩

section
variable {f : String → Float}

theorem Literal.revalue_eq_of_shape {l l' : Literal}
    (h : (Json.object l.fields).shape = (Json.object l'.fields).shape) :
    l.revalue f = l'.revalue f := by
  simp only [fields, List.cons_append, List.nil_append, Json.shape_object_cons_inj] at h
  obtain ⟨-, -, -, hraw, hspan⟩ := h
  rw [revalue, revalue, Span.eq_of_shape hspan, Json.shape_string_inj.1 hraw]

theorem Operand.revalue_eq_of_shape {a a' : Operand} (h : a.json.shape = a'.json.shape) :
    a.revalue f = a'.revalue f := by
  induction a generalizing a' with
  | literal l =>
    cases a' with
    | literal l' => exact congrArg literal (Literal.revalue_eq_of_shape (typed_shape_inj.1 h).2)
    | unary => exact absurd (typed_shape_inj.1 h).1 (by decide)
  | unary op a s ih =>
    cases a' with
    | literal => exact absurd (typed_shape_inj.1 h).1 (by decide)
    | unary op' a' s' =>
      obtain ⟨rfl, ha, rfl⟩ := unaryFields_inj (typed_shape_inj.1 h).2
      rw [revalue, revalue, ih ha]

theorem Expr.revalue_eq_of_shape {e e' : Expr} (h : e.json.shape = e'.json.shape) :
    e.revalue f = e'.revalue f := by
  induction e generalizing e' with
  | literal l =>
    cases e' with
    | literal l' => exact congrArg literal (Literal.revalue_eq_of_shape (typed_shape_inj.1 h).2)
    | binary | unary => exact absurd (typed_shape_inj.1 h).1 (by decide)
  | binary op l r s ihl ihr =>
    cases e' with
    | binary op' l' r' s' =>
      obtain ⟨rfl, hl, hr, rfl⟩ := binaryFields_inj (typed_shape_inj.1 h).2
      rw [revalue, revalue, ihl hl, ihr hr]
    | literal | unary => exact absurd (typed_shape_inj.1 h).1 (by decide)
  | unary u =>
    cases e' with
    | unary u' =>
      obtain ⟨hop, ha, hspan⟩ := unaryFields_inj (typed_shape_inj.1 h).2
      rw [revalue, revalue, Unary.revalue, Unary.revalue, hop, Operand.revalue_eq_of_shape ha, hspan]
    | literal | binary => exact absurd (typed_shape_inj.1 h).1 (by decide)

theorem Statement.revalue_eq_of_shape {s s' : Statement} (h : s.json.shape = s'.json.shape) :
    s.revalue f = s'.revalue f := by
  cases s with
  | empty s =>
    cases s' with
    | empty s' => rw [Span.eq_of_shape (typed_shape_inj.1 h).2]
    | expression => exact absurd (typed_shape_inj.1 h).1 (by decide)
  | expression e s =>
    cases s' with
    | empty => exact absurd (typed_shape_inj.1 h).1 (by decide)
    | expression e' s' =>
      obtain ⟨-, he, hspan⟩ := Json.shape_object_cons_inj.1 (typed_shape_inj.1 h).2
      rw [revalue, revalue, Expr.revalue_eq_of_shape he, Span.eq_of_shape hspan]

theorem Program.revalue_eq_of_shape {p q : Program} (h : p.json.shape = q.json.shape) :
    p.revalue f = q.revalue f := by
  obtain ⟨-, hbody, hspan⟩ := Json.shape_object_cons_inj.1 (typed_shape_inj.1 h).2
  have hmap : p.body.map (Statement.revalue f) = q.body.map (Statement.revalue f) := by
    rw [Json.shape_array_inj, List.map_map, List.map_map] at hbody
    rw [← List.forall₂_eq_eq_eq, List.forall₂_map_left_iff, List.forall₂_map_right_iff] at hbody ⊢
    exact hbody.imp fun _ _ => Statement.revalue_eq_of_shape
  rw [revalue, revalue, hmap, Span.eq_of_shape hspan]

end

/-! ### Trees that were read -/

theorem Expr.revalue_withSpan (f : String → Float) (e : Expr) (s : Span) :
    (e.withSpan s).revalue f = (e.revalue f).withSpan s := by
  cases e <;> rfl

namespace Grammar
variable {b : Builder} {q : Option Rank} {ts : List Token} {e : Expr} {s : Statement}

/-- Reading gives literals the values that their digits say, and both builders keep them. -/
theorem Reads.revalue_eq (hb : b = .located ∨ b = .unlocated) (h : Reads b q ts e) :
    e.revalue numberValue = e := by
  induction h with
  | number | minus => rcases hb with rfl | rfl <;> rfl
  | parens _ _ _ ih =>
    rcases hb with rfl | rfl
    · exact (Expr.revalue_withSpan _ _ _).trans (congrArg _ ih)
    · exact ih
  | single _ _ ih => exact ih
  | chain q _ _ _ ihl ihr =>
    rcases hb with rfl | rfl <;> exact congrArg₂ (Expr.binary _ · · _) ihl ihr

theorem ReadsStatement.revalue_eq (hb : b = .located ∨ b = .unlocated) (h : ReadsStatement b ts s) :
    s.revalue numberValue = s := by
  cases h with
  | empty => rcases hb with rfl | rfl <;> rfl
  | expression h =>
    have he := h.revalue_eq hb
    rcases hb with rfl | rfl <;> exact congrArg (Statement.expression · _) he

end Grammar

namespace Program
open Grammar
variable {b : Builder} {text : String} {p q : Program}

/-- The program is what some text is read as, with places or without them. -/
def IsRead (p : Program) : Prop :=
  ∃ text, parse .located text = .ok p ∨ parse .unlocated text = .ok p

theorem revalue_of_parse (hb : b = .located ∨ b = .unlocated) (h : parse b text = .ok p) :
    p.revalue numberValue = p := by
  obtain ⟨tss, ss, -, -, hall, rfl⟩ := parse_eq_ok_iff.1 h
  have hbody : ss.map (Statement.revalue numberValue) = ss := by
    clear h
    induction hall with
    | nil => rfl
    | cons hs _ ih => rw [List.map_cons, hs.revalue_eq hb, ih]
  rcases hb with rfl | rfl <;> exact congrArg (Program.mk · _) hbody

theorem IsRead.revalue_eq (h : p.IsRead) : p.revalue numberValue = p := by
  obtain ⟨text, h | h⟩ := h
  · exact revalue_of_parse (.inl rfl) h
  · exact revalue_of_parse (.inr rfl) h

/-- Programs with the same JSON text differ in the values of literals at most, and not even in those
if they were read. -/
theorem eq_of_json (h : p.json.compact = q.json.compact) :
    (∀ f, p.revalue f = q.revalue f) ∧ (p.IsRead → q.IsRead → p = q) := by
  have hshape := Json.shape_eq_of_compact_eq h
  refine ⟨fun f => revalue_eq_of_shape hshape, fun hp hq => ?_⟩
  rw [← hp.revalue_eq, ← hq.revalue_eq]
  exact revalue_eq_of_shape hshape

/-- An infinity and a NaN are written alike. -/
theorem eq_of_json_nonfinite :
    let p (x : Float) : Program := ⟨[.expression (.literal ⟨x, "9\"", ⟨0, 2⟩⟩) ⟨0, 3⟩], ⟨0, 3⟩⟩
    p (1 / 0) ≠ p (0 / 0) ∧ (p (1 / 0)).json.compact = (p (0 / 0)).json.compact ∧
      ∀ f, (p (1 / 0)).revalue f = (p (0 / 0)).revalue f := by
  intro p
  have h : (p (1 / 0)).json.compact = (p (0 / 0)).json.compact := by decide +kernel
  refine ⟨fun heq => ?_, h, (eq_of_json h).1⟩
  simp only [p, Program.mk.injEq, List.cons.injEq, Statement.expression.injEq, Expr.literal.injEq,
    Literal.mk.injEq, and_true] at heq
  exact absurd heq (by decide)

end Program
end Reckoner
