import Mathlib.Logic.Function.Iterate
import Reckoner.Eval

/-!
# The divisions of a program

Evaluation can fail at a division only, and it comes to the divisions of a program in a fixed order:
statement by statement, and to the operands of an operator, the left one first, before it comes to
the operator itself. The first division in this order that fails decides the outcome, and where none
fails each statement comes to its value (`Program.eval_eq`). The value is a fold over the tree that
knows nothing of failing.
-/

namespace Reckoner

/-! ### Values -/

/-- The operator on two numbers, with no division that fails. -/
def BinaryOp.combine : BinaryOp → Float → Float → Float
  | add, x, y => x + y
  | sub, x, y => x - y
  | mul, x, y => x * y
  | div, x, y => x / y

def Operand.innermost : Operand → Literal
  | literal l => l
  | unary _ a _ => a.innermost

/-- How many signs stand before the literal. -/
def Operand.signs : Operand → Nat
  | literal _ => 0
  | unary _ a _ => a.signs + 1

/-- The number behind the signs, negated once for each of them. -/
def Unary.value (u : Unary) : Float := Neg.neg^[u.toOperand.signs] u.toOperand.innermost.value

def Expr.value : Expr → Float
  | literal l => l.value
  | binary op l r _ => op.combine l.value r.value
  | unary u => u.value

def Statement.value : Statement → Option Float
  | empty _ => none
  | expression e _ => some e.value

/-! ### Divisions -/

/-- A node that divides `left` by `right`. -/
structure Division where
  left : Expr
  right : Expr
  span : Span

/-- Both operands come to numbers, and the right one to a zero of either sign. -/
def Division.Fails (d : Division) : Prop :=
  (∃ x, d.left.eval = .ok x) ∧ (d.right.eval = .ok 0 ∨ d.right.eval = .ok (-0))

instance (d : Division) : Decidable d.Fails :=
  have : Decidable (∃ x, d.left.eval = .ok x) :=
    match d.left.eval with
    | .ok x => .isTrue ⟨x, rfl⟩
    | .error _ => .isFalse fun ⟨_, h⟩ => nomatch h
  have (y : Float) : Decidable (d.right.eval = .ok y) :=
    match d.right.eval with
    | .ok z =>
      if h : z = y then .isTrue (congrArg _ h) else .isFalse fun he => h (Except.ok.inj he)
    | .error _ => .isFalse fun h => nomatch h
  inferInstanceAs (Decidable (_ ∧ _))

/-- The divisions in an expression, each of them behind those in its operands. -/
def Expr.divisions : Expr → List Division
  | literal _ | unary _ => []
  | binary op l r s => l.divisions ++ (r.divisions ++ if op = .div then [⟨l, r, s⟩] else [])

def Statement.divisions : Statement → List Division
  | empty _ => []
  | expression e _ => e.divisions

/-- The divisions of a program in the order of its statements. -/
def Program.divisions (p : Program) : List Division := p.body.flatMap Statement.divisions

/-- The outcome that the divisions, in their order, decide: the error of the first one that fails,
and `v` if none does. -/
def Division.decision {α : Type} (ds : List Division) (v : α) : Except RuntimeError α :=
  match ds.find? (·.Fails) with
  | some d => .error (.divisionByZero d.span)
  | none => .ok v

namespace Division
variable {α β : Type} {ds es before after : List Division} {d : Division} {v : α} {w : β}

theorem decision_eq_ok (h : ∀ d ∈ ds, ¬ d.Fails) (v : α) : decision ds v = .ok v := by
  have hnone : ds.find? (·.Fails) = none := by simpa using h
  rw [decision, hnone]

theorem decision_eq_error (hds : ds = before ++ d :: after) (hbefore : ∀ c ∈ before, ¬ c.Fails)
    (hd : d.Fails) (v : α) : decision ds v = .error (.divisionByZero d.span) := by
  have hsome : ds.find? (·.Fails) = some d := by
    rw [List.find?_eq_some_iff_append]
    exact ⟨by simpa using hd, before, after, hds, by simpa using hbefore⟩
  rw [decision, hsome]

/-- Either some division is the first one that fails, or none fails. -/
theorem exists_first_or (ds : List Division) : (∃ before d after, ds = before ++ d :: after ∧
    (∀ c ∈ before, ¬ c.Fails) ∧ d.Fails) ∨ ∀ d ∈ ds, ¬ d.Fails := by
  cases h : ds.find? (·.Fails) with
  | none => exact .inr (by simpa using h)
  | some d =>
    obtain ⟨hd, before, after, hds, hbefore⟩ := List.find?_eq_some_iff_append.1 h
    exact .inl ⟨before, d, after, hds, by simpa using hbefore, by simpa using hd⟩

theorem exists_decision_eq_error_iff :
    (∃ e, decision ds v = .error e) ↔ ∃ d ∈ ds, d.Fails := by
  rcases exists_first_or ds with ⟨before, d, after, hds, hbefore, hd⟩ | h
  · rw [decision_eq_error hds hbefore hd]
    exact ⟨fun _ => ⟨d, by simp [hds], hd⟩, fun _ => ⟨_, rfl⟩⟩
  · rw [decision_eq_ok h]
    exact ⟨fun ⟨_, he⟩ => (nomatch he), fun ⟨d, hmem, hd⟩ => absurd hd (h d hmem)⟩

/-- What comes behind a division that fails does not matter. -/
theorem decision_append_of_fails (h : ∃ d ∈ ds, d.Fails) (es : List Division) (v w : α) :
    decision (ds ++ es) v = decision ds w := by
  rcases exists_first_or ds with ⟨before, d, after, hds, hbefore, hd⟩ | hnone
  · rw [decision_eq_error hds hbefore hd]
    have happ : ds ++ es = before ++ d :: (after ++ es) := by rw [hds, List.append_assoc]; rfl
    exact decision_eq_error happ hbefore hd v
  · obtain ⟨d, hmem, hd⟩ := h
    exact absurd hd (hnone d hmem)

theorem decision_append (h : ∀ d ∈ ds, ¬ d.Fails) (es : List Division) (v : α) :
    decision (ds ++ es) v = decision es v := by
  have hnone : ds.find? (·.Fails) = none := by simpa using h
  rw [decision, List.find?_append, hnone]
  rfl

/-- One decision after another is the decision of all the divisions. The second one need not be known
unless the first one succeeds. -/
theorem decision_bind {k : α → Except RuntimeError β}
    (h : decision ds v = .ok v → k v = decision es w) :
    decision ds v >>= k = decision (ds ++ es) w := by
  rcases exists_first_or ds with ⟨before, d, after, hds, hbefore, hd⟩ | hnone
  · rw [decision_eq_error hds hbefore hd]
    have happ : ds ++ es = before ++ d :: (after ++ es) := by rw [hds, List.append_assoc]; rfl
    exact (decision_eq_error happ hbefore hd w).symm
  · rw [decision_append hnone, ← h (decision_eq_ok hnone v), decision_eq_ok hnone]
    rfl

theorem decision_map (f : α → β) : f <$> decision ds v = decision ds (f v) := by
  unfold decision
  split <;> rfl

end Division

/-! ### Evaluation -/

open Division

section
open Float.Model

/-- Only the two zeros have neither an exponent nor a mantissa. -/
theorem eq_of_unpack_eq_zero {b : BitVec 64} {s : UnpackedFloat.Sign}
    (h : UnpackedFloat.unpack .binary64 b = .zero s) :
    b = 0#64 ∨ b = 0x8000000000000000#64 := by
  unfold UnpackedFloat.unpack at h
  dsimp only at h
  -- infinities and NaNs have an exponent of ones, subnormal numbers one of zeros and a mantissa
  by_cases hones : @UnpackedFloat.unpackExponent .binary64 b = -1#11
  · rw [if_pos hones] at h
    by_cases hinf : @UnpackedFloat.unpackMantissa .binary64 b = 0#52
    · rw [if_pos hinf] at h; cases h
    · rw [if_neg hinf] at h; cases h
  rw [if_neg hones] at h
  by_cases hexponent : @UnpackedFloat.unpackExponent .binary64 b = 0#11
  · rw [if_pos hexponent] at h
    by_cases hmantissa : @UnpackedFloat.unpackMantissa .binary64 b = 0#52
    · have he := congrArg BitVec.toNat hexponent
      have hm := congrArg BitVec.toNat hmantissa
      simp only [UnpackedFloat.unpackExponent, UnpackedFloat.unpackMantissa, BitVec.extractLsb,
        BitVec.toNat_cast, BitVec.extractLsb'_toNat, Nat.shiftRight_eq_div_pow,
        BitVec.toNat_ofNat] at he hm
      have := b.isLt
      simp only [← BitVec.toNat_inj, BitVec.toNat_ofNat]
      omega
    · rw [dif_neg hmantissa] at h; cases h
  · rw [if_neg hexponent] at h; cases h

end

theorem beq_zero_iff {x : Float} : (x == 0) = true ↔ x = 0 ∨ x = -0 := by
  constructor
  · intro h
    have h : x.toModel.unpack.beq (.zero .positive) = true := h
    cases hx : x.toModel.unpack with
    | zero s =>
      obtain ⟨⟨⟨b⟩, hb⟩⟩ := x
      rcases eq_of_unpack_eq_zero hx with rfl | rfl
      · exact .inl rfl
      · exact .inr rfl
    | notANumber => rw [hx] at h; cases h
    | infinity s => rw [hx] at h; cases s <;> cases h
    | finite s => rw [hx] at h; cases s <;> cases h
  · rintro (rfl | rfl) <;> decide

theorem BinaryOp.apply_eq {op : BinaryOp} {l r : Expr} {x y : Float} (s : Span)
    (hl : l.eval = .ok x) (hr : r.eval = .ok y) :
    op.apply s x y = decision (if op = .div then [⟨l, r, s⟩] else []) (op.combine x y) := by
  cases op with
  | div =>
    have hfails : (⟨l, r, s⟩ : Division).Fails ↔ (y == 0) = true := by
      simp [Division.Fails, hl, hr, beq_zero_iff]
    rw [apply, if_pos rfl, decision]
    by_cases hy : (y == 0) = true <;> simp [hy, hfails, combine]
  | _ => rfl

theorem Operand.eval_eq (a : Operand) : a.eval = Neg.neg^[a.signs] a.innermost.value := by
  induction a with
  | literal l => rfl
  | unary op a s ih =>
    rw [eval, ih, signs, Function.iterate_succ_apply']
    rfl

theorem Unary.eval_eq (u : Unary) : u.eval = u.value := u.toOperand.eval_eq

theorem Expr.eval_eq (e : Expr) : e.eval = decision e.divisions e.value := by
  induction e with
  | literal l => rfl
  | unary u => exact congrArg Except.ok u.eval_eq
  | binary op l r s ihl ihr =>
    rw [eval, divisions, ihl, ihr]
    refine decision_bind fun hl => decision_bind fun hr => ?_
    exact BinaryOp.apply_eq s (ihl.trans hl) (ihr.trans hr)

theorem Statement.eval_eq (s : Statement) : s.eval = decision s.divisions s.value := by
  cases s with
  | empty => rfl
  | expression e s =>
    rw [eval, e.eval_eq, decision_map]
    rfl

theorem Statement.mapM_eval_eq (ss : List Statement) :
    ss.mapM eval = decision (ss.flatMap divisions) (ss.map value) := by
  induction ss with
  | nil => rfl
  | cons s ss ih =>
    rw [List.mapM_cons, s.eval_eq, ih, List.flatMap_cons, List.map_cons]
    refine decision_bind fun _ => ?_
    rw [← decision_map]
    unfold decision
    split <;> rfl

theorem Program.eval_eq (p : Program) : p.eval = decision p.divisions (p.body.map Statement.value) :=
  Statement.mapM_eval_eq p.body

/-- A program fails at the first of its divisions that fails, whatever comes behind it, and if none
fails it comes to the values of its statements. -/
structure Program.FailsInOrder (p : Program) : Prop where
  error_iff : (∃ e, p.eval = .error e) ↔ ∃ d ∈ p.divisions, d.Fails
  first : ∀ before d after, p.divisions = before ++ d :: after → (∀ c ∈ before, ¬ c.Fails) →
    d.Fails → p.eval = .error (.divisionByZero d.span)
  rest : ∀ ss s rest, p.body = ss ++ s :: rest → (∃ d ∈ s.divisions, d.Fails) →
    ∀ rest' span, eval ⟨ss ++ s :: rest', span⟩ = p.eval
  results : (∀ d ∈ p.divisions, ¬ d.Fails) → p.eval = .ok (p.body.map Statement.value)

theorem Program.eval_of_fails {p : Program} {ss rest : List Statement} {s : Statement}
    (hp : p.body = ss ++ s :: rest) (h : ∃ d ∈ s.divisions, d.Fails) :
    p.eval = decision ((ss ++ [s]).flatMap Statement.divisions) [] := by
  have hfails : ∃ d ∈ (ss ++ [s]).flatMap Statement.divisions, d.Fails := by
    obtain ⟨d, hmem, hd⟩ := h
    exact ⟨d, by simp [hmem], hd⟩
  rw [eval_eq, divisions, hp, List.append_cons, List.flatMap_append]
  exact decision_append_of_fails hfails _ _ _

/-- Evaluation goes over the divisions in their order, and it has no other way to fail: a sign never
does, however many stand before a literal. -/
theorem Program.failsInOrder : (∀ p : Program, p.FailsInOrder) ∧
    ∀ u : Unary, Node.eval (.unary u) = .ok (.number u.value) := by
  refine ⟨fun p => ⟨?_, ?_, ?_, ?_⟩, fun u => ?_⟩
  · rw [p.eval_eq]
    exact exists_decision_eq_error_iff
  · intro before d after hds hbefore hd
    rw [p.eval_eq]
    exact decision_eq_error hds hbefore hd _
  · intro ss s rest hp hs rest' span
    rw [eval_of_fails hp hs]
    exact eval_of_fails rfl hs
  · intro h
    rw [p.eval_eq]
    exact decision_eq_ok h _
  · exact congrArg (fun x => Except.ok (Value.number x)) u.eval_eq

end Reckoner
