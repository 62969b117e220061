import Mathlib.Data.Nat.Digits.Defs
import Reckoner.Proofs.Lexing
import Reckoner.Proofs.Program

/-!
# The reference grammar

The grammar of the language as a relation between token lists and trees that stand nowhere. It
knows no reading order: operators group to the left because the rules for sums and products recur
on the left. Texts are read without places exactly as the grammar derives them
(`parse_unlocated_eq_ok_iff`).
-/

namespace Reckoner
namespace Grammar

/-- The nonterminals for expressions. -/
inductive Nonterminal where
  | primary
  | multiplicative
  | additive
deriving DecidableEq, Repr

/-- The number that decimal digits write, the last of them the ones, as a float. -/
def decimalValue (digits : String) : Float :=
  .ofNat (Nat.ofDigits 10 (digits.toList.reverse.map fun d => d.toNat - '0'.toNat))

/-- The literal that a number token gives. -/
def literalOf (t : Token) : Literal := ⟨decimalValue t.lexeme, t.lexeme, .nowhere⟩

/-- The nonterminal derives the tokens, and `e` is their tree. -/
inductive Derives : Nonterminal → List Token → Expr → Prop
  | number {t : Token} (h : t.kind = .number) : Derives .primary [t] (.literal (literalOf t))
  | negation {m t : Token} (hm : m.kind = .additive) (hs : m.lexeme = "-") (h : t.kind = .number) :
    Derives .primary [m, t] (.unary ⟨.negate, .literal (literalOf t), .nowhere⟩)
  | parens {o cl : Token} {ts : List Token} {e : Expr} (ho : o.kind = .opening)
    (h : Derives .additive ts e) (hc : cl.kind = .closing) : Derives .primary (o :: (ts ++ [cl])) e
  | primary {ts : List Token} {e : Expr} (h : Derives .primary ts e) : Derives .multiplicative ts e
  | product {o : Token} {op : BinaryOp} {ls rs : List Token} {l r : Expr}
    (hl : Derives .multiplicative ls l) (ho : o.kind = .multiplicative)
    (hop : BinaryOp.ofSymbol? o.lexeme = some op) (hr : Derives .primary rs r) :
    Derives .multiplicative (ls ++ o :: rs) (.binary op l r .nowhere)
  | multiplicative {ts : List Token} {e : Expr} (h : Derives .multiplicative ts e) :
    Derives .additive ts e
  | sum {o : Token} {op : BinaryOp} {ls rs : List Token} {l r : Expr}
    (hl : Derives .additive ls l) (ho : o.kind = .additive)
    (hop : BinaryOp.ofSymbol? o.lexeme = some op) (hr : Derives .multiplicative rs r) :
    Derives .additive (ls ++ o :: rs) (.binary op l r .nowhere)

/-- The tokens are a statement, and `s` is its tree. -/
inductive DerivesStatement : List Token → Statement → Prop
  | empty {t : Token} (h : t.kind = .semicolon) : DerivesStatement [t] (.empty .nowhere)
  | expression {t : Token} {ts : List Token} {e : Expr} (h : Derives .additive ts e)
    (ht : t.kind = .semicolon) : DerivesStatement (ts ++ [t]) (.expression e .nowhere)

/-- The tokens are one statement or more, and `p` is the tree of the program. -/
def DerivesProgram (ts : List Token) (p : Program) : Prop :=
  p.span = .nowhere ∧ ∃ tss, ts = tss.flatten ∧ tss ≠ [] ∧ List.Forall₂ DerivesStatement tss p.body

/-- The tokens that have characters are spelled as their kinds ask. -/
def Spelled (ts : List Token) : Prop :=
  ∀ t ∈ ts, t.kind ≠ .semicolon → t.kind.Spells t.lexeme.toList

/-- The nonterminal for the phrases of a rank. -/
def nonterminal : Option Rank → Nonterminal
  | some .sum => .additive
  | some .product => .multiplicative
  | none => .primary

/-- The rank of the phrases that the nonterminal derives. -/
def Nonterminal.rank : Nonterminal → Option Rank
  | additive => some .sum
  | multiplicative => some .product
  | primary => none

variable {q : Option Rank} {o : Token} {ts us : List Token} {e : Expr} {s : Statement}

/-- Digits that are read one by one go on the number `n` that was written before them. -/
theorem ofDigitChars_eq (ds : List Char) (n : Nat) : Nat.ofDigitChars 10 ds n =
    Nat.ofDigits 10 (ds.reverse.map (fun d => d.toNat - '0'.toNat) ++ [n]) := by
  induction ds generalizing n with
  | nil => exact Nat.ofDigits_singleton.symm
  | cons d ds ih =>
    have hlast : Nat.ofDigits 10 [10 * n + (d.toNat - '0'.toNat)] =
        Nat.ofDigits 10 [d.toNat - '0'.toNat, n] := by
      simp [Nat.ofDigits_cons, Nat.add_comm]
    rw [Nat.ofDigitChars_cons, ih, List.reverse_cons, List.map_append, List.append_assoc,
      Nat.ofDigits_append, Nat.ofDigits_append, hlast]
    rfl

/-- What the parser takes for the value of a number is the float of the number written. -/
theorem numberValue_eq (digits : String) : numberValue digits = decimalValue digits := by
  have hdigits : Nat.ofDigitChars 10 digits.toList 0 =
      Nat.ofDigits 10 (digits.toList.reverse.map fun d => d.toNat - '0'.toNat) := by
    rw [ofDigitChars_eq, Nat.ofDigits_append]
    simp
  rw [decimalValue, ← hdigits]
  rfl

theorem literalOf_eq (t : Token) :
    Builder.unlocated.literal (numberValue t.lexeme) t.lexeme t.span = literalOf t := by
  rw [numberValue_eq]
  rfl

theorem Spelled.of_append (h : Spelled (ts ++ us)) : Spelled ts ∧ Spelled us :=
  ⟨fun t ht => h t (List.mem_append_left _ ht), fun t ht => h t (List.mem_append_right _ ht)⟩

theorem Spelled.of_cons (h : Spelled (o :: ts)) : Spelled ts :=
  fun t ht => h t (List.mem_cons_of_mem _ ht)

theorem spelled_tokenize (s : String) : Spelled (tokenize s) :=
  fun _ ht hk => (standsIn_of_mem_tokenize ht).spells hk

theorem ofSymbol?_lexeme (q : Rank) (ho : o.kind = q.kind) (hs : o.kind.Spells o.lexeme.toList) :
    BinaryOp.ofSymbol? o.lexeme = some (q.op o) := by
  rw [ho] at hs
  cases q with
  | sum =>
    rcases hs with h | h
    · have hl : o.lexeme = "+" := String.toList_inj.1 h
      simp [Rank.op, additiveOp, hl, BinaryOp.ofSymbol?]
    · have hl : o.lexeme = "-" := String.toList_inj.1 h
      simp [Rank.op, additiveOp, hl, BinaryOp.ofSymbol?]
  | product =>
    rcases hs with h | h
    · have hl : o.lexeme = "*" := String.toList_inj.1 h
      simp [Rank.op, multiplicativeOp, hl, BinaryOp.ofSymbol?]
    · have hl : o.lexeme = "/" := String.toList_inj.1 h
      simp [Rank.op, multiplicativeOp, hl, BinaryOp.ofSymbol?]

theorem Derives.of_reads (h : Reads .unlocated q ts e) (hs : Spelled ts) :
    Derives (nonterminal q) ts e := by
  induction h with
  | number h => rw [literalOf_eq]; exact .number h
  | minus hm hl h => rw [literalOf_eq]; exact .negation hm hl h
  | parens ho _ hc ih => exact .parens ho (ih hs.of_cons.of_append.1) hc
  | single q _ ih =>
    cases q with
    | sum => exact .multiplicative (ih hs)
    | product => exact .primary (ih hs)
  | @chain q o ls rs l r _ ho _ ihl ihr =>
    have hl := ihl hs.of_append.1
    have hr := ihr hs.of_append.2.of_cons
    have hne : o.kind ≠ .semicolon := by rw [ho]; cases q <;> decide
    have hop := ofSymbol?_lexeme q ho (hs o (by simp) hne)
    cases q with
    | sum => exact .sum hl ho hop hr
    | product => exact .product hl ho hop hr

theorem Derives.reads {n : Nonterminal} (h : Derives n ts e) (hs : Spelled ts) :
    Reads .unlocated n.rank ts e := by
  -- The operator that the symbol names is the one that reading takes the token for.
  have op_eq : ∀ {q : Rank} {o : Token} {op : BinaryOp} {ls rs : List Token},
      Spelled (ls ++ o :: rs) → o.kind = q.kind → BinaryOp.ofSymbol? o.lexeme = some op →
      op = q.op o := by
    intro q o op ls rs hs ho hop
    have hne : o.kind ≠ .semicolon := by rw [ho]; cases q <;> decide
    have := ofSymbol?_lexeme q ho (hs o (by simp) hne)
    exact Option.some.inj (hop.symm.trans this)
  induction h with
  | number h => rw [← literalOf_eq]; exact .number h
  | negation hm hl h => rw [← literalOf_eq]; exact .minus hm hl h
  | parens ho _ hc ih => exact .parens ho (ih hs.of_cons.of_append.1) hc
  | primary _ ih => exact .single .product (ih hs)
  | multiplicative _ ih => exact .single .sum (ih hs)
  | product _ ho hop _ ihl ihr =>
    obtain rfl := op_eq hs (q := .product) ho hop
    exact .chain .product (ihl hs.of_append.1) ho (ihr hs.of_append.2.of_cons)
  | sum _ ho hop _ ihl ihr =>
    obtain rfl := op_eq hs (q := .sum) ho hop
    exact .chain .sum (ihl hs.of_append.1) ho (ihr hs.of_append.2.of_cons)

theorem derivesStatement_iff (hs : Spelled ts) :
    DerivesStatement ts s ↔ ReadsStatement .unlocated ts s := by
  constructor
  · rintro (ht | ⟨h, ht⟩)
    · exact .empty ht
    · exact .expression (h.reads hs.of_append.1) ht
  · rintro (ht | ⟨h, ht⟩)
    · exact .empty ht
    · exact .expression (.of_reads h hs.of_append.1) ht

theorem forall₂_derivesStatement_iff {tss : List (List Token)} {ss : List Statement}
    (hs : Spelled tss.flatten) : List.Forall₂ DerivesStatement tss ss ↔
      List.Forall₂ (ReadsStatement .unlocated) tss ss := by
  induction tss generalizing ss with
  | nil => simp
  | cons ts tss ih =>
    cases ss with
    | nil => simp
    | cons s ss =>
      rw [List.forall₂_cons, List.forall₂_cons, derivesStatement_iff hs.of_append.1,
        ih hs.of_append.2]

theorem derivesProgram_iff {p : Program} (hs : Spelled ts) :
    DerivesProgram ts p ↔ ∃ tss ss, ts = tss.flatten ∧ tss ≠ [] ∧
      List.Forall₂ (ReadsStatement .unlocated) tss ss ∧
      p = Builder.unlocated.program ss (bodySpan ss) := by
  constructor
  · rintro ⟨hspan, tss, rfl, hne, hall⟩
    refine ⟨tss, p.body, rfl, hne, (forall₂_derivesStatement_iff hs).1 hall, ?_⟩
    obtain ⟨body, span⟩ := p
    exact congrArg (Program.mk body) hspan
  · rintro ⟨tss, ss, rfl, hne, hall, rfl⟩
    exact ⟨rfl, tss, rfl, hne, (forall₂_derivesStatement_iff hs).2 hall⟩

/-- A text is read without places as the tree `p` exactly if the grammar derives `p` from its
tokens. -/
theorem parse_unlocated_eq_ok_iff (text : String) (p : Program) :
    Program.parse .unlocated text = .ok p ↔ DerivesProgram (tokenize text) p := by
  rw [Program.parse_eq_ok_iff, derivesProgram_iff (spelled_tokenize text)]

end Grammar
end Reckoner
