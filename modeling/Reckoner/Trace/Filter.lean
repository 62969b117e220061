import Reckoner.Text.Blank
import Reckoner.Text.Split
import Reckoner.Trace

/-!
# Filters

Which events of a trace are shown. A filter is a list of rules with commas between them; a rule
gives the least grave level that is shown, for all targets or for those that start with a certain
text. Of the rules that speak of a target the one with the longest text holds, and of two for the
same text the later one.
-/

namespace Reckoner

/-- How much is shown of the targets that start with `target`: the levels up to `rank`. -/
structure Rule where
  target : String
  rank : Nat
deriving DecidableEq, Inhabited, Repr

/-- Why a text is no rule. -/
inductive RuleError where
  | malformed
  | unknownLevel
deriving DecidableEq, Inhabited, Repr

def RuleError.message : RuleError → String
  | malformed => "invalid filter directive"
  | unknownLevel => "error parsing level filter: expected one of \"off\", \"error\", \"warn\", " ++
      "\"info\", \"debug\", \"trace\", or a number 0-5"

namespace Rule

/-- The number that is written `cs`: one digit or more, behind a plus sign or without one. -/
def number? (cs : List Char) : Option Nat :=
  let digits := if cs.head? = some '+' then cs.tail else cs
  if ¬ digits.isEmpty ∧ digits.all Char.isDigit then some (Nat.ofDigitChars 10 digits 0) else none

/-- The rank that a word or a number stands for. -/
def rank? (s : String) : Option Nat :=
  match s.map Char.toLower with
  | "off" => some 0
  | "error" => some 1
  | "warn" => some 2
  | "info" => some 3
  | "debug" => some 4
  | "trace" => some 5
  | t => (number? t.toList).filter (· ≤ 5)

/-- Whether a rule can start with `c`. Beyond ASCII all characters count as letters. -/
def isStart (c : Char) : Bool :=
  c.isAlphanum || c == '_' || c == ':' || c == '-' || c == '[' || 0x80 ≤ c.toNat

/-- The rule that is written `s`: a level, a target, or both with an equals sign between them. A
target without a level is shown in full. What has brackets speaks of parts that no trace has.
Blanks may stand before a lone level or target, of which they are a part, but not before both. -/
def ofText (s : String) : Except RuleError Rule :=
  let (blanks, rule) := s.toList.span Text.isBlank
  if ¬ rule.head?.any isStart then .error .malformed
  else
    match Text.splitSetting s with
    | (t, some w) =>
      if t.toList.contains '[' then .ok ⟨t, 0⟩
      else if ¬ blanks.isEmpty then .error .unknownLevel
      else if w.isEmpty then .ok ⟨t, Level.trace.rank⟩
      else
        match rank? w with
        | some r => .ok ⟨t, r⟩
        | none => .error .unknownLevel
    | (w, none) =>
      if w.toList.contains '[' then .ok ⟨w, 0⟩
      else
        match rank? w with
        | some r => .ok ⟨"", r⟩
        | none => .ok ⟨w, Level.trace.rank⟩

/-- Whether the rule speaks of the target `t`. -/
def covers (r : Rule) (t : String) : Bool := r.target.toList.isPrefixOf t.toList

/-- Of two rules that speak of one target the one that says more of it, or else the second. -/
def closer (a b : Rule) : Rule := if b.target.length < a.target.length then a else b

end Rule

/-- The rules of a filter, in the order in which they are written. -/
abbrev Filter := List Rule

namespace Filter

/-- The texts of the rules in the filter that is written `s`. -/
def parts (s : String) : List String := (s.splitOn ",").filter (!·.isEmpty)

/-- The filter that is written `s`. What is no rule is left out; without a rule errors are shown. -/
def ofText (s : String) : Filter :=
  match (parts s).filterMap (Rule.ofText · |>.toOption) with
  | [] => [⟨"", Level.error.rank⟩]
  | rules => rules

/-- What is said of the texts that are left out. -/
def notices (s : String) : List String :=
  (parts s).filterMap fun t =>
    match Rule.ofText t with
    | .ok _ => none
    | .error e => some s!"ignoring `{t}`: {e.message}"

/-- The rule that holds for the target `t`. -/
def rule? (f : Filter) (t : String) : Option Rule :=
  (f.filter (·.covers t)).foldl (fun best r => some (best.elim r (·.closer r))) none

def shows (f : Filter) (e : Event) : Bool :=
  (f.rule? e.target).any (e.level.rank ≤ ·.rank)

/-- The lines that are shown of a trace. -/
def lines (f : Filter) (t : List Event) : List String := (t.filter f.shows).map Event.line

end Filter

end Reckoner
