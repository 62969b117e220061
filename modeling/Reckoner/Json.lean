import Reckoner.Decimal.Layout

/-!
# JSON

The values that are written as JSON, on one line or indented. The fields of an object are written in
the order in which they are given.
-/

namespace Reckoner

inductive Json where
  | null
  | nat (n : Nat)
  | number (x : Float)
  | string (s : String)
  | array (items : List Json)
  | object (fields : List (String × Json))
deriving Inhabited

namespace Json

/-- Numbers between `1e-5` and `1e16` are written without an exponent and with a fraction. JSON has
no word for an infinity or a NaN. -/
def layout : Decimal.Layout where
  positional e := -5 ≤ e && e < 16
  fraction := true
  plus := true
  tie := .even
  infinity := "null"
  minusInfinity := "null"
  nan := "null"

/-- How a character is written inside a string. -/
def escape (c : Char) : List Char :=
  match c with
  | '"' => ['\\', '"']
  | '\\' => ['\\', '\\']
  | '\x08' => ['\\', 'b']
  | '\x0C' => ['\\', 'f']
  | '\n' => ['\\', 'n']
  | '\r' => ['\\', 'r']
  | '\t' => ['\\', 't']
  | c =>
    if c.toNat < 0x20 then
      ['\\', 'u', '0', '0', (c.toNat / 16).digitChar, (c.toNat % 16).digitChar]
    else [c]

def quote (s : String) : String := String.ofList ('"' :: s.toList.flatMap escape ++ ['"'])

mutual

/-- The value on one line, without spaces. -/
def compact : Json → String
  | null => "null"
  | nat n => n.repr
  | number x => layout.write x
  | string s => quote s
  | array items => "[" ++ compactItems items ++ "]"
  | object fields => "\x7b" ++ compactFields fields ++ "\x7d"

/-- The items of an array on one line, with commas between them. -/
def compactItems : List Json → String
  | [] => ""
  | [v] => v.compact
  | v :: w :: r => v.compact ++ "," ++ compactItems (w :: r)

/-- The fields of an object on one line, with commas between them. -/
def compactFields : List (String × Json) → String
  | [] => ""
  | [(k, v)] => quote k ++ ":" ++ v.compact
  | (k, v) :: f :: r => quote k ++ ":" ++ v.compact ++ "," ++ compactFields (f :: r)

end

/-- A new line, indented `depth` times. -/
def newline (depth : Nat) : String := "\n" ++ String.ofList (List.replicate (2 * depth) ' ')

mutual

/-- The value over several lines, at the given depth. Empty arrays and objects stay closed. -/
def pretty (depth : Nat) : Json → String
  | array [] => "[]"
  | array (v :: r) => "[" ++ prettyItems (depth + 1) (v :: r) ++ newline depth ++ "]"
  | object [] => "\x7b\x7d"
  | object (f :: r) => "\x7b" ++ prettyFields (depth + 1) (f :: r) ++ newline depth ++ "\x7d"
  | v => v.compact

/-- The items of an array, each on a line of its own. -/
def prettyItems (depth : Nat) : List Json → String
  | [] => ""
  | [v] => newline depth ++ v.pretty depth
  | v :: w :: r => newline depth ++ v.pretty depth ++ "," ++ prettyItems depth (w :: r)

/-- The fields of an object, each on a line of its own. -/
def prettyFields (depth : Nat) : List (String × Json) → String
  | [] => ""
  | [(k, v)] => newline depth ++ quote k ++ ": " ++ v.pretty depth
  | (k, v) :: f :: r =>
    newline depth ++ quote k ++ ": " ++ v.pretty depth ++ "," ++ prettyFields depth (f :: r)

end

end Json

end Reckoner
