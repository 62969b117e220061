import Reckoner.Decimal.Layout

/-!
# Values

What a node of a tree comes to: nothing for an empty statement, a list for a program, and a number
for everything else.
-/

namespace Reckoner

inductive Value where
  | null
  | number (x : Float)
  /-- one result for each statement of a program -/
  | sequence (items : List (Option Float))
deriving BEq, Inhabited, Repr

namespace Value

def ofResult : Option Float → Value
  | none => null
  | some x => number x

/-- The number, if the value is one. -/
def number? : Value → Option Float
  | number x => some x
  | _ => none

/-- Whether the value is that of an empty statement. -/
def isNull : Value → Bool
  | null => true
  | _ => false

/-- Results are written in full, without an exponent; whole numbers have no fraction. -/
def layout : Decimal.Layout where
  positional _ := true
  fraction := false
  plus := false
  tie := .up
  infinity := "inf"
  minusInfinity := "-inf"
  nan := "NaN"

def numberText (x : Float) : String := layout.write x

def resultText : Option Float → String
  | none => "null"
  | some x => numberText x

def text : Value → String
  | null => "null"
  | number x => numberText x
  | sequence items => "[" ++ ", ".intercalate (items.map resultText) ++ "]"

end Value

end Reckoner
