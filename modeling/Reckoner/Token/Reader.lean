import Reckoner.Text.Blank
import Reckoner.Token

/-!
# Reading tokens

A text is a sequence of pieces: runs of blanks, comments and tokens. A `Reader` takes them off its
front one token at a time and drops what lies between. A character that starts no piece cuts the
text: nothing from there on is read, and nothing is supplied. A text read to its end is closed by a
semicolon of no width, unless its last piece is a semicolon already.
-/

namespace Reckoner
open Text

/-- A piece at the front of a text, and the text behind it. -/
structure Piece where
  kind : Kind
  lexeme : List Char
  rest : List Char
deriving Repr

namespace Piece

/-- The run at the front of `c :: cs` that starts with `c` and goes on while `p` holds. -/
def run (k : Kind) (p : Char → Bool) (c : Char) (cs : List Char) : Piece :=
  ⟨k, c :: cs.takeWhile p, cs.dropWhile p⟩

/-- The piece at the front of a text. A second slash turns an operator into a comment, which ends
before the next line break. -/
def first? : List Char → Option Piece
  | [] => none
  | c :: cs =>
    if isBlank c then some (run .blank isBlank c cs)
    else if c.isDigit then some (run .number Char.isDigit c cs)
    else if c = ';' then some ⟨.semicolon, [c], cs⟩
    else if c = '(' then some ⟨.opening, [c], cs⟩
    else if c = ')' then some ⟨.closing, [c], cs⟩
    else if c = '+' ∨ c = '-' then some ⟨.additive, [c], cs⟩
    else if c = '/' ∧ cs.head? = some '/' then some (run .blank (!isLineBreak ·) c cs)
    else if c = '*' ∨ c = '/' then some ⟨.multiplicative, [c], cs⟩
    else none

theorem lexeme_append_rest {cs : List Char} {p : Piece} (h : first? cs = some p) :
    p.lexeme ++ p.rest = cs := by
  cases cs with
  | nil => simp [first?] at h
  | cons c cs =>
    simp only [first?] at h
    repeat' split at h
    all_goals simp at h
    all_goals subst h; simp [run]

theorem lexeme_ne_nil {cs : List Char} {p : Piece} (h : first? cs = some p) : p.lexeme ≠ [] := by
  cases cs with
  | nil => simp [first?] at h
  | cons c cs =>
    simp only [first?] at h
    repeat' split at h
    all_goals simp at h
    all_goals subst h; simp [run]

theorem length_rest_lt {cs : List Char} {p : Piece} (h : first? cs = some p) :
    p.rest.length < cs.length := by
  rw [← lexeme_append_rest h, List.length_append]
  have := List.length_pos_iff.2 (lexeme_ne_nil h)
  omega

end Piece

/-- How far a text has been read. -/
structure Reader where
  /-- what has not been scanned -/
  text : List Char
  /-- how many characters have been scanned -/
  offset : Nat
  /-- whether the last piece scanned is a semicolon -/
  closed : Bool
  /-- whether there are no more tokens -/
  ended : Bool

/-- Where and at which character a text is cut. -/
structure Cut where
  offset : Nat
  char : Char
deriving DecidableEq, Repr

namespace Reader

/-- The reader at the front of a text. -/
def start (s : String) : Reader := ⟨s.toList, 0, false, false⟩

/-- The reader behind the piece `p`. -/
def pass (r : Reader) (p : Piece) : Reader :=
  ⟨p.rest, r.offset + p.lexeme.length, p.kind == .semicolon, false⟩

/-- The token that the piece `p` makes where the reader stands. -/
def token (r : Reader) (p : Piece) : Token :=
  ⟨p.kind, String.ofList p.lexeme, ⟨r.offset, r.offset + p.lexeme.length⟩⟩

/-- The next token, if there is one, and the reader behind it. -/
def next (r : Reader) : Option Token × Reader :=
  if r.ended then (none, r)
  else
    match _h : Piece.first? r.text with
    | some p => if p.kind = .blank then (r.pass p).next else (some (r.token p), r.pass p)
    | none =>
      if r.text = [] ∧ ¬ r.closed then (some (.terminator r.offset), { r with ended := true })
      else (none, { r with ended := true })
termination_by r.text.length
decreasing_by exact Piece.length_rest_lt ‹_›

/-- How many steps the reader may have left. -/
def fuel (r : Reader) : Nat := if r.ended then 0 else r.text.length + 1

theorem fuel_next_lt {r r' : Reader} {t : Token} (h : r.next = (some t, r')) :
    r'.fuel < r.fuel := by
  fun_induction next r with
  | case1 r hr => simp at h
  | case2 r hr p hp hk ih =>
    have := ih h
    have := Piece.length_rest_lt hp
    have hr' : r.ended = false := by simpa using hr
    simp only [fuel, pass, hr', Bool.false_eq_true, ↓reduceIte] at *
    omega
  | case3 r hr p hp hk =>
    have := Piece.length_rest_lt hp
    simp only [Prod.mk.injEq, Option.some.injEq] at h
    obtain ⟨_, rfl⟩ := h
    have hr' : r.ended = false := by simpa using hr
    simp only [fuel, pass, hr', Bool.false_eq_true, ↓reduceIte]
    omega
  | case4 r hr hp hc =>
    simp only [Prod.mk.injEq, Option.some.injEq] at h
    obtain ⟨_, rfl⟩ := h
    simp [fuel, hr]
  | case5 r hr hp hc => simp at h

/-- All the tokens that are left, and the reader behind them. -/
def drain (r : Reader) : List Token × Reader :=
  match _h : r.next with
  | (none, r') => ([], r')
  | (some t, r') =>
    let d := r'.drain
    (t :: d.1, d.2)
termination_by r.fuel
decreasing_by exact fuel_next_lt ‹_›

/-- Where the text is cut, for a reader that has no more tokens. -/
def cut? (r : Reader) : Option Cut := r.text.head?.map (⟨r.offset, ·⟩)

end Reader

/-- What a text gives to read: its tokens, and where it is cut if it is. -/
structure Stream where
  tokens : List Token
  cut : Option Cut
deriving DecidableEq, Repr

/-- The stream of a text. -/
def Stream.ofText (s : String) : Stream :=
  let d := (Reader.start s).drain
  ⟨d.1, d.2.cut?⟩

/-- The tokens of a text. -/
def tokenize (s : String) : List Token := (Stream.ofText s).tokens

end Reckoner
