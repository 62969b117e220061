import Reckoner.Error
import Reckoner.Trace

/-!
# The cursor

Reading a program goes from token to token and sees one token ahead. A `Cursor` is where it stands:
the tokens that are left, and the trace so far. A token enters the trace when it comes into view,
and that a text is cut is noticed when the end of its tokens comes into view. `take` is the only
step that leaves a token behind.
-/

namespace Reckoner

/-- Where the reading of a program stands. -/
structure Cursor where
  /-- the tokens that are left -/
  tokens : List Token
  /-- whether the first of them, or the end, has come into view -/
  inView : Bool
  /-- where the last token left behind ends -/
  lastEnd : Nat
  /-- where the text is cut, behind all tokens -/
  cut : Option Cut
  trace : Array Event

/-- Why reading failed, and where the cursor stood. -/
structure Failure where
  error : ParseError
  cursor : Cursor

namespace Cursor

/-- The cursor before the first token of a stream. -/
def start (s : Stream) : Cursor := ⟨s.tokens, false, 0, s.cut, #[]⟩

/-- Adds an event to the trace. -/
def note (c : Cursor) (e : Event) : Cursor := { c with trace := c.trace.push e }

/-- What there is to note when the next token, or the end, comes into view. -/
def sight (c : Cursor) : Option Event :=
  match c.tokens with
  | t :: _ => some (.ofToken t)
  | [] => c.cut.map .cut

/-- Brings the next token, or the end, into view. -/
def look (c : Cursor) : Cursor :=
  { c with
    inView := true
    trace := if c.inView then c.trace else c.sight.elim c.trace c.trace.push }

/-- Leaves the token `t` behind; `rest` are the tokens after it. -/
def advance (c : Cursor) (t : Token) (rest : List Token) : Cursor :=
  { c with tokens := rest, inView := false, lastEnd := t.span.stop }

/-- The cursors with fewer tokens left than `c`. -/
abbrev Beyond (c : Cursor) := { d : Cursor // d.tokens.length < c.tokens.length }

/-- The cursors with no more tokens left than `c`. -/
abbrev Onward (c : Cursor) := { d : Cursor // d.tokens.length ≤ c.tokens.length }

/-- The next token, which must be there. -/
def ahead (c : Cursor) : Except Failure Token :=
  match c.tokens with
  | t :: _ => .ok t
  | [] => .error ⟨.unexpectedEnd c.lastEnd, c.look⟩

/-- Leaves the next token behind, which must be of the kind `k`. -/
def take (k : Kind) (c : Cursor) : Except Failure (Token × c.Beyond) :=
  match h : c.tokens with
  | [] => .error ⟨.unexpectedEnd c.lastEnd, c.look⟩
  | t :: rest =>
    if t.kind = k then .ok (t, ⟨c.look.advance t rest, by simp [advance, h]⟩)
    else .error ⟨.unexpectedToken t.kind k t.span, c.look⟩

@[simp] theorem tokens_look (c : Cursor) : c.look.tokens = c.tokens := rfl

@[simp] theorem tokens_note (c : Cursor) (e : Event) : (c.note e).tokens = c.tokens := rfl

@[simp] theorem lastEnd_look (c : Cursor) : c.look.lastEnd = c.lastEnd := rfl

theorem look_look (c : Cursor) : c.look.look = c.look := by simp [look]

end Cursor

end Reckoner
