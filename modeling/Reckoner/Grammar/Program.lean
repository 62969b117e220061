import Reckoner.Grammar.Expression

/-!
# Reading programs

    program   := statement+
    statement := ";" | expression ";"

A program goes on for as long as there are tokens. The semicolon that ends a statement is the last
token the statement brings into view, so its event comes before any of the next statement.
-/

namespace Reckoner
namespace Grammar

/-- Reads a statement. -/
def statement (b : Builder) (c : Cursor) : Phrase Statement c := do
  let t ← c.ahead
  if t.kind = .semicolon then
    let (t, d) ← c.look.take .semicolon
    return (b.empty t.span, ⟨d.1.note (.emptyStatement t.span), d.2⟩)
  else
    let (e, d) ← expression b c.look
    let (semicolon, d') ← d.1.take .semicolon
    let span := ⟨t.span.start, semicolon.span.stop⟩
    return (b.expression e span, ⟨d'.1.note (.expressionStatement span), Nat.lt_trans d'.2 d.2⟩)

/-- Reads the statements that are left, for as long as there are tokens. -/
def bodyTail (b : Builder) (c : Cursor) : Tail (List Statement) c := do
  if c.tokens.isEmpty then return ([], ⟨c.look, Nat.le_refl _⟩)
  else
    let (s, d) ← statement b c.look
    let (r, d') ← bodyTail b d
    return (s :: r, ⟨d', Nat.le_trans d'.2 (Nat.le_of_lt d.2)⟩)
termination_by c.tokens.length
decreasing_by exact d.2

/-- Reads the body of a program, which has at least one statement. -/
def body (b : Builder) (c : Cursor) : Phrase (List Statement) c := do
  let (s, d) ← statement b c
  let (r, d') ← bodyTail b d
  return (s :: r, ⟨d', Nat.lt_of_le_of_lt d'.2 d.2⟩)

/-- Where a program stands: from the start of its first statement to the end of its last. -/
def bodySpan (ss : List Statement) : Span :=
  let start := (ss.head?.map (·.span.start)).getD 0
  ⟨start, (ss.getLast?.map (·.span.stop)).getD start⟩

/-- Reads a program. -/
def program (b : Builder) (c : Cursor) : Phrase Program c := do
  let (ss, d) ← body b c
  let span := bodySpan ss
  return (b.program ss span, ⟨d.1.note (.program ss.length span), d.2⟩)

end Grammar

/-- The program that a text says, with the trace of reading it. -/
def Program.read (b : Builder) (text : String) : Traced (Except ParseError Program) :=
  match Grammar.program b (.start (.ofText text)) with
  | .ok (p, d) => ⟨.ok p, d.1.trace.toList⟩
  | .error f => ⟨.error f.error, f.cursor.trace.toList⟩

/-- The program that a text says. -/
def Program.parse (b : Builder) (text : String) : Except ParseError Program :=
  (Program.read b text).result

end Reckoner
