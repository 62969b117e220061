import Reckoner.Proofs.Coverage
import Reckoner.Proofs.Pattern

/-!
# Lexers made of patterns

A `Lexer` goes through a text with the patterns of its pieces, by either way of choosing among them.
Whether it supplies a semicolon at the end it decides by the last token that it has given. It goes
along with the reader (`Follows`): both stand at the same offset, and what the reader keeps of the
last piece follows from the last token. So both give the same tokens, call by call.
-/

namespace Reckoner
open Pattern

structure Lexer where
  source : List Char
  offset : Nat
  /-- the last token that has been taken from the source -/
  last : Option Token
  finished : Bool

namespace Lexer

def start (s : String) : Lexer := ⟨s.toList, 0, none, false⟩

def rest (l : Lexer) : List Char := l.source.drop l.offset

/-- Whether the last token is a semicolon that ends at the offset `n`. -/
def closedAt (l : Lexer) (n : Nat) : Bool :=
  l.last.any fun t => t.kind == .semicolon && t.span.stop == n

def skip (l : Lexer) (n : Nat) : Lexer := { l with offset := l.offset + n }

def token (l : Lexer) (k : Kind) (n : Nat) : Token :=
  ⟨k, String.ofList (l.rest.take n), ⟨l.offset, l.offset + n⟩⟩

theorem extent_pos_of_choose? {pref : Preference} {cs : List Char} {p : Pattern}
    (h : choose? pref cs = some p) : 0 < p.extent cs := by
  cases pref with
  | order => simpa using List.find?_some h
  | length => simpa using (Option.filter_eq_some_iff.1 h).2

/-- The next token, if there is one, and the lexer behind it. -/
def pull (pref : Preference) (l : Lexer) : Option Token × Lexer :=
  if l.finished then (none, l)
  else if l.rest = [] then
    (if l.closedAt l.source.length then none else some (.terminator l.offset),
      { l with finished := true })
  else
    match _h : choose? pref l.rest with
    | none => (none, { l with finished := true })
    | some p =>
      let n := p.extent l.rest
      if p.kind = .blank then (l.skip n).pull pref
      else (some (l.token p.kind n), { l.skip n with last := some (l.token p.kind n) })
termination_by l.source.length - l.offset
decreasing_by
  have hpos := extent_pos_of_choose? ‹_›
  have hlt : ¬ l.source.length ≤ l.offset := fun hle => ‹¬ l.rest = []› (List.drop_of_length_le hle)
  simp only [skip]
  omega

/-- The lexer after `n` calls of `pull`. -/
def after (pref : Preference) (l : Lexer) : Nat → Lexer
  | 0 => l
  | n + 1 => (l.pull pref).2.after pref n

variable {pref : Preference} {l : Lexer} {r : Reader} {p : Piece}

/-! ### One call -/

theorem pull_finished (hl : l.finished = true) : l.pull pref = (none, l) := by
  rw [pull, if_pos hl]

theorem pull_end (hl : l.finished = false) (h : l.rest = []) :
    l.pull pref = (if l.closedAt l.source.length then none else some (.terminator l.offset),
      { l with finished := true }) := by
  rw [pull, if_neg (by simp [hl]), if_pos h]

theorem pull_stop (hl : l.finished = false) (hne : l.rest ≠ []) (h : Piece.first? l.rest = none) :
    l.pull pref = (none, { l with finished := true }) := by
  rw [pull, if_neg (by simp [hl]), if_neg hne]
  split
  · rfl
  · next h' => rw [choose?_eq_none pref h] at h'; cases h'

theorem pull_piece (hl : l.finished = false) (h : Piece.first? l.rest = some p) :
    l.pull pref = if p.kind = .blank then (l.skip p.lexeme.length).pull pref
      else (some (l.token p.kind p.lexeme.length),
        { l.skip p.lexeme.length with last := some (l.token p.kind p.lexeme.length) }) := by
  have hne : l.rest ≠ [] := by
    intro hnil
    rw [hnil] at h
    cases h
  obtain ⟨q, hq, hk, hn⟩ := choose?_of_first? pref h
  rw [pull, if_neg (by simp [hl]), if_neg hne]
  split
  · next h' => rw [hq] at h'; cases h'
  · next q' h' =>
    cases hq.symm.trans h'
    simp only [hk, hn]

/-! ### Along with the reader -/

/-- The lexer stands where the reader does. -/
structure Follows (l : Lexer) (r : Reader) : Prop where
  text : r.text = l.rest
  offset : r.offset = l.offset
  ended : r.ended = l.finished
  closed : r.closed = l.closedAt l.offset
  within : l.offset ≤ l.source.length
  behind : ∀ t ∈ l.last, t.span.stop ≤ l.offset

theorem follows_start (s : String) : Follows (start s) (Reader.start s) where
  text := rfl
  offset := rfl
  ended := rfl
  closed := rfl
  within := Nat.zero_le _
  behind := fun _ h => nomatch h

theorem Follows.rest_skip (h : Follows l r) (hp : Piece.first? r.text = some p) :
    p.rest = (l.skip p.lexeme.length).rest ∧ l.offset + p.lexeme.length ≤ l.source.length := by
  have happ := Piece.lexeme_append_rest hp
  rw [h.text] at happ
  refine ⟨?_, ?_⟩
  · rw [rest, skip, ← List.drop_drop, ← rest, ← happ, List.drop_left]
  · have hlen := congrArg List.length happ
    rw [rest, List.length_append, List.length_drop] at hlen
    have := h.within
    omega

theorem Follows.token_eq (h : Follows l r) (hp : Piece.first? r.text = some p) :
    l.token p.kind p.lexeme.length = r.token p := by
  have happ := Piece.lexeme_append_rest hp
  rw [h.text] at happ
  rw [Lexer.token, Reader.token, ← happ, List.take_left, h.offset]

theorem Follows.skip (h : Follows l r) (hr : r.ended = false) (hp : Piece.first? r.text = some p)
    (hk : p.kind = .blank) : Follows (l.skip p.lexeme.length) (r.pass p) where
  text := (h.rest_skip hp).1
  offset := congrArg (· + _) h.offset
  ended := hr.symm.trans h.ended
  closed := by
    -- what is skipped is no token, so the last one ends before it
    have hpos := List.length_pos_iff.2 (Piece.lexeme_ne_nil hp)
    have hopen : (l.skip p.lexeme.length).closedAt (l.offset + p.lexeme.length) = false := by
      cases hlast : l.last with
      | none => simp [closedAt, Lexer.skip, hlast]
      | some t =>
        have hstop : t.span.stop ≠ l.offset + p.lexeme.length := by
          have := h.behind t hlast
          omega
        simp [closedAt, Lexer.skip, hlast, hstop]
    show (p.kind == .semicolon) = _
    rw [hk]
    exact hopen.symm
  within := (h.rest_skip hp).2
  behind := fun t ht => Nat.le_trans (h.behind t ht) (Nat.le_add_right _ _)

theorem Follows.give (h : Follows l r) (hr : r.ended = false) (hp : Piece.first? r.text = some p) :
    Follows { l.skip p.lexeme.length with last := some (l.token p.kind p.lexeme.length) }
      (r.pass p) where
  text := (h.rest_skip hp).1
  offset := congrArg (· + _) h.offset
  ended := hr.symm.trans h.ended
  closed := by simp [closedAt, token, Lexer.skip, Reader.pass]
  within := (h.rest_skip hp).2
  behind := by
    intro t ht
    cases ht
    exact Nat.le_refl _

theorem Follows.finish (h : Follows l r) :
    Follows { l with finished := true } { r with ended := true } :=
  ⟨h.text, h.offset, rfl, h.closed, h.within, h.behind⟩

/-- One call of either gives the same token and leaves them at the same offset. -/
theorem Follows.pull (pref : Preference) (h : Follows l r) :
    (l.pull pref).1 = r.next.1 ∧ Follows (l.pull pref).2 r.next.2 := by
  cases hr : r.ended with
  | true =>
    rw [pull_finished (h.ended.symm.trans hr), Reader.next_ended hr]
    exact ⟨rfl, h⟩
  | false =>
    -- along the pieces that the reader skips, up to a token or to where no piece starts
    induction r, hr using Reader.piece_induct generalizing l with
    | stop r hr hp =>
      have hl := h.ended.symm.trans hr
      rw [Reader.next_stop hr hp]
      by_cases hnil : l.rest = []
      · -- at the end the rule that asks for the last token is the one that asks for the last piece
        have hend : l.source.length = l.offset := by
          have hle := List.drop_eq_nil_iff.1 hnil
          have := h.within
          omega
        rw [pull_end hl hnil, hend, ← h.closed]
        by_cases hc : r.closed = true
        · rw [if_pos hc, if_neg fun hn => hn.2 hc]
          exact ⟨rfl, h.finish⟩
        · rw [if_neg hc, if_pos ⟨h.text.trans hnil, hc⟩]
          exact ⟨by rw [h.offset], h.finish⟩
      · rw [pull_stop hl hnil (h.text ▸ hp), if_neg fun hc => hnil (h.text.symm.trans hc.1)]
        exact ⟨rfl, h.finish⟩
    | step r p hr hp ih =>
      have hl := h.ended.symm.trans hr
      rw [pull_piece hl (h.text ▸ hp)]
      by_cases hk : p.kind = .blank
      · rw [if_pos hk, Reader.next_blank hr hp hk]
        exact ih (h.skip hr hp hk)
      · rw [if_neg hk, Reader.next_token hr hp hk, ← h.token_eq hp]
        exact ⟨rfl, h.give hr hp⟩

/-! ### All calls -/

theorem Follows.after (pref : Preference) (h : Follows l r) (n : Nat) :
    Follows (l.after pref n) (r.after n) := by
  induction n generalizing l r with
  | zero => exact h
  | succ n ih => exact ih (h.pull pref).2

/-- By whichever way the patterns are chosen, the lexer gives the tokens of the text, call by call,
and stands where the reader does. -/
theorem pull_after_eq (pref : Preference) (text : String) (n : Nat) :
    (((start text).after pref n).pull pref).1 = (tokenize text)[n]? ∧
      ((start text).after pref n).offset = ((Reader.start text).after n).offset := by
  have h := (follows_start text).after pref n
  refine ⟨?_, h.offset.symm⟩
  rw [(h.pull pref).1, Reader.next_after]
  rfl

end Lexer
end Reckoner
