import Reckoner.Proofs.Alike

/-!
# Contexts

A `Context` is a node with a hole where an expression stands: frames around the hole, and a shell
around the frames. Wherever an expression is in a node, there is a context with the hole in just
that place (`Node.exists_context`).
-/

namespace Reckoner

/-! ### Holes -/

inductive Frame where
  | left (op : BinaryOp) (right : Expr) (span : Span)
  | right (op : BinaryOp) (left : Expr) (span : Span)

def Frame.plug : Frame → Expr → Expr
  | left op r s, e => .binary op e r s
  | right op l s, e => .binary op l e s

/-- The expression in frames, of which the outermost comes first. -/
def Frame.plugAll : List Frame → Expr → Expr
  | [], e => e
  | f :: fs, e => f.plug (plugAll fs e)

/-- The ways in which a node has an expression in it that is in no other expression. -/
inductive Shell where
  | expression
  | ofExpr
  | expressionStatement (span : Span)
  | statement (span : Span)
  | program (before : List Statement) (span : Span) (after : List Statement) (all : Span)

def Shell.close : Shell → Expr → Node
  | expression, e => .expression e
  | ofExpr, e => .ofExpr e
  | expressionStatement s, e => .expressionStatement e s
  | statement s, e => .statement (.expression e s)
  | program before s after t, e => .program ⟨before ++ .expression e s :: after, t⟩

structure Context where
  shell : Shell
  frames : List Frame

def Context.fill (C : Context) (e : Expr) : Node := C.shell.close (Frame.plugAll C.frames e)

/-! ### Every expression in a node fills a hole -/

namespace Node
variable {n m : Node} {e : Expr} {path : List Nat}

def IsOperand : Node → Prop
  | unary _ | literal _ | operand _ => True
  | _ => False

theorem IsOperand.at? (h : n.IsOperand) (hm : n.at? path = some m) : m.IsOperand := by
  induction path generalizing n with
  | nil => cases hm; exact h
  | cons i path ih =>
    obtain ⟨m', hc, hm⟩ := Option.bind_eq_some_iff.1 hm
    refine ih ?_ hm
    have hmem := List.mem_of_getElem? hc
    cases n with
    | literal l => cases hmem
    | unary u => cases List.mem_singleton.1 hmem; trivial
    | operand a =>
      cases List.mem_singleton.1 hmem
      cases a <;> trivial
    | _ => cases h

/-- The ways to an expression lead to the only child, if there is one, or end before it. -/
theorem at?_of_children (hc : n.children = [m]) (h : n.at? path = some (.expression e)) :
    n = .expression e ∧ path = [] ∨
      ∃ rest, path = 0 :: rest ∧ m.at? rest = some (.expression e) := by
  cases path with
  | nil => cases h; exact .inl ⟨rfl, rfl⟩
  | cons i rest =>
    obtain ⟨m', hm', h⟩ := Option.bind_eq_some_iff.1 h
    rw [hc] at hm'
    cases i with
    | zero => cases hm'; exact .inr ⟨rest, rfl, h⟩
    | succ i => cases hm'

/-- An expression in an expression fills a hole in it. -/
theorem exists_frames {e₀ : Expr} (h : (Node.expression e₀).at? path = some (.expression e)) :
    ∃ fs, Frame.plugAll fs e = e₀ ∧
      ∀ e', (Node.expression (Frame.plugAll fs e')).at? path = some (.expression e') := by
  induction e₀ generalizing path with
  | literal l =>
    rcases at?_of_children rfl h with ⟨he, rfl⟩ | ⟨rest, rfl, h⟩
    · cases he; exact ⟨[], rfl, fun _ => rfl⟩
    · exact (IsOperand.at? (n := .literal l) trivial h).elim
  | unary u =>
    rcases at?_of_children rfl h with ⟨he, rfl⟩ | ⟨rest, rfl, h⟩
    · cases he; exact ⟨[], rfl, fun _ => rfl⟩
    · exact (IsOperand.at? (n := .unary u) trivial h).elim
  | binary op l r s ihl ihr =>
    rcases at?_of_children rfl h with ⟨he, rfl⟩ | ⟨rest, rfl, h⟩
    · cases he; exact ⟨[], rfl, fun _ => rfl⟩
    · cases rest with
      | nil => cases h
      | cons i rest =>
        obtain ⟨m, hm, h⟩ := Option.bind_eq_some_iff.1 h
        match i, hm with
        | 0, hm =>
          cases hm
          obtain ⟨fs, hfs, hat⟩ := ihl h
          exact ⟨.left op r s :: fs, by rw [← hfs]; rfl, hat⟩
        | 1, hm =>
          cases hm
          obtain ⟨fs, hfs, hat⟩ := ihr h
          exact ⟨.right op l s :: fs, by rw [← hfs]; rfl, hat⟩

theorem not_at?_of_children (hc : n.children = []) (hn : n ≠ .expression e) :
    n.at? path ≠ some (.expression e) := by
  intro h
  cases path with
  | nil => exact hn (Option.some.inj h)
  | cons i rest =>
    obtain ⟨m, hm, -⟩ := Option.bind_eq_some_iff.1 h
    rw [hc] at hm
    cases hm

theorem exists_frames_statement {s : Statement}
    (h : (Node.statement s).at? path = some (.expression e)) :
    ∃ fs t, .expression (Frame.plugAll fs e) t = s ∧ ∀ e',
      (Node.statement (.expression (Frame.plugAll fs e') t)).at? path = some (.expression e') := by
  rcases at?_of_children rfl h with ⟨he, -⟩ | ⟨rest, rfl, hs⟩
  · cases he
  cases s with
  | empty t => exact absurd hs (not_at?_of_children rfl fun he => nomatch he)
  | expression e₀ t =>
    rcases at?_of_children rfl hs with ⟨he, -⟩ | ⟨rest, rfl, he⟩
    · cases he
    · obtain ⟨fs, hfs, hat⟩ := exists_frames he
      exact ⟨fs, t, by rw [hfs], hat⟩

theorem exists_context (h : n.at? path = some (.expression e)) :
    ∃ C : Context, C.fill e = n ∧ ∀ e', (C.fill e').at? path = some (.expression e') := by
  cases n with
  | emptyStatement s => exact absurd h (not_at?_of_children rfl fun he => nomatch he)
  | literal l => exact (IsOperand.at? (n := .literal l) trivial h).elim
  | unary u => exact (IsOperand.at? (n := .unary u) trivial h).elim
  | operand a => exact (IsOperand.at? (n := .operand a) trivial h).elim
  | expression e₀ =>
    obtain ⟨fs, hfs, hat⟩ := exists_frames h
    exact ⟨⟨.expression, fs⟩, congrArg Node.expression hfs, hat⟩
  | expressionStatement e₀ s =>
    rcases at?_of_children rfl h with ⟨he, -⟩ | ⟨rest, rfl, h⟩
    · cases he
    · obtain ⟨fs, hfs, hat⟩ := exists_frames h
      exact ⟨⟨.expressionStatement s, fs⟩, by rw [← hfs]; rfl, hat⟩
  | binary op l r s =>
    -- the node is that of an expression, seen one step further on
    have h' : (Node.expression (.binary op l r s)).at? (0 :: path) = some (.expression e) := h
    obtain ⟨fs, hfs, hat⟩ := exists_frames h'
    exact ⟨⟨.ofExpr, fs⟩, congrArg Node.ofExpr hfs, hat⟩
  | statement s =>
    obtain ⟨fs, t, hs, hat⟩ := exists_frames_statement h
    exact ⟨⟨.statement t, fs⟩, congrArg Node.statement hs, hat⟩
  | program p =>
    cases path with
    | nil => cases h
    | cons i rest =>
      obtain ⟨m, hm, h⟩ := Option.bind_eq_some_iff.1 h
      obtain ⟨s, hs, rfl⟩ : ∃ s, p.body[i]? = some s ∧ .statement s = m := by
        simpa [children] using hm
      obtain ⟨fs, t, rfl, hat⟩ := exists_frames_statement h
      obtain ⟨hi, hget⟩ := List.getElem?_eq_some_iff.1 hs
      refine ⟨⟨.program (p.body.take i) t (p.body.drop (i + 1)) p.span, fs⟩, ?_, fun e' => ?_⟩
      · rw [Context.fill, Shell.close, ← hget, ← List.drop_eq_getElem_cons hi,
          List.take_append_drop]
      · have hchild : (Context.fill ⟨.program (p.body.take i) t (p.body.drop (i + 1)) p.span, fs⟩
            e').children[i]? = some (.statement (.expression (Frame.plugAll fs e') t)) := by
          have hmin : min i p.body.length = i := Nat.min_eq_left (Nat.le_of_lt hi)
          simp [Context.fill, Shell.close, children, hmin]
        rw [at?, hchild]
        exact hat e'

end Node
end Reckoner
