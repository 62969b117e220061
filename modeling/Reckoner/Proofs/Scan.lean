import Reckoner.Proofs.Program

/-!
# The verdict of a scan

Whether a text can be read, and if not why, shows in one pass over its tokens that keeps a mode and
a count of open parentheses. Reading calls itself once for each open parenthesis, so the count
stands for all the calls that are waiting for theirs to close. `parse_map_eq_verdict` says that
reading and the scan agree on every text, with every builder.
-/

namespace Reckoner

/-- What a scan has seen last, and so what may come next. -/
inductive Scan.Mode where
  | statementStart
  | operand
  | afterMinus
  | operator
deriving DecidableEq, Repr

/-- The state of a scan: its mode, and how many parentheses are open. -/
structure Scan where
  mode : Scan.Mode
  depth : Nat
deriving DecidableEq, Repr

namespace Scan
open Grammar Outcome

/-- The state before the first token, and after each statement. -/
def start : Scan := ⟨.statementStart, 0⟩

/-- The step over a token where an operand has to start. -/
def operandStep (depth : Nat) (t : Token) : Except ParseError Scan :=
  match t.kind with
  | .number => .ok ⟨.operator, depth⟩
  | .opening => .ok ⟨.operand, depth + 1⟩
  | .additive =>
    if t.lexeme = "-" then .ok ⟨.afterMinus, depth⟩
    else .error (.unexpectedToken .additive .number t.span)
  | k => .error (.unexpectedLiteral k t.span)

/-- The step over a token behind an operand. -/
def operatorStep (depth : Nat) (t : Token) : Except ParseError Scan :=
  match t.kind, depth with
  | .additive, n | .multiplicative, n => .ok ⟨.operand, n⟩
  | .closing, n + 1 => .ok ⟨.operator, n⟩
  | .semicolon, 0 => .ok ⟨.statementStart, 0⟩
  | k, n => .error (.unexpectedToken k (if 0 < n then .closing else .semicolon) t.span)

/-- The step over a token. -/
def step (s : Scan) (t : Token) : Except ParseError Scan :=
  match s.mode with
  | .statementStart => if t.kind = .semicolon then .ok s else operandStep s.depth t
  | .operand => operandStep s.depth t
  | .afterMinus =>
    if t.kind = .number then .ok ⟨.operator, s.depth⟩
    else .error (.unexpectedLiteral t.kind t.span)
  | .operator => operatorStep s.depth t

/-- The verdict on a list of tokens: there has to be a token, and the last has to end a statement. -/
def verdict (ts : List Token) : Except ParseError Unit :=
  (ts.foldlM step start).bind fun s =>
    if s.mode = .statementStart ∧ ts ≠ [] then .ok ()
    else .error (.unexpectedEnd ((ts.getLast?.map (·.span.stop)).getD 0))

/-- The verdict on the tokens that are left in the state `s`, when the last one ended at `last`. -/
def verdictFrom (s : Scan) (last : Nat) (ts : List Token) : Except ParseError Unit :=
  (ts.foldlM step s).bind fun s' =>
    if s'.mode = .statementStart then .ok ()
    else .error (.unexpectedEnd ((ts.getLast?.map (·.span.stop)).getD last))

variable {b : Builder} {q : Option Rank} {c d : Cursor} {t : Token} {ts rest : List Token}
  {e : Expr} {f : Failure} {s : Scan} {last n : Nat}

theorem verdictFrom_cons :
    verdictFrom s last (t :: ts) = (s.step t).bind fun s' => verdictFrom s' t.span.stop ts := by
  have hlast : ((t :: ts).getLast?.map (·.span.stop)).getD last =
      (ts.getLast?.map (·.span.stop)).getD t.span.stop := by
    cases ts with
    | nil => rfl
    | cons u us => rw [List.getLast?_cons_cons, List.getLast?_cons]; rfl
  simp only [verdictFrom, List.foldlM_cons, bind, hlast]
  cases s.step t <;> rfl

theorem verdict_eq (h : ts ≠ []) : verdict ts = verdictFrom start 0 ts := by
  simp [verdict, verdictFrom, h]

theorem verdictFrom_ok {s' : Scan} (h : s.step t = .ok s') :
    verdictFrom s last (t :: ts) = verdictFrom s' t.span.stop ts := by
  rw [verdictFrom_cons, h]; rfl

theorem verdictFrom_error {e : ParseError} (h : s.step t = .error e) :
    verdictFrom s last (t :: ts) = .error e := by
  rw [verdictFrom_cons, h]; rfl

theorem step_statementStart (hk : t.kind ≠ .semicolon) :
    step ⟨.statementStart, n⟩ t = step ⟨.operand, n⟩ t := by
  simp [step, hk]

theorem step_operator (q : Rank) (hk : t.kind = q.kind) :
    step ⟨.operator, n⟩ t = .ok ⟨.operand, n⟩ := by
  cases q <;> simp [step, operatorStep, hk, Rank.kind]

/-! ### What is read is passed over -/

/-- The scan passes over the tokens of a phrase at any depth, and then looks for an operator. -/
theorem verdictFrom_reads (h : Reads b q ts e) : verdictFrom ⟨.operand, n⟩ last (ts ++ rest) =
    verdictFrom ⟨.operator, n⟩ (Span.hull ts).stop rest := by
  induction h generalizing n last rest with
  | number h => exact verdictFrom_ok (by simp [step, operandStep, h])
  | @minus m t hm hs h =>
    have hminus : step ⟨.operand, n⟩ m = .ok ⟨.afterMinus, n⟩ := by
      simp [step, operandStep, hm, hs]
    have hnumber : step ⟨.afterMinus, n⟩ t = .ok ⟨.operator, n⟩ := by simp [step, h]
    exact (verdictFrom_ok hminus).trans (verdictFrom_ok hnumber)
  | @parens o cl ts e ho h hc ih =>
    have hopen : step ⟨.operand, n⟩ o = .ok ⟨.operand, n + 1⟩ := by simp [step, operandStep, ho]
    have hclose : step ⟨.operator, n + 1⟩ cl = .ok ⟨.operator, n⟩ := by
      simp [step, operatorStep, hc]
    rw [List.cons_append, List.append_assoc, verdictFrom_ok hopen, ih, List.singleton_append,
      verdictFrom_ok hclose, ← List.cons_append, Span.stop_hull_concat]
  | single _ _ ih => exact ih
  | @chain q o ls rs l r hl ho hr ihl ihr =>
    rw [List.append_assoc, ihl, List.cons_append, verdictFrom_ok (step_operator q ho), ihr,
      Span.hull_append_cons hl.ne_nil hr.ne_nil]

theorem verdictFrom_phrase (h : phrase b q c = .ok (e, d)) :
    verdictFrom ⟨.operand, n⟩ c.lastEnd c.tokens =
      verdictFrom ⟨.operator, n⟩ d.lastEnd d.tokens := by
  obtain ⟨ts, rest, hc, hr, -, rfl⟩ := phrase_eq_ok_iff.1 h
  rw [hc, verdictFrom_reads hr, Cursor.tokens_behind, Cursor.lastEnd_behind, Cursor.tokens_past hc,
    Cursor.lastEnd_past hr.ne_nil]

theorem verdictFrom_statementStart (hk : t.kind ≠ .semicolon) :
    verdictFrom start last (t :: ts) = verdictFrom ⟨.operand, 0⟩ last (t :: ts) := by
  rw [verdictFrom_cons, verdictFrom_cons, start, step_statementStart hk]

theorem verdictFrom_readsStatement {s : Statement} (h : ReadsStatement b ts s) :
    verdictFrom start last (ts ++ rest) = verdictFrom start (Span.hull ts).stop rest := by
  cases h with
  | empty hk => exact verdictFrom_ok (by simp [step, start, hk])
  | @expression t ts e h ht =>
    have hend : step ⟨.operator, 0⟩ t = .ok start := by simp [step, operatorStep, ht, start]
    obtain ⟨t₀, us, hts⟩ := List.exists_cons_of_ne_nil h.ne_nil
    have hk : t₀.kind ≠ .semicolon := h.kind_ne_semicolon t₀ (by simp [hts])
    have hstart : verdictFrom start last (ts ++ t :: rest) =
        verdictFrom ⟨.operand, 0⟩ last (ts ++ t :: rest) := by
      rw [hts, List.cons_append, verdictFrom_statementStart hk]
    rw [List.append_assoc, List.singleton_append, hstart, verdictFrom_reads h, verdictFrom_ok hend,
      Span.stop_hull_concat]

theorem verdictFrom_flatten {tss : List (List Token)} {ss : List Statement}
    (h : List.Forall₂ (ReadsStatement b) tss ss) : verdictFrom start last tss.flatten = .ok () := by
  induction h generalizing last with
  | nil => rfl
  | cons hs _ ih => rw [List.flatten_cons, verdictFrom_readsStatement hs, ih]

/-! ### Where reading fails the scan stops -/

/-- Where reading a phrase fails, the scan for an operand stops with the same error, at any depth. -/
def StopsPhrase (b : Builder) (q : Option Rank) (c : Cursor) : Prop :=
  ∀ f n, phrase b q c = .error f → verdictFrom ⟨.operand, n⟩ c.lastEnd c.tokens = .error f.error

/-- Where reading a tail fails, the scan for an operator stops with the same error, at any depth. -/
def StopsTail (b : Builder) (q : Rank) (c : Cursor) : Prop :=
  ∀ start left f n, tail b start left q c = .error f →
    verdictFrom ⟨.operator, n⟩ c.lastEnd c.tokens = .error f.error

theorem stopsPhrase_some {q : Rank} (operand : StopsPhrase b q.tighter c)
    (tails : ∀ d, d.tokens.length < c.tokens.length → StopsTail b q d) :
    StopsPhrase b (some q) c := by
  intro f n h
  cases hc : c.tokens with
  | nil => rw [phrase_nil _ hc] at h; cases h; rfl
  | cons t rest =>
    rw [ranked_cons q hc, bind_eq_error] at h
    rw [← hc]
    rcases h with h | ⟨l, d, hl, h⟩
    · exact operand f n h
    · rw [verdictFrom_phrase hl]
      exact tails d (length_tokens_of_phrase hl) _ _ f n h

theorem stopsTail {q : Rank} (further : ∀ d, d.tokens.length < c.tokens.length →
    StopsPhrase b q.tighter d ∧ StopsTail b q d) : StopsTail b q c := by
  intro start left f n h
  cases hc : c.tokens with
  | nil => rw [tail_nil q hc] at h; cases h; rfl
  | cons o rest =>
    by_cases ho : o.kind = q.kind
    · have hd : (c.past [o]).tokens = rest := Cursor.tokens_past_singleton hc
      have shorter : (c.past [o]).tokens.length < c.tokens.length := by
        rw [hd, hc]; exact Nat.lt_succ_self _
      have hlast : (c.past [o]).lastEnd = o.span.stop := Cursor.lastEnd_past (by simp)
      rw [tail_more q hc ho, bind_eq_error] at h
      rw [verdictFrom_ok (step_operator q ho), ← hlast, ← hd]
      rcases h with h | ⟨r, d, hr, h⟩
      · exact (further _ shorter).1 f n h
      · rw [verdictFrom_phrase hr]
        exact (further _ (Nat.lt_trans (length_tokens_of_phrase hr) shorter)).2 _ _ f n h
    · rw [tail_stop q hc ho] at h; cases h

/-- The kind of the token that has to stand behind an expression `n` parentheses deep. -/
def closingKind (n : Nat) : Kind := if 0 < n then .closing else .semicolon

theorem step_operator_error (hm : t.kind ≠ .multiplicative) (ha : t.kind ≠ .additive)
    (hc : t.kind ≠ closingKind n) : step ⟨.operator, n⟩ t =
      .error (.unexpectedToken t.kind (closingKind n) t.span) := by
  cases n with
  | zero => cases hk : t.kind <;> simp_all [step, operatorStep, closingKind]
  | succ n => cases hk : t.kind <;> simp_all [step, operatorStep, closingKind]

theorem verdictFrom_take (hs : Stops (some .sum) d.tokens)
    (h : of (d.take (closingKind n)) = .error f) :
    verdictFrom ⟨.operator, n⟩ d.lastEnd d.tokens = .error f.error := by
  obtain ⟨t, rest, hd, hm, ha⟩ := hs
  rw [Cursor.take_cons _ hd] at h
  split at h
  · cases h
  · next hk =>
    cases h
    rw [hd, verdictFrom_error (step_operator_error hm ha hk)]

theorem stops_of_phrase (h : phrase b q c = .ok (e, d)) : Stops q d.tokens := by
  obtain ⟨ts, rest, hc, -, hs, rfl⟩ := phrase_eq_ok_iff.1 h
  rwa [Cursor.tokens_behind, Cursor.tokens_past hc]

theorem stopsPhrase_parens (hc : c.tokens = t :: rest) (ho : t.kind = .opening)
    (sum : StopsPhrase b (some .sum) (c.past [t])) : StopsPhrase b none c := by
  intro f n h
  have hd : (c.past [t]).tokens = rest := Cursor.tokens_past_singleton hc
  have hlast : (c.past [t]).lastEnd = t.span.stop := Cursor.lastEnd_past (by simp)
  have hopen : step ⟨.operand, n⟩ t = .ok ⟨.operand, n + 1⟩ := by simp [step, operandStep, ho]
  rw [operand_opening hc ho, bind_eq_error] at h
  rw [hc, verdictFrom_ok hopen, ← hlast, ← hd]
  rcases h with h | ⟨e, d, he, h⟩
  · exact sum f (n + 1) h
  rw [verdictFrom_phrase he]
  rcases bind_eq_error.1 h with h | ⟨_, _, _, h⟩
  · exact verdictFrom_take (n := n + 1) (stops_of_phrase he) h
  · cases h

theorem stopsPhrase_minus (hc : c.tokens = t :: rest) (ha : t.kind = .additive) :
    StopsPhrase b none c := by
  intro f n h
  have hd : (c.past [t]).tokens = rest := Cursor.tokens_past_singleton hc
  rw [hc]
  rw [operand_additive hc ha] at h
  split at h
  · next hs =>
    have hminus : step ⟨.operand, n⟩ t = .ok ⟨.afterMinus, n⟩ := by
      simp [step, operandStep, ha, hs]
    rw [verdictFrom_ok hminus]
    rcases bind_eq_error.1 h with h | ⟨_, _, _, h⟩
    · cases hrest : rest with
      | nil => rw [literal_nil (hd.trans hrest)] at h; cases h; rfl
      | cons u us =>
        rw [literal_cons (hd.trans hrest)] at h
        split at h
        · cases h
        · next hu => cases h; exact verdictFrom_error (by simp [step, hu])
    · cases h
  · next hs => cases h; exact verdictFrom_error (by simp [step, operandStep, ha, hs])

theorem stopsPhrase_none
    (sum : ∀ t rest, c.tokens = t :: rest → StopsPhrase b (some .sum) (c.past [t])) :
    StopsPhrase b none c := by
  cases hc : c.tokens with
  | nil => intro f n h; rw [operand_nil hc] at h; cases h; rw [hc]; rfl
  | cons t rest =>
    by_cases ho : t.kind = .opening
    · exact stopsPhrase_parens hc ho (sum t rest hc)
    by_cases ha : t.kind = .additive
    · exact stopsPhrase_minus hc ha
    intro f n h
    rw [operand_other hc ho ha] at h
    split at h
    · cases h
    · next hn =>
      cases h
      rw [hc]
      refine verdictFrom_error ?_
      cases hk : t.kind <;> simp_all [step, operandStep]

theorem stopsPhrase (q : Option Rank) (c : Cursor) : StopsPhrase b q c :=
  (phrase_induct (fun _ _ => stopsPhrase_some) (fun _ => stopsPhrase_none)
    fun _ _ => stopsTail).1 q c

theorem verdictFrom_statement (hc : c.tokens = t :: rest) (h : of (statement b c) = .error f) :
    verdictFrom start c.lastEnd c.tokens = .error f.error := by
  by_cases hk : t.kind = .semicolon
  · rw [statement_semicolon hc hk] at h; cases h
  rw [statement_other hc hk] at h
  rw [hc, verdictFrom_statementStart hk, ← hc]
  rcases bind_eq_error.1 h with h | ⟨e, d, he, h⟩
  · exact stopsPhrase _ _ f 0 h
  rw [verdictFrom_phrase he]
  rcases bind_eq_error.1 h with h | ⟨_, _, _, h⟩
  · exact verdictFrom_take (n := 0) (stops_of_phrase he) h
  · cases h

theorem verdictFrom_bodyTail (h : of (bodyTail b c) = .error f) :
    verdictFrom start c.lastEnd c.tokens = .error f.error := by
  generalize hn : c.tokens.length = n
  induction n using Nat.strongRecOn generalizing c with
  | ind n ih =>
    subst hn
    by_cases hc : c.tokens = []
    · rw [bodyTail_nil hc] at h; cases h
    obtain ⟨t, rest, hc⟩ := List.exists_cons_of_ne_nil hc
    rw [bodyTail_cons hc] at h
    rcases bind_eq_error.1 h with h | ⟨s, d, hs, h⟩
    · exact verdictFrom_statement hc h
    have shorter : d.tokens.length < c.tokens.length :=
      bound_of_ok (P := fun d => d.tokens.length < c.tokens.length) hs
    obtain ⟨ts, us, htok, hr, hd⟩ := statement_eq_ok_iff.1 hs
    have hus : d.tokens = us := by rw [hd]; exact Cursor.tokens_past htok
    have hlast : d.lastEnd = (Span.hull ts).stop := by
      rw [hd]; exact Cursor.lastEnd_past hr.ne_nil
    rw [htok, verdictFrom_readsStatement hr, ← hus, ← hlast]
    rcases bind_eq_error.1 h with h | ⟨_, _, _, h⟩
    · exact ih _ shorter h rfl
    · cases h

/-- Reading a text comes to the verdict of the scan: it succeeds where the scan accepts, and fails
with the error of the scan where it does not. -/
theorem parse_map_eq_verdict (b : Builder) (text : String) :
    (Program.parse b text).map (fun _ => ()) = verdict (tokenize text) := by
  cases h : Program.parse b text with
  | ok p =>
    obtain ⟨tss, ss, hflat, hne, hall, -⟩ := Program.parse_eq_ok_iff.1 h
    have htok : tokenize text ≠ [] := by
      rw [hflat]
      cases hall with
      | nil => exact absurd rfl hne
      | cons hs _ => simp [hs.ne_nil]
    rw [verdict_eq htok, hflat, verdictFrom_flatten hall]
    rfl
  | error e =>
    obtain ⟨f, hf, rfl⟩ := Program.parse_eq_error_iff.1 h
    by_cases htok : tokenize text = []
    · rw [body_nil htok] at hf
      cases hf
      rw [htok]
      rfl
    · obtain ⟨t, rest, htok'⟩ := List.exists_cons_of_ne_nil htok
      rw [body_cons htok'] at hf
      rw [verdict_eq htok]
      exact (verdictFrom_bodyTail hf).symm

end Scan
end Reckoner
