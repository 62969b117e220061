import Mathlib.Data.List.SplitBy
import Reckoner.Proofs.Cut
import Reckoner.Proofs.Failure
import Reckoner.Run
import Reckoner.Trace.Filter

/-!
# The order of the log

The log of a run tells of each token when it comes into view and of each statement when its
semicolon has been left behind, so that the tokens of a statement and its end come before anything
of the next one. `Chronicle` says what comes of a text and what its whole log is, and
`chronicle_run` that a run gives just that. It knows the events by the tokens and statements alone:
which event a token makes as it comes into view is for `Event.ofToken_eq` to show. The tokens that a
cursor leaves behind enter the trace one by one (`Cursor.trace_past`), and from there it goes over
statements to the body, once for a body that is read and once for one that fails.
-/

namespace Reckoner

/-! ### What a log should be -/

/-- The tokens, cut behind each semicolon. -/
def Token.runs (ts : List Token) : List (List Token) := ts.splitBy fun t _ => t.kind != .semicolon

/-- The event of a token: the semicolon that is supplied, which has no characters, is told of as
such, and every other token as itself. -/
def Token.sighting : Token → Event
  | ⟨.semicolon, "", ⟨n, _⟩⟩ => .terminator n
  | t => .token t

/-- The event of a statement that has been read. -/
def Event.parsed : Statement → Event
  | .empty s => .emptyStatement s
  | .expression _ s => .expressionStatement s

/-- What is noted while the statements are read from the runs of tokens, one from each: the tokens,
and behind them the statement. What is left of the runs gives no statement. -/
def readingLog : List (List Token) → List Statement → List Event
  | ts :: tss, s :: ss => ts.map Token.sighting ++ .parsed s :: readingLog tss ss
  | tss, _ => tss.flatten.map Token.sighting

/-- The statements are evaluated in their order up to the first that fails. Each result is noted, and
`r` is what comes of them all. -/
inductive Evaluates :
    List Statement → Except RuntimeError (List (Option Float)) → List Event → Prop
  | nil : Evaluates [] (.ok []) []
  | cons {s : Statement} {ss : List Statement} {v : Option Float}
    {r : Except RuntimeError (List (Option Float))} {es : List Event} (h : s.eval = .ok v)
    (hss : Evaluates ss r es) : Evaluates (s :: ss) (r.map (v :: ·)) (.evaluated s.span v :: es)
  | fails {s : Statement} {ss : List Statement} {e : RuntimeError} (h : s.eval = .error e) :
    Evaluates (s :: ss) (.error e) []

/-- What should come of the run of a text, and the log that it should give. -/
inductive Chronicle (text : String) : Except Error (List (Option Float)) → List Event → Prop
  /-- The text is read, and evaluated. All its tokens are seen, and then its end, with a note if it
  is cut. -/
  | read {p : Program} {cut : Option Cut} {r : Except RuntimeError (List (Option Float))}
    {es : List Event} (h : Program.parse .located text = .ok p)
    (hss : List.Forall₂ (Grammar.ReadsStatement .located) (Token.runs (tokenize text)) p.body)
    (hcut : ∀ c, cut = some c ↔ CutAt text c) (hes : Evaluates p.body r es) :
    Chronicle text (r.mapError .runtime) (readingLog (Token.runs (tokenize text)) p.body ++
      cut.toList.map .cut ++ [.program p.body.length p.span, .evaluation p.body.length] ++ es)
  /-- Reading fails at a token. Nothing behind it is seen. -/
  | refused {e : ParseError} {before after : List Token} {t : Token} {ss : List Statement}
    (h : Program.parse .located text = .error e) (ht : tokenize text = before ++ t :: after)
    (he : e.Names t)
    (hss : List.Forall₂ (Grammar.ReadsStatement .located)
      (Token.runs (before ++ [t])).dropLast ss) :
    Chronicle text (.error (.parse e)) (readingLog (Token.runs (before ++ [t])) ss)
  /-- Reading fails where the tokens end, which they only do too soon if the text is cut. -/
  | ended {n : Nat} {c : Cut} {ss : List Statement}
    (h : Program.parse .located text = .error (.unexpectedEnd n)) (hc : CutAt text c)
    (hss : List.Forall₂ (Grammar.ReadsStatement .located)
      (Token.runs (tokenize text)).dropLast ss) :
    Chronicle text (.error (.parse (.unexpectedEnd n)))
      (readingLog (Token.runs (tokenize text)) ss ++ [.cut c])

/-! ### The events of tokens -/

section
variable {text : String} {t : Token}

theorem Token.sighting_of_ne (h : t.lexeme ≠ "") : t.sighting = .token t := by
  unfold sighting
  split
  · exact absurd rfl h
  · rfl

/-- The tokens of a text are told of as they should be: of those, just the supplied semicolon is
taken for one, and it alone has no characters. -/
theorem Event.ofToken_eq (h : t ∈ tokenize text) : ofToken t = t.sighting := by
  have hstands := standsIn_of_mem_tokenize h
  by_cases ht : t.isSynthetic
  · obtain rfl := hstands.isSynthetic_iff.1 ht
    rw [ofToken, if_pos ht]
    rfl
  · have hne : t.lexeme ≠ "" := fun he =>
      ht (hstands.isSynthetic_iff.2 (hstands.lexeme_eq_empty_iff.1 he))
    rw [Token.sighting_of_ne hne, ofToken, if_neg ht]

end

/-! ### Runs of tokens -/

namespace Token
variable {t : Token} {ts us : List Token}

theorem runs_concat (h : ∀ u ∈ ts, u.kind ≠ .semicolon) : runs (ts ++ [t]) = [ts ++ [t]] := by
  refine List.splitBy_of_isChain (List.concat_ne_nil t ts) ?_
  induction ts with
  | nil => exact .singleton t
  | cons u ts ih =>
    obtain ⟨hu, hts⟩ := List.forall_mem_cons.1 h
    exact List.isChain_cons.2 ⟨fun _ _ => by simpa using hu, ih hts⟩

theorem runs_append (h : ∀ t ∈ ts.getLast?, t.kind = .semicolon) :
    runs (ts ++ us) = runs ts ++ runs us :=
  List.splitBy_append fun t ht _ _ => by simp [h t ht]

end Token

namespace Grammar
variable {b : Builder} {ts us : List Token} {tss : List (List Token)} {s : Statement}
  {ss : List Statement}

theorem ReadsStatement.runs_append (h : ReadsStatement b ts s) :
    Token.runs (ts ++ us) = ts :: Token.runs us := by
  have hts : (∀ t ∈ ts.getLast?, t.kind = .semicolon) ∧ Token.runs ts = [ts] := by
    cases h with
    | empty ht => exact ⟨by simpa using ht, rfl⟩
    | expression h ht => exact ⟨by simpa using ht, Token.runs_concat h.kind_ne_semicolon⟩
  rw [Token.runs_append hts.1, hts.2]
  rfl

theorem runs_flatten_append (h : List.Forall₂ (ReadsStatement b) tss ss) (us : List Token) :
    Token.runs (tss.flatten ++ us) = tss ++ Token.runs us := by
  induction h with
  | nil => rfl
  | cons h _ ih => rw [List.flatten_cons, List.append_assoc, h.runs_append, ih, List.cons_append]

theorem runs_flatten (h : List.Forall₂ (ReadsStatement b) tss ss) :
    Token.runs tss.flatten = tss := by
  have := runs_flatten_append h []
  rwa [List.append_nil, show Token.runs [] = [] from rfl, List.append_nil] at this

theorem readingLog_append (h : List.Forall₂ (ReadsStatement b) tss ss) (uss : List (List Token)) :
    readingLog (tss ++ uss) ss = readingLog tss ss ++ uss.flatten.map Token.sighting := by
  induction h with
  | nil => cases uss <;> rfl
  | cons _ _ ih => simp [readingLog, ih]

theorem ReadsStatement.ofStatement_eq (h : ReadsStatement .located ts s) :
    Event.ofStatement ts = .parsed s := by
  cases h with
  | empty => rfl
  | expression h => simp [Event.ofStatement, h.ne_nil, Event.parsed, Builder.located]

end Grammar

/-! ### The trace of a cursor -/

namespace Cursor
variable {text : String} {c : Cursor} {t : Token} {ts us rest : List Token}
  {tss : List (List Token)} {ss : List Statement}

theorem trace_look_cons (hv : c.inView = false) (h : c.tokens = t :: rest)
    (ht : t ∈ tokenize text) : c.look.trace.toList = c.trace.toList ++ [t.sighting] := by
  simp [look, sight, hv, h, Event.ofToken_eq ht]

theorem trace_look_nil (hv : c.inView = false) (h : c.tokens = []) :
    c.look.trace.toList = c.trace.toList ++ c.cut.toList.map .cut := by
  cases hc : c.cut <;> simp [look, sight, hv, h, hc]

@[simp] theorem cut_past (c : Cursor) (ts : List Token) : (c.past ts).cut = c.cut := by
  induction ts generalizing c with
  | nil => rfl
  | cons t ts ih => exact ih _

@[simp] theorem cut_pastAll (c : Cursor) (tss : List (List Token)) :
    (c.pastAll tss).cut = c.cut := by
  induction tss generalizing c with
  | nil => rfl
  | cons ts tss ih => exact (ih _).trans (cut_past c ts)

theorem inView_past (hv : c.inView = false) (ts : List Token) : (c.past ts).inView = false := by
  induction ts generalizing c with
  | nil => exact hv
  | cons t ts ih => exact ih rfl

/-- The tokens that are left behind enter the trace, each when it comes into view. -/
theorem trace_past (hv : c.inView = false) (h : c.tokens = ts ++ rest) (hin : ts ⊆ tokenize text) :
    (c.past ts).trace.toList = c.trace.toList ++ ts.map Token.sighting := by
  induction ts generalizing c with
  | nil => simp [past]
  | cons t ts ih =>
    obtain ⟨ht, hts⟩ := List.cons_subset.1 hin
    have hd : (c.look.advance t c.tokens.tail).tokens = ts ++ rest := by simp [advance, h]
    have hlook : (c.look.advance t c.tokens.tail).trace.toList =
        c.trace.toList ++ [t.sighting] := trace_look_cons hv h ht
    rw [past, ih rfl hd hts, hlook, List.append_assoc]
    rfl

open Grammar in
theorem trace_pastAll (hall : List.Forall₂ (ReadsStatement .located) tss ss)
    (hv : c.inView = false) (h : c.tokens = tss.flatten ++ us)
    (hin : tss.flatten ⊆ tokenize text) :
    (c.pastAll tss).trace.toList = c.trace.toList ++ readingLog tss ss ∧
      (c.pastAll tss).inView = false := by
  induction hall generalizing c with
  | nil => exact ⟨by simp [pastAll, readingLog], hv⟩
  | @cons ts s tss ss hs _ ih =>
    obtain ⟨hts, htss⟩ := List.append_subset.1 hin
    have htok : c.tokens = ts ++ (tss.flatten ++ us) := by simp [h]
    have htrace : ((c.past ts).note (.ofStatement ts)).trace.toList =
        c.trace.toList ++ (ts.map Token.sighting ++ [.parsed s]) := by
      rw [note, Array.toList_push, trace_past hv htok hts, hs.ofStatement_eq, List.append_assoc]
    obtain ⟨htr, hiv⟩ := ih (c := (c.past ts).note (.ofStatement ts)) (inView_past hv ts)
      (tokens_past htok) htss
    refine ⟨?_, hiv⟩
    rw [pastAll, htr, htrace]
    simp [readingLog]

end Cursor

/-- A failure at a token leaves the tokens up to that one in the trace, and a failure where they end
all of them and the end. -/
theorem Failure.From.trace_eq {text : String} {c : Cursor} {f : Failure} (hv : c.inView = false)
    (hin : c.tokens ⊆ tokenize text) (h : f.From c) :
    (∃ ts t rest, c.tokens = ts ++ t :: rest ∧ (∀ u ∈ ts, u.kind ≠ .semicolon) ∧ f.error.Names t ∧
      f.cursor.trace.toList = c.trace.toList ++ (ts ++ [t]).map Token.sighting) ∨
    (∀ u ∈ c.tokens, u.kind ≠ .semicolon) ∧ f.error = .unexpectedEnd (c.past c.tokens).lastEnd ∧
      f.cursor.trace.toList =
        c.trace.toList ++ c.tokens.map Token.sighting ++ c.cut.toList.map .cut := by
  cases h with
  | @token ts rest t e h hts he =>
    refine .inl ⟨ts, t, rest, h, hts, he, ?_⟩
    rw [h] at hin
    obtain ⟨hseen, hrest⟩ := List.append_subset.1 hin
    rw [Cursor.trace_look_cons (Cursor.inView_past hv ts) (Cursor.tokens_past h)
        (List.cons_subset.1 hrest).1,
      Cursor.trace_past hv h hseen, List.map_append, List.append_assoc]
    rfl
  | @taken ts rest t e h hts he =>
    have hc : c.tokens = (ts ++ [t]) ++ rest := by rw [h, List.append_assoc]; rfl
    rw [hc] at hin
    exact .inl ⟨ts, t, rest, h, hts, he, Cursor.trace_past hv hc (List.append_subset.1 hin).1⟩
  | ended hts =>
    have hc : c.tokens = c.tokens ++ [] := (List.append_nil _).symm
    refine .inr ⟨hts, rfl, ?_⟩
    rw [Cursor.ended, Cursor.trace_look_nil (Cursor.inView_past hv _) (Cursor.tokens_past hc),
      Cursor.trace_past hv hc hin, Cursor.cut_past]

/-! ### The log of a text -/

theorem evaluates_evalTracedAll (ss : List Statement) : Evaluates ss
    (Statement.evalTracedAll ss).result (Statement.evalTracedAll ss).trace := by
  induction ss with
  | nil => exact .nil
  | cons s ss ih =>
    cases hs : s.eval with
    | ok v =>
      rw [Statement.evalTracedAll_cons_of_ok hs]
      exact .cons hs ih
    | error e =>
      rw [Statement.evalTracedAll_cons_of_error hs]
      exact .fails hs

/-- A lone rule is the whole filter, and nothing is said of it. -/
theorem Filter.ofText_single {s : String} {r : Rule} (hs : parts s = [s])
    (hr : Rule.ofText s = .ok r) : ofText s = [r] ∧ notices s = [] := by
  refine ⟨?_, ?_⟩
  · rw [ofText, hs]
    simp [hr, Except.toOption]
  · rw [notices, hs]
    simp [hr]

theorem Filter.ofText_trace : ofText "trace" = [⟨"", 5⟩] := by
  have hparts : parts "trace" = ["trace"] := by
    simp +decide [parts, String.splitOn, String.splitOnAux]
  have hsplit : Text.splitSetting "trace" = ("trace", none) := by decide +kernel
  have hrank : Rule.rank? "trace" = some 5 := by decide +kernel
  have hrule : Rule.ofText "trace" = .ok ⟨"", 5⟩ := by
    rw [Rule.ofText, hsplit]
    simp +decide [hrank]
  exact (ofText_single hparts hrule).1

theorem Filter.shows_trace (e : Event) : (ofText "trace").shows e := by
  have hr : e.level.rank ≤ 5 := by cases h : e.level <;> simp [Level.rank]
  simp [ofText_trace, shows, rule?, Rule.covers, hr]

namespace Grammar
open Outcome
variable {text : String} {p : Program} {e : ParseError}

theorem read_eq (b : Builder) (text : String) :
    Program.read b text = match of (program b (.start (.ofText text))) with
      | .ok (p, d) => ⟨.ok p, d.trace.toList⟩
      | .error f => ⟨.error f.error, f.cursor.trace.toList⟩ := by
  rw [Program.read]
  cases program b (.start (.ofText text)) <;> rfl

theorem trace_read_of_ok (h : Program.parse .located text = .ok p) :
    List.Forall₂ (ReadsStatement .located) (Token.runs (tokenize text)) p.body ∧
      (Program.read .located text).trace = readingLog (Token.runs (tokenize text)) p.body ++
        (Stream.ofText text).cut.toList.map .cut ++ [.program p.body.length p.span] := by
  obtain ⟨ss, d, hbody, rfl⟩ := Program.parse_eq_ok_iff_body.1 h
  obtain ⟨-, tss, htok, hall, rfl⟩ := body_eq_ok_iff.1 hbody
  have htext : tokenize text = tss.flatten := htok
  have htok' : (Cursor.start (.ofText text)).tokens = tss.flatten ++ [] := by simp [htok]
  have hin : tss.flatten ⊆ tokenize text := htext ▸ List.Subset.refl _
  obtain ⟨htrace, hview⟩ := Cursor.trace_pastAll hall rfl htok' hin
  rw [htext, runs_flatten hall]
  refine ⟨hall, ?_⟩
  rw [read_eq, program_eq, hbody, ok_bind]
  simp only [Cursor.note, Array.toList_push]
  rw [Cursor.trace_look_nil hview (Cursor.tokens_pastAll htok'), htrace, Cursor.cut_pastAll]
  rfl

/-- The tokens that are seen where reading fails are complete statements and a last run. -/
theorem runs_seen {tss : List (List Token)} {ss : List Statement} {us : List Token}
    (hall : List.Forall₂ (ReadsStatement .located) tss ss) (hnil : us = [] → tss = [])
    (hus : ∀ u ∈ us.dropLast, u.kind ≠ .semicolon) :
    (Token.runs (tss.flatten ++ us)).dropLast = tss ∧
      readingLog (Token.runs (tss.flatten ++ us)) ss =
        readingLog tss ss ++ us.map Token.sighting := by
  rw [runs_flatten_append hall]
  constructor
  · rcases us.eq_nil_or_concat' with rfl | ⟨us, t, rfl⟩
    · rw [hnil rfl]; rfl
    · rw [List.dropLast_concat] at hus
      rw [Token.runs_concat hus, List.dropLast_concat]
  · rw [readingLog_append hall, Token.runs, List.flatten_splitBy]

theorem cut_isSome_of_unfinished {tss : List (List Token)} {us : List Token}
    (htok : tokenize text = tss.flatten ++ us) (hnil : us = [] → tss = [])
    (hus : ∀ u ∈ us, u.kind ≠ .semicolon) : ∃ c, (Stream.ofText text).cut = some c := by
  rw [← Option.ne_none_iff_exists']
  intro hcut
  have hend : (Reader.start text).drain.2.text = [] := by
    simpa [Stream.ofText, Reader.cut?] using hcut
  rcases Reader.getLast?_drain rfl hend with ⟨-, hc⟩ | ⟨t, ht, hk⟩
  · cases hc
  have ht : (tokenize text).getLast? = some t := ht
  rcases us.eq_nil_or_concat' with rfl | ⟨us, u, rfl⟩
  · rw [htok, hnil rfl] at ht
    cases ht
  · rw [htok, ← List.append_assoc, List.getLast?_concat] at ht
    exact hus u (by simp) (Option.some.inj ht ▸ hk)

theorem chronicle_of_error (h : Program.parse .located text = .error e) :
    Chronicle text (.error (.parse e)) (Program.read .located text).trace := by
  obtain ⟨f, hbody, rfl⟩ := Program.parse_eq_error_iff.1 h
  obtain ⟨tss, ss, us, htok, hnil, hall, hfrom⟩ := body_eq_error hbody
  have htext : tokenize text = tss.flatten ++ us := htok
  have hd : ((Cursor.start (.ofText text)).pastAll tss).tokens = us := Cursor.tokens_pastAll htok
  have hin : tss.flatten ++ us ⊆ tokenize text := htext ▸ List.Subset.refl _
  obtain ⟨hcomplete, hlast⟩ := List.append_subset.1 hin
  rw [← hd] at hlast
  obtain ⟨htrace, hview⟩ := Cursor.trace_pastAll hall rfl htok hcomplete
  rw [show (Cursor.start (.ofText text)).trace.toList = [] from rfl, List.nil_append] at htrace
  have hread : (Program.read .located text).trace = f.cursor.trace.toList := by
    rw [read_eq, program_eq, hbody, error_bind]
  rw [hread]
  rcases hfrom.trace_eq hview hlast with ⟨ts, t, rest, hleft, hsemi, he, hlog⟩ | ⟨hsemi, hn, hlog⟩
  · have hts : tokenize text = (tss.flatten ++ ts) ++ t :: rest := by
      rw [htext, ← hd, hleft, List.append_assoc]
    have hus : ∀ u ∈ (ts ++ [t]).dropLast, u.kind ≠ .semicolon := by rwa [List.dropLast_concat]
    have hseen := runs_seen hall (by simp) hus
    rw [← List.append_assoc] at hseen
    rw [hlog, htrace, ← hseen.2]
    exact .refused h hts he (by rwa [hseen.1])
  · rw [hd] at hsemi hlog
    obtain ⟨c, hc⟩ := cut_isSome_of_unfinished htext hnil hsemi
    have hseen := runs_seen hall hnil fun u hu => hsemi u (List.dropLast_subset us hu)
    rw [← htext] at hseen
    have hcut : ((Cursor.start (.ofText text)).pastAll tss).cut = some c := by
      rw [Cursor.cut_pastAll]; exact hc
    rw [hn] at h ⊢
    rw [hlog, htrace, hcut, ← hseen.2]
    exact .ended h (cut_eq_some_iff.1 hc) (by rwa [hseen.1])

/-- What comes of the run of any text, with its log at the finest level. -/
theorem chronicle_run (text : String) :
    Chronicle text (run text).result ((run text).trace.filter (Filter.ofText "trace").shows) := by
  rw [List.filter_eq_self.2 fun e _ => Filter.shows_trace e]
  cases h : Program.parse .located text with
  | error e =>
    have hresult : (Program.read .located text).result = .error e := h
    simp only [run, hresult]
    exact chronicle_of_error h
  | ok p =>
    have hresult : (Program.read .located text).result = .ok p := h
    obtain ⟨hss, htrace⟩ := trace_read_of_ok h
    have hlog := Chronicle.read h hss (fun _ => cut_eq_some_iff) (evaluates_evalTracedAll p.body)
    simpa [run, hresult, htrace, Program.evalTraced] using hlog

end Grammar

end Reckoner
