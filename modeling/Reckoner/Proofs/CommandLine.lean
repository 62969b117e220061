import Reckoner.CommandLine.Outcome
import Reckoner.Proofs.Log
import Reckoner.Proofs.Results

/-!
# Texts in files and on the command line

A text comes to the same whether it stands in a file or on the command line: to what is put out of
it, or to an exit code and a message and nothing beside it (`Consistent`). Nothing is shown of the
trace unless it is asked for, since what is noted is never as grave as a warning.
-/

namespace Reckoner
namespace CommandLine

/-- The command line that asks for the text in a file. -/
def fileArgs (mode : Mode) (name : String) : List String := ["--emit", mode.name, "-f", name]

/-- The command line that holds the text itself, which may look like an option. -/
def inlineArgs (mode : Mode) (text : String) : List String := ["--emit", mode.name, "--", text]

/-- What comes of the bytes `b` in the file with the given name. They are the text of a job or no
text at all, and the job is done as a whole or fails as a whole. -/
structure Consistent (files : String → File) (mode : Mode) (name : String) (b : ByteArray) :
    Prop where
  inline : ∀ t : String, t.toUTF8 = b →
    outcome files none (fileArgs mode name) = outcome files none (inlineArgs mode t)
  success : ∀ t : String, t.toUTF8 = b → ∀ s, (mode.output t).result = .ok s →
    outcome files none (fileArgs mode name) = ⟨0, s ++ "\n", ""⟩
  failure : ∀ t : String, t.toUTF8 = b → ∀ e, (mode.output t).result = .error e →
    outcome files none (fileArgs mode name) = ⟨1, "", e.message ++ "\n"⟩
  /-- The results of the statements before the one that fails are not shown. -/
  midway : ∀ t : String, t.toUTF8 = b → mode = .results → ∀ p before s after e,
    Program.parse .located t = .ok p → p.body = before ++ s :: after →
    (∀ s' ∈ before, ∃ r, s'.eval = .ok r) → s.eval = .error e →
    outcome files none (fileArgs mode name) = ⟨1, "", e.message ++ "\n"⟩
  undecodable : (∀ t : String, t.toUTF8 ≠ b) → outcome files none (fileArgs mode name) =
    ⟨1, "", s!"Failed to read the input file '{name}': stream did not contain valid UTF-8\n"⟩

/-! ### Arguments -/

section
variable {d : Draft} {mode : Mode} {arg name : String} {rest : List String}

theorem ofName?_name (mode : Mode) : Mode.ofName? mode.name = some mode := by
  cases mode <;> decide +kernel

theorem shape_name (mode : Mode) : Shape.of mode.name = .plain := by
  cases mode <;> decide +kernel

theorem shape_of_head? (h : arg.toList.head? ≠ some '-') : Shape.of arg = .plain := by
  unfold Shape.of
  split
  all_goals simp_all

theorem takeAll_plain (h : Shape.of arg = .plain) (hd : d.contents = none) :
    takeAll d (arg :: rest) = takeAll { d with contents := some arg } rest := by
  rw [takeAll, h]
  simp only [Draft.setContents, hd]
  rfl

theorem takeAll_mode (hd : d.mode = none) (mode : Mode) :
    takeAll d ("--emit" :: mode.name :: rest) = takeAll { d with mode := some mode } rest := by
  have hshape : Shape.of "--emit" = .long "--emit" none := by decide +kernel
  have hsetting : Setting.ofName? "--emit" = some .emit := by decide +kernel
  rw [takeAll, hshape]
  simp only [hsetting, shape_name, Draft.set, hd, ofName?_name]
  rfl

theorem takeAll_file (hd : d.fromFile = false) :
    takeAll d ("-f" :: rest) = takeAll { d with fromFile := true } rest := by
  have hshape : Shape.of "-f" = .letters ['f'] := by decide +kernel
  have hletter : Switch.ofLetter? 'f' = some .file := by decide +kernel
  rw [takeAll, hshape]
  simp only [letters, hletter, Switch.apply, Draft.setFile, hd]
  rfl

theorem takeAll_stop (hd : d.contents = none) (text : String) :
    takeAll d ["--", text] = { d with contents := some text }.finish := by
  have hshape : Shape.of "--" = .stop := by decide +kernel
  rw [takeAll, hshape]
  simp only [List.foldlM, Draft.setContents, hd]
  rfl

theorem ofArgs_fileArgs (h : name.toList.head? ≠ some '-') :
    Request.ofArgs (fileArgs mode name) = .ok (.job ⟨.file name, mode, none⟩) := by
  rw [Request.ofArgs, fileArgs, takeAll_mode rfl, takeAll_file rfl,
    takeAll_plain (shape_of_head? h) rfl]
  rfl

theorem ofArgs_inlineArgs (mode : Mode) (text : String) :
    Request.ofArgs (inlineArgs mode text) = .ok (.job ⟨.inline text, mode, none⟩) := by
  rw [Request.ofArgs, inlineArgs, takeAll_mode rfl, takeAll_stop rfl]
  rfl

end

end CommandLine

/-! ### Silence -/

namespace Filter

/-- The filter that holds where none is given. -/
theorem ofText_warn : ofText "warn" = [⟨"", Level.warn.rank⟩] ∧ notices "warn" = [] := by
  have hparts : parts "warn" = ["warn"] := by
    simp +decide [parts, String.splitOn, String.splitOnAux]
  have hsplit : Text.splitSetting "warn" = ("warn", none) := by decide +kernel
  have hrank : Rule.rank? "warn" = some 2 := by decide +kernel
  have hrule : Rule.ofText "warn" = .ok ⟨"", 2⟩ := by
    rw [Rule.ofText, hsplit]
    simp +decide [hrank]
  exact ofText_single hparts hrule

/-- Nothing in a trace is as grave as a warning. -/
theorem lines_warn (t : List Event) : (ofText "warn").lines t = [] := by
  have hhidden : ∀ e ∈ t, ¬ (ofText "warn").shows e := by
    intro e _
    rw [ofText_warn.1]
    cases e <;> simp [shows, rule?, Rule.covers, Event.level, Level.rank]
  rw [lines, List.filter_eq_nil_iff.2 hhidden, List.map_nil]

end Filter

namespace CommandLine
variable {files : String → File} {mode : Mode} {name t : String} {b : ByteArray}

theorem text_bytes (t : String) : (File.bytes t.toUTF8).text = .ok t := by
  have hdecode : String.fromUTF8? t.toUTF8 = some t := by
    simp only [String.fromUTF8?, String.toUTF8_eq_toByteArray, dif_pos t.isValidUTF8]
    rfl
  simp only [File.text, hdecode]

theorem text_undecodable (h : ∀ t : String, t.toUTF8 ≠ b) :
    (File.bytes b).text = .error "stream did not contain valid UTF-8" := by
  have hdecode : String.fromUTF8? b = none := by
    unfold String.fromUTF8?
    split
    · next hvalid => exact absurd rfl (h ⟨b, hvalid⟩)
    · rfl
  simp only [File.text, hdecode]

/-- What comes of a text that has been found, if no filter is given. -/
def ofOutput : Except Error String → Outcome
  | .ok s => ⟨0, s ++ "\n", ""⟩
  | .error e => ⟨1, "", e.message ++ "\n"⟩

theorem outcome_of_text {source : Source} (h : source.text files = .ok t) :
    Job.outcome files none ⟨source, mode, none⟩ = ofOutput (mode.output t).result := by
  simp only [Job.outcome, h, Option.getD_none, Filter.ofText_warn.2, Filter.lines_warn]
  cases (mode.output t).result <;> simp [Outcome.ofResult, ofOutput, unlines, Except.mapError]

theorem outcome_inlineArgs (files : String → File) (mode : Mode) (t : String) :
    outcome files none (inlineArgs mode t) = ofOutput (mode.output t).result := by
  have htext : (Source.inline t).text files = .ok t := rfl
  rw [outcome, ofArgs_inlineArgs]
  exact outcome_of_text htext

theorem outcome_fileArgs (hname : name.toList.head? ≠ some '-')
    (hfile : files name = .bytes t.toUTF8) :
    outcome files none (fileArgs mode name) = ofOutput (mode.output t).result := by
  rw [outcome, ofArgs_fileArgs hname]
  refine outcome_of_text ?_
  rw [Source.text, hfile, text_bytes]
  rfl

theorem output_of_midway {p : Program} {before after : List Statement} {s : Statement}
    {e : RuntimeError} (hp : Program.parse .located t = .ok p)
    (hbody : p.body = before ++ s :: after)
    (hbefore : ∀ s' ∈ before, ∃ r, s'.eval = .ok r) (hs : s.eval = .error e) :
    (Mode.results.output t).result = .error (.runtime e) := by
  have heval : p.eval = .error e := mapM_eq_error_iff.2 ⟨before, s, after, hbody, hbefore, hs⟩
  show (run t).result.map resultLines = _
  rw [run_of_parse_eq_ok hp, heval]
  rfl

/-- A file and the command line come to the same, all of it or nothing. -/
theorem consistent_of_readable (hname : name.toList.head? ≠ some '-')
    (hfile : files name = .bytes b) :
    Consistent files mode name b where
  inline t ht := by
    subst ht
    rw [outcome_fileArgs hname hfile, outcome_inlineArgs]
  success t ht s hs := by
    subst ht
    rw [outcome_fileArgs hname hfile, hs, ofOutput]
  failure t ht e he := by
    subst ht
    rw [outcome_fileArgs hname hfile, he, ofOutput]
  midway t ht hmode p before s after e hp hbody hbefore hs := by
    subst ht hmode
    rw [outcome_fileArgs hname hfile, output_of_midway hp hbody hbefore hs]
    rfl
  undecodable h := by
    rw [outcome, ofArgs_fileArgs hname]
    simp only [Request.outcome, Job.outcome, Source.text, hfile, text_undecodable h]
    simp only [Except.mapError, Option.getD_none, Filter.ofText_warn.2, Outcome.ofResult, unlines]
    simp only [List.map_nil, String.join_nil, String.empty_append, String.append_assoc]
    rfl

/-- The first statement of the text in the file has a value, and the second one has none. -/
theorem consistent_division : "a".toList.head? ≠ some '-' ∧
    Consistent (fun _ => .bytes "7;1/0".toUTF8) .results "a" "7;1/0".toUTF8 :=
  ⟨by decide, consistent_of_readable (by decide) rfl⟩

-- The second byte starts no character.
example : (File.bytes ⟨#[0x31, 0xFF]⟩).text = .error "stream did not contain valid UTF-8" := by
  decide +kernel

end CommandLine
end Reckoner
