import Reckoner.CommandLine.Request
import Reckoner.Trace.Filter

/-!
# Outcomes

What comes of a command line: an exit code and what is written to the two outputs. The output of a
job is written as a whole or not at all.
-/

namespace Reckoner.CommandLine

/-- What a file turns out to be. -/
inductive File where
  | bytes (b : ByteArray)
  /-- it cannot be read; the system gives a number for the reason -/
  | unreadable (code : Nat)

/-- An exit code and the text on the two outputs. -/
structure Outcome where
  code : Nat
  stdout : String
  stderr : String
deriving DecidableEq, Inhabited, Repr

/-- The reason behind a number of the system. -/
def systemReason : Nat → String
  | 1 => "Operation not permitted"
  | 2 => "No such file or directory"
  | 5 => "Input/output error"
  | 13 => "Permission denied"
  | 20 => "Not a directory"
  | 21 => "Is a directory"
  | 24 => "Too many open files"
  | 36 => "File name too long"
  | 40 => "Too many levels of symbolic links"
  | _ => "Unknown error"

/-- The text in a file, or why there is none. -/
def File.text : File → Except String String
  | bytes b =>
    match String.fromUTF8? b with
    | some s => .ok s
    | none => .error "stream did not contain valid UTF-8"
  | unreadable code => .error s!"{systemReason code} (os error {code})"

/-- The text to work on, or why there is none. -/
def Source.text (files : String → File) : Source → Except String String
  | inline s => .ok s
  | file name =>
    (files name).text.mapError fun reason => s!"Failed to read the input file '{name}': {reason}"

/-- Lines of text, each with its end. -/
def unlines (ls : List String) : String := String.join (ls.map (· ++ "\n"))

/-- What comes of a result; `notes` are the lines that are shown beside it. -/
def Outcome.ofResult (notes : List String) : Except String String → Outcome
  | .ok s => ⟨0, s ++ "\n", unlines notes⟩
  | .error m => ⟨1, "", unlines notes ++ m ++ "\n"⟩

/-- What comes of a job; `environment` is the filter that holds if the job gives none. -/
def Job.outcome (files : String → File) (environment : Option String) (j : Job) : Outcome :=
  let filter := j.filter.getD (environment.getD "warn")
  match j.source.text files with
  | .error m => .ofResult (Filter.notices filter) (.error m)
  | .ok s =>
    let out := j.mode.output s
    .ofResult (Filter.notices filter ++ (Filter.ofText filter).lines out.trace)
      (out.result.mapError Error.message)

/-- How the calculator is used. -/
def usage : String :=
  "Usage: tally [--file] [--emit results|ast|tokens] [--log-level FILTER] [--] CONTENTS"

/-- What comes of a request. -/
def Request.outcome (files : String → File) (environment : Option String) : Request → Outcome
  | version => ⟨0, "tally 0.1.0\n", ""⟩
  | help => ⟨0, usage ++ "\n", ""⟩
  | job j => j.outcome files environment

/-- What comes of a command line. -/
def outcome (files : String → File) (environment : Option String) (args : List String) : Outcome :=
  match Request.ofArgs args with
  | .error m => ⟨2, "", s!"error: {m.message}\n{usage}\n"⟩
  | .ok r => r.outcome files environment

end Reckoner.CommandLine
