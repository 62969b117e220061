import Reckoner.Run
import Reckoner.Text.Split

/-!
# Command lines

    [--file] [--emit MODE] [--log-level FILTER] [--] CONTENTS

What starts with a hyphen is an option, unless it is a hyphen alone or stands behind `--`. The
arguments are taken from left to right, and the first thing that is wrong or that ends the matter
(the version, the help) decides.
-/

namespace Reckoner.CommandLine

/-- Where the text to work on comes from. -/
inductive Source where
  | inline (text : String)
  | file (name : String)
deriving DecidableEq, Inhabited, Repr

/-- Work to do. -/
structure Job where
  source : Source
  mode : Mode
  /-- the filter of the trace, if one is given -/
  filter : Option String
deriving DecidableEq, Inhabited, Repr

/-- What a command line asks for. -/
inductive Request where
  | version
  | help
  | job (j : Job)
deriving DecidableEq, Inhabited, Repr

/-- Why a command line is refused. -/
inductive Misuse where
  | unknownOption (arg : String)
  | repeatedOption (name : String)
  | missingValue (name : String)
  | unneededValue (arg : String)
  | unknownMode (value : String)
  | extraContents (arg : String)
  | missingContents
deriving DecidableEq, Inhabited, Repr

def Misuse.message : Misuse → String
  | unknownOption a => s!"unexpected argument '{a}'"
  | repeatedOption n => s!"the argument '{n}' cannot be used multiple times"
  | missingValue n => s!"a value is required for '{n}'"
  | unneededValue a => s!"unexpected value in '{a}'"
  | unknownMode v => s!"invalid value '{v}' for '--emit'"
  | extraContents a => s!"unexpected argument '{a}'"
  | missingContents => "the contents are missing"

/-- The options that take a value. -/
inductive Setting where
  | emit
  | logLevel
deriving DecidableEq, Inhabited, Repr

def Setting.name : Setting → String
  | emit => "--emit"
  | logLevel => "--log-level"

def Setting.ofName? (s : String) : Option Setting := [emit, logLevel].find? (·.name == s)

/-- The options that take no value. -/
inductive Switch where
  | file
  | version
  | help
deriving DecidableEq, Inhabited, Repr

namespace Switch

def all : List Switch := [file, version, help]

def name : Switch → String
  | file => "--file"
  | version => "--version"
  | help => "--help"

/-- The letter for the switch, behind a single hyphen. -/
def letter : Switch → Char
  | file => 'f'
  | version => 'V'
  | help => 'h'

def ofName? (s : String) : Option Switch := all.find? (·.name == s)

def ofLetter? (c : Char) : Option Switch := all.find? (·.letter == c)

end Switch

/-- What has been given so far. -/
structure Draft where
  fromFile : Bool
  mode : Option Mode
  filter : Option String
  contents : Option String
deriving Inhabited

namespace Draft

def blank : Draft := ⟨false, none, none, none⟩

def setFile (d : Draft) : Except Misuse Draft :=
  if d.fromFile then throw (.repeatedOption Switch.file.name) else pure { d with fromFile := true }

def set (d : Draft) (s : Setting) (v : String) : Except Misuse Draft :=
  match s with
  | .emit =>
    if d.mode.isSome then throw (.repeatedOption s.name)
    else match Mode.ofName? v with
      | some m => pure { d with mode := some m }
      | none => throw (.unknownMode v)
  | .logLevel =>
    if d.filter.isSome then throw (.repeatedOption s.name) else pure { d with filter := some v }

def setContents (d : Draft) (v : String) : Except Misuse Draft :=
  if d.contents.isSome then throw (.extraContents v) else pure { d with contents := some v }

/-- The request, once all arguments are taken. -/
def finish (d : Draft) : Except Misuse Request :=
  match d.contents with
  | none => throw .missingContents
  | some c =>
    pure (.job ⟨if d.fromFile then .file c else .inline c, d.mode.getD .results, d.filter⟩)

end Draft

/-- What follows from a switch: more arguments, or the request at once. -/
inductive Step where
  | more (d : Draft)
  | done (r : Request)

def Switch.apply (d : Draft) : Switch → Except Misuse Step
  | file => .more <$> d.setFile
  | version => pure (.done .version)
  | help => pure (.done .help)

/-- What an argument looks like. -/
inductive Shape where
  /-- `--`: all that follows is no option -/
  | stop
  /-- a hyphen and the letters of switches -/
  | letters (cs : List Char)
  /-- two hyphens, a name, and perhaps an equals sign and a value -/
  | long (name : String) (value : Option String)
  /-- anything else -/
  | plain
deriving DecidableEq, Repr

def Shape.of (arg : String) : Shape :=
  match arg.toList with
  | ['-', '-'] => stop
  | '-' :: '-' :: _ => long (Text.splitSetting arg).1 (Text.splitSetting arg).2
  | '-' :: c :: cs => letters (c :: cs)
  | _ => plain

/-- Takes the switches of one argument. -/
def letters (arg : String) (d : Draft) : List Char → Except Misuse Step
  | [] => pure (.more d)
  | c :: r =>
    match Switch.ofLetter? c with
    | none => throw (.unknownOption arg)
    | some s => do
      match ← s.apply d with
      | .more d => letters arg d r
      | done => return done

def longSwitch (arg name : String) (value : Option String) (d : Draft) : Except Misuse Step :=
  match Switch.ofName? name, value with
  | some s, none => s.apply d
  | some _, some _ => throw (.unneededValue arg)
  | none, _ => throw (.unknownOption arg)

/-- Takes the arguments from left to right. A value that is an argument of its own may not look like
an option. -/
def takeAll (d : Draft) : List String → Except Misuse Request
  | [] => d.finish
  | arg :: rest =>
    match Shape.of arg with
    | .plain => do takeAll (← d.setContents arg) rest
    | .stop => do (← rest.foldlM Draft.setContents d).finish
    | .letters cs => do
      match ← letters arg d cs with
      | .more d => takeAll d rest
      | .done r => return r
    | .long name value =>
      match Setting.ofName? name, value with
      | some s, some v => do takeAll (← d.set s v) rest
      | some s, none =>
        match rest with
        | [] => throw (.missingValue s.name)
        | v :: rest =>
          if Shape.of v = .plain then do takeAll (← d.set s v) rest
          else throw (.missingValue s.name)
      | none, _ => do
        match ← longSwitch arg name value d with
        | .more d => takeAll d rest
        | .done r => return r

def Request.ofArgs (args : List String) : Except Misuse Request := takeAll .blank args

end Reckoner.CommandLine
