import PocketPascal.Run

/-!
# The command line

The program takes one argument, a source text or the path of a file that holds one, and options in
any place. Arguments are read from left to right, and the first one that decides the outcome ends
the reading: a version request, a request for help, or a mistake.

* Long options are written in full and take no value.
* Short options may be put together behind one dash.
* After a double dash everything is an argument; a single dash and an empty text always are.
* The verbosity counts up; every other option may be given once.
-/

namespace PocketPascal

/-- What is asked of the program: a run. -/
structure Invocation where
  /-- The source text, or the path of the file that holds it. -/
  contents : String
  /-- Whether the source text is in a file. -/
  fromFile : Bool
  /-- Whether a repeated declaration is an error. -/
  strict : Bool
  /-- Whether to leave out the analysis of scopes. -/
  skipAnalysis : Bool
  /-- How much of the log is shown. -/
  verbosity : Nat
  deriving DecidableEq, Repr

/-- What is asked of the program. -/
inductive Command where
  /-- A run. -/
  | run (invocation : Invocation)
  /-- The version. -/
  | version
  /-- A summary of the options. -/
  | help
  deriving DecidableEq, Repr

/-- What a run of the program leaves behind. -/
structure Report where
  /-- The exit status. -/
  status : Nat
  /-- What was written to the standard output. -/
  output : String
  /-- What was written to the standard error. -/
  errors : String
  deriving DecidableEq, Repr

namespace CommandLine

/-- An option. -/
inductive Switch where
  /-- The argument is a path. -/
  | file
  /-- Repeated declarations are errors. -/
  | strict
  /-- No analysis. -/
  | skipAnalysis
  /-- More of the log. -/
  | verbose
  /-- The version. -/
  | version
  /-- The summary of the options. -/
  | help
  deriving DecidableEq, Repr

/-- The option with a long name. -/
def Switch.ofLong? (name : String) : Option Switch :=
  match name with
  | "file" => some .file
  | "strict-declarations" => some .strict
  | "skip-analysis" => some .skipAnalysis
  | "verbose" => some .verbose
  | "version" => some .version
  | "help" => some .help
  | _ => none

/-- The option with a short name. -/
def Switch.ofShort? (name : Char) : Option Switch :=
  match name with
  | 'f' => some .file
  | 'v' => some .verbose
  | 'V' => some .version
  | 'h' => some .help
  | _ => none

/-- What has been read of the arguments: a run that may still lack its argument. -/
structure Draft where
  /-- The argument, once it has been read. -/
  contents : Option String := none
  /-- Whether the option for a file has been read. -/
  fromFile : Bool := false
  /-- Whether the option for strict declarations has been read. -/
  strict : Bool := false
  /-- Whether the option for no analysis has been read. -/
  skipAnalysis : Bool := false
  /-- How often the option for verbosity has been read. -/
  verbosity : Nat := 0

/-- Where the reading of the arguments stands. -/
inductive Progress where
  /-- The reading goes on. -/
  | more (draft : Draft)
  /-- The command is known. -/
  | decided (command : Command)
  /-- The arguments are not understood. -/
  | mistake

/-- Goes on reading if nothing has been decided. -/
def Progress.bind (p : Progress) (next : Draft → Progress) : Progress :=
  match p with
  | .more draft => next draft
  | .decided command => .decided command
  | .mistake => .mistake

/-- Applies an option. -/
def Switch.apply (d : Draft) : Switch → Progress
  | .file => if d.fromFile then .mistake else .more { d with fromFile := true }
  | .strict => if d.strict then .mistake else .more { d with strict := true }
  | .skipAnalysis => if d.skipAnalysis then .mistake else .more { d with skipAnalysis := true }
  | .verbose => .more { d with verbosity := d.verbosity + 1 }
  | .version => .decided .version
  | .help => .decided .help

/-- Applies an option that was looked up by its name; an unknown one is a mistake. -/
def applyFound (d : Draft) (switch : Option Switch) : Progress :=
  match switch with
  | some found => found.apply d
  | none => .mistake

/-- Takes the argument; a second one is a mistake. -/
def takeContents (d : Draft) (text : String) : Progress :=
  match d.contents with
  | none => .more { d with contents := some text }
  | some _ => .mistake

/-- Reads arguments after a double dash. -/
def readPlain (d : Draft) : List String → Progress
  | [] => .more d
  | text :: rest => (takeContents d text).bind fun d => readPlain d rest

/-- Reads the short options behind one dash. -/
def readShort (d : Draft) : List Char → Progress
  | [] => .more d
  | name :: rest => (applyFound d (Switch.ofShort? name)).bind fun d => readShort d rest

/-- Reads arguments and options. -/
def read (d : Draft) : List String → Progress
  | [] => .more d
  | text :: rest =>
      match text.toList with
      | ['-', '-'] => readPlain d rest
      | '-' :: '-' :: name =>
          (applyFound d (Switch.ofLong? (String.ofList name))).bind fun d => read d rest
      | '-' :: c :: names => (readShort d (c :: names)).bind fun d => read d rest
      | _ => (takeContents d text).bind fun d => read d rest

/-- The command that the arguments give; none if they are not understood. -/
def command? (args : List String) : Option Command :=
  match read {} args with
  | .decided command => some command
  | .mistake => none
  | .more d =>
      d.contents.map fun contents =>
        .run ⟨contents, d.fromFile, d.strict, d.skipAnalysis, d.verbosity⟩

/-- The summary of the options. The wording is that of this program alone: nothing but the options and
their meaning is prescribed. -/
def usage : String :=
  "Usage: minipas [OPTIONS] <CONTENTS>\n\n" ++
  "Options:\n" ++
  "  -f, --file                 Read the program from the file CONTENTS\n" ++
  "      --strict-declarations  Reject a name declared twice in the same scope\n" ++
  "      --skip-analysis        Evaluate without the static scope check\n" ++
  "  -v, --verbose...           Show more of the log\n" ++
  "  -h, --help                 Print help\n" ++
  "  -V, --version              Print version\n"

/-- The text of the version. -/
def version : String := "minipas 0.1.0\n"

end CommandLine

namespace Invocation

/-- The file to be read, if the source text is in one. -/
def path? (i : Invocation) : Option String := if i.fromFile then some i.contents else none

/-- The settings of the run. -/
def options (i : Invocation) : Options :=
  ⟨if i.strict then .reject else .overwrite, !i.skipAnalysis⟩

/-- The lines that show the variables, in the order of their names. -/
def globalsText (globals : Globals) : String :=
  String.join (globals.toList.map fun entry => entry.1 ++ " = " ++ entry.2.text ++ "\n")

/-- The report of a run on a source text; none stands for a file that could not be read. -/
def report (i : Invocation) (source : Option String) : Report :=
  match source with
  | none =>
      ⟨1, "", "Failed to read the input file '" ++ i.contents ++
        "'. Perhaps this file does not exist?\n"⟩
  | some text =>
      let run := Run.ofSource i.options text
      let log := Log.write i.verbosity run.log
      match run.result with
      | .ok globals => ⟨0, globalsText globals, log⟩
      | .error e => ⟨1, "", log ++ e.message ++ "\n"⟩

end Invocation

namespace CommandLine

/-- The report of the program on the given arguments, where `file` gives the text of the file at a
path; none if the file cannot be read or is no text. -/
def report (args : List String) (file : String → Option String) : Report :=
  match command? args with
  | none => ⟨2, "", usage⟩
  | some .version => ⟨0, version, ""⟩
  | some .help => ⟨0, usage, ""⟩
  | some (.run i) => i.report (i.path?.elim (some i.contents) file)

end CommandLine

end PocketPascal
