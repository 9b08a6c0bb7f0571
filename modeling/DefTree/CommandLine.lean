/-
The command line: reads a definition file and writes its tree as JSON.

`CommandLine.run` is all that the program does, as a function of its
arguments and of the disk: the status it ends with, what it prints, and the
disk afterwards. The tree is written only when it has been built and put
into text, so a run that fails leaves the disk as it was.
-/
import DefTree.CommandLine.Options
import DefTree.Cursor
import DefTree.Node.Json
import DefTree.Session

namespace DefTree.CommandLine

def usage : String :=
  "usage: kantara [-h] [-o OUTPUT] [--imports | --no-imports] [--indent INDENT]\n" ++
  "               [--tree] [-v]\n" ++
  "               input\n"

def help : String :=
  usage ++
  "\n" ++
  "Parse a Kantara definition file and write the resulting tree as JSON.\n" ++
  "\n" ++
  "positional arguments:\n" ++
  "  input                 Path to the Kantara file to parse.\n" ++
  "\n" ++
  "options:\n" ++
  "  -h, --help            show this help message and exit\n" ++
  "  -o OUTPUT, --output OUTPUT\n" ++
  "                        Where to write the JSON tree (defaults to\n" ++
  "                        <input>.json).\n" ++
  "  --imports, --no-imports\n" ++
  "                        Expand @import directives while parsing (default:\n" ++
  "                        enabled).\n" ++
  "  --indent INDENT       JSON indentation width (default: 2).\n" ++
  "  --tree                Print the parsed tree to stdout.\n" ++
  "  -v, --verbose         Log parser progress to stderr.\n"

/-- What a run leaves: the status it ends with, or the fault that broke it off; what it printed;
the disk; and the imports whose text it asked for. -/
structure Outcome where
  status : Except Fault Nat
  stdout : String := ""
  stderr : String := ""
  disk : Disk
  loads : List String := []

namespace Options

def inputPath (o : Options) : Path := .ofText o.input

/-- Where the tree is written: the given output, or the input with `.json` after it. An empty
output is as good as none. -/
def outputPath (o : Options) : Path :=
  match o.output with
  | none => .ofText (o.input ++ ".json")
  | some s => if s.isEmpty then .ofText (o.input ++ ".json") else .ofText s

def settings (o : Options) : Settings :=
  { expandImports := .ofBool o.imports, logging := .ofBool o.verbose, logLevel := .ofInt Event.debug }

def report (o : Options) (time : String) (disk : Disk) : Report :=
  Report.ofFile {} time o.settings (disk.loader none .utf8) disk .utf8 o.inputPath o.inputPath.text

def save (o : Options) (disk : Disk) (n : Node) : Except Fault Disk :=
  match o.indent with
  | none => .error .noIndent
  | some indent => match n.dump (some indent) with
    | .error fault => .error fault
    | .ok json => disk.writeText o.outputPath (json ++ "\n")

def success (o : Options) (n : Node) : String :=
  (if o.tree then String.join (n.listing 0) else "") ++
    "Wrote output to " ++ o.outputPath.text ++ "\n"

def failure (o : Options) (fault : Fault) : String :=
  "Failed to parse " ++ o.inputPath.text ++ ": " ++ fault.message ++ "\n"

/-- Runs with options. Faults of the definition text and of files end the run with status one;
others break it off. -/
def run (o : Options) (time : String) (disk : Disk) : Outcome :=
  let report := o.report time disk
  let saved : Except Fault (Node × Disk) := match report.result with
    | .error fault => .error fault
    | .ok n => (o.save disk n).map (n, ·)
  match saved with
  | .ok (n, disk) =>
    { status := .ok 0, stdout := o.success n, stderr := report.log, disk, loads := report.loads }
  | .error fault =>
    if fault.isOwn || fault.isFile then
      { status := .ok 1, stderr := report.log ++ o.failure fault, disk, loads := report.loads }
    else { status := .error fault, stderr := report.log, disk, loads := report.loads }

end Options

def run (args : List String) (time : String) (disk : Disk) : Outcome :=
  match Options.ofArgs args with
  | .ok o => o.run time disk
  | .error .help => { status := .ok 0, stdout := help, disk }
  | .error (.misuse m) =>
    { status := .ok 2, stderr := usage ++ "kantara: error: " ++ m.message ++ "\n", disk }

end DefTree.CommandLine
