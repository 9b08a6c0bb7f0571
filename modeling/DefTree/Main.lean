/-
The program.

`CommandLine.run` works on a disk that is a value. Here that value is filled
from the real disk with the places that a run looks at: the run is repeated
with what it asked for until it asks for nothing new. Then its output is
printed and the files it changed are written.
-/
import DefTree.CommandLine
import Std.Time

namespace DefTree.Program

/-- What is really at a place: a directory cannot be read as a file. -/
def probe (place : Place) : IO (Option Entry) := do
  try
    let bytes ← IO.FS.readBinFile (place.text .slash)
    return some (.file bytes.toList)
  catch
    | .inappropriateType .. => return some .dir
    | _ => return none

def passed (here : Place) : List String → List Place
  | [] => [here]
  | part :: parts =>
    here :: if part = ".." then passed here.tail parts else passed (part :: here) parts

def look (disk : Disk) (p : Path) : IO Disk :=
  (passed (p.start disk.cwd) p.parts).foldlM (fun disk place => do
    match ← probe place with
    | some entry => return disk.insert place entry
    | none => return disk) disk

def asked (args : List String) (o : CommandLine.Outcome) : List Path :=
  match CommandLine.Options.ofArgs args with
  | .error _ => []
  | .ok options =>
    options.inputPath :: options.outputPath :: o.loads.map (Disk.importPath none)

/-- Runs until every path that is asked for has been looked at; gives the disk before the last run
and what that run left. -/
partial def settle (args : List String) (time : String) (disk : Disk) (known : List Path) :
    IO (Disk × CommandLine.Outcome) := do
  let o := CommandLine.run args time disk
  let new := (asked args o).filter (!known.contains ·)
  if new.isEmpty then return (disk, o)
  settle args time (← new.foldlM look disk) (known ++ new)

def save (before after : Disk) : IO Unit :=
  after.entries.forM fun (place, entry) => do
    match entry with
    | .dir => return
    | .file bytes =>
      if before.get? place ≠ some entry then
        IO.FS.writeBinFile (place.text .slash) ⟨bytes.toArray⟩

def start (args : List String) : IO UInt32 := do
  let now ← Std.Time.PlainDateTime.now
  let cwd := (Path.ofText (← IO.currentDir).toString).place []
  let disk ← look { cwd, entries := [] } (Path.ofText (cwd.text .slash))
  let (before, o) ← settle args (now.format "uuuu-MM-dd HH:mm:ss,SSS") disk []
  save before o.disk
  IO.print o.stdout
  IO.eprint o.stderr
  match o.status with
  | .ok status => return status.toUInt32
  | .error fault =>
    IO.eprintln fault.message
    return 1

end DefTree.Program

def main (args : List String) : IO UInt32 := DefTree.Program.start args
