/-
Sessions: reading texts with settings and a log.

A session joins settings with a gate of a log registry. The events of each
run are written through that gate, so what a run leaves on the log depends
on the settings and the registry alone. Reading a file is reading its text
in a session of its own, which begins only when the file could be read.
-/
import DefTree.Build
import DefTree.Disk
import DefTree.Settings

namespace DefTree

def Log.Registry.writeEvents (r : Log.Registry) (g : Log.Gate) (time : String) :
    List Event → Except LogFault (Log.Registry × String)
  | [] => .ok (r, "")
  | e :: es => match e.report? with
    | none => r.writeEvents g time es
    | some (level, message) => match r.write g time level message with
      | .error fault => .error fault
      | .ok (r, line) => (r.writeEvents g time es).map fun (r, text) => (r, line ++ text)

/-- What reading in a session leaves: the registry, the log text, the paths whose text was asked
for, and the tree or a fault. -/
structure Report where
  registry : Log.Registry
  log : String := ""
  loads : List String := []
  result : Except Fault Node

structure Session where
  settings : Settings
  gate : Log.Gate

namespace Session

def start (registry : Log.Registry) (settings : Settings) : Log.Registry × Except Fault Session :=
  let (registry, gate) := registry.attach settings.gateConfig
  (registry, (gate.map fun gate => { settings, gate }).mapError .log)

def parse (s : Session) (loader : Loader) (text : String) (source : Option String) : Run Node :=
  DefTree.parse s.settings.expandImports.isOn loader text source

/-- Reads a definition text and writes to the log. A gate that cannot tell whether it lets a level
through fails at the first event, before anything else is done. -/
def report (s : Session) (registry : Log.Registry) (time : String) (loader : Loader)
    (text : String) (source : Option String) : Report :=
  let run := s.parse loader text source
  match registry.writeEvents s.gate time run.events with
  | .error fault => { registry, result := .error (.log fault) }
  | .ok (registry, log) => { registry, log, loads := run.loads, result := run.result }

end Session

namespace Report

def ofText (registry : Log.Registry) (time : String) (settings : Settings) (loader : Loader)
    (text : String) (source : Option String) : Report :=
  match Session.start registry settings with
  | (registry, .error fault) => { registry, result := .error fault }
  | (registry, .ok session) => session.report registry time loader text source

def ofFile (registry : Log.Registry) (time : String) (settings : Settings) (loader : Loader)
    (disk : Disk) (encoding : Encoding) (path : Path) (source : String) : Report :=
  match disk.readText path encoding with
  | .error fault => { registry, result := .error fault }
  | .ok text => ofText registry time settings loader text (some source)

end Report

end DefTree
