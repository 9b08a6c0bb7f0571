/-
Tables of settings: defaults with some of their values replaced.

Only the keys that have a default count, and they keep the order of the
defaults.
-/
import DefTree.Log

namespace DefTree

def enter (table : List (String × α)) (key : String) (value : α) : List (String × α) :=
  if table.any (·.1 == key) then table.map fun (k, v) => if k = key then (k, value) else (k, v)
  else table ++ [(key, value)]

/-- The table of some pairs: a key stands where it first came, with the value that came last. -/
def tableOf (pairs : List (String × α)) : List (String × α) :=
  pairs.foldl (fun table (key, value) => enter table key value) []

/-- Defaults, with the values that a table gives for their keys. -/
def overlay (defaults given : List (String × α)) : List (String × α) :=
  defaults.map fun (key, value) => (key, (given.lookup key).getD value)

structure Settings where
  expandImports : Setting := .ofBool false
  logging : Setting := .ofBool false
  logLevel : Setting := .ofInt 20
  deriving DecidableEq

def settingAt (table : List (String × Setting)) (key : String) (default : Setting) : Setting :=
  (table.lookup key).getD default

namespace Settings

def ofTable (table : List (String × Setting)) : Settings :=
  let d : Settings := {}
  { expandImports := settingAt table "allow_imports" d.expandImports
    logging := settingAt table "enable_logger" d.logging
    logLevel := settingAt table "log_level" d.logLevel }

def toTable (s : Settings) : List (String × Setting) :=
  [("allow_imports", s.expandImports), ("enable_logger", s.logging), ("log_level", s.logLevel)]

def gateConfig (s : Settings) : Log.Config :=
  { name := .ofText "Kantara Parser", enabled := s.logging, level := s.logLevel }

end Settings

namespace Log.Config

def ofTable (table : List (String × Setting)) : Config :=
  let d : Config := {}
  { name := settingAt table "name" d.name
    enabled := settingAt table "is_enabled" d.enabled
    level := settingAt table "level" d.level
    format := settingAt table "format" d.format }

def toTable (c : Config) : List (String × Setting) :=
  [("name", c.name), ("is_enabled", c.enabled), ("level", c.level), ("format", c.format)]

end Log.Config

end DefTree
