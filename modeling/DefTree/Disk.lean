/-
Directories and files.

A disk holds directories and files by their place, and a working directory
in which relative paths start. A path is walked part by part, and every
part before the last must be a directory that is there, also before a `..`;
a walk that succeeds ends at the place of the path. `Disk.loader` loads
imports from a disk.

There are no symbolic and no hard links, so what is at one place is at no
other, and all that is there may be read and written.
-/
import DefTree.Encoding
import DefTree.Loader
import DefTree.Path

namespace DefTree

inductive Entry where
  | dir
  | file (bytes : List UInt8)
  deriving DecidableEq

structure Disk where
  cwd : Place
  entries : List (Place × Entry)

namespace Disk

/-- What is at a place; the root is always a directory. -/
def get? (d : Disk) : Place → Option Entry
  | [] => some .dir
  | p => d.entries.lookup p

def put (place : Place) (entry : Entry) : List (Place × Entry) → List (Place × Entry)
  | [] => [(place, entry)]
  | (p, e) :: es => if p = place then (p, entry) :: es else (p, e) :: put place entry es

def insert (d : Disk) (place : Place) (entry : Entry) : Disk :=
  { d with entries := put place entry d.entries }

def files (d : Disk) : List Place := d.entries.filterMap fun
  | (p, .file _) => some p
  | (_, .dir) => none

/-! ## Walking -/

/-- How many bytes a name may have. -/
def nameLimit : Nat := 255

/-- How many bytes a path must stay below. -/
def pathLimit : Nat := 4096

def walk (d : Disk) (here : Place) : List String → Except FileFault Place
  | [] => .ok here
  | part :: parts =>
    match d.get? here with
    | none => .error .notFound
    | some (.file _) => .error .notDirectory
    | some .dir =>
      if part = ".." then d.walk here.tail parts
      else if nameLimit < part.utf8ByteSize then .error .nameTooLong
      else match d.get? (part :: here) with
        | none => .error .notFound
        | some _ => d.walk (part :: here) parts

theorem eq_follow_of_walk {d : Disk} {here place : Place} {parts : List String}
    (h : d.walk here parts = .ok place) : place = here.follow parts := by
  induction parts generalizing here with
  | nil => simp [walk] at h; exact h.symm
  | cons part parts ih =>
    simp only [walk] at h
    split at h
    · cases h
    · cases h
    · rw [Place.follow]
      split at h
      · next hp => rw [if_pos hp]; exact ih h
      · next hp =>
        rw [if_neg hp]
        split at h
        · cases h
        · split at h
          · cases h
          · exact ih h

/-- What no path can be opened with: a character of code zero, or too many bytes. -/
def refuse? (p : Path) : Option Fault :=
  if p.text.toList.contains '\x00' then some .nulInPath
  else if pathLimit ≤ p.text.utf8ByteSize then some (.file .nameTooLong p.text)
  else none

/-! ## Reading and writing -/

def readBytes (d : Disk) (p : Path) : Except Fault (List UInt8) :=
  match refuse? p with
  | some fault => .error fault
  | none => match d.walk (p.start d.cwd) p.parts with
    | .error f => .error (.file f p.text)
    | .ok place => match d.get? place with
      | none => .error (.file .notFound p.text)
      | some .dir => .error (.file .isDirectory p.text)
      | some (.file bytes) => .ok bytes

def readText (d : Disk) (p : Path) (e : Encoding) : Except Fault String :=
  match d.readBytes p with
  | .error fault => .error fault
  | .ok bytes => match e.decode bytes with
    | .error fault => .error (.undecodable fault)
    | .ok text => .ok text

/-- The place where a path can have a file written: its directory is there, and it is not a
directory itself. -/
def target (d : Disk) (p : Path) : Except Fault Place :=
  match refuse? p with
  | some fault => .error fault
  | none =>
    let name := p.parts.getLastD ".."
    match d.walk (p.start d.cwd) p.parts.dropLast with
    | .error f => .error (.file f p.text)
    | .ok dir => match d.get? dir with
      | none => .error (.file .notFound p.text)
      | some (.file _) => .error (.file .notDirectory p.text)
      | some .dir =>
        if name = ".." then .error (.file .isDirectory p.text)
        else if nameLimit < name.utf8ByteSize then .error (.file .nameTooLong p.text)
        else if d.get? (name :: dir) = some .dir then .error (.file .isDirectory p.text)
        else .ok (name :: dir)

def writeText (d : Disk) (p : Path) (text : String) : Except Fault Disk :=
  (d.target p).map fun place => d.insert place (.file (Encoding.encode text))

/-! ## Loading -/

def importPath (base : Option Path) (path : String) : Path :=
  match base with
  | none => .ofText path
  | some base => base.under (.ofText path)

/-- The text of an import. What is wrong with a file becomes the reason why it cannot be read. -/
def loadImport (d : Disk) (base : Option Path) (e : Encoding) (path : String) :
    Except LoadFault String :=
  match d.readText (importPath base path) e with
  | .ok text => .ok text
  | .error .nulInPath => .error .nulInPath
  | .error fault => .error (.unreadable (some fault.message))

def fileKeys (d : Disk) : List String :=
  d.files.flatMap fun p => [p.text .slash, p.text .doubleSlash]

theorem mem_of_lookup {p : Place} {e : Entry} {es : List (Place × Entry)}
    (h : es.lookup p = some e) : (p, e) ∈ es := by
  induction es with
  | nil => simp at h
  | cons x es ih =>
    obtain ⟨q, f⟩ := x
    rw [List.lookup_cons] at h
    split at h
    · next hq =>
      have : p = q := by simpa using hq
      cases h; simp [this]
    · exact List.mem_cons_of_mem _ (ih h)

theorem mem_files {d : Disk} {p : Place} {bytes : List UInt8}
    (h : d.get? p = some (.file bytes)) : p ∈ d.files := by
  cases p with
  | nil => simp [get?] at h
  | cons n p => exact List.mem_filterMap.2 ⟨_, mem_of_lookup h, rfl⟩

theorem key_mem_fileKeys {d : Disk} {p : Path} {bytes : List UInt8}
    (h : d.readBytes p = .ok bytes) : p.key d.cwd ∈ d.fileKeys := by
  unfold readBytes at h
  split at h
  · cases h
  · split at h
    · cases h
    · next place hw =>
      split at h
      · cases h
      · cases h
      · next bytes' he =>
        have hp : place = p.place d.cwd := eq_follow_of_walk hw
        refine List.mem_flatMap.2 ⟨place, mem_files he, ?_⟩
        subst hp
        rcases p.keyAnchor_eq with ha | ha <;> simp [Path.key, ha]

theorem readBytes_of_loadImport {d : Disk} {base : Option Path} {e : Encoding} {path text : String}
    (h : d.loadImport base e path = .ok text) :
    ∃ bytes, d.readBytes (importPath base path) = .ok bytes := by
  unfold loadImport readText at h
  cases hb : d.readBytes (importPath base path) with
  | ok bytes => exact ⟨bytes, rfl⟩
  | error fault =>
    rw [hb] at h
    simp only at h
    split at h <;> simp_all

def loader (d : Disk) (base : Option Path) (e : Encoding) : Loader where
  key path := (importPath base path).key d.cwd
  load := d.loadImport base e
  keys := d.fileKeys
  covers h := let ⟨_, hb⟩ := readBytes_of_loadImport h; key_mem_fileKeys hb

end Disk

end DefTree
