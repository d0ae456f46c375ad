import Telemetry.Bytes
import Telemetry.Fault
import Telemetry.Text.Blank

/-!
# A tree of files

What the library needs of a file system: files and directories under path names, and
the few operations on them with the reasons for which they fail. Paths are texts; a
path is looked up part by part, every part but the last has to be a directory, and
`.` and `..` have their usual meaning. A path that ends in a slash or in `.` cannot name a
file, and the empty path names nothing.
-/

namespace Telemetry

/-- The place of a file or directory, as the parts of its path. -/
abbrev Place := List String

inductive FileNode
  | file (content : Bytes)
  | directory
deriving DecidableEq

/-- Files and directories by place. The root is always a directory. -/
structure FileTree where
  nodes : List (Place × FileNode)
deriving DecidableEq

namespace FileTree

def empty : FileTree := ⟨[]⟩

def node? (t : FileTree) (p : Place) : Option FileNode :=
  if p.isEmpty then some .directory else t.nodes.lookup p

def put (t : FileTree) (p : Place) (n : FileNode) : FileTree :=
  ⟨(p, n) :: t.nodes.filter fun e => e.1 ≠ p⟩

def erase (t : FileTree) (p : Place) : FileTree := ⟨t.nodes.filter fun e => e.1 ≠ p⟩

/-- The parts of a path that mean something. -/
def parts (path : String) : List String :=
  (Text.split '/' path).filter fun s => s ≠ "" ∧ s ≠ "."

/-- Walks down from a place. Every part but the last has to lead to a directory. -/
def walk (t : FileTree) (here : Place) : List String → Except FileFault Place
  | [] => .ok here
  | s :: rest =>
    match t.node? here with
    | none => .error .notFound
    | some (.file _) => .error .notDirectory
    | some .directory => walk t (if s = ".." then here.dropLast else here ++ [s]) rest

/-- Whether a path ends so that only a directory can be there: in a slash or in `.`. -/
def asksDirectory (path : String) : Bool :=
  match (Text.split '/' path).getLast? with
  | some s => s = "" ∨ s = "."
  | none => false

/-- Whether a path ends in a name, with or without slashes behind it, and so names an entry of
the directory above. -/
def namesEntry (path : String) : Bool :=
  match ((Text.split '/' path).filter (· ≠ "")).getLast? with
  | some s => s ≠ "." ∧ s ≠ ".."
  | none => false

/-- The place that a path names, whether or not something is there. -/
def locate (t : FileTree) (path : String) : Except FileFault Place :=
  if path = "" then .error .notFound
  else do
    let p ← walk t [] (parts path)
    match t.node? p with
    | some (.file _) => if asksDirectory path then throw .notDirectory else pure p
    | _ => pure p

def exists? (t : FileTree) (path : String) : Bool :=
  match t.locate path with
  | .ok p => (t.node? p).isSome
  | .error _ => false

/-- The content of a file. -/
def read (t : FileTree) (path : String) : Except FileFault Bytes := do
  let p ← t.locate path
  match t.node? p with
  | none => throw .notFound
  | some .directory => throw .isDirectory
  | some (.file content) => pure content

/-- The content of a file, as a text. -/
def readText (t : FileTree) (path : String) : Except FileFault String := do
  match Bytes.toText? (← t.read path) with
  | some s => pure s
  | none => throw .notText

/-- A change to a tree. -/
inductive Change
  /-- makes a directory and those above it -/
  | createDirectories (path : String)
  /-- makes a file or replaces its content -/
  | write (path : String) (content : Bytes)
  /-- moves a file, replacing what file is there -/
  | rename (source target : String)
deriving DecidableEq

/-- Makes the directories along a path that are missing. -/
def createAlong (t : FileTree) (here : Place) : List String → Except FileFault FileTree
  | [] =>
    match t.node? here with
    | none => .ok (t.put here .directory)
    | some .directory => .ok t
    | some (.file _) => .error .notDirectory
  | s :: rest => do
    let t ←
      match t.node? here with
      | none => pure (t.put here .directory)
      | some .directory => pure t
      | some (.file _) => throw .notDirectory
    createAlong t (if s = ".." then here.dropLast else here ++ [s]) rest

def apply (t : FileTree) : Change → Except FileFault FileTree
  | .createDirectories path => t.createAlong [] (parts path)
  | .write path content => do
    let p ← t.locate path
    if asksDirectory path then throw .isDirectory
    else
      match t.node? p with
      | some .directory => throw .isDirectory
      | _ => pure (t.put p (.file content))
  | .rename source target => do
    let old ← t.locate source
    let new ← t.locate target
    if namesEntry source && namesEntry target then
      match t.node? old, t.node? new with
      | none, _ => throw .notFound
      | some n, there =>
        if asksDirectory target then throw .notDirectory
        else if there = some .directory then throw .isDirectory
        else pure ((t.erase old).put new n)
    else throw .busy

/-- Changes one after another. A failure leaves the tree as the changes before it
made it. -/
def applyAll (t : FileTree) : List Change → FileTree × Except FileFault Unit
  | [] => (t, .ok ())
  | c :: rest =>
    match t.apply c with
    | .ok t => applyAll t rest
    | .error e => (t, .error e)

/-- The directory that holds what a path names; nothing for a single part. -/
def parent? (path : String) : Option String :=
  match (parts path).dropLast with
  | [] => if path.startsWith "/" then some "/" else none
  | ps => some ((if path.startsWith "/" then "/" else "") ++ "/".intercalate ps)

/-- A path below a directory; one that begins at the root stands for itself. -/
def join (directory path : String) : String :=
  if path.startsWith "/" then path else directory ++ "/" ++ path

end FileTree

end Telemetry
