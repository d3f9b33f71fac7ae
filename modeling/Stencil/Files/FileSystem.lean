import Stencil.Files

/-!
A file system as a value: a tree of directories with files at its leaves. A place is given by the
names that lead to it from the root.

There are no links, no devices, pipes or other special files, and no permissions: a name leads to
one plain file or directory, which can always be read and written. What is proved about files is
proved under that assumption.
-/
namespace Stencil

open Text (Bytes)

/-- Of two children of one name only the first counts. -/
inductive Node
  | file (content : Bytes)
  | directory (children : List (Text × Node))

/-- What is at a place, without the places inside it. -/
inductive Entry
  | file (content : Bytes)
  | directory
  deriving DecidableEq

namespace Node

def entry : Node → Entry
  | file content => .file content
  | directory _ => .directory

def at? (node : Node) : List Text → Option Node
  | [] => some node
  | name :: place =>
    match node with
    | file _ => none
    | directory children => (children.lookup name).bind (·.at? place)

def setChild (name : Text) (node : Node) : List (Text × Node) → List (Text × Node)
  | [] => [(name, node)]
  | (other, child) :: children =>
    if other = name then (name, node) :: children
    else (other, child) :: setChild name node children

/-- Makes the directories that are missing on the way; a file on the way stays a file. -/
def put (new : Node) (place : List Text) (node : Node) : Node :=
  match place, node with
  | [], _ => new
  | _ :: _, file content => file content
  | name :: place, directory children =>
    directory (setChild name (new.put place ((children.lookup name).getD (directory []))) children)

mutual

/-- The places in a node with what is there, their names put after `place`. -/
def entries (place : List Text) : Node → List (List Text × Entry)
  | file content => [(place, .file content)]
  | directory children => (place, .directory) :: entriesIn place children

def entriesIn (place : List Text) : List (Text × Node) → List (List Text × Entry)
  | [] => []
  | (name, node) :: children => entries (place ++ [name]) node ++ entriesIn place children

end

end Node

/-- What is met on the way to a place, the innermost first. -/
abbrev Trail := List (Text × Option Node)

def Trail.place (trail : Trail) : List Text := (trail.map (·.1)).reverse

structure FileSystem where
  root : Node
  /-- Where relative paths start. -/
  workingDirectory : List Text

namespace FileSystem

variable (fs : FileSystem)

def entry? (place : List Text) : Option Entry := (fs.root.at? place).map Node.entry

def entries : List (List Text × Entry) := fs.root.entries []

def put (place : List Text) (node : Node) : FileSystem := { fs with root := node.put place fs.root }

/-- The node at the end of a trail. -/
def node? : Trail → Option Node
  | [] => some fs.root
  | (_, node?) :: _ => node?

def maxNameLength : Nat := 255

/-- Goes on from the end of a trail; all but the last step must lead to directories. -/
def walk (trail : Trail) : List Text → Except FileError Trail
  | [] => .ok trail
  | step :: steps =>
    match fs.node? trail with
    | none => .error .notFound
    | some (.file _) => .error .notDirectory
    | some (.directory children) =>
      if maxNameLength < step.byteSize then .error .nameTooLong
      else if step = "." then walk trail steps
      else if step = ".." then walk trail.tail steps
      else walk ((step, children.lookup step) :: trail) steps

def maxPathLength : Nat := 4095

/-- Refuses a path before it is looked up. -/
def checkText (p : Path) : Except FileError Unit :=
  if '\x00' ∈ p.text then .error .nulInName
  else if p.text = [] then .error .notFound
  else if maxPathLength < p.text.byteSize then .error .nameTooLong
  else .ok ()

def walkFrom (p : Path) (steps : List Text) : Except FileError Trail := do
  checkText p
  fs.walk [] (if p.isAbsolute then steps else fs.workingDirectory ++ steps)

def endsInSlash (p : Path) : Bool := p.text.getLast? = some '/'

/-- The trail to a path that has to exist; a slash at its end asks for a directory. -/
def locate (p : Path) : Except FileError Trail :=
  fs.walkFrom p (if endsInSlash p then p.steps ++ [".".toList] else p.steps)

def readBytes (p : Path) : Except FileError Bytes := do
  match fs.node? (← fs.locate p) with
  | none => throw .notFound
  | some (.directory _) => throw .isDirectory
  | some (.file content) => return content

/-- The trail to a file that may be missing; a slash at the end of its path asks for a directory,
whatever the last name. -/
def locateFile (p : Path) : Except FileError Trail := do
  let trail ← fs.walkFrom p (if endsInSlash p then p.steps.dropLast ++ [".".toList] else p.steps)
  match fs.node? trail with
  | some (.directory _) => throw .isDirectory
  | _ => return trail

def writeBytes (p : Path) (content : Bytes) : Except FileError FileSystem := do
  return fs.put (← fs.locateFile p).place (.file content)

def makeDir (p : Path) : Except FileError FileSystem := do
  let trail ← fs.walkFrom p p.steps
  match fs.node? trail with
  | some _ => throw .alreadyExists
  | none => return fs.put trail.place (.directory [])

def leadsToDirectory (p : Path) : Bool :=
  match fs.locate p with
  | .error _ => false
  | .ok trail => (fs.node? trail).map Node.entry = some .directory

/-- An operation changes the file system only if it succeeds. -/
def update (operation : FileSystem → Except FileError FileSystem) :
    StateM FileSystem (Except FileError Unit) := fun fs =>
  match operation fs with
  | .ok fs => (.ok (), fs)
  | .error e => (.error e, fs)

end FileSystem

instance : MonadFiles (StateM FileSystem) where
  readBytes p := fun fs => (fs.readBytes p, fs)
  writeBytes p content := FileSystem.update (·.writeBytes p content)
  makeDir p := FileSystem.update (·.makeDir p)
  isDirectory p := fun fs => (fs.leadsToDirectory p, fs)

end Stencil
