import Stencil.Text.Utf8

/-! Paths, and what a program asks of the files behind them. -/
namespace Stencil

open Text (Bytes)

/-- A path as it was given. -/
structure Path where
  text : Text
  deriving DecidableEq

namespace Path

def isAbsolute (p : Path) : Bool := p.text.head? = some '/'

/-- The names between slashes, with `.` and `..` among them. -/
def steps (p : Path) : List Text := (p.text.splitOn '/').filter (· ≠ [])

/-- The steps that lead somewhere: a `.` counts only at the beginning of a relative path. -/
def components (p : Path) : List Text :=
  match p.steps with
  | [] => []
  | c :: steps =>
    if c = "." ∧ p.isAbsolute then steps.filter (· ≠ ".") else c :: steps.filter (· ≠ ".")

/-- The last component, if it is a name. -/
def fileName? (p : Path) : Option Text :=
  p.components.getLast?.filter fun c => c ≠ ".." ∧ c ≠ "."

/-- A name cut at its last dot; a dot at its beginning does not count. -/
def splitName (name : Text) : Text × Option Text :=
  let stem := (name.reverse.dropWhile (· ≠ '.')).drop 1
  if stem = [] then (name, none)
  else (stem.reverse, some (name.reverse.takeWhile (· ≠ '.')).reverse)

def stem? (p : Path) : Option Text := p.fileName?.map fun name => (splitName name).1

def extension? (p : Path) : Option Text := p.fileName?.bind fun name => (splitName name).2

/-- The path and those of the directories around it, the innermost first. -/
def ancestry (p : Path) : List Path :=
  let around := p.components.dropLast
  let path (k : Nat) : Path :=
    let names := List.intercalate ['/'] (around.take (around.length - k))
    ⟨if p.isAbsolute then '/' :: names else names⟩
  if p.components = [] then [] else p :: (List.range around.length).map path

def join (directory : Path) (file : Text) : Path :=
  if file.head? = some '/' ∨ directory.text = [] then ⟨file⟩
  else if directory.text.getLast? = some '/' then ⟨directory.text ++ file⟩
  else ⟨directory.text ++ '/' :: file⟩

end Path

inductive FileError
  | notFound
  | alreadyExists
  | notDirectory
  | isDirectory
  | nameTooLong
  | nulInName
  | notText
  /-- Any other error of the system, with its number. -/
  | other (description : Text) (code : Nat)
  deriving DecidableEq

def FileError.message : FileError → Text
  | notFound => "No such file or directory (os error 2)"
  | alreadyExists => "File exists (os error 17)"
  | notDirectory => "Not a directory (os error 20)"
  | isDirectory => "Is a directory (os error 21)"
  | nameTooLong => "File name too long (os error 36)"
  | nulInName => "file name contained an unexpected NUL byte"
  | notText => "stream did not contain valid UTF-8"
  | other description code => description ++ " (os error " ++ Text.ofNat code ++ ")"

class MonadFiles (m : Type → Type) where
  readBytes : Path → m (Except FileError Bytes)
  /-- Creates the file or replaces what it holds. -/
  writeBytes : Path → Bytes → m (Except FileError Unit)
  /-- Creates a directory where there is nothing, in a directory that is there. -/
  makeDir : Path → m (Except FileError Unit)
  isDirectory : Path → m Bool

namespace MonadFiles

variable {m : Type → Type} [Monad m] [MonadFiles m]

/-- A file that is not UTF-8 is no text. -/
def readText (p : Path) : m (Except FileError Text) := do
  match ← readBytes p with
  | .error e => return .error e
  | .ok bytes => return (Text.decodeUtf8 bytes).mapError fun _ => .notText

def writeText (p : Path) (s : Text) : m (Except FileError Unit) := writeBytes p (Text.encodeUtf8 s)

/-- Whether making a directory came to nothing because it is there. -/
def isThere (e : FileError) (p : Path) : m Bool :=
  if e = .alreadyExists then isDirectory p else return false

/-- Makes directories in the order given; those that are there do no harm. -/
def makeAll : List Path → m (Except FileError Unit)
  | [] => return .ok ()
  | p :: paths => do
    match ← makeDir p with
    | .ok () => makeAll paths
    | .error e => if ← isThere e p then makeAll paths else return .error e

/-- Looks outwards for a directory that is there or can be made, then makes those inside it, which
are `missing`. -/
def makeFrom (missing : List Path) : List Path → m (Except FileError Unit)
  | [] => makeAll missing
  | p :: around => do
    match ← makeDir p with
    | .ok () => makeAll missing
    | .error .notFound => makeFrom (p :: missing) around
    | .error e => if ← isThere e p then makeAll missing else return .error e

/-- Creates a directory and those missing on the way to it. -/
def createDirs (p : Path) : m (Except FileError Unit) := makeFrom [] p.ancestry

end MonadFiles

end Stencil
