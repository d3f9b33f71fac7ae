import Stencil.Execution
import Stencil.Json.Printer
import Stencil.Text.Blank

/-! JSON values as the context of a template: expressions are dotted paths into the value. -/
namespace Stencil.Context

/-- A list index in decimal, with a plus sign or without, of at most 64 bits. -/
def index? (s : Text) : Option Nat :=
  let digits := match s with
    | '+' :: digits => digits
    | digits => digits
  if digits = [] ∨ ¬ digits.all Char.isDigit then none
  else
    let i := digits.foldl (fun n c => n * 10 + (c.toNat - '0'.toNat)) 0
    if i < UInt64.size then some i else none

/-- One step from a value: to a member, or to an item. -/
def child? (key : Text) : Json → Option Json
  | .object members => Json.member? key members
  | .array items => (index? key).bind (items[·]?)
  | _ => none

def descend? : List Text → Json → Option Json
  | [], v => some v
  | key :: path, v => (child? key v).bind (descend? path)

/-- White space around a path does not count, and an empty path leads nowhere. -/
def lookup? (root : Json) (path : Text) : Option Json :=
  let path := path.trim
  if path = [] then none else descend? (path.splitOn '.') root

/-- A value as it appears in output. -/
def display : Json → Text
  | .null => []
  | .string s => s
  | v => v.render Json.compact 0

inductive HostError
  | noValue (path : Text)
  | noControlFlow (code : Text)
  deriving DecidableEq

def HostError.message : HostError → Text
  | noValue path => "no value at `" ++ path ++ "` in context"
  | noControlFlow code =>
    "cannot splice `" ++ code ++
      "`: the JSON context has no control flow, compile to Rust instead"

def evaluate (root : Json) (expr : Text) : Except HostError Text :=
  match lookup? root expr with
  | some v => .ok (display v)
  | none => .error (.noValue expr.trim)

/-- Only blank code can be spliced. -/
def splice (code : Text) : Except HostError Unit :=
  if code.trim = [] then .ok () else .error (.noControlFlow code.trim)

/-- The host that looks expressions up in a value; it leaves the state alone. -/
def host {σ : Type} (root : Json) : Host σ HostError where
  evaluate expr _ s := (evaluate root expr, s)
  splice code s := (splice code, s)

end Stencil.Context
