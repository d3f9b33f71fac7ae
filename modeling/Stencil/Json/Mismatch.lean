import Stencil.Json
import Stencil.Text.Quoted

/-! Why a JSON value is not of the form that is asked for. -/
namespace Stencil.Json

/-- What a value turned out to be. -/
inductive Found
  | null
  | boolean (b : Bool)
  | number (n : Number)
  | string (s : Text)
  | list
  | object
  deriving DecidableEq

inductive Mismatch
  | invalidType (found : Found) (expected : Text)
  | invalidValue (found : Found) (expected : Text)
  | missingField (name : Text)
  | duplicateField (name : Text)
  | unknownVariant (name : Text) (known : List Text)
  | invalidLength (length : Nat) (expected : Text)
  deriving DecidableEq

def found : Json → Found
  | null => .null
  | boolean b => .boolean b
  | number n => .number n
  | string s => .string s
  | array _ => .list
  | object _ => .object

def Found.text : Found → Text
  | null => "null"
  | boolean true => "boolean `true`"
  | boolean false => "boolean `false`"
  | number (.integer n) => "integer `" ++ (Number.integer n).text ++ "`"
  | number (.double bits) => "floating point `" ++ (Number.double bits).text ++ "`"
  | string s => "string " ++ Text.quoted s
  | list => "sequence"
  | object => "map"

def Mismatch.message : Mismatch → Text
  | invalidType found expected => "invalid type: " ++ found.text ++ ", expected " ++ expected
  | invalidValue found expected => "invalid value: " ++ found.text ++ ", expected " ++ expected
  | missingField name => "missing field `" ++ name ++ "`"
  | duplicateField name => "duplicate field `" ++ name ++ "`"
  | unknownVariant name known =>
    let names := List.intercalate ", ".toList (known.map fun k => '`' :: k ++ "`")
    "unknown variant `" ++ name ++ "`, expected one of " ++ names
  | invalidLength length expected =>
    "invalid length " ++ Text.ofNat length ++ ", expected " ++ expected

def asText : Json → Except Mismatch Text
  | string s => .ok s
  | v => .error (.invalidType v.found "a string")

/-- A character is written as the string that holds it alone. -/
def asChar : Json → Except Mismatch Char
  | string [c] => .ok c
  | string s => .error (.invalidValue (.string s) "a character")
  | v => .error (.invalidType v.found "a character")

end Stencil.Json
