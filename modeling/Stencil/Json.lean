import Stencil.Decimal

/-! JSON values. Members keep an order, which the printer follows; the reader sorts them by key. -/
namespace Stencil

/-- Integers of 64 bits, signed or not, are kept as they are; any other number is a double. -/
inductive Number
  | integer (n : Int)
  | double (bits : UInt64)
  deriving DecidableEq

namespace Number

/-- Numbers from 0.00001 up to 10 ^ 16 are written without an exponent. -/
def layout : Decimal.Layout := ⟨-5, 16⟩

def doubleText (bits : Nat) : Text :=
  let size := bits % (UInt64.size / 2)
  let digits := if size = 0 then "0.0".toList else (Decimal.shortest size).text layout
  if size = bits then digits else '-' :: digits

def text : Number → Text
  | integer (.ofNat n) => Text.ofNat n
  | integer (.negSucc n) => '-' :: Text.ofNat (n + 1)
  | double bits => doubleText bits.toNat

end Number

inductive Json
  | null
  | boolean (b : Bool)
  | number (n : Number)
  | string (s : Text)
  | array (items : List Json)
  | object (members : List (Text × Json))

namespace Json

/-- Puts a member at its place among members sorted by key; it replaces one of the same key. -/
def insertMember (key : Text) (value : Json) : List (Text × Json) → List (Text × Json)
  | [] => [(key, value)]
  | (k, v) :: members =>
    if key < k then (key, value) :: (k, v) :: members
    else if key = k then (key, value) :: members
    else (k, v) :: insertMember key value members

def member? (key : Text) (members : List (Text × Json)) : Option Json := members.lookup key

end Json

end Stencil
