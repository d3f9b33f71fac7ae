import Stencil.Text

/-!
The shortest decimal of a double: the fewest digits that read back as the double, and of those the
nearest to it. Doubles are given by their 64 bits.
-/
namespace Stencil

/-- The number `digits · 10 ^ exponent`. -/
structure Decimal where
  digits : Nat
  exponent : Int
  deriving DecidableEq

namespace Decimal

/-- A positive double is `mantissa · 2 ^ exponent`; a quarter of its distance to the next smaller
double is `2 ^ (exponent - 2)` times `gapBelow`. -/
structure Binary where
  mantissa : Nat
  exponent : Int
  gapBelow : Nat

def Binary.ofBits (bits : Nat) : Binary :=
  let fraction : Nat := bits % Nat.pow 2 52
  let e : Nat := bits / Nat.pow 2 52 % Nat.pow 2 11
  if e = 0 then ⟨fraction, -1074, 2⟩
  else ⟨Nat.pow 2 52 + fraction, (e : Int) - 1075, if fraction = 0 ∧ 1 < e then 1 else 2⟩

/-- The multiple of `10 ^ k` that reads back as the double and is nearest to it, an even one of two;
none if no multiple reads back. -/
def onGrid? (b : Binary) (k : Int) : Option Decimal :=
  let q := b.exponent - 2
  let scale := Nat.pow 2 q.toNat * Nat.pow 10 (-k).toNat
  let unit := Nat.pow 10 k.toNat * Nat.pow 2 (-q).toNat
  let value := 4 * b.mantissa * scale
  let low := (4 * b.mantissa - b.gapBelow) * scale
  let high := (4 * b.mantissa + 2) * scale
  let readsBack (d : Nat) : Bool :=
    if b.mantissa % 2 = 0 then low ≤ d * unit && d * unit ≤ high
    else low < d * unit && d * unit < high
  let d := value / unit
  let below := value - d * unit
  let above := (d + 1) * unit - value
  match readsBack d, readsBack (d + 1) with
  | true, true => some ⟨if below < above ∨ (below = above ∧ d % 2 = 0) then d else d + 1, k⟩
  | true, false => some ⟨d, k⟩
  | false, true => some ⟨d + 1, k⟩
  | false, false => none

/-- The grids are tried from the coarsest that can hold the double to 17 digits and more. -/
def shortest (bits : Nat) : Decimal :=
  let b := Binary.ofBits bits
  let top := (Nat.log2 b.mantissa + b.exponent + 1) * 30103 / 100000 + 1
  ((List.range 24).findSome? fun (i : Nat) => onGrid? b (top - i)).getD ⟨0, 0⟩

/-- Which numbers are written without an exponent: those whose first digit stands for a power of ten
from `plainFrom` up to but not including `plainBelow`. -/
structure Layout where
  plainFrom : Int
  plainBelow : Int

def text (layout : Layout) (d : Decimal) : Text :=
  let digits := Text.ofNat d.digits
  let power := d.exponent + digits.length - 1
  if layout.plainFrom ≤ power ∧ power < layout.plainBelow then
    if 0 ≤ d.exponent then digits ++ List.replicate d.exponent.toNat '0' ++ ".0"
    else if 0 ≤ power then
      digits.take (power.toNat + 1) ++ '.' :: digits.drop (power.toNat + 1)
    else "0." ++ List.replicate (-power - 1).toNat '0' ++ digits
  else
    let fraction := if digits.length = 1 then [] else '.' :: digits.drop 1
    digits.take 1 ++ fraction ++ (if 0 ≤ power then "e+" else "e-") ++ Text.ofNat power.natAbs

end Decimal

end Stencil
