/-!
# Shortest decimals

A binary floating-point number is written with the fewest decimal digits that round back to it, and
of those with the digits nearest to it.

* `FloatFormat` describes a binary format, and `FloatFormat.decode` reads the bits of a number;
* `shortest` finds digits and exponent of the shortest decimal;
* `displayFloat` writes a number: positionally from 10⁻⁴ up to 10¹⁶, and otherwise with an exponent.
-/

namespace Immutability.Text

/-- A binary floating-point format. -/
structure FloatFormat where
  fractionBits : Nat
  exponentBits : Nat

/-- The format of thirty-two bits. -/
def FloatFormat.single : FloatFormat := ⟨23, 8⟩

/-- The format of sixty-four bits. -/
def FloatFormat.double : FloatFormat := ⟨52, 11⟩

/-- The absolute value of a floating-point number. -/
inductive Magnitude where
  | nan
  | infinite
  /-- The number `mantissa * 2 ^ exponent`; `close` says that the number below it is only half as
  far away as the number above it. -/
  | finite (mantissa : Nat) (exponent : Int) (close : Bool)

namespace FloatFormat

/-- The largest value of the exponent field. -/
def topExponent (f : FloatFormat) : Nat := (1 <<< f.exponentBits) - 1

/-- Whether the bits are those of a negative number. -/
def isNegative (f : FloatFormat) (bits : Nat) : Bool :=
  bits.testBit (f.fractionBits + f.exponentBits)

/-- The absolute value that the bits stand for. -/
def decode (f : FloatFormat) (bits : Nat) : Magnitude :=
  let fraction := bits % (1 <<< f.fractionBits)
  let exponent := (bits >>> f.fractionBits) % (1 <<< f.exponentBits)
  let bias : Int := ((1 <<< (f.exponentBits - 1)) - 1 : Nat) + f.fractionBits
  if exponent = f.topExponent then if fraction = 0 then .infinite else .nan
  else if exponent = 0 then .finite fraction (1 - bias) false
  else
    .finite ((1 <<< f.fractionBits) + fraction) (exponent - bias) (fraction = 0 && exponent != 1)

end FloatFormat

/-- The decimal `digits * 10 ^ exponent`. -/
structure Decimal where
  digits : Nat
  exponent : Int

/-- The decimal with the given exponent that rounds to `mantissa * 2 ^ exponent`, if there is one:
the nearer of the two neighbours, and the larger one if both are equally near. -/
def decimalAt (mantissa : Nat) (exponent : Int) (close : Bool) (k : Int) : Option Decimal :=
  -- Four times the number and the ends of its interval, in units of `num / den * 10 ^ k`.
  let scale := exponent - 2
  let num := Nat.pow 10 (-k).toNat <<< scale.toNat
  let den := Nat.pow 10 k.toNat <<< (-scale).toNat
  let value := 4 * mantissa * num
  let low := (4 * mantissa - if close then 1 else 2) * num
  let high := (4 * mantissa + 2) * num
  let inside := fun d : Nat =>
    let x := d * den
    if mantissa % 2 = 0 then low ≤ x && x ≤ high else low < x && x < high
  let below := value / den
  let above := below + 1
  let nearer := if 2 * (value % den) ≥ den then above else below
  let farther := if 2 * (value % den) ≥ den then below else above
  if nearer ≠ 0 ∧ inside nearer then some ⟨nearer, k⟩
  else if farther ≠ 0 ∧ inside farther then some ⟨farther, k⟩
  else none

/-- The first decimal found at the exponents from `top` down. -/
def searchDecimal (mantissa : Nat) (exponent : Int) (close : Bool) (top : Int) :
    Nat → Option Decimal
  | 0 => none
  | steps + 1 =>
    match decimalAt mantissa exponent close top with
    | some d => some d
    | none => searchDecimal mantissa exponent close (top - 1) steps

/-- The shortest decimal that rounds to `mantissa * 2 ^ exponent`. The exponents searched cover
all numbers of the format of sixty-four bits. -/
def shortest (mantissa : Nat) (exponent : Int) (close : Bool) : Decimal :=
  (searchDecimal mantissa exponent close 310 700).getD ⟨0, 0⟩

/-- A number of zeros. -/
def zeros (n : Nat) : List Char := List.replicate n '0'

/-- A decimal in positional notation, with at least one digit on either side of the point. -/
def Decimal.positional (d : Decimal) : List Char :=
  let ds := Nat.toDigits 10 d.digits
  if 0 ≤ d.exponent then ds ++ zeros d.exponent.toNat ++ ['.', '0']
  else
    let places := (-d.exponent).toNat
    if places < ds.length then ds.take (ds.length - places) ++ ['.'] ++ ds.drop (ds.length - places)
    else ['0', '.'] ++ zeros (places - ds.length) ++ ds

/-- A decimal with one digit before the point and an exponent. -/
def Decimal.scientific (d : Decimal) : List Char :=
  let ds := Nat.toDigits 10 d.digits
  let point := if ds.length = 1 then [] else ['.']
  ds.take 1 ++ point ++ ds.drop 1 ++ ['e'] ++ (toString (d.exponent + (ds.length - 1 : Nat))).toList

/-- A decimal in the notation that its size asks for. -/
def Decimal.display (d : Decimal) : List Char :=
  if d.digits = 0 then ['0', '.', '0']
  else
    let leading := d.exponent + ((Nat.toDigits 10 d.digits).length - 1 : Nat)
    if 16 ≤ leading ∨ leading < -4 then d.scientific else d.positional

/-- The text of a floating-point number. -/
def displayFloat (f : FloatFormat) (bits : Nat) : String :=
  let sign := if f.isNegative bits then ['-'] else []
  match f.decode bits with
  | .nan => "NaN"
  | .infinite => String.ofList (sign ++ "inf".toList)
  | .finite 0 _ _ => String.ofList (sign ++ "0.0".toList)
  | .finite m e close => String.ofList (sign ++ (shortest m e close).display)

end Immutability.Text
