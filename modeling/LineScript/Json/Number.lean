import LineScript.Decimal.Shortest
import LineScript.Text.Basic

/-!
# JSON numbers

An integer that fits into 64 bits, signed or unsigned, is kept as it is; every other number is a
64-bit float. Reading keeps as many leading digits as fit into 64 bits and scales by a power of
ten; a number beyond the largest float is refused. Floats are written with the fewest digits that
read back.
-/

namespace LineScript.Json

/-- A number of a JSON document: an integer from `-2^63` to `2^64 - 1`, or any other number. -/
inductive Number where
  | integer (n : Int)
  | float (f : Float)
deriving Repr, Inhabited

/-! ## Reading -/

/-- Adds digits to a significand while it fits into 64 bits; gives the significand and how many
    digits were added. -/
def absorbDigits (significand count : Nat) : Text → Nat × Nat
  | [] => (significand, count)
  | c :: cs =>
      let next := significand * 10 + (c.toNat - 48)
      if next < Nat.pow 2 64 then absorbDigits next (count + 1) cs else (significand, count)

/-- The float of a power of ten up to 308. -/
def powerOfTen (n : Nat) : Float := Float.ofScientific 1 false n

/-- Scales by a power of ten, in steps that are floats themselves; `none` beyond the largest
    float. -/
def scale? : Nat → Float → Int → Option Float
  | 0, f, _ => some f
  | steps + 1, f, e =>
      if e.natAbs ≤ 308 then
        if 0 ≤ e then
          let g := f * powerOfTen e.natAbs
          if g.isInf then none else some g
        else some (f / powerOfTen e.natAbs)
      else if f == 0.0 then some f
      else if 0 ≤ e then none
      else scale? steps (f / powerOfTen 308) (e + 308)

/-- The parts of a written number: whether there is a minus sign, the digits in front of the point
    and behind it, and the exponent as its sign and its digits. -/
structure Written where
  negative : Bool
  whole : Text
  fraction : Option Text
  exponent : Option (Bool × Text)
deriving DecidableEq, Repr, Inhabited

/-- The value of decimal digits. -/
def digitsValue (t : Text) : Nat := t.foldl (fun n c => n * 10 + (c.toNat - 48)) 0

/-- The float with a significand and a power of ten. -/
def floatOf? (negative : Bool) (significand : Nat) (e : Int) : Option Number :=
  let f := (UInt64.ofNat significand).toFloat
  (scale? (e.natAbs / 308 + 1) f e).map fun g => .float (if negative then -g else g)

/-- The value of a written number; `none` beyond the largest float. -/
def Written.value? (w : Written) : Option Number :=
  let (significand, kept) := absorbDigits 0 0 w.whole
  let dropped : Int := ((w.whole.length - kept : Nat) : Int)
  match w.fraction, w.exponent with
  | none, none =>
      if dropped ≠ 0 then floatOf? w.negative significand dropped
      else if !w.negative then some (.integer significand)
      else if significand = 0 ∨ Nat.pow 2 63 < significand then floatOf? true significand 0
      else some (.integer (-significand))
  | fraction, exponent =>
      let (significand, places) := absorbDigits significand 0 (fraction.getD [])
      let e := dropped - (places : Int)
      match exponent with
      | none => floatOf? w.negative significand e
      | some (below, digits) =>
          let n := digitsValue digits
          if n ≥ Nat.pow 2 31 then
            if significand ≠ 0 ∧ !below then none
            else some (.float (if w.negative then -0.0 else 0.0))
          else floatOf? w.negative significand (if below then e - n else e + n)

/-! ## Writing -/

/-- A finite positive float in its binary form. -/
def binaryOf (f : Float) : Decimal.Binary :=
  let bits : Nat := f.toBits.toNat
  let biased : Nat := bits / Nat.pow 2 52 % Nat.pow 2 11
  let significant : Nat := bits % Nat.pow 2 52
  if biased = 0 then ⟨significant, -1074, false⟩
  else ⟨significant + Nat.pow 2 52, (biased : Int) - 1075, significant = 0 ∧ 1 < biased⟩

/-- Writes a decimal number: positional from `10 ^ -5` to below `10 ^ 16`, with a point and at
    least one digit behind it, and otherwise with one digit in front of the point and a signed
    exponent. -/
def writeScientific (s : Decimal.Scientific) : Text :=
  let digits := Text.dropFinal '0' (Text.ofNat s.digits)
  let leading : Int := s.exponent + (Text.ofNat s.digits).length - 1
  if -5 ≤ leading ∧ leading ≤ 15 then
    if 0 ≤ leading then
      let places := leading.toNat + 1
      let whole := digits.take places ++ List.replicate (places - digits.length) '0'
      let fraction := digits.drop places
      whole ++ ['.'] ++ (if fraction = [] then ['0'] else fraction)
    else ['0', '.'] ++ List.replicate ((-leading).toNat - 1) '0' ++ digits
  else
    let fraction := digits.drop 1
    digits.take 1 ++ (if fraction = [] then [] else '.' :: fraction) ++
      ['e', if 0 ≤ leading then '+' else '-'] ++ Text.ofNat leading.natAbs

/-- Writes a finite float. -/
def writeFloat (f : Float) : Text :=
  let sign := if f.toBits.toNat / Nat.pow 2 63 = 1 then ['-'] else []
  if f == 0.0 then sign ++ "0.0".toList
  else sign ++ writeScientific (Decimal.shortest (binaryOf f))

/-- Writes a number. -/
def Number.write : Number → Text
  | .integer n => (if n < 0 then ['-'] else []) ++ Text.ofNat n.natAbs
  | .float f => writeFloat f

end LineScript.Json
