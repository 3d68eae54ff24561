/-!
# The fewest digits that read back

A binary floating point number stands for every real that rounds to it. `shortest` gives the
decimal with the fewest digits among these reals, and of several the one nearest to the number;
an exact tie goes to the even digit. All arithmetic is on natural numbers.
-/

namespace LineScript.Decimal

/-- A positive binary floating point number `mantissa * 2 ^ exponent`, and whether the next smaller
    number is only half as far away as the next larger one. -/
structure Binary where
  mantissa : Nat
  exponent : Int
  narrowBelow : Bool
deriving DecidableEq, Repr, Inhabited

/-- A decimal number `digits * 10 ^ exponent`. -/
structure Scientific where
  digits : Nat
  exponent : Int
deriving DecidableEq, Repr, Inhabited

/-- A fraction. -/
structure Ratio where
  num : Nat
  den : Nat
deriving DecidableEq, Repr, Inhabited

/-- A power with a possibly negative exponent. -/
def power (base : Nat) (e : Int) : Ratio :=
  if 0 ≤ e then ⟨base.pow e.toNat, 1⟩ else ⟨1, base.pow (-e).toNat⟩

/-- Whether the first fraction is at most the second. -/
def Ratio.le (a b : Ratio) : Bool := a.num * b.den ≤ b.num * a.den

/-- Whether the first fraction is less than the second. -/
def Ratio.lt (a b : Ratio) : Bool := a.num * b.den < b.num * a.den

/-- A multiple of a fraction. -/
def Ratio.times (n : Nat) (a : Ratio) : Ratio := ⟨n * a.num, a.den⟩

namespace Binary

/-- A quarter of the distance to the next larger number. -/
def quarter (b : Binary) : Ratio := power 2 (b.exponent - 2)

/-- The number itself. -/
def value (b : Binary) : Ratio := b.quarter.times (4 * b.mantissa)

/-- The least real that may round to the number. -/
def lower (b : Binary) : Ratio := b.quarter.times (4 * b.mantissa - if b.narrowBelow then 1 else 2)

/-- The greatest real that may round to the number. -/
def upper (b : Binary) : Ratio := b.quarter.times (4 * b.mantissa + 2)

/-- Whether a real rounds to the number; the ends belong to it when the mantissa is even. -/
def holds (b : Binary) (r : Ratio) : Bool :=
  if b.mantissa % 2 = 0 then b.lower.le r && r.le b.upper else b.lower.lt r && r.lt b.upper

end Binary

/-- The least `k` with `r < 10 ^ k`, for a positive fraction. -/
def magnitude (r : Ratio) : Int :=
  if r.den ≤ r.num then ((Nat.toDigits 10 (r.num / r.den)).length : Int)
  else
    let k : Int := 1 - ((Nat.toDigits 10 (r.den / r.num)).length : Int)
    if r.lt (power 10 k) then k else k + 1

/-- The decimal on a grid of powers of ten that rounds to the number and is nearest to it. -/
def onGrid? (b : Binary) (e : Int) : Option Scientific :=
  let unit := power 10 e
  let below := (b.value.num * unit.den) / (b.value.den * unit.num)
  let lowHits := b.holds (unit.times below)
  let highHits := b.holds (unit.times (below + 1))
  let middle : Ratio := ⟨(2 * below + 1) * unit.num, 2 * unit.den⟩
  if lowHits && highHits then
    if b.value.lt middle then some ⟨below, e⟩
    else if middle.lt b.value then some ⟨below + 1, e⟩
    else some ⟨if below % 2 = 0 then below else below + 1, e⟩
  else if lowHits then some ⟨below, e⟩
  else if highHits then some ⟨below + 1, e⟩
  else none

/-- The first hit on grids that get finer from `e` downwards. -/
def firstHit (b : Binary) : Nat → Int → Scientific
  | 0, e => ⟨(b.value.num * (power 10 e).den) / (b.value.den * (power 10 e).num), e⟩
  | more + 1, e => (onGrid? b e).getD (firstHit b more (e - 1))

/-- The shortest decimal that rounds to a positive number; 17 digits always do. -/
def shortest (b : Binary) : Scientific := firstHit b 17 (magnitude b.value - 1)

end LineScript.Decimal
