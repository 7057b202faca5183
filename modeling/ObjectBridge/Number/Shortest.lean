import ObjectBridge.Number.Binary

namespace ObjectBridge

-- `digits · 10 ^ exponent`.
structure Decimal where
  digits : Nat
  exponent : Int
  deriving DecidableEq, Repr

namespace Decimal

-- All quantities are scaled to integers: `value`, `below` and `above` are numerators over one
-- denominator for the double and for the ends of its interval.
private structure Interval where
  below : Nat
  value : Nat
  above : Nat
  unit : Nat
  closed : Bool

private def Interval.holds (i : Interval) (n : Nat) : Bool :=
  if i.closed then i.below ≤ n && n ≤ i.above else i.below < n && n < i.above

-- The gap below a power of two is half as wide, except at the smallest numbers.
private def intervalOf (significand : Nat) (exponent : Int) : Interval :=
  let f := BinaryFormat.double
  let up := exponent.toNat
  let unit := 4 * Nat.pow 2 (-exponent).toNat
  let gap := Nat.pow 2 up
  let lower :=
    if significand = Nat.pow 2 f.fractionBits ∧ f.leastExponent < exponent then gap else 2 * gap
  let value := 4 * significand * gap
  ⟨value - lower, value, value + 2 * gap, unit, significand % 2 = 0⟩

-- The nearer of the two neighbours on the grid of multiples of `10 ^ place` that lies inside.
private def candidate? (i : Interval) (place : Int) : Option Nat :=
  let step := i.unit * Nat.pow 10 place.toNat
  let scale := Nat.pow 10 (-place).toNat
  let low := i.value * scale / step
  let inside (n : Nat) : Bool :=
    let scaled : Interval := ⟨i.below * scale, i.value * scale, i.above * scale, i.unit, i.closed⟩
    n ≠ 0 && scaled.holds (n * step)
  let rest := i.value * scale - low * step
  let high := low + 1
  match inside low, inside high with
  | true, true =>
    if 2 * rest < step ∨ (2 * rest = step ∧ low % 2 = 0) then some low else some high
  | true, false => some low
  | false, true => some high
  | false, false => none

-- The decimal place of the first digit, within one.
private def leadingPlace (i : Interval) : Int :=
  let whole := i.value / i.unit
  if whole ≠ 0 then (Nat.toDigits 10 whole).length
  else 1 - (Nat.toDigits 10 (i.unit / i.value)).length

-- Coarse grids first; the seventeenth digit always suffices.
private def search (i : Interval) (place : Int) : Nat → Option Decimal
  | 0 => none
  | tries + 1 =>
    match candidate? i place with
    | some n => some ⟨n, place⟩
    | none => search i (place - 1) tries

-- A candidate with trailing zeros stands on a coarser grid too.
private def trim (d : Decimal) : Nat → Decimal
  | 0 => d
  | tries + 1 => if d.digits % 10 = 0 then trim ⟨d.digits / 10, d.exponent + 1⟩ tries else d

-- The fewest decimal digits that read back as the double; of all decimals with so many the one
-- nearest to it, the even one of two. Zero has the digit zero.
def shortest (significand : Nat) (exponent : Int) : Decimal :=
  if significand = 0 then ⟨0, 0⟩
  else
    let i := intervalOf significand exponent
    trim ((search i (leadingPlace i + 1) 22).getD ⟨0, 0⟩) 20

end Decimal

-- Where a decimal is written with a point and no exponent, and how the rest looks. The bounds are
-- on the exponent of the first digit.
structure DecimalStyle where
  positional : Int → Bool
  wholeMark : String
  plusSign : String

def DecimalStyle.format (style : DecimalStyle) (d : Decimal) : String :=
  let digits := Nat.toDigits 10 d.digits
  let count : Int := digits.length
  let first := d.exponent + count - 1
  let zeros (n : Int) : List Char := List.replicate n.toNat '0'
  if style.positional first then
    if 0 ≤ d.exponent then String.ofList (digits ++ zeros d.exponent) ++ style.wholeMark
    else if 0 ≤ first then
      let split := (first + 1).toNat
      String.ofList (digits.take split ++ '.' :: digits.drop split)
    else String.ofList ('0' :: '.' :: zeros (-first - 1) ++ digits)
  else
    let tail := match digits with
      | [c] => String.ofList [c]
      | c :: rest => String.ofList (c :: '.' :: rest)
      | [] => ""
    let sign := if first < 0 then "-" else style.plusSign
    tail ++ "e" ++ sign ++ toString first.natAbs

end ObjectBridge
