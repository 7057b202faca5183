namespace ObjectBridge

-- A sign bit, `exponentBits` bits of biased exponent and `fractionBits` bits of fraction.
structure BinaryFormat where
  fractionBits : Nat
  exponentBits : Nat

namespace BinaryFormat

def double : BinaryFormat := ⟨52, 11⟩

def single : BinaryFormat := ⟨23, 8⟩

def bias (f : BinaryFormat) : Nat := Nat.pow 2 (f.exponentBits - 1) - 1

-- Exponent of the last place of the smallest numbers.
def leastExponent (f : BinaryFormat) : Int := 1 - f.bias - f.fractionBits

-- The magnitude bits of infinity; larger magnitudes are no numbers.
def infinityBits (f : BinaryFormat) : Nat :=
  (Nat.pow 2 f.exponentBits - 1) * Nat.pow 2 f.fractionBits

def signBit (f : BinaryFormat) : Nat := Nat.pow 2 (f.exponentBits + f.fractionBits)

end BinaryFormat

inductive Dyadic where
  | nan
  | infinite (negative : Bool)
  | finite (negative : Bool) (significand : Nat) (exponent : Int)
  deriving DecidableEq, Repr

namespace BinaryFormat

def decode (f : BinaryFormat) (bits : Nat) : Dyadic :=
  let negative := f.signBit ≤ bits
  let magnitude := bits % f.signBit
  let biased := magnitude / Nat.pow 2 f.fractionBits
  let fraction := magnitude % Nat.pow 2 f.fractionBits
  if magnitude = f.infinityBits then .infinite negative
  else if f.infinityBits < magnitude then .nan
  else if biased = 0 then .finite negative fraction f.leastExponent
  else .finite negative (Nat.pow 2 f.fractionBits + fraction) (f.leastExponent + (biased - 1 : Nat))

-- `n / 2 ^ places` to the nearest integer, a half to the even neighbour.
def shiftHalfEven (n places : Nat) : Nat :=
  let unit := Nat.pow 2 places
  let quotient := n / unit
  let twice := 2 * (n % unit)
  if unit < twice ∨ (twice = unit ∧ quotient % 2 = 1) then quotient + 1 else quotient

-- Magnitude bits nearest to `significand · 2 ^ exponent`. A significand that rounds up to the next
-- power of two carries into the exponent field by itself, and past the largest number into infinity.
def nearest (f : BinaryFormat) (significand : Nat) (exponent : Int) : Nat :=
  if significand = 0 then 0
  else
    let last := max f.leastExponent (exponent + significand.log2 - f.fractionBits)
    let rounded :=
      if last ≤ exponent then significand * Nat.pow 2 (exponent - last).toNat
      else shiftHalfEven significand (last - exponent).toNat
    min f.infinityBits ((last - f.leastExponent).toNat * Nat.pow 2 f.fractionBits + rounded)

def encode (f : BinaryFormat) : Dyadic → Nat
  | .nan => f.infinityBits + Nat.pow 2 (f.fractionBits - 1)
  | .infinite negative => (if negative then f.signBit else 0) + f.infinityBits
  | .finite negative significand exponent =>
    (if negative then f.signBit else 0) + f.nearest significand exponent

end BinaryFormat

def Dyadic.toInt? : Dyadic → Option Int
  | .finite negative significand exponent =>
    let magnitude? :=
      if 0 ≤ exponent then some (significand * Nat.pow 2 exponent.toNat)
      else if significand % Nat.pow 2 (-exponent).toNat = 0 then
        some (significand / Nat.pow 2 (-exponent).toNat)
      else none
    magnitude?.map fun n : Nat => if negative then -(n : Int) else n
  | _ => none

def Dyadic.ofInt (n : Int) : Dyadic := .finite (n < 0) n.natAbs 0

-- Scripting numbers and native doubles.
structure Double where
  bits : UInt64
  deriving DecidableEq, Repr

-- Native single-precision slots.
structure Single where
  bits : UInt32
  deriving DecidableEq, Repr

namespace Double

def toDyadic (x : Double) : Dyadic := BinaryFormat.double.decode x.bits.toNat

def ofDyadic (d : Dyadic) : Double := ⟨UInt64.ofNat (BinaryFormat.double.encode d)⟩

-- Rounds where the integer needs more than 53 bits.
def ofInt (n : Int) : Double := ofDyadic (.ofInt n)

-- Fails on fractions, infinities and no number.
def toInt? (x : Double) : Option Int := x.toDyadic.toInt?

def zero : Double := ⟨0⟩

def isNaN (x : Double) : Bool := x.toDyadic = .nan

def isNegative (x : Double) : Bool := 0x8000000000000000 ≤ x.bits

private def magnitude (x : Double) : UInt64 := x.bits &&& 0x7fffffffffffffff

-- Numerical equality: both zeros are equal and no NaN is.
def same (x y : Double) : Bool :=
  !x.isNaN && !y.isNaN && (x = y || (x.magnitude = 0 && y.magnitude = 0))

def isBelowZero (x : Double) : Bool := !x.isNaN && x.isNegative && x.magnitude ≠ 0

def add (x y : Double) : Double := ⟨(Float.ofBits x.bits + Float.ofBits y.bits).toBits⟩

def mul (x y : Double) : Double := ⟨(Float.ofBits x.bits * Float.ofBits y.bits).toBits⟩

def div (x y : Double) : Double := ⟨(Float.ofBits x.bits / Float.ofBits y.bits).toBits⟩

def neg (x : Double) : Double := ⟨x.bits ^^^ 0x8000000000000000⟩

instance : Add Double := ⟨add⟩

end Double

namespace Single

def toDyadic (x : Single) : Dyadic := BinaryFormat.single.decode x.bits.toNat

def ofDyadic (d : Dyadic) : Single := ⟨UInt32.ofNat (BinaryFormat.single.encode d)⟩

def zero : Single := ⟨0⟩

def isNaN (x : Single) : Bool := x.toDyadic = .nan

def same (x y : Single) : Bool :=
  !x.isNaN && !y.isNaN && (x = y || (x.bits &&& 0x7fffffff = 0 && y.bits &&& 0x7fffffff = 0))

def toDouble (x : Single) : Double := .ofDyadic x.toDyadic

def largest : Single := ⟨0x7f7fffff⟩

end Single

namespace Double

-- Rounds; what is too large for the format becomes infinite.
def toSingle (x : Double) : Single := .ofDyadic x.toDyadic

def exceedsSingle (x : Double) : Bool :=
  match x.toDyadic with
  | .finite _ _ _ => Single.largest.toDouble.bits < x.magnitude
  | _ => false

end Double

end ObjectBridge
