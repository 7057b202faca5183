import ObjectBridge.Json.Value
import ObjectBridge.Number.Binary

namespace ObjectBridge.Json

def toText? : Json → Option String
  | .string text => some text
  | _ => none

def toBool? : Json → Option Bool
  | .bool b => some b
  | _ => none

def toList? : Json → Option (List Json)
  | .array items => some items
  | _ => none

-- Only literals without fraction and exponent.
def toInt? : Json → Option Int
  | .number literal => literal.toInt?
  | _ => none

def toNat? (j : Json) : Option Nat := j.toInt?.bind fun n => if 0 ≤ n then some n.toNat else none

def member? (name : String) : Json → Option Json
  | .object members => members.lookup name
  | _ => none

-- The fields of a record, in the order of `names`; absent ones are `none`.
def fields? (names : List String) : Json → Option (List (Option Json))
  | .object members => names.mapM fun name =>
      match members.filter (·.1 = name) with
      | [] => some none
      | [(_, value)] => some (some value)
      | _ => none
  | .array items =>
    if items.length ≤ names.length then
      some (items.map some ++ List.replicate (names.length - items.length) none)
    else none
  | _ => none

def orElse (default : α) (decode : Json → Option α) : Option Json → Option α
  | none => some default
  | some value => decode value

-- A field that may be left out or be `null`.
def nullable (decode : Json → Option α) : Option Json → Option (Option α)
  | none => some none
  | some .null => some none
  | some value => (decode value).map some

-- A literal is read as a whole significand of at most 64 bits and a power of ten. Digits that no
-- longer fit are passed over; the significand is rounded to a double and then multiplied or divided
-- by a power of ten that is rounded too. So a long literal may be one place off the nearest double.
private structure Scaled where
  significand : Nat
  exponent : Int

private def largestWord : Nat := 18446744073709551615

-- Before the point a digit that does not fit still counts as a place.
private def takeWhole (s : Scaled) : List Char → Scaled
  | [] => s
  | c :: rest =>
    let next := s.significand * 10 + (c.toNat - '0'.toNat)
    if s.exponent = 0 ∧ next ≤ largestWord then takeWhole ⟨next, 0⟩ rest
    else takeWhole ⟨s.significand, s.exponent + 1⟩ rest

-- After the point the first digit that does not fit ends the reading.
private def takeFraction (s : Scaled) : List Char → Scaled
  | [] => s
  | c :: rest =>
    let next := s.significand * 10 + (c.toNat - '0'.toNat)
    if next ≤ largestWord then takeFraction ⟨next, s.exponent - 1⟩ rest else s

private def powerOfTen (n : Nat) : Double := .ofInt (Nat.pow 10 n)

private def isInfinite (x : Double) : Bool := x.bits = 0x7ff0000000000000

-- A number too large for the format is refused, one too small becomes zero.
private def scale (x : Double) (exponent : Int) : Nat → Option Double
  | 0 => none
  | tries + 1 =>
    if exponent.natAbs ≤ 308 then
      if 0 ≤ exponent then
        let y := x.mul (powerOfTen exponent.natAbs)
        if isInfinite y then none else some y
      else some (x.div (powerOfTen exponent.natAbs))
    else if x.bits = 0 then some x
    else if 0 ≤ exponent then none
    else scale (x.div (powerOfTen 308)) (exponent + 308) tries

private def exponentLimit : Nat := 2147483647

private def fromParts (negative : Bool) (whole : List Char) (fraction? : Option (List Char))
    (exponent? : Option (Bool × Nat)) : Option Double :=
  let start := takeWhole ⟨0, 0⟩ whole
  let signed (x : Double) := if negative then x.neg else x
  match fraction?, exponent? with
  | none, none =>
    if start.exponent = 0 then
      -- A literal of the machine's integers.
      some (signed (.ofInt start.significand))
    else (scale (.ofInt start.significand) start.exponent 4).map signed
  | _, _ =>
    let s := takeFraction start (fraction?.getD [])
    match exponent? with
    | some (true, n) =>
      if n ≤ exponentLimit then
        -- Four divisions empty any significand.
        (scale (.ofInt s.significand) (max (s.exponent - n) (-3000)) 12).map signed
      else some (signed .zero)
    | some (false, n) =>
      if n ≤ exponentLimit then (scale (.ofInt s.significand) (s.exponent + n) 12).map signed
      else if s.significand = 0 then some (signed .zero)
      else none
    | none => (scale (.ofInt s.significand) (max s.exponent (-3000)) 12).map signed

-- Whole literals count as numbers too.
def toDouble? : Json → Option Double
  | .number literal =>
    let (negative, cs) := match literal.toList with
      | '-' :: rest => (true, rest)
      | cs => (false, cs)
    let whole := cs.takeWhile Char.isDigit
    let rest := cs.dropWhile Char.isDigit
    let (fraction?, rest) := match rest with
      | '.' :: rest => (some (rest.takeWhile Char.isDigit), rest.dropWhile Char.isDigit)
      | rest => (none, rest)
    let exponent? := match rest with
      | _ :: '-' :: digits => some (true, (String.ofList digits).toNat?.getD 0)
      | _ :: '+' :: digits => some (false, (String.ofList digits).toNat?.getD 0)
      | _ :: digits => some (false, (String.ofList digits).toNat?.getD 0)
      | [] => none
    fromParts negative whole fraction? exponent?
  | _ => none

end ObjectBridge.Json
