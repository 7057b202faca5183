namespace ObjectBridge.Hex

-- No leading zeros, `0` for zero.
def ofNat (n : Nat) : String := String.ofList (Nat.toDigits 16 n)

-- Addresses and offsets carry the `0x` mark.
def marked (n : Nat) : String := "0x" ++ ofNat n

def padded (width n : Nat) : String :=
  let digits := Nat.toDigits 16 n
  String.ofList (List.replicate (width - digits.length) '0' ++ digits)

def ofBytes (bytes : Array UInt8) : String :=
  String.join (bytes.toList.map fun b => padded 2 b.toNat)

def digit? (c : Char) : Option Nat :=
  if c.isDigit then some (c.toNat - '0'.toNat)
  else if 'a' ≤ c ∧ c ≤ 'f' then some (c.toNat - 'a'.toNat + 10)
  else if 'A' ≤ c ∧ c ≤ 'F' then some (c.toNat - 'A'.toNat + 10)
  else none

-- Fails on the empty text and on any character that is no digit.
def toNat? (text : String) : Option Nat :=
  if text.isEmpty then none
  else text.toList.foldlM (fun n c => (digit? c).map (16 * n + ·)) 0

private def pairs? : List Char → Option (List UInt8)
  | [] => some []
  | [_] => none
  | high :: low :: rest => do
    let h ← digit? high
    let l ← digit? low
    let bytes ← pairs? rest
    return UInt8.ofNat (16 * h + l) :: bytes

def toBytes? (text : String) : Option (Array UInt8) := (pairs? text.toList).map List.toArray

end ObjectBridge.Hex
