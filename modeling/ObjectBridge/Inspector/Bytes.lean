import ObjectBridge.Number.LittleEndian
import ObjectBridge.Text.Utf8

namespace ObjectBridge.Inspector

abbrev Bytes := List UInt8

abbrev ByteWriter (α : Type) := α → Bytes → Bytes

abbrev ByteReader (α : Type) := Bytes → Option (α × Bytes)

def appendNumber (count : Nat) : ByteWriter Nat := fun n out => out ++ littleEndian count n

def readNumber : (count : Nat) → ByteReader Nat
  | 0, bytes => some (0, bytes)
  | _ + 1, [] => none
  | count + 1, low :: bytes => do
    let (high, rest) ← readNumber count bytes
    return (low.toNat + 256 * high, rest)

def appendText : ByteWriter String := fun text out =>
  appendNumber 8 text.utf8ByteSize out ++ (Text.encodeUtf8 text).toList

def readText : ByteReader String := fun bytes => do
  let (length, rest) ← readNumber 8 bytes
  if rest.length < length then none
  else
    let text ← (Text.decodeUtf8 (rest.take length).toArray).toOption
    return (text, rest.drop length)

def appendOption (append : ByteWriter α) : ByteWriter (Option α)
  | none, out => out ++ [0]
  | some a, out => append a (out ++ [1])

def readOption (read : ByteReader α) : ByteReader (Option α)
  | 0 :: rest => some (none, rest)
  | 1 :: rest => do
    let (a, rest) ← read rest
    return (some a, rest)
  | _ => none

end ObjectBridge.Inspector
