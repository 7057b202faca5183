namespace ObjectBridge.Text

-- `bad` is a sequence that no continuation can mend, `cut` one that the end of input breaks off.
inductive Utf8Fault where
  | bad (length index : Nat)
  | cut (index : Nat)
  deriving DecidableEq, Repr

def Utf8Fault.message : Utf8Fault → String
  | .bad length index => s!"invalid utf-8 sequence of {length} bytes from index {index}"
  | .cut index => s!"incomplete utf-8 byte sequence from index {index}"

private def isTail (b : UInt8) : Bool := 0x80 ≤ b && b ≤ 0xbf

-- The second byte decides between overlong forms, surrogates, too large code points and the rest.
private def secondFits (first second : UInt8) : Bool :=
  if first = 0xe0 then 0xa0 ≤ second && second ≤ 0xbf
  else if first = 0xed then 0x80 ≤ second && second ≤ 0x9f
  else if first = 0xf0 then 0x90 ≤ second && second ≤ 0xbf
  else if first = 0xf4 then 0x80 ≤ second && second ≤ 0x8f
  else isTail second

-- How many bytes a character takes by its first byte; zero if no character begins so.
private def width (first : UInt8) : Nat :=
  if first < 0x80 then 1
  else if 0xc2 ≤ first && first ≤ 0xdf then 2
  else if 0xe0 ≤ first && first ≤ 0xef then 3
  else if 0xf0 ≤ first && first ≤ 0xf4 then 4
  else 0

-- The first fault of `bytes`, the first of which has the given index.
def utf8Fault (index : Nat) : List UInt8 → Option Utf8Fault
  | [] => none
  | a :: rest =>
    match width a, rest with
    | 0, _ => some (.bad 1 index)
    | 1, rest => utf8Fault (index + 1) rest
    | _, [] => some (.cut index)
    | 2, b :: rest => if isTail b then utf8Fault (index + 2) rest else some (.bad 1 index)
    | 3, b :: rest =>
      if secondFits a b then
        match rest with
        | [] => some (.cut index)
        | c :: rest => if isTail c then utf8Fault (index + 3) rest else some (.bad 2 index)
      else some (.bad 1 index)
    | _, b :: rest =>
      if secondFits a b then
        match rest with
        | [] => some (.cut index)
        | c :: rest =>
          if isTail c then
            match rest with
            | [] => some (.cut index)
            | d :: rest => if isTail d then utf8Fault (index + 4) rest else some (.bad 3 index)
          else some (.bad 2 index)
      else some (.bad 1 index)

def decodeUtf8 (bytes : Array UInt8) : Except Utf8Fault String :=
  match String.fromUTF8? ⟨bytes⟩ with
  | some text => .ok text
  | none => .error ((utf8Fault 0 bytes.toList).getD (.cut bytes.size))

def encodeUtf8 (text : String) : Array UInt8 := text.toUTF8.data

end ObjectBridge.Text
