import ObjectBridge.Number.IntKind
import ObjectBridge.Text.Hex

namespace ObjectBridge.Toml

abbrev TextReader (α : Type) := List Char → Option (α × List Char)

def isBlank (c : Char) : Bool := c = ' ' || c = '\t'

-- What may stand in comments: no controls but the tab.
def isShown (c : Char) : Bool := c = '\t' || (0x20 ≤ c.toNat && c.toNat ≠ 0x7f)

def skipBlanks (cs : List Char) : List Char := cs.dropWhile isBlank

def skipComment : List Char → List Char
  | '#' :: rest => rest.dropWhile isShown
  | cs => cs

-- The rest of a line that holds nothing more than a comment.
def lineEnd? (cs : List Char) : Option (List Char) :=
  match skipComment (skipBlanks cs) with
  | [] => some []
  | '\n' :: rest => some rest
  | '\r' :: '\n' :: rest => some rest
  | _ => none

-- Blanks, line ends and comments. Inside brackets a comment needs its line end.
def skipFiller : (inComment : Bool) → List Char → Option (List Char)
  | _, '\n' :: rest => skipFiller false rest
  | _, '\r' :: '\n' :: rest => skipFiller false rest
  | false, c :: rest =>
    if isBlank c then skipFiller false rest
    else if c = '#' then skipFiller true rest
    else some (c :: rest)
  | true, c :: rest => if isShown c then skipFiller true rest else none
  | false, [] => some []
  | true, [] => none

def scalar? (digits : List Char) : Option Char := do
  let n ← Hex.toNat? (String.ofList digits)
  if n < 0xd800 ∨ (0xdfff < n ∧ n ≤ 0x10ffff) then some (Char.ofNat n) else none

def readScalar (count : Nat) : TextReader Char := fun cs =>
  if cs.length < count then none else (scalar? (cs.take count)).map (·, cs.drop count)

theorem length_readScalar_le {count : Nat} {cs rest : List Char} {c : Char}
    (h : readScalar count cs = some (c, rest)) : rest.length ≤ cs.length := by
  simp only [readScalar, Option.ite_none_left_eq_some, Option.map_eq_some_iff, Prod.mk.injEq] at h
  obtain ⟨-, -, -, -, rfl⟩ := h
  simp

def readEscape : TextReader Char
  | 'b' :: rest => some ('\x08', rest)
  | 't' :: rest => some ('\t', rest)
  | 'n' :: rest => some ('\n', rest)
  | 'f' :: rest => some ('\x0c', rest)
  | 'r' :: rest => some ('\r', rest)
  | '"' :: rest => some ('"', rest)
  | '\\' :: rest => some ('\\', rest)
  | 'u' :: rest => readScalar 4 rest
  | 'U' :: rest => readScalar 8 rest
  | _ => none

theorem length_readEscape_lt {cs rest : List Char} {c : Char}
    (h : readEscape cs = some (c, rest)) : rest.length < cs.length := by
  unfold readEscape at h
  split at h <;> grind [→ length_readScalar_le]

-- The text up to the closing quote, with escapes.
def readBasic : TextReader (List Char)
  | [] => none
  | '"' :: rest => some ([], rest)
  | '\\' :: rest =>
    match _escape : readEscape rest with
    | none => none
    | some (c, rest) => do
      let (text, rest) ← readBasic rest
      return (c :: text, rest)
  | c :: rest =>
    if isShown c then do
      let (text, rest) ← readBasic rest
      return (c :: text, rest)
    else none
  termination_by cs => cs.length
  decreasing_by
    all_goals grind [→ length_readEscape_lt]

-- The text up to the closing apostrophe, as it stands.
def readLiteral : TextReader (List Char)
  | [] => none
  | '\x27' :: rest => some ([], rest)
  | c :: rest =>
    if isShown c then do
      let (text, rest) ← readLiteral rest
      return (c :: text, rest)
    else none

-- Up to two quotes may stand directly before the three that close a text of several lines.
def closing (quote : Char) : TextReader (List Char) := fun cs =>
  match cs with
  | a :: b :: rest =>
    if a = quote then if b = quote then some ([a, b], rest) else some ([a], b :: rest)
    else some ([], cs)
  | [a] => if a = quote then some ([a], []) else some ([], cs)
  | [] => some ([], [])

-- Whether a backslash stands at the end of its line, blanks apart.
def endsLine (cs : List Char) : Bool :=
  match skipBlanks cs with
  | '\n' :: _ => true
  | '\r' :: '\n' :: _ => true
  | _ => false

-- The text up to three quotes. A backslash at the end of a line takes away all white space up to
-- the next character; `joining` is the state of doing so.
def readLines (joining : Bool) : TextReader (List Char)
  | [] => none
  | '\n' :: rest =>
    if joining then readLines true rest
    else do
      let (text, rest) ← readLines false rest
      return ('\n' :: text, rest)
  | '\r' :: '\n' :: rest =>
    if joining then readLines true rest
    else do
      let (text, rest) ← readLines false rest
      return ('\n' :: text, rest)
  | '"' :: '"' :: '"' :: rest => closing '"' rest
  | '\\' :: rest =>
    if endsLine rest then readLines true rest
    else
      match _escape : readEscape rest with
      | none => none
      | some (c, rest) => do
        let (text, rest) ← readLines false rest
        return (c :: text, rest)
  | c :: rest =>
    if joining && isBlank c then readLines true rest
    else if isShown c then do
      let (text, rest) ← readLines false rest
      return (c :: text, rest)
    else none
  termination_by cs => cs.length
  decreasing_by
    all_goals grind [→ length_readEscape_lt]

-- The text up to three apostrophes, as it stands.
def readLiteralLines : TextReader (List Char)
  | [] => none
  | '\x27' :: '\x27' :: '\x27' :: rest => closing '\x27' rest
  | '\r' :: '\n' :: rest => do
    let (text, rest) ← readLiteralLines rest
    return ('\n' :: text, rest)
  | c :: rest =>
    if isShown c || c = '\n' then do
      let (text, rest) ← readLiteralLines rest
      return (c :: text, rest)
    else none

-- A line end directly after the opening quotes does not count.
def skipFirstLineEnd : List Char → List Char
  | '\n' :: rest => rest
  | '\r' :: '\n' :: rest => rest
  | cs => cs

def readString : TextReader String
  | '"' :: '"' :: '"' :: rest => pack (readLines false (skipFirstLineEnd rest))
  | '"' :: rest => pack (readBasic rest)
  | '\x27' :: '\x27' :: '\x27' :: rest => pack (readLiteralLines (skipFirstLineEnd rest))
  | '\x27' :: rest => pack (readLiteral rest)
  | _ => none
where
  pack (read : Option (List Char × List Char)) : Option (String × List Char) :=
    read.map fun (text, rest) => (String.ofList text, rest)

def readDigits (isDigit : Char → Bool) : TextReader (List Char)
  | c :: '_' :: d :: rest =>
    if isDigit c && isDigit d then do
      let (digits, rest) ← readDigits isDigit (d :: rest)
      return (c :: digits, rest)
    else if isDigit c then some ([c], '_' :: d :: rest)
    else none
  | c :: rest =>
    if isDigit c then
      match readDigits isDigit rest with
      | some (digits, rest) => some (c :: digits, rest)
      | none => some ([c], rest)
    else none
  | [] => none

def digitsValue (base : Nat) (digits : List Char) : Nat :=
  digits.foldl (fun n c => base * n + (Hex.digit? c).getD 0) 0

-- A whole number in decimal: no leading zeros.
def readWhole : TextReader (Bool × Nat) := fun cs => do
  let (negative, cs) := match cs with
    | '+' :: rest => (false, rest)
    | '-' :: rest => (true, rest)
    | cs => (false, cs)
  match cs with
  | '0' :: rest => return ((negative, 0), rest)
  | cs =>
    let (digits, rest) ← readDigits Char.isDigit cs
    return ((negative, digitsValue 10 digits), rest)

def fitsWord (n : Int) : Option Int :=
  if IntKind.i64.holds n then some n else none

-- Whole numbers have 64 bits and a sign; only decimal ones are written with a sign.
def readInt : TextReader Int := fun cs =>
  let based (base : Nat) (isDigit : Char → Bool) (rest : List Char) : Option (Int × List Char) := do
    let (digits, rest) ← readDigits isDigit rest
    return (← fitsWord (digitsValue base digits), rest)
  match cs with
  | '0' :: 'x' :: rest => based 16 (fun c => (Hex.digit? c).isSome) rest
  | '0' :: 'o' :: rest => based 8 (fun c => '0' ≤ c && c ≤ '7') rest
  | '0' :: 'b' :: rest => based 2 (fun c => c = '0' || c = '1') rest
  | cs => do
    let ((negative, n), rest) ← readWhole cs
    return (← fitsWord (if negative then -(n : Int) else n), rest)

-- Digits of a fraction or an exponent: zeros may lead.
def readExponent : TextReader Int
  | e :: rest => do
    if e ≠ 'e' ∧ e ≠ 'E' then none
    else
      let (negative, rest) := match rest with
        | '+' :: rest => (false, rest)
        | '-' :: rest => (true, rest)
        | rest => (false, rest)
      let (digits, rest) ← readDigits Char.isDigit rest
      let n : Int := digitsValue 10 digits
      return (if negative then -n else n, rest)
  | [] => none

-- Half a unit above the largest double: from there on a number is too large.
def overflowBound : Nat := Nat.pow 2 1024 - Nat.pow 2 970

-- Whether `significand · 10 ^ exponent` is too large for a double.
def overflows (significand : Nat) (exponent : Int) : Bool :=
  if significand = 0 then false
  else
    let first := exponent + (Nat.toDigits 10 significand).length
    if first < 300 then false
    else if 320 < first then true
    else
      overflowBound * Nat.pow 10 (-exponent).toNat ≤ significand * Nat.pow 10 exponent.toNat

-- A number with a fraction or an exponent; only a positive one can be too large.
def readFinite : TextReader Unit := fun cs => do
  let ((negative, whole), cs) ← readWhole cs
  let (fraction, cs) ← match cs with
    | '.' :: rest => (readDigits Char.isDigit rest).map fun (digits, rest) => (some digits, rest)
    | cs => some (none, cs)
  let digits := fraction.getD []
  let significand := whole * Nat.pow 10 digits.length + digitsValue 10 digits
  let places : Int := digits.length
  match readExponent cs, fraction with
  | some (exponent, rest), _ =>
    if !negative && overflows significand (exponent - places) then none else some ((), rest)
  | none, some _ =>
    match cs with
    | 'e' :: _ | 'E' :: _ => none
    | _ => if !negative && overflows significand (-places) then none else some ((), cs)
  | none, none => none

def readFloat : TextReader Unit := fun cs =>
  match readFinite cs with
  | some r => some r
  | none =>
    let cs := match cs with
      | '+' :: rest | '-' :: rest => rest
      | cs => cs
    match cs with
    | 'i' :: 'n' :: 'f' :: rest | 'n' :: 'a' :: 'n' :: rest => some ((), rest)
    | _ => none

def readPair (least greatest : Nat) : TextReader Nat
  | a :: b :: rest =>
    if a.isDigit && b.isDigit then
      let n := digitsValue 10 [a, b]
      if least ≤ n ∧ n ≤ greatest then some (n, rest) else none
    else none
  | _ => none

def readMark (mark : Char) : TextReader Unit
  | c :: rest => if c = mark then some ((), rest) else none
  | [] => none

def daysIn (year month : Nat) : Nat :=
  if month = 2 then if year % 4 = 0 ∧ (year % 100 ≠ 0 ∨ year % 400 = 0) then 29 else 28
  else if month = 4 ∨ month = 6 ∨ month = 9 ∨ month = 11 then 30
  else 31

def readDate : TextReader Unit
  | a :: b :: c :: d :: '-' :: rest => do
    if [a, b, c, d].all Char.isDigit then
      let (month, rest) ← readPair 1 12 rest
      let (_, rest) ← readMark '-' rest
      let (_, rest) ← readPair 1 (daysIn (digitsValue 10 [a, b, c, d]) month) rest
      return ((), rest)
    else none
  | _ => none

-- A minute may have a leap second.
def readTime : TextReader Unit := fun cs => do
  let (_, cs) ← readPair 0 23 cs
  let (_, cs) ← readMark ':' cs
  let (_, cs) ← readPair 0 59 cs
  let (_, cs) ← readMark ':' cs
  let (_, cs) ← readPair 0 60 cs
  match cs with
  | '.' :: rest =>
    if (rest.takeWhile Char.isDigit).isEmpty then none
    else return ((), rest.dropWhile Char.isDigit)
  | cs => return ((), cs)

def readOffset : TextReader Unit := fun cs =>
  let hours (rest : List Char) : Option (Unit × List Char) := do
    let (_, rest) ← readPair 0 23 rest
    let (_, rest) ← readMark ':' rest
    let (_, rest) ← readPair 0 59 rest
    return ((), rest)
  match cs with
  | 'Z' :: rest | 'z' :: rest => some ((), rest)
  | '+' :: rest | '-' :: rest => hours rest
  | cs => some ((), cs)

def readMoment : TextReader Unit := fun cs =>
  match readDate cs with
  | none => readTime cs
  | some (_, rest) =>
    let timed : Option (Unit × List Char) := match rest with
      | 'T' :: rest | 't' :: rest | ' ' :: rest => do
        let (_, rest) ← readTime rest
        readOffset rest
      | _ => none
    match timed with
    | some r => some r
    | none => some ((), rest)

end ObjectBridge.Toml
