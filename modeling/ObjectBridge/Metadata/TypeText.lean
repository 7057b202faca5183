import ObjectBridge.Metadata.TypeExpr
import ObjectBridge.Text.Blank

namespace ObjectBridge

-- A text is cut into tokens, which are read by the grammar
--   type ::= scalar | id | id < word > | struct < word > | block < type ( [type {, type}] ) >
-- A fault is placed at the token where reading stopped, or at the end of the text.
abbrev TypeRef := TypeExpr String

inductive TypeFault where
  | expectedName
  | expectedMark (mark : Char)
  | trailing
  deriving DecidableEq, Repr

def TypeFault.message : TypeFault → String
  | .expectedName => "expected a type name"
  | .expectedMark mark => "expected '" ++ mark.toString ++ "'"
  | .trailing => "unexpected trailing input"

-- Columns count bytes and begin at one.
inductive TypeTextError where
  | malformed (fault : TypeFault) (column : Nat)
  | unknownWord (word : String)
  deriving DecidableEq, Repr

namespace TypeText

inductive Token where
  | word (text : String) (start : Nat)
  | mark (c : Char) (start : Nat)
  deriving DecidableEq, Repr

def Token.start : Token → Nat
  | .word _ start => start
  | .mark _ start => start

def isWordChar (c : Char) : Bool := c.isAlphanum || c = '_'

def byteLength (cs : List Char) : Nat := (cs.map Char.utf8Size).foldr (· + ·) 0

def tokens (start : Nat) : List Char → List Token
  | [] => []
  | c :: rest =>
    if Text.isBlank c then tokens (start + c.utf8Size) rest
    else if isWordChar c then
      let tail := rest.takeWhile isWordChar
      .word (String.ofList (c :: tail)) start
        :: tokens (start + byteLength (c :: tail)) (rest.dropWhile isWordChar)
    else .mark c start :: tokens (start + c.utf8Size) rest
  termination_by cs => cs.length
  decreasing_by
    · simp
    · have := (List.dropWhile_sublist (p := isWordChar) (l := rest)).length_le
      simp only [List.length_cons]
      omega
    · simp

-- What is left of `ts` after at least one token.
abbrev Rest (ts : List Token) := { rest : List Token // rest.length < ts.length }

private def Rest.weaken {ts us : List Token} (rest : Rest us) (h : us.length < ts.length) :
    Rest ts := ⟨rest.val, Nat.lt_trans rest.property h⟩

-- The column of the next token of a text that ends at byte `stop`.
def column (stop : Nat) : List Token → Nat
  | [] => stop + 1
  | t :: _ => t.start + 1

def readMark (stop : Nat) (mark : Char) (ts : List Token) : Except TypeTextError (Rest ts) :=
  match ts with
  | .mark c start :: rest =>
    if c = mark then .ok ⟨rest, by simp⟩
    else .error (.malformed (.expectedMark mark) (column stop (.mark c start :: rest)))
  | ts => .error (.malformed (.expectedMark mark) (column stop ts))

def readWord (stop : Nat) (ts : List Token) : Except TypeTextError (String × Rest ts) :=
  match ts with
  | .word text _ :: rest => .ok (text, ⟨rest, by simp⟩)
  | ts => .error (.malformed .expectedName (column stop ts))

def readTarget (stop : Nat) (ts : List Token) : Except TypeTextError (String × Rest ts) := do
  let ⟨ts₁, h₁⟩ ← readMark stop '<' ts
  let (name, ⟨ts₂, h₂⟩) ← readWord stop ts₁
  let ⟨ts₃, h₃⟩ ← readMark stop '>' ts₂
  return (name, ⟨ts₃, by omega⟩)

def opensWith (mark : Char) : List Token → Bool
  | .mark c _ :: _ => c = mark
  | _ => false

mutual

def readType (stop : Nat) (ts : List Token) : Except TypeTextError (TypeRef × Rest ts) :=
  match readWord stop ts with
  | .error e => .error e
  | .ok (word, ⟨ts₁, h₁⟩) =>
    match Scalar.ofName? word with
    | some s => .ok (.scalar s, ⟨ts₁, h₁⟩)
    | none =>
      if word = "id" then
        if opensWith '<' ts₁ then
          match readTarget stop ts₁ with
          | .error e => .error e
          | .ok (name, rest) => .ok (.object (some name), rest.weaken h₁)
        else .ok (.object none, ⟨ts₁, h₁⟩)
      else if word = "struct" then
        match readTarget stop ts₁ with
        | .error e => .error e
        | .ok (name, rest) => .ok (.struct name, rest.weaken h₁)
      else if word = "block" then
        match readMark stop '<' ts₁ with
        | .error e => .error e
        | .ok ⟨ts₂, h₂⟩ =>
          match readType stop ts₂ with
          | .error e => .error e
          | .ok (result, ⟨ts₃, h₃⟩) =>
            match readMark stop '(' ts₃ with
            | .error e => .error e
            | .ok ⟨ts₄, h₄⟩ =>
              match readParams stop ts₄ with
              | .error e => .error e
              | .ok (params, ⟨ts₅, h₅⟩) =>
                match readMark stop '>' ts₅ with
                | .error e => .error e
                | .ok ⟨ts₆, h₆⟩ => .ok (.block result params, ⟨ts₆, by omega⟩)
      else .error (.unknownWord word)
  termination_by (ts.length, 0)

-- What stands after an opening parenthesis, through the closing one.
def readParams (stop : Nat) (ts : List Token) :
    Except TypeTextError (List TypeRef × Rest ts) :=
  if opensWith ')' ts then
    match readMark stop ')' ts with
    | .error e => .error e
    | .ok rest => .ok ([], rest)
  else readItems stop ts
  termination_by (ts.length, 2)

-- One or more types, separated by commas and closed by a parenthesis.
def readItems (stop : Nat) (ts : List Token) :
    Except TypeTextError (List TypeRef × Rest ts) :=
  match readType stop ts with
  | .error e => .error e
  | .ok (first, ⟨ts₁, h₁⟩) =>
    if opensWith ')' ts₁ then
      match readMark stop ')' ts₁ with
      | .error e => .error e
      | .ok rest => .ok ([first], rest.weaken h₁)
    else
      match readMark stop ',' ts₁ with
      | .error e => .error e
      | .ok ⟨ts₂, h₂⟩ =>
        match readItems stop ts₂ with
        | .error e => .error e
        | .ok (others, ⟨ts₃, h₃⟩) => .ok (first :: others, ⟨ts₃, by omega⟩)
  termination_by (ts.length, 1)

end

end TypeText

def TypeRef.parse (text : String) : Except TypeTextError TypeRef :=
  let ts := TypeText.tokens 0 text.toList
  match TypeText.readType text.utf8ByteSize ts with
  | .error e => .error e
  | .ok (ty, ⟨[], _⟩) => .ok ty
  | .ok (_, ⟨rest, _⟩) =>
    .error (.malformed .trailing (TypeText.column text.utf8ByteSize rest))

end ObjectBridge
