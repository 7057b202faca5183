import ObjectBridge.Toml.Lexeme
import ObjectBridge.Toml.Table

namespace ObjectBridge.Toml

-- Arrays and inline tables stand less deep in one another than this, and keys have fewer parts.
def nestingLimit : Nat := 80

def isBareKeyChar (c : Char) : Bool := c.isAlphanum || c = '_' || c = '-'

-- Bare, or a string of one line.
def readKeyPart : TextReader String
  | '"' :: rest => (readBasic rest).map fun (text, rest) => (String.ofList text, rest)
  | '\x27' :: rest => (readLiteral rest).map fun (text, rest) => (String.ofList text, rest)
  | cs =>
    match cs.takeWhile isBareKeyChar with
    | [] => none
    | word => some (String.ofList word, cs.dropWhile isBareKeyChar)

def readKeyParts : (limit : Nat) → TextReader (List String)
  | 0, _ => none
  | limit + 1, cs => do
    let (part, rest) ← readKeyPart (skipBlanks cs)
    match skipBlanks rest with
    | '.' :: rest =>
      let (parts, rest) ← readKeyParts limit rest
      return (part :: parts, rest)
    | rest => return ([part], rest)

def readKey : TextReader (List String × String) := fun cs => do
  let (parts, rest) ← readKeyParts (nestingLimit - 1) cs
  return ((parts.dropLast, ← parts.getLast?), rest)

private def isNumberStart (c : Char) : Bool :=
  c.isDigit || c = '+' || c = '-' || c = 'i' || c = 'n'

private def readNumber : TextReader Toml := fun cs =>
  match readMoment cs with
  | some (_, rest) => some (.moment, rest)
  | none =>
    match readFloat cs with
    | some (_, rest) => some (.float, rest)
    | none => (readInt cs).map fun (n, rest) => (.int n, rest)

-- Inline tables are complete at their closing brace.
def inlineTable (pairs : List ((List String × String) × Toml)) : Option Toml := do
  let entries ← pairs.foldlM (fun es pair => Entries.set es pair.1.1 pair.1.2 pair.2) []
  return (Node.table .key entries).toToml

mutual

-- The fuel exceeds the number of nested calls; only `depth` bounds what can be read.
private def readValue : (fuel depth : Nat) → TextReader Toml
  | 0, _, _ => none
  | fuel + 1, depth, cs =>
    match cs with
    | '"' :: _ | '\x27' :: _ => (readString cs).map fun (text, rest) => (.string text, rest)
    | 't' :: 'r' :: 'u' :: 'e' :: rest => some (.bool true, rest)
    | 'f' :: 'a' :: 'l' :: 's' :: 'e' :: rest => some (.bool false, rest)
    | '[' :: rest =>
      match depth with
      | 0 => none
      | depth + 1 => (readItems fuel depth rest).map fun (items, rest) => (.array items, rest)
    | '\x7b' :: rest =>
      match depth with
      | 0 => none
      | depth + 1 => do
        let (pairs, rest) ← match skipBlanks rest with
          | '\x7d' :: rest => some ([], rest)
          | rest => readPairs fuel depth rest
        return (← inlineTable pairs, rest)
    | c :: _ => if isNumberStart c then readNumber cs else none
    | [] => none

-- The last item may have a comma too.
private def readItems : (fuel depth : Nat) → TextReader (List Toml)
  | 0, _, _ => none
  | fuel + 1, depth, cs => do
    match ← skipFiller false cs with
    | ']' :: rest => return ([], rest)
    | cs =>
      let (item, rest) ← readValue fuel depth cs
      match ← skipFiller false rest with
      | ',' :: rest =>
        let (items, rest) ← readItems fuel depth rest
        return (item :: items, rest)
      | ']' :: rest => return ([item], rest)
      | _ => none

private def readPairs : (fuel depth : Nat) → TextReader (List ((List String × String) × Toml))
  | 0, _, _ => none
  | fuel + 1, depth, cs => do
    let (key, rest) ← readKey cs
    let '=' :: rest := rest | none
    let (value, rest) ← readValue fuel depth (skipBlanks rest)
    match skipBlanks rest with
    | ',' :: rest =>
      let (pairs, rest) ← readPairs fuel depth rest
      return ((key, value) :: pairs, rest)
    | '\x7d' :: rest => return ([(key, value)], rest)
    | _ => none

end

inductive Line where
  | table (path : List String) (key : String)
  | element (path : List String) (key : String)
  | pair (path : List String) (key : String) (value : Toml)

def readLine : TextReader Line := fun cs =>
  match cs with
  | '[' :: '[' :: rest => do
    let ((path, key), rest) ← readKey rest
    let ']' :: ']' :: rest := rest | none
    return (.element path key, rest)
  | '[' :: rest => do
    let ((path, key), rest) ← readKey rest
    let ']' :: rest := rest | none
    return (.table path key, rest)
  | cs => do
    let ((path, key), rest) ← readKey cs
    let '=' :: rest := rest | none
    let (value, rest) ← readValue (2 * rest.length + 2) (nestingLimit - 1) (skipBlanks rest)
    return (.pair path key value, rest)

private def readDocument : (fuel : Nat) → List Char → Option (List Line)
  | 0, _ => none
  | fuel + 1, cs =>
    match skipBlanks cs with
    | [] => some []
    | cs =>
      match lineEnd? cs with
      | some rest => readDocument fuel rest
      | none => do
        let (line, rest) ← readLine cs
        return line :: (← readDocument fuel (← lineEnd? rest))

-- The tables that are finished, and the one that the lines at hand define.
inductive Draft where
  | top (entries : Entries)
  | table (finished : Entries) (path : List String) (key : String) (entries : Entries)
  | element (finished : Entries) (path : List String) (key : String) (entries : Entries)

namespace Draft

def finish : Draft → Option Entries
  | .top entries => some entries
  | .table finished path key entries => finished.endTable path key entries
  | .element finished path key entries => finished.endElement path key entries

def add (draft : Draft) : Line → Option Draft
  | .table path key => do
    let (entries, finished) ← (← draft.finish).beginTable path key
    return .table finished path key entries
  | .element path key => do
    return .element (← (← draft.finish).beginElement path key) path key []
  | .pair path key value =>
    match draft with
    | .top entries => return .top (← entries.set path key value)
    | .table finished place name entries =>
      return .table finished place name (← entries.set path key value)
    | .element finished place name entries =>
      return .element finished place name (← entries.set path key value)

end Draft

-- The table that a whole text spells. A byte order mark may stand in front.
def parse? (text : String) : Option Toml := do
  let cs := match text.toList with
    | '\ufeff' :: rest => rest
    | cs => cs
  let lines ← readDocument (cs.length + 1) cs
  let draft ← lines.foldlM Draft.add (.top [])
  return .table (entriesToToml (← draft.finish))

end ObjectBridge.Toml
