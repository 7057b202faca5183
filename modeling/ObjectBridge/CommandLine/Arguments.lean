namespace ObjectBridge.CommandLine

-- An argument is judged when the next one is named, so of two faults the one that is judged first
-- counts.
inductive Refusal where
  | unknownSubcommand
  | missingSubcommand
  | missingArgument
  | unknownArgument
  | repeatedArgument
  | invalidValue
  | unexpectedValue
  | nothingAsked
  | helpAsked
  | versionAsked
  deriving DecidableEq, Repr

inductive ValueRule where
  | path
  | text
  | oneOf (words : List String)

-- No path is empty; any text is a text.
def ValueRule.admits : ValueRule → String → Bool
  | .path, value => !value.isEmpty
  | .text, _ => true
  | .oneOf words, value => words.contains value

inductive OptionEffect where
  | value (rule : ValueRule)
  | flag
  | refuse (reason : Refusal)

structure OptionRule where
  name : String
  letter : Option Char
  effect : OptionEffect

structure Grammar where
  options : List OptionRule
  -- What the words that are no options stand for, in their order.
  places : List (String × ValueRule)
  subcommands : List String

-- An argument that has been named; its value may be still to come.
structure PendingArgument where
  name : String
  rule : ValueRule
  value : Option String

structure Reading where
  given : List (String × String)
  pending : Option PendingArgument
  places : List (String × ValueRule)
  trailing : Bool

namespace Reading

def start (g : Grammar) : Reading := ⟨[], none, g.places, false⟩

def has (r : Reading) (name : String) : Bool := (r.given.lookup name).isSome

def give (r : Reading) (name value : String) : Except Refusal Reading :=
  if r.has name then .error .repeatedArgument
  else .ok { r with given := r.given ++ [(name, value)] }

def settle (r : Reading) : Except Refusal Reading :=
  match r.pending with
  | none => .ok r
  | some ⟨_, _, none⟩ => .error .invalidValue
  | some ⟨name, rule, some value⟩ => do
    let settled ← { r with pending := none }.give name value
    if rule.admits value then return settled else throw .invalidValue

def expect (r : Reading) (argument : PendingArgument) : Except Refusal Reading := do
  return { ← r.settle with pending := some argument }

def awaits (r : Reading) : Bool :=
  match r.pending with
  | some ⟨_, _, none⟩ => !r.trailing
  | _ => false

def mark (r : Reading) (name : String) : Except Refusal Reading := do (← r.settle).give name "true"

def refuse (r : Reading) (reason : Refusal) : Except Refusal Reading := do
  let _ ← r.settle
  throw reason

-- A value that is attached to its option is judged with it.
def expectValue (r : Reading) (name : String) (rule : ValueRule) (attached : Option String) :
    Except Refusal Reading := do
  let named ← r.expect ⟨name, rule, attached⟩
  if attached.isSome then named.settle else return named

def readLong (g : Grammar) (r : Reading) (body : List Char) : Except Refusal Reading :=
  let attached := match body.dropWhile (· ≠ '=') with
    | '=' :: value => some (String.ofList value)
    | _ => none
  match g.options.find? (·.name.toList = body.takeWhile (· ≠ '=')) with
  | none => .error .unknownArgument
  | some option =>
    match option.effect, attached with
    | .value rule, attached => r.expectValue option.name rule attached
    | _, some _ => .error .unexpectedValue
    | .flag, none => r.mark option.name
    | .refuse reason, none => r.refuse reason

-- Options by their letters. After the letter of an option with a value comes the value.
def readLetters (g : Grammar) (r : Reading) : List Char → Except Refusal Reading
  | [] => .ok r
  | letter :: rest =>
    match g.options.find? (·.letter = some letter) with
    | none => .error .unknownArgument
    | some option =>
      match option.effect with
      | .value rule =>
        let attached := match rest with
          | [] => none
          | '=' :: value => some (String.ofList value)
          | value => some (String.ofList value)
        r.expectValue option.name rule attached
      | .flag => do readLetters g (← r.mark option.name) rest
      | .refuse reason => r.refuse reason

-- A word with no place. A subcommand's name where options are over is not taken for the
-- subcommand.
def surplus (g : Grammar) (r : Reading) (word : String) : Refusal :=
  if g.subcommands.isEmpty || (r.trailing && g.subcommands.contains word) then .unknownArgument
  else .unknownSubcommand

def readPlain (g : Grammar) (r : Reading) (word : String) : Except Refusal Reading :=
  match r.awaits, r.pending, r.places with
  | true, some argument, _ => .ok { r with pending := some { argument with value := some word } }
  | _, _, (name, rule) :: places => { r with places }.expect ⟨name, rule, some word⟩
  | _, _, [] => .error (surplus g r word)

-- A single dash is a word like others.
def readWord (g : Grammar) (r : Reading) (word : String) : Except Refusal Reading :=
  match r.trailing, word.toList with
  | false, ['-', '-'] => .ok { r with trailing := true }
  | false, '-' :: '-' :: body => readLong g r body
  | false, '-' :: letter :: letters => readLetters g r (letter :: letters)
  | _, _ => readPlain g r word

-- What stands before a subcommand; then its name and the words after it, if there is one.
def readToSubcommand (g : Grammar) (r : Reading) :
    List String → Except Refusal (Reading × Option (String × List String))
  | [] => .ok (r, none)
  | word :: rest =>
    if !r.trailing && !r.awaits && g.subcommands.contains word then .ok (r, some (word, rest))
    else do readToSubcommand g (← readWord g r word) rest

end Reading

def Grammar.read (g : Grammar) (words : List String) : Except Refusal Reading := do
  (← words.foldlM (Reading.readWord g) (Reading.start g)).settle

end ObjectBridge.CommandLine
