namespace ObjectBridge

inductive Toml where
  | string (value : String)
  | int (value : Int)
  | bool (value : Bool)
  | float
  | moment
  | array (items : List Toml)
  | table (entries : List (String × Toml))
  deriving Inhabited

namespace Toml

def toText? : Toml → Option String
  | .string value => some value
  | _ => none

def toBool? : Toml → Option Bool
  | .bool value => some value
  | _ => none

def toNat? : Toml → Option Nat
  | .int n => if 0 ≤ n then some n.toNat else none
  | _ => none

-- A choice among words: the word itself, or a table that has nothing but an empty entry for it.
def toWord? : Toml → Option String
  | .string word => some word
  | .table [(word, .table [])] | .table [(word, .array [])] => some word
  | _ => none

-- The fields of a record, in the order of `names`; absent ones are `none`. An array gives them in
-- that order, and a date is a record that has none of them.
def fields? (names : List String) : Toml → Option (List (Option Toml))
  | .table entries => some (names.map fun name => entries.lookup name)
  | .array items =>
    some ((items.take names.length).map some ++ List.replicate (names.length - items.length) none)
  | .moment => some (names.map fun _ => none)
  | _ => none

def orElse (default : α) (decode : Toml → Option α) : Option Toml → Option α
  | none => some default
  | some value => decode value

end Toml

end ObjectBridge
