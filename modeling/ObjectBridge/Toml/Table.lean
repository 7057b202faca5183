import ObjectBridge.Toml.Value

namespace ObjectBridge.Toml

-- How a table came to be: by its own header, through the header of a deeper table, or through a
-- key with points.
inductive Origin where
  | header
  | deeperHeader
  | key
  deriving DecidableEq, Repr

inductive Node where
  | value (value : Toml)
  | table (origin : Origin) (entries : List (String × Node))
  | tables (elements : List (List (String × Node)))

abbrev Entries := List (String × Node)

namespace Entries

def replace (es : Entries) (key : String) (node : Node) : Entries :=
  es.map fun entry => if entry.1 = key then (key, node) else entry

-- Goes down along a path and changes the entries that are there. What is not there yet comes to be
-- with the given origin; `pass` says whether a table of some origin may be entered, and is told whether
-- it is the last one. Of an array of tables the last table is entered.
def descend (origin : Origin) (pass : Origin → Bool → Bool)
    (change : Entries → Option (α × Entries)) : List String → Entries → Option (α × Entries)
  | [], es => change es
  | key :: rest, es =>
    match es.lookup key with
    | none => do
      let (a, inner) ← descend origin pass change rest []
      return (a, es ++ [(key, .table origin inner)])
    | some (.table o inner) =>
      if pass o rest.isEmpty then do
        let (a, inner) ← descend origin pass change rest inner
        return (a, es.replace key (.table o inner))
      else none
    | some (.tables elements) =>
      match elements.getLast? with
      | none => none
      | some inner =>
        if origin = .key && rest.isEmpty then none
        else do
          let (a, inner) ← descend origin pass change rest inner
          return (a, es.replace key (.tables (elements.dropLast ++ [inner])))
    | some (.value _) => none

-- A key may lead through tables that are not defined by a header, and has to end in one that keys
-- have made.
def passKey (o : Origin) (last : Bool) : Bool :=
  match o with
  | .header => false
  | .deeperHeader => !last
  | .key => true

-- Sets a key with points; it must be new.
def set (es : Entries) (path : List String) (key : String) (value : Toml) : Option Entries :=
  let put (es : Entries) : Option (Unit × Entries) :=
    if (es.lookup key).isSome then none else some ((), es ++ [(key, .value value)])
  (es.descend .key passKey put path).map (·.2)

-- A header may lead through any table.
def along (es : Entries) (path : List String) (change : Entries → Option (α × Entries)) :
    Option (α × Entries) :=
  es.descend .deeperHeader (fun _ _ => true) change path

-- Takes a table out to be defined; what deeper headers have put into it stays.
def beginTable (es : Entries) (path : List String) (key : String) : Option (Entries × Entries) :=
  es.along path fun es =>
    match es.lookup key with
    | none => some ([], es)
    | some (.table .deeperHeader inner) => some (inner, es.filter (·.1 ≠ key))
    | some _ => none

def endTable (es : Entries) (path : List String) (key : String) (defined : Entries) :
    Option Entries :=
  (es.along path fun es =>
    if (es.lookup key).isSome then none
    else some ((), es ++ [(key, .table .header defined)])).map (·.2)

def beginElement (es : Entries) (path : List String) (key : String) : Option Entries :=
  (es.along path fun es =>
    match es.lookup key with
    | none => some ((), es ++ [(key, .tables [])])
    | some (.tables _) => some ((), es)
    | some _ => none).map (·.2)

def endElement (es : Entries) (path : List String) (key : String) (defined : Entries) :
    Option Entries :=
  (es.along path fun es =>
    match es.lookup key with
    | none => some ((), es ++ [(key, .tables [defined])])
    | some (.tables elements) => some ((), es.replace key (.tables (elements ++ [defined])))
    | some _ => none).map (·.2)

end Entries

mutual

def Node.toToml : Node → Toml
  | .value v => v
  | .table _ entries => .table (entriesToToml entries)
  | .tables elements => .array (elementsToToml elements)

def entriesToToml : List (String × Node) → List (String × Toml)
  | [] => []
  | (key, node) :: rest => (key, node.toToml) :: entriesToToml rest

def elementsToToml : List (List (String × Node)) → List Toml
  | [] => []
  | entries :: rest => .table (entriesToToml entries) :: elementsToToml rest

end

end ObjectBridge.Toml
