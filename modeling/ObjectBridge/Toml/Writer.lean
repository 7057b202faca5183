import ObjectBridge.Text.Hex

namespace ObjectBridge.Toml

-- How a string is delimited, whether it knows escapes, and how many quotes may follow one another
-- in it.
structure StringForm where
  delimiter : String
  escapes : Bool
  severalLines : Bool
  quotes : Nat

def basicForm : StringForm := ⟨"\"", true, false, 0⟩

def literalForm : StringForm := ⟨"\x27", false, false, 0⟩

def basicLinesForm : StringForm := ⟨"\"\"\"", true, true, 2⟩

def literalLinesForm : StringForm := ⟨"\x27\x27\x27", false, true, 0⟩

def longestRun (c : Char) (cs : List Char) : Nat :=
  let step (best run : Nat) (x : Char) : Nat × Nat :=
    if x = c then (max best (run + 1), run + 1) else (best, 0)
  (cs.foldl (fun acc x => step acc.1 acc.2 x) (0, 0)).1

-- Controls apart from tabs and line ends; no form shows them.
def isHidden (c : Char) : Bool := (c.toNat < 0x20 && c ≠ '\t' && c ≠ '\n') || c.toNat = 0x7f

def formOf (cs : List Char) : StringForm :=
  let hidden := cs.any isHidden
  let lines := cs.contains '\n'
  let backslash := cs.contains '\\'
  let quotes := longestRun '"' cs
  let apostrophes := longestRun '\x27' cs
  if !hidden && !backslash && !lines && quotes = 0 then basicForm
  else if !hidden && !lines && apostrophes = 0 then literalForm
  else if !hidden && !backslash && quotes ≤ 2 then basicLinesForm
  else if !hidden && apostrophes ≤ 2 then literalLinesForm
  else if lines then basicLinesForm
  else basicForm

-- Tabs are escaped, too; so is the first quote that is one too many in its run.
def escape (form : StringForm) (run : Nat) : List Char → List String
  | [] => []
  | '"' :: rest =>
    if form.quotes < run + 1 then "\\\"" :: escape form 0 rest
    else "\"" :: escape form (run + 1) rest
  | c :: rest =>
    let written :=
      if c = '\x08' then "\\b"
      else if c = '\t' then "\\t"
      else if c = '\n' then if form.severalLines then "\n" else "\\n"
      else if c = '\x0c' then "\\f"
      else if c = '\r' then "\\r"
      else if c = '\\' then "\\\\"
      else if c.toNat < 0x20 ∨ c.toNat = 0x7f then
        "\\u" ++ (Hex.padded 4 c.toNat).map Char.toUpper
      else c.toString
    written :: escape form 0 rest

def stringText (text : String) : String :=
  let cs := text.toList
  let form := formOf cs
  let opening := if form.severalLines && cs.contains '\n' then "\n" else ""
  let body := if form.escapes then String.join (escape form 0 cs) else text
  form.delimiter ++ opening ++ body ++ form.delimiter

end ObjectBridge.Toml
