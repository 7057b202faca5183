import ObjectBridge.Text.Hex
import ObjectBridge.Text.Unprintable

namespace ObjectBridge.Text

-- Inside a text an apostrophe stands as it is; in a file path it is escaped.
structure QuoteStyle where
  escapesApostrophe : Bool

def textStyle : QuoteStyle := ⟨false⟩

def pathStyle : QuoteStyle := ⟨true⟩

-- Named escapes for the usual few, the code point's number for anything else that does not show.
def QuoteStyle.escape (style : QuoteStyle) (c : Char) : String :=
  if c = '"' then "\\\""
  else if c = '\\' then "\\\\"
  else if c = '\x27' ∧ style.escapesApostrophe then "\\'"
  else if c = '\n' then "\\n"
  else if c = '\r' then "\\r"
  else if c = '\t' then "\\t"
  else if c = '\x00' then "\\0"
  else if c.toNat < 0x20 ∨ c.toNat = 0x7f ∨ isUnprintable c then
    "\\u\x7b" ++ Hex.ofNat c.toNat ++ "\x7d"
  else c.toString

def QuoteStyle.quote (style : QuoteStyle) (text : String) : String :=
  "\"" ++ String.join (text.toList.map style.escape) ++ "\""

end ObjectBridge.Text
