import ObjectBridge.FileFault
import ObjectBridge.Metadata.TypeText
import ObjectBridge.Text.Hex

namespace ObjectBridge

inductive SchemaError where
  | notJson
  | badType (text : String) (fault : TypeFault) (column : Nat)
  | unknownType (name : String)
  | duplicate (name : String)
  | tooMany (name what : String) (count : Nat)
  deriving DecidableEq, Repr

def SchemaError.message : SchemaError → String
  | .notJson => "invalid universe JSON"
  | .badType text fault column =>
    "cannot parse type '" ++ text ++ "': " ++ fault.message ++ " at column " ++ toString column
  | .unknownType name => "unknown type '" ++ name ++ "'"
  | .duplicate name => "'" ++ name ++ "' is declared more than once"
  | .tooMany name what count =>
    "'" ++ name ++ "' has " ++ toString count ++ " " ++ what ++ ", more than the format allows"

-- A file that cannot be trusted. `part` names the part of the file that was being read.
inductive LoadError where
  | unreadable (path : String) (fault : FileFault)
  | truncated (expected actual : Nat)
  | badMagic (found : List UInt8)
  | unsupportedVersion (found supported : Nat)
  | outOfBounds (part : String) (offset : Nat)
  | invalidRecord (part : String) (offset : Nat) (reason : String)
  | unknownTag (part : String) (tag : UInt8) (offset : Nat)
  deriving DecidableEq, Repr

def LoadError.message : LoadError → String
  | .unreadable path fault => "cannot read metadata file " ++ path ++ ": " ++ fault.message
  | .truncated expected actual =>
    "metadata truncated: expected " ++ toString expected ++ " bytes, found " ++ toString actual
  | .badMagic found =>
    "bad metadata magic [" ++ ", ".intercalate (found.map fun b => Hex.padded 2 b.toNat) ++ "]"
  | .unsupportedVersion found supported =>
    "unsupported metadata version " ++ toString found ++ " (supported: "
      ++ toString supported ++ ")"
  | .outOfBounds part offset => part ++ " at offset " ++ Hex.marked offset ++ " is out of bounds"
  | .invalidRecord part offset reason =>
    "invalid " ++ part ++ " at offset " ++ Hex.marked offset ++ ": " ++ reason
  | .unknownTag part tag offset =>
    "unknown " ++ part ++ " tag " ++ toString tag.toNat ++ " at offset " ++ Hex.marked offset

end ObjectBridge
