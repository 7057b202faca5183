import ObjectBridge.Inspector.Bytes
import ObjectBridge.Json.Decode
import ObjectBridge.Json.Reader
import ObjectBridge.Script.Value

namespace ObjectBridge

structure RemoteObject where
  type : String
  subtype : Option String
  className : Option String
  description : Option String
  objectId : Option String
  deriving DecidableEq, Repr

structure Domain where
  name : String
  version : String
  deriving DecidableEq, Repr

inductive ConsoleLevel where
  | log
  | info
  | warn
  | error
  deriving DecidableEq, Repr, Inhabited

structure ConsoleMessage where
  level : ConsoleLevel
  text : String
  -- Milliseconds since the beginning of 1970.
  timestamp : Double
  deriving DecidableEq, Repr

namespace ConsoleLevel

def word : ConsoleLevel → String
  | .log => "log"
  | .info => "info"
  | .warn => "warn"
  | .error => "error"

def ofWord? (word : String) : Option ConsoleLevel :=
  [ConsoleLevel.log, .info, .warn, .error].find? (·.word = word)

def number : ConsoleLevel → Nat
  | .log => 0
  | .info => 1
  | .warn => 2
  | .error => 3

def ofNumber? : Nat → Option ConsoleLevel
  | 0 => some .log
  | 1 => some .info
  | 2 => some .warn
  | 3 => some .error
  | _ => none

-- The bare word, or an object that says nothing more about it.
def ofJson? : Json → Option ConsoleLevel
  | .string word => ofWord? word
  | .object [(word, .null)] => ofWord? word
  | _ => none

end ConsoleLevel

-- JSON numbers have an exponent from 10^16 on and below 10^-5, and always a point or an exponent.
def jsonNumberStyle : DecimalStyle := ⟨fun first => -5 ≤ first && first < 16, ".0", "+"⟩

-- What is no number is written as `null`.
def Double.toJson (x : Double) : Json :=
  match x.toDyadic with
  | .finite negative significand exponent =>
    .number ((if negative then "-" else "")
      ++ jsonNumberStyle.format (Decimal.shortest significand exponent))
  | _ => .null

namespace RemoteObject

def toJson (x : RemoteObject) : Json :=
  let optional (name : String) (value : Option String) : List (String × Json) :=
    (value.map fun text => (name, Json.string text)).toList
  .object (("type", .string x.type) :: (optional "subtype" x.subtype
    ++ optional "className" x.className ++ optional "description" x.description
    ++ optional "objectId" x.objectId))

def ofJson? (j : Json) : Option RemoteObject := do
  let [type, subtype, className, description, objectId] ←
    j.fields? ["type", "subtype", "className", "description", "objectId"] | none
  return {
    type := ← type.bind Json.toText?
    subtype := ← Json.nullable Json.toText? subtype
    className := ← Json.nullable Json.toText? className
    description := ← Json.nullable Json.toText? description
    objectId := ← Json.nullable Json.toText? objectId }

def appendTo : Inspector.ByteWriter RemoteObject := fun x out =>
  let optional := Inspector.appendOption Inspector.appendText
  let out := Inspector.appendText x.type out
  let out := optional x.subtype out
  let out := optional x.className out
  let out := optional x.description out
  optional x.objectId out

def toBytes (x : RemoteObject) : Inspector.Bytes := x.appendTo []

def readBytes : Inspector.ByteReader RemoteObject := fun bytes => do
  let optional := Inspector.readOption Inspector.readText
  let (type, bytes) ← Inspector.readText bytes
  let (subtype, bytes) ← optional bytes
  let (className, bytes) ← optional bytes
  let (description, bytes) ← optional bytes
  let (objectId, bytes) ← optional bytes
  return (⟨type, subtype, className, description, objectId⟩, bytes)

def ofValue (isReleased : Wrapper → Bool) (v : ScriptValue) : RemoteObject :=
  let type := v.typeName
  match v with
  | .undefined => ⟨type, none, none, none, none⟩
  | .null => ⟨type, some "null", none, some "null", none⟩
  | .object w =>
    let description := if isReleased w then w.cls.name ++ " (released)" else w.cls.name
    ⟨type, none, some w.cls.name, some description, some w.address.text⟩
  | .constructor c =>
    ⟨type, none, some "Function", some ("class " ++ c.name), some ("class:" ++ c.id.text)⟩
  | .record _ => ⟨type, none, some "Object", some v.text, none⟩
  | _ => ⟨type, none, none, some v.text, none⟩

end RemoteObject

namespace Domain

def toJson (x : Domain) : Json :=
  .object [("name", .string x.name), ("version", .string x.version)]

def ofJson? (j : Json) : Option Domain := do
  let [name, version] ← j.fields? ["name", "version"] | none
  return { name := ← name.bind Json.toText?, version := ← version.bind Json.toText? }

def appendTo : Inspector.ByteWriter Domain := fun x out =>
  Inspector.appendText x.version (Inspector.appendText x.name out)

def toBytes (x : Domain) : Inspector.Bytes := x.appendTo []

def readBytes : Inspector.ByteReader Domain := fun bytes => do
  let (name, bytes) ← Inspector.readText bytes
  let (version, bytes) ← Inspector.readText bytes
  return (⟨name, version⟩, bytes)

end Domain

namespace ConsoleMessage

def toJson (x : ConsoleMessage) : Json :=
  .object [("level", .string x.level.word), ("text", .string x.text),
    ("timestamp", x.timestamp.toJson)]

def ofJson? (j : Json) : Option ConsoleMessage := do
  let [level, text, timestamp] ← j.fields? ["level", "text", "timestamp"] | none
  return {
    level := ← level.bind ConsoleLevel.ofJson?
    text := ← text.bind Json.toText?
    timestamp := ← timestamp.bind Json.toDouble? }

def appendTo : Inspector.ByteWriter ConsoleMessage := fun x out =>
  let out := Inspector.appendNumber 4 x.level.number out
  let out := Inspector.appendText x.text out
  Inspector.appendNumber 8 x.timestamp.bits.toNat out

def toBytes (x : ConsoleMessage) : Inspector.Bytes := x.appendTo []

def readBytes : Inspector.ByteReader ConsoleMessage := fun bytes => do
  let (level, bytes) ← Inspector.readNumber 4 bytes
  let level ← ConsoleLevel.ofNumber? level
  let (text, bytes) ← Inspector.readText bytes
  let (timestamp, bytes) ← Inspector.readNumber 8 bytes
  return (⟨level, text, ⟨UInt64.ofNat timestamp⟩⟩, bytes)

end ConsoleMessage

end ObjectBridge
