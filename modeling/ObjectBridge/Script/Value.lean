import ObjectBridge.Number.Shortest
import ObjectBridge.Native.Value
import ObjectBridge.Text.Quoted

namespace ObjectBridge

-- `big` holds integers that a number cannot hold exactly; a record is the script's form of a
-- structure and lists its fields in ascending order.
inductive ScriptValue where
  | undefined
  | null
  | bool (value : Bool)
  | number (value : Double)
  | big (value : Int)
  | string (text : String)
  | object (wrapper : Wrapper)
  | constructor (cls : SynthesizedClass)
  | function (function : ScriptFunction)
  | record (fields : List (String × ScriptValue))
  deriving Inhabited

-- Script numbers are never written with an exponent.
def scriptNumberStyle : DecimalStyle := ⟨fun _ => true, "", ""⟩

-- A number as scripts print it. Whole numbers below 10^21 are written out exactly.
def Double.scriptText (x : Double) : String :=
  match x.toDyadic with
  | .nan => "NaN"
  | .infinite negative => if negative then "-Infinity" else "Infinity"
  | .finite negative significand exponent =>
    match x.toInt? with
    | some n =>
      if n.natAbs < Nat.pow 10 21 then toString n
      else (if negative then "-" else "")
        ++ scriptNumberStyle.format (Decimal.shortest significand exponent)
    | none =>
      (if negative then "-" else "")
        ++ scriptNumberStyle.format (Decimal.shortest significand exponent)

namespace ScriptValue

def typeName : ScriptValue → String
  | .undefined => "undefined"
  | .null => "null"
  | .bool _ => "boolean"
  | .number _ => "number"
  | .big _ => "bigint"
  | .string _ => "string"
  | .object _ | .record _ => "object"
  | .constructor _ | .function _ => "function"

def describeKind : ScriptValue → String
  | .object w => w.cls.name ++ " instance"
  | .constructor c => c.name ++ " constructor"
  | .number x => "number " ++ x.scriptText
  | .big n => "bigint " ++ toString n
  | v => v.typeName

def isNullish : ScriptValue → Bool
  | .undefined | .null => true
  | _ => false

def toNumber? : ScriptValue → Option Double
  | .number x => some x
  | _ => none

def toText? : ScriptValue → Option String
  | .string text => some text
  | _ => none

def toWrapper? : ScriptValue → Option Wrapper
  | .object w => some w
  | _ => none

-- Of fields with one name the last counts.
def ofFields (fields : List (String × ScriptValue)) : ScriptValue :=
  .record (Table.ofList fields).entries

def field? (fields : List (String × ScriptValue)) (name : String) : Option ScriptValue :=
  fields.lookup name

private def nativeCode (name : String) : String :=
  "function " ++ name ++ "() \x7b [native code] \x7d"

mutual

-- Strings stand bare, but in quotes inside a record.
def textWith (inRecord : Bool) : ScriptValue → String
  | .undefined => "undefined"
  | .null => "null"
  | .bool b => if b then "true" else "false"
  | .number x => x.scriptText
  | .big n => toString n ++ "n"
  | .string text => if inRecord then Text.textStyle.quote text else text
  | .object w => "<" ++ w.cls.name ++ ": " ++ w.address.text ++ ">"
  | .constructor c => nativeCode c.name
  | .function f => nativeCode (f.name.getD "")
  | .record fields =>
    if fields.isEmpty then "\x7b\x7d"
    else "\x7b " ++ ", ".intercalate (fieldTexts fields) ++ " \x7d"

def fieldTexts : List (String × ScriptValue) → List String
  | [] => []
  | (name, value) :: rest => (name ++ ": " ++ value.textWith true) :: fieldTexts rest

end

def text (v : ScriptValue) : String := v.textWith false

mutual

-- Primitive values by value; objects, classes and functions by identity.
def same : ScriptValue → ScriptValue → Bool
  | .undefined, .undefined | .null, .null => true
  | .bool a, .bool b => a = b
  | .number a, .number b => a.same b
  | .big a, .big b => a = b
  | .string a, .string b => a = b
  | .object a, .object b => a.id = b.id
  | .constructor a, .constructor b => a.id = b.id
  | .function a, .function b => a.id = b.id
  | .record a, .record b => sameFields a b
  | _, _ => false

def sameFields : List (String × ScriptValue) → List (String × ScriptValue) → Bool
  | [], [] => true
  | (m, a) :: as, (n, b) :: bs => m = n && a.same b && sameFields as bs
  | _, _ => false

end

mutual

-- The wrappers that a value holds handles of, one for each handle.
def wrappers : ScriptValue → List Wrapper
  | .object w => [w]
  | .function f => f.wrappers
  | .record fields => fieldWrappers fields
  | _ => []

def fieldWrappers : List (String × ScriptValue) → List Wrapper
  | [] => []
  | (_, value) :: rest => value.wrappers ++ fieldWrappers rest

end

end ScriptValue

end ObjectBridge
