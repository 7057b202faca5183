import ObjectBridge.Bridge.State

namespace ObjectBridge

namespace ScriptValue

private def notA (v : ScriptValue) (expected : String) : BridgeError :=
  .mismatch expected v.describeKind

-- Whole numbers and big integers within the kind's range.
def toInteger (v : ScriptValue) (expected : String) (kind : IntKind) :
    Except BridgeError { n : Int // kind.holds n } :=
  let ranged (n : Int) : Except BridgeError { n : Int // kind.holds n } :=
    if h : kind.holds n then .ok ⟨n, h⟩
    else .error (.inconvertible expected v.describeKind "out of range")
  match v with
  | .number x =>
    match x.toInt? with
    | some n => ranged n
    | none => .error (.inconvertible expected v.describeKind "not an integer")
  | .big n => ranged n
  | _ => .error (v.notA expected)

def toFloating (v : ScriptValue) (expected : String) : Except BridgeError Double :=
  match v with
  | .number x => .ok x
  | .big n => .ok (.ofInt n)
  | _ => .error (v.notA expected)

end ScriptValue

namespace Bridge

-- An object slot takes wrappers of compatible classes whose own instance is still there.
def wrapperSlot (b : Bridge) (w : Wrapper) (target : Option DescriptorId) (expected : String) :
    Except BridgeError NativeValue :=
  let v := ScriptValue.object w
  if b.holdings.isReleased w then .error (.releasedInstance w.cls.name w.address)
  else if b.holdings.isCurrent w = false then
    .error (.inconvertible "object" v.describeKind "instance was destroyed")
  else if target.any fun id => !w.cls.isCompatible id then
    .error (.mismatch expected v.describeKind)
  else .ok (.object w.address)

def scalarSlot (v : ScriptValue) (s : Scalar) : Except BridgeError NativeValue :=
  let mismatch : BridgeError := .mismatch s.name v.describeKind
  match s with
  | .void => .ok .void
  | .bool =>
    match v with
    | .bool value => .ok (.bool value)
    | _ => .error mismatch
  | .int kind => (v.toInteger kind.name kind).map fun ⟨n, h⟩ => .int kind n h
  | .f32 => do
    let x ← v.toFloating "f32"
    if x.exceedsSingle then .error (.inconvertible "f32" v.describeKind "out of range")
    else .ok (.f32 x.toSingle)
  | .f64 => (v.toFloating "f64").map .f64
  | .string =>
    match v with
    | .string text =>
      match NativeValue.ofText? text with
      | some n => .ok n
      | none => .error (.inconvertible "string" "string" "contains an interior NUL")
    | _ => if v.isNullish then .ok (.cstring none) else .error mismatch
  | .classRef =>
    match v with
    | .constructor c =>
      match c.native with
      | some id => .ok (.classRef (some id))
      | none => .error (.inconvertible "class" v.describeKind "no native class backs it")
    | _ => if v.isNullish then .ok (.classRef none) else .error mismatch
  | .pointer =>
    if v.isNullish then .ok (.pointer 0)
    else (v.toInteger "pointer" .u64).map fun ⟨n, _⟩ => .pointer (UInt64.ofNat n.toNat)

def plainSlot (b : Bridge) (v : ScriptValue) (ty : TypeEncoding) : Except BridgeError NativeValue :=
  let expected := b.metadata.typeText ty
  match ty with
  | .scalar s => scalarSlot v s
  | .object target =>
    match v with
    | .object w => b.wrapperSlot w target expected
    | _ => if v.isNullish then .ok (.object .null) else .error (.mismatch expected v.describeKind)
  | .block result params =>
    match v with
    | .function f => .ok (.block (some (.ofFunction f ⟨result, params⟩)))
    | _ => if v.isNullish then .ok (.block none) else .error (.mismatch expected v.describeKind)
  | .struct _ => .error (.mismatch expected v.describeKind)

def layout? (m : Metadata) (id : DescriptorId) : Option (List Field) :=
  match m.descriptor? id with
  | some (.struct _ fields) => some fields
  | _ => none

abbrev Slot := TypeEncoding → Except BridgeError NativeValue

-- A structure from the slots of a record's fields; other fields of the record are passed over.
def structSlot (b : Bridge) (slots : List (String × Slot)) (id : DescriptorId) (expected : String) :
    Except BridgeError NativeValue :=
  match layout? b.metadata id with
  | none => .error (.notFound "metadata" expected)
  | some layout => do
    let fields ← layout.mapM fun field =>
      match slots.lookup field.name with
      | some slot => slot field.type
      | none =>
        .error (.inconvertible expected "object" ("missing field '" ++ field.name ++ "'"))
    return .struct fields

mutual

def slot (b : Bridge) : ScriptValue → Slot
  | .record fields => fun ty =>
    match ty with
    | .struct id => b.structSlot (fieldSlots b fields) id (b.metadata.typeText ty)
    | ty => b.plainSlot (.record fields) ty
  | .undefined => b.plainSlot .undefined
  | .null => b.plainSlot .null
  | .bool x => b.plainSlot (.bool x)
  | .number x => b.plainSlot (.number x)
  | .big n => b.plainSlot (.big n)
  | .string text => b.plainSlot (.string text)
  | .object w => b.plainSlot (.object w)
  | .constructor c => b.plainSlot (.constructor c)
  | .function f => b.plainSlot (.function f)

def fieldSlots (b : Bridge) : List (String × ScriptValue) → List (String × Slot)
  | [] => []
  | (name, value) :: rest => (name, slot b value) :: fieldSlots b rest

end

def noteConversionError (b : Bridge) : Bridge :=
  { b with conversionErrors := b.conversionErrors + 1 }

end Bridge

namespace Effect

-- A failure is counted once, however deep in a structure it is.
def toNative (v : ScriptValue) (ty : TypeEncoding) : Effect NativeValue := fun b =>
  match b.slot v ty with
  | .ok n => (.ok n, b)
  | .error e => (.error e, b.noteConversionError)

-- For a native value that outlives the script value it is made of.
def toNativeOwned (v : ScriptValue) (ty : TypeEncoding) : Effect NativeValue := fun b =>
  match toNative v ty b with
  | (.ok n, b) => (.ok n, b.cloneNative n)
  | failed => failed

def located (site : String) (place : Option Nat) (e : Effect α) : Effect α := fun b =>
  let (result, b) := e b
  (result.mapError (·.located site place), b)

def frameFrom (member : String) (first : Nat) :
    List ScriptValue → List TypeEncoding → Effect (List NativeValue)
  | v :: vs, ty :: types => do
    let n ← located member (some first) (toNative v ty)
    return n :: (← frameFrom member (first + 1) vs types)
  | _, _ => return []

def frame (member : String) (params : List TypeEncoding) (args : List ScriptValue) :
    Effect (List NativeValue) := frameFrom member 0 args params

end Effect

end ObjectBridge
