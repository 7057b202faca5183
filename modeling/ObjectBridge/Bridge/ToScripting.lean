import ObjectBridge.Bridge.ToNative

namespace ObjectBridge

-- Every whole number up to this magnitude is a script number.
def largestSafeInteger : Nat := 9007199254740992

-- Integers of at most 32 bits are always numbers.
def ScriptValue.ofInt (kind : IntKind) (n : Int) : ScriptValue :=
  if kind.bits ≤ 32 ∨ n.natAbs ≤ largestSafeInteger then .number (.ofInt n) else .big n

namespace Effect

def fail (e : BridgeError) : Effect α := throw e

def lookupWrapper (a : Address) : Effect (Option Wrapper) := fun b =>
  (.ok (b.holdings.lookup? Bridge.registryNumber a), b)

def wrapperFor (a : Address) (cls : SynthesizedClass) (owning : Bool) : Effect Wrapper :=
  onHoldings fun s => s.wrapperFor Bridge.registryNumber a cls owning

def classOfInstance (a : Address) (declared : Option DescriptorId) : Effect SynthesizedClass :=
  fun b =>
    if b.heap.isLive a then
      synthesis (fun source => Synthesis.classOfInstance source b.heap a declared) b
    else
      (.error (.inconvertible "object" ("instance " ++ a.text) "dangling instance pointer"), b)

def wrap (a : Address) (declared : Option DescriptorId) (owning : Bool) : Effect ScriptValue := do
  let cls ← match ← lookupWrapper a with
    | some existing => pure existing.cls
    | none => classOfInstance a declared
  return .object (← wrapperFor a cls owning)

def classObject (id : ClassId) : Effect ScriptValue := fun b =>
  ((do return .constructor (← synthesizeNamed ((b.natives.name? id).getD ""))) : Effect _) b

def functionOfBlock (block : NativeBlock) (signature : CallSignature) : Effect ScriptValue := do
  return .function (.ofBlock (← freshIdentity) block signature)

-- The fields of a structure type, as many as there are values.
def structLayout (id : DescriptorId) (ty : TypeEncoding) (given : Nat) : Effect (List Field) :=
  fun b =>
    let expected := b.metadata.typeText ty
    match Bridge.layout? b.metadata id with
    | none => (.error (.notFound "metadata" expected), b)
    | some layout =>
      if layout.length = given then (.ok layout, b)
      else
        (.error (.inconvertible expected
          ("struct of " ++ toString given ++ " field(s)")
          ("expected " ++ toString layout.length ++ " field(s)")), b)

-- Puts a field into a record; of two fields with one name the first is dropped.
def putField (done : List (String × ScriptValue)) (name : String) (v : ScriptValue) :
    Effect (List (String × ScriptValue)) := do
  if let some old := done.lookup name then dropValue old
  return ((Table.mk done).put name v).entries

def mismatch (ty : TypeEncoding) (actual : String) : Effect α := fun b =>
  (.error (.mismatch (b.metadata.typeText ty) actual), b)

def declaredTarget : TypeEncoding → Option DescriptorId
  | .object target => target
  | _ => none

-- Any value fits a void type, and only its own kind any other.
def fits (v : NativeValue) (ty : TypeEncoding) : Bool := ty.isVoid || v.kind = ty.nativeKind

-- The value that an effect was for is dropped if the effect fails.
def forgo (v : NativeValue) (e : Effect α) : Effect α := fun b =>
  match e b with
  | (.ok x, b) => (.ok x, b)
  | (.error e, b) => (.error e, b.dropNative v)

mutual

-- Whether the value brings a reference matters for instances alone.
def scripting (owning : Bool) (ty : TypeEncoding) (v : NativeValue) : Effect ScriptValue :=
  if fits v ty = false then forgo v (mismatch ty v.kind.cName)
  else
    match v with
    | .void => pure .undefined
    | .bool x => pure (.bool x)
    | .int kind n _ => pure (.ofInt kind n)
    | .f32 x => pure (.number x.toDouble)
    | .f64 x => pure (.number x)
    | .cstring none => pure .null
    | .cstring (some bytes) =>
      match Text.decodeUtf8 bytes.toArray with
      | .ok text => pure (.string text)
      | .error _ => fail (.inconvertible "string" "C string" "not valid UTF-8")
    | .object a => if a.isNull then pure .null else wrap a (declaredTarget ty) owning
    | .classRef none => pure .null
    | .classRef (some id) => classObject id
    | .block none => pure .null
    | .block (some block) =>
      match ty with
      | .block result params => functionOfBlock block ⟨result, params⟩
      | ty => forgo (.block (some block)) (mismatch ty "block")
    | .struct values =>
      match ty with
      | .struct id => do
        let layout ← forgo (.struct values) (structLayout id ty values.length)
        return .record (← scriptingFields [] values layout)
      | ty => forgo (.struct values) (mismatch ty "struct")
    | .pointer address => pure (if address = 0 then .null else .number (.ofInt address.toNat))

-- The fields that are done go when a later one fails, after those that are left.
def scriptingFields (done : List (String × ScriptValue)) :
    List NativeValue → List Field → Effect (List (String × ScriptValue))
  | v :: vs, field :: layout => fun b =>
    match scripting false field.type v b with
    | (.error e, b) => (.error e, (b.dropNative (.struct vs)).dropValue (.record done))
    | (.ok value, b) =>
      ((do scriptingFields (← putField done field.name value) vs layout) : Effect _) b
  | rest, _ => fun b => (.ok done, b.dropNative (.struct rest))

end

-- `owning` says that an object comes with a reference of its own.
def toScriptingOwned (v : NativeValue) (ty : TypeEncoding) (owning : Bool) : Effect ScriptValue :=
  fun b =>
    match scripting owning ty v b with
    | (.ok value, b) => (.ok value, b)
    | (.error e, b) =>
      let b := match v with
        | .object a =>
          if owning && !a.isNull then { b with holdings := (b.holdings.releaseAddress a).2 } else b
        | _ => b
      (.error e, b.noteConversionError)

def toScripting (v : NativeValue) (ty : TypeEncoding) : Effect ScriptValue :=
  toScriptingOwned v ty false

-- For a native value that stays with its owner.
def toScriptingShared (v : NativeValue) (ty : TypeEncoding) : Effect ScriptValue := fun b =>
  toScripting v ty (b.cloneNative v)

end Effect

end ObjectBridge
