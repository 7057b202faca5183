import ObjectBridge.Bridge.World

namespace ObjectBridge

inductive Target where
  | instance (wrapper : Wrapper)
  | static (cls : SynthesizedClass)

namespace Target

def cls : Target → SynthesizedClass
  | .instance w => w.cls
  | .static c => c

def property? : Target → String → Option PropertyEntry
  | .instance w, name => w.cls.instanceProperties.get? name
  | .static c, name => c.staticProperties.get? name

end Target

namespace Host

variable {σ : Type}

def checkArity (method : MethodEntry) (args : List ScriptValue) : Call σ Unit := do
  if args.length ≠ method.arity then
    let metadata ← Call.readBridge (·.metadata)
    Call.fail (.arityMismatch method.qualifiedName method.arity args.length
      (method.selector ++ " " ++ metadata.signatureText method.signature))

-- Whom the native message goes to. A wrapper has to be unreleased and its instance the one that it
-- was made for.
def receiverOf (method : MethodEntry) : Target → Call σ Receiver
  | .instance w => do
    let holdings ← Call.readBridge (·.holdings)
    if holdings.isReleased w then Call.fail (.releasedInstance w.cls.name w.address)
    else if holdings.isCurrent w = false then Call.fail (.native (.deadReceiver w.address))
    else return .instance w.address
  | .static c =>
    match c.native with
    | some id => return .classObject id
    | none => Call.fail (.notFound c.name method.selector)

def invoke (host : Host σ) (method : MethodEntry) (target : Target) (args : List ScriptValue) :
    Call σ ScriptValue := do
  checkArity method args
  let frame ← Call.ofEffect (Effect.frame method.name method.signature.params args)
  let receiver ← receiverOf method target
  Call.noteNativeCall
  let result ← Call.ofNative (host.send receiver method.selector frame)
  Call.located method.name none (Call.ofEffect
    (Effect.toScriptingOwned result method.signature.result method.method.ownsResult))

def callMethod (host : Host σ) (w : Wrapper) (name : String) (args : List ScriptValue) :
    Call σ ScriptValue :=
  match w.cls.instanceMethods.get? name with
  | some method => host.invoke method (.instance w) args
  | none => Call.fail (.notFound (w.cls.name ++ " instance") name)

def callStatic (host : Host σ) (c : SynthesizedClass) (name : String) (args : List ScriptValue) :
    Call σ ScriptValue :=
  match c.staticMethods.get? name with
  | some method => host.invoke method (.static c) args
  | none => Call.fail (.notFound c.name name)

def getProperty (host : Host σ) (target : Target) (name : String) : Call σ ScriptValue :=
  match (target.property? name).bind (·.getter?) with
  | some getter => host.invoke getter target []
  | none => Call.fail (.notFound target.cls.name name)

-- The result of the setter is of no use and dropped.
def setProperty (host : Host σ) (target : Target) (name : String) (value : ScriptValue) :
    Call σ Unit :=
  match target.property? name with
  | none => Call.fail (.notFound target.cls.name name)
  | some property =>
    match property.setter? with
    | some setter =>
      if property.property.isReadonly then Call.fail (.readOnlyProperty target.cls.name name)
      else do
        let result ← host.invoke setter target [value]
        ExceptT.lift (Run.dropValue result)
    | none => Call.fail (.readOnlyProperty target.cls.name name)

private def releaseAddress (a : Address) : Call σ Unit :=
  ExceptT.lift (Run.onBridge fun b => ((), { b with holdings := (b.holdings.releaseAddress a).2 }))

def allocate (cls : ClassId) (place : Option Address) : Run σ (Except CallError Address) :=
  Run.onBridge fun b =>
    match b.natives.name? cls with
    | none => (.error (.unknownClass ("#" ++ toString cls.index)), b)
    | some _ =>
      let (a, heap) := b.heap.allocate cls place
      (.ok a, { b with holdings := { b.holdings with heap := heap } })

-- Allocates an instance and sends it an initializer, which may answer another instance, or none.
-- The allocation is the initializer's to keep or to release; a message that reaches no implementation
-- releases it here.
def constructWith (host : Host σ) (c : SynthesizedClass) (init : MethodEntry)
    (args : List ScriptValue) : Call σ Wrapper := do
  match c.kind, c.native with
  | .interface, some native =>
    checkArity init args
    let frame ← Call.ofEffect (Effect.frame init.selector init.signature.params args)
    let a ← Call.ofNative (allocate native none)
    Call.noteNativeCall
    match ← ExceptT.lift (host.send (.instance a) init.selector frame) with
    | .error e =>
      releaseAddress a
      Call.fail (.native e)
    | .ok result =>
      let made := (result.toAddress?).getD .null
      if made.isNull then
        ExceptT.lift (Run.dropNative result)
        Call.fail (.constructionFailed c.name init.selector)
      else
        let value ← Call.located init.selector none (Call.ofEffect
          (Effect.toScriptingOwned (.object made) (.object (some c.id)) true))
        match value with
        | .object w => return w
        | other =>
          releaseAddress made
          Call.fail ((BridgeError.mismatch c.name other.describeKind).located init.selector none)
  | _, _ => Call.fail (.notFound c.name "native class")

-- The first declared initializer with as many parameters as there are arguments; without any
-- arguments also the one that the root class has.
def construct (host : Host σ) (c : SynthesizedClass) (args : List ScriptValue) :
    Call σ Wrapper := do
  match c.initializerForArity? args.length with
  | some init => host.constructWith c init args
  | none =>
    if args.isEmpty then host.constructWith c (.rootInit c.name) args
    else
      let metadata ← Call.readBridge (·.metadata)
      let overloads := c.initializers.map fun init =>
        init.selector ++ " " ++ metadata.signatureText init.signature
      Call.fail (.arityMismatch ("new " ++ c.name) ((c.initializers.head?.map (·.arity)).getD 0)
        args.length (if overloads.isEmpty then "init" else " | ".intercalate overloads))

end Host

namespace Effect

-- What a name means to a script: a class for a class or protocol, a function for a function.
def global (name : String) : Effect ScriptValue := fun b =>
  match b.metadata.resolve? name with
  | some (id, .interface ..) | some (id, .protocol ..) =>
    ((do return .constructor (← synthesize id)) : Effect _) b
  | some (_, .function ..) =>
    ((do return .function (.global (← freshIdentity) name)) : Effect _) b
  | some (_, .struct ..) | none => (.error (.notFound "globals" name), b)

end Effect

-- Whether the value wraps an instance of the class, of a class derived from it, or of one that
-- conforms to it.
def ScriptValue.isInstanceOf (v : ScriptValue) (c : SynthesizedClass) : Bool :=
  match v with
  | .object w => w.cls.isCompatible c.id
  | _ => false

end ObjectBridge
