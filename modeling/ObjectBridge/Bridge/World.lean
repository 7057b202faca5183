import ObjectBridge.Bridge.ToScripting

namespace ObjectBridge

structure World (σ : Type) where
  bridge : Bridge
  host : σ

abbrev Run (σ : Type) := StateT (World σ) Option

abbrev Call (σ : Type) := ExceptT BridgeError (Run σ)

-- Either side may call back into the bridge. A host is given by how far such calls may nest; a run
-- that needs more has no result.
structure Host (σ : Type) where
  perform : Routine → Frame → Run σ NativeValue
  written : Nat → List ScriptValue → Call σ ScriptValue

namespace Run

variable {σ : Type}

def onBridge (f : Bridge → α × Bridge) : Run σ α := fun w =>
  let (a, b) := f w.bridge
  some (a, { w with bridge := b })

def readBridge (f : Bridge → α) : Run σ α := fun w => some (f w.bridge, w)

def dropValue (v : ScriptValue) : Run σ Unit := onBridge fun b => ((), b.dropValue v)

def dropValues (vs : List ScriptValue) : Run σ Unit := onBridge fun b => ((), b.dropValues vs)

def dropNative (v : NativeValue) : Run σ Unit := onBridge fun b => ((), b.dropNative v)

end Run

namespace Call

variable {σ : Type}

def ofEffect (e : Effect α) : Call σ α := ExceptT.mk (Run.onBridge e)

def readBridge (f : Bridge → α) : Call σ α := ExceptT.lift (Run.readBridge f)

def fail (e : BridgeError) : Call σ α := throw e

def ofNative (r : Run σ (Except CallError α)) : Call σ α := ExceptT.mk do
  return (← r).mapError .native

def attempt (c : Call σ α) : Run σ (Except BridgeError α) := c.run

def located (site : String) (place : Option Nat) (c : Call σ α) : Call σ α := ExceptT.mk do
  return (← c.run).mapError (·.located site place)

def noteNativeCall : Call σ Unit :=
  ExceptT.lift (Run.onBridge fun b => ((), { b with nativeCalls := b.nativeCalls + 1 }))

end Call

namespace Host

variable {σ : Type}

-- Runs native code that takes exactly `arity` arguments.
def enter (host : Host σ) (body : Routine) (arity : Nat) (frame : Frame) :
    Run σ (Except CallError NativeValue) :=
  if frame.args.length = arity then do return .ok (← host.perform body frame)
  else return .error (.argCountMismatch arity frame.args.length)

end Host

def Bridge.messageTarget (b : Bridge) (receiver : Receiver) (selector : String) :
    Except CallError Routine :=
  let answer (id : ClassId) (onClass : Bool) : Except CallError Routine :=
    match b.natives.lookup id selector onClass with
    | some body => .ok body
    | none => .error (.unrecognizedSelector (b.natives.describe id onClass) selector)
  match receiver with
  | .instance a =>
    match b.heap.classOf? a with
    | some id => answer id false
    | none => .error (.deadReceiver a)
  | .classObject id => answer id true
  | .none => .error (.unrecognizedSelector "nil" selector)

def Bridge.respondsTo (b : Bridge) (receiver : Receiver) (selector : String) : Bool :=
  match receiver with
  | .instance a =>
    match b.heap.classOf? a with
    | some id => (b.natives.lookup id selector false).isSome
    | none => false
  | .classObject id => (b.natives.lookup id selector true).isSome
  | .none => false

namespace Host

variable {σ : Type}

def send (host : Host σ) (receiver : Receiver) (selector : String) (args : List NativeValue) :
    Run σ (Except CallError NativeValue) := do
  match ← Run.readBridge (·.messageTarget receiver selector) with
  | .ok body => host.enter body (selectorArity selector) ⟨receiver, selector, args⟩
  | .error e => return .error e

def callPlain (host : Host σ) (name : String) (args : List NativeValue) :
    Run σ (Except CallError NativeValue) := do
  match ← Run.readBridge (·.functions.get? name) with
  | some f => host.enter f.body f.arity ⟨.none, name, args⟩
  | none => return .error (.unknownFunction name)

def callFunction (host : Host σ) (name : String) (args : List ScriptValue) :
    Call σ ScriptValue := do
  let metadata ← Call.readBridge (·.metadata)
  match metadata.resolve? name with
  | some (_, .function _ signature) =>
    if args.length ≠ signature.arity then
      Call.fail (.arityMismatch name signature.arity args.length
        (name ++ " " ++ metadata.signatureText signature))
    else
      let frame ← Call.ofEffect (Effect.frame name signature.params args)
      Call.noteNativeCall
      let result ← Call.ofNative (host.callPlain name frame)
      Call.located name none (Call.ofEffect (Effect.toScripting result signature.result))
  | _ => Call.fail (.notFound "functions" name)

-- The arguments of a callback as script values; those that are done go when one fails.
def callbackArgs (member : String) (index : Nat) (done : List ScriptValue) :
    List NativeValue → List TypeEncoding → Call σ (List ScriptValue)
  | v :: vs, ty :: types => ExceptT.mk do
    match ← (Call.located member (some index) (Call.ofEffect (Effect.toScriptingShared v ty))).run with
    | .ok value => (callbackArgs member (index + 1) (done ++ [value]) vs types).run
    | .error e =>
      Run.dropValues done
      return .error e
  | _, _ => return done

mutual

def callScript (host : Host σ) : ScriptFunction → List ScriptValue → Call σ ScriptValue
  | .written _ name arity body _, args =>
    match arity with
    | some expected =>
      if args.length = expected then host.written body args
      else
        Call.fail (.arityMismatch (name.getD "anonymous function") expected args.length
          ("function(" ++ toString expected ++ " argument(s))"))
    | none => host.written body args
  | .global _ name, args => do
    if ← Call.readBridge (·.isOpen) then host.callFunction name args
    else Call.fail (.notFound "bridge" name)
  | .ofBlock _ block signature, args => do
    if args.length ≠ signature.arity then
      Call.fail (.arityMismatch "block" signature.arity args.length
        ("function(" ++ toString signature.arity ++ " argument(s))"))
    else if ← Call.readBridge (·.isOpen) then
      let frame ← Call.ofEffect (Effect.frame "block" signature.params args)
      let result ← Call.ofNative (invokeBlock host block frame)
      Call.located "block" none (Call.ofEffect (Effect.toScripting result signature.result))
    else Call.fail (.notFound "bridge" "block")

-- Invokes a block. Script code behind it cannot fail towards native code: where it does, or where
-- its result does not convert, native code is handed the zero of the result type.
def invokeBlock (host : Host σ) : NativeBlock → List NativeValue →
    Run σ (Except CallError NativeValue)
  | .native _ arity body _, args => host.enter body arity ⟨.none, "", args⟩
  | .ofFunction function signature, args => do
    if args.length ≠ signature.arity then
      return .error (.argCountMismatch signature.arity args.length)
    else if ← Run.readBridge (·.isOpen) then
      let member := function.name.getD "block"
      match ← (callbackArgs member 0 [] args signature.params).run with
      | .error _ => return .ok (.zero signature.result.nativeKind)
      | .ok values =>
        match ← (callScript host function values).run with
        | .error _ =>
          Run.dropValues values
          return .ok (.zero signature.result.nativeKind)
        | .ok result =>
          let native ← (Call.ofEffect (Effect.toNativeOwned result signature.result)).run
          Run.dropValue result
          Run.dropValues values
          match native with
          | .ok n => return .ok n
          | .error _ => return .ok (.zero signature.result.nativeKind)
    else return .ok (.zero signature.result.nativeKind)

end

end Host

end ObjectBridge
