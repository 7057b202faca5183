import ObjectBridge.Inspector.Objects
import ObjectBridge.Session.Command

namespace ObjectBridge

-- `misuse` is a step that makes no sense, such as one that names a variable that there is not.
inductive StepError where
  | bridge (error : BridgeError)
  | schema (error : SchemaError)
  | misuse (what : String)
  deriving DecidableEq, Repr

structure InstanceView where
  count : Nat
  serial : Nat
  cls : String
  deriving DecidableEq, Repr

-- Whether a class, by itself or along its chain, implements a selector for instances and for the
-- class.
structure NativeClassView where
  name : Option String
  index : Nat
  superclass : Option String
  own : Option (Bool × Bool)
  found : Bool × Bool
  deriving DecidableEq, Repr

structure Marshalled where
  native : NativeValue
  invoked : Option (Except CallError NativeValue)
  back : Option ScriptValue

-- Native values are answered together with the classes that their class references are for.
inductive Answer where
  | nothing
  | flag (value : Bool)
  | number (value : Nat)
  | text (value : Option String)
  | value (value : ScriptValue)
  | native (value : Option NativeValue) (classes : ClassTable)
  | marshalled (value : Marshalled) (classes : ClassTable)
  | display (value : ScriptValue)
  | remote (value : RemoteObject)
  | stats (stats : BridgeStats)
  | registryStats (stats : RegistryStats)
  | describedClass (cls : SynthesizedClass)
  | compatible (subclass conforms compatible : Bool)
  | state (state : SynthesisState) (cached : Option String) (built : Nat)
  | type (type : TypeEncoding)
  | wrapper (state : WrapperState) (current : Bool)
  | place (address : Address) (serial : Nat)
  | address (address : Address)
  | outcome (outcome : ReleaseOutcome)
  | instance (view : Option InstanceView)
  | nativeClass (view : NativeClassView)

namespace Answer

def value? : Answer → Option ScriptValue
  | .value v => some v
  | .marshalled m _ => m.back
  | _ => none

end Answer

-- A call of a function of the script, or a step of its body.
inductive LogEntry where
  | call (name : Option String) (args : List ScriptValue)
  | step (outcome : Except StepError Answer)

structure StepRecord where
  outcome : Except StepError Answer
  liveInstances : Nat
  -- None once the bridge is shut down.
  liveWrappers : Option Nat
  log : List LogEntry

structure Transcript where
  records : List StepRecord
  -- Instances that live after all variables were dropped.
  left : Nat

end ObjectBridge
