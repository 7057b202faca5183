import ObjectBridge.Bridge.Marshal

namespace ObjectBridge

-- A described class, by its name or by the place of its descriptor.
inductive ClassRef where
  | named (name : String)
  | placed (id : DescriptorId)
  deriving DecidableEq, Repr, Inhabited

inductive TypeArg where
  | spelled (text : String)
  | objectAt (id : DescriptorId)
  | structAt (id : DescriptorId)
  deriving DecidableEq, Repr, Inhabited

-- An address: under a name of the session, or that of a variable's wrapper.
inductive PointerRef where
  | null
  | named (name : String)
  | ofVariable (name : String)
  | raw (address : Address)
  deriving DecidableEq, Repr, Inhabited

inductive NativeClassRef where
  | named (name : String)
  | numbered (id : ClassId)
  deriving DecidableEq, Repr, Inhabited

inductive ReceiverRef where
  | instance (pointer : PointerRef)
  | classObject (cls : NativeClassRef)
  | none
  deriving DecidableEq, Repr, Inhabited

-- Blocks are given by the code behind them.
inductive NativeArg where
  | literal (value : NativeValue)
  | object (pointer : PointerRef)
  | classObject (cls : NativeClassRef)
  | block (arity : Nat) (body : Routine)
  | struct (fields : List NativeArg)
  deriving Inhabited

-- Whose property it is: that of a variable's wrapper or of a class.
inductive OwnerRef where
  | ofVariable (name : String)
  | ofClass (cls : ClassRef)
  deriving DecidableEq, Repr, Inhabited

inductive Inquiry where
  | stats
  | describedClass (cls : ClassRef)
  | compatible (cls other : ClassRef)
  | state (cls : ClassRef)
  | classOfInstance (pointer : PointerRef) (declared : Option ClassRef)
  | type (type : TypeArg)
  | describeType (name : String)
  deriving Inhabited

inductive RegistryCommand where
  | wrapper (owner : String)
  | lookup (pointer : PointerRef)
  | contains (pointer : PointerRef)
  | wrap (pointer : PointerRef) (cls : ClassRef) (owning : Bool)
  | track (pointer : PointerRef) (owner : String)
  | release (owner : String)
  | stats
  deriving Inhabited

inductive NativeCommand where
  | registerClass (definition : ClassDefinition)
  | allocate (cls : NativeClassRef) (place : Option PointerRef) (name : Option String)
  | namePointer (owner : String) (name : Option String)
  | retain (pointer : PointerRef)
  | release (pointer : PointerRef)
  | releaseInstance (pointer : PointerRef) (serial : Nat)
  | view (pointer : PointerRef)
  | viewClass (cls : NativeClassRef) (selector : String)
  | isSubclass (cls ancestor : NativeClassRef)
  | respondsTo (receiver : ReceiverRef) (selector : String)
  | send (receiver : ReceiverRef) (selector : String) (args : List NativeArg)
  | getVariable (pointer : PointerRef) (name : String)
  | setVariable (pointer : PointerRef) (name : String) (value : NativeArg)
  | call (name : String) (args : List NativeArg)
  deriving Inhabited

mutual

inductive Expression where
  | literal (value : ScriptValue)
  | var (name : String)
  | constructor (cls : ClassRef)
  | function (callback : Callback)
  | record (fields : List (String × Expression))

-- `save` names the variable that takes the first argument.
inductive Callback where
  | mk (name : Option String) (arity : Option Nat) (save : Option String) (steps : List Step)
      (result : CallbackResult)

inductive CallbackResult where
  | undefined
  | failure (text : String)
  | argument (index : Nat)
  | sum
  | value (value : Expression)

inductive ScriptCommand where
  | evaluate (value : Expression)
  | drop (name : String)
  | new (cls : ClassRef) (args : List Expression) (init : Option String)
  | call (on method : String) (args : List Expression)
  | callStatic (cls : ClassRef) (method : String) (args : List Expression)
  | get (owner : OwnerRef) (property : String)
  | put (owner : OwnerRef) (property : String) (value : Expression)
  | callFunction (name : String) (args : List Expression)
  | global (name : String)
  | apply (function : Expression) (args : List Expression)
  | isInstance (value : Expression) (cls : ClassRef)
  | shutdown
  | display (value : Expression)
  | describe (value : Expression)
  | same (a b : Expression)
  | sameClass (a b : ClassRef)
  | toNative (value : Expression) (type : TypeArg) (invoke : Option (List NativeArg)) (back : Bool)
  | toScripting (value : NativeArg) (type : TypeArg) (owning : Option Bool)

-- `store` names the variable that takes the value that the step answers, if it answers one.
inductive Step where
  | script (command : ScriptCommand) (store : Option String)
  | ask (inquiry : Inquiry)
  | registry (registry : Nat) (command : RegistryCommand) (store : Option String)
  | native (command : NativeCommand)

end

instance : Inhabited Expression := ⟨.literal .undefined⟩

instance : Inhabited Callback := ⟨.mk none none none [] .undefined⟩

instance : Inhabited ScriptCommand := ⟨.shutdown⟩

instance : Inhabited Step := ⟨.ask .stats⟩

namespace Callback

def name : Callback → Option String
  | mk name _ _ _ _ => name

def arity : Callback → Option Nat
  | mk _ arity _ _ _ => arity

def save : Callback → Option String
  | mk _ _ save _ _ => save

def steps : Callback → List Step
  | mk _ _ _ steps _ => steps

def result : Callback → CallbackResult
  | mk _ _ _ _ result => result

end Callback

def Step.store : Step → Option String
  | .script _ store | .registry _ _ store => store
  | .ask _ | .native _ => none

end ObjectBridge
