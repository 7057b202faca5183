import ObjectBridge.Native.Value

namespace ObjectBridge

inductive Receiver where
  | instance (address : Address)
  | classObject (id : ClassId)
  | none
  deriving DecidableEq, Repr, Inhabited

structure Frame where
  receiver : Receiver
  selector : String
  args : List NativeValue
  deriving Inhabited

-- The receiving instance; null for classes and plain functions.
def Frame.this (frame : Frame) : Address :=
  match frame.receiver with
  | .instance address => address
  | _ => .null

-- A selector takes one argument for each of its colons.
def selectorArity (selector : String) : Nat := selector.toList.count ':'

-- Why no implementation was run, or no class registered.
inductive CallError where
  | argCountMismatch (expected got : Nat)
  | unrecognizedSelector (receiver selector : String)
  | unknownFunction (name : String)
  | unknownClass (name : String)
  | duplicateClass (name : String)
  | deadReceiver (address : Address)
  deriving DecidableEq, Repr

def CallError.message : CallError → String
  | .argCountMismatch expected got =>
    "expected " ++ toString expected ++ " arguments, got " ++ toString got
  | .unrecognizedSelector receiver selector =>
    receiver ++ " does not recognize selector '" ++ selector ++ "'"
  | .unknownFunction name => "no native function named '" ++ name ++ "'"
  | .unknownClass name => "no native class named '" ++ name ++ "'"
  | .duplicateClass name => "class '" ++ name ++ "' is already registered"
  | .deadReceiver address => "message sent to deallocated instance " ++ address.text

end ObjectBridge
