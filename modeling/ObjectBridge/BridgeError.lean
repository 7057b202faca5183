import ObjectBridge.Metadata.Error
import ObjectBridge.Native.Call

namespace ObjectBridge

-- A value that does not convert is reported first without a place; `located` fills in the member and
-- the argument (none for the result).
inductive BridgeError where
  | fatalLoad (error : LoadError)
  | synthesis (typeName reason : String)
  | typeMismatch (member : String) (index : Option Nat) (expected actual : String)
  | arityMismatch (member : String) (expected got : Nat) (signature : String)
  | conversion (member : String) (index : Option Nat) (expected actual reason : String)
  | notFound (owner name : String)
  | readOnlyProperty (typeName property : String)
  | releasedInstance (typeName : String) (address : Address)
  | constructionFailed (typeName selector : String)
  | native (error : CallError)
  deriving DecidableEq, Repr

namespace BridgeError

private def position : Option Nat → String
  | some index => "argument " ++ toString (index + 1)
  | none => "return value"

def message : BridgeError → String
  | .fatalLoad error => "fatal metadata error: " ++ error.message
  | .synthesis typeName reason => "cannot synthesize '" ++ typeName ++ "': " ++ reason
  | .typeMismatch member index expected actual =>
    member ++ ": " ++ position index ++ " expected " ++ expected ++ ", got " ++ actual
  | .arityMismatch member expected got signature =>
    member ++ ": expected " ++ toString expected ++ " argument(s) for " ++ signature ++ ", got "
      ++ toString got
  | .conversion member index expected actual reason =>
    member ++ ": cannot convert " ++ actual ++ " to " ++ expected ++ " for " ++ position index
      ++ ": " ++ reason
  | .notFound owner name => "'" ++ name ++ "' not found on " ++ owner
  | .readOnlyProperty typeName property =>
    "property '" ++ property ++ "' of " ++ typeName ++ " is read-only"
  | .releasedInstance typeName address =>
    typeName ++ " instance " ++ address.text ++ " was already released"
  | .constructionFailed typeName selector =>
    "construction of " ++ typeName ++ " failed: '" ++ selector ++ "' returned nil"
  | .native error => error.message

def isFatal : BridgeError → Bool
  | .fatalLoad _ | .synthesis .. => true
  | _ => false

-- A place that is known already stays.
def located (e : BridgeError) (site : String) (place : Option Nat) : BridgeError :=
  match e with
  | .typeMismatch member index expected actual =>
    if member.isEmpty then .typeMismatch site place expected actual
    else .typeMismatch member index expected actual
  | .conversion member index expected actual reason =>
    if member.isEmpty then .conversion site place expected actual reason
    else .conversion member index expected actual reason
  | e => e

def mismatch (expected actual : String) : BridgeError := .typeMismatch "" none expected actual

def inconvertible (expected actual reason : String) : BridgeError :=
  .conversion "" none expected actual reason

end BridgeError

end ObjectBridge
