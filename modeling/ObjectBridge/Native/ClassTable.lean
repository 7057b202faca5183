import ObjectBridge.Native.Call
import ObjectBridge.Table

namespace ObjectBridge

structure NativeClass where
  name : String
  superclass : Option ClassId
  instanceMethods : Table String Routine
  classMethods : Table String Routine
  deriving Inhabited

namespace NativeClass

def methods (c : NativeClass) (onClass : Bool) : Table String Routine :=
  if onClass then c.classMethods else c.instanceMethods

-- An implementation of the class itself.
def own? (c : NativeClass) (selector : String) (onClass : Bool) : Option Routine :=
  (c.methods onClass).get? selector

end NativeClass

structure ClassDefinition where
  name : String
  superclass : Option String
  instanceMethods : Table String Routine
  classMethods : Table String Routine
  deriving Inhabited

structure ClassTable where
  newestFirst : List NativeClass
  deriving Inhabited

namespace ClassTable

def classIn? (index : Nat) : List NativeClass → Option NativeClass
  | [] => none
  | c :: older => if index = older.length then some c else classIn? index older

def class? (t : ClassTable) (id : ClassId) : Option NativeClass := classIn? id.index t.newestFirst

def idIn? (name : String) : List NativeClass → Option ClassId
  | [] => none
  | c :: older => if c.name = name then some ⟨older.length⟩ else idIn? name older

def named? (t : ClassTable) (name : String) : Option ClassId := idIn? name t.newestFirst

def name? (t : ClassTable) (id : ClassId) : Option String := (t.class? id).map (·.name)

def chainIn (index : Nat) : List NativeClass → List (ClassId × NativeClass)
  | [] => []
  | c :: older =>
    if index = older.length then
      (⟨index⟩, c) :: match c.superclass with
        | some parent => chainIn parent.index older
        | none => []
    else chainIn index older

def chain (t : ClassTable) (id : ClassId) : List (ClassId × NativeClass) :=
  chainIn id.index t.newestFirst

def isSubclass (t : ClassTable) (id ancestor : ClassId) : Bool :=
  id = ancestor || (t.chain id).any (·.1 = ancestor)

def lookup (t : ClassTable) (id : ClassId) (selector : String) (onClass : Bool) : Option Routine :=
  (t.chain id).findSome? fun (_, c) => c.own? selector onClass

def rootName : String := "NSObject"

-- The root class answers `init` by itself.
def root : NativeClass := ⟨rootName, none, Table.ofList [("init", ⟨"this"⟩)], Table.empty⟩

def initial : ClassTable := ⟨[root]⟩

-- The superclass has to be there, the name must be new; without a superclass the root is it.
def register (t : ClassTable) (d : ClassDefinition) : Except CallError (ClassId × ClassTable) := do
  let parent ← match d.superclass with
    | some name =>
      match t.named? name with
      | some id => pure (some id)
      | none => throw (.unknownClass name)
    | none => pure (t.named? rootName)
  if (t.named? d.name).isSome then throw (.duplicateClass d.name)
  return (⟨t.newestFirst.length⟩,
    ⟨⟨d.name, parent, d.instanceMethods, d.classMethods⟩ :: t.newestFirst⟩)

-- How a receiver is called that does not answer.
def describe (t : ClassTable) (id : ClassId) (onClass : Bool) : String :=
  (if onClass then "class " else "instance of ") ++ (t.name? id).getD ("#" ++ toString id.index)

end ClassTable

end ObjectBridge
