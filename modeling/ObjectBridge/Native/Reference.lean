import ObjectBridge.Text.Hex

namespace ObjectBridge

structure Address where
  value : Nat
  deriving DecidableEq, Repr, Inhabited

namespace Address

def null : Address := ⟨0⟩

def isNull (a : Address) : Bool := a.value = 0

def text (a : Address) : String := Hex.marked a.value

instance : LT Address := ⟨fun a b => a.value < b.value⟩

instance : DecidableLT Address := fun a b => inferInstanceAs (Decidable (a.value < b.value))

end Address

-- A native class, numbered in the order of registration.
structure ClassId where
  index : Nat
  deriving DecidableEq, Repr, Inhabited

-- A piece of native code, known by its name.
structure Routine where
  name : String
  deriving DecidableEq, Repr, Inhabited

end ObjectBridge
