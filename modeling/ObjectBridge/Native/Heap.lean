import ObjectBridge.Native.ClassTable

namespace ObjectBridge

-- An address may have served an earlier instance; with the serial it tells one from all others.
structure Instance where
  cls : ClassId
  serial : Nat
  -- The retain count, which comes round to zero past the greatest word.
  word : UInt32
  ivars : Table String NativeValue
  -- Wrapper handles that go when the variables go.
  keeps : List Nat
  deriving Inhabited

structure Heap where
  objects : Table Address Instance
  nextSerial : Nat
  deriving Inhabited

inductive ReleaseOutcome where
  | released (remaining : Nat)
  | destroyed
  | notLive
  deriving DecidableEq, Repr, Inhabited

namespace Instance

def count (i : Instance) : Nat := i.word.toNat

def retained (i : Instance) : Instance := { i with word := i.word + 1 }

def lowered (i : Instance) : Instance := { i with word := i.word - 1 }

end Instance

namespace Heap

def empty : Heap := ⟨Table.empty, 1⟩

def get? (h : Heap) (a : Address) : Option Instance := h.objects.get? a

def isLive (h : Heap) (a : Address) : Bool := h.objects.contains a

def liveCount (h : Heap) : Nat := h.objects.size

def serial? (h : Heap) (a : Address) : Option Nat := (h.get? a).map (·.serial)

def classOf? (h : Heap) (a : Address) : Option ClassId := (h.get? a).map (·.cls)

-- The address of the instance with that serial, unless it took over one.
def freshAddress (serial : Nat) : Address := ⟨0x1000 * serial⟩

-- An address that served before and is free again.
def IsVacant (h : Heap) (a : Address) : Prop :=
  a.isNull = false ∧ a.value < (freshAddress h.nextSerial).value ∧ h.isLive a = false

instance (h : Heap) (a : Address) : Decidable (h.IsVacant a) :=
  inferInstanceAs (Decidable (_ ∧ _))

-- Where the next instance goes: to `place` if that is vacant, else to a fresh address.
def nextAddress (h : Heap) : (place : Option Address) → Address
  | some a => if h.IsVacant a then a else freshAddress h.nextSerial
  | none => freshAddress h.nextSerial

def allocate (h : Heap) (cls : ClassId) (place : Option Address) : Address × Heap :=
  let a := h.nextAddress place
  (a, ⟨h.objects.put a ⟨cls, h.nextSerial, 1, Table.empty, []⟩, h.nextSerial + 1⟩)

def update (h : Heap) (a : Address) (i : Instance) : Heap := { h with objects := h.objects.put a i }

def retain (h : Heap) (a : Address) : Bool × Heap :=
  match h.get? a with
  | some i => (true, h.update a i.retained)
  | none => (false, h)

-- What is left of an instance that was destroyed: the handles that its variables kept.
structure Released where
  outcome : ReleaseOutcome
  freed : List Nat
  heap : Heap
  deriving Inhabited

-- A count that has come round to zero is not lowered.
def lower (h : Heap) (a : Address) (i : Instance) : Released :=
  match i.count with
  | 0 => ⟨.notLive, [], h⟩
  | 1 => ⟨.destroyed, i.keeps, { h with objects := h.objects.erase a }⟩
  | remaining + 1 => ⟨.released remaining, [], h.update a i.lowered⟩

def release (h : Heap) (a : Address) : Released :=
  match h.get? a with
  | some i => h.lower a i
  | none => ⟨.notLive, [], h⟩

-- Only if the instance at that address is the one with that serial.
def releaseInstance (h : Heap) (a : Address) (serial : Nat) : Released :=
  match h.get? a with
  | some i => if i.serial = serial then h.lower a i else ⟨.notLive, [], h⟩
  | none => ⟨.notLive, [], h⟩

def variableAt? (h : Heap) (a : Address) (name : String) : Option NativeValue :=
  (h.get? a).bind (·.ivars.get? name)

def setVariable (h : Heap) (a : Address) (name : String) (value : NativeValue) : Bool × Heap :=
  match h.get? a with
  | some i => (true, h.update a { i with ivars := i.ivars.put name value })
  | none => (false, h)

end Heap

end ObjectBridge
