import ObjectBridge.Native.Heap
import ObjectBridge.Registry.Wrapper

namespace ObjectBridge

structure RegistryStats where
  -- Entries, not wrappers.
  live : Nat
  created : Nat
  released : Nat
  -- Releases of a wrapper that was released before.
  doubleReleases : Nat
  deriving DecidableEq, Repr, Inhabited

-- A registry enters at most one wrapper for an address and never keeps it alive; an entry made for
-- an instance that died meanwhile is never handed out.
structure Registry where
  entries : Table Address Nat
  created : Nat
  released : Nat
  doubleReleases : Nat
  deriving Inhabited

def Registry.empty : Registry := ⟨Table.empty, 0, 0, 0⟩

def Registry.stats (r : Registry) : RegistryStats :=
  ⟨r.entries.size, r.created, r.released, r.doubleReleases⟩

structure Holdings where
  heap : Heap
  wrappers : Table Nat WrapperState
  nextWrapper : Nat
  registries : Table Nat Registry
  deriving Inhabited

namespace Holdings

-- One open registry for each given number.
def initial (registries : List Nat) : Holdings :=
  ⟨Heap.empty, Table.empty, 0, Table.ofList (registries.map (·, Registry.empty))⟩

def state? (s : Holdings) (wrapper : Nat) : Option WrapperState := s.wrappers.get? wrapper

def held? (s : Holdings) (wrapper : Nat) : Option WrapperState :=
  (s.state? wrapper).filter (0 < ·.handles)

def setState (s : Holdings) (w : WrapperState) : Holdings :=
  { s with wrappers := s.wrappers.put w.wrapper.id w }

def registry? (s : Holdings) (r : Nat) : Option Registry := s.registries.get? r

def modifyRegistry (s : Holdings) (r : Nat) (f : Registry → Registry) : Holdings :=
  match s.registry? r with
  | some registry => { s with registries := s.registries.put r (f registry) }
  | none => s

-- Whether the instance at the wrapper's address is still the one it was made for.
def isCurrent (s : Holdings) (w : Wrapper) : Bool := s.heap.serial? w.address = some w.serial

def isReleased (s : Holdings) (w : Wrapper) : Bool := ((s.state? w.id).map (·.released)).getD false

def isOwning (s : Holdings) (w : Wrapper) : Bool := ((s.state? w.id).map (·.owning)).getD false

def handleCount (s : Holdings) (w : Wrapper) : Nat := ((s.state? w.id).map (·.handles)).getD 0

def keptCount (s : Holdings) : Nat := (s.heap.objects.values.map (·.keeps.length)).foldr (· + ·) 0

-- Releases a native reference; the handles that this sets free are still to be dropped.
def releaseReference (s : Holdings) (a : Address) (serial : Nat) : Holdings × List Nat :=
  let r := s.heap.releaseInstance a serial
  ({ s with heap := r.heap }, r.freed)

def forget (s : Holdings) (r : Nat) (w : Wrapper) : Holdings :=
  s.modifyRegistry r fun registry =>
    if registry.entries.get? w.address = some w.id then
      { registry with entries := registry.entries.erase w.address }
    else registry

-- The one way on which a wrapper gives its instance back, whether by explicit release or with its
-- last handle. Whether this call did it, and the handles set free.
def finalize (s : Holdings) (r : Nat) (w : WrapperState) (explicit : Bool) :
    Bool × Holdings × List Nat :=
  let s := s.forget r w.wrapper
  if w.released then
    let s := if explicit then
      s.modifyRegistry r fun registry =>
        { registry with doubleReleases := registry.doubleReleases + 1 }
      else s
    (false, s, [])
  else
    let s := s.setState { w with released := true }
    let s := s.modifyRegistry r fun registry => { registry with released := registry.released + 1 }
    if w.owning then
      let (s, freed) := s.releaseReference w.wrapper.address w.wrapper.serial
      (true, s, freed)
    else (true, s, [])

-- Drops one handle. The last one takes the wrapper with it, if the registry that made the wrapper
-- is still open.
def dropHandle (s : Holdings) (wrapper : Nat) : Holdings × List Nat :=
  match s.held? wrapper with
  | none => (s, [])
  | some w =>
    let w := { w with handles := w.handles - 1 }
    let s := s.setState w
    if w.handles = 0 ∧ (s.registry? w.wrapper.home).isSome then
      let (_, s, freed) := s.finalize w.wrapper.home w false
      (s, freed)
    else (s, [])

-- Drops handles and whatever that sets free, in depth first order.
def settleWith : (fuel : Nat) → Holdings → List Nat → Holdings
  | _, s, [] => s
  | 0, s, _ => s
  | fuel + 1, s, wrapper :: rest =>
    let (s, freed) := s.dropHandle wrapper
    settleWith fuel s (freed ++ rest)

-- There are no more handles to drop than are pending or kept.
def settle (s : Holdings) (pending : List Nat) : Holdings :=
  settleWith (pending.length + s.keptCount) s pending

def cloneHandle (s : Holdings) (w : Wrapper) : Holdings :=
  match s.state? w.id with
  | some state => s.setState { state with handles := state.handles + 1 }
  | none => s

def drop (s : Holdings) (w : Wrapper) : Holdings := s.settle [w.id]

def keep (s : Holdings) (a : Address) (w : Wrapper) : Holdings :=
  match s.heap.get? a with
  | some i => { s with heap := s.heap.update a { i with keeps := i.keeps ++ [w.id] } }
  | none => s.drop w

-- The wrapper of an address, as long as some handle refers to it.
def entry? (s : Holdings) (r : Nat) (a : Address) : Option WrapperState := do
  let registry ← s.registry? r
  s.held? (← registry.entries.get? a)

-- The wrapper of the instance that lives at an address now.
def lookup? (s : Holdings) (r : Nat) (a : Address) : Option Wrapper :=
  match s.entry? r a with
  | some w => if s.isCurrent w.wrapper then some w.wrapper else none
  | none => none

-- As `lookup?`, with a handle for the caller.
def lookup (s : Holdings) (r : Nat) (a : Address) : Option Wrapper × Holdings :=
  match s.lookup? r a with
  | some w => (some w, s.cloneHandle w)
  | none => (none, s)

def contains (s : Holdings) (r : Nat) (a : Address) : Bool := (s.lookup? r a).isSome

def enter (s : Holdings) (r : Nat) (w : Wrapper) : Holdings :=
  s.modifyRegistry r fun registry =>
    { registry with entries := registry.entries.put w.address w.id }

-- A new wrapper with one handle, in the place of any other for that address.
def create (s : Holdings) (r : Nat) (a : Address) (serial : Nat) (cls : SynthesizedClass)
    (owning : Bool) : Wrapper × Holdings :=
  let w : Wrapper := ⟨s.nextWrapper, a, serial, cls, r⟩
  let s := { s with nextWrapper := s.nextWrapper + 1 }
  let s := s.setState ⟨w, owning, false, 1⟩
  let s := s.modifyRegistry r fun registry => { registry with created := registry.created + 1 }
  (w, s.enter r w)

-- The wrapper of the instance at an address, with a handle for the caller; `owning` hands a
-- reference over. The wrapper takes it, or if it has one already, the surplus reference is released.
-- No instance has the serial zero, so a wrapper made for a dead address is never current.
def wrapperFor (s : Holdings) (r : Nat) (a : Address) (cls : SynthesizedClass) (owning : Bool) :
    Wrapper × Holdings :=
  let serial := (s.heap.serial? a).getD 0
  match (s.entry? r a).filter (·.wrapper.serial = serial) with
  | none => s.create r a serial cls owning
  | some w =>
    let s := s.setState { w with owning := w.owning || owning, handles := w.handles + 1 }
    if owning && w.owning then
      let (s, freed) := s.releaseReference a serial
      (w.wrapper, s.settle freed)
    else (w.wrapper, s)

-- Enters a wrapper under its own address, unless its instance is gone, it was released, or another
-- wrapper stands for the instance.
def track (s : Holdings) (r : Nat) (a : Address) (w : Wrapper) : Bool × Holdings :=
  if w.address ≠ a ∨ s.isReleased w ∨ !s.isCurrent w then (false, s)
  else
    match (s.entry? r a).filter (·.wrapper.serial = w.serial) with
    | some other => (other.wrapper.id = w.id, s)
    | none => (true, s.enter r w)

def release (s : Holdings) (r : Nat) (w : Wrapper) : Bool × Holdings :=
  match s.state? w.id with
  | none => (false, s)
  | some state =>
    let (did, s, freed) := s.finalize r state true
    (did, s.settle freed)

def releaseAddress (s : Holdings) (a : Address) : ReleaseOutcome × Holdings :=
  let r := s.heap.release a
  (r.outcome, { s with heap := r.heap }.settle r.freed)

def releaseInstance (s : Holdings) (a : Address) (serial : Nat) : ReleaseOutcome × Holdings :=
  let r := s.heap.releaseInstance a serial
  (r.outcome, { s with heap := r.heap }.settle r.freed)

-- A closed registry counts nothing and its wrappers give nothing back.
def close (s : Holdings) (r : Nat) : Holdings := { s with registries := s.registries.erase r }

end Holdings

end ObjectBridge
