import ObjectBridge.Registry.Holdings
import ObjectBridge.Script.Value
import ObjectBridge.Synthesis.Memo

namespace ObjectBridge

structure NativeFunction where
  body : Routine
  arity : Nat
  deriving Inhabited

structure BridgeStats where
  classesSynthesized : Nat
  nativeCalls : Nat
  conversionErrors : Nat
  registry : RegistryStats
  deriving DecidableEq, Repr

structure Bridge where
  metadata : Metadata
  natives : ClassTable
  functions : Table String NativeFunction
  holdings : Holdings
  memo : Memo
  nativeCalls : Nat
  conversionErrors : Nat
  -- Functions and blocks outlive the bridge, but then do nothing.
  isOpen : Bool
  nextIdentity : Nat
  deriving Inhabited

-- What changes a bridge and may fail; a failure keeps the changes made before it.
abbrev Effect := ExceptT BridgeError (StateM Bridge)

namespace Bridge

-- The bridge's own registry; others may be opened beside it.
def registryNumber : Nat := 0

-- A bridge to a program with the root class alone, and further registries.
def initial (metadata : Metadata) (registries : List Nat) : Bridge :=
  { metadata := metadata
    natives := ClassTable.initial
    functions := Table.empty
    holdings := Holdings.initial (registryNumber :: registries)
    memo := Memo.empty
    nativeCalls := 0
    conversionErrors := 0
    isOpen := true
    nextIdentity := 0 }

def source (b : Bridge) : Synthesis.Source := ⟨b.metadata, b.natives⟩

def heap (b : Bridge) : Heap := b.holdings.heap

def registryStats? (b : Bridge) (registry : Nat) : Option RegistryStats :=
  (b.holdings.registry? registry).map (·.stats)

def stats (b : Bridge) : BridgeStats :=
  ⟨b.memo.built, b.nativeCalls, b.conversionErrors,
    (b.registryStats? registryNumber).getD ⟨0, 0, 0, 0⟩⟩

-- Afterwards wrappers give nothing back, and callbacks do nothing.
def close (b : Bridge) : Bridge :=
  { b with isOpen := false, holdings := b.holdings.close registryNumber }

def cloneValue (b : Bridge) (v : ScriptValue) : Bridge :=
  { b with holdings := v.wrappers.foldl Holdings.cloneHandle b.holdings }

def dropValue (b : Bridge) (v : ScriptValue) : Bridge :=
  { b with holdings := v.wrappers.foldl Holdings.drop b.holdings }

def dropValues (b : Bridge) (vs : List ScriptValue) : Bridge := vs.foldl dropValue b

def cloneNative (b : Bridge) (v : NativeValue) : Bridge :=
  { b with holdings := v.wrappers.foldl Holdings.cloneHandle b.holdings }

def dropNative (b : Bridge) (v : NativeValue) : Bridge :=
  { b with holdings := v.wrappers.foldl Holdings.drop b.holdings }

end Bridge

namespace Effect

-- Building a class changes the memo alone.
def synthesis (build : Synthesis.Source → Memo → Synthesis.Outcome α) : Effect α := fun b =>
  let (result, memo) := build b.source b.memo
  (result, { b with memo := memo })

def synthesize (id : DescriptorId) : Effect SynthesizedClass :=
  synthesis fun source => Synthesis.classOf source id

def synthesizeNamed (name : String) : Effect SynthesizedClass :=
  synthesis fun source => Synthesis.classNamed source name

def freshIdentity : Effect Nat := fun b =>
  (.ok b.nextIdentity, { b with nextIdentity := b.nextIdentity + 1 })

def onHoldings (f : Holdings → α × Holdings) : Effect α := fun b =>
  let (a, holdings) := f b.holdings
  (.ok a, { b with holdings := holdings })

def dropValue (v : ScriptValue) : Effect Unit := fun b => (.ok (), b.dropValue v)

end Effect

end ObjectBridge
