import ObjectBridge.Metadata.Metadata
import ObjectBridge.Native.Reference

namespace ObjectBridge

structure MethodEntry where
  method : Method
  declaredIn : String
  deriving Inhabited

namespace MethodEntry

def name (e : MethodEntry) : String := e.method.name

def selector (e : MethodEntry) : String := e.method.selector

def signature (e : MethodEntry) : CallSignature := e.method.signature

def arity (e : MethodEntry) : Nat := e.method.signature.arity

def qualifiedName (e : MethodEntry) : String := e.declaredIn ++ "." ++ e.name

-- The initializer that the root class gives to classes that declare none.
def rootInit (className : String) : MethodEntry :=
  ⟨⟨"init", "init", Method.ownsResultFlag ||| Method.initializerFlag, ⟨.object none, []⟩⟩,
    className⟩

end MethodEntry

structure PropertyEntry where
  property : Property
  declaredIn : String
  deriving Inhabited

namespace PropertyEntry

def getter? (e : PropertyEntry) : Option MethodEntry :=
  e.property.getter.map (⟨·, e.declaredIn⟩)

def setter? (e : PropertyEntry) : Option MethodEntry :=
  e.property.setter.map (⟨·, e.declaredIn⟩)

end PropertyEntry

-- Superclass and protocols are known by their descriptors.
structure SynthesizedClass where
  id : DescriptorId
  name : String
  kind : DescriptorKind
  -- The native class behind it, if there was one when it was built.
  native : Option ClassId
  superclass : Option DescriptorId
  protocols : List DescriptorId
  lineage : List DescriptorId
  -- Every protocol conformed to, whether directly or by inheritance.
  conformances : List DescriptorId
  instanceMethods : Table String MethodEntry
  staticMethods : Table String MethodEntry
  instanceProperties : Table String PropertyEntry
  staticProperties : Table String PropertyEntry
  -- Its own in declaration order, then the inherited ones.
  initializers : List MethodEntry
  deriving Inhabited

namespace SynthesizedClass

-- The first one declared with that many parameters.
def initializerForArity? (c : SynthesizedClass) (arity : Nat) : Option MethodEntry :=
  c.initializers.find? (·.arity = arity)

def initializerNamed? (c : SynthesizedClass) (name : String) : Option MethodEntry :=
  c.initializers.find? (·.name = name)

def isSubclassOf (c : SynthesizedClass) (id : DescriptorId) : Bool := id ∈ c.lineage

def conformsTo (c : SynthesizedClass) (id : DescriptorId) : Bool := id ∈ c.conformances

-- Whether its instances may stand where `id` is asked for.
def isCompatible (c : SynthesizedClass) (id : DescriptorId) : Bool :=
  c.isSubclassOf id || c.conformsTo id

end SynthesizedClass

end ObjectBridge
