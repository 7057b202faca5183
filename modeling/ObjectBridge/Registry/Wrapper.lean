import ObjectBridge.Synthesis.SynthesizedClass

namespace ObjectBridge

-- What never changes about a wrapper. `home` is the registry that made it.
structure Wrapper where
  id : Nat
  address : Address
  serial : Nat
  cls : SynthesizedClass
  home : Nat
  deriving Inhabited

-- What does. A wrapper without handles is gone.
structure WrapperState where
  wrapper : Wrapper
  -- Giving the wrapper up releases the instance.
  owning : Bool
  released : Bool
  handles : Nat
  deriving Inhabited

end ObjectBridge
