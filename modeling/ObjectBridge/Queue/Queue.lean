namespace ObjectBridge

-- `μ` are messages and `ω` what is woken.
structure Queue (μ ω : Type) where
  messages : List μ
  target : Option ω
  armed : Bool
  terminated : Bool
  coalescing : Bool
  deriving Inhabited

namespace Queue

variable {μ ω : Type}

def empty (coalescing : Bool) : Queue μ ω := ⟨[], none, true, false, coalescing⟩

-- The operations are made of sections that each happen at once; other producers and the consumer may
-- come in between them.
def enqueue (q : Queue μ ω) (m : μ) : Queue μ ω := { q with messages := q.messages ++ [m] }

def arm (q : Queue μ ω) : Queue μ ω := { q with armed := true }

-- Whether this push is the one to wake.
def disarm (q : Queue μ ω) : Bool × Queue μ ω :=
  if q.coalescing then (q.armed, { q with armed := false }) else (true, q)

def takeMessages (q : Queue μ ω) : List μ × Queue μ ω := (q.messages, { q with messages := [] })

def refuse (q : Queue μ ω) : Queue μ ω := { q with terminated := true }

def detach (q : Queue μ ω) : Queue μ ω := { q with target := none }

def attach (q : Queue μ ω) (target : ω) : Queue μ ω :=
  { q with target := some target }.arm

structure Pushed (μ ω : Type) where
  accepted : Bool
  woken : Option ω
  queue : Queue μ ω

-- A terminated queue accepts nothing.
def push (q : Queue μ ω) (m : μ) : Pushed μ ω :=
  if q.terminated then ⟨false, none, q⟩
  else
    let (wakes, q) := (q.enqueue m).disarm
    ⟨true, if wakes then q.target else none, q⟩

-- Everything that is queued, oldest first.
def popAll (q : Queue μ ω) : List μ × Queue μ ω := q.arm.takeMessages

-- No wakes from here on; what is queued is discarded.
def terminate (q : Queue μ ω) : Queue μ ω := q.refuse.detach.takeMessages.2

def length (q : Queue μ ω) : Nat := q.messages.length

end Queue

end ObjectBridge
