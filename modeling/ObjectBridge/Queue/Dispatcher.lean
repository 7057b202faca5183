import ObjectBridge.Queue.Queue

namespace ObjectBridge

-- Threads are told apart by numbers.
structure Dispatcher (τ ω : Type) where
  owner : Nat
  queue : Queue τ ω

namespace Dispatcher

variable {τ ω : Type}

-- Owned by the thread that makes it.
def create (thread : Nat) (target : ω) : Dispatcher τ ω :=
  ⟨thread, (Queue.empty true).attach target⟩

def isOwner (d : Dispatcher τ ω) (thread : Nat) : Bool := thread = d.owner

structure Executed (τ ω : Type) where
  accepted : Bool
  ran : List τ
  woken : Option ω
  dispatcher : Dispatcher τ ω

def execute (d : Dispatcher τ ω) (thread : Nat) (task : τ) : Executed τ ω :=
  if d.isOwner thread then ⟨true, [task], none, d⟩
  else
    let p := d.queue.push task
    ⟨p.accepted, [], p.woken, { d with queue := p.queue }⟩

def runPending (d : Dispatcher τ ω) : List τ × Dispatcher τ ω :=
  let (tasks, queue) := d.queue.popAll
  (tasks, { d with queue := queue })

def terminate (d : Dispatcher τ ω) : Dispatcher τ ω := { d with queue := d.queue.terminate }

end Dispatcher

end ObjectBridge
