import ObjectBridge.Queue.Dispatcher

namespace ObjectBridge

inductive WakeTarget where
  | counter
  | channel (number : Nat)
  deriving DecidableEq, Repr, Inhabited

structure WakeReceiver where
  channel : Nat
  pending : Bool
  deriving DecidableEq, Repr

structure Workbench (μ : Type) where
  queue : Queue μ WakeTarget
  wakes : Nat
  receiver : Option WakeReceiver
  nextChannel : Nat
  dispatcher : Option (Dispatcher μ WakeTarget)
  ran : List μ

namespace Workbench

variable {μ : Type}

def initial (coalescing : Bool) : Workbench μ :=
  ⟨Queue.empty coalescing, 0, none, 0, none, []⟩

def wake (b : Workbench μ) : Option WakeTarget → Workbench μ
  | none => b
  | some .counter => { b with wakes := b.wakes + 1 }
  | some (.channel number) =>
    { b with receiver := b.receiver.map fun r =>
        if r.channel = number then { r with pending := true } else r }

def attachCounter (b : Workbench μ) : Workbench μ :=
  { b with queue := b.queue.attach .counter }

-- A new channel; its receiver takes the place of the one before.
def attachChannel (b : Workbench μ) : Workbench μ :=
  { b with
    queue := b.queue.attach (.channel b.nextChannel)
    receiver := some ⟨b.nextChannel, false⟩
    nextChannel := b.nextChannel + 1 }

def push (b : Workbench μ) (m : μ) : Bool × Workbench μ :=
  let p := b.queue.push m
  (p.accepted, { b with queue := p.queue }.wake p.woken)

def popAll (b : Workbench μ) : List μ × Workbench μ :=
  let (messages, queue) := b.queue.popAll
  (messages, { b with queue := queue })

def terminate (b : Workbench μ) : Workbench μ := { b with queue := b.queue.terminate }

-- Whether a wake was pending; nothing without a receiver.
def await (b : Workbench μ) : Option Bool × Workbench μ :=
  (b.receiver.map (·.pending),
    { b with receiver := b.receiver.map fun r => { r with pending := false } })

def dropReceiver (b : Workbench μ) : Bool × Workbench μ :=
  (b.receiver.isSome, { b with receiver := none })

def createDispatcher (b : Workbench μ) (thread : Nat) : Workbench μ :=
  { b with dispatcher := some (.create thread .counter) }

-- Whether the thread owns the dispatcher, and whether the task was accepted.
def execute (b : Workbench μ) (thread : Nat) (task : μ) : Option ((Bool × Bool) × Workbench μ) :=
  b.dispatcher.map fun d =>
    let e := d.execute thread task
    ((d.isOwner thread, e.accepted),
      { b with dispatcher := some e.dispatcher, ran := b.ran ++ e.ran }.wake e.woken)

def runPending (b : Workbench μ) : Option (Nat × Workbench μ) :=
  b.dispatcher.map fun d =>
    let (tasks, d) := d.runPending
    (tasks.length, { b with dispatcher := some d, ran := b.ran ++ tasks })

def stopDispatcher (b : Workbench μ) : Workbench μ :=
  { b with dispatcher := b.dispatcher.map (·.terminate) }

end Workbench

end ObjectBridge
