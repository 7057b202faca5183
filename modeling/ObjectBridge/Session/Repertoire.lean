import ObjectBridge.Bridge.Marshal

namespace ObjectBridge.Repertoire

variable {σ : Type}

-- The instance variable that an accessor is for: `setXyz:` writes `xyz`, any other selector reads
-- the variable of its own name.
def variableOf (selector : String) : String :=
  match selector.toList with
  | 's' :: 'e' :: 't' :: rest =>
    match rest.reverse with
    | ':' :: body =>
      match body.reverse with
      | [] => selector
      | c :: tail => String.ofList (c.toLower :: tail)
    | _ => selector
  | _ => selector

def onHeap (f : Heap → α × Heap) : Run σ α :=
  Run.onBridge fun b =>
    let (a, heap) := f b.heap
    (a, { b with holdings := { b.holdings with heap := heap } })

def release (a : Address) : Run σ Unit :=
  Run.onBridge fun b => ((), { b with holdings := (b.holdings.releaseAddress a).2 })

def readVariable (a : Address) (name : String) : Run σ NativeValue :=
  Run.readBridge fun b => (b.heap.variableAt? a name).getD .void

def writeVariable (a : Address) (name : String) (v : NativeValue) : Run σ Unit :=
  onHeap fun h => ((), (h.setVariable a name v).2)

def receiverClass (frame : Frame) : Run σ (Option ClassId) :=
  match frame.receiver with
  | .instance a => Run.readBridge (·.heap.classOf? a)
  | .classObject id => return some id
  | .none => return none

def newInstance (cls : Option ClassId) : Run σ NativeValue := do
  match cls with
  | none => return .object .null
  | some id =>
    match ← Host.allocate id none with
    | .ok a => return .object a
    | .error _ => return .object .null

def freshBlock (arity : Nat) (body : String) : Run σ NativeValue :=
  Run.onBridge fun b =>
    (.block (some (.native b.nextIdentity arity ⟨body⟩)),
      { b with nextIdentity := b.nextIdentity + 1 })

def textOrVoid (text : String) : NativeValue := (NativeValue.ofText? text).getD .void

def sumOf (args : List NativeValue) : NativeValue :=
  .f64 ((args.filterMap (·.toDouble?)).foldl (· + ·) .zero)

def integerSumOf (args : List NativeValue) : NativeValue :=
  .ofInt .i64 ((args.filterMap (·.toInt?)).foldl (· + ·) 0)

-- Stores the arguments in the variables `a0`, `a1` and so on.
def storeArgs (this : Address) (index : Nat) : List NativeValue → Run σ Unit
  | [] => pure ()
  | v :: rest => do
    writeVariable this ("a" ++ toString index) v
    storeArgs this (index + 1) rest

-- What comes back from a block; a block that refuses leaves its reason.
def invoke (host : Host σ) (block : Option NativeBlock) (args : List NativeValue) :
    Run σ NativeValue := do
  match block with
  | none => return .void
  | some block =>
    match ← host.invokeBlock block args with
    | .ok v => return v
    | .error e => return textOrVoid e.message

-- `host` runs what is called back.
def perform (host : Host σ) (body : Routine) (frame : Frame) : Run σ NativeValue := do
  let this := frame.this
  let arg (index : Nat) : NativeValue := (frame.args[index]?).getD .void
  let objectArg := (arg 0).toAddress?.getD .null
  match body.name with
  | "this" => return .object this
  | "nil" => return .object .null
  | "arg0" => return arg 0
  | "arg1" => return arg 1
  | "pack" => return .struct frame.args
  | "count" => return .ofInt .i64 frame.args.length
  | "release_nil" =>
    release this
    return .object .null
  | "release_this" =>
    release this
    return .object this
  | "retain_this" =>
    let _ ← onHeap (·.retain this)
    return .object this
  | "init" =>
    storeArgs this 0 frame.args
    return .object this
  | "init_pos" =>
    if frame.args.any fun v => v.toDouble?.any Double.isBelowZero then
      release this
      return .object .null
    else
      storeArgs this 0 frame.args
      return .object this
  | "init_swap" =>
    let cls ← receiverClass frame
    release this
    newInstance cls
  | "alloc" => newInstance (← receiverClass frame)
  | "alloc_named" =>
    let cls ← Run.readBridge fun b => (arg 0).toText?.bind b.natives.named?
    newInstance cls
  | "get" => readVariable this (variableOf frame.selector)
  | "set" =>
    writeVariable this (variableOf frame.selector) (arg 0)
    return .void
  | "sum" => return sumOf frame.args
  | "isum" => return integerSumOf frame.args
  | "selector" => return textOrVoid frame.selector
  | "class_name" =>
    let cls ← receiverClass frame
    let name ← Run.readBridge fun b => cls.bind b.natives.name?
    return textOrVoid (name.getD "nil")
  | "my_class" => return .classRef (← receiverClass frame)
  | "class_of" => return .classRef (← Run.readBridge (·.heap.classOf? objectArg))
  | "retain_arg" =>
    let _ ← onHeap (·.retain objectArg)
    return arg 0
  | "release_arg" =>
    release objectArg
    return .void
  | "call" => invoke host (arg 0).toBlock? frame.args.tail
  | "call_ivar" => invoke host (← readVariable this "block").toBlock? frame.args
  | "bump" =>
    let n := ((← readVariable this "n").toInt?).getD 0
    let next := NativeValue.ofInt .i64 (n + 1)
    writeVariable this "n" next
    return next
  | "i64_max" => return .ofInt .i64 (IntKind.greatest .i64)
  | "i64_min" => return .ofInt .i64 (IntKind.least .i64)
  | "u64_max" => return .ofInt .u64 (IntKind.greatest .u64)
  | "nan" => return .f64 ⟨0x7ff8000000000000⟩
  | "bad_utf8" => return .cstring (some [0xff, 0xfe])
  | "dangling" => return .object ⟨0x40⟩
  | "block_inc" => freshBlock 1 "inc"
  | "block_bad" => freshBlock 3 "count"
  | "inc" => return .f64 (((arg 0).toDouble?.getD .zero) + .ofInt 1)
  | _ => return .void

end ObjectBridge.Repertoire
