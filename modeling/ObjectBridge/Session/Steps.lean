import ObjectBridge.Session.Env
import ObjectBridge.Session.Repertoire

namespace ObjectBridge

namespace Act

def nativeAnswer (v : Option NativeValue) : Act Answer := do
  return .native v (← readBridge (·.natives))

-- What a name is declared as: the signature of a function, else the kind of the declaration.
def describedAs (m : Metadata) (name : String) : Option String :=
  match m.resolve? name with
  | some (_, .function _ signature) => some (m.signatureText signature)
  | some (_, d) => some d.kind.title
  | none => none

def answerInquiry : Inquiry → Act Answer
  | .stats => do return .stats (← readBridge (·.stats))
  | .describedClass c => do return .describedClass (← describedClass c)
  | .compatible c other => do
    let c ← describedClass c
    let id ← descriptorId other
    return .compatible (c.isSubclassOf id) (c.conformsTo id) (c.isCompatible id)
  | .state c => do
    let id ← descriptorId c
    let memo ← readBridge (·.memo)
    return .state (memo.state id) ((memo.cached? id).map (·.name)) memo.built
  | .classOfInstance p declared => do
    let a ← pointer p
    let declared ← declared.mapM descriptorId
    let heap ← readBridge (·.heap)
    let c ← ofEffect (Effect.synthesis fun source =>
      Synthesis.classOfInstance source heap a declared)
    return .text (some c.name)
  | .type t => do return .type (← type t)
  | .describeType name => do return .text (describedAs (← readBridge (·.metadata)) name)

def onHoldings (f : Holdings → α × Holdings) : Act α := onBridge fun b =>
  let (a, holdings) := f b.holdings
  (a, { b with holdings := holdings })

def runRegistry (registry : Nat) : RegistryCommand → Act Answer
  | .wrapper owner => do
    let w ← wrapperIn owner
    let holdings ← readBridge (·.holdings)
    match holdings.state? w.id with
    | some state => return .wrapper state (holdings.isCurrent w)
    | none => misuse ("wrapper " ++ owner)
  | .lookup p => do
    let a ← pointer p
    match ← onHoldings fun s => s.lookup registry a with
    | some w => return .value (.object w)
    | none => return .value .null
  | .contains p => do
    let a ← pointer p
    return .flag (← readBridge fun b => b.holdings.contains registry a)
  | .wrap p c owning => do
    let c ← describedClass c
    let a ← pointer p
    return .value (.object (← onHoldings fun s => s.wrapperFor registry a c owning))
  | .track p owner => do
    let a ← pointer p
    let w ← wrapperIn owner
    return .flag (← onHoldings fun s => s.track registry a w)
  | .release owner => do
    let w ← wrapperIn owner
    return .flag (← onHoldings fun s => s.release registry w)
  | .stats => do
    match ← readBridge fun b => b.registryStats? registry with
    | some stats => return .registryStats stats
    | none => misuse "registry"

def onHeap (f : Heap → α × Heap) : Act α := ExceptT.lift (Repertoire.onHeap f)

def viewInstance (b : Bridge) (a : Address) : Option InstanceView :=
  (b.heap.get? a).map fun i =>
    ⟨i.count, i.serial, (b.natives.name? i.cls).getD ("#" ++ toString i.cls.index)⟩

def viewClass (t : ClassTable) (id : ClassId) (selector : String) : NativeClassView :=
  let found (onClass : Bool) := (t.lookup id selector onClass).isSome
  { name := t.name? id
    index := id.index
    superclass := ((t.class? id).bind (·.superclass)).bind t.name?
    own := (t.class? id).map fun c =>
      ((c.own? selector false).isSome, (c.own? selector true).isSome)
    found := (found false, found true) }

def registerClass (d : ClassDefinition) : Act ClassId :=
  ofNative (Run.onBridge fun b =>
    match b.natives.register d with
    | .ok (id, natives) => (.ok id, { b with natives := natives })
    | .error e => (.error e, b))

def allocate (c : NativeClassRef) (place : Option Address) : Act Address := do
  match c with
  | .numbered id => ofNative (Host.allocate id place)
  | .named name =>
    match ← readBridge (·.natives.named? name) with
    | some id => ofNative (Host.allocate id place)
    | none => throw (.bridge (.native (.unknownClass name)))

def runNative (host : Host Env) : NativeCommand → Act Answer
  | .registerClass d => do return .number (← registerClass d).index
  | .allocate c place name => do
    let place ← place.mapM pointer
    let a ← allocate c place
    namePointer name a
    return .place a ((← readBridge (·.heap.serial? a)).getD 0)
  | .namePointer owner name => do
    let w ← wrapperIn owner
    namePointer name w.address
    return .address w.address
  | .retain p => do
    let a ← pointer p
    return .flag (← onHeap fun h => h.retain a)
  | .release p => do
    let a ← pointer p
    return .outcome (← onHoldings fun s => s.releaseAddress a)
  | .releaseInstance p serial => do
    let a ← pointer p
    return .outcome (← onHoldings fun s => s.releaseInstance a serial)
  | .view p => do
    let a ← pointer p
    return .instance (← readBridge fun b => viewInstance b a)
  | .viewClass c selector => do
    let id ← nativeClass c
    return .nativeClass (← readBridge fun b => viewClass b.natives id selector)
  | .isSubclass c ancestor => do
    let c ← nativeClass c
    let ancestor ← nativeClass ancestor
    return .flag (← readBridge fun b => b.natives.isSubclass c ancestor)
  | .respondsTo r selector => do
    let r ← receiver r
    return .flag (← readBridge fun b => b.respondsTo r selector)
  | .send r selector args => do
    let r ← receiver r
    let args ← natives args
    nativeAnswer (← ofNative (host.send r selector args))
  | .getVariable p name => do
    let a ← pointer p
    nativeAnswer (← readBridge fun b => b.heap.variableAt? a name)
  | .setVariable p name value => do
    let a ← pointer p
    let v ← native value
    return .flag (← onHeap fun h => h.setVariable a name v)
  | .call name args => do
    let args ← natives args
    nativeAnswer (← ofNative (host.callPlain name args))

end Act

end ObjectBridge
