import ObjectBridge.Proofs.Registry.Turns

namespace ObjectBridge

inductive RegistryAct where
  | allocate (cls : ClassId) (place : Option Address)
  | retain (a : Address)
  | releaseAddress (a : Address)
  | releaseInstance (a : Address) (serial : Nat)
  | wrap (a : Address) (cls : SynthesizedClass) (owning : Bool)
  | lookup (a : Address)
  | track (a : Address) (id : Nat)
  | release (id : Nat)
  | clone (id : Nat)
  | drop (id : Nat)
  -- A handle moves from a script into the variables of an instance.
  | keep (a : Address) (id : Nat)

-- Beside the holdings: the handles of scripts, and a ledger of serials. A serial is taken over when a
-- reference of its instance is handed to a wrapper, and given back when the registry lowers the retain
-- count of its instance. Nothing that an act does depends on the ledger.
structure Scene where
  holdings : Holdings
  hands : List Nat
  takenOver : List Nat
  givenBack : List Nat

namespace Scene

def start (r : Nat) : Scene := ⟨.initial [r],[],[],[]⟩

def advance (r : Nat) (σ : Scene) : RegistryAct → Option Scene
  | .allocate cls place =>
    some { σ with holdings := { σ.holdings with heap := (σ.holdings.heap.allocate cls place).2 } }
  | .retain a => some { σ with holdings := { σ.holdings with heap := (σ.holdings.heap.retain a).2 } }
  | .releaseAddress a =>
    let released := σ.holdings.heap.release a
    some { σ with
      holdings := (σ.holdings.releaseAddress a).2
      givenBack := σ.givenBack ++ { σ.holdings with heap := released.heap }.settleReturned released.freed }
  | .releaseInstance a serial =>
    some { σ with
      holdings := (σ.holdings.releaseInstance a serial).2
      givenBack := σ.givenBack ++
        (σ.holdings.afterRelease a serial).settleReturned (σ.holdings.heap.releaseInstance a serial).freed }
  | .wrap a cls owning =>
    let (w, after) := σ.holdings.wrapperFor r a cls owning
    some ⟨after,w.id :: σ.hands,
      σ.takenOver ++ (if owning then (σ.holdings.heap.serial? a).toList else []),
      σ.givenBack ++ σ.holdings.wrapReturned r a owning⟩
  | .lookup a =>
    match σ.holdings.lookup r a with
    | (some w, after) => some { σ with holdings := after, hands := w.id :: σ.hands }
    | (none, after) => some { σ with holdings := after }
  | .track a id =>
    (σ.holdings.held? id).map fun w => { σ with holdings := (σ.holdings.track r a w.wrapper).2 }
  | .release id =>
    (σ.holdings.held? id).map fun w => { σ with
      holdings := (σ.holdings.release r w.wrapper).2
      givenBack := σ.givenBack ++ σ.holdings.releaseReturned r w }
  | .clone id =>
    (σ.holdings.held? id).map fun w =>
      { σ with holdings := σ.holdings.cloneHandle w.wrapper, hands := id :: σ.hands }
  | .drop id =>
    if id ∈ σ.hands then
      (σ.holdings.held? id).map fun w => { σ with
        holdings := σ.holdings.drop w.wrapper
        hands := σ.hands.erase id
        givenBack := σ.givenBack ++ σ.holdings.settleReturned [id] }
    else none
  | .keep a id =>
    if id ∈ σ.hands then
      (σ.holdings.held? id).map fun w => { σ with
        holdings := σ.holdings.keep a w.wrapper
        hands := σ.hands.erase id
        givenBack := σ.givenBack ++
          if σ.holdings.heap.isLive a then [] else σ.holdings.settleReturned [id] }
    else none

-- The latest act stands first.
inductive Runs (r : Nat) : List RegistryAct → Scene → Prop where
  | start : Runs r [] (start r)
  | step {acts : List RegistryAct} {σ σ' : Scene} {act : RegistryAct} (before : Runs r acts σ)
      (next : σ.advance r act = some σ') : Runs r (act :: acts) σ'

-- What native code does to the instances in an act, before the registry gives anything back.
def outside (h : Heap) : RegistryAct → Heap
  | .allocate cls place => (h.allocate cls place).2
  | .retain a => (h.retain a).2
  | .releaseAddress a => (h.release a).heap
  | .releaseInstance a serial => (h.releaseInstance a serial).heap
  | .keep a id =>
    match h.get? a with
    | some i => h.update a { i with keeps := i.keeps ++ [id] }
    | none => h
  | _ => h

inductive Outside (h : Heap) : List Nat → Heap → List Nat → Prop where
  | allocate {loose : List Nat} (cls : ClassId) (place : Option Address) :
      Outside h loose (h.allocate cls place).2 loose
  | keeps {after : Heap} {loose : List Nat} (taken : List Nat) (keeps : h.Keeps after taken) :
      Outside h (taken ++ loose) after loose
  | gives {after : Heap} {freed lowered loose : List Nat} (gives : h.Gives freed after lowered) :
      Outside h loose after (freed ++ loose)

variable {r id : Nat} {σ σ' : Scene} {act : RegistryAct} {acts : List RegistryAct} {a : Address}

theorem Outside.sound {s : Holdings} {loose left : List Nat} {after : Heap} (outside : Outside s.heap loose after left)
    (sound : s.Sound r loose) : ({ s with heap := after } : Holdings).Sound r left := by
  cases outside with
  | allocate cls place => exact sound.allocate cls place
  | keeps taken keeps => exact sound.keeps keeps
  | gives gives => exact sound.gives gives

-- An act is what native code does, and then turns.
structure Acted (r : Nat) (σ : Scene) (act : RegistryAct) (σ' : Scene) : Prop where
  turns : ∃ start between taken lowered, σ.hands.Perm start ∧
    Outside σ.holdings.heap start (outside σ.holdings.heap act) between ∧
    Holdings.Turns r { σ.holdings with heap := outside σ.holdings.heap act } between taken lowered
      σ'.holdings σ'.hands ∧
    σ'.takenOver = σ.takenOver ++ taken ∧ σ'.givenBack = σ.givenBack ++ lowered

theorem Outside.same {h : Heap} (sound : h.Sound) {loose : List Nat} : Outside h loose h loose :=
  .gives (.nothing sound)

theorem Acted.within {taken lowered : List Nat} (sound : σ.holdings.heap.Sound)
    (turns : Holdings.Turns r σ.holdings σ.hands taken lowered σ'.holdings σ'.hands)
    (native : outside σ.holdings.heap act = σ.holdings.heap)
    (takes : σ'.takenOver = σ.takenOver ++ taken) (gives : σ'.givenBack = σ.givenBack ++ lowered) :
    Acted r σ act σ' := by
  refine ⟨σ.hands,σ.hands,taken,lowered,.rfl,?_,?_,takes,gives⟩
  · rw [native]; exact .same sound
  · rw [native]; exact turns

-- A handle that an instance takes over goes with its variables; where there is none, it is dropped.
theorem keep_acted {w : Wrapper} (sound : σ.holdings.Sound r σ.hands) (member : w.id ∈ σ.hands) :
    Acted r σ (.keep a w.id) { σ with
      holdings := σ.holdings.keep a w
      hands := σ.hands.erase w.id
      givenBack := σ.givenBack ++ if σ.holdings.heap.isLive a then [] else σ.holdings.settleReturned [w.id] } := by
  have perm := List.perm_cons_erase member
  cases found : σ.holdings.heap.get? a with
  | none =>
    have native : outside σ.holdings.heap (.keep a w.id) = σ.holdings.heap := by simp only [outside,found]
    have dead : σ.holdings.heap.isLive a = false := congrArg Option.isSome found
    have keeps : σ.holdings.keep a w = σ.holdings.settle [w.id] := by
      simp only [Holdings.keep,found,Holdings.drop]
    have turns := Holdings.settle_turns (show σ.holdings.Sound r ([w.id] ++ _) from sound.perm perm)
    refine ⟨_,w.id :: σ.hands.erase w.id,[],_,perm,?_,?_,(List.append_nil _).symm,rfl⟩
    · rw [native]
      exact .same sound.heap
    · simp only [native,dead,keeps]
      exact turns
  | some i =>
    have native : outside σ.holdings.heap (.keep a w.id) =
        σ.holdings.heap.update a { i with keeps := i.keeps ++ [w.id] } := by
      simp only [outside,found]
    have live : σ.holdings.heap.isLive a = true := congrArg Option.isSome found
    have keeps : σ.holdings.keep a w = { σ.holdings with
        heap := σ.holdings.heap.update a { i with keeps := i.keeps ++ [w.id] } } := by
      simp only [Holdings.keep,found]
    have updates := Heap.update_keeps (j := { i with keeps := i.keeps ++ [w.id] }) sound.heap found rfl rfl
    refine ⟨_,σ.hands.erase w.id,[],_,perm,?_,?_,(List.append_nil _).symm,rfl⟩
    · rw [native]
      exact .keeps [w.id] updates
    · simp only [native,live,keeps]
      exact .done

theorem advance_acted (sound : σ.holdings.Sound r σ.hands) (next : σ.advance r act = some σ') :
    Acted r σ act σ' := by
  cases act with
  | allocate cls place =>
    cases next
    exact ⟨_,_,[],[],.rfl,.allocate cls place,.done,(List.append_nil _).symm,(List.append_nil _).symm⟩
  | retain a =>
    cases next
    exact ⟨_,_,[],[],.rfl,.keeps [] (Heap.retain_keeps sound.heap a),.done,(List.append_nil _).symm,
      (List.append_nil _).symm⟩
  | releaseAddress a =>
    cases next
    have gives := Heap.release_gives sound.heap a
    exact ⟨_,_,[],_,.rfl,.gives gives,Holdings.settle_turns (sound.gives gives),(List.append_nil _).symm,rfl⟩
  | releaseInstance a serial =>
    cases next
    have gives := Heap.releaseInstance_gives sound.heap a serial
    exact ⟨_,_,[],_,.rfl,.gives gives,Holdings.settle_turns (sound.gives gives),(List.append_nil _).symm,rfl⟩
  | wrap a cls owning =>
    cases next
    exact .within sound.heap (Holdings.wrapperFor_turns sound cls owning) rfl rfl rfl
  | lookup a =>
    simp only [advance,Holdings.lookup] at next
    cases found : σ.holdings.lookup? r a with
    | none =>
      rw [found] at next
      cases next
      exact .within sound.heap .done rfl (List.append_nil _).symm (List.append_nil _).symm
    | some x =>
      rw [found] at next
      cases next
      obtain ⟨id,w,held,_,_,rfl⟩ := (Holdings.lookup?_eq sound).mp found
      have named := (sound.held held).2.1
      have turns := (Holdings.cloneHandle_turn r σ.hands held named).turns
      exact .within sound.heap (named ▸ turns) rfl (List.append_nil _).symm (List.append_nil _).symm
  | track a id =>
    obtain ⟨w,held,rfl⟩ := Option.map_eq_some_iff.mp next
    have turns : Holdings.Turns r σ.holdings σ.hands [] [] (σ.holdings.track r a w.wrapper).2 σ.hands := by
      rw [Holdings.track_same sound held]
      exact .done
    exact .within sound.heap turns rfl (List.append_nil _).symm (List.append_nil _).symm
  | release id =>
    obtain ⟨w,held,rfl⟩ := Option.map_eq_some_iff.mp next
    have turns := Holdings.release_turns sound held (sound.held held).2.1
    exact .within sound.heap turns rfl (List.append_nil _).symm rfl
  | clone id =>
    obtain ⟨w,held,rfl⟩ := Option.map_eq_some_iff.mp next
    have turn := Holdings.cloneHandle_turn r σ.hands held (sound.held held).2.1
    exact .within sound.heap turn.turns rfl (List.append_nil _).symm (List.append_nil _).symm
  | drop id =>
    simp only [advance] at next
    split at next
    · rename_i member
      obtain ⟨w,held,rfl⟩ := Option.map_eq_some_iff.mp next
      have perm := List.perm_cons_erase member
      have turns := Holdings.settle_turns (show σ.holdings.Sound r ([id] ++ _) from sound.perm perm)
      obtain rfl := (sound.held held).2.1
      exact ⟨_,_,[],_,perm,.same sound.heap,turns,(List.append_nil _).symm,rfl⟩
    · cases next
  | keep a id =>
    simp only [advance] at next
    split at next
    · rename_i member
      obtain ⟨w,held,rfl⟩ := Option.map_eq_some_iff.mp next
      obtain rfl := (sound.held held).2.1
      exact keep_acted sound member
    · cases next

theorem advance_sound (sound : σ.holdings.Sound r σ.hands) (next : σ.advance r act = some σ') :
    σ'.holdings.Sound r σ'.hands := by
  obtain ⟨start,between,taken,lowered,perm,outside,turns,_,_⟩ := (advance_acted sound next).turns
  exact turns.sound (outside.sound (sound.perm perm))

theorem Runs.sound (runs : Runs r acts σ) : σ.holdings.Sound r σ.hands := by
  induction runs with
  | start => exact Holdings.initial_sound r
  | step before next ih => exact advance_sound ih next

-- Some script or some live instance has a handle of the wrapper.
def Refers (σ : Scene) (id : Nat) : Prop := id ∈ σ.hands ∨ id ∈ σ.holdings.heap.kept

-- The wrapper is there, unreleased, and was made for the instance of that serial.
def Represents (σ : Scene) (id : Nat) (w : WrapperState) (serial : Nat) : Prop :=
  σ.holdings.state? id = some w ∧ w.released = false ∧ σ.Refers id ∧ w.wrapper.serial = serial

theorem Runs.represents_iff {w : WrapperState} {n : Nat} (runs : Runs r acts σ) :
    σ.Represents id w n ↔ σ.holdings.held? id = some w ∧ w.released = false ∧ w.wrapper.serial = n := by
  constructor
  · rintro ⟨state,unreleased,refers,serial⟩
    exact ⟨Holdings.held?_eq.mpr ⟨state,(runs.sound.held_iff state).mpr refers⟩,unreleased,serial⟩
  · rintro ⟨held,unreleased,serial⟩
    obtain ⟨state,positive⟩ := Holdings.held?_eq.mp held
    exact ⟨state,unreleased,(runs.sound.held_iff state).mp positive,serial⟩

theorem one_wrapper_for_each_instance (runs : Runs r acts σ) :
    (∀ a n id id' w w', σ.holdings.heap.serial? a = some n → σ.Represents id w n → σ.Represents id' w' n →
      id = id' ∧ w = w') ∧
    (∀ a x, (σ.holdings.lookup r a).1 = some x ↔
      ∃ n id w, σ.holdings.heap.serial? a = some n ∧ σ.Represents id w n ∧ w.wrapper = x) ∧
    ∀ a id, σ.holdings.entryOf r a = some id →
      ∃ w, σ.holdings.state? id = some w ∧ w.released = false ∧ σ.Refers id ∧ w.wrapper.address = a := by
  have sound := runs.sound
  refine ⟨?_,?_,?_⟩
  · intro a n id id' w w' live one other
    obtain ⟨held,unreleased,rfl⟩ := runs.represents_iff.mp one
    obtain ⟨held',unreleased',same⟩ := runs.represents_iff.mp other
    obtain rfl := sound.unique held held' unreleased unreleased' same.symm live
    exact ⟨rfl,Option.some.inj (held.symm.trans held')⟩
  · intro a x
    have first : (σ.holdings.lookup r a).1 = σ.holdings.lookup? r a := by
      unfold Holdings.lookup
      split <;> rename_i found <;> exact found.symm
    rw [first,Holdings.lookup?_eq sound]
    constructor
    · rintro ⟨id,w,held,unreleased,live,rfl⟩
      exact ⟨_,id,w,live,runs.represents_iff.mpr ⟨held,unreleased,rfl⟩,rfl⟩
    · rintro ⟨n,id,w,live,represents,rfl⟩
      obtain ⟨held,unreleased,rfl⟩ := runs.represents_iff.mp represents
      exact ⟨id,w,held,unreleased,live,rfl⟩
  · intro a id entry
    obtain ⟨w,held,unreleased,address⟩ := sound.entered a id entry
    obtain ⟨state,positive⟩ := Holdings.held?_eq.mp held
    exact ⟨w,state,unreleased,(sound.held_iff state).mp positive,address⟩

-- A class without members, described at the first place behind a header.
def bareClass : SynthesizedClass :=
  ⟨⟨32⟩,"Object",.interface,some ⟨0⟩,none,[],[⟨32⟩],[],.empty,.empty,.empty,.empty,[]⟩

-- An instance dies with its wrapper still held, and another comes to live in its place.
theorem reused_address_has_its_own_wrapper : ∃ σ,
    Runs 0 [.wrap ⟨0x1000⟩ bareClass false,.allocate ⟨0⟩ (some ⟨0x1000⟩),.releaseAddress ⟨0x1000⟩,
      .wrap ⟨0x1000⟩ bareClass true,.allocate ⟨0⟩ none] σ ∧
    (∃ x, (σ.holdings.lookup 0 ⟨0x1000⟩).1 = some x ∧ x.id = 1 ∧ x.serial = 2) ∧
    ∀ id w, σ.Represents id w 2 → id = 1 := by
  let first : Instance := ⟨⟨0⟩,1,1,.empty,[]⟩
  let second : Instance := ⟨⟨0⟩,2,1,.empty,[]⟩
  let stale : WrapperState := ⟨⟨0,⟨0x1000⟩,1,bareClass,0⟩,true,false,1⟩
  let fresh : WrapperState := ⟨⟨1,⟨0x1000⟩,2,bareClass,0⟩,false,false,1⟩
  have born : Runs 0 (.allocate ⟨0⟩ none :: _)
      ⟨⟨⟨⟨[(⟨0x1000⟩,first)]⟩,2⟩,⟨[]⟩,0,⟨[(0,⟨⟨[]⟩,0,0,0⟩)]⟩⟩,[],[],[]⟩ := .step .start rfl
  have wrapped : Runs 0 (.wrap ⟨0x1000⟩ bareClass true :: _)
      ⟨⟨⟨⟨[(⟨0x1000⟩,first)]⟩,2⟩,⟨[(0,stale)]⟩,1,⟨[(0,⟨⟨[(⟨0x1000⟩,0)]⟩,1,0,0⟩)]⟩⟩,[0],[1],[]⟩ := .step born rfl
  have died : Runs 0 (.releaseAddress ⟨0x1000⟩ :: _)
      ⟨⟨⟨⟨[]⟩,2⟩,⟨[(0,stale)]⟩,1,⟨[(0,⟨⟨[(⟨0x1000⟩,0)]⟩,1,0,0⟩)]⟩⟩,[0],[1],[]⟩ := .step wrapped rfl
  have reborn : Runs 0 (.allocate ⟨0⟩ (some ⟨0x1000⟩) :: _)
      ⟨⟨⟨⟨[(⟨0x1000⟩,second)]⟩,3⟩,⟨[(0,stale)]⟩,1,⟨[(0,⟨⟨[(⟨0x1000⟩,0)]⟩,1,0,0⟩)]⟩⟩,[0],[1],[]⟩ := .step died rfl
  have runs : Runs 0 (.wrap ⟨0x1000⟩ bareClass false :: _)
      ⟨⟨⟨⟨[(⟨0x1000⟩,second)]⟩,3⟩,⟨[(0,stale),(1,fresh)]⟩,2,⟨[(0,⟨⟨[(⟨0x1000⟩,1)]⟩,2,0,0⟩)]⟩⟩,[1,0],[1],[]⟩ :=
    .step reborn rfl
  obtain ⟨only,finds,_⟩ := one_wrapper_for_each_instance runs
  have represents : ∀ id w, Represents _ id w 2 → id = 1 := fun id w other =>
    (only ⟨0x1000⟩ 2 id 1 w fresh rfl other ⟨rfl,rfl,.inl List.mem_cons_self,rfl⟩).1
  refine ⟨_,runs,⟨fresh.wrapper,?_,rfl,rfl⟩,represents⟩
  exact (finds ⟨0x1000⟩ fresh.wrapper).mpr ⟨2,1,fresh,rfl,⟨rfl,rfl,.inl List.mem_cons_self,rfl⟩,rfl⟩

end Scene
end ObjectBridge
