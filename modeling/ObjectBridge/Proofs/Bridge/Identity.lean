import ObjectBridge.Proofs.Bridge.Moves
import ObjectBridge.Proofs.Bridge.Slots
import ObjectBridge.Proofs.Registry.Standing

namespace ObjectBridge

variable {s t : Holdings} {r : Nat}

theorem Holdings.Change.standing (change : Change s t) (standing : Standing r s) : Standing r t := by
  cases change with
  | retain a => exact standing.ages (.of_keeps (Heap.retain_keeps standing.heap a))
  | setVariable a name value => exact standing.ages (.of_setVariable standing.heap a name value)
  | releaseAddress a => exact settle_standing (standing.ages (.of_gives (Heap.release_gives standing.heap a))) _
  | releaseInstance a serial =>
    exact settle_standing (standing.ages (.of_gives (Heap.releaseInstance_gives standing.heap a serial))) _
  | cloneHandle w => exact cloneHandle_standing standing w
  | drop w => exact settle_standing standing _
  | wrapperFor home a cls owning => exact wrapperFor_standing standing home a cls owning
  | track home a w => exact track_standing standing home a w
  | release home w => exact release_standing standing home w
  | keep a w =>
    rcases Holdings.keep_cases s a w with drops | ⟨i,found,keeps⟩
    · exact drops ▸ settle_standing standing _
    · exact keeps ▸ standing.ages (.of_keeps (Heap.update_keeps standing.heap found rfl rfl))
  | @letGo a i found _ left split =>
    have gives := Heap.update_gives (j := { i with keeps := left }) standing.heap found rfl rfl split
    exact settle_standing (standing.ages (.of_gives gives)) _

namespace Bridge

variable {b : Bridge} {w : Wrapper} {target : Option DescriptorId} {owning : Bool} {handles : Nat}

theorem standing_invariant : Invariant fun b => b.isOpen = true → b.holdings.Standing registryNumber := by
  intro b b' move standing opened
  cases move with
  | ask | identify | countNativeCall | countConversionError | register => exact standing opened
  | allocate _ place =>
    have before := standing opened
    exact before.ages (.of_allocate before.heap _ place)
  | change change => exact change.standing (standing opened)
  | close => cases opened

theorem Reached.standing (reached : b.Reached) : b.isOpen = true → b.holdings.Standing registryNumber :=
  reached.of_invariant standing_invariant fun _ _ _ _ => Holdings.initial_standing List.mem_cons_self

theorem stands_into_native (stands : b.Stands w) (compatible : ∀ id, target = some id → w.cls.isCompatible id = true) :
    Effect.toNative (.object w) (.object target) b = (.ok (.object w.address),b) := by
  have fits : (target.any fun id => !w.cls.isCompatible id) = false := by
    cases target with
    | none => rfl
    | some id => simp [compatible id rfl]
  have slot : b.slot (.object w) (.object target) = .ok (.object w.address) := by
    change b.wrapperSlot w target _ = _
    rw [wrapperSlot,if_neg (by simp [stands.1]),if_neg (by simp [isCurrent_iff.mpr stands.2]),if_neg (by simp [fits])]
  rw [Effect.toNative,slot]

-- The wrapper that stands for an instance is the one that is found, and it gets a handle.
theorem found_wrapper {state : WrapperState} {a : Address} (cls : SynthesizedClass)
    (found : b.holdings.entry? r a = some state) (current : b.heap.serial? a = some state.wrapper.serial) :
    b.holdings.wrapperFor r a cls false =
      (state.wrapper,b.holdings.setState { state with handles := state.handles+1 }) := by
  have serial : (b.holdings.heap.serial? a).getD 0 = state.wrapper.serial := by
    rw [show b.holdings.heap.serial? a = _ from current]
    rfl
  have same : (some state).filter (fun x => decide (x.wrapper.serial = state.wrapper.serial)) = some state := by
    rw [Option.filter_some,if_pos (decide_eq_true rfl)]
  unfold Holdings.wrapperFor
  dsimp only
  rw [found,serial,same]
  simp

theorem back_to_scripting {state : WrapperState} {a : Address} (declared : Option DescriptorId)
    (found : b.holdings.entry? registryNumber a = some state) (current : b.heap.serial? a = some state.wrapper.serial)
    (here : state.wrapper.address = a) (pointer : a.isNull = false) :
    Effect.toScripting (.object a) (.object declared) b = (.ok (.object state.wrapper),
      { b with holdings := b.holdings.setState { state with handles := state.handles+1 } }) := by
  have known : Effect.lookupWrapper a b = (.ok (some state.wrapper),b) := by
    have live : b.holdings.isCurrent state.wrapper = true := isCurrent_iff.mpr (here ▸ current)
    rw [Effect.lookupWrapper,Holdings.lookup?,found]
    simp only [live,if_true]
  have wraps : Effect.wrap a declared false b = (.ok (.object state.wrapper),
      { b with holdings := b.holdings.setState { state with handles := state.handles+1 } }) := by
    have one : Effect.wrapperFor a state.wrapper.cls false b = (.ok state.wrapper,
        { b with holdings := b.holdings.setState { state with handles := state.handles+1 } }) := by
      rw [Effect.wrapperFor,Effect.onHoldings,found_wrapper state.wrapper.cls found current]
    rw [Effect.wrap,Effect.bind_eq known]
    exact (Effect.bind_eq (x := state.wrapper.cls) rfl).trans (Effect.bind_eq one)
  have converts : Effect.scripting false (.object declared) (.object a) b = Effect.wrap a declared false b := by
    have fits : Effect.fits (.object a) (.object declared) = true := rfl
    rw [Effect.scripting,if_neg (by simp [fits])]
    exact congrFun (if_neg (by simp [pointer])) b
  rw [Effect.toScripting,Effect.toScriptingOwned,converts,wraps]

-- A wrapper that the bridge made, whatever has happened since.
theorem wrapper_comes_back_as_itself (reached : b.Reached) (opened : b.isOpen = true)
    (held : b.holdings.held? w.id = some ⟨w,owning,false,handles⟩) (own : w.home = registryNumber)
    (live : b.heap.serial? w.address = some w.serial) (compatible : ∀ id, target = some id → w.cls.isCompatible id = true)
    {a : Address} (same : a = w.address) (pointer : a.isNull = false) (declared : Option DescriptorId) :
    Effect.toNative (.object w) (.object target) b = (.ok (.object w.address),b) ∧
    ∃ after, Effect.toScripting (.object a) (.object declared) b = (.ok (.object w),after) ∧
      after.holdings.registries = b.holdings.registries ∧ after.heap = b.heap ∧
      after.holdings.held? w.id = some ⟨w,owning,false,handles+1⟩ ∧
      (∀ id, id ≠ w.id → after.holdings.state? id = b.holdings.state? id) ∧
      after.memo = b.memo ∧ after.stats = b.stats := by
  subst same
  obtain ⟨known,_⟩ := Holdings.held?_eq.mp held
  have stands : b.Stands w := by
    refine ⟨?_,live⟩
    rw [Holdings.isReleased,known]
    rfl
  have found := (reached.standing opened).found known own rfl live
  refine ⟨stands_into_native stands compatible,_,back_to_scripting declared found live rfl pointer,rfl,rfl,?_,?_,rfl,rfl⟩
  · refine Holdings.held?_eq.mpr ⟨?_,Nat.succ_pos _⟩
    rw [Holdings.state?_setState,if_pos rfl]
  · intro id other
    rw [Holdings.state?_setState,if_neg other]

def lodgerClass : SynthesizedClass := { (default : SynthesizedClass) with id := ⟨92⟩, name := "Lodger", lineage := [⟨92⟩] }

-- An instance with a wrapper that does not own it has died.
def vacated : Bridge :=
  let b := Bridge.opened default [] .empty
  let first : Bridge := { b with holdings := { b.holdings with heap := (b.heap.allocate ⟨0⟩ none).2 } }
  let wrapped : Bridge := { first with holdings := (first.holdings.wrapperFor 0 ⟨0x1000⟩ lodgerClass false).2 }
  { wrapped with holdings := (wrapped.holdings.releaseAddress ⟨0x1000⟩).2 }

-- Another has moved in where it lived, with a wrapper of its own.
def relet : Bridge :=
  let next : Bridge :=
    { vacated with holdings := { vacated.holdings with heap := (vacated.heap.allocate ⟨0⟩ (some ⟨0x1000⟩)).2 } }
  { next with holdings := (next.holdings.wrapperFor 0 ⟨0x1000⟩ lodgerClass true).2 }

def lodger : Wrapper := ⟨1,⟨0x1000⟩,2,lodgerClass,0⟩

theorem relet_reached : relet.Reached := by
  refine ⟨default,[],.empty,?_⟩
  have known : ClassTable.initial.name? ⟨0⟩ = some ClassTable.root.name := rfl
  have first := Relation.ReflTransGen.refl.tail (Move.allocate (b := opened default [] .empty) known none)
  have wrapped := first.tail (.change (.wrapperFor 0 ⟨0x1000⟩ lodgerClass false))
  have died := wrapped.tail (.change (.releaseAddress ⟨0x1000⟩))
  have next := died.tail (.allocate known (some ⟨0x1000⟩))
  exact next.tail (.change (.wrapperFor 0 ⟨0x1000⟩ lodgerClass true))

theorem lodger_comes_back :
    Effect.toNative (.object lodger) (.object (some ⟨92⟩)) relet = (.ok (.object ⟨0x1000⟩),relet) ∧
    ∃ after, Effect.toScripting (.object ⟨0x1000⟩) (.object (some ⟨92⟩)) relet = (.ok (.object lodger),after) ∧
      after.holdings.registries = relet.holdings.registries ∧ after.heap = relet.heap ∧
      after.holdings.held? lodger.id = some ⟨lodger,true,false,2⟩ := by
  have held : relet.holdings.held? lodger.id = some ⟨lodger,true,false,1⟩ := rfl
  have live : relet.heap.serial? lodger.address = some lodger.serial := rfl
  have compatible : ∀ id, some (⟨92⟩ : DescriptorId) = some id → lodger.cls.isCompatible id = true := by
    rintro id ⟨⟩
    rfl
  have same : (⟨0x1000⟩ : Address) = lodger.address := rfl
  obtain ⟨into,after,back,registries,heap,handed,_⟩ :=
    wrapper_comes_back_as_itself relet_reached rfl held rfl live compatible same rfl (some ⟨92⟩)
  exact ⟨into,after,back,registries,heap,handed⟩

end Bridge
end ObjectBridge
