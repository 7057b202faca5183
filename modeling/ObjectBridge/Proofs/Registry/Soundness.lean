import ObjectBridge.Proofs.Native.Heap
import ObjectBridge.Registry.Holdings

namespace ObjectBridge.Holdings

variable {s t : Holdings} {r id : Nat} {a : Address} {w v : WrapperState} {loose left : List Nat}

-- The wrapper entered for an address, whatever has become of it.
def entryOf (s : Holdings) (r : Nat) (a : Address) : Option Nat := (s.registry? r).bind (·.entries.get? a)

-- A wrapper that was never made has no handles.
def handlesOf (s : Holdings) (id : Nat) : Nat := ((s.state? id).map (·.handles)).getD 0

def isOpen (s : Holdings) (r : Nat) : Prop := (s.registry? r).isSome = true

theorem held?_eq : s.held? id = some w ↔ s.state? id = some w ∧ 0 < w.handles := by
  rw [held?,Option.filter_eq_some_iff,decide_eq_true_iff]

theorem entry?_eq : s.entry? r a = some w ↔ ∃ id, s.entryOf r a = some id ∧ s.held? id = some w := by
  simp only [ entry?,entryOf,Option.bind_eq_bind,Option.bind_eq_some_iff]
  constructor
  · rintro ⟨registry,opened,id,entry,held⟩; exact ⟨id,⟨registry,opened,entry⟩,held⟩
  · rintro ⟨id,⟨registry,opened,entry⟩,held⟩; exact ⟨registry,opened,id,entry,held⟩

theorem isCurrent_iff : s.isCurrent w.wrapper = true ↔ s.heap.serial? w.wrapper.address = some w.wrapper.serial :=
  decide_eq_true_iff

theorem state?_setState : (s.setState w).state? id = if id = w.wrapper.id then some w else s.state? id :=
  Table.get?_put _ _ _ _

theorem state?_setState_self : (s.setState w).state? w.wrapper.id = some w := state?_setState.trans (if_pos rfl)

theorem registry?_modifyRegistry (f : Registry → Registry) :
    registry? (s.modifyRegistry r f) r = (s.registry? r).map f := by
  unfold modifyRegistry
  split
  · rename_i registry found
    rw [found]
    exact Table.get?_put_self _ _ _
  · rename_i closed
    rw [closed]
    rfl

-- Nothing but the registry itself is modified.
structure Frames (s t : Holdings) : Prop where
  heap : t.heap = s.heap
  wrappers : t.wrappers = s.wrappers
  nextWrapper : t.nextWrapper = s.nextWrapper

theorem modifyRegistry_frames (f : Registry → Registry) : Frames s (s.modifyRegistry r f) := by
  unfold modifyRegistry
  split <;> exact ⟨rfl,rfl,rfl⟩

theorem Frames.state? (frames : Frames s t) (id : Nat) : t.state? id = s.state? id := by
  rw [Holdings.state?,frames.wrappers,Holdings.state?]

theorem isOpen_modifyRegistry (f : Registry → Registry) : (s.modifyRegistry r f).isOpen r ↔ s.isOpen r := by
  rw [isOpen,registry?_modifyRegistry,Option.isSome_map,isOpen]

theorem entryOf_modifyRegistry (f : Registry → Registry) :
    (s.modifyRegistry r f).entryOf r a = (s.registry? r).bind fun registry => (f registry).entries.get? a := by
  rw [entryOf,registry?_modifyRegistry,Option.bind_map]
  rfl

theorem entryOf_counting (f : Registry → Registry) (same : ∀ registry, (f registry).entries = registry.entries) :
    (s.modifyRegistry r f).entryOf r a = s.entryOf r a := by
  rw [entryOf_modifyRegistry]
  simp only [same]
  rfl

theorem entryOf_forget (x : Wrapper) : (s.forget r x).entryOf r a =
    if a = x.address ∧ s.entryOf r a = some x.id then none else s.entryOf r a := by
  rw [forget,entryOf_modifyRegistry,entryOf]
  cases s.registry? r with
  | none => simp
  | some registry =>
    simp only [Option.bind_some]
    by_cases stands : registry.entries.get? x.address = some x.id
    · rw [if_pos stands]
      rw [Table.get?_erase]
      by_cases here : a = x.address
      · subst here; rw [if_pos rfl,if_pos ⟨rfl,stands⟩]
      · rw [if_neg here,if_neg fun both => here both.1]
    · rw [if_neg stands,if_neg]
      rintro ⟨rfl,same⟩
      exact stands same

theorem entryOf_enter (opened : s.isOpen r) (x : Wrapper) :
    (s.enter r x).entryOf r a = if a = x.address then some x.id else s.entryOf r a := by
  rw [enter,entryOf_modifyRegistry,entryOf]
  obtain ⟨registry,found⟩ := Option.isSome_iff_exists.mp opened
  rw [found,Option.bind_some,Option.bind_some]
  exact Table.get?_put _ _ _ _

-- What giving a wrapper up does to the instances.
def giving (s : Holdings) (w : WrapperState) : Heap.Released :=
  if w.released = false ∧ w.owning = true then s.heap.releaseInstance w.wrapper.address w.wrapper.serial
  else ⟨.notLive,[],s.heap⟩

-- The serial that this lowers, if any.
def returned (s : Holdings) (w : WrapperState) : List Nat :=
  if w.released = false ∧ w.owning = true then s.heap.lowered w.wrapper.address w.wrapper.serial else []

theorem giving_gives (sound : s.heap.Sound) (w : WrapperState) :
    s.heap.Gives (s.giving w).freed (s.giving w).heap (s.returned w) := by
  unfold giving returned
  split
  · exact Heap.releaseInstance_gives sound _ _
  · exact .nothing sound

theorem giving_congr (same : t.heap = s.heap) (w : WrapperState) : t.giving w = s.giving w := by
  rw [giving,giving,same]

structure Finalizes (r : Nat) (s : Holdings) (w : WrapperState) (t : Holdings) : Prop where
  opened : t.isOpen r ↔ s.isOpen r
  nextWrapper : t.nextWrapper = s.nextWrapper
  state? : ∀ id, t.state? id = if id = w.wrapper.id then some { w with released := true } else s.state? id
  entryOf : ∀ a, t.entryOf r a =
    if a = w.wrapper.address ∧ s.entryOf r a = some w.wrapper.id then none else s.entryOf r a

theorem Finalizes.counting (done : Finalizes r s w t) (f : Registry → Registry)
    (same : ∀ registry, (f registry).entries = registry.entries) :
    Finalizes r s w (t.modifyRegistry r f) where
  opened := (isOpen_modifyRegistry f).trans done.opened
  nextWrapper := (modifyRegistry_frames f).nextWrapper.trans done.nextWrapper
  state? id := ((modifyRegistry_frames f).state? id).trans (done.state? id)
  entryOf a := (entryOf_counting f same).trans (done.entryOf a)

theorem forget_finalizes (found : s.state? w.wrapper.id = some w) (released : w.released = true) :
    Finalizes r s w (s.forget r w.wrapper) where
  opened := isOpen_modifyRegistry _
  nextWrapper := (modifyRegistry_frames _).nextWrapper
  state? id := by
    have same : { w with released := true } = w := by cases w; cases released; rfl
    rw [same]
    refine ((modifyRegistry_frames _).state? id).trans ?_
    split
    · rename_i here; rw [here,found]
    · rfl
  entryOf _ := entryOf_forget _

theorem mark_finalizes : Finalizes r s w ((s.forget r w.wrapper).setState { w with released := true }) where
  opened := isOpen_modifyRegistry (s := s) _
  nextWrapper := (modifyRegistry_frames (s := s) _).nextWrapper
  state? id := by rw [state?_setState]; exact if_congr Iff.rfl rfl ((modifyRegistry_frames _).state? id)
  entryOf _ := entryOf_forget (s := s) _

-- Whatever the state of the wrapper, this is what happens to the instances.
theorem finalize_giving (r : Nat) (w : WrapperState) (explicit : Bool) :
    (s.finalize r w explicit).2.1.heap = (s.giving w).heap ∧ (s.finalize r w explicit).2.2 = (s.giving w).freed := by
  unfold finalize giving
  dsimp only
  by_cases released : w.released = true
  · have settled : ¬(w.released = false ∧ w.owning = true) := fun both => by simp [released] at both
    have frame : (s.forget r w.wrapper).heap = s.heap := (modifyRegistry_frames _).heap
    rw [if_pos released,if_neg settled]
    cases explicit with
    | false => exact ⟨frame,rfl⟩
    | true => exact ⟨(modifyRegistry_frames _).heap.trans frame,rfl⟩
  · have frame : (((s.forget r w.wrapper).setState { w with released := true }).modifyRegistry r
        fun registry => { registry with released := registry.released+1 }).heap = s.heap :=
      (modifyRegistry_frames _).heap.trans (modifyRegistry_frames (s := s) _).heap
    rw [if_neg released]
    by_cases owning : w.owning = true
    · rw [if_pos owning,if_pos ⟨Bool.eq_false_iff.mpr released,owning⟩,releaseReference,frame]
      exact ⟨rfl,rfl⟩
    · rw [if_neg owning,if_neg fun both => owning both.2]
      exact ⟨frame,rfl⟩

theorem finalize_gives (sound : s.heap.Sound) (r : Nat) (w : WrapperState) (explicit : Bool) :
    s.heap.Gives (s.finalize r w explicit).2.2 (s.finalize r w explicit).2.1.heap (s.returned w) := by
  obtain ⟨heap,freed⟩ := finalize_giving (s := s) r w explicit
  rw [heap,freed]
  exact giving_gives sound w

theorem finalize_finalizes (found : s.state? w.wrapper.id = some w) (explicit : Bool) :
    Finalizes r s w (s.finalize r w explicit).2.1 := by
  unfold finalize
  dsimp only
  by_cases released : w.released = true
  · rw [if_pos released]
    have base : Finalizes r s w (s.forget r w.wrapper) := forget_finalizes found released
    cases explicit with
    | false => exact base
    | true => exact base.counting _ fun _ => rfl
  · rw [if_neg released]
    have base := (mark_finalizes (r := r) (s := s) (w := w)).counting
      (fun registry => { registry with released := registry.released+1 }) fun _ => rfl
    by_cases owning : w.owning = true
    · rw [if_pos owning]
      exact ⟨base.opened,base.nextWrapper,base.state?,base.entryOf⟩
    · rw [if_neg owning]
      exact base

-- An entry is never that of a wrapper that is gone or released, and a wrapper that stands for a live
-- instance is always entered. Wrappers of dead instances may or may not be.
structure Sound (s : Holdings) (r : Nat) (loose : List Nat) : Prop where
  opened : s.isOpen r
  heap : s.heap.Sound
  made : ∀ id w, s.state? id = some w →
    w.wrapper.id = id ∧ w.wrapper.home = r ∧ id < s.nextWrapper ∧ w.wrapper.serial < s.heap.nextSerial
  placed : ∀ id w a, s.state? id = some w → s.heap.serial? a = some w.wrapper.serial → a = w.wrapper.address
  entered : ∀ a id, s.entryOf r a = some id →
    ∃ w, s.held? id = some w ∧ w.released = false ∧ w.wrapper.address = a
  tracked : ∀ id w, s.held? id = some w → w.released = false →
    s.heap.serial? w.wrapper.address = some w.wrapper.serial → s.entryOf r w.wrapper.address = some id
  counted : ∀ id, s.handlesOf id = loose.count id + s.heap.kept.count id

theorem handlesOf_eq (found : s.state? id = some w) : s.handlesOf id = w.handles := by
  rw [handlesOf,found]
  rfl

theorem Sound.held_iff (sound : Sound s r loose) (found : s.state? id = some w) :
    0 < w.handles ↔ id ∈ loose ∨ id ∈ s.heap.kept := by
  have count := sound.counted id
  rw [handlesOf_eq found] at count
  rw [count,← List.count_pos_iff,← List.count_pos_iff]
  omega

theorem Sound.held (sound : Sound s r loose) (found : s.held? id = some w) :
    s.state? id = some w ∧ w.wrapper.id = id ∧ 0 < w.handles := by
  obtain ⟨state,positive⟩ := held?_eq.mp found
  exact ⟨state,(sound.made id w state).1,positive⟩

theorem Sound.of_loose (sound : Sound s r loose) (member : id ∈ loose) : ∃ w, s.held? id = some w := by
  have count := sound.counted id
  have positive := List.count_pos_iff.mpr member
  cases found : s.state? id with
  | none => rw [handlesOf,found] at count; simp only [Option.map_none,Option.getD_none] at count; omega
  | some w =>
    rw [handlesOf_eq found] at count
    exact ⟨w,held?_eq.mpr ⟨found,by omega⟩⟩

theorem Sound.perm (sound : Sound s r loose) (same : loose.Perm left) : Sound s r left where
  opened := sound.opened
  heap := sound.heap
  made := sound.made
  placed := sound.placed
  entered := sound.entered
  tracked := sound.tracked
  counted id := by rw [sound.counted id,same.count_eq id]

-- No two wrappers speak for one live instance.
theorem Sound.unique (sound : Sound s r loose) (one : s.held? id = some w) (other : s.held? id' = some v)
    (unreleased : w.released = false) (unreleased' : v.released = false)
    (same : w.wrapper.serial = v.wrapper.serial) (live : s.heap.serial? a = some w.wrapper.serial) :
    id = id' := by
  have place := sound.placed id w a (sound.held one).1 live
  have place' := sound.placed id' v a (sound.held other).1 (same ▸ live)
  have entry := sound.tracked id w one unreleased (place ▸ live)
  have entry' := sound.tracked id' v other unreleased' (place' ▸ same ▸ live)
  rw [← place] at entry
  rw [← place',entry] at entry'
  exact Option.some.inj entry'

theorem initial_sound (r : Nat) : Sound (initial [r]) r [] where
  opened := by
    rw [isOpen, registry?]
    exact congrArg Option.isSome (Table.get?_put_self Table.empty r Registry.empty)
  heap := Heap.empty_sound
  made _ _ found := by cases found
  placed _ _ _ found := by cases found
  entered a id entry := by
    have blank : registry? (initial [r]) r = some Registry.empty := Table.get?_put_self Table.empty r _
    rw [entryOf,blank] at entry
    cases entry
  tracked _ _ found := by cases found
  counted _ := rfl

-- Variables that go with their instance leave their handles loose.
theorem Sound.gives {after : Heap} {freed returned : List Nat} (sound : Sound s r loose)
    (gives : s.heap.Gives freed after returned) : Sound { s with heap := after } r (freed ++ loose) where
  opened := sound.opened
  heap := gives.sound
  made id w found := by
    change _ ∧ _ ∧ _ ∧ _ < after.nextSerial
    rw [gives.shrinks.counter]
    exact sound.made id w found
  placed id w a found live := by
    rcases gives.shrinks.serial? a with gone | same
    · exact absurd (gone.symm.trans live) (by simp)
    · exact sound.placed id w a found (same.symm.trans live)
  entered := sound.entered
  tracked id w held unreleased live := by
    rcases gives.shrinks.serial? w.wrapper.address with gone | same
    · exact absurd (gone.symm.trans live) (by simp)
    · exact sound.tracked id w held unreleased (same.symm.trans live)
  counted id := by
    have before := gives.kept.count_eq id
    rw [List.count_append] at before ⊢
    have count := sound.counted id
    change s.handlesOf id = _
    dsimp only
    omega

theorem Sound.keeps {after : Heap} {taken : List Nat} (sound : Sound s r (taken ++ loose))
    (keeps : s.heap.Keeps after taken) : Sound { s with heap := after } r loose where
  opened := sound.opened
  heap := keeps.sound
  made id w found := by
    change _ ∧ _ ∧ _ ∧ _ < after.nextSerial
    rw [keeps.counter]
    exact sound.made id w found
  placed id w a found live := sound.placed id w a found ((keeps.serial? a).symm.trans live)
  entered := sound.entered
  tracked id w held unreleased live :=
    sound.tracked id w held unreleased ((keeps.serial? _).symm.trans live)
  counted id := by
    have after := keeps.kept.count_eq id
    have count := sound.counted id
    rw [List.count_append] at after count
    change s.handlesOf id = _
    dsimp only
    omega

-- A new serial is that of no wrapper, so that whatever was made for the address before is not current.
theorem Sound.allocate (sound : Sound s r loose) (cls : ClassId) (place : Option Address) :
    Sound { s with heap := (s.heap.allocate cls place).2 } r loose := by
  have current : ∀ id w a, s.state? id = some w →
      (s.heap.allocate cls place).2.serial? a = some w.wrapper.serial → s.heap.serial? a = some w.wrapper.serial := by
    intro id w a found live
    rw [Heap.serial?_allocate] at live
    split at live
    · have fresh := Option.some.inj live
      have old := (sound.made id w found).2.2.2
      omega
    · exact live
  refine ⟨sound.opened,Heap.allocate_sound sound.heap cls place,?_,?_,sound.entered,?_,?_⟩
  · intro id w found
    obtain ⟨same,home,old,serial⟩ := sound.made id w found
    exact ⟨same,home,old,Nat.lt_succ_of_lt serial⟩
  · intro id w a found live
    exact sound.placed id w a found (current id w a found live)
  · intro id w held unreleased live
    exact sound.tracked id w held unreleased (current id w _ (sound.held held).1 live)
  · intro id
    have same := (Heap.allocate_kept sound.heap cls place).count_eq id
    have count := sound.counted id
    change s.handlesOf id = _
    dsimp only
    omega

-- Holdings in which one wrapper has changed, to what it may have been already.
structure Revises (r : Nat) (s : Holdings) (v : WrapperState) (t : Holdings) : Prop where
  opened : t.isOpen r ↔ s.isOpen r
  heap : t.heap = s.heap
  nextWrapper : t.nextWrapper = s.nextWrapper
  state? : ∀ id, t.state? id = if id = v.wrapper.id then some v else s.state? id
  entryOf : ∀ a, t.entryOf r a = s.entryOf r a

theorem setState_revises : Revises r s v (s.setState v) :=
  ⟨Iff.rfl,rfl,rfl,fun _ => state?_setState,fun _ => rfl⟩

theorem Revises.refl (found : s.state? w.wrapper.id = some w) : Revises r s w s := by
  refine ⟨Iff.rfl,rfl,rfl,?_,fun _ => rfl⟩
  intro id
  split
  · rename_i here; rw [here,found]
  · rfl

theorem Revises.handlesOf (revises : Revises r s v t) (id : Nat) :
    t.handlesOf id = if id = v.wrapper.id then v.handles else s.handlesOf id := by
  rw [Holdings.handlesOf,revises.state?]
  split <;> rfl

-- A wrapper whose handles or ownership change, while it stays unreleased or released as it is.
theorem Sound.revise (sound : Sound s r loose) (found : s.held? id = some w) (same : v.wrapper = w.wrapper)
    (release : v.released = w.released) (positive : 0 < v.handles)
    (counted : ∀ x, (s.setState v).handlesOf x = left.count x + s.heap.kept.count x) :
    Sound (s.setState v) r left := by
  obtain ⟨state,named,_⟩ := sound.held found
  have here : v.wrapper.id = id := by rw [same,named]
  have before : ∀ x u, (s.setState v).state? x = some u →
      ∃ u', s.state? x = some u' ∧ u'.wrapper = u.wrapper ∧ u'.released = u.released := by
    intro x u there
    rw [state?_setState] at there
    split at there
    · rename_i spot
      cases there
      exact ⟨w,by rw [spot,here,state],same.symm,release.symm⟩
    · exact ⟨u,there,rfl,rfl⟩
  have heldBefore : ∀ x u, (s.setState v).held? x = some u →
      ∃ u', s.held? x = some u' ∧ u'.wrapper = u.wrapper ∧ u'.released = u.released := by
    intro x u there
    obtain ⟨known,some⟩ := held?_eq.mp there
    rw [state?_setState] at known
    split at known
    · rename_i spot
      cases known
      exact ⟨w,by rw [spot,here,found],same.symm,release.symm⟩
    · exact ⟨u,held?_eq.mpr ⟨known,some⟩,rfl,rfl⟩
  refine ⟨sound.opened,sound.heap,?_,?_,?_,?_,counted⟩
  · intro x u there
    obtain ⟨u',old,equal,_⟩ := before x u there
    exact equal ▸ sound.made x u' old
  · intro x u a there live
    obtain ⟨u',old,equal,_⟩ := before x u there
    rw [← equal] at live ⊢
    exact sound.placed x u' a old live
  · intro a x entry
    obtain ⟨u,held,unreleased,address⟩ := sound.entered a x entry
    by_cases spot : x = id
    · subst spot
      obtain rfl : u = w := Option.some.inj (held.symm.trans found)
      have now : (s.setState v).state? x = some v := by rw [state?_setState,if_pos here.symm]
      exact ⟨v,held?_eq.mpr ⟨now,positive⟩,release.trans unreleased,same ▸ address⟩
    · have now : (s.setState v).state? x = s.state? x := by rw [state?_setState,if_neg (here ▸ spot)]
      exact ⟨u,by rw [held?,now]; exact held,unreleased,address⟩
  · intro x u held unreleased live
    obtain ⟨u',old,equal,marks⟩ := heldBefore x u held
    rw [← equal] at live ⊢
    exact sound.tracked x u' old (marks.trans unreleased) live

-- A wrapper that is released, or gone, and with that forgotten.
theorem Sound.retire {middle : Holdings} (sound : Sound s r loose) (found : s.held? id = some w)
    (same : v.wrapper = w.wrapper) (revises : Revises r s v middle) (done : Finalizes r middle v t)
    (heap : t.heap = s.heap) (counted : ∀ x, t.handlesOf x = left.count x + s.heap.kept.count x) :
    Sound t r left := by
  obtain ⟨state,named,_⟩ := sound.held found
  have here : v.wrapper.id = id := by rw [same,named]
  have states : ∀ x, t.state? x = if x = id then some { v with released := true } else s.state? x := by
    intro x
    rw [done.state?,revises.state?,here]
    split <;> rfl
  have entries : ∀ a, t.entryOf r a =
      if a = w.wrapper.address ∧ s.entryOf r a = some id then none else s.entryOf r a := by
    intro a
    rw [← same,← here,done.entryOf,revises.entryOf]
  have others : ∀ x u, t.held? x = some u → u.released = false → x ≠ id ∧ s.held? x = some u := by
    intro x u held unreleased
    obtain ⟨known,some⟩ := held?_eq.mp held
    rw [states] at known
    split at known
    · cases known; cases unreleased
    · rename_i away; exact ⟨away,held?_eq.mpr ⟨known,some⟩⟩
  refine ⟨done.opened.mpr (revises.opened.mpr sound.opened),heap ▸ sound.heap,?_,?_,?_,?_,heap.symm ▸ counted⟩
  · intro x u known
    rw [done.nextWrapper,revises.nextWrapper,heap]
    rw [states] at known
    split at known
    · rename_i spot
      cases known
      change v.wrapper.id = x ∧ v.wrapper.home = r ∧ _ ∧ v.wrapper.serial < _
      rw [same,spot]
      exact sound.made id w state
    · exact sound.made x u known
  · intro x u a known live
    rw [heap] at live
    rw [states] at known
    split at known
    · cases known
      change _ = v.wrapper.address
      change _ = some v.wrapper.serial at live
      rw [same] at live ⊢
      exact sound.placed id w a state live
    · exact sound.placed x u a known live
  · intro a x entry
    rw [entries] at entry
    split at entry
    · cases entry
    · rename_i other
      obtain ⟨u,held,unreleased,address⟩ := sound.entered a x entry
      have away : x ≠ id := by
        rintro rfl
        obtain rfl : u = w := Option.some.inj (held.symm.trans found)
        exact other ⟨address.symm,entry⟩
      have now : t.state? x = s.state? x := by rw [states,if_neg away]
      exact ⟨u,by rw [held?,now]; exact held,unreleased,address⟩
  · intro x u held unreleased live
    obtain ⟨away,old⟩ := others x u held unreleased
    rw [heap] at live
    have entry := sound.tracked x u old unreleased live
    rw [entries,if_neg,entry]
    rintro ⟨_,clash⟩
    exact away (Option.some.inj (entry.symm.trans clash))

-- Giving up a wrapper with `v.handles` handles left.
theorem Sound.finalize {middle : Holdings} (sound : Sound s r loose) (found : s.held? id = some w)
    (same : v.wrapper = w.wrapper) (revises : Revises r s v middle) (explicit : Bool)
    (counted : ∀ x, middle.handlesOf x = left.count x + s.heap.kept.count x) :
    Sound (middle.finalize r v explicit).2.1 r ((middle.finalize r v explicit).2.2 ++ left) := by
  have there : middle.state? v.wrapper.id = some v := by rw [revises.state?,if_pos rfl]
  have done := finalize_finalizes (r := r) there explicit
  obtain ⟨heap,freed⟩ := finalize_giving (s := middle) r v explicit
  generalize middle.finalize r v explicit = result at done heap freed
  obtain ⟨did,after,loosened⟩ := result
  change after.heap = _ at heap
  change loosened = _ at freed
  have counts : ∀ x, after.handlesOf x = middle.handlesOf x := by
    intro x
    rw [handlesOf,done.state?]
    split
    · rename_i spot; rw [spot,handlesOf_eq there]; rfl
    · rfl
  have base : Sound { after with heap := s.heap } r left := by
    refine sound.retire found same revises ⟨done.opened,done.nextWrapper,done.state?,done.entryOf⟩ rfl ?_
    intro x
    exact (counts x).trans (counted x)
  have result := base.gives (giving_gives sound.heap v)
  rw [← giving_congr revises.heap,← heap,← freed] at result
  exact result

theorem create_shows (opened : s.isOpen r) (serial : Nat) (cls : SynthesizedClass) (owning : Bool) :
    ((s.create r a serial cls owning).2.isOpen r ∧ (s.create r a serial cls owning).2.heap = s.heap ∧
      (s.create r a serial cls owning).2.nextWrapper = s.nextWrapper+1) ∧
    (∀ x, (s.create r a serial cls owning).2.state? x =
      if x = s.nextWrapper then some ⟨⟨s.nextWrapper,a,serial,cls,r⟩,owning,false,1⟩ else s.state? x) ∧
    ∀ b, (s.create r a serial cls owning).2.entryOf r b =
      if b = a then some s.nextWrapper else s.entryOf r b := by
  let made : WrapperState := ⟨⟨s.nextWrapper,a,serial,cls,r⟩,owning,false,1⟩
  let base : Holdings := { s with nextWrapper := s.nextWrapper+1 }.setState made
  let counted := base.modifyRegistry r fun registry => { registry with created := registry.created+1 }
  have counts : Frames base counted := modifyRegistry_frames _
  have enters : Frames counted (counted.enter r made.wrapper) := modifyRegistry_frames _
  have stays : counted.isOpen r := (isOpen_modifyRegistry _).mpr opened
  refine ⟨⟨(isOpen_modifyRegistry _).mpr stays,enters.heap.trans counts.heap,
    enters.nextWrapper.trans counts.nextWrapper⟩,?_,?_⟩
  · intro x
    exact (enters.state? x).trans ((counts.state? x).trans state?_setState)
  · intro b
    refine (entryOf_enter stays made.wrapper).trans ?_
    exact if_congr Iff.rfl rfl (entryOf_counting _ fun _ => rfl)

-- Only a wrapper that is no longer current is put out of its place.
theorem create_sound (sound : Sound s r loose) (cls : SynthesizedClass) (owning : Bool)
    (free : ∀ w, s.entry? r a = some w → w.wrapper.serial ≠ (s.heap.serial? a).getD 0) :
    Sound (s.create r a ((s.heap.serial? a).getD 0) cls owning).2 r (s.nextWrapper :: loose) := by
  obtain ⟨⟨opened,heap,next⟩,states,entries⟩ :=
    create_shows (a := a) sound.opened ((s.heap.serial? a).getD 0) cls owning
  generalize (s.create r a ((s.heap.serial? a).getD 0) cls owning).2 = t at opened heap next states entries
  have unmade : s.state? s.nextWrapper = none := by
    cases found : s.state? s.nextWrapper with
    | none => rfl
    | some w => exact absurd (sound.made _ w found).2.2.1 (Nat.lt_irrefl _)
  have heldNow : ∀ x u, t.held? x = some u → x ≠ s.nextWrapper → s.held? x = some u := by
    intro x u held other
    obtain ⟨known,some⟩ := held?_eq.mp held
    rw [states,if_neg other] at known
    exact held?_eq.mpr ⟨known,some⟩
  refine ⟨opened,heap ▸ sound.heap,?_,?_,?_,?_,?_⟩
  · intro x u known
    rw [next,heap]
    rw [states] at known
    split at known
    · rename_i new
      cases known
      exact ⟨new.symm,rfl,by omega,sound.heap.default_below a⟩
    · obtain ⟨named,home,old,serial⟩ := sound.made x u known
      exact ⟨named,home,Nat.lt_succ_of_lt old,serial⟩
  · intro x u b known live
    rw [heap] at live
    rw [states] at known
    split at known
    · cases known
      exact sound.heap.default_place live
    · exact sound.placed x u b known live
  · intro b x entry
    rw [entries] at entry
    split at entry
    · rename_i here
      cases entry
      have now := states s.nextWrapper
      rw [if_pos rfl] at now
      exact ⟨_,held?_eq.mpr ⟨now,Nat.one_pos⟩,rfl,here.symm⟩
    · obtain ⟨u,held,unreleased,address⟩ := sound.entered b x entry
      have old := (sound.made x u (sound.held held).1).2.2.1
      have now : t.state? x = s.state? x := by rw [states,if_neg (Nat.ne_of_lt old)]
      exact ⟨u,by rw [held?,now]; exact held,unreleased,address⟩
  · intro x u held unreleased live
    rw [heap] at live
    by_cases new : x = s.nextWrapper
    · have known := (held?_eq.mp held).1
      rw [states,if_pos new] at known
      cases known
      rw [entries,if_pos rfl,new]
    · have old := heldNow x u held new
      have entry := sound.tracked x u old unreleased live
      have elsewhere : u.wrapper.address ≠ a := by
        intro here
        rw [here] at entry live
        exact free u (entry?_eq.mpr ⟨x,entry,old⟩) (by rw [live]; rfl)
      rw [entries,if_neg elsewhere,entry]
  · intro x
    have count := sound.counted x
    rw [heap,handlesOf,states,List.count_cons]
    by_cases new : x = s.nextWrapper
    · rw [new,handlesOf,unmade] at count
      rw [if_pos new,new]
      simp only [Option.map_none,Option.getD_none] at count
      simp only [Option.map_some,Option.getD_some,beq_self_eq_true,if_true]
      omega
    · rw [if_neg new]
      rw [if_neg (by simpa using Ne.symm new)]
      exact count

end ObjectBridge.Holdings
