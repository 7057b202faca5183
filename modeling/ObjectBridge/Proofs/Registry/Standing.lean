import ObjectBridge.Proofs.Registry.Soundness

namespace ObjectBridge.Holdings

variable {s t : Holdings} {r home id : Nat} {a : Address} {w v : WrapperState}

-- The wrapper is entered wherever it would be found.
structure Stands (s : Holdings) (r : Nat) (w : WrapperState) : Prop where
  referenced : 0 < w.handles
  entered : s.heap.serial? w.wrapper.address = some w.wrapper.serial →
    s.entryOf r w.wrapper.address = some w.wrapper.id

structure Standing (r : Nat) (s : Holdings) : Prop where
  opened : s.isOpen r
  heap : s.heap.Sound
  made : ∀ id w, s.state? id = some w →
    w.wrapper.id = id ∧ id < s.nextWrapper ∧ w.wrapper.serial < s.heap.nextSerial
  stands : ∀ id w, s.state? id = some w → w.wrapper.home = r → w.released = false → s.Stands r w

theorem initial_standing {registries : List Nat} (member : r ∈ registries) : Standing r (initial registries) where
  opened := by
    have last := Table.get?_puts (·.1) (·.2) (registries.map (·,Registry.empty)) .empty r
    rw [Table.get?_empty,Option.or_none] at last
    rw [isOpen, registry?]
    refine (congrArg Option.isSome last).trans ?_
    simpa using member
  heap := Heap.empty_sound
  made _ _ found := by cases found
  stands _ _ found := by cases found

-- The wrapper is the one that a look at the address of its instance finds.
theorem Standing.found (standing : Standing r s) (known : s.state? id = some w)
    (own : w.wrapper.home = r) (unreleased : w.released = false)
    (live : s.heap.serial? w.wrapper.address = some w.wrapper.serial) : s.entry? r w.wrapper.address = some w := by
  obtain ⟨referenced,entered⟩ := standing.stands id w known own unreleased
  have named := (standing.made id w known).1
  exact entry?_eq.mpr ⟨w.wrapper.id,entered live,held?_eq.mpr ⟨named ▸ known,referenced⟩⟩

-- No instance is there under an old serial that was not there before.
structure Ages (h after : Heap) : Prop where
  sound : after.Sound
  counter : h.nextSerial ≤ after.nextSerial
  serial? : ∀ a n, n < h.nextSerial → after.serial? a = some n → h.serial? a = some n

theorem Ages.of_gives {h after : Heap} {freed returned : List Nat} (gives : h.Gives freed after returned) :
    Ages h after where
  sound := gives.sound
  counter := Nat.le_of_eq gives.shrinks.counter.symm
  serial? a n _ live := by
    rcases gives.shrinks.serial? a with gone | same
    · cases gone.symm.trans live
    · exact same.symm.trans live

theorem Ages.of_keeps {h after : Heap} {taken : List Nat} (keeps : h.Keeps after taken) : Ages h after where
  sound := keeps.sound
  counter := Nat.le_of_eq keeps.counter.symm
  serial? a _ _ live := (keeps.serial? a).symm.trans live

theorem Ages.of_setVariable {h : Heap} (sound : h.Sound) (a : Address) (name : String) (value : NativeValue) :
    Ages h (h.setVariable a name value).2 := by
  refine ⟨Heap.setVariable_sound sound a name value,?_,?_⟩
  · unfold Heap.setVariable
    split <;> exact Nat.le_refl _
  · intro b n _ live
    unfold Heap.setVariable at live
    split at live
    · rename_i i found
      exact (Heap.serial?_update (j := { i with ivars := i.ivars.put name value }) found rfl b).symm.trans live
    · exact live

theorem Ages.of_allocate {h : Heap} (sound : h.Sound) (cls : ClassId) (place : Option Address) :
    Ages h (h.allocate cls place).2 where
  sound := Heap.allocate_sound sound cls place
  counter := Nat.le_succ _
  serial? a n old live := by
    rw [Heap.serial?_allocate] at live
    split at live
    · exact absurd (Option.some.inj live) (Nat.ne_of_gt old)
    · exact live

theorem Standing.ages {after : Heap} (standing : Standing r s) (ages : Ages s.heap after) :
    Standing r { s with heap := after } where
  opened := standing.opened
  heap := ages.sound
  made id w found := by
    obtain ⟨named,old,serial⟩ := standing.made id w found
    exact ⟨named,old,Nat.lt_of_lt_of_le serial ages.counter⟩
  stands id w found home unreleased := by
    obtain ⟨referenced,entered⟩ := standing.stands id w found home unreleased
    refine ⟨referenced,fun live => entered ?_⟩
    exact ages.serial? _ _ (standing.made id w found).2.2 live

theorem registry?_modifyRegistry_other (f : Registry → Registry) (other : r ≠ home) :
    registry? (s.modifyRegistry home f) r = s.registry? r := by
  unfold modifyRegistry
  split
  · exact Table.get?_put_ne _ _ other
  · rfl

theorem isOpen_modifyRegistry_any (f : Registry → Registry) (home : Nat) :
    (s.modifyRegistry home f).isOpen r ↔ s.isOpen r := by
  by_cases same : r = home
  · subst same
    exact isOpen_modifyRegistry f
  · rw [isOpen,isOpen,registry?_modifyRegistry_other f same]

theorem Standing.put (standing : Standing r s) (old : v.wrapper.id < s.nextWrapper)
    (serial : v.wrapper.serial < s.heap.nextSerial) (stands : v.wrapper.home = r → v.released = false → s.Stands r v) :
    Standing r (s.setState v) where
  opened := standing.opened
  heap := standing.heap
  made x u there := by
    rw [state?_setState] at there
    split at there
    · rename_i here
      cases there
      exact ⟨here.symm,here ▸ old,serial⟩
    · exact standing.made x u there
  stands x u there own unreleased := by
    have before : s.Stands r u := by
      rw [state?_setState] at there
      split at there
      · cases there
        exact stands own unreleased
      · exact standing.stands x u there own unreleased
    exact ⟨before.referenced,before.entered⟩

-- Handles are added, or taken without taking the last one of a registry that is open.
theorem Standing.revise (standing : Standing r s) (found : s.state? v.wrapper.id = some w) (same : v.wrapper = w.wrapper)
    (release : v.released = w.released) (lasts : s.isOpen w.wrapper.home → 0 < w.handles → 0 < v.handles) :
    Standing r (s.setState v) := by
  obtain ⟨_,old,serial⟩ := standing.made _ w found
  refine standing.put old (same ▸ serial) fun home unreleased => ?_
  rw [same] at home
  obtain ⟨referenced,entered⟩ := standing.stands _ w found home (release ▸ unreleased)
  rw [← same] at entered
  exact ⟨lasts (home.symm ▸ standing.opened) referenced,entered⟩

-- Registries change, but not so that a wrapper that would be found is missed.
theorem Standing.frame (standing : Standing r s) (frames : Frames s t) (opened : t.isOpen r)
    (entries : ∀ w, s.entry? r w.wrapper.address = some w →
      s.heap.serial? w.wrapper.address = some w.wrapper.serial → s.entryOf r w.wrapper.address = some w.wrapper.id →
      t.entryOf r w.wrapper.address = some w.wrapper.id) : Standing r t := by
  refine ⟨opened,frames.heap ▸ standing.heap,?_,?_⟩
  · intro id w known
    rw [frames.state?] at known
    rw [frames.heap,frames.nextWrapper]
    exact standing.made id w known
  · intro id w known own unreleased
    rw [frames.state?] at known
    have stands := standing.stands id w known own unreleased
    refine ⟨stands.referenced,fun live => ?_⟩
    rw [frames.heap] at live
    exact entries w (standing.found known own unreleased live) live (stands.entered live)

theorem entry?_counting (f : Registry → Registry) (same : ∀ registry, (f registry).entries = registry.entries)
    (entry : Holdings.entry? (s.modifyRegistry r f) r a = some w) : s.entry? r a = some w := by
  obtain ⟨id,entered,held⟩ := entry?_eq.mp entry
  rw [entryOf_counting f same] at entered
  rw [held?,(modifyRegistry_frames f).state?] at held
  exact entry?_eq.mpr ⟨id,entered,held⟩

theorem Standing.counting (standing : Standing r s) (home : Nat) (f : Registry → Registry)
    (same : ∀ registry, (f registry).entries = registry.entries) : Standing r (s.modifyRegistry home f) := by
  have opened : (s.modifyRegistry home f).isOpen r := (isOpen_modifyRegistry_any f home).mpr standing.opened
  refine standing.frame (modifyRegistry_frames f) opened fun w _ _ entered => ?_
  by_cases here : r = home
  · subst here
    rw [entryOf_counting f same]
    exact entered
  · rw [entryOf,registry?_modifyRegistry_other f here]
    exact entered

theorem Standing.enter (standing : Standing r s) (home : Nat) (x : Wrapper)
    (free : ∀ w, s.entry? home x.address = some w → s.heap.serial? x.address ≠ some w.wrapper.serial) :
    Standing r (s.enter home x) := by
  have opened : (s.enter home x).isOpen r := (isOpen_modifyRegistry_any _ home).mpr standing.opened
  refine standing.frame (modifyRegistry_frames _) opened fun w entry live entered => ?_
  by_cases here : r = home
  · subst here
    rw [entryOf_enter standing.opened,if_neg,entered]
    intro clash
    exact free w (clash ▸ entry) (clash ▸ live)
  · rw [entryOf,Holdings.enter,registry?_modifyRegistry_other _ here]
    exact entered

-- What a registry gives up is what it entered under the wrapper's own name, and another loses nothing.
structure GivesUp (s : Holdings) (w : WrapperState) (t : Holdings) : Prop where
  opened : ∀ r, t.isOpen r ↔ s.isOpen r
  nextWrapper : t.nextWrapper = s.nextWrapper
  state? : ∀ id, t.state? id = if id = w.wrapper.id then some { w with released := true } else s.state? id
  entryOf : ∀ r a id, id ≠ w.wrapper.id → s.entryOf r a = some id → t.entryOf r a = some id

theorem finalize_elsewhere (other : r ≠ home) (explicit : Bool) :
    registry? (s.finalize home w explicit).2.1 r = s.registry? r := by
  have forgotten : registry? (s.forget home w.wrapper) r = s.registry? r := registry?_modifyRegistry_other _ other
  unfold finalize
  dsimp only
  split
  · split
    · exact (registry?_modifyRegistry_other _ other).trans forgotten
    · exact forgotten
  · split <;> exact (registry?_modifyRegistry_other _ other).trans forgotten

theorem finalize_givesUp (found : s.state? w.wrapper.id = some w) (home : Nat) (explicit : Bool) :
    GivesUp s w (s.finalize home w explicit).2.1 := by
  have done := finalize_finalizes (r := home) found explicit
  refine ⟨fun r => ?_,done.nextWrapper,done.state?,fun r a id away entry => ?_⟩
  · by_cases here : r = home
    · subst here; exact done.opened
    · rw [isOpen,isOpen,finalize_elsewhere here]
  · by_cases here : r = home
    · subst here
      rw [done.entryOf,if_neg,entry]
      rintro ⟨_,own⟩
      exact away (Option.some.inj (entry.symm.trans own))
    · rw [Holdings.entryOf,finalize_elsewhere here]
      exact entry

theorem Standing.finalize {middle : Holdings} (standing : Standing r s) (found : s.state? v.wrapper.id = some w)
    (same : v.wrapper = w.wrapper) (revises : Revises r s v middle) (home : Nat) (explicit : Bool) :
    Standing r (middle.finalize home v explicit).2.1 := by
  have there : middle.state? v.wrapper.id = some v := by rw [revises.state?,if_pos rfl]
  have done := finalize_givesUp there home explicit
  have ages : Ages s.heap (middle.finalize home v explicit).2.1.heap :=
    revises.heap ▸ .of_gives (finalize_gives (revises.heap ▸ standing.heap) home v explicit)
  generalize (middle.finalize home v explicit).2.1 = t at done ages
  have states : ∀ x, t.state? x = if x = v.wrapper.id then some { v with released := true } else s.state? x := by
    intro x
    rw [done.state?,revises.state?]
    split <;> rfl
  refine ⟨(done.opened r).mpr (revises.opened.mpr standing.opened),ages.sound,?_,?_⟩
  · intro x u known
    rw [done.nextWrapper,revises.nextWrapper]
    rw [states] at known
    split at known
    · rename_i here
      cases known
      obtain ⟨named,old,serial⟩ := standing.made _ w found
      exact ⟨here.symm,here ▸ old,same ▸ Nat.lt_of_lt_of_le serial ages.counter⟩
    · obtain ⟨named,old,serial⟩ := standing.made x u known
      exact ⟨named,old,Nat.lt_of_lt_of_le serial ages.counter⟩
  · intro x u known home unreleased
    rw [states] at known
    split at known
    · cases known
      cases unreleased
    · rename_i away
      obtain ⟨named,_,serial⟩ := standing.made x u known
      obtain ⟨referenced,entered⟩ := standing.stands x u known home unreleased
      refine ⟨referenced,fun live => done.entryOf _ _ _ (named ▸ away) ?_⟩
      rw [revises.entryOf]
      exact entered (ages.serial? _ _ serial live)

theorem dropHandle_standing (standing : Standing r s) (id : Nat) : Standing r (s.dropHandle id).1 := by
  unfold dropHandle
  split
  · exact standing
  · rename_i w held
    obtain ⟨state,positive⟩ := held?_eq.mp held
    have named := (standing.made id w state).1
    have found : s.state? w.wrapper.id = some w := named ▸ state
    dsimp only
    split
    · exact standing.finalize (v := { w with handles := w.handles-1 }) found rfl setState_revises _ _
    · rename_i stays
      refine standing.revise (v := { w with handles := w.handles-1 }) found rfl rfl fun opened _ => ?_
      exact Nat.pos_of_ne_zero fun none => stays ⟨none,opened⟩

theorem settleWith_standing (fuel : Nat) (standing : Standing r s) (pending : List Nat) :
    Standing r (settleWith fuel s pending) := by
  induction fuel generalizing s pending with
  | zero => cases pending <;> exact standing
  | succ fuel ih =>
    cases pending with
    | nil => exact standing
    | cons id rest => exact ih (dropHandle_standing standing id) _

theorem settle_standing (standing : Standing r s) (pending : List Nat) : Standing r (s.settle pending) :=
  settleWith_standing _ standing pending

theorem cloneHandle_standing (standing : Standing r s) (w : Wrapper) : Standing r (s.cloneHandle w) := by
  unfold cloneHandle
  split
  · rename_i state found
    have named := (standing.made w.id state found).1
    exact standing.revise (v := { state with handles := state.handles+1 }) (w := state) (named.symm ▸ found) rfl rfl
      fun _ _ => Nat.succ_pos _
  · exact standing

theorem modifyRegistry_setState (f : Registry → Registry) (home : Nat) (v : WrapperState) :
    (s.setState v).modifyRegistry home f = (s.modifyRegistry home f).setState v := by
  have same : registry? (s.setState v) home = s.registry? home := rfl
  unfold modifyRegistry
  rw [same]
  cases s.registry? home <;> rfl

-- It makes no difference that the wrapper is entered before it is there.
theorem create_eq (home : Nat) (a : Address) (serial : Nat) (cls : SynthesizedClass) (owning : Bool) :
    (s.create home a serial cls owning).2 =
      ((({ s with nextWrapper := s.nextWrapper+1 }.modifyRegistry home
        fun registry => { registry with created := registry.created+1 }).enter home
          ⟨s.nextWrapper,a,serial,cls,home⟩).setState ⟨⟨s.nextWrapper,a,serial,cls,home⟩,owning,false,1⟩) := by
  unfold create enter
  dsimp only
  rw [modifyRegistry_setState,modifyRegistry_setState]

theorem create_standing (standing : Standing r s) (home : Nat) (a : Address) (cls : SynthesizedClass) (owning : Bool)
    (free : ∀ w, s.entry? home a = some w → w.wrapper.serial ≠ (s.heap.serial? a).getD 0) :
    Standing r (s.create home a ((s.heap.serial? a).getD 0) cls owning).2 := by
  let numbered : Holdings := { s with nextWrapper := s.nextWrapper+1 }
  let counted := numbered.modifyRegistry home fun registry => { registry with created := registry.created+1 }
  let made : WrapperState := ⟨⟨s.nextWrapper,a,(s.heap.serial? a).getD 0,cls,home⟩,owning,false,1⟩
  have first : Standing r numbered := by
    refine ⟨standing.opened,standing.heap,fun id w known => ?_,fun id w known own unreleased => ?_⟩
    · obtain ⟨named,old,serial⟩ := standing.made id w known
      exact ⟨named,Nat.lt_succ_of_lt old,serial⟩
    · obtain ⟨referenced,entered⟩ := standing.stands id w known own unreleased
      exact ⟨referenced,entered⟩
  have second : Standing r counted := first.counting home _ fun _ => rfl
  have frames : Frames numbered counted := modifyRegistry_frames _
  have third : Standing r (counted.enter home made.wrapper) := by
    refine second.enter home made.wrapper fun w entry live => ?_
    have before : numbered.entry? home a = some w :=
      entry?_counting (fun registry => { registry with created := registry.created+1 }) (fun _ => rfl) entry
    rw [frames.heap] at live
    exact free w before (by rw [show s.heap.serial? a = _ from live]; rfl)
  have entering : Frames counted (counted.enter home made.wrapper) := modifyRegistry_frames _
  rw [create_eq]
  refine third.put (v := made) ?_ ?_ fun own _ => ?_
  · rw [entering.nextWrapper,frames.nextWrapper]
    exact Nat.lt_succ_self _
  · rw [entering.heap,frames.heap]
    exact standing.heap.default_below a
  · obtain rfl : home = r := own
    refine ⟨Nat.one_pos,fun _ => ?_⟩
    rw [entryOf_enter second.opened,if_pos rfl]

theorem wrapperFor_standing (standing : Standing r s) (home : Nat) (a : Address) (cls : SynthesizedClass) (owning : Bool) :
    Standing r (s.wrapperFor home a cls owning).2 := by
  unfold wrapperFor
  dsimp only
  split
  · rename_i none
    refine create_standing standing home a cls owning fun w entry same => ?_
    rw [entry,Option.filter_some,if_pos (decide_eq_true same)] at none
    cases none
  · rename_i w some
    obtain ⟨id,_,held⟩ := entry?_eq.mp (Option.filter_eq_some_iff.mp some).1
    obtain ⟨state,_⟩ := held?_eq.mp held
    have named := (standing.made id w state).1
    have revised := standing.revise (v := { w with owning := w.owning || owning, handles := w.handles+1 })
      (w := w) (named.symm ▸ state) rfl rfl fun _ _ => Nat.succ_pos _
    split
    · exact settle_standing (revised.ages (.of_gives (Heap.releaseInstance_gives revised.heap _ _))) _
    · exact revised

-- A foreign wrapper is entered only where none stands.
theorem track_standing (standing : Standing r s) (home : Nat) (a : Address) (w : Wrapper) :
    Standing r (s.track home a w).2 := by
  unfold track
  split
  · exact standing
  · rename_i allowed
    split
    · exact standing
    · rename_i none
      rw [not_or,not_or] at allowed
      obtain ⟨here,_,current⟩ := allowed
      obtain rfl := not_not.mp here
      have live : s.heap.serial? w.address = some w.serial := by
        rw [Bool.not_eq_true',Bool.not_eq_false] at current
        exact decide_eq_true_iff.mp current
      refine standing.enter home w fun u entry same => ?_
      have serial := Option.some.inj (same.symm.trans live)
      rw [entry,Option.filter_some,if_pos (decide_eq_true serial)] at none
      cases none

theorem release_standing (standing : Standing r s) (home : Nat) (w : Wrapper) : Standing r (s.release home w).2 := by
  unfold release
  split
  · exact standing
  · rename_i state found
    have named := (standing.made w.id state found).1
    have there : s.state? state.wrapper.id = some state := named.symm ▸ found
    exact settle_standing (standing.finalize there rfl (.refl there) home true) _

end ObjectBridge.Holdings
