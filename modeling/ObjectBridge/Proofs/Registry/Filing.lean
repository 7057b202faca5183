import ObjectBridge.Proofs.Registry.Standing

namespace ObjectBridge.Holdings

variable {s : Holdings} {r id : Nat} {a : Address} {w v : WrapperState}

structure Filed (s : Holdings) : Prop where
  made : ∀ id w, s.state? id = some w → w.wrapper.id = id ∧ id < s.nextWrapper
  own : ∀ r a id, s.entryOf r a = some id → ∃ w, s.state? id = some w ∧ w.wrapper.address = a

theorem initial_filed (registries : List Nat) : (initial registries).Filed where
  made _ _ known := by cases known
  own r a id entry := by
    have opened := Table.get?_puts (·.1) (·.2) (registries.map (·,Registry.empty)) .empty r
    rw [entryOf, registry?] at entry
    obtain ⟨registry,found,stands⟩ := Option.bind_eq_some_iff.mp entry
    have blank := opened.symm.trans found
    rw [Table.get?_empty,Option.or_none,Option.map_eq_some_iff] at blank
    obtain ⟨pair,among,rfl⟩ := blank
    obtain ⟨_,_,rfl⟩ := List.mem_map.mp (List.mem_reverse.mp (List.mem_of_find?_eq_some among))
    cases stands

theorem Filed.entry (filed : s.Filed) (found : s.entry? r a = some w) :
    s.held? w.wrapper.id = some w ∧ w.wrapper.address = a := by
  obtain ⟨id,entered,held⟩ := entry?_eq.mp found
  obtain ⟨known,_⟩ := held?_eq.mp held
  obtain ⟨v,known',here⟩ := filed.own r a id entered
  obtain rfl : w = v := Option.some.inj (known.symm.trans known')
  exact ⟨(filed.made id w known).1.symm ▸ held,here⟩

theorem Filed.heap (filed : s.Filed) (h : Heap) : Filed { s with heap := h } := ⟨filed.made,filed.own⟩

theorem Filed.put (filed : s.Filed) (known : s.state? v.wrapper.id = some w) (same : v.wrapper = w.wrapper) :
    (s.setState v).Filed := by
  constructor
  · intro x u there
    rw [state?_setState] at there
    split at there
    · rename_i here
      cases there
      exact ⟨here.symm,here ▸ (filed.made _ w known).2⟩
    · exact filed.made x u there
  · intro r a x entry
    obtain ⟨u,there,address⟩ := filed.own r a x entry
    rw [state?_setState]
    split
    · rename_i here
      subst here
      cases known.symm.trans there
      exact ⟨v,rfl,same ▸ address⟩
    · exact ⟨u,there,address⟩

-- What a registry enters besides what it had must be at home where it is entered.
theorem Filed.modify (filed : s.Filed) (f : Registry → Registry)
    (own : ∀ registry a id, (f registry).entries.get? a = some id →
      registry.entries.get? a = some id ∨ ∃ w, s.state? id = some w ∧ w.wrapper.address = a) :
    (s.modifyRegistry r f).Filed := by
  have frames := modifyRegistry_frames (s := s) (r := r) f
  constructor
  · intro x u there
    rw [frames.state?] at there
    rw [frames.nextWrapper]
    exact filed.made x u there
  · intro home a x entry
    rw [frames.state?]
    by_cases here : home = r
    · subst here
      rw [entryOf_modifyRegistry] at entry
      obtain ⟨registry,found,stands⟩ := Option.bind_eq_some_iff.mp entry
      rcases own registry a x stands with before | at_home
      · refine filed.own home a x ?_
        rw [entryOf,found]
        exact before
      · exact at_home
    · rw [entryOf,registry?_modifyRegistry_other f here] at entry
      exact filed.own home a x entry

theorem Filed.enter (filed : s.Filed) {x : Wrapper} (known : s.state? x.id = some w) (same : w.wrapper.address = x.address) :
    (s.enter r x).Filed := by
  refine filed.modify _ fun registry a id entry => ?_
  rw [Table.get?_put] at entry
  split at entry
  · rename_i here
    cases entry
    exact .inr ⟨w,known,same.trans here.symm⟩
  · exact .inl entry

theorem Filed.forget (filed : s.Filed) (x : Wrapper) : (s.forget r x).Filed := by
  refine filed.modify _ fun registry a id entry => .inl ?_
  split at entry
  · rw [Table.get?_erase] at entry
    split at entry
    · cases entry
    · exact entry
  · exact entry

theorem Filed.counting (filed : s.Filed) (f : Registry → Registry)
    (same : ∀ registry, (f registry).entries = registry.entries) : (s.modifyRegistry r f).Filed :=
  filed.modify f fun registry _ _ entry => .inl (same registry ▸ entry)

theorem Filed.finalize (filed : s.Filed) (known : s.state? v.wrapper.id = some w) (same : v.wrapper = w.wrapper)
    (explicit : Bool) : (s.finalize r v explicit).2.1.Filed := by
  have forgotten := filed.forget (r := r) v.wrapper
  have still : (s.forget r v.wrapper).state? v.wrapper.id = some w :=
    ((modifyRegistry_frames _).state? _).trans known
  unfold Holdings.finalize
  dsimp only
  split
  · split
    · exact forgotten.counting _ fun _ => rfl
    · exact forgotten
  · have marked := (forgotten.put (v := { v with released := true }) still same).counting (r := r)
      (fun registry => { registry with released := registry.released+1 }) fun _ => rfl
    split
    · exact marked.heap _
    · exact marked

theorem dropHandle_filed (filed : s.Filed) (id : Nat) : (s.dropHandle id).1.Filed := by
  unfold dropHandle
  split
  · exact filed
  · rename_i w held
    obtain ⟨state,_⟩ := held?_eq.mp held
    have known : s.state? w.wrapper.id = some w := (filed.made id w state).1.symm ▸ state
    have lowered := filed.put (v := { w with handles := w.handles-1 }) known rfl
    dsimp only
    split
    · exact lowered.finalize state?_setState_self rfl false
    · exact lowered

theorem settleWith_filed (fuel : Nat) (filed : s.Filed) (pending : List Nat) : (settleWith fuel s pending).Filed := by
  induction fuel generalizing s pending with
  | zero => cases pending <;> exact filed
  | succ fuel ih =>
    cases pending with
    | nil => exact filed
    | cons id rest => exact ih (dropHandle_filed filed id) _

theorem settle_filed (filed : s.Filed) (pending : List Nat) : (s.settle pending).Filed := settleWith_filed _ filed pending

theorem cloneHandle_filed (filed : s.Filed) (w : Wrapper) : (s.cloneHandle w).Filed := by
  unfold cloneHandle
  split
  · rename_i state found
    have named := (filed.made w.id state found).1
    exact filed.put (v := { state with handles := state.handles+1 }) (w := state) (named.symm ▸ found) rfl
  · exact filed

theorem create_filed (filed : s.Filed) (a : Address) (serial : Nat) (cls : SynthesizedClass) (owning : Bool) :
    (s.create r a serial cls owning).2.Filed := by
  let made : WrapperState := ⟨⟨s.nextWrapper,a,serial,cls,r⟩,owning,false,1⟩
  let numbered : Holdings := { s with nextWrapper := s.nextWrapper+1 }
  have first : (numbered.setState made).Filed := by
    constructor
    · intro x u there
      rw [state?_setState] at there
      split at there
      · rename_i here
        cases there
        exact ⟨here.symm,here ▸ Nat.lt_succ_self _⟩
      · obtain ⟨named,old⟩ := filed.made x u there
        exact ⟨named,Nat.lt_succ_of_lt old⟩
    · intro home b x entry
      obtain ⟨u,there,address⟩ := filed.own home b x entry
      have away : x ≠ made.wrapper.id := Nat.ne_of_lt (filed.made x u there).2
      rw [state?_setState,if_neg away]
      exact ⟨u,there,address⟩
  have counted := first.counting (r := r) (fun registry => { registry with created := registry.created+1 }) fun _ => rfl
  refine counted.enter (w := made) ?_ rfl
  rw [(modifyRegistry_frames _).state?,state?_setState,if_pos rfl]

theorem wrapperFor_filed (filed : s.Filed) (a : Address) (cls : SynthesizedClass) (owning : Bool) :
    (s.wrapperFor r a cls owning).2.Filed := by
  unfold wrapperFor
  dsimp only
  split
  · exact create_filed filed a _ cls owning
  · rename_i w some
    obtain ⟨held,_⟩ := filed.entry (Option.filter_eq_some_iff.mp some).1
    have shared := filed.put (v := { w with owning := w.owning || owning, handles := w.handles+1 }) (held?_eq.mp held).1 rfl
    split
    · exact settle_filed (shared.heap _) _
    · exact shared

theorem track_filed (filed : s.Filed) (known : s.state? w.wrapper.id = some w) (a : Address) :
    (s.track r a w.wrapper).2.Filed := by
  unfold track
  split
  · exact filed
  · split
    · exact filed
    · exact filed.enter known rfl

theorem release_filed (filed : s.Filed) (w : Wrapper) : (s.release r w).2.Filed := by
  unfold release
  split
  · exact filed
  · rename_i state found
    have known : s.state? state.wrapper.id = some state := (filed.made w.id state found).1.symm ▸ found
    exact settle_filed (filed.finalize known rfl true) _

end ObjectBridge.Holdings
