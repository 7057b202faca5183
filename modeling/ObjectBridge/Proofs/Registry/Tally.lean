import Mathlib.Data.Finset.Card
import ObjectBridge.Proofs.Registry.Ledger

namespace ObjectBridge

-- A registry when a wrapper has been given up.
def Registry.without (registry : Registry) (w : WrapperState) (explicit : Bool) : Registry where
  entries :=
    if registry.entries.get? w.wrapper.address = some w.wrapper.id then registry.entries.erase w.wrapper.address
    else registry.entries
  created := registry.created
  released := registry.released + if w.released then 0 else 1
  doubleReleases := registry.doubleReleases + if w.released && explicit then 1 else 0

namespace Holdings

variable {s t : Holdings} {r id : Nat} {a : Address} {w v : WrapperState} {loose left taken lowered : List Nat}

theorem registry?_forget (x : Wrapper) : registry? (s.forget r x) r = (s.registry? r).map fun registry =>
    { registry with
      entries := if registry.entries.get? x.address = some x.id then registry.entries.erase x.address
        else registry.entries } := by
  refine (registry?_modifyRegistry _).trans (congrArg (Option.map · _) (funext fun registry => ?_))
  split <;> rfl

theorem registry?_finalize (w : WrapperState) (explicit : Bool) :
    registry? (s.finalize r w explicit).2.1 r = (s.registry? r).map (·.without w explicit) := by
  unfold finalize
  dsimp only
  cases released : w.released with
  | true =>
    cases explicit <;>
      simp [registry?_modifyRegistry,registry?_forget,Registry.without,released,Function.comp_def]
  | false =>
    have counted : registry? (((s.forget r w.wrapper).setState { w with released := true }).modifyRegistry r
        fun registry => { registry with released := registry.released+1 }) r =
        (s.registry? r).map (·.without w explicit) := by
      rw [registry?_modifyRegistry]
      refine (congrArg (Option.map _) (registry?_forget w.wrapper)).trans ?_
      simp [Registry.without,released,Function.comp_def]
    rw [if_neg (by decide)]
    split <;> exact counted

theorem registry?_create (serial : Nat) (cls : SynthesizedClass) (owning : Bool) :
    registry? (s.create r a serial cls owning).2 r = (s.registry? r).map fun registry =>
      { registry with
        created := registry.created+1
        entries := registry.entries.put a s.nextWrapper } := by
  refine (registry?_modifyRegistry _).trans ?_
  rw [registry?_modifyRegistry,Option.map_map]
  rfl

-- Still referred to and not given up.
def standing (s : Holdings) : Finset Nat :=
  s.wrappers.keys.toFinset.filter fun id => (s.held? id).any (!·.released)

theorem mem_standing : id ∈ s.standing ↔ ∃ w, s.held? id = some w ∧ w.released = false := by
  rw [standing,Finset.mem_filter,Option.any_eq_true]
  simp only [Bool.not_eq_true']
  refine ⟨And.right,fun stands => ⟨?_,stands⟩⟩
  obtain ⟨w,held,_⟩ := stands
  have entry := Table.mem_of_get? (held?_eq.mp held).1
  exact List.mem_toFinset.mpr (List.mem_map.mpr ⟨_,entry,rfl⟩)

theorem not_mem_standing (found : s.held? id = some w) (released : w.released = true) : id ∉ s.standing := by
  intro member
  obtain ⟨v,held,unreleased⟩ := mem_standing.mp member
  obtain rfl : w = v := Option.some.inj (found.symm.trans held)
  cases released.symm.trans unreleased

theorem standing_setState (found : s.held? v.wrapper.id = some w) (release : v.released = w.released)
    (positive : 0 < v.handles) : (s.setState v).standing = s.standing := by
  ext x
  rw [mem_standing,mem_standing]
  by_cases here : x = v.wrapper.id
  · rw [here,held?_setState_self positive,found]
    simp [release]
  · rw [held?_setState_other here]

theorem standing_finalized {middle : Holdings} (named : v.wrapper.id = id)
    (others : ∀ x, x ≠ id → middle.state? x = s.state? x) (done : Finalizes r middle v t) :
    t.standing = s.standing.erase id := by
  subst named
  ext x
  rw [mem_standing,Finset.mem_erase,mem_standing]
  by_cases here : x = v.wrapper.id
  · have gone : ¬∃ u, t.held? x = some u ∧ u.released = false := by
      rintro ⟨u,held,unreleased⟩
      have state := (held?_eq.mp held).1
      rw [done.state?,if_pos here] at state
      cases state
      cases unreleased
    exact ⟨fun stands => (gone stands).elim,fun both => (both.1 here).elim⟩
  · rw [held?,done.state?,if_neg here,others x here,← held?]
    exact ⟨fun stands => ⟨here,stands⟩,And.right⟩

structure Counted (r : Nat) (s : Holdings) : Prop where
  tally : ∀ registry, s.registry? r = some registry → registry.created = registry.released+s.standing.card
  sorted : ∀ registry, s.registry? r = some registry → registry.entries.Sorted

theorem registry?_initial (r : Nat) : registry? (initial [r]) r = some Registry.empty :=
  Table.get?_put_self Table.empty r _

theorem initial_counted (r : Nat) : Counted r (initial [r]) := by
  constructor <;> intro registry found
  · cases (registry?_initial r).symm.trans found
    rfl
  · cases (registry?_initial r).symm.trans found
    exact Table.empty_sorted

theorem Counted.same (counted : Counted r s) (registries : t.registries = s.registries)
    (stands : t.standing = s.standing) : Counted r t where
  tally registry found := stands ▸ counted.tally registry ((congrArg (·.get? r) registries).symm.trans found)
  sorted registry found := counted.sorted registry ((congrArg (·.get? r) registries).symm.trans found)

theorem Counted.without (counted : Counted r s) (found : s.held? id = some w) (explicit : Bool)
    (registry : t.registry? r = (s.registry? r).map (·.without w explicit))
    (stands : t.standing = s.standing.erase id) : Counted r t := by
  constructor <;> intro after known
  · obtain ⟨before,opened,rfl⟩ := Option.map_eq_some_iff.mp (registry.symm.trans known)
    have tally := counted.tally before opened
    rw [stands]
    cases released : w.released with
    | true =>
      rw [Finset.erase_eq_of_notMem (not_mem_standing found released)]
      simpa [Registry.without,released] using tally
    | false =>
      have card := Finset.card_erase_add_one (mem_standing.mpr ⟨w,found,released⟩)
      simp only [Registry.without,released]
      simp only [Bool.false_eq_true,if_false]
      omega
  · obtain ⟨before,opened,rfl⟩ := Option.map_eq_some_iff.mp (registry.symm.trans known)
    have sorted := counted.sorted before opened
    simp only [Registry.without]
    split
    · exact Table.erase_sorted _ _ sorted
    · exact sorted

theorem Counted.made (counted : Counted r s) (sound : Sound s r loose) (serial : Nat) (cls : SynthesizedClass)
    (owning : Bool) : Counted r (s.create r a serial cls owning).2 := by
  have states := (create_shows (a := a) sound.opened serial cls owning).2.1
  have registry := registry?_create (s := s) (r := r) (a := a) serial cls owning
  generalize (s.create r a serial cls owning).2 = t at states registry
  have fresh : s.nextWrapper ∉ s.standing := by
    intro member
    obtain ⟨w,held,_⟩ := mem_standing.mp member
    exact Nat.lt_irrefl _ (sound.made _ w (sound.held held).1).2.2.1
  have stands : t.standing = insert s.nextWrapper s.standing := by
    ext x
    rw [Finset.mem_insert,mem_standing,mem_standing,held?,states]
    by_cases new : x = s.nextWrapper
    · simp [new]
    · simp [new,held?]
  constructor <;> intro after known
  · obtain ⟨before,opened,rfl⟩ := Option.map_eq_some_iff.mp (registry.symm.trans known)
    have tally := counted.tally before opened
    rw [stands,Finset.card_insert_of_notMem fresh]
    dsimp only
    omega
  · obtain ⟨before,opened,rfl⟩ := Option.map_eq_some_iff.mp (registry.symm.trans known)
    exact Table.put_sorted _ _ _ (counted.sorted before opened)

theorem Turn.counted (turn : Turn r s loose taken lowered t left) (sound : Sound s r loose) (counted : Counted r s) :
    Counted r t := by
  cases turn with
  | @share id w _ found =>
    have held := (sound.held found).2.1.symm ▸ found
    exact counted.same rfl (standing_setState (v := { w with handles := w.handles+1 }) held rfl (Nat.succ_pos _))
  | @part id w _ found several =>
    have held := (sound.held found).2.1.symm ▸ found
    exact counted.same rfl (standing_setState (v := { w with handles := w.handles-1 }) held rfl (Nat.sub_pos_of_lt several))
  | @promote id w _ found unreleased borrowed =>
    have held := (sound.held found).2.1.symm ▸ found
    exact counted.same rfl
      (standing_setState (v := { w with owning := true, handles := w.handles+1 }) held rfl (Nat.succ_pos _))
  | balance found unreleased owning => exact counted.same rfl rfl
  | make a cls owning free => exact counted.made sound _ cls owning
  | @last id w _ found one =>
    obtain ⟨state,named,_⟩ := sound.held found
    have done := finalize_finalizes (r := r) (state?_setState_self (s := s) (w := { w with handles := 0 })) false
    have others : ∀ x, x ≠ id → (s.setState { w with handles := 0 }).state? x = s.state? x := by
      intro x away
      rw [state?_setState,if_neg (show x ≠ w.wrapper.id from named ▸ away)]
    exact counted.without found false (registry?_finalize { w with handles := 0 } false)
      (standing_finalized (v := { w with handles := 0 }) named others done)
  | @release id w _ found =>
    obtain ⟨state,named,_⟩ := sound.held found
    have done := finalize_finalizes (r := r) (named.symm ▸ state) true
    exact counted.without found true (registry?_finalize w true) (standing_finalized named (fun _ _ => rfl) done)

theorem Turns.counted (turns : Turns r s loose taken lowered t left) (sound : Sound s r loose) (counted : Counted r s) :
    Counted r t := by
  induction turns with
  | done => exact counted
  | turn first rest ih => exact ih (first.sound sound) (first.counted sound counted)

-- The table holds each wrapper that it leads to once, so that its entries can be counted by wrapper.
theorem Sound.live_eq {registry : Registry} (sound : Sound s r loose) (counted : Counted r s)
    (found : s.registry? r = some registry) : registry.entries.size =
      (s.standing.filter fun id => (s.state? id).any fun w => s.entryOf r w.wrapper.address = some id).card := by
  have sorted := counted.sorted registry found
  have entry : ∀ a id, s.entryOf r a = some id ↔ registry.entries.get? a = some id := by
    intro a id
    rw [entryOf,found,Option.bind_some]
  have distinct : registry.entries.values.Nodup := by
    rw [Table.values,List.nodup_iff_pairwise_ne,List.pairwise_map]
    refine sorted.imp_of_mem fun {x y} one other less same => ?_
    obtain ⟨w,held,_,here⟩ := sound.entered x.1 x.2 ((entry _ _).mpr (Table.get?_of_mem sorted one))
    obtain ⟨v,held',_,there⟩ := sound.entered y.1 y.2 ((entry _ _).mpr (Table.get?_of_mem sorted other))
    rw [← same] at held'
    obtain rfl : w = v := Option.some.inj (held.symm.trans held')
    rw [← here,← there] at less
    exact irrefl _ less
  have wrappers : registry.entries.values.toFinset =
      s.standing.filter fun id => (s.state? id).any fun w => s.entryOf r w.wrapper.address = some id := by
    ext id
    rw [List.mem_toFinset,Finset.mem_filter,mem_standing,Option.any_eq_true]
    constructor
    · intro member
      obtain ⟨⟨a,x⟩,among,rfl⟩ := List.mem_map.mp member
      have stands := (entry a x).mpr (Table.get?_of_mem sorted among)
      obtain ⟨w,held,unreleased,rfl⟩ := sound.entered a x stands
      exact ⟨⟨w,held,unreleased⟩,w,(held?_eq.mp held).1,decide_eq_true stands⟩
    · rintro ⟨_,w,_,stands⟩
      exact List.mem_map.mpr ⟨_,Table.mem_of_get? ((entry _ _).mp (of_decide_eq_true stands)),rfl⟩
  rw [← wrappers,List.toFinset_card_of_nodup distinct,Table.values,List.length_map,Table.size]

def Released (s : Holdings) (id : Nat) : Prop := ∃ w, s.state? id = some w ∧ w.released = true

theorem Sound.released_setState {x : Nat} (sound : Sound s r loose) (found : s.held? id = some w)
    (same : v.wrapper = w.wrapper) (release : v.released = w.released) (released : s.Released x) :
    (s.setState v).Released x := by
  obtain ⟨state,named,_⟩ := sound.held found
  obtain ⟨u,known,marked⟩ := released
  rw [Released,state?_setState]
  by_cases here : x = v.wrapper.id
  · rw [here,same,named,state] at known
    cases known
    exact ⟨v,if_pos here,release.trans marked⟩
  · exact ⟨u,(if_neg here).trans known,marked⟩

theorem Finalizes.released {x : Nat} (done : Finalizes r s w t) (released : s.Released x) : t.Released x := by
  obtain ⟨u,known,marked⟩ := released
  rw [Released,done.state?]
  split
  · exact ⟨_,rfl,rfl⟩
  · exact ⟨u,known,marked⟩

theorem Turn.released {x : Nat} (turn : Turn r s loose taken lowered t left) (sound : Sound s r loose)
    (released : s.Released x) : t.Released x := by
  cases turn with
  | @share id w _ found => exact sound.released_setState (v := { w with handles := w.handles+1 }) found rfl rfl released
  | @part id w _ found several =>
    exact sound.released_setState (v := { w with handles := w.handles-1 }) found rfl rfl released
  | @promote id w _ found unreleased borrowed =>
    exact sound.released_setState (v := { w with owning := true, handles := w.handles+1 }) found rfl rfl released
  | @last id w _ found one =>
    have first := sound.released_setState (v := { w with handles := 0 }) found rfl rfl released
    exact (finalize_finalizes (r := r) state?_setState_self false).released first
  | release found =>
    obtain ⟨state,named,_⟩ := sound.held found
    exact (finalize_finalizes (named.symm ▸ state) true).released released
  | make a cls owning free =>
    obtain ⟨w,known,marked⟩ := released
    have old : x ≠ s.nextWrapper := Nat.ne_of_lt (sound.made x w known).2.2.1
    rw [Released,(create_shows (a := a) sound.opened _ cls owning).2.1,if_neg old]
    exact ⟨w,known,marked⟩
  | balance found unreleased owning => exact released

theorem Turns.released {x : Nat} (turns : Turns r s loose taken lowered t left) (sound : Sound s r loose)
    (released : s.Released x) : t.Released x := by
  induction turns with
  | done => exact released
  | turn first rest ih => exact ih (first.sound sound) (first.released sound released)

end Holdings

end ObjectBridge
