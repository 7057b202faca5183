import ObjectBridge.Proofs.Native.Lifetimes
import ObjectBridge.Proofs.Registry.Runs

namespace ObjectBridge.Holdings

variable {s t : Holdings} {r id : Nat} {w : WrapperState} {loose left taken given more lowered : List Nat}

-- Some wrapper made for the instance of that serial is to release it.
def Owned (s : Holdings) (n : Nat) : Prop :=
  ∃ id w, s.held? id = some w ∧ w.released = false ∧ w.owning = true ∧ w.wrapper.serial = n

-- The count of an instance may have run over and come round to zero. Such an instance is not lowered any
-- more, so that its references may be given back fewer times than they were handed over, but never more
-- often. For all others the ledger is even.
structure Balanced (s : Holdings) (overrun : Nat → Prop) (taken given : List Nat) : Prop where
  known : ∀ n ∈ taken, n < s.heap.nextSerial
  bounded : ∀ n, given.count n ≤ taken.count n
  covered : ∀ a n, s.heap.serial? a = some n → s.Owned n → given.count n+1 ≤ taken.count n
  owned : ∀ a n, s.heap.serial? a = some n → ¬overrun n → s.Owned n → taken.count n = given.count n+1
  free : ∀ a n, s.heap.serial? a = some n → ¬overrun n → ¬s.Owned n → taken.count n = given.count n

theorem initial_balanced (r : Nat) (overrun : Nat → Prop) : Balanced (initial [r]) overrun [] [] where
  known _ member := nomatch member
  bounded _ := Nat.le_refl _
  covered _ _ live := nomatch live
  owned _ _ live := nomatch live
  free _ _ live := nomatch live

variable {overrun : Nat → Prop}

theorem Balanced.mono {more : Nat → Prop} (balanced : Balanced s overrun taken given) (all : ∀ n, overrun n → more n) :
    Balanced s more taken given where
  known := balanced.known
  bounded := balanced.bounded
  covered := balanced.covered
  owned a n live even := balanced.owned a n live fun ran => even (all n ran)
  free a n live even := balanced.free a n live fun ran => even (all n ran)

theorem Sound.serial_below {a : Address} {n : Nat} (sound : Sound s r loose) (live : s.heap.serial? a = some n) :
    0 < n ∧ n < s.heap.nextSerial := by
  obtain ⟨i,found,rfl⟩ := Heap.serial?_eq.mp live
  exact sound.heap.serials a i found

theorem Balanced.narrows {h : Heap} (balanced : Balanced s overrun taken given)
    (counter : h.nextSerial = s.heap.nextSerial) (before : ∀ a n, h.serial? a = some n → s.heap.serial? a = some n) :
    Balanced { s with heap := h } overrun taken given where
  known n member := counter.symm ▸ balanced.known n member
  bounded := balanced.bounded
  covered a n live := balanced.covered a n (before a n live)
  owned a n live := balanced.owned a n (before a n live)
  free a n live := balanced.free a n (before a n live)

theorem Balanced.outside {h : Heap} (balanced : Balanced s overrun taken given) (sound : Sound s r loose)
    (outside : Scene.Outside s.heap loose h left) : Balanced { s with heap := h } overrun taken given := by
  cases outside with
  | allocate cls place =>
    -- Nothing was ever handed over for the serial that is new, and no wrapper has it.
    have fresh : ∀ a n, (s.heap.allocate cls place).2.serial? a = some n →
        s.heap.serial? a = some n ∨ (taken.count n = 0 ∧ ¬s.Owned n) := by
      intro a n live
      rw [Heap.serial?_allocate] at live
      split at live
      · cases live
        refine .inr ⟨List.count_eq_zero.mpr fun member => Nat.lt_irrefl _ (balanced.known _ member),?_⟩
        rintro ⟨id,w,held,_,_,serial⟩
        exact Nat.ne_of_lt (sound.made id w (sound.held held).1).2.2.2 serial
      · exact .inl live
    refine ⟨fun n member => Nat.lt_succ_of_lt (balanced.known n member),balanced.bounded,?_,?_,?_⟩
    · intro a n live owned
      rcases fresh a n live with old | ⟨_,nobody⟩
      · exact balanced.covered a n old owned
      · exact absurd owned nobody
    · intro a n live even owned
      rcases fresh a n live with old | ⟨_,nobody⟩
      · exact balanced.owned a n old even owned
      · exact absurd owned nobody
    · intro a n live even free
      rcases fresh a n live with old | ⟨never,_⟩
      · exact balanced.free a n old even free
      · have bound := balanced.bounded n
        omega
  | keeps taken keeps =>
    exact balanced.narrows keeps.counter fun a n live => (keeps.serial? a).symm.trans live
  | gives gives =>
    exact balanced.narrows gives.shrinks.counter fun a n live => gives.shrinks.serial?_before a live

-- One turn for one live instance, by how often it was handed over and lowered. Whether the owner stays, goes or
-- comes, what is lowered is known only if there was something to lower.
inductive Settles (had has : Prop) (more lowered : Nat) (counted : Prop) : Prop where
  | stays (same : has ↔ had) (most : lowered ≤ more) (all : counted → lowered = more)
  | goes (had : had) (gone : ¬has) (most : lowered ≤ more+1) (all : counted → lowered = more+1)
  | comes (free : ¬had) (has : has) (one : more = lowered+1)

theorem Balanced.step (balanced : Balanced s overrun taken given) (sound : Sound s r loose)
    (counted : s.heap.Counted overrun) (shrinks : Heap.Shrinks s.heap t.heap lowered)
    (takes : ∀ n ∈ more, ∃ a, s.heap.serial? a = some n)
    (settles : ∀ a i, s.heap.get? a = some i → Settles (s.Owned i.serial) (t.Owned i.serial) (more.count i.serial)
      (lowered.count i.serial) (0 < i.count)) :
    Balanced t overrun (taken ++ more) (given ++ lowered) := by
  have counts : ∀ a n, s.heap.serial? a = some n →
      (given ++ lowered).count n ≤ (taken ++ more).count n ∧
      (t.Owned n → (given ++ lowered).count n+1 ≤ (taken ++ more).count n) ∧
      (¬overrun n → t.Owned n → (taken ++ more).count n = (given ++ lowered).count n+1) ∧
      (¬overrun n → ¬t.Owned n → (taken ++ more).count n = (given ++ lowered).count n) := by
    intro a n live
    obtain ⟨i,found,rfl⟩ := Heap.serial?_eq.mp live
    have bound := balanced.bounded i.serial
    have cover := balanced.covered a i.serial live
    have owned := balanced.owned a i.serial live
    have free := balanced.free a i.serial live
    have positive := counted a i found
    rw [List.count_append,List.count_append]
    cases settles a i found with
    | stays same most all =>
      rw [same]
      refine ⟨by omega,fun has => ?_,fun even has => ?_,fun even none => ?_⟩
      · have := cover has; omega
      · have := owned even has; have := all (positive even); omega
      · have := free even none; have := all (positive even); omega
    | goes had gone most all =>
      have := cover had
      refine ⟨by omega,fun has => absurd has gone,fun _ has => absurd has gone,fun even _ => ?_⟩
      have := owned even had; have := all (positive even); omega
    | comes none has one =>
      refine ⟨by omega,fun _ => by omega,fun even _ => ?_,fun _ gone => absurd has gone⟩
      have := free even none; omega
  have before : ∀ a n, t.heap.serial? a = some n → s.heap.serial? a = some n := fun a _ => shrinks.serial?_before a
  refine ⟨?_,?_,fun a n live => (counts a n (before a n live)).2.1,fun a n live => (counts a n (before a n live)).2.2.1,
    fun a n live => (counts a n (before a n live)).2.2.2⟩
  · intro n member
    rw [shrinks.counter]
    rcases List.mem_append.mp member with old | new
    · exact balanced.known n old
    · obtain ⟨a,live⟩ := takes n new
      exact (sound.serial_below live).2
  · intro n
    by_cases live : ∃ a, s.heap.serial? a = some n
    · obtain ⟨a,live⟩ := live
      exact (counts a n live).1
    · have untouched : lowered.count n = 0 := by
        rw [List.count_eq_zero]
        exact fun member => live (shrinks.live n member)
      have bound := balanced.bounded n
      rw [List.count_append,List.count_append]
      omega

-- As `Owned`, by another wrapper than the one of that number.
def OwnedBeside (s : Holdings) (id n : Nat) : Prop :=
  ∃ x w, x ≠ id ∧ s.held? x = some w ∧ w.released = false ∧ w.owning = true ∧ w.wrapper.serial = n

theorem owned_iff {n : Nat} (others : ∀ x, x ≠ id → t.held? x = s.held? x) : t.Owned n ↔
    s.OwnedBeside id n ∨ ∃ v, t.held? id = some v ∧ v.released = false ∧ v.owning = true ∧ v.wrapper.serial = n := by
  constructor
  · rintro ⟨x,v,held,rest⟩
    by_cases here : x = id
    · exact .inr ⟨v,here ▸ held,rest⟩
    · exact .inl ⟨x,v,here,others x here ▸ held,rest⟩
  · rintro (⟨x,v,away,held,rest⟩ | ⟨v,held,rest⟩)
    · exact ⟨x,v,(others x away).trans held,rest⟩
    · exact ⟨id,v,held,rest⟩

theorem owned_by {n : Nat} (found : s.held? id = some w) : s.Owned n ↔
    s.OwnedBeside id n ∨ (w.released = false ∧ w.owning = true ∧ w.wrapper.serial = n) := by
  rw [owned_iff (s := s) fun _ _ => rfl,found]
  constructor
  · rintro (beside | ⟨v,same,rest⟩)
    · exact .inl beside
    · cases same; exact .inr rest
  · rintro (beside | rest)
    · exact .inl beside
    · exact .inr ⟨w,rfl,rest⟩

theorem held?_setState_other {v : WrapperState} {x : Nat} (away : x ≠ v.wrapper.id) :
    (s.setState v).held? x = s.held? x := by
  rw [held?,state?_setState,if_neg away,held?]

theorem held?_setState_self {v : WrapperState} (positive : 0 < v.handles) :
    (s.setState v).held? v.wrapper.id = some v := by
  rw [held?_eq,state?_setState,if_pos rfl]
  exact ⟨rfl,positive⟩

theorem owned_setState {v : WrapperState} {n : Nat} (sound : Sound s r loose) (found : s.held? id = some w)
    (same : v.wrapper = w.wrapper) (positive : 0 < v.handles) : (s.setState v).Owned n ↔
    s.OwnedBeside id n ∨ (v.released = false ∧ v.owning = true ∧ w.wrapper.serial = n) := by
  have named : v.wrapper.id = id := same ▸ (sound.held found).2.1
  have now : (s.setState v).held? id = some v := named ▸ held?_setState_self positive
  rw [owned_by now,same]
  have beside : (s.setState v).OwnedBeside id n ↔ s.OwnedBeside id n := by
    constructor <;> rintro ⟨x,u,away,held,rest⟩
    · exact ⟨x,u,away,(held?_setState_other (named ▸ away)).symm.trans held,rest⟩
    · exact ⟨x,u,away,(held?_setState_other (named ▸ away)).trans held,rest⟩
  rw [beside]

theorem not_beside {a : Address} {n : Nat} (sound : Sound s r loose) (found : s.held? id = some w)
    (unreleased : w.released = false) (live : s.heap.serial? a = some n) (serial : w.wrapper.serial = n) :
    ¬s.OwnedBeside id n := by
  rintro ⟨x,u,away,held,released,_,same⟩
  exact away (sound.unique held found released unreleased (same.trans serial.symm) (same ▸ live))

theorem living_count {a : Address} {n : Nat} (sound : Sound s r loose) (found : s.held? id = some w)
    (live : s.heap.serial? a = some n) :
    (s.living w.wrapper.address w.wrapper.serial).count n = if w.wrapper.serial = n then 1 else 0 := by
  unfold living
  by_cases mine : w.wrapper.serial = n
  · have place := sound.placed id w a (sound.held found).1 (mine ▸ live)
    rw [if_pos mine,if_pos (place ▸ mine ▸ live),mine,List.count_singleton_self]
  · rw [if_neg mine]
    split
    · exact List.count_eq_zero.mpr fun member => mine (List.mem_singleton.mp member).symm
    · rfl

theorem lowered_count {a : Address} {i : Instance} (sound : Sound s r loose) (found : s.held? id = some w)
    (there : s.heap.get? a = some i) :
    (s.heap.lowered w.wrapper.address w.wrapper.serial).count i.serial ≤ (if w.wrapper.serial = i.serial then 1 else 0) ∧
      (0 < i.count → (s.heap.lowered w.wrapper.address w.wrapper.serial).count i.serial =
        if w.wrapper.serial = i.serial then 1 else 0) := by
  have live : s.heap.serial? a = some i.serial := Heap.serial?_eq.mpr ⟨i,there,rfl⟩
  by_cases mine : w.wrapper.serial = i.serial
  · have place := sound.placed id w a (sound.held found).1 (mine ▸ live)
    rw [if_pos mine,mine,← place,Heap.lowered_here there]
    refine ⟨?_,fun counted => by rw [Instance.loses_counted counted,List.count_singleton_self]⟩
    unfold Instance.loses
    split <;> simp
  · have none : (s.heap.lowered w.wrapper.address w.wrapper.serial).count i.serial = 0 :=
      List.count_eq_zero.mpr fun member => mine (Heap.mem_lowered member).1.symm
    rw [if_neg mine,none]
    exact ⟨Nat.le_refl _,fun _ => rfl⟩

theorem mem_living {a : Address} {n serial : Nat} (member : n ∈ s.living a serial) : s.heap.serial? a = some n := by
  unfold living at member
  split at member
  · rename_i live
    rwa [List.mem_singleton.mp member]
  · cases member

-- The wrapper is out of the way, and with it what it owned.
theorem Balanced.retired (balanced : Balanced s overrun taken given) (sound : Sound s r loose)
    (counted : s.heap.Counted overrun) (found : s.held? id = some w)
    (shrinks : Heap.Shrinks s.heap t.heap (s.returned w)) (others : ∀ x, x ≠ id → t.held? x = s.held? x)
    (gone : ∀ v, t.held? id = some v → v.released = true) :
    Balanced t overrun (taken ++ []) (given ++ s.returned w) := by
  refine balanced.step sound counted shrinks (fun _ member => nomatch member) ?_
  intro a i there
  have live : s.heap.serial? a = some i.serial := Heap.serial?_eq.mpr ⟨i,there,rfl⟩
  have after : t.Owned i.serial ↔ s.OwnedBeside id i.serial := by
    rw [owned_iff others]
    constructor
    · rintro (beside | ⟨v,held,unreleased,_⟩)
      · exact beside
      · rw [gone v held] at unreleased; cases unreleased
    · exact .inl
  rw [after,owned_by found,returned]
  by_cases owns : w.released = false ∧ w.owning = true
  · obtain ⟨most,all⟩ := lowered_count sound found there
    rw [if_pos owns]
    by_cases mine : w.wrapper.serial = i.serial
    · rw [if_pos mine] at most all
      exact .goes (.inr ⟨owns.1,owns.2,mine⟩) (not_beside sound found owns.1 live mine) most all
    · rw [if_neg mine] at most all
      refine .stays ⟨.inl,?_⟩ most all
      rintro (beside | ⟨_,_,same⟩)
      · exact beside
      · exact absurd same mine
  · rw [if_neg owns]
    refine .stays ⟨.inl,?_⟩ (Nat.le_refl _) fun _ => rfl
    rintro (beside | ⟨unreleased,owning,_⟩)
    · exact beside
    · exact absurd ⟨unreleased,owning⟩ owns

theorem Balanced.unchanged (balanced : Balanced s overrun taken given) (heap : t.heap = s.heap)
    (same : ∀ n, t.Owned n ↔ s.Owned n) : Balanced t overrun (taken ++ []) (given ++ []) := by
  rw [List.append_nil,List.append_nil]
  refine ⟨heap ▸ balanced.known,balanced.bounded,?_,?_,?_⟩
  · intro a n live owned
    exact balanced.covered a n (heap ▸ live) ((same n).mp owned)
  · intro a n live even owned
    exact balanced.owned a n (heap ▸ live) even ((same n).mp owned)
  · intro a n live even free
    exact balanced.free a n (heap ▸ live) even fun owned => free ((same n).mpr owned)

theorem Finalizes.held_other {x : Nat} (done : Finalizes r s w t) (away : x ≠ w.wrapper.id) :
    t.held? x = s.held? x := by
  rw [held?,done.state?,if_neg away,held?]

theorem Finalizes.held_released {v : WrapperState} (done : Finalizes r s w t)
    (held : t.held? w.wrapper.id = some v) : v.released = true := by
  have state := (held?_eq.mp held).1
  rw [done.state?,if_pos rfl] at state
  cases state
  rfl

-- A wrapper is made for a live instance only if none stands for it.
theorem Balanced.made {a : Address} {cls : SynthesizedClass} {owning : Bool} (balanced : Balanced s overrun taken given)
    (sound : Sound s r loose) (counted : s.heap.Counted overrun)
    (shrinks : Heap.Shrinks s.heap (s.create r a ((s.heap.serial? a).getD 0) cls owning).2.heap [])
    (free : ∀ w, s.entry? r a = some w → w.wrapper.serial ≠ (s.heap.serial? a).getD 0) :
    Balanced (s.create r a ((s.heap.serial? a).getD 0) cls owning).2 overrun
      (taken ++ if owning then (s.heap.serial? a).toList else []) (given ++ []) := by
  have states := (create_shows (a := a) sound.opened ((s.heap.serial? a).getD 0) cls owning).2.1
  generalize (s.create r a ((s.heap.serial? a).getD 0) cls owning).2 = t at shrinks states
  have others : ∀ x, x ≠ s.nextWrapper → t.held? x = s.held? x := by
    intro x away
    rw [held?,states,if_neg away,held?]
  have now : t.held? s.nextWrapper =
      some ⟨⟨s.nextWrapper,a,(s.heap.serial? a).getD 0,cls,r⟩,owning,false,1⟩ := by
    rw [held?_eq,states,if_pos rfl]
    exact ⟨rfl,Nat.one_pos⟩
  have before : ∀ n, s.Owned n ↔ s.OwnedBeside s.nextWrapper n := by
    intro n
    rw [owned_iff (s := s) (t := s) fun _ _ => rfl]
    constructor
    · rintro (beside | ⟨v,held,_⟩)
      · exact beside
      · exact absurd (sound.made _ v (sound.held held).1).2.2.1 (Nat.lt_irrefl _)
    · exact .inl
  have after : ∀ n, t.Owned n ↔
      s.OwnedBeside s.nextWrapper n ∨ (owning = true ∧ (s.heap.serial? a).getD 0 = n) := by
    intro n
    rw [owned_iff others,now]
    constructor
    · rintro (beside | ⟨v,same,_,owns,serial⟩)
      · exact .inl beside
      · cases same; exact .inr ⟨owns,serial⟩
    · rintro (beside | ⟨owns,serial⟩)
      · exact .inl beside
      · exact .inr ⟨_,rfl,rfl,owns,serial⟩
  have alone : ∀ n, s.heap.serial? a = some n → ¬s.OwnedBeside s.nextWrapper n := by
    rintro n live ⟨x,u,_,held,unreleased,_,rfl⟩
    have place := sound.placed x u a (sound.held held).1 live
    have entry := sound.tracked x u held unreleased (place ▸ live)
    exact free u (entry?_eq.mpr ⟨x,place ▸ entry,held⟩) (by rw [live]; rfl)
  refine balanced.step sound counted shrinks ?_ fun b i there => ?_
  · intro n member
    split at member
    · exact ⟨a,Option.mem_toList.mp member⟩
    · cases member
  · have live : s.heap.serial? b = some i.serial := Heap.serial?_eq.mpr ⟨i,there,rfl⟩
    rw [before,after]
    by_cases mine : owning = true ∧ (s.heap.serial? a).getD 0 = i.serial
    · have here : s.heap.serial? a = some i.serial := by
        have place : b = a := sound.heap.default_place (mine.2 ▸ live)
        exact place ▸ live
      refine .comes (alone i.serial here) (.inr mine) ?_
      rw [if_pos mine.1,here]
      exact List.count_singleton_self
    · have none : (if owning then (s.heap.serial? a).toList else []).count i.serial = 0 := by
        rw [List.count_eq_zero]
        intro member
        split at member
        · rename_i owns
          exact mine ⟨owns,by rw [Option.mem_toList.mp member]; rfl⟩
        · cases member
      rw [none]
      exact .stays ⟨fun has => has.resolve_right mine,.inl⟩ (Nat.le_refl _) fun _ => rfl

theorem Turn.balanced (turn : Turn r s loose more lowered t left) (sound : Sound s r loose)
    (counted : s.heap.Counted overrun) (balanced : Balanced s overrun taken given) :
    Balanced t overrun (taken ++ more) (given ++ lowered) := by
  obtain ⟨_,gives⟩ := turn.gives sound
  cases turn with
  | @share id w _ found =>
    refine balanced.unchanged rfl fun n => ?_
    rw [owned_setState (v := { w with handles := w.handles+1 }) sound found rfl (Nat.succ_pos _),owned_by found]
  | @part id w _ found several =>
    refine balanced.unchanged rfl fun n => ?_
    rw [owned_setState (v := { w with handles := w.handles-1 }) sound found rfl (Nat.sub_pos_of_lt several),
      owned_by found]
  | @last id w _ found one =>
    obtain ⟨state,named,_⟩ := sound.held found
    have done := finalize_finalizes (r := r) (state?_setState_self (s := s) (w := { w with handles := 0 })) false
    refine balanced.retired sound counted found gives.shrinks ?_ ?_
    · intro x away
      have other : x ≠ w.wrapper.id := named ▸ away
      exact (done.held_other other).trans (held?_setState_other other)
    · intro v held
      exact done.held_released (named.symm ▸ held)
  | @release id w _ found =>
    obtain ⟨state,named,_⟩ := sound.held found
    have done := finalize_finalizes (r := r) (named.symm ▸ state) true
    refine balanced.retired sound counted found gives.shrinks ?_ ?_
    · intro x away
      exact done.held_other (named ▸ away)
    · intro v held
      exact done.held_released (named.symm ▸ held)
  | make a cls owning free => exact balanced.made sound counted gives.shrinks free
  | @promote id w _ found unreleased borrowed =>
    refine balanced.step sound counted gives.shrinks (fun n member => ⟨_,mem_living member⟩) fun a i there => ?_
    have live : s.heap.serial? a = some i.serial := Heap.serial?_eq.mpr ⟨i,there,rfl⟩
    rw [owned_setState (v := { w with owning := true, handles := w.handles+1 }) sound found rfl (Nat.succ_pos _),
      owned_by found,living_count sound found live]
    by_cases mine : w.wrapper.serial = i.serial
    · rw [if_pos mine]
      refine .comes ?_ (.inr ⟨unreleased,rfl,mine⟩) rfl
      rintro (beside | ⟨_,owns,_⟩)
      · exact not_beside sound found unreleased live mine beside
      · cases borrowed.symm.trans owns
    · rw [if_neg mine]
      refine .stays ⟨?_,?_⟩ (Nat.le_refl _) fun _ => rfl <;> rintro (beside | ⟨_,_,same⟩)
      · exact .inl beside
      · exact absurd same mine
      · exact .inl beside
      · exact absurd same mine
  | @balance id w _ found unreleased owning =>
    refine balanced.step sound counted gives.shrinks (fun n member => ⟨_,mem_living member⟩) fun a i there => ?_
    obtain ⟨most,all⟩ := lowered_count sound found there
    rw [living_count sound found (Heap.serial?_eq.mpr ⟨i,there,rfl⟩)]
    exact .stays .rfl most all

theorem Turn.stillCounted (turn : Turn r s loose more lowered t left) (sound : Sound s r loose)
    (counted : s.heap.Counted overrun) : t.heap.Counted overrun := by
  obtain ⟨_,gives⟩ := turn.gives sound
  exact gives.counted counted

theorem Turns.stillCounted (turns : Turns r s loose more lowered t left) (sound : Sound s r loose)
    (counted : s.heap.Counted overrun) : t.heap.Counted overrun := by
  induction turns with
  | done => exact counted
  | turn first rest ih => exact ih (first.sound sound) (first.stillCounted sound counted)

theorem Turns.balanced (turns : Turns r s loose more lowered t left) (sound : Sound s r loose)
    (counted : s.heap.Counted overrun) (balanced : Balanced s overrun taken given) :
    Balanced t overrun (taken ++ more) (given ++ lowered) := by
  induction turns generalizing taken given with
  | done => rw [List.append_nil,List.append_nil]; exact balanced
  | turn first rest ih =>
    rw [← List.append_assoc,← List.append_assoc]
    exact ih (first.sound sound) (first.stillCounted sound counted) (first.balanced sound counted balanced)

-- No wrapper ever vanishes from the holdings, and none that owns its instance comes to borrow it.
def Stays (s t : Holdings) : Prop :=
  ∀ id w, s.state? id = some w → ∃ v, t.state? id = some v ∧ v.wrapper = w.wrapper ∧
    (w.owning = true → v.owning = true)

theorem Stays.refl (s : Holdings) : Stays s s := fun _ w known => ⟨w,known,rfl,fun owns => owns⟩

theorem Stays.trans {middle : Holdings} (one : Stays s middle) (two : Stays middle t) : Stays s t := by
  intro id w known
  obtain ⟨v,between,same,owns⟩ := one id w known
  obtain ⟨u,after,same',owns'⟩ := two id v between
  exact ⟨u,after,same'.trans same,fun own => owns' (owns own)⟩

theorem Sound.setState_stays {v : WrapperState} (sound : Sound s r loose) (found : s.held? id = some w)
    (same : v.wrapper = w.wrapper) (owns : w.owning = true → v.owning = true) : Stays s (s.setState v) := by
  obtain ⟨state,named,_⟩ := sound.held found
  intro x u known
  rw [state?_setState]
  by_cases here : x = v.wrapper.id
  · rw [here,same,named,state] at known
    cases known
    exact ⟨v,if_pos here,same,owns⟩
  · exact ⟨u,(if_neg here).trans known,rfl,fun own => own⟩

theorem Finalizes.stays (done : Finalizes r s w t) (found : s.state? w.wrapper.id = some w) : Stays s t := by
  intro id u known
  rw [done.state?]
  by_cases here : id = w.wrapper.id
  · rw [here,found] at known
    cases known
    exact ⟨_,if_pos here,rfl,fun own => own⟩
  · exact ⟨u,(if_neg here).trans known,rfl,fun own => own⟩

theorem Turn.stays (turn : Turn r s loose more lowered t left) (sound : Sound s r loose) : Stays s t := by
  cases turn with
  | @share id w _ found => exact sound.setState_stays (v := { w with handles := w.handles+1 }) found rfl fun own => own
  | @part id w _ found several => exact sound.setState_stays (v := { w with handles := w.handles-1 }) found rfl fun own => own
  | @last id w _ found one =>
    have there := state?_setState_self (s := s) (w := { w with handles := 0 })
    have first := sound.setState_stays (v := { w with handles := 0 }) found rfl fun own => own
    exact first.trans ((finalize_finalizes (r := r) there false).stays there)
  | release found =>
    obtain ⟨state,named,_⟩ := sound.held found
    exact (finalize_finalizes (named.symm ▸ state) true).stays (named.symm ▸ state)
  | make a cls owning free =>
    intro id w known
    have old : id ≠ s.nextWrapper := Nat.ne_of_lt (sound.made id w known).2.2.1
    rw [(create_shows (a := a) sound.opened _ cls owning).2.1,if_neg old]
    exact ⟨w,known,rfl,fun own => own⟩
  | @promote id w _ found unreleased borrowed =>
    exact sound.setState_stays (v := { w with owning := true, handles := w.handles+1 }) found rfl fun _ => rfl
  | balance found unreleased owning => exact .refl s

theorem Turn.lowered_owned {n : Nat} (turn : Turn r s loose more lowered t left) (sound : Sound s r loose)
    (member : n ∈ lowered) : ∃ id w, s.state? id = some w ∧ w.wrapper.serial = n ∧ w.owning = true := by
  have own : ∀ {id : Nat} {w : WrapperState}, s.held? id = some w → w.owning = true →
      n ∈ s.heap.lowered w.wrapper.address w.wrapper.serial →
      ∃ id w, s.state? id = some w ∧ w.wrapper.serial = n ∧ w.owning = true := by
    intro id w found owns member
    exact ⟨id,w,(sound.held found).1,(Heap.mem_lowered member).1.symm,owns⟩
  have owned : ∀ {id : Nat} {w : WrapperState}, s.held? id = some w → n ∈ s.returned w →
      ∃ id w, s.state? id = some w ∧ w.wrapper.serial = n ∧ w.owning = true := by
    intro id w found member
    unfold returned at member
    split at member
    · rename_i owns
      exact own found owns.2 member
    · cases member
  cases turn with
  | share found => cases member
  | part found several => cases member
  | last found one => exact owned found member
  | release found => exact owned found member
  | make a cls owning free => cases member
  | promote found unreleased borrowed => cases member
  | balance found unreleased owning => exact own found owning member

theorem Turns.stays (turns : Turns r s loose more lowered t left) (sound : Sound s r loose) : Stays s t := by
  induction turns with
  | done => exact .refl _
  | turn first rest ih => exact (first.stays sound).trans (ih (first.sound sound))

theorem Turns.lowered_owned {n : Nat} (turns : Turns r s loose more lowered t left) (sound : Sound s r loose)
    (member : n ∈ lowered) : ∃ id w, t.state? id = some w ∧ w.wrapper.serial = n ∧ w.owning = true := by
  induction turns with
  | done => cases member
  | turn first rest ih =>
    have after := first.sound sound
    rcases List.mem_append.mp member with now | later
    · obtain ⟨id,w,known,serial,owns⟩ := first.lowered_owned sound now
      obtain ⟨v,kept,same,owns'⟩ := ((first.stays sound).trans (rest.stays after)) id w known
      exact ⟨id,v,kept,same ▸ serial,owns' owns⟩
    · exact ih after later

end ObjectBridge.Holdings

namespace ObjectBridge

-- The act retains the instance and finds its count at the greatest.
def RegistryAct.Overruns (h : Heap) (n : Nat) : RegistryAct → Prop
  | .retain a => ∃ i, h.get? a = some i ∧ i.serial = n ∧ i.count = greatestCount
  | _ => False

namespace Scene

variable {r : Nat} {σ σ' : Scene} {acts : List RegistryAct} {act : RegistryAct} {overrun : Nat → Prop}

-- In the run the count of the instance has come round to zero.
inductive Overrun (r n : Nat) : List RegistryAct → Scene → Prop where
  | now {acts : List RegistryAct} {σ σ' : Scene} {act : RegistryAct} (before : Runs r acts σ)
      (next : σ.advance r act = some σ') (full : act.Overruns σ.holdings.heap n) : Overrun r n (act :: acts) σ'
  | before {acts : List RegistryAct} {σ σ' : Scene} {act : RegistryAct} (earlier : Overrun r n acts σ)
      (next : σ.advance r act = some σ') : Overrun r n (act :: acts) σ'

-- An instance that is there after native code has acted was allocated just now, or it was there before. Then it has
-- no more references than it had unless it was retained, and none that had any is left without.
theorem outside_before {h : Heap} {a : Address} {i : Instance} (sound : h.Sound) (act : RegistryAct)
    (there : (outside h act).get? a = some i) :
    i.count = 1 ∨ ∃ j, h.get? a = some j ∧ i.serial = j.serial ∧
      ((i.count ≤ j.count ∧ (0 < j.count → 0 < i.count)) ∨ (act = .retain a ∧ i.count = j.retained.count)) := by
  have stays {j : Instance} (found : h.get? a = some j) (serial : i.serial = j.serial) (count : i.count = j.count) :
      ∃ j, h.get? a = some j ∧ i.serial = j.serial ∧
        ((i.count ≤ j.count ∧ (0 < j.count → 0 < i.count)) ∨ (act = .retain a ∧ i.count = j.retained.count)) :=
    ⟨j,found,serial,.inl ⟨Nat.le_of_eq count,fun positive => count ▸ positive⟩⟩
  have shrinks {after : Heap} {lowered : List Nat} (less : Heap.Shrinks h after lowered) (there : after.get? a = some i) :
      ∃ j, h.get? a = some j ∧ i.serial = j.serial ∧
        ((i.count ≤ j.count ∧ (0 < j.count → 0 < i.count)) ∨ (act = .retain a ∧ i.count = j.retained.count)) := by
    obtain ⟨j,found,serial,most,lives⟩ := less.before there
    exact ⟨j,found,serial,.inl ⟨most,lives⟩⟩
  cases act with
  | allocate cls place =>
    rcases Heap.allocate_lives there with ⟨_,one⟩ | old
    · exact .inl one
    · exact .inr (stays old rfl rfl)
  | retain b =>
    obtain ⟨j,found,more⟩ := Option.map_eq_some_iff.mp ((Heap.get?_retain h b a).symm.trans there)
    split at more
    · rename_i here
      subst more
      exact .inr ⟨j,found,rfl,.inr ⟨here ▸ rfl,rfl⟩⟩
    · subst more
      exact .inr (stays found rfl rfl)
  | releaseAddress b => exact .inr (shrinks (Heap.release_gives sound b).shrinks there)
  | releaseInstance b serial => exact .inr (shrinks (Heap.releaseInstance_gives sound b serial).shrinks there)
  | keep b id =>
    unfold outside at there
    cases found : h.get? b with
    | none =>
      simp only [found] at there
      exact .inr (stays there rfl rfl)
    | some j =>
      simp only [found,Heap.get?_update] at there
      split at there
      · rename_i here
        cases there
        exact .inr (stays (j := j) (here ▸ found) rfl rfl)
      · exact .inr (stays there rfl rfl)
  | wrap | lookup | track | release | clone | drop => exact .inr (stays there rfl rfl)

theorem outside_counted {h : Heap} (sound : h.Sound) (counted : h.Counted overrun) (act : RegistryAct) :
    (outside h act).Counted fun n => overrun n ∨ act.Overruns h n := by
  intro a i there even
  rcases outside_before sound act there with one | ⟨j,found,serial,⟨_,lives⟩ | ⟨rfl,more⟩⟩
  · exact one ▸ Nat.one_pos
  · exact lives (counted a j found fun ran => even (.inl (serial ▸ ran)))
  · have room : j.count ≠ greatestCount := fun full => even (.inr ⟨j,found,serial.symm,full⟩)
    rw [more,Instance.count_more room]
    exact Nat.succ_pos _

theorem advance_balanced (sound : σ.holdings.Sound r σ.hands) (counted : (outside σ.holdings.heap act).Counted overrun)
    (balanced : σ.holdings.Balanced overrun σ.takenOver σ.givenBack) (next : σ.advance r act = some σ') :
    σ'.holdings.heap.Counted overrun ∧ σ'.holdings.Balanced overrun σ'.takenOver σ'.givenBack := by
  obtain ⟨start,between,taken,lowered,perm,outside,turns,takes,gives⟩ := (advance_acted sound next).turns
  have begun := sound.perm perm
  have middle := outside.sound begun
  rw [takes,gives]
  exact ⟨turns.stillCounted middle counted,turns.balanced middle counted (balanced.outside begun outside)⟩

theorem Runs.balanced (runs : Runs r acts σ) : σ.holdings.heap.Counted (fun n => Overrun r n acts σ) ∧
    σ.holdings.Balanced (fun n => Overrun r n acts σ) σ.takenOver σ.givenBack := by
  induction runs with
  | start => exact ⟨fun _ _ found => (nomatch found),Holdings.initial_balanced r _⟩
  | @step acts σ σ' act before next ih =>
    have later (n : Nat) (ran : Overrun r n acts σ) : Overrun r n (act :: acts) σ' := .before ran next
    have counted : (outside σ.holdings.heap act).Counted fun n => Overrun r n (act :: acts) σ' := by
      intro a i there even
      refine outside_counted before.sound.heap ih.1 act a i there fun either => even ?_
      exact either.elim (later _) (.now before next)
    exact advance_balanced before.sound counted (ih.2.mono later) next

-- What the registry lowers in one act, it lowers on behalf of wrappers that own the instances.
theorem advance_lowers (sound : σ.holdings.Sound r σ.hands) (next : σ.advance r act = some σ') :
    ∃ lowered, σ'.givenBack = σ.givenBack ++ lowered ∧
      Heap.Shrinks (outside σ.holdings.heap act) σ'.holdings.heap lowered ∧
      ∀ n ∈ lowered, ∃ id w, σ'.holdings.state? id = some w ∧ w.wrapper.serial = n ∧ w.owning = true := by
  obtain ⟨start,between,taken,lowered,perm,outside,turns,_,gives⟩ := (advance_acted sound next).turns
  have begun := outside.sound (sound.perm perm)
  exact ⟨lowered,gives,turns.shrinks begun,fun n member => turns.lowered_owned begun member⟩

-- The wrapper that owns an instance holds one of the references that were handed over for it, and all others were
-- given back, once each. If the count of the instance has run over some may be left, but none is given back twice.
theorem references_balanced (runs : Runs r acts σ) :
    (∀ a n, σ.holdings.heap.serial? a = some n → ¬Overrun r n acts σ →
      ((∃ id w, σ.Represents id w n ∧ w.owning = true) → σ.takenOver.count n = σ.givenBack.count n+1) ∧
      ((¬∃ id w, σ.Represents id w n ∧ w.owning = true) → σ.takenOver.count n = σ.givenBack.count n)) ∧
    (∀ a n, σ.holdings.heap.serial? a = some n → (∃ id w, σ.Represents id w n ∧ w.owning = true) →
      σ.givenBack.count n+1 ≤ σ.takenOver.count n) ∧
    (∀ n, σ.givenBack.count n ≤ σ.takenOver.count n) ∧
    ∀ act σ', σ.advance r act = some σ' → ∃ lowered, σ'.givenBack = σ.givenBack ++ lowered ∧
      Heap.Shrinks (outside σ.holdings.heap act) σ'.holdings.heap lowered ∧
      ∀ n ∈ lowered, ∃ id w, σ'.holdings.state? id = some w ∧ w.wrapper.serial = n ∧ w.owning = true := by
  have balanced := runs.balanced.2
  have owned : ∀ n, (∃ id w, σ.Represents id w n ∧ w.owning = true) ↔ σ.holdings.Owned n := by
    intro n
    constructor
    · rintro ⟨id,w,represents,owns⟩
      obtain ⟨held,unreleased,serial⟩ := runs.represents_iff.mp represents
      exact ⟨id,w,held,unreleased,owns,serial⟩
    · rintro ⟨id,w,held,unreleased,owns,serial⟩
      exact ⟨id,w,runs.represents_iff.mpr ⟨held,unreleased,serial⟩,owns⟩
  refine ⟨?_,?_,balanced.bounded,fun act σ' next => advance_lowers runs.sound next⟩
  · intro a n live even
    rw [owned]
    exact ⟨balanced.owned a n live even,balanced.free a n live even⟩
  · intro a n live
    rw [owned]
    exact balanced.covered a n live

-- In no step of a run does a count grow by more than one.
theorem outside_counts {h : Heap} {n : Nat} (sound : h.Sound) (most : ∀ a i, h.get? a = some i → i.count ≤ n)
    (act : RegistryAct) : ∀ a i, (outside h act).get? a = some i → i.count ≤ n+1 := by
  intro a i there
  rcases outside_before sound act there with one | ⟨j,found,_,⟨less,_⟩ | ⟨_,more⟩⟩
  · rw [one]
    exact Nat.le_add_left 1 n
  · exact Nat.le_succ_of_le (Nat.le_trans less (most a j found))
  · rw [more,Instance.count_retained]
    exact Nat.le_trans (Nat.mod_le _ _) (Nat.succ_le_succ (most a j found))

theorem Runs.counts (runs : Runs r acts σ) : ∀ a i, σ.holdings.heap.get? a = some i → i.count ≤ acts.length := by
  induction runs with
  | start => exact fun _ _ found => nomatch found
  | step before next ih =>
    obtain ⟨lowered,_,shrinks,_⟩ := advance_lowers before.sound next
    intro a i there
    obtain ⟨j,found,_,most,_⟩ := shrinks.before there
    exact Nat.le_trans most (outside_counts before.sound.heap ih _ a j found)

theorem Overrun.long {n : Nat} (ran : Overrun r n acts σ) : greatestCount < acts.length := by
  induction ran with
  | @now acts σ σ' act before next full =>
    cases act with
    | retain a =>
      obtain ⟨i,found,_,most⟩ := full
      exact Nat.lt_succ_of_le (most ▸ before.counts a i found)
    | _ => cases full
  | before _ _ ih => exact Nat.lt_succ_of_lt ih

-- Of two references handed over for one instance, the wrapper keeps one and the surplus is released.
theorem surplus_reference_balanced : ∃ σ,
    Runs 0 [.wrap ⟨0x1000⟩ bareClass true,.retain ⟨0x1000⟩,.wrap ⟨0x1000⟩ bareClass true,.allocate ⟨0⟩ none] σ ∧
    σ.takenOver = [1,1] ∧ σ.givenBack.count 1+1 = 2 ∧ (σ.holdings.heap.get? ⟨0x1000⟩).map (·.count) = some 1 := by
  let born : Instance := ⟨⟨0⟩,1,1,.empty,[]⟩
  let one : WrapperState := ⟨⟨0,⟨0x1000⟩,1,bareClass,0⟩,true,false,1⟩
  let both : WrapperState := ⟨⟨0,⟨0x1000⟩,1,bareClass,0⟩,true,false,2⟩
  have first : Runs 0 (.allocate ⟨0⟩ none :: _)
      ⟨⟨⟨⟨[(⟨0x1000⟩,born)]⟩,2⟩,⟨[]⟩,0,⟨[(0,⟨⟨[]⟩,0,0,0⟩)]⟩⟩,[],[],[]⟩ := .step .start rfl
  have wrapped : Runs 0 (.wrap ⟨0x1000⟩ bareClass true :: _)
      ⟨⟨⟨⟨[(⟨0x1000⟩,born)]⟩,2⟩,⟨[(0,one)]⟩,1,⟨[(0,⟨⟨[(⟨0x1000⟩,0)]⟩,1,0,0⟩)]⟩⟩,[0],[1],[]⟩ := .step first rfl
  have retained : Runs 0 (.retain ⟨0x1000⟩ :: _)
      ⟨⟨⟨⟨[(⟨0x1000⟩,{ born with word := 2 })]⟩,2⟩,⟨[(0,one)]⟩,1,⟨[(0,⟨⟨[(⟨0x1000⟩,0)]⟩,1,0,0⟩)]⟩⟩,[0],[1],[]⟩ :=
    .step wrapped rfl
  have runs : Runs 0 (.wrap ⟨0x1000⟩ bareClass true :: _)
      ⟨⟨⟨⟨[(⟨0x1000⟩,born)]⟩,2⟩,⟨[(0,both)]⟩,1,⟨[(0,⟨⟨[(⟨0x1000⟩,0)]⟩,1,0,0⟩)]⟩⟩,[0,0],[1,1],[1]⟩ :=
    .step retained (by with_unfolding_all rfl)
  obtain ⟨ledger,_⟩ := references_balanced runs
  have count := (ledger ⟨0x1000⟩ 1 rfl fun ran => Nat.not_lt.mpr (by decide) ran.long).1
    ⟨0,both,⟨rfl,rfl,.inl List.mem_cons_self,rfl⟩,rfl⟩
  exact ⟨_,runs,rfl,count.symm,rfl⟩

theorem retained_over_and_over (n : Nat) : Runs 0 (List.replicate n (.retain ⟨0x1000⟩) ++ [.allocate ⟨0⟩ none])
    ⟨⟨⟨⟨[(⟨0x1000⟩,⟨⟨0⟩,1,1+.ofNat n,.empty,[]⟩)]⟩,2⟩,⟨[]⟩,0,⟨[(0,⟨⟨[]⟩,0,0,0⟩)]⟩⟩,[],[],[]⟩ := by
  induction n with
  | zero => exact .step .start rfl
  | succ n ih =>
    rw [List.replicate_succ,List.cons_append,UInt32.ofNat_add,← UInt32.add_assoc]
    exact .step ih rfl

-- After as many retains as a word can count, the count has come round to zero. Of two references that are handed
-- over then none is given back, although the wrapper needs only one.
theorem overrun_surplus_kept : ∃ σ,
    Runs 0 (.wrap ⟨0x1000⟩ bareClass true :: .wrap ⟨0x1000⟩ bareClass true ::
      (List.replicate greatestCount (.retain ⟨0x1000⟩) ++ [.allocate ⟨0⟩ none])) σ ∧
    σ.holdings.heap.serial? ⟨0x1000⟩ = some 1 ∧ (∃ id w, σ.Represents id w 1 ∧ w.owning = true) ∧
    σ.takenOver.count 1 = 2 ∧ σ.givenBack.count 1 = 0 := by
  let full : Instance := ⟨⟨0⟩,1,0,.empty,[]⟩
  let one : WrapperState := ⟨⟨0,⟨0x1000⟩,1,bareClass,0⟩,true,false,1⟩
  let both : WrapperState := ⟨⟨0,⟨0x1000⟩,1,bareClass,0⟩,true,false,2⟩
  have around : (1+.ofNat greatestCount : UInt32) = 0 := by decide
  have retained := around ▸ retained_over_and_over greatestCount
  generalize List.replicate greatestCount (RegistryAct.retain ⟨0x1000⟩) ++ [.allocate ⟨0⟩ none] = acts at retained ⊢
  have wrapped : Runs 0 (.wrap ⟨0x1000⟩ bareClass true :: acts)
      ⟨⟨⟨⟨[(⟨0x1000⟩,full)]⟩,2⟩,⟨[(0,one)]⟩,1,⟨[(0,⟨⟨[(⟨0x1000⟩,0)]⟩,1,0,0⟩)]⟩⟩,[0],[1],[]⟩ := .step retained rfl
  have runs : Runs 0 (.wrap ⟨0x1000⟩ bareClass true :: _)
      ⟨⟨⟨⟨[(⟨0x1000⟩,full)]⟩,2⟩,⟨[(0,both)]⟩,1,⟨[(0,⟨⟨[(⟨0x1000⟩,0)]⟩,1,0,0⟩)]⟩⟩,[0,0],[1,1],[]⟩ :=
    .step wrapped rfl
  exact ⟨_,runs,rfl,⟨0,both,⟨rfl,rfl,.inl List.mem_cons_self,rfl⟩,rfl⟩,rfl,rfl⟩

end Scene
end ObjectBridge
