import Mathlib.Data.Finset.Card
import Mathlib.Order.Interval.Finset.Nat
import ObjectBridge.Proofs.Registry.Filing

namespace ObjectBridge.Holdings

variable {s t : Holdings} {r id serial : Nat} {given others : List Nat} {a : Address} {w v : WrapperState}

theorem settleWith_nil (fuel : Nat) (s : Holdings) : settleWith fuel s [] = s := by cases fuel <;> rfl

theorem settle_nil (s : Holdings) : s.settle [] = s := settleWith_nil _ s

theorem settle_one (spent : (s.dropHandle id).2 = []) : s.settle [id] = (s.dropHandle id).1 := by
  have fuel : [id].length + s.keptCount = s.keptCount+1 := Nat.add_comm _ _
  rw [settle,fuel,settleWith]
  dsimp only
  rw [spent]
  exact settleWith_nil _ _

theorem settle_remains (known : s.held? id = some w)
    (remains : w.handles-1 ≠ 0 ∨ s.registry? w.wrapper.home = none) :
    s.settle [id] = s.setState { w with handles := w.handles-1 } := by
  have drops : s.dropHandle id = (s.setState { w with handles := w.handles-1 },[]) := by
    unfold dropHandle
    rw [known]
    refine if_neg fun both => ?_
    rcases remains with more | closed
    · exact more both.1
    · have gone : registry? (s.setState { w with handles := w.handles-1 }) w.wrapper.home = none := closed
      rw [gone] at both
      cases both.2
  rw [settle_one (congrArg Prod.snd drops),drops]

-- A wrapper that has outlived its registry gives nothing back, whether it owns its instance or not.
theorem drop_closed {x : Wrapper} (known : s.held? x.id = some w) (closed : s.registry? w.wrapper.home = none) :
    (s.drop x).heap = s.heap := by
  rw [drop,settle_remains known (.inr closed)]
  rfl

theorem finalize_tally (unreleased : w.released = false) (explicit : Bool) :
    ( registry? (s.finalize r w explicit).2.1 r).map (fun g => (g.created,g.released,g.doubleReleases)) =
      (s.registry? r).map fun g => (g.created,g.released+1,g.doubleReleases) := by
  have counted : ( registry? (((s.forget r w.wrapper).setState { w with released := true }).modifyRegistry r
      fun g => { g with released := g.released+1 }) r).map (fun g => (g.created,g.released,g.doubleReleases)) =
        (s.registry? r).map fun g => (g.created,g.released+1,g.doubleReleases) := by
    have marked : registry? ((s.forget r w.wrapper).setState { w with released := true }) r =
        registry? (s.forget r w.wrapper) r := rfl
    rw [registry?_modifyRegistry,marked,forget,registry?_modifyRegistry]
    cases s.registry? r with
    | none => rfl
    | some g =>
      simp only [Option.map_some]
      split <;> rfl
  unfold finalize
  dsimp only
  rw [if_neg (by simp [unreleased])]
  split <;> exact counted

-- A wrapper of the registry's own that takes nothing with it when it goes, for an address that had none. It
-- is given up with its last handle.
structure Lent (r : Nat) (s : Holdings) (given : List Nat) (id : Nat) (w : WrapperState) : Prop where
  new : s.nextWrapper ≤ id
  home : w.wrapper.home = r
  borrowed : w.owning = false
  count : w.handles = given.count id
  released : w.released = decide (id ∉ given)
  unseen : s.lookup? r w.wrapper.address = none

-- The wrappers made since, of which no handle is out.
def finished (s : Holdings) (given : List Nat) (t : Holdings) : Finset Nat :=
  (Finset.Ico s.nextWrapper t.nextWrapper).filter (· ∉ given)

structure Lends (r : Nat) (s : Holdings) (given : List Nat) (t : Holdings) : Prop where
  before : s.Filed
  after : t.Filed
  heap : t.heap = s.heap
  grows : s.nextWrapper ≤ t.nextWrapper
  used : ∀ id ∈ given, ∃ w, t.state? id = some w
  old : ∀ id w, s.state? id = some w →
    t.state? id = some { w with handles := w.handles+given.count id } ∧ (id ∈ given → 0 < w.handles)
  lent : ∀ id w, t.state? id = some w → s.state? id = none → Lent r s given id w
  entries : ∀ a, t.entryOf r a = s.entryOf r a ∨
    s.lookup? r a = none ∧ ∀ id, t.entryOf r a = some id → s.nextWrapper ≤ id
  elsewhere : ∀ home, home ≠ r → t.registry? home = s.registry? home
  tally : (t.registry? r).map (fun g => (g.created,g.released,g.doubleReleases)) =
    (s.registry? r).map fun g => (g.created+(t.nextWrapper-s.nextWrapper),g.released+(finished s given t).card,
      g.doubleReleases)

theorem Lends.refl (r : Nat) (filed : s.Filed) : Lends r s [] s where
  before := filed
  after := filed
  heap := rfl
  grows := Nat.le_refl _
  used _ member := nomatch member
  old id w known := ⟨known,fun member => nomatch member⟩
  lent id w known none := by cases known.symm.trans none
  entries a := .inl rfl
  elsewhere _ _ := rfl
  tally := by simp [finished]

theorem Lent.congr (lent : Lent r s given id w) (count : others.count id = given.count id) :
    Lent r s others id w := by
  have same : id ∈ others ↔ id ∈ given := by rw [← List.count_pos_iff,← List.count_pos_iff,count]
  exact ⟨lent.new,lent.home,lent.borrowed,lent.count.trans count.symm,by rw [lent.released]; simp only [same],lent.unseen⟩

theorem Lends.perm (lends : Lends r s given t) (same : given.Perm others) : Lends r s others t where
  before := lends.before
  after := lends.after
  heap := lends.heap
  grows := lends.grows
  used id member := lends.used id (same.mem_iff.mpr member)
  old id w known := by
    rw [← same.count_eq,← same.mem_iff]
    exact lends.old id w known
  lent id w known none := (lends.lent id w known none).congr (same.count_eq id).symm
  entries := lends.entries
  elsewhere := lends.elsewhere
  tally := by
    have gone : finished s others t = finished s given t := by simp only [finished,same.mem_iff]
    rw [gone]
    exact lends.tally

theorem Lends.opened (lends : Lends r s given t) : t.isOpen r ↔ s.isOpen r := by
  have both := congrArg Option.isSome lends.tally
  rw [Option.isSome_map,Option.isSome_map] at both
  rw [isOpen,isOpen,both]

-- Whoever has handles now has some of those that are out, or had some before.
theorem Lends.held (lends : Lends r s given t) (held : t.held? id = some w) :
    (∃ v, s.held? id = some v ∧ w = { v with handles := v.handles+given.count id }) ∨
      (s.state? id = none ∧ id ∈ given ∧ w.released = false) := by
  obtain ⟨known,positive⟩ := held?_eq.mp held
  cases before : s.state? id with
  | none =>
    have lent := lends.lent id w known before
    have member : id ∈ given := List.count_pos_iff.mp (lent.count ▸ positive)
    exact .inr ⟨rfl,member,by simpa [member] using lent.released⟩
  | some v =>
    obtain ⟨now,referenced⟩ := lends.old id v before
    obtain rfl := Option.some.inj (known.symm.trans now)
    refine .inl ⟨v,held?_eq.mpr ⟨before,?_⟩,rfl⟩
    by_cases member : id ∈ given
    · exact referenced member
    · rwa [List.count_eq_zero.mpr member] at positive

-- A handle that is out keeps its wrapper as it was; a wrapper made for it is not released.
theorem Lends.isReleased (lends : Lends r s given t) {w : Wrapper} (out : w.id ∈ given) : t.isReleased w = s.isReleased w := by
  obtain ⟨now,known⟩ := lends.used w.id out
  unfold Holdings.isReleased
  cases before : s.state? w.id with
  | none =>
    have lent := (lends.lent w.id now known before).released
    rw [known]
    simpa [out] using lent
  | some v =>
    rw [(lends.old w.id v before).1]
    rfl

-- Other handles are out, all of them of one wrapper, and it has as many more or fewer. Handles that are out to the last
-- are another matter.
theorem Lends.recount (lends : Lends r s given t) (known : t.state? id = some w) (handles : Nat)
    (away : ∀ x, x ≠ id → others.count x = given.count x) (count : handles+given.count id = w.handles+others.count id)
    (lasts : s.state? id = none → (id ∈ others ↔ id ∈ given))
    (referenced : ∀ v, s.state? id = some v → id ∈ others → 0 < v.handles) :
    Lends r s others (t.setState { w with handles := handles }) := by
  have named := (lends.after.made id w known).1
  have states (x : Nat) : (t.setState { w with handles := handles }).state? x =
      if x = id then some { w with handles := handles } else t.state? x := by rw [state?_setState,named]
  have others_iff (x : Nat) (elsewhere : x ≠ id) : x ∈ others ↔ x ∈ given := by
    rw [← List.count_pos_iff,← List.count_pos_iff,away x elsewhere]
  refine ⟨lends.before,lends.after.put (v := { w with handles := handles }) (w := w) (named.symm ▸ known) rfl,
    lends.heap,lends.grows,?_,?_,?_,lends.entries,lends.elsewhere,?_⟩
  · intro x member
    rw [states]
    split
    · exact ⟨_,rfl⟩
    · rename_i elsewhere
      exact lends.used x ((others_iff x elsewhere).mp member)
  · intro x v before
    obtain ⟨now,_⟩ := lends.old x v before
    rw [states]
    split
    · rename_i here
      subst here
      obtain rfl := Option.some.inj (now.symm.trans known)
      have same : handles = v.handles+others.count x := by dsimp only at count; omega
      exact ⟨by rw [same],referenced v before⟩
    · rename_i elsewhere
      rw [away x elsewhere,others_iff x elsewhere]
      exact lends.old x v before
  · intro x v there none
    rw [states] at there
    split at there
    · rename_i here
      subst here
      cases there
      have lent := lends.lent x w known none
      refine ⟨lent.new,lent.home,lent.borrowed,?_,?_,lent.unseen⟩
      · have := lent.count
        dsimp only
        omega
      · rw [lent.released]
        simp only [lasts none]
    · rename_i elsewhere
      exact (lends.lent x v there none).congr (away x elsewhere)
  · have gone : finished s others (t.setState { w with handles := handles }) = finished s given t := by
      refine Finset.filter_congr fun x inside => not_congr ?_
      by_cases here : x = id
      · subst here
        refine lasts (Option.eq_none_iff_forall_ne_some.mpr fun v before => ?_)
        exact absurd (lends.before.made x v before).2 (Nat.not_lt.mpr (Finset.mem_Ico.mp inside).1)
      · exact others_iff x here
    rw [gone]
    exact lends.tally

theorem Lends.share (lends : Lends r s given t) (held : t.held? id = some w) :
    Lends r s (id :: given) (t.setState { w with handles := w.handles+1 }) := by
  refine lends.recount (held?_eq.mp held).1 _ (fun x elsewhere => List.count_cons_of_ne (Ne.symm elsewhere)) ?_ ?_ ?_
  · rw [List.count_cons_self]
    omega
  · intro unmade
    rcases lends.held held with ⟨v,before,_⟩ | ⟨_,among,_⟩
    · cases unmade.symm.trans (held?_eq.mp before).1
    · simp [among]
  · intro v before _
    rcases lends.held held with ⟨v',before',_⟩ | ⟨unmade,_⟩
    · obtain ⟨known,referenced⟩ := held?_eq.mp before'
      cases before.symm.trans known
      exact referenced
    · cases before.symm.trans unmade

-- Where a wrapper is missing now it was missing before.
theorem Lends.unseen (lends : Lends r s given t)
    (free : ∀ w, t.entry? r a = some w → s.heap.serial? a ≠ some w.wrapper.serial) : s.lookup? r a = none := by
  rcases lends.entries a with same | ⟨unseen,_⟩
  · unfold lookup?
    cases entry : s.entry? r a with
    | none => rfl
    | some w =>
      obtain ⟨id,entered,held⟩ := entry?_eq.mp entry
      obtain ⟨known,positive⟩ := held?_eq.mp held
      have more : t.held? id = some { w with handles := w.handles+given.count id } :=
        held?_eq.mpr ⟨(lends.old id w known).1,Nat.lt_of_lt_of_le positive (Nat.le_add_right _ _)⟩
      have now := entry?_eq.mpr ⟨id,same.trans entered,more⟩
      dsimp only
      rw [if_neg]
      rw [isCurrent_iff,(lends.before.entry entry).2]
      exact free { w with handles := w.handles+given.count id } now
  · exact unseen

theorem Lends.make (lends : Lends r s given t) (opened : s.isOpen r) (cls : SynthesizedClass)
    (live : s.heap.serial? a = some serial) (free : ∀ w, t.entry? r a = some w → w.wrapper.serial ≠ serial) :
    Lends r s (t.nextWrapper :: given) (t.create r a serial cls false).2 := by
  have unseen : s.lookup? r a = none :=
    lends.unseen fun w entry same => free w entry (Option.some.inj (same.symm.trans live))
  have unmade : s.state? t.nextWrapper = none := by
    cases found : s.state? t.nextWrapper with
    | none => rfl
    | some w => exact absurd (lends.before.made _ w found).2 (Nat.not_lt.mpr lends.grows)
  have unused : t.nextWrapper ∉ given := by
    intro member
    obtain ⟨w,known⟩ := lends.used _ member
    exact absurd (lends.after.made _ w known).2 (Nat.lt_irrefl _)
  have filed := create_filed (r := r) lends.after a serial cls false
  have apart (home : Nat) (other : home ≠ r) :
      registry? (t.create r a serial cls false).2 home = t.registry? home :=
    (registry?_modifyRegistry_other _ other).trans (registry?_modifyRegistry_other _ other)
  have counted : ( registry? (t.create r a serial cls false).2 r).map (fun g => (g.created,g.released,g.doubleReleases)) =
      (t.registry? r).map fun g => (g.created+1,g.released,g.doubleReleases) := by
    unfold create enter
    dsimp only
    rw [registry?_modifyRegistry,registry?_modifyRegistry,Option.map_map,Option.map_map]
    rfl
  obtain ⟨⟨_,heap,next⟩,states,entries⟩ := create_shows (a := a) (lends.opened.mpr opened) serial cls false
  generalize (t.create r a serial cls false).2 = after at filed apart counted heap next states entries
  have grows := lends.grows
  refine ⟨lends.before,filed,heap.trans lends.heap,by omega,?_,?_,?_,?_,?_,?_⟩
  · intro x member
    rw [states]
    split
    · exact ⟨_,rfl⟩
    · rename_i away
      exact lends.used x ((List.mem_cons.mp member).resolve_left away)
  · intro x v before
    have away : x ≠ t.nextWrapper := by rintro rfl; cases before.symm.trans unmade
    rw [states,if_neg away,List.count_cons_of_ne (Ne.symm away),List.mem_cons]
    obtain ⟨now,referenced⟩ := lends.old x v before
    exact ⟨now,fun member => referenced (member.resolve_left away)⟩
  · intro x v there none
    rw [states] at there
    split at there
    · rename_i here
      subst here
      cases there
      refine ⟨grows,rfl,rfl,?_,by simp,unseen⟩
      rw [List.count_cons_self,List.count_eq_zero.mpr unused]
    · rename_i away
      exact (lends.lent x v there none).congr (List.count_cons_of_ne (Ne.symm away))
  · intro b
    rw [entries]
    split
    · rename_i here
      subst here
      refine .inr ⟨unseen,fun x entry => ?_⟩
      cases entry
      exact grows
    · exact lends.entries b
  · intro home other
    exact (apart home other).trans (lends.elsewhere home other)
  · have gone : finished s (t.nextWrapper :: given) after = finished s given t := by
      ext x
      simp only [finished,Finset.mem_filter,Finset.mem_Ico,List.mem_cons,next]
      constructor
      · rintro ⟨⟨above,below⟩,absent⟩
        refine ⟨⟨above,?_⟩,fun member => absent (.inr member)⟩
        have : x ≠ t.nextWrapper := fun here => absent (.inl here)
        omega
      · rintro ⟨⟨above,below⟩,absent⟩
        refine ⟨⟨above,by omega⟩,?_⟩
        rintro (rfl | member)
        · omega
        · exact absent member
    have before := congrArg (Option.map fun (g : Nat × Nat × Nat) => (g.1+1,g.2.1,g.2.2)) lends.tally
    rw [Option.map_map,Option.map_map] at before
    rw [counted,gone,next]
    refine before.trans ?_
    congr 1
    funext g
    have more : g.created+(t.nextWrapper-s.nextWrapper)+1 = g.created+(t.nextWrapper+1-s.nextWrapper) := by omega
    exact Prod.ext more rfl

-- A handle that leaves others behind, of those that are out or of those that were there before.
theorem Lends.lower (lends : Lends r s (id :: given) t) (held : t.held? id = some w)
    (more : id ∈ given ∨ ∃ v, s.state? id = some v) :
    Lends r s given (t.setState { w with handles := w.handles-1 }) := by
  obtain ⟨known,positive⟩ := held?_eq.mp held
  refine lends.recount known _ (fun x elsewhere => (List.count_cons_of_ne (Ne.symm elsewhere)).symm) ?_ ?_ ?_
  · rw [List.count_cons_self]
    omega
  · intro unmade
    have among : id ∈ given := more.resolve_right fun ⟨v,before⟩ => nomatch before.symm.trans unmade
    simp [among]
  · intro v before member
    exact (lends.old id v before).2 (List.mem_cons_of_mem _ member)

-- The last handle of a wrapper that was made since.
theorem Lends.finish (lends : Lends r s (id :: given) t) (known : t.state? id = some w) (none : s.state? id = none)
    (last : id ∉ given) (same : v = { w with handles := w.handles-1 }) :
    Lends r s given ((t.setState v).finalize r v false).2.1 ∧ ((t.setState v).finalize r v false).2.2 = [] := by
  have named : v.wrapper.id = id := same ▸ (lends.after.made id w known).1
  have lent := lends.lent id w known none
  have empty : v.handles = 0 := by
    rw [same]
    dsimp only
    rw [lent.count,List.count_cons_self,List.count_eq_zero.mpr last]
  have unreleased : v.released = false := by
    rw [same]
    simpa using lent.released
  have borrowed : v.owning = false := same ▸ lent.borrowed
  have filed : (t.setState v).Filed := lends.after.put (w := w) (named.symm ▸ known) (by rw [same])
  have there : (t.setState v).state? v.wrapper.id = some v := state?_setState_self
  have done := finalize_finalizes (r := r) there false
  have tally := finalize_tally (s := t.setState v) (r := r) unreleased false
  have after := filed.finalize (r := r) there rfl false
  have apart (home : Nat) (other : home ≠ r) :
      registry? ((t.setState v).finalize r v false).2.1 home = t.registry? home := finalize_elsewhere other false
  obtain ⟨heap,freed⟩ := finalize_giving (s := t.setState v) r v false
  rw [giving,if_neg fun both => by simp [borrowed] at both] at heap freed
  refine ⟨?_,freed⟩
  generalize ((t.setState v).finalize r v false).2.1 = u at done tally after apart heap
  have next : u.nextWrapper = t.nextWrapper := done.nextWrapper
  have states (x : Nat) : u.state? x = if x = id then some { v with released := true } else t.state? x := by
    rw [done.state?,named,state?_setState,named]
    split <;> rfl
  refine ⟨lends.before,after,heap.trans lends.heap,next ▸ lends.grows,?_,?_,?_,?_,?_,?_⟩
  · intro x member
    rw [states]
    split
    · exact ⟨_,rfl⟩
    · exact lends.used x (List.mem_cons_of_mem _ member)
  · intro x u' before
    have away : x ≠ id := by rintro rfl; cases before.symm.trans none
    obtain ⟨now,referenced⟩ := lends.old x u' before
    rw [List.count_cons_of_ne (Ne.symm away)] at now
    rw [states,if_neg away]
    exact ⟨now,fun member => referenced (List.mem_cons_of_mem _ member)⟩
  · intro x u' there none
    rw [states] at there
    split at there
    · rename_i here
      subst here
      cases there
      refine ⟨lent.new,?_,borrowed,?_,by simp [last],?_⟩
      · exact same ▸ lent.home
      · exact empty.trans (List.count_eq_zero.mpr last).symm
      · exact same ▸ lent.unseen
    · rename_i away
      exact (lends.lent x u' there none).congr (List.count_cons_of_ne (Ne.symm away)).symm
  · intro b
    rw [done.entryOf]
    split
    · rename_i own
      refine .inr ⟨?_,by rintro x ⟨⟩⟩
      rw [own.1,same]
      exact lent.unseen
    · exact lends.entries b
  · intro home other
    exact (apart home other).trans (lends.elsewhere home other)
  · have inside : id ∈ Finset.Ico s.nextWrapper t.nextWrapper :=
      Finset.mem_Ico.mpr ⟨lent.new,(lends.after.made id w known).2⟩
    have gone : finished s given u = insert id (finished s (id :: given) t) := by
      ext x
      simp only [finished,Finset.mem_filter,Finset.mem_insert,List.mem_cons,not_or,next]
      by_cases here : x = id
      · subst here
        simp [inside,last]
      · simp [here]
    have absent : id ∉ finished s (id :: given) t := by simp [finished]
    have before := congrArg (Option.map fun (g : Nat × Nat × Nat) => (g.1,g.2.1+1,g.2.2)) lends.tally
    rw [Option.map_map,Option.map_map] at before
    rw [tally,gone,Finset.card_insert_of_notMem absent,next]
    exact before

theorem Lends.part (lends : Lends r s (id :: given) t) (opened : s.isOpen r) : Lends r s given (t.settle [id]) := by
  obtain ⟨w,known⟩ := lends.used id List.mem_cons_self
  have positive : 0 < w.handles := by
    cases before : s.state? id with
    | none =>
      rw [(lends.lent id w known before).count,List.count_cons_self]
      exact Nat.succ_pos _
    | some v =>
      obtain ⟨now,_⟩ := lends.old id v before
      obtain rfl := Option.some.inj (known.symm.trans now)
      rw [List.count_cons_self]
      exact Nat.succ_pos _
  have held : t.held? id = some w := held?_eq.mpr ⟨known,positive⟩
  by_cases more : id ∈ given ∨ ∃ v, s.state? id = some v
  · have stays : w.handles-1 ≠ 0 := by
      rcases lends.held held with ⟨v,before,rfl⟩ | ⟨none,_,_⟩
      · have := (held?_eq.mp before).2
        rw [List.count_cons_self]
        dsimp only
        omega
      · have among : id ∈ given := more.resolve_right fun ⟨v,before⟩ => nomatch before.symm.trans none
        have := List.count_pos_iff.mpr among
        rw [(lends.lent id w known none).count,List.count_cons_self]
        omega
    rw [settle_remains held (.inl stays)]
    exact lends.lower held more
  · rw [not_or] at more
    obtain ⟨last,unmade⟩ := more
    have none : s.state? id = none := Option.eq_none_iff_forall_ne_some.mpr fun v before => unmade ⟨v,before⟩
    have lent := lends.lent id w known none
    have empty : w.handles-1 = 0 := by rw [lent.count,List.count_cons_self,List.count_eq_zero.mpr last]
    obtain ⟨after,freed⟩ := lends.finish known none last rfl
    have home : ( registry? (t.setState { w with handles := w.handles-1 }) r).isSome = true := lends.opened.mpr opened
    have drops : t.dropHandle id =
        (((t.setState { w with handles := w.handles-1 }).finalize r { w with handles := w.handles-1 } false).2.1,
          ((t.setState { w with handles := w.handles-1 }).finalize r { w with handles := w.handles-1 } false).2.2) := by
      unfold dropHandle
      rw [held]
      dsimp only
      rw [lent.home]
      exact if_pos ⟨empty,home⟩
    rw [settle_one (by rw [drops]; exact freed),drops]
    exact after

theorem Lends.drops (opened : s.isOpen r) (wrappers : List Wrapper)
    (lends : Lends r s (wrappers.map (·.id) ++ given) t) : Lends r s given (wrappers.foldl drop t) := by
  induction wrappers generalizing t with
  | nil => exact lends
  | cons w rest ih => exact ih (lends.part opened)

theorem Lends.borrow (lends : Lends r s given t) (opened : s.isOpen r) (cls : SynthesizedClass)
    (live : s.heap.serial? a = some serial) :
    Lends r s ((t.wrapperFor r a cls false).1.id :: given) (t.wrapperFor r a cls false).2 := by
  have current : t.heap.serial? a = some serial := lends.heap.symm ▸ live
  unfold wrapperFor
  dsimp only
  rw [current,Option.getD_some]
  split
  · rename_i none
    refine lends.make opened cls live fun w entry same => ?_
    rw [entry,Option.filter_some,if_pos (decide_eq_true same)] at none
    cases none
  · rename_i w some
    obtain ⟨held,_⟩ := lends.after.entry (Option.filter_eq_some_iff.mp some).1
    rw [Bool.or_false,Bool.false_and]
    exact lends.share held

theorem Lends.entry? (lends : Lends r s [] t) {home : Nat} (same : t.entryOf home a = s.entryOf home a) :
    t.entry? home a = s.entry? home a := by
  have state (id : Nat) (entered : s.entryOf home a = some id) : t.held? id = s.held? id := by
    obtain ⟨w,known,_⟩ := lends.before.own home a id entered
    rw [held?,held?,(lends.old id w known).1,known]
    rfl
  ext w
  rw [entry?_eq,entry?_eq,same]
  constructor <;> rintro ⟨id,entered,held⟩
  · exact ⟨id,entered,state id entered ▸ held⟩
  · exact ⟨id,entered,(state id entered).symm ▸ held⟩

-- Once all the handles are back, every address is answered as before.
theorem Lends.lookup? (lends : Lends r s [] t) (home : Nat) (a : Address) : t.lookup? home a = s.lookup? home a := by
  have same (entries : t.entryOf home a = s.entryOf home a) : t.lookup? home a = s.lookup? home a := by
    rw [Holdings.lookup?,Holdings.lookup?,lends.entry? entries]
    simp only [isCurrent,lends.heap]
    rfl
  by_cases here : home = r
  · subst here
    rcases lends.entries a with entries | ⟨unseen,new⟩
    · exact same entries
    · rw [unseen,Holdings.lookup?]
      cases entry : t.entry? home a with
      | none => rfl
      | some w =>
        obtain ⟨id,entered,held⟩ := entry?_eq.mp entry
        rcases lends.held held with ⟨v,before,_⟩ | ⟨_,member,_⟩
        · exact absurd (lends.before.made id v (held?_eq.mp before).1).2 (Nat.not_lt.mpr (new id entered))
        · cases member
  · exact same (by rw [entryOf,entryOf,lends.elsewhere home here])

-- Fewer handles, and nothing else is different.
structure Sheds (s : Holdings) (ids : List Nat) (t : Holdings) : Prop where
  heap : t.heap = s.heap
  nextWrapper : t.nextWrapper = s.nextWrapper
  registries : t.registries = s.registries
  state? : ∀ id, t.state? id = (s.state? id).map fun w => { w with handles := w.handles-ids.count id }

-- No wrapper has its last handle among them.
def Spares (s : Holdings) (ids : List Nat) : Prop := ∀ id ∈ ids, ∃ w, s.state? id = some w ∧ ids.count id < w.handles

theorem drop_sheds (filed : s.Filed) {x : Wrapper} (known : s.state? x.id = some w) (more : 1 < w.handles) :
    Sheds s [x.id] (s.drop x) := by
  have named := (filed.made x.id w known).1
  have stays : w.handles-1 ≠ 0 := by omega
  rw [drop,settle_remains (held?_eq.mpr ⟨known,Nat.zero_lt_of_lt more⟩) (.inl stays)]
  refine ⟨rfl,rfl,rfl,fun id => ?_⟩
  rw [state?_setState]
  by_cases here : id = x.id
  · rw [here,if_pos named.symm,known,List.count_singleton_self]
    rfl
  · have absent : [x.id].count id = 0 := List.count_eq_zero.mpr fun member => here (List.mem_singleton.mp member)
    rw [if_neg fun same => here (same.trans named),absent]
    exact (congrFun Option.map_id _).symm

private theorem count_first (x id : Nat) (ids : List Nat) : (id :: ids).count x = [id].count x+ids.count x := by
  rw [← List.singleton_append,List.count_append]

theorem Sheds.cons {u : Holdings} {ids : List Nat} (first : Sheds s [id] t) (rest : Sheds t ids u) :
    Sheds s (id :: ids) u where
  heap := rest.heap.trans first.heap
  nextWrapper := rest.nextWrapper.trans first.nextWrapper
  registries := rest.registries.trans first.registries
  state? x := by
    rw [rest.state?,first.state?,Option.map_map]
    congr 1
    funext w
    simp only [Function.comp,Nat.sub_sub,← count_first x id]

theorem drops_shed (filed : s.Filed) (wrappers : List Wrapper) (spared : s.Spares (wrappers.map (·.id))) :
    Sheds s (wrappers.map (·.id)) (wrappers.foldl drop s) := by
  induction wrappers generalizing s with
  | nil => exact ⟨rfl,rfl,rfl,fun _ => (congrFun Option.map_id _).symm⟩
  | cons x rest ih =>
    obtain ⟨w,known,more⟩ := spared x.id List.mem_cons_self
    rw [List.map_cons,List.count_cons_self] at more
    have first := drop_sheds filed known (Nat.lt_of_le_of_lt (Nat.le_add_left 1 _) more)
    refine first.cons (ih (settle_filed filed _) fun id later => ?_)
    obtain ⟨v,before,left⟩ := spared id (List.mem_cons_of_mem _ later)
    refine ⟨_,(first.state? id).trans (congrArg _ before),?_⟩
    rw [List.map_cons,count_first id x.id] at left
    dsimp only
    omega

section
variable {ids : List Nat}

theorem Sheds.home (sheds : Sheds s ids t) (home : Nat) : registry? t home = registry? s home :=
  congrArg (·.get? home) sheds.registries

theorem Sheds.entryOf (sheds : Sheds s ids t) (home : Nat) (a : Address) : t.entryOf home a = s.entryOf home a :=
  congrArg (Option.bind · _) (sheds.home home)

theorem Sheds.filed (sheds : Sheds s ids t) (filed : s.Filed) : t.Filed where
  made id w there := by
    obtain ⟨v,known,rfl⟩ := Option.map_eq_some_iff.mp ((sheds.state? id).symm.trans there)
    rw [sheds.nextWrapper]
    exact filed.made id v known
  own home a id entry := by
    obtain ⟨w,known,here⟩ := filed.own home a id ((sheds.entryOf home a).symm.trans entry)
    exact ⟨_,(sheds.state? id).trans (congrArg _ known),here⟩

-- What is dropped was out, seen from what is left.
theorem Sheds.lends (sheds : Sheds s ids t) (filed : s.Filed) (spared : s.Spares ids) (r : Nat) : Lends r t ids s where
  before := sheds.filed filed
  after := filed
  heap := sheds.heap.symm
  grows := Nat.le_of_eq sheds.nextWrapper
  used id member := (spared id member).imp fun _ both => both.1
  old id w there := by
    obtain ⟨v,known,rfl⟩ := Option.map_eq_some_iff.mp ((sheds.state? id).symm.trans there)
    have most : ids.count id ≤ v.handles := by
      by_cases member : id ∈ ids
      · obtain ⟨u,known',left⟩ := spared id member
        cases known.symm.trans known'
        exact Nat.le_of_lt left
      · rw [List.count_eq_zero.mpr member]
        exact Nat.zero_le _
    refine ⟨?_,fun member => ?_⟩
    · dsimp only
      rw [Nat.sub_add_cancel most]
      exact known
    · obtain ⟨u,known',left⟩ := spared id member
      cases known.symm.trans known'
      exact Nat.sub_pos_of_lt left
  lent id w known none := by
    rw [sheds.state?,known] at none
    cases none
  entries a := .inl (sheds.entryOf r a).symm
  elsewhere home _ := (sheds.home home).symm
  tally := by
    rw [sheds.home]
    simp [finished,sheds.nextWrapper]

theorem Sheds.lookup? (sheds : Sheds s ids t) (spared : s.Spares ids) (home : Nat) (a : Address) :
    t.lookup? home a = s.lookup? home a := by
  have held (id : Nat) : t.held? id = (s.held? id).map fun w => { w with handles := w.handles-ids.count id } := by
    unfold held?
    rw [sheds.state?]
    cases known : s.state? id with
    | none => rfl
    | some w =>
      have lasts : 0 < w.handles-ids.count id ↔ 0 < w.handles := by
        by_cases member : id ∈ ids
        · obtain ⟨u,known',left⟩ := spared id member
          cases known.symm.trans known'
          omega
        · rw [List.count_eq_zero.mpr member,Nat.sub_zero]
      rw [Option.map_some,Option.filter_some,Option.filter_some]
      simp only [lasts]
      split <;> rfl
  have entry (u : Holdings) : u.entry? home a = (u.entryOf home a).bind u.held? :=
    Option.ext fun w => entry?_eq.trans Option.bind_eq_some_iff.symm
  rw [Holdings.lookup?,Holdings.lookup?,entry,entry,sheds.entryOf]
  cases s.entryOf home a with
  | none => rfl
  | some id =>
    rw [Option.bind_some,Option.bind_some,held]
    cases s.held? id with
    | none => rfl
    | some w =>
      simp only [Option.map_some,isCurrent,sheds.heap]
      rfl

end

end ObjectBridge.Holdings
