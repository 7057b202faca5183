import ObjectBridge.Proofs.Registry.Soundness

namespace ObjectBridge.Holdings

-- The holdings after a release by serial, as `releaseReference` leaves them.
def afterRelease (s : Holdings) (a : Address) (serial : Nat) : Holdings :=
  { s with heap := (s.heap.releaseInstance a serial).heap }

-- The serial, as long as the instance that has it lives there.
def living (s : Holdings) (a : Address) (serial : Nat) : List Nat :=
  if s.heap.serial? a = some serial then [serial] else []

inductive Turn (r : Nat) : Holdings → List Nat → List Nat → List Nat → Holdings → List Nat → Prop where
  | share {s : Holdings} {id : Nat} {w : WrapperState} {loose : List Nat} (found : s.held? id = some w) :
      Turn r s loose [] [] (s.setState { w with handles := w.handles+1 }) (id :: loose)
  | part {s : Holdings} {id : Nat} {w : WrapperState} {loose : List Nat} (found : s.held? id = some w)
      (more : 1 < w.handles) :
      Turn r s (id :: loose) [] [] (s.setState { w with handles := w.handles-1 }) loose
  | last {s : Holdings} {id : Nat} {w : WrapperState} {loose : List Nat} (found : s.held? id = some w)
      (one : w.handles = 1) :
      Turn r s (id :: loose) [] (s.returned w)
        ((s.setState { w with handles := 0 }).finalize r { w with handles := 0 } false).2.1
        (((s.setState { w with handles := 0 }).finalize r { w with handles := 0 } false).2.2 ++ loose)
  | release {s : Holdings} {id : Nat} {w : WrapperState} {loose : List Nat} (found : s.held? id = some w) :
      Turn r s loose [] (s.returned w) (s.finalize r w true).2.1 ((s.finalize r w true).2.2 ++ loose)
  | make {s : Holdings} {loose : List Nat} (a : Address) (cls : SynthesizedClass) (owning : Bool)
      (free : ∀ w, s.entry? r a = some w → w.wrapper.serial ≠ (s.heap.serial? a).getD 0) :
      Turn r s loose (if owning then (s.heap.serial? a).toList else []) []
        (s.create r a ((s.heap.serial? a).getD 0) cls owning).2 (s.nextWrapper :: loose)
  | promote {s : Holdings} {id : Nat} {w : WrapperState} {loose : List Nat} (found : s.held? id = some w)
      (unreleased : w.released = false) (borrowed : w.owning = false) :
      Turn r s loose (s.living w.wrapper.address w.wrapper.serial) []
        (s.setState { w with owning := true, handles := w.handles+1 }) (id :: loose)
  | balance {s : Holdings} {id : Nat} {w : WrapperState} {loose : List Nat} (found : s.held? id = some w)
      (unreleased : w.released = false) (owning : w.owning = true) :
      Turn r s loose (s.living w.wrapper.address w.wrapper.serial)
        (s.heap.lowered w.wrapper.address w.wrapper.serial)
        (s.afterRelease w.wrapper.address w.wrapper.serial)
        ((s.heap.releaseInstance w.wrapper.address w.wrapper.serial).freed ++ loose)

inductive Turns (r : Nat) : Holdings → List Nat → List Nat → List Nat → Holdings → List Nat → Prop where
  | done {s : Holdings} {loose : List Nat} : Turns r s loose [] [] s loose
  | turn {s middle t : Holdings} {loose between left taken taken' lowered lowered' : List Nat}
      (first : Turn r s loose taken lowered middle between) (rest : Turns r middle between taken' lowered' t left) :
      Turns r s loose (taken ++ taken') (lowered ++ lowered') t left

variable {s t : Holdings} {r id : Nat} {a : Address} {w : WrapperState} {loose left pending : List Nat}
  {taken lowered : List Nat}

theorem Turn.turns (turn : Turn r s loose taken lowered t left) : Turns r s loose taken lowered t left := by
  have one := Turns.turn turn .done
  rwa [List.append_nil,List.append_nil] at one

theorem counts_setState {v : WrapperState} (sound : Sound s r loose) (found : s.held? id = some w)
    (same : v.wrapper = w.wrapper) (here : v.handles + loose.count id = w.handles + left.count id)
    (others : ∀ x, x ≠ id → left.count x = loose.count x) (x : Nat) :
    (s.setState v).handlesOf x = left.count x + s.heap.kept.count x := by
  obtain ⟨state,named,_⟩ := sound.held found
  rw [(setState_revises (r := r)).handlesOf,same,named]
  have count := sound.counted x
  split
  · rename_i spot
    subst spot
    rw [handlesOf_eq state] at count
    omega
  · rename_i away
    rw [others x away,count]

theorem counts_more (sound : Sound s r loose) (found : s.held? id = some w) (owning : Bool) (x : Nat) :
    (s.setState { w with owning := owning, handles := w.handles+1 }).handlesOf x =
      (id :: loose).count x + s.heap.kept.count x := by
  refine counts_setState (v := { w with owning := owning, handles := w.handles+1 }) sound found rfl ?_ ?_ x
  · rw [List.count_cons_self]; dsimp only; omega
  · intro y away; exact List.count_cons_of_ne away.symm

theorem counts_less (sound : Sound s r (id :: loose)) (found : s.held? id = some w) (x : Nat) :
    (s.setState { w with handles := w.handles-1 }).handlesOf x = loose.count x + s.heap.kept.count x := by
  have positive := (sound.held found).2.2
  refine counts_setState (v := { w with handles := w.handles-1 }) sound found rfl ?_ ?_ x
  · rw [List.count_cons_self]; dsimp only; omega
  · intro y away; exact (List.count_cons_of_ne away.symm).symm

theorem Turn.sound (sound : Sound s r loose) (turn : Turn r s loose taken lowered t left) : Sound t r left := by
  cases turn with
  | share found => exact sound.revise found rfl rfl (Nat.succ_pos _) (counts_more sound found _)
  | part found more => exact sound.revise found rfl rfl (Nat.sub_pos_of_lt more) (counts_less sound found)
  | @last id w loose found one =>
    have counts := counts_less sound found
    rw [one] at counts
    exact Sound.finalize (v := { w with handles := 0 }) sound found rfl setState_revises false counts
  | release found =>
    obtain ⟨state,named,_⟩ := sound.held found
    exact sound.finalize found rfl (.refl (named.symm ▸ state)) true sound.counted
  | make a cls owning free => exact create_sound sound cls owning free
  | promote found unreleased borrowed =>
    exact sound.revise found rfl rfl (Nat.succ_pos _) (counts_more sound found true)
  | balance found unreleased owning => exact sound.gives (Heap.releaseInstance_gives sound.heap _ _)

theorem last_gives (sound : Sound s r loose) (w : WrapperState) :
    s.heap.Gives ((s.setState { w with handles := 0 }).finalize r { w with handles := 0 } false).2.2
      ((s.setState { w with handles := 0 }).finalize r { w with handles := 0 } false).2.1.heap (s.returned w) :=
  finalize_gives (s := s.setState { w with handles := 0 }) sound.heap r { w with handles := 0 } false

theorem Turn.gives (sound : Sound s r loose) (turn : Turn r s loose taken lowered t left) :
    ∃ freed, s.heap.Gives freed t.heap lowered := by
  cases turn with
  | share found => exact ⟨[],.nothing sound.heap⟩
  | part found more => exact ⟨[],.nothing sound.heap⟩
  | last found one => exact ⟨_,last_gives sound _⟩
  | release found => exact ⟨_,finalize_gives sound.heap r _ true⟩
  | make a cls owning free =>
    rw [(create_shows sound.opened _ cls owning).1.2.1]
    exact ⟨[],.nothing sound.heap⟩
  | promote found unreleased borrowed => exact ⟨[],.nothing sound.heap⟩
  | balance found unreleased owning => exact ⟨_,Heap.releaseInstance_gives sound.heap _ _⟩

theorem Turns.sound (turns : Turns r s loose taken lowered t left) (sound : Sound s r loose) :
    Sound t r left := by
  induction turns with
  | done => exact sound
  | turn first rest ih => exact ih (first.sound sound)

theorem Turns.shrinks (turns : Turns r s loose taken lowered t left) (sound : Sound s r loose) :
    Heap.Shrinks s.heap t.heap lowered := by
  induction turns with
  | done => exact .refl _
  | turn first rest ih =>
    obtain ⟨_,gives⟩ := first.gives sound
    exact gives.shrinks.trans sound.heap (ih (first.sound sound))

theorem Turns.trans {middle : Holdings} {between taken' lowered' : List Nat}
    (turns : Turns r s loose taken lowered middle between)
    (more : Turns r middle between taken' lowered' t left) :
    Turns r s loose (taken ++ taken') (lowered ++ lowered') t left := by
  induction turns with
  | done => exact more
  | turn first rest ih =>
    rw [List.append_assoc,List.append_assoc]
    exact .turn first (ih more)

-- What dropping a handle lowers, as `dropHandle` goes about it.
def dropReturned (s : Holdings) (id : Nat) : List Nat :=
  match s.held? id with
  | none => []
  | some w => if w.handles-1 = 0 ∧ (s.registry? w.wrapper.home).isSome then s.returned w else []

def settleReturnedWith : (fuel : Nat) → Holdings → List Nat → List Nat
  | _, _, [] => []
  | 0, _, _ => []
  | fuel+1, s, id :: rest =>
    s.dropReturned id ++ settleReturnedWith fuel (s.dropHandle id).1 ((s.dropHandle id).2 ++ rest)

def settleReturned (s : Holdings) (pending : List Nat) : List Nat :=
  settleReturnedWith (pending.length + s.keptCount) s pending

theorem dropHandle_turn (sound : Sound s r (id :: loose)) :
    Turn r s (id :: loose) [] (s.dropReturned id) (s.dropHandle id).1 ((s.dropHandle id).2 ++ loose) ∧
      s.heap.Gives (s.dropHandle id).2 (s.dropHandle id).1.heap (s.dropReturned id) := by
  obtain ⟨w,found⟩ := sound.of_loose List.mem_cons_self
  obtain ⟨state,named,positive⟩ := sound.held found
  have home : (s.registry? w.wrapper.home).isSome = true := by
    rw [(sound.made id w state).2.1]
    exact sound.opened
  have home' : Option.isSome ( registry? (s.setState { w with handles := w.handles-1 }) w.wrapper.home) = true := home
  unfold dropReturned dropHandle
  rw [found]
  dsimp only
  by_cases last : w.handles-1 = 0
  · have one : w.handles = 1 := by omega
    rw [if_pos ⟨last,home⟩,if_pos ⟨last,home'⟩,last,(sound.made id w state).2.1]
    exact ⟨.last found one,last_gives sound w⟩
  · rw [if_neg fun both => last both.1,if_neg fun both => last both.1]
    exact ⟨.part found (by omega),.nothing sound.heap⟩

-- Every handle that is dropped was pending or kept, so that the fuel of `settle` is never used up.
theorem settleWith_turns (fuel : Nat) (s : Holdings) (pending : List Nat) (sound : Sound s r (pending ++ loose))
    (enough : pending.length + s.heap.kept.length ≤ fuel) :
    Turns r s (pending ++ loose) [] (settleReturnedWith fuel s pending) (settleWith fuel s pending) loose := by
  induction fuel generalizing s pending with
  | zero =>
    cases pending with
    | nil => exact .done
    | cons id rest => exact absurd enough (by simp)
  | succ fuel ih =>
    cases pending with
    | nil => exact .done
    | cons id rest =>
      obtain ⟨turn,gives⟩ := dropHandle_turn (show Sound s r (id :: (rest ++ loose)) from sound)
      have after := turn.sound sound
      rw [← List.append_assoc] at turn after
      refine .turn turn (ih _ _ after ?_)
      have kept := gives.kept.length_eq
      rw [List.length_append] at kept
      rw [List.length_append]
      rw [List.length_cons] at enough
      omega

theorem settle_turns (sound : Sound s r (pending ++ loose)) :
    Turns r s (pending ++ loose) [] (s.settleReturned pending) (s.settle pending) loose := by
  refine settleWith_turns _ s pending sound ?_
  rw [keptCount,Heap.keptCount_eq]
  exact Nat.le_refl _

theorem cloneHandle_turn (r : Nat) (loose : List Nat) (found : s.held? id = some w) (named : w.wrapper.id = id) :
    Turn r s loose [] [] (s.cloneHandle w.wrapper) (id :: loose) := by
  unfold cloneHandle
  rw [named,(held?_eq.mp found).1]
  exact .share found

theorem lookup?_eq (sound : Sound s r loose) {x : Wrapper} : s.lookup? r a = some x ↔
    ∃ id w, s.held? id = some w ∧ w.released = false ∧ s.heap.serial? a = some w.wrapper.serial ∧ w.wrapper = x := by
  unfold lookup?
  constructor
  · intro found
    split at found
    · rename_i w entry
      obtain ⟨id,stands,held⟩ := entry?_eq.mp entry
      obtain ⟨v,held',unreleased,address⟩ := sound.entered a id stands
      obtain rfl : w = v := Option.some.inj (held.symm.trans held')
      split at found
      · rename_i current
        have live := isCurrent_iff.mp current
        exact ⟨id,w,held,unreleased,address ▸ live,Option.some.inj found⟩
      · cases found
    · cases found
  · rintro ⟨id,w,held,unreleased,live,rfl⟩
    have place := sound.placed id w a (sound.held held).1 live
    have entry := sound.tracked id w held unreleased (place ▸ live)
    rw [entry?_eq.mpr ⟨id,place ▸ entry,held⟩]
    dsimp only
    rw [if_pos (isCurrent_iff.mpr (place ▸ live))]

-- What `wrapperFor` lowers, as it goes about it.
def wrapReturned (s : Holdings) (r : Nat) (a : Address) (owning : Bool) : List Nat :=
  let serial := (s.heap.serial? a).getD 0
  match (s.entry? r a).filter (·.wrapper.serial = serial) with
  | none => []
  | some w =>
    if owning && w.owning then
      let shared := s.setState { w with owning := w.owning || owning, handles := w.handles+1 }
      s.heap.lowered a serial ++
        (shared.afterRelease a serial).settleReturned (s.heap.releaseInstance a serial).freed
    else []

theorem living_current (s : Holdings) (a : Address) : s.living a ((s.heap.serial? a).getD 0) = (s.heap.serial? a).toList := by
  unfold living
  cases s.heap.serial? a with
  | none => rfl
  | some n => simp

theorem wrapperFor_turns (sound : Sound s r loose) (cls : SynthesizedClass) (owning : Bool) :
    Turns r s loose (if owning then (s.heap.serial? a).toList else []) (s.wrapReturned r a owning)
      (s.wrapperFor r a cls owning).2 ((s.wrapperFor r a cls owning).1.id :: loose) := by
  unfold wrapperFor wrapReturned
  dsimp only
  cases entry : (s.entry? r a).filter (·.wrapper.serial = (s.heap.serial? a).getD 0) with
  | none =>
    refine (Turn.make a cls owning ?_).turns
    intro w stands same
    rw [stands,Option.filter_some,if_pos (decide_eq_true same)] at entry
    cases entry
  | some w =>
    obtain ⟨stands,same⟩ := Option.filter_eq_some_iff.mp entry
    obtain ⟨id,stands,held⟩ := entry?_eq.mp stands
    obtain ⟨v,held',unreleased,address⟩ := sound.entered a id stands
    obtain rfl : w = v := Option.some.inj (held.symm.trans held')
    have named := (sound.held held).2.1
    have serial : w.wrapper.serial = (s.heap.serial? a).getD 0 := of_decide_eq_true same
    have takes := living_current s a
    rw [← serial] at takes ⊢
    subst address
    dsimp only
    cases owning with
    | false =>
      rw [Bool.or_false,Bool.false_and]
      exact named ▸ (Turn.share held).turns
    | true =>
      rw [Bool.or_true,Bool.true_and]
      simp only [if_true]
      rw [← takes]
      cases owns : w.owning with
      | false => exact named ▸ (Turn.promote held unreleased owns).turns
      | true =>
        have share : Turn r s loose [] [] (s.setState { w with owning := true, handles := w.handles+1 }) (id :: loose) := by
          have turn : Turn r s loose [] [] (s.setState { w with handles := w.handles+1 }) (id :: loose) := .share held
          rwa [owns] at turn
        have shared := share.sound sound
        have now : (s.setState { w with owning := true, handles := w.handles+1 }).held? id =
            some { w with owning := true, handles := w.handles+1 } := by
          rw [held?_eq,state?_setState,if_pos named.symm]
          exact ⟨rfl,Nat.succ_pos _⟩
        have balance : Turn r _ (id :: loose) _ _ _ _ := .balance now unreleased rfl
        have settles := settle_turns (balance.sound shared)
        have turns := Turns.turn share (.turn balance settles)
        rw [List.append_nil,List.nil_append] at turns
        exact named ▸ turns

-- What `release` lowers, as it goes about it.
def releaseReturned (s : Holdings) (r : Nat) (w : WrapperState) : List Nat :=
  s.returned w ++ (s.finalize r w true).2.1.settleReturned (s.finalize r w true).2.2

theorem release_turns (sound : Sound s r loose) (found : s.held? id = some w) (named : w.wrapper.id = id) :
    Turns r s loose [] (s.releaseReturned r w) (s.release r w.wrapper).2 loose := by
  unfold release
  rw [named,(held?_eq.mp found).1]
  have turn : Turn r s loose [] (s.returned w) _ _ := .release found
  exact .turn turn (settle_turns (turn.sound sound))

-- A wrapper whose instance lives is entered already.
theorem track_same (sound : Sound s r loose) (found : s.held? id = some w) :
    (s.track r a w.wrapper).2 = s := by
  obtain ⟨state,named,_⟩ := sound.held found
  unfold track
  split
  · rfl
  · rename_i allowed
    have here : w.wrapper.address = a := by
      by_contra other
      exact allowed (.inl other)
    have unreleased : w.released = false := by
      by_contra released
      refine allowed (.inr (.inl ?_))
      rw [isReleased,named,state]
      exact eq_true_of_ne_false released
    have live : s.heap.serial? w.wrapper.address = some w.wrapper.serial := by
      by_contra dead
      refine allowed (.inr (.inr ?_))
      rw [Bool.not_eq_true',Bool.eq_false_iff]
      exact fun current => dead (isCurrent_iff.mp current)
    have entry := sound.tracked id w found unreleased live
    rw [here] at entry
    rw [entry?_eq.mpr ⟨id,entry,found⟩,Option.filter_some,if_pos (by simp)]

end ObjectBridge.Holdings
