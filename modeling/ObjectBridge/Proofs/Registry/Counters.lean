import ObjectBridge.Proofs.Registry.Tally

namespace ObjectBridge

namespace Holdings

variable {s t : Holdings} {r id : Nat} {a : Address} {w v : WrapperState} {loose left : List Nat}

def doubled (s : Holdings) (r : Nat) : Nat := ((s.registry? r).map (·.doubleReleases)).getD 0

-- Nothing was given up on request.
structure Unasked (r : Nat) (s t : Holdings) : Prop where
  doubled : t.doubled r = s.doubled r
  marked : ∀ id v, t.held? id = some v → v.released = true → ∃ w, s.held? id = some w ∧ w.released = true

theorem Unasked.refl (s : Holdings) : Unasked r s s := ⟨rfl,fun _ v held marked => ⟨v,held,marked⟩⟩

theorem Unasked.trans {middle : Holdings} (one : Unasked r s middle) (two : Unasked r middle t) : Unasked r s t where
  doubled := two.doubled.trans one.doubled
  marked id v held marked := by
    obtain ⟨u,between,still⟩ := two.marked id v held marked
    exact one.marked id u between still

theorem Unasked.heap (h : Heap) : Unasked r s { s with heap := h } := ⟨rfl,fun _ v held marked => ⟨v,held,marked⟩⟩

theorem doubled_finalize (w : WrapperState) (explicit : Bool) (opened : s.isOpen r) :
    (s.finalize r w explicit).2.1.doubled r = s.doubled r + if w.released && explicit then 1 else 0 := by
  obtain ⟨registry,found⟩ := Option.isSome_iff_exists.mp opened
  rw [doubled,registry?_finalize,doubled,found]
  rfl

theorem setState_unasked (found : s.held? v.wrapper.id = some w) (release : v.released = w.released) :
    Unasked r s (s.setState v) where
  doubled := rfl
  marked id u held marked := by
    by_cases here : id = v.wrapper.id
    · have state := (held?_eq.mp held).1
      rw [state?_setState,if_pos here] at state
      cases state
      exact ⟨w,here ▸ found,release.symm.trans marked⟩
    · exact ⟨u,(held?_setState_other here).symm.trans held,marked⟩

theorem create_unasked (sound : Sound s r loose) (serial : Nat) (cls : SynthesizedClass) (owning : Bool) :
    Unasked r s (s.create r a serial cls owning).2 where
  doubled := by
    obtain ⟨registry,found⟩ := Option.isSome_iff_exists.mp sound.opened
    rw [doubled,registry?_create,doubled,found]
    rfl
  marked id v held marked := by
    obtain ⟨state,positive⟩ := held?_eq.mp held
    rw [(create_shows sound.opened serial cls owning).2.1] at state
    split at state
    · cases state
      cases marked
    · exact ⟨v,held?_eq.mpr ⟨state,positive⟩,marked⟩

theorem dropHandle_unasked (sound : Sound s r (id :: loose)) : Unasked r s (s.dropHandle id).1 := by
  obtain ⟨w,found⟩ := sound.of_loose List.mem_cons_self
  obtain ⟨state,named,_⟩ := sound.held found
  have lowered : Unasked r s (s.setState { w with handles := w.handles-1 }) :=
    setState_unasked (v := { w with handles := w.handles-1 }) (w := w) (named.symm ▸ found) rfl
  unfold dropHandle
  rw [found]
  dsimp only
  split
  · rename_i last
    refine lowered.trans ⟨?_,fun x v held marked => ?_⟩
    · rw [(sound.made id w state).2.1]
      refine (doubled_finalize (s := s.setState _) { w with handles := w.handles-1 } false sound.opened).trans ?_
      simp
    · have there := state?_setState_self (s := s) (w := { w with handles := w.handles-1 })
      have done := finalize_finalizes (r := w.wrapper.home) there false
      by_cases here : x = w.wrapper.id
      · -- Its last handle is gone.
        obtain ⟨known,positive⟩ := held?_eq.mp held
        rw [done.state?,if_pos here] at known
        cases known
        exact absurd last.1 (Nat.ne_of_gt positive)
      · exact ⟨v,(done.held_other here).symm.trans held,marked⟩
  · exact lowered

theorem settleWith_unasked (fuel : Nat) (s : Holdings) (pending : List Nat) (sound : Sound s r (pending ++ loose)) :
    Unasked r s (settleWith fuel s pending) := by
  induction fuel generalizing s pending with
  | zero => cases pending <;> exact .refl s
  | succ fuel ih =>
    cases pending with
    | nil => exact .refl s
    | cons id rest =>
      have begun : Sound s r (id :: (rest ++ loose)) := sound
      have after := (dropHandle_turn begun).1.sound begun
      rw [← List.append_assoc] at after
      exact (dropHandle_unasked begun).trans (ih _ _ after)

theorem settle_unasked (sound : Sound s r (loose ++ left)) : Unasked r s (s.settle loose) :=
  settleWith_unasked _ s loose sound

theorem cloneHandle_unasked (found : s.held? w.wrapper.id = some w) : Unasked r s (s.cloneHandle w.wrapper) := by
  unfold cloneHandle
  rw [(held?_eq.mp found).1]
  exact setState_unasked (v := { w with handles := w.handles+1 }) found rfl

theorem wrapperFor_unasked (sound : Sound s r loose) (a : Address) (cls : SynthesizedClass) (owning : Bool) :
    Unasked r s (s.wrapperFor r a cls owning).2 := by
  unfold wrapperFor
  dsimp only
  split
  · exact create_unasked sound _ cls owning
  · rename_i w some
    obtain ⟨id,stands,held⟩ := entry?_eq.mp (Option.filter_eq_some_iff.mp some).1
    have named := (sound.held held).2.1
    have shared : Unasked r s (s.setState { w with owning := w.owning || owning, handles := w.handles+1 }) :=
      setState_unasked (v := { w with owning := w.owning || owning, handles := w.handles+1 }) (w := w)
        (named.symm ▸ held) rfl
    split
    · have after : Sound (s.setState { w with owning := w.owning || owning, handles := w.handles+1 }) r (id :: loose) :=
        sound.revise held rfl rfl (Nat.succ_pos _) (counts_more sound held _)
      have given := after.gives (Heap.releaseInstance_gives after.heap a ((s.heap.serial? a).getD 0))
      exact shared.trans ((Unasked.heap _).trans (settle_unasked given))
    · exact shared

-- A request answers whether it was the first, and only its own wrapper is marked.
structure Asked (r : Nat) (s : Holdings) (w : WrapperState) (t : Holdings) : Prop where
  doubled : t.doubled r = s.doubled r + if w.released then 1 else 0
  marked : ∀ id v, t.held? id = some v → v.released = true →
    id = w.wrapper.id ∨ ∃ u, s.held? id = some u ∧ u.released = true
  released : t.Released w.wrapper.id

theorem release_asked (sound : Sound s r loose) (found : s.held? w.wrapper.id = some w) :
    Asked r s w (s.release r w.wrapper).2 ∧ (s.release r w.wrapper).1 = !w.released := by
  have state := (held?_eq.mp found).1
  have done := finalize_finalizes (r := r) state true
  have turn : Turn r s loose [] (s.returned w) _ _ := .release found
  have settled := settle_unasked (turn.sound sound)
  have turns := settle_turns (turn.sound sound)
  unfold release
  rw [state]
  refine ⟨⟨?_,fun x v held marked => ?_,?_⟩,?_⟩
  · refine settled.doubled.trans ((doubled_finalize w true sound.opened).trans ?_)
    rw [Bool.and_true]
  · obtain ⟨u,between,still⟩ := settled.marked x v held marked
    by_cases here : x = w.wrapper.id
    · exact .inl here
    · exact .inr ⟨u,(done.held_other here).symm.trans between,still⟩
  · exact turns.released (turn.sound sound) ⟨_,(done.state? _).trans (if_pos rfl),rfl⟩
  · unfold finalize
    dsimp only
    cases w.released with
    | true => rfl
    | false => cases w.owning <;> rfl

end Holdings

@[simp] def RegistryAct.releases : RegistryAct → List Nat
  | .release id => [id]
  | _ => []

-- How many requests, of which the latest stands first, are for what was asked for before.
def repeats : List Nat → Nat
  | [] => 0
  | id :: earlier => repeats earlier + if id ∈ earlier then 1 else 0

namespace Scene

variable {r : Nat} {σ σ' σ'' : Scene} {acts done : List RegistryAct} {act : RegistryAct}

-- Native code may also write variables, and a variable that is written over lets go of what it kept.
inductive Step (r : Nat) (σ : Scene) : List RegistryAct → Scene → Prop where
  | act {act : RegistryAct} {σ' : Scene} (next : σ.advance r act = some σ') : Step r σ [act] σ'
  | write (a : Address) (name : String) (value : NativeValue) :
      Step r σ [] { σ with
        holdings := { σ.holdings with heap := (σ.holdings.heap.setVariable a name value).2 } }
  | letGo {a : Address} {i : Instance} (found : σ.holdings.heap.get? a = some i) {dropped left : List Nat}
      (split : i.keeps.Perm (dropped ++ left)) :
      Step r σ [] { σ with
        holdings := ({ σ.holdings with heap := σ.holdings.heap.update a { i with keeps := left } }).settle dropped
        givenBack := σ.givenBack ++
          ({ σ.holdings with heap := σ.holdings.heap.update a { i with keeps := left } }).settleReturned dropped }

-- The latest act stands first.
inductive Passage (r : Nat) (σ : Scene) : List RegistryAct → Scene → Prop where
  | here : Passage r σ [] σ
  | step {acts act : List RegistryAct} {σ' σ'' : Scene} (before : Passage r σ acts σ') (next : Step r σ' act σ'') :
      Passage r σ (act ++ acts) σ''

-- A step is what native code does, and then turns.
theorem Step.turns (step : Step r σ done σ') (sound : σ.holdings.Sound r σ.hands) :
    ∃ heap begun between taken lowered, σ.hands.Perm begun ∧ Outside σ.holdings.heap begun heap between ∧
      Holdings.Turns r { σ.holdings with heap := heap } between taken lowered σ'.holdings σ'.hands := by
  cases step with
  | act next =>
    obtain ⟨begun,between,taken,lowered,perm,outside,turns,_,_⟩ := (advance_acted sound next).turns
    exact ⟨_,begun,between,taken,lowered,perm,outside,turns⟩
  | write a name value =>
    exact ⟨_,_,_,[],[],.rfl,.keeps [] (Heap.setVariable_keeps sound.heap a name value),.done⟩
  | @letGo a i found dropped left split =>
    have gives := Heap.update_gives (j := { i with keeps := left }) sound.heap found rfl rfl split
    exact ⟨_,_,_,[],_,.rfl,.gives gives,Holdings.settle_turns (sound.gives gives)⟩

theorem Step.sound (step : Step r σ done σ') (sound : σ.holdings.Sound r σ.hands) : σ'.holdings.Sound r σ'.hands := by
  obtain ⟨_,_,_,_,_,perm,outside,turns⟩ := step.turns sound
  exact turns.sound (outside.sound (sound.perm perm))

theorem Step.counted (step : Step r σ done σ') (sound : σ.holdings.Sound r σ.hands) (counted : σ.holdings.Counted r) :
    σ'.holdings.Counted r := by
  obtain ⟨_,_,_,_,_,perm,outside,turns⟩ := step.turns sound
  exact turns.counted (outside.sound (sound.perm perm)) (counted.same rfl rfl)

theorem Step.released (step : Step r σ done σ') (sound : σ.holdings.Sound r σ.hands) (id : Nat)
    (released : σ.holdings.Released id) : σ'.holdings.Released id := by
  obtain ⟨_,_,_,_,_,perm,outside,turns⟩ := step.turns sound
  exact turns.released (outside.sound (sound.perm perm)) released

theorem advance_unasked (sound : σ.holdings.Sound r σ.hands) (next : σ.advance r act = some σ')
    (other : act.releases = []) : σ.holdings.Unasked r σ'.holdings := by
  cases act with
  | release id => cases other
  | allocate | retain =>
    cases next
    exact .heap _
  | releaseAddress a =>
    cases next
    exact (Holdings.Unasked.heap _).trans (Holdings.settle_unasked (sound.gives (Heap.release_gives sound.heap a)))
  | releaseInstance a serial =>
    cases next
    have gives := Heap.releaseInstance_gives sound.heap a serial
    exact (Holdings.Unasked.heap _).trans (Holdings.settle_unasked (sound.gives gives))
  | wrap a cls owning =>
    cases next
    exact Holdings.wrapperFor_unasked sound a cls owning
  | lookup a =>
    simp only [advance,Holdings.lookup] at next
    cases found : σ.holdings.lookup? r a with
    | none =>
      rw [found] at next
      cases next
      exact .refl _
    | some x =>
      rw [found] at next
      cases next
      obtain ⟨id,w,held,_,_,rfl⟩ := (Holdings.lookup?_eq sound).mp found
      exact Holdings.cloneHandle_unasked ((sound.held held).2.1.symm ▸ held)
  | track a id =>
    obtain ⟨w,held,rfl⟩ := Option.map_eq_some_iff.mp next
    dsimp only
    rw [Holdings.track_same sound held]
    exact .refl _
  | clone id =>
    obtain ⟨w,held,rfl⟩ := Option.map_eq_some_iff.mp next
    exact Holdings.cloneHandle_unasked ((sound.held held).2.1.symm ▸ held)
  | drop id =>
    simp only [advance] at next
    split at next
    · rename_i member
      obtain ⟨w,held,rfl⟩ := Option.map_eq_some_iff.mp next
      obtain rfl := (sound.held held).2.1
      have begun : σ.holdings.Sound r ([w.wrapper.id] ++ _) := sound.perm (List.perm_cons_erase member)
      exact Holdings.settle_unasked begun
    · cases next
  | keep a id =>
    simp only [advance] at next
    split at next
    · rename_i member
      obtain ⟨w,held,rfl⟩ := Option.map_eq_some_iff.mp next
      obtain rfl := (sound.held held).2.1
      dsimp only [Holdings.keep]
      split
      · exact .heap _
      · have begun : σ.holdings.Sound r ([w.wrapper.id] ++ _) := sound.perm (List.perm_cons_erase member)
        exact Holdings.settle_unasked begun
    · cases next

-- What the requests so far have left behind.
structure Recorded (r : Nat) (requests : List Nat) (s : Holdings) : Prop where
  doubled : s.doubled r = repeats requests
  marked : ∀ id w, s.held? id = some w → w.released = true → id ∈ requests
  released : ∀ id ∈ requests, s.Released id

theorem initial_recorded (r : Nat) : Recorded r [] (Holdings.initial [r]) where
  doubled := by
    rw [Holdings.doubled,Holdings.registry?_initial]
    rfl
  marked _ _ held := by cases held
  released _ none := nomatch none

theorem Recorded.asked_iff {requests : List Nat} {s : Holdings} {id : Nat} {w : WrapperState}
    (recorded : Recorded r requests s) (found : s.held? id = some w) : w.released = true ↔ id ∈ requests := by
  refine ⟨recorded.marked id w found,fun asked => ?_⟩
  obtain ⟨v,known,marked⟩ := recorded.released id asked
  cases (Holdings.held?_eq.mp found).1.symm.trans known
  exact marked

theorem Recorded.unasked {requests : List Nat} {s t : Holdings} (recorded : Recorded r requests s)
    (unasked : s.Unasked r t) (still : ∀ id, s.Released id → t.Released id) : Recorded r requests t where
  doubled := unasked.doubled.trans recorded.doubled
  marked id w held marked := by
    obtain ⟨u,before,already⟩ := unasked.marked id w held marked
    exact recorded.marked id u before already
  released id asked := still id (recorded.released id asked)

theorem Step.recorded {requests : List Nat} (step : Step r σ done σ') (sound : σ.holdings.Sound r σ.hands)
    (recorded : Recorded r requests σ.holdings) : Recorded r (done.flatMap (·.releases) ++ requests) σ'.holdings := by
  have still := step.released sound
  cases step with
  | write a name value => exact recorded.unasked (.heap _) still
  | @letGo a i found dropped left split =>
    have gives := Heap.update_gives (j := { i with keeps := left }) sound.heap found rfl rfl split
    exact recorded.unasked ((Holdings.Unasked.heap _).trans (Holdings.settle_unasked (sound.gives gives))) still
  | @act act _ next =>
    by_cases other : act.releases = []
    · simp only [List.flatMap_cons,other,List.flatMap_nil,List.nil_append]
      exact recorded.unasked (advance_unasked sound next other) still
    · cases act with
      | release id =>
        obtain ⟨w,held,rfl⟩ := Option.map_eq_some_iff.mp next
        obtain rfl := (sound.held held).2.1
        obtain ⟨asked,_⟩ := Holdings.release_asked sound held
        refine ⟨?_,fun x v held' marked => ?_,fun x member => ?_⟩
        · refine asked.doubled.trans ?_
          rw [recorded.doubled]
          exact congrArg _ (if_congr (recorded.asked_iff held) rfl rfl)
        · rcases asked.marked x v held' marked with rfl | ⟨u,before,already⟩
          · exact List.mem_cons_self
          · exact List.mem_cons_of_mem _ (recorded.marked x u before already)
        · rcases List.mem_cons.mp member with rfl | earlier
          · exact asked.released
          · exact still x (recorded.released x earlier)
      | _ => exact (other rfl).elim

theorem Passage.sound (passage : Passage r σ acts σ') (sound : σ.holdings.Sound r σ.hands) :
    σ'.holdings.Sound r σ'.hands := by
  induction passage with
  | here => exact sound
  | step before next ih => exact next.sound ih

theorem Passage.counted (passage : Passage r σ acts σ') (sound : σ.holdings.Sound r σ.hands)
    (counted : σ.holdings.Counted r) : σ'.holdings.Counted r := by
  induction passage with
  | here => exact counted
  | step before next ih => exact next.counted (before.sound sound) ih

theorem Passage.released (passage : Passage r σ acts σ') (sound : σ.holdings.Sound r σ.hands) (id : Nat)
    (released : σ.holdings.Released id) : σ'.holdings.Released id := by
  induction passage with
  | here => exact released
  | step before next ih => exact next.released (before.sound sound) id ih

theorem Passage.recorded (passage : Passage r σ acts σ') (sound : σ.holdings.Sound r σ.hands)
    (recorded : Recorded r [] σ.holdings) : Recorded r (acts.flatMap (·.releases)) σ'.holdings := by
  induction passage with
  | here => exact recorded
  | step before next ih =>
    rw [List.flatMap_append]
    exact next.recorded (before.sound sound) ih

instance (σ : Scene) (id : Nat) : Decidable (σ.Refers id) := inferInstanceAs (Decidable (_ ∨ _))

-- Not given up, and some script or some live instance has a handle of it.
def unreleased (σ : Scene) : Finset Nat :=
  σ.holdings.wrappers.keys.toFinset.filter fun id => (σ.holdings.state? id).any (!·.released) ∧ σ.Refers id

-- Of these, those to which the table leads.
def entered (r : Nat) (σ : Scene) : Finset Nat :=
  σ.unreleased.filter fun id =>
    (σ.holdings.state? id).any fun w => σ.holdings.entryOf r w.wrapper.address = some id

theorem unreleased_eq (sound : σ.holdings.Sound r σ.hands) : σ.unreleased = σ.holdings.standing := by
  ext id
  rw [unreleased,Holdings.standing,Finset.mem_filter,Finset.mem_filter]
  refine and_congr_right fun _ => ?_
  simp only [Option.any_eq_true]
  constructor
  · rintro ⟨⟨w,known,unreleased⟩,refers⟩
    exact ⟨w,Holdings.held?_eq.mpr ⟨known,(sound.held_iff known).mpr refers⟩,unreleased⟩
  · rintro ⟨w,held,unreleased⟩
    obtain ⟨known,positive⟩ := Holdings.held?_eq.mp held
    exact ⟨⟨w,known,unreleased⟩,(sound.held_iff known).mp positive⟩

-- However a run goes: what was made was given up once or is still referred to, the table holds those of the latter
-- to which it leads, what was given up stays so, and only the first request for a wrapper gives it up.
theorem counters_exact (passage : Passage r (start r) acts σ) :
    ∃ registry, σ.holdings.registry? r = some registry ∧
      registry.stats.created = registry.stats.released+σ.unreleased.card ∧
      registry.stats.live = (σ.entered r).card ∧
      registry.stats.live ≤ registry.stats.created-registry.stats.released ∧
      registry.stats.doubleReleases = repeats (acts.flatMap (·.releases)) ∧
      (∀ id w, σ.holdings.held? id = some w →
        (w.released = true ↔ id ∈ acts.flatMap (·.releases)) ∧
        ((σ.holdings.release r w.wrapper).1 = true ↔ id ∉ acts.flatMap (·.releases))) ∧
      ∀ later σ', Passage r σ later σ' → ∀ id, σ.holdings.Released id → σ'.holdings.Released id := by
  have begun := Holdings.initial_sound r
  have sound := passage.sound begun
  have counted := passage.counted begun (Holdings.initial_counted r)
  have recorded := passage.recorded begun (initial_recorded r)
  obtain ⟨registry,found⟩ := Option.isSome_iff_exists.mp sound.opened
  have tally := counted.tally registry found
  have live := sound.live_eq counted found
  rw [← unreleased_eq sound] at tally live
  refine ⟨registry,found,tally,live,?_,?_,fun id w held => ?_,fun later σ' onward => onward.released sound⟩
  · have fewer : registry.entries.size ≤ σ.unreleased.card := live.trans_le (Finset.card_filter_le _ _)
    dsimp only [Registry.stats]
    omega
  · have doubled := recorded.doubled
    rwa [Holdings.doubled,found] at doubled
  · have asked := recorded.asked_iff held
    have answer := (Holdings.release_asked sound ((sound.held held).2.1.symm ▸ held)).2
    refine ⟨asked,?_⟩
    rw [answer,← asked]
    simp

-- A wrapper is put out of its place by another and then given up twice.
theorem stale_and_repeated_counted : ∃ σ registry w,
    Passage 0 (start 0) [.release 0,.release 0,.wrap ⟨0x1000⟩ bareClass true,.allocate ⟨0⟩ (some ⟨0x1000⟩),
      .releaseAddress ⟨0x1000⟩,.wrap ⟨0x1000⟩ bareClass true,.allocate ⟨0⟩ none] σ ∧
    σ.holdings.registry? 0 = some registry ∧ registry.stats = ⟨1,2,1,1⟩ ∧ σ.unreleased.card = 1 ∧
    σ.holdings.held? 1 = some w ∧ (σ.holdings.release 0 w.wrapper).1 = true := by
  let first : Instance := ⟨⟨0⟩,1,1,.empty,[]⟩
  let second : Instance := ⟨⟨0⟩,2,1,.empty,[]⟩
  let stale : WrapperState := ⟨⟨0,⟨0x1000⟩,1,bareClass,0⟩,true,false,1⟩
  let fresh : WrapperState := ⟨⟨1,⟨0x1000⟩,2,bareClass,0⟩,true,false,1⟩
  have born : Passage 0 (start 0) (.allocate ⟨0⟩ none :: _)
      ⟨⟨⟨⟨[(⟨0x1000⟩,first)]⟩,2⟩,⟨[]⟩,0,⟨[(0,⟨⟨[]⟩,0,0,0⟩)]⟩⟩,[],[],[]⟩ := .step .here (.act rfl)
  have wrapped : Passage 0 (start 0) (.wrap ⟨0x1000⟩ bareClass true :: _)
      ⟨⟨⟨⟨[(⟨0x1000⟩,first)]⟩,2⟩,⟨[(0,stale)]⟩,1,⟨[(0,⟨⟨[(⟨0x1000⟩,0)]⟩,1,0,0⟩)]⟩⟩,[0],[1],[]⟩ := .step born (.act rfl)
  have died : Passage 0 (start 0) (.releaseAddress ⟨0x1000⟩ :: _)
      ⟨⟨⟨⟨[]⟩,2⟩,⟨[(0,stale)]⟩,1,⟨[(0,⟨⟨[(⟨0x1000⟩,0)]⟩,1,0,0⟩)]⟩⟩,[0],[1],[]⟩ := .step wrapped (.act rfl)
  have reborn : Passage 0 (start 0) (.allocate ⟨0⟩ (some ⟨0x1000⟩) :: _)
      ⟨⟨⟨⟨[(⟨0x1000⟩,second)]⟩,3⟩,⟨[(0,stale)]⟩,1,⟨[(0,⟨⟨[(⟨0x1000⟩,0)]⟩,1,0,0⟩)]⟩⟩,[0],[1],[]⟩ := .step died (.act rfl)
  have replaced : Passage 0 (start 0) (.wrap ⟨0x1000⟩ bareClass true :: _)
      ⟨⟨⟨⟨[(⟨0x1000⟩,second)]⟩,3⟩,⟨[(0,stale),(1,fresh)]⟩,2,⟨[(0,⟨⟨[(⟨0x1000⟩,1)]⟩,2,0,0⟩)]⟩⟩,[1,0],[1,2],[]⟩ :=
    .step reborn (.act rfl)
  have released : Passage 0 (start 0) (.release 0 :: _)
      ⟨⟨⟨⟨[(⟨0x1000⟩,second)]⟩,3⟩,⟨[(0,{ stale with released := true }),(1,fresh)]⟩,2,
        ⟨[(0,⟨⟨[(⟨0x1000⟩,1)]⟩,2,1,0⟩)]⟩⟩,[1,0],[1,2],[]⟩ := .step replaced (.act rfl)
  have passage : Passage 0 (start 0) (.release 0 :: _)
      ⟨⟨⟨⟨[(⟨0x1000⟩,second)]⟩,3⟩,⟨[(0,{ stale with released := true }),(1,fresh)]⟩,2,
        ⟨[(0,⟨⟨[(⟨0x1000⟩,1)]⟩,2,1,1⟩)]⟩⟩,[1,0],[1,2],[]⟩ := .step released (.act rfl)
  obtain ⟨registry,found,tally,_,_,_,asked,_⟩ := counters_exact passage
  obtain rfl : (⟨⟨[(⟨0x1000⟩,1)]⟩,2,1,1⟩ : Registry) = registry := Option.some.inj found
  have alone : 1+_ = 1+1 := tally.symm
  exact ⟨_,_,fresh,passage,rfl,rfl,Nat.add_left_cancel alone,rfl,(asked 1 fresh rfl).2.mpr (by decide)⟩

end Scene
end ObjectBridge
