import ObjectBridge.Proofs.Bridge.Moves
import ObjectBridge.Proofs.Native.Classes
import ObjectBridge.Proofs.Synthesis.Members

namespace ObjectBridge

namespace Heap

variable {h middle after : Heap} {a : Address} {i j : Instance}

-- No instance is new, and none has changed its class.
def KeepsClasses (h after : Heap) : Prop := ∀ a j, after.get? a = some j → ∃ i, h.get? a = some i ∧ j.cls = i.cls

theorem KeepsClasses.refl (h : Heap) : h.KeepsClasses h := fun _ j there => ⟨j,there,rfl⟩

theorem KeepsClasses.trans (one : h.KeepsClasses middle) (other : middle.KeepsClasses after) : h.KeepsClasses after := by
  intro a j there
  obtain ⟨k,between,same⟩ := other a j there
  obtain ⟨i,before,again⟩ := one a k between
  exact ⟨i,before,same.trans again⟩

theorem keepsClasses_update (found : h.get? a = some i) (same : j.cls = i.cls) : h.KeepsClasses (h.update a j) := by
  intro b k there
  rw [get?_update] at there
  split at there
  · rename_i here
    cases there
    exact ⟨i,here ▸ found,same⟩
  · exact ⟨k,there,rfl⟩

theorem keepsClasses_without (h : Heap) (a : Address) : h.KeepsClasses (h.without a) := by
  intro b k there
  rw [get?_without] at there
  split at there
  · cases there
  · exact ⟨k,there,rfl⟩

theorem keepsClasses_lower (found : h.get? a = some i) : h.KeepsClasses (h.lower a i).heap := by
  unfold lower
  split
  · exact .refl h
  · exact keepsClasses_without h a
  · exact keepsClasses_update found rfl

theorem keepsClasses_release (h : Heap) (a : Address) : h.KeepsClasses (h.release a).heap := by
  unfold release
  split
  · rename_i found
    exact keepsClasses_lower found
  · exact .refl h

theorem keepsClasses_releaseInstance (h : Heap) (a : Address) (serial : Nat) :
    h.KeepsClasses (h.releaseInstance a serial).heap := by
  rcases releaseInstance_cases h a serial with ⟨i,found,_,does⟩ | ⟨_,does⟩
  · rw [does]; exact keepsClasses_lower found
  · rw [does]; exact .refl h

theorem keepsClasses_retain (h : Heap) (a : Address) : h.KeepsClasses (h.retain a).2 := by
  unfold retain
  split
  · rename_i found
    exact keepsClasses_update found rfl
  · exact .refl h

theorem keepsClasses_setVariable (h : Heap) (a : Address) (name : String) (value : NativeValue) :
    h.KeepsClasses (h.setVariable a name value).2 := by
  unfold setVariable
  split
  · rename_i found
    exact keepsClasses_update found rfl
  · exact .refl h

end Heap

namespace Holdings

variable {s t : Holdings}

theorem finalize_keepsClasses (s : Holdings) (r : Nat) (w : WrapperState) (explicit : Bool) :
    s.heap.KeepsClasses (s.finalize r w explicit).2.1.heap := by
  rw [(finalize_giving r w explicit).1]
  unfold giving
  split
  · exact Heap.keepsClasses_releaseInstance _ _ _
  · exact .refl _

theorem dropHandle_keepsClasses (s : Holdings) (id : Nat) : s.heap.KeepsClasses (s.dropHandle id).1.heap := by
  unfold dropHandle
  split
  · exact .refl _
  · dsimp only
    split
    · exact finalize_keepsClasses (s.setState _) _ _ _
    · exact .refl _

theorem settleWith_keepsClasses (fuel : Nat) (pending : List Nat) (s : Holdings) :
    s.heap.KeepsClasses (settleWith fuel s pending).heap := by
  induction fuel generalizing s pending with
  | zero => cases pending <;> exact .refl _
  | succ fuel ih =>
    cases pending with
    | nil => exact .refl _
    | cons id rest => exact (dropHandle_keepsClasses s id).trans (ih _ _)

theorem settle_keepsClasses (s : Holdings) (pending : List Nat) : s.heap.KeepsClasses (s.settle pending).heap :=
  settleWith_keepsClasses _ pending s

theorem wrapperFor_keepsClasses (s : Holdings) (r : Nat) (a : Address) (cls : SynthesizedClass) (owning : Bool) :
    s.heap.KeepsClasses (s.wrapperFor r a cls owning).2.heap := by
  unfold wrapperFor
  dsimp only
  split
  · rw [create,enter,(modifyRegistry_frames _).heap,(modifyRegistry_frames _).heap]
    exact .refl _
  · split
    · exact (Heap.keepsClasses_releaseInstance _ _ _).trans (settle_keepsClasses _ _)
    · exact .refl _

theorem release_keepsClasses (s : Holdings) (r : Nat) (w : Wrapper) : s.heap.KeepsClasses (s.release r w).2.heap := by
  unfold release
  split
  · exact .refl _
  · exact (finalize_keepsClasses s r _ true).trans (settle_keepsClasses _ _)

theorem Change.keepsClasses (change : Change s t) : s.heap.KeepsClasses t.heap := by
  cases change with
  | retain a => exact Heap.keepsClasses_retain _ a
  | setVariable a name value => exact Heap.keepsClasses_setVariable _ a name value
  | releaseAddress a => exact (Heap.keepsClasses_release _ a).trans (settle_keepsClasses _ _)
  | releaseInstance a serial => exact (Heap.keepsClasses_releaseInstance _ a serial).trans (settle_keepsClasses _ _)
  | cloneHandle w => exact (cloneHandle_heap w).symm ▸ .refl _
  | drop w => exact settle_keepsClasses _ _
  | wrapperFor r a cls owning => exact wrapperFor_keepsClasses s r a cls owning
  | track r a w => exact (track_heap r a w).symm ▸ .refl _
  | release r w => exact release_keepsClasses s r w
  | keep a w =>
    rcases keep_cases s a w with drops | ⟨i,found,keeps⟩
    · exact drops ▸ settle_keepsClasses _ _
    · exact keeps ▸ Heap.keepsClasses_update found rfl
  | @letGo a i found _ left _ =>
    exact (Heap.keepsClasses_update (j := { i with keeps := left }) found rfl).trans (settle_keepsClasses _ _)

end Holdings

namespace Bridge

-- The classes of the program are as registrations made them, and every instance is of one of them.
structure Classed (b : Bridge) : Prop where
  grown : b.natives.Grown
  known : ∀ a i, b.heap.get? a = some i → (b.natives.class? i.cls).isSome = true

theorem classed_invariant : Invariant Classed := by
  intro b b' move classed
  cases move with
  | ask | identify | countNativeCall | countConversionError | close => exact ⟨classed.grown,classed.known⟩
  | @register d id natives accepted =>
    have registers : b.natives.Registration d (.ok (id,natives)) := accepted ▸ classed.grown.registration d
    refine ⟨registers.grown classed.grown,fun a i lives => ?_⟩
    have known := classed.known a i lives
    exact (congrArg Option.isSome (ClassTable.class?_later registers.later known)).trans known
  | @allocate cls name known place =>
    refine ⟨classed.grown,fun a i lives => ?_⟩
    change (b.heap.allocate cls place).2.get? a = some i at lives
    rw [Heap.get?_allocate] at lives
    split at lives
    · cases lives
      obtain ⟨c,there,_⟩ := Option.map_eq_some_iff.mp known
      exact congrArg Option.isSome there
    · exact classed.known a i lives
  | change change =>
    refine ⟨classed.grown,fun a j lives => ?_⟩
    obtain ⟨i,before,same⟩ := change.keepsClasses a j lives
    exact same ▸ classed.known a i before

theorem Reached.classed {b : Bridge} (reached : b.Reached) : b.Classed :=
  reached.of_invariant classed_invariant fun _ _ _ => ⟨.initial,nofun⟩

variable {b : Bridge} {a : Address} {i : Instance} {memo : Memo}

-- The interface that a native class has its name from, if there is one.
def described (b : Bridge) (c : NativeClass) : Option DescriptorId := Synthesis.describedBy b.metadata c.name

theorem described_iff {c : NativeClass} {d : DescriptorId} : b.described c = some d ↔
    ∃ name base members, b.metadata.resolve? c.name = some (d,.interface name base members) := by
  unfold described Synthesis.describedBy
  split
  · rename_i id name base members found
    rw [found]
    constructor
    · rintro ⟨⟩
      exact ⟨name,base,members,rfl⟩
    · rintro ⟨_,_,_,same⟩
      cases same
      rfl
  · rename_i other
    constructor
    · nofun
    · rintro ⟨name,base,members,found⟩
      exact absurd found (other d name base members)

theorem classOfInstance_nearest (grown : b.natives.Grown) (lives : b.heap.get? a = some i) {found : Option DescriptorId}
    (nearest : b.natives.Nearest b.described i.cls found) (declared : Option DescriptorId) :
    Synthesis.classOfInstance b.source b.heap a declared memo = match found.or declared with
      | some d => Synthesis.classOf b.source d memo
      | none => (.error (.notFound "metadata" ("class of instance " ++ a.text)),memo) := by
  have way : ((b.heap.classOf? a).map b.source.natives.chain).getD [] = b.natives.chain i.cls := by
    rw [Heap.classOf?,lives]
    rfl
  have same := grown.nearest_iff.mp nearest
  unfold Synthesis.classOfInstance
  dsimp only
  rw [way]
  generalize offered : List.findSome? _ (b.natives.chain i.cls) = offer
  obtain rfl : found = offer := same.trans offered
  cases found <;> rfl

-- The way up from an instance's class is one that ends, and what is found on it decides; the declared type
-- is asked for only where there is nothing.
theorem class_of_instance_is_nearest_described (reached : b.Reached) (lives : b.heap.get? a = some i)
    (declared : Option DescriptorId) (memo : Memo) :
    (b.natives.class? i.cls).isSome = true ∧
    Relation.ReflTransGen b.natives.Parent i.cls ClassTable.rootId ∧
    (∀ c d, b.described c = some d ↔
      ∃ name base members, b.metadata.resolve? c.name = some (d,.interface name base members)) ∧
    (∃! found, b.natives.Nearest b.described i.cls found) ∧
    (∀ d, b.natives.Nearest b.described i.cls (some d) →
      Synthesis.classOfInstance b.source b.heap a declared memo = Synthesis.classOf b.source d memo) ∧
    (b.natives.Nearest b.described i.cls none →
      Synthesis.classOfInstance b.source b.heap a declared memo = match declared with
        | some d => Synthesis.classOf b.source d memo
        | none => (.error (.notFound "metadata" ("class of instance " ++ a.text)),memo)) := by
  obtain ⟨grown,classes⟩ := reached.classed
  have known := classes a i lives
  refine ⟨known,grown.reaches_root known,fun _ _ => described_iff,?_,?_,?_⟩
  · exact ⟨_,grown.nearest_chain _ _,fun other another => another.unique (grown.nearest_chain _ _)⟩
  · exact fun d nearest => classOfInstance_nearest grown lives nearest declared
  · exact fun nearest => classOfInstance_nearest grown lives nearest declared

-- Teals are ducks by way of a class that has the name of a protocol.
def teals : ClassTable := ⟨[⟨"Teal",some ⟨2⟩,.empty,.empty⟩,⟨"Swims",some ⟨1⟩,.empty,.empty⟩,
  ⟨"Duck",some ⟨0⟩,.empty,.empty⟩,ClassTable.root]⟩

def pond : Bridge :=
  let b : Bridge := { Bridge.opened Synthesis.waterbirds [] .empty with natives := teals }
  { b with holdings := { b.holdings with heap := (b.heap.allocate ⟨3⟩ none).2 } }

theorem pond_reached : pond.Reached := by
  refine ⟨Synthesis.waterbirds,[],.empty,?_⟩
  have duck : ClassTable.initial.register ⟨"Duck",none,.empty,.empty⟩ = .ok (⟨1⟩,⟨teals.newestFirst.drop 2⟩) := rfl
  have swims : ClassTable.register ⟨teals.newestFirst.drop 2⟩ ⟨"Swims",some "Duck",.empty,.empty⟩ =
      .ok (⟨2⟩,⟨teals.newestFirst.drop 1⟩) := rfl
  have teal : ClassTable.register ⟨teals.newestFirst.drop 1⟩ ⟨"Teal",some "Swims",.empty,.empty⟩ =
      .ok (⟨3⟩,teals) := rfl
  have known : teals.name? ⟨3⟩ = some "Teal" := rfl
  have first := Relation.ReflTransGen.refl.tail (Move.register (b := opened Synthesis.waterbirds [] .empty) duck)
  have second := first.tail (.register swims)
  have third := second.tail (.register teal)
  exact third.tail (.allocate known none)

set_option maxRecDepth 2000 in
theorem teals_appear_as_ducks : Metadata.ofBytes Synthesis.waterbirdsFile = .ok pond.metadata ∧
    pond.natives.Nearest pond.described ⟨3⟩ (some ⟨116⟩) ∧
    Synthesis.classOfInstance pond.source pond.heap ⟨0x1000⟩ (some ⟨92⟩) pond.memo =
      Synthesis.classOf pond.source ⟨116⟩ pond.memo := by
  have lives : pond.heap.get? ⟨0x1000⟩ = some ⟨⟨3⟩,1,1,.empty,[]⟩ := rfl
  have undescribed : pond.described ⟨"Teal",some ⟨2⟩,.empty,.empty⟩ = none := by cbv
  have misnamed : pond.described ⟨"Swims",some ⟨1⟩,.empty,.empty⟩ = none := by cbv
  have described : pond.described ⟨"Duck",some ⟨0⟩,.empty,.empty⟩ = some ⟨116⟩ := by cbv
  have nearest : pond.natives.Nearest pond.described ⟨3⟩ (some ⟨116⟩) :=
    .above rfl undescribed rfl (.above rfl misnamed rfl (.here rfl described))
  obtain ⟨_,_,_,_,found,_⟩ := class_of_instance_is_nearest_described pond_reached lives (some ⟨92⟩) pond.memo
  exact ⟨Synthesis.waterbirds_loaded,nearest,found _ nearest⟩

end Bridge

end ObjectBridge
