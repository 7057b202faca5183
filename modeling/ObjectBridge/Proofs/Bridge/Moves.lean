import Mathlib.Logic.Relation
import ObjectBridge.Bridge.Marshal
import ObjectBridge.Proofs.Registry.Soundness

namespace ObjectBridge

namespace Holdings

-- What may become of wrappers and of instances that are there.
inductive Change (s : Holdings) : Holdings → Prop where
  | retain (a : Address) : Change s { s with heap := (s.heap.retain a).2 }
  | setVariable (a : Address) (name : String) (value : NativeValue) :
      Change s { s with heap := (s.heap.setVariable a name value).2 }
  | releaseAddress (a : Address) : Change s (s.releaseAddress a).2
  | releaseInstance (a : Address) (serial : Nat) : Change s (s.releaseInstance a serial).2
  | cloneHandle (w : Wrapper) : Change s (s.cloneHandle w)
  | drop (w : Wrapper) : Change s (s.drop w)
  | wrapperFor (r : Nat) (a : Address) (cls : SynthesizedClass) (owning : Bool) :
      Change s (s.wrapperFor r a cls owning).2
  | track (r : Nat) (a : Address) (w : Wrapper) : Change s (s.track r a w).2
  | release (r : Nat) (w : Wrapper) : Change s (s.release r w).2
  | keep (a : Address) (w : Wrapper) : Change s (s.keep a w)
  -- Variables of an instance are written over, and let go of handles.
  | letGo {a : Address} {i : Instance} (found : s.heap.get? a = some i) {dropped left : List Nat}
      (split : i.keeps.Perm (dropped ++ left)) :
      Change s (({ s with heap := s.heap.update a { i with keeps := left } } : Holdings).settle dropped)

variable {s t : Holdings}

theorem dropHandle_gives (sound : s.heap.Sound) (id : Nat) :
    ∃ returned, s.heap.Gives (s.dropHandle id).2 (s.dropHandle id).1.heap returned := by
  unfold dropHandle
  split
  · exact ⟨[],.nothing sound⟩
  · dsimp only
    split
    · exact ⟨_,finalize_gives (s := s.setState _) sound _ _ _⟩
    · exact ⟨[],.nothing sound⟩

-- Whatever goes with the handles, instances only lose references.
theorem settleWith_shrinks (fuel : Nat) (pending : List Nat) (sound : s.heap.Sound) :
    (settleWith fuel s pending).heap.Sound ∧ ∃ returned, s.heap.Shrinks (settleWith fuel s pending).heap returned := by
  induction fuel generalizing s pending with
  | zero => cases pending <;> exact ⟨sound,[],.refl _⟩
  | succ fuel ih =>
    cases pending with
    | nil => exact ⟨sound,[],.refl _⟩
    | cons id rest =>
      obtain ⟨first,gives⟩ := dropHandle_gives sound id
      obtain ⟨stays,later,shrinks⟩ := ih ((s.dropHandle id).2 ++ rest) gives.sound
      exact ⟨stays,_,gives.shrinks.trans sound shrinks⟩

theorem settle_heap_sound (sound : s.heap.Sound) (pending : List Nat) : (s.settle pending).heap.Sound :=
  (settleWith_shrinks _ pending sound).1

theorem cloneHandle_heap (w : Wrapper) : (s.cloneHandle w).heap = s.heap := by
  unfold cloneHandle
  split <;> rfl

theorem wrapperFor_heap_sound (sound : s.heap.Sound) (r : Nat) (a : Address) (cls : SynthesizedClass) (owning : Bool) :
    (s.wrapperFor r a cls owning).2.heap.Sound := by
  unfold wrapperFor
  dsimp only
  split
  · rw [create,enter,(modifyRegistry_frames _).heap,(modifyRegistry_frames _).heap]
    exact sound
  · split
    · exact settle_heap_sound (Heap.releaseInstance_gives sound _ _).sound _
    · exact sound

theorem track_heap (r : Nat) (a : Address) (w : Wrapper) : (s.track r a w).2.heap = s.heap := by
  unfold track
  split
  · rfl
  · split
    · rfl
    · exact (modifyRegistry_frames _).heap

theorem release_heap_sound (sound : s.heap.Sound) (r : Nat) (w : Wrapper) : (s.release r w).2.heap.Sound := by
  unfold release
  split
  · exact sound
  · exact settle_heap_sound (finalize_gives sound r _ true).sound _

theorem keep_cases (s : Holdings) (a : Address) (w : Wrapper) : s.keep a w = s.drop w ∨
    ∃ i, s.heap.get? a = some i ∧
      s.keep a w = { s with heap := s.heap.update a { i with keeps := i.keeps ++ [w.id] } } := by
  unfold keep
  cases found : s.heap.get? a with
  | none => exact .inl rfl
  | some i => exact .inr ⟨i,rfl,rfl⟩

theorem Change.heap_sound (change : Change s t) (sound : s.heap.Sound) : t.heap.Sound := by
  cases change with
  | retain a => exact (Heap.retain_keeps sound a).sound
  | setVariable a name value => exact Heap.setVariable_sound sound a name value
  | releaseAddress a => exact settle_heap_sound (Heap.release_gives sound a).sound _
  | releaseInstance a serial => exact settle_heap_sound (Heap.releaseInstance_gives sound a serial).sound _
  | cloneHandle w => exact (cloneHandle_heap w).symm ▸ sound
  | drop w => exact settle_heap_sound sound _
  | wrapperFor r a cls owning => exact wrapperFor_heap_sound sound r a cls owning
  | track r a w => exact (track_heap r a w).symm ▸ sound
  | release r w => exact release_heap_sound sound r w
  | keep a w =>
    rcases keep_cases s a w with drops | ⟨i,found,keeps⟩
    · exact drops ▸ settle_heap_sound sound _
    · exact keeps ▸ sound.update found rfl
  | @letGo a i found _ left _ => exact settle_heap_sound (sound.update (j := { i with keeps := left }) found rfl) _

end Holdings

namespace Bridge

-- The next move may name wrappers that nobody has a handle of: nothing here depends on who holds what.
inductive Move (b : Bridge) : Bridge → Prop where
  -- A class is asked for, whether it can be built or not.
  | ask (id : DescriptorId) : Move b { b with memo := (Synthesis.classOf b.source id b.memo).2 }
  | identify : Move b { b with nextIdentity := b.nextIdentity+1 }
  | countNativeCall : Move b { b with nativeCalls := b.nativeCalls+1 }
  | countConversionError : Move b b.noteConversionError
  | register {d : ClassDefinition} {id : ClassId} {natives : ClassTable}
      (accepted : b.natives.register d = .ok (id,natives)) : Move b { b with natives := natives }
  | allocate {cls : ClassId} {name : String} (known : b.natives.name? cls = some name) (place : Option Address) :
      Move b { b with holdings := { b.holdings with heap := (b.heap.allocate cls place).2 } }
  | change {s : Holdings} (change : Holdings.Change b.holdings s) : Move b { b with holdings := s }
  | close : Move b b.close

-- A bridge as it is opened to a program with these functions; the program's classes are registered
-- by moves.
def opened (metadata : Metadata) (registries : List Nat) (functions : Table String NativeFunction) : Bridge :=
  { Bridge.initial metadata registries with functions := functions }

def Reached (b : Bridge) : Prop :=
  ∃ metadata registries functions, Relation.ReflTransGen Move (opened metadata registries functions) b

-- What no move can take away.
def Invariant (I : Bridge → Prop) : Prop := ∀ b b', Move b b' → I b → I b'

theorem reached_invariant : Invariant Reached := by
  rintro b b' move ⟨metadata,registries,functions,moves⟩
  exact ⟨metadata,registries,functions,moves.tail move⟩

theorem Reached.of_invariant {I : Bridge → Prop} {b : Bridge} (invariant : Invariant I)
    (start : ∀ metadata registries functions, I (opened metadata registries functions)) (reached : b.Reached) : I b := by
  obtain ⟨metadata,registries,functions,moves⟩ := reached
  induction moves with
  | refl => exact start metadata registries functions
  | tail _ move ih => exact invariant _ _ move ih

theorem heap_sound_invariant : Invariant fun b => b.heap.Sound := by
  intro b b' move sound
  cases move with
  | ask | identify | countNativeCall | countConversionError | register | close => exact sound
  | allocate _ place => exact Heap.allocate_sound sound _ place
  | change change => exact change.heap_sound sound

theorem Reached.heap_sound {b : Bridge} (reached : b.Reached) : b.heap.Sound :=
  reached.of_invariant heap_sound_invariant fun _ _ _ => Heap.empty_sound

end Bridge
end ObjectBridge
