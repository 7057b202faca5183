import Mathlib
import ObjectBridge.Proofs.Bridge.Lives
import ObjectBridge.Proofs.Bridge.Identity
import ObjectBridge.Proofs.Registry.Lending
import ObjectBridge.Proofs.Registry.Runs

namespace ObjectBridge

namespace Holdings

variable {s t : Holdings} {r : Nat} {a : Address}

-- No more than references that are given back, handles that an instance sets free when it goes with its last one,
-- and wrappers that were made and given up.
structure Traceless (r : Nat) (s : Holdings) (returned freed : List Nat) (t : Holdings) : Prop where
  heap : s.heap.Gives freed t.heap returned
  spared : (∀ a, t.heap.isLive a = s.heap.isLive a) → freed = []
  lookup? : ∀ home a, t.lookup? home a = s.lookup? home a ∨
    t.lookup? home a = none ∧ t.heap.serial? a = none ∧ ∃ n ∈ returned, s.heap.serial? a = some n
  old : ∀ id w, s.state? id = some w → t.state? id = some w
  new : ∀ id w, t.state? id = some w → s.state? id = none → w.handles = 0 ∧ w.released = true
  grows : s.nextWrapper ≤ t.nextWrapper
  tally : (t.registry? r).map (fun g => (g.created,g.released,g.doubleReleases)) = (s.registry? r).map fun g =>
    (g.created+(t.nextWrapper-s.nextWrapper),g.released+(t.nextWrapper-s.nextWrapper),g.doubleReleases)

theorem Lends.traceless (lends : Lends r s [] t) (sound : s.heap.Sound) : Traceless r s [] [] t where
  heap := by
    rw [lends.heap]
    exact .nothing sound
  spared _ := rfl
  lookup? home a := .inl (lends.lookup? home a)
  old id w known := (lends.old id w known).1
  new id w known none := by
    have lent := lends.lent id w known none
    exact ⟨lent.count,by simpa using lent.released⟩
  grows := lends.grows
  tally := by simpa [finished] using lends.tally

theorem release_spared (a : Address)
    (same : ∀ b, (s.heap.release a).heap.isLive b = s.heap.isLive b) : (s.heap.release a).freed = [] := by
  have here := same a
  unfold Heap.release at here ⊢
  cases found : s.heap.get? a with
  | none => rfl
  | some i =>
    rw [found] at here
    dsimp only at here ⊢
    rcases s.heap.lower_cases a i with ⟨_,stays⟩ | ⟨_,gone⟩ | ⟨n,_,_,left⟩
    · rw [stays]
    · rw [gone] at here
      have live : s.heap.isLive a = true := congrArg Option.isSome found
      have dead : (s.heap.without a).isLive a = false := congrArg Option.isSome (Heap.get?_without.trans (if_pos rfl))
      exact absurd (dead.symm.trans (here.trans live)) (by decide)
    · rw [left]

-- One reference is given back, and whoever was found elsewhere is found there still.
theorem release_traceless (filed : s.Filed) (sound : s.heap.Sound) (r : Nat) (a : Address) :
    Traceless r s (s.heap.loses a) (s.heap.release a).freed { s with heap := (s.heap.release a).heap } where
  heap := Heap.release_gives sound a
  spared := release_spared a
  lookup? home b := by
    have entry (v : WrapperState) (found : s.entry? home b = some v) : v.wrapper.address = b := (filed.entry found).2
    have shrinks := (Heap.release_gives sound a).shrinks
    have looks (h : Heap) : Holdings.lookup? { s with heap := h } home b =
        (s.entry? home b).bind fun w => if h.serial? b = some w.wrapper.serial then some w.wrapper else none := by
      unfold Holdings.lookup?
      rw [show Holdings.entry? { s with heap := h } home b = s.entry? home b from rfl]
      cases found : s.entry? home b with
      | none => rfl
      | some w => simp only [isCurrent,decide_eq_true_eq,entry w found,Option.bind_some]
    have before := looks s.heap
    have after := looks (s.heap.release a).heap
    rcases shrinks.serial? b with gone | same
    · cases live : s.heap.serial? b with
      | none =>
        rw [gone,← live] at after
        exact .inl (after.trans before.symm)
      | some n =>
        refine .inr ⟨?_,gone,n,?_,rfl⟩
        · rw [after,gone]
          cases s.entry? home b <;> rfl
        · obtain ⟨i,found,rfl⟩ := Heap.serial?_eq.mp live
          rcases shrinks.fate b i found with ⟨j,there,_⟩ | ⟨_,count,all⟩
          · have stays : (s.heap.release a).heap.serial? b = some j.serial := Heap.serial?_eq.mpr ⟨j,there,rfl⟩
            cases gone.symm.trans stays
          · exact List.count_pos_iff.mp (count ▸ all)
    · rw [same] at after
      exact .inl (after.trans before.symm)
  old _ _ known := known
  new id w known none := by cases known.symm.trans none
  grows := Nat.le_refl _
  tally := by
    simp only [Nat.sub_self,Nat.add_zero]
    rfl

-- What becomes of a reference that comes with an instance which is wrapped: the wrapper has it from now on, or it
-- had one already, and this one is given back, unless the count has come round to zero.
inductive Receives (s : Holdings) (w : Wrapper) : Bool → Holdings → Prop where
  | lent {t : Holdings} (heap : t.heap = s.heap) (same : t.isOwning w = s.isOwning w) : Receives s w false t
  | taken {t : Holdings} (heap : t.heap = s.heap) (before : s.isOwning w = false) (after : t.isOwning w = true) :
      Receives s w true t
  | balanced {t : Holdings} {freed : List Nat} (before : s.isOwning w = true) (after : t.isOwning w = true)
      (gives : s.heap.Gives freed t.heap (s.heap.lowered w.address w.serial)) : Receives s w true (t.settle freed)

theorem wrapperFor_receives (filed : s.Filed) (sound : s.heap.Sound) (opened : s.isOpen r) (cls : SynthesizedClass)
    {serial : Nat} (live : s.heap.serial? a = some serial) (owning : Bool) :
    (s.wrapperFor r a cls owning).1.address = a ∧ (s.wrapperFor r a cls owning).1.serial = serial ∧
      Receives s (s.wrapperFor r a cls owning).1 owning (s.wrapperFor r a cls owning).2 := by
  unfold wrapperFor
  dsimp only
  rw [live,Option.getD_some]
  cases entry : (s.entry? r a).filter (·.wrapper.serial = serial) with
  | none =>
    obtain ⟨⟨_,heap,_⟩,states,_⟩ := create_shows (a := a) opened serial cls owning
    have unmade : s.state? s.nextWrapper = none := by
      cases found : s.state? s.nextWrapper with
      | none => rfl
      | some w => exact absurd (filed.made _ w found).2 (Nat.lt_irrefl _)
    have before : s.isOwning (s.create r a serial cls owning).1 = false := by
      change ((s.state? s.nextWrapper).map (·.owning)).getD false = false
      rw [unmade]
      rfl
    have after : (s.create r a serial cls owning).2.isOwning (s.create r a serial cls owning).1 = owning := by
      change (((s.create r a serial cls owning).2.state? s.nextWrapper).map (·.owning)).getD false = owning
      rw [states,if_pos rfl]
      rfl
    refine ⟨rfl,rfl,?_⟩
    cases owning with
    | false => exact .lent heap (after.trans before.symm)
    | true => exact .taken heap before after
  | some w =>
    obtain ⟨found,same⟩ := Option.filter_eq_some_iff.mp entry
    obtain rfl : w.wrapper.serial = serial := of_decide_eq_true same
    obtain ⟨held,rfl⟩ := filed.entry found
    have before : s.isOwning w.wrapper = w.owning := by
      rw [isOwning,(held?_eq.mp held).1]
      rfl
    have after (v : WrapperState) (own : v.wrapper = w.wrapper) : (s.setState v).isOwning w.wrapper = v.owning := by
      rw [isOwning,state?_setState,if_pos (by rw [own])]
      rfl
    cases owning with
    | false =>
      simp only [Bool.or_false,Bool.false_and,Bool.false_eq_true,if_false]
      exact ⟨trivial,trivial,.lent rfl ((after { w with handles := w.handles+1 } rfl).trans before.symm)⟩
    | true =>
      simp only [Bool.or_true,Bool.true_and]
      cases owns : w.owning with
      | false => exact ⟨rfl,rfl,.taken rfl (before.trans owns) (after _ rfl)⟩
      | true =>
        have gives := Heap.releaseInstance_gives sound w.wrapper.address w.wrapper.serial
        exact ⟨rfl,rfl,.balanced (before.trans owns) (after { w with owning := true, handles := w.handles+1 } rfl) gives⟩

end Holdings

namespace ScriptValue

def handles (v : ScriptValue) : List Nat := v.wrappers.map (·.id)

variable {done : List (String × ScriptValue)} {name : String}

theorem handles_record (done : List (String × ScriptValue)) :
    (ScriptValue.record done).handles = done.flatMap fun field => field.2.handles := by
  have wrappers : fieldWrappers done = done.flatMap fun field => field.2.wrappers := by
    induction done with
    | nil => rfl
    | cons field rest ih => rw [fieldWrappers,ih,List.flatMap_cons]
  rw [handles,ScriptValue.wrappers,wrappers,List.map_flatMap]
  rfl

theorem handles_perm {fields : List (String × ScriptValue)} (perm : done.Perm fields) :
    (ScriptValue.record done).handles.Perm (ScriptValue.record fields).handles := by
  rw [handles_record,handles_record]
  exact perm.flatMap_right _

theorem handles_cons (name : String) (v : ScriptValue) (done : List (String × ScriptValue)) :
    (ScriptValue.record ((name,v) :: done)).handles = v.handles ++ (ScriptValue.record done).handles := by
  rw [handles_record,handles_record,List.flatMap_cons]

end ScriptValue

namespace NativeValue

-- Those that code in the value has captured.
def handles (v : NativeValue) : List Nat := v.wrappers.map (·.id)

theorem handles_struct_cons (v : NativeValue) (rest : List NativeValue) :
    (NativeValue.struct (v :: rest)).handles = v.handles ++ (NativeValue.struct rest).handles := by
  simp only [handles,wrappers,wrappersAll,List.map_append]

end NativeValue

namespace Effect

variable {s : Holdings} {spent : List Nat} {b : Bridge}

-- The handles of a result are out with those that were, and after a failure only those that were.
def Leaves (s : Holdings) (given : List Nat) (yields : α → List Nat) (result : Except BridgeError α × Bridge) : Prop :=
  match result.1 with
  | .ok x => Holdings.Lends Bridge.registryNumber s (yields x ++ given) result.2.holdings
  | .error _ => Holdings.Lends Bridge.registryNumber s given result.2.holdings

-- What an effect is told to spend goes, or becomes part of what it yields.
def Lending (s : Holdings) (spent : List Nat) (yields : α → List Nat) (e : Effect α) : Prop :=
  ∀ given b, Holdings.Lends Bridge.registryNumber s (spent ++ given) b.holdings → Leaves s given yields (e b)

-- An effect that changes no handles and yields none.
def Quiet (yields : α → List Nat) (e : Effect α) : Prop :=
  ∀ b, (e b).2.holdings = b.holdings ∧ ∀ x, (e b).1 = .ok x → yields x = []

-- An effect that counts no failed conversion.
def Uncounted (e : Effect α) : Prop := ∀ b, (e b).2.conversionErrors = b.conversionErrors

section Rules
variable {yields : α → List Nat} {results : β → List Nat} {e : Effect α} {f : α → Effect β}

theorem Lending.pure (x : α) : Lending s (yields x) yields (Pure.pure x) := fun _ _ lends => lends

theorem Lending.bind (one : Lending s spent yields e) (rest : ∀ x, Lending s (yields x) results (f x)) :
    Lending s spent results (e >>= f) := by
  intro given b lends
  have first := one given b lends
  change Leaves _ _ _ (ExceptT.bindCont f (e b).1 (e b).2)
  rcases run : e b with ⟨failure | x,middle⟩
  · rw [run] at first
    exact first
  · rw [run] at first
    exact rest x given middle first

theorem Quiet.lending (quiet : Quiet yields e) : Lending s [] yields e := by
  intro given b lends
  obtain ⟨holdings,nothing⟩ := quiet b
  unfold Leaves
  rw [holdings]
  split
  · rename_i x succeeds
    rw [nothing x succeeds]
    exact lends
  · exact lends

theorem Quiet.bind (quiet : Quiet (fun _ => []) e) (rest : ∀ x, Quiet results (f x)) : Quiet results (e >>= f) := by
  intro b
  have first := quiet b
  change (ExceptT.bindCont f (e b).1 (e b).2).2.holdings = _ ∧ ∀ x, (ExceptT.bindCont f (e b).1 (e b).2).1 = _ → _
  rcases run : e b with ⟨failure | x,middle⟩
  · rw [run] at first
    exact ⟨first.1,fun _ succeeds => nomatch succeeds⟩
  · rw [run] at first
    obtain ⟨holdings,nothing⟩ := rest x middle
    exact ⟨holdings.trans first.1,nothing⟩

theorem Quiet.pure {x : α} (nothing : yields x = []) : Quiet yields (Pure.pure x) :=
  fun _ => ⟨rfl,fun _ succeeds => Except.ok.inj succeeds ▸ nothing⟩

theorem Quiet.fail (error : BridgeError) : Quiet yields (Effect.fail error) :=
  fun _ => ⟨rfl,fun _ succeeds => nomatch succeeds⟩

theorem Uncounted.pure (x : α) : Uncounted (Pure.pure x) := fun _ => rfl

theorem Uncounted.bind (one : Uncounted e) (rest : ∀ x, Uncounted (f x)) : Uncounted (e >>= f) := by
  intro b
  have first := one b
  change (ExceptT.bindCont f (e b).1 (e b).2).2.conversionErrors = _
  rcases run : e b with ⟨failure | x,middle⟩
  · rw [run] at first
    exact first
  · rw [run] at first
    exact (rest x middle).trans first

theorem Uncounted.forgo (v : NativeValue) (one : Uncounted e) : Uncounted (forgo v e) := by
  intro b
  have first := one b
  unfold Effect.forgo
  rcases run : e b with ⟨failure | x,middle⟩ <;> rw [run] at first <;> exact first

end Rules

theorem synthesis_quiet (build : Synthesis.Source → Memo → Synthesis.Outcome α) : Quiet (fun _ => []) (synthesis build) :=
  fun _ => ⟨rfl,fun _ _ => rfl⟩

theorem classObject_quiet (id : ClassId) : Quiet ScriptValue.handles (classObject id) := fun b =>
  (synthesis_quiet _).bind (fun _ => .pure rfl) b

-- The handles of the block become those of the function.
theorem functionOfBlock_lending (block : NativeBlock) (signature : CallSignature) :
    Lending s (NativeValue.block (some block)).handles ScriptValue.handles (functionOfBlock block signature) := by
  intro given b lends
  change Holdings.Lends Bridge.registryNumber s ((ScriptValue.function (.ofBlock b.nextIdentity block signature)).handles ++ given)
    b.holdings
  exact lends

theorem structLayout_quiet (id : DescriptorId) (ty : TypeEncoding) (given : Nat) :
    Quiet (fun _ => []) (structLayout id ty given) := by
  intro b
  refine ⟨?_,fun _ _ => rfl⟩
  unfold structLayout
  dsimp only
  split
  · rfl
  · split <;> rfl

theorem structLayout_uncounted (id : DescriptorId) (ty : TypeEncoding) (given : Nat) :
    Uncounted (structLayout id ty given) := by
  intro b
  unfold structLayout
  dsimp only
  split
  · rfl
  · split <;> rfl

theorem classOfInstance_cases (a : Address) (declared : Option DescriptorId) (b : Bridge) :
    (∃ e memo, classOfInstance a declared b = (.error e,{ b with memo := memo })) ∨
      ∃ cls memo serial, b.heap.serial? a = some serial ∧ classOfInstance a declared b = (.ok cls,{ b with memo := memo }) := by
  unfold classOfInstance
  split
  · rename_i live
    obtain ⟨i,found⟩ := Option.isSome_iff_exists.mp live
    have serial : b.heap.serial? a = some i.serial := Heap.serial?_eq.mpr ⟨i,found,rfl⟩
    unfold synthesis
    dsimp only
    rcases Synthesis.classOfInstance b.source b.heap a declared b.memo with ⟨e | cls,memo⟩
    · exact .inl ⟨e,memo,rfl⟩
    · exact .inr ⟨cls,memo,i.serial,serial,rfl⟩
  · exact .inl ⟨_,b.memo,rfl⟩

-- A wrapper is asked for only where an instance lives.
theorem wrap_cases (filed : b.holdings.Filed) (a : Address) (declared : Option DescriptorId) (owning : Bool) :
    (∃ e memo, wrap a declared owning b = (.error e,{ b with memo := memo })) ∨
      ∃ cls memo serial, b.heap.serial? a = some serial ∧ wrap a declared owning b =
        (.ok (.object (b.holdings.wrapperFor Bridge.registryNumber a cls owning).1),
          { b with memo := memo, holdings := (b.holdings.wrapperFor Bridge.registryNumber a cls owning).2 }) := by
  cases seen : b.holdings.lookup? Bridge.registryNumber a with
  | some existing =>
    have looks : lookupWrapper a b = (.ok (some existing),b) := by rw [lookupWrapper,seen]
    have live : ∃ serial, b.heap.serial? a = some serial := by
      unfold Holdings.lookup? at seen
      cases entry : b.holdings.entry? Bridge.registryNumber a with
      | none => rw [entry] at seen; cases seen
      | some w =>
        rw [entry] at seen
        dsimp only at seen
        split at seen
        · rename_i current
          have here := (filed.entry entry).2
          exact ⟨_,here ▸ Holdings.isCurrent_iff.mp current⟩
        · cases seen
    obtain ⟨serial,live⟩ := live
    refine .inr ⟨existing.cls,b.memo,serial,live,?_⟩
    rw [wrap,bind_eq looks]
    exact (bind_eq (x := existing.cls) rfl).trans (bind_eq rfl)
  | none =>
    have looks : lookupWrapper a b = (.ok none,b) := by rw [lookupWrapper,seen]
    rw [wrap,bind_eq looks]
    dsimp only
    rcases classOfInstance_cases a declared b with ⟨e,memo,fails⟩ | ⟨cls,memo,serial,live,found⟩
    · exact .inl ⟨e,memo,bind_stops fails⟩
    · exact .inr ⟨cls,memo,serial,live,(bind_eq found).trans (bind_eq rfl)⟩

variable (opened : s.isOpen Bridge.registryNumber)
include opened

theorem wrap_lending (a : Address) (declared : Option DescriptorId) :
    Lending s [] ScriptValue.handles (wrap a declared false) := by
  intro given b lends
  rcases wrap_cases lends.after a declared false with ⟨e,memo,fails⟩ | ⟨cls,memo,serial,live,wraps⟩
  · rw [fails]
    exact lends
  · rw [Bridge.heap,lends.heap] at live
    rw [wraps]
    exact lends.borrow opened cls live

theorem dropValue_lends {given : List Nat} {v : ScriptValue}
    (lends : Holdings.Lends Bridge.registryNumber s (v.handles ++ given) b.holdings) :
    Holdings.Lends Bridge.registryNumber s given (b.dropValue v).holdings := lends.drops opened v.wrappers

theorem dropNative_lends {given : List Nat} {v : NativeValue}
    (lends : Holdings.Lends Bridge.registryNumber s (v.handles ++ given) b.holdings) :
    Holdings.Lends Bridge.registryNumber s given (b.dropNative v).holdings := lends.drops opened v.wrappers

-- The value that an effect is for is spent on what comes of it, or it is dropped.
theorem forgo_lending {yields : α → List Nat} {e : Effect α} {v : NativeValue} (quiet : Quiet (fun _ => []) e)
    (yielded : ∀ b x, (e b).1 = .ok x → yields x = v.handles) : Lending s v.handles yields (forgo v e) := by
  intro given b lends
  obtain ⟨same,_⟩ := quiet b
  have spent := yielded b
  unfold forgo
  rcases run : e b with ⟨failure | x,middle⟩
  · rw [run] at same
    exact dropNative_lends opened (same ▸ lends)
  · rw [run] at same spent
    unfold Leaves
    dsimp only at same ⊢
    rw [spent x rfl,same]
    exact lends

theorem mismatch_lending (v : NativeValue) (ty : TypeEncoding) (actual : String) :
    Lending s v.handles ScriptValue.handles (forgo v (mismatch ty actual)) :=
  forgo_lending opened (fun _ => ⟨rfl,fun _ _ => rfl⟩) fun _ _ succeeds => nomatch succeeds

omit opened in
theorem putField_eq (done : List (String × ScriptValue)) (name : String) (v : ScriptValue) (b : Bridge) :
    putField done name v b = (.ok ((Table.mk done).put name v).entries,
      match (Table.mk done).get? name with
      | some old => b.dropValue old
      | none => b) := by
  unfold putField
  cases taken : (Table.mk done).get? name with
  | none =>
    change done.lookup name = none at taken
    rw [taken]
    rfl
  | some old =>
    change done.lookup name = some old at taken
    rw [taken]
    rfl

theorem putField_lending {done : List (String × ScriptValue)} (sorted : (Table.mk done).Sorted) (name : String)
    (v : ScriptValue) :
    Lending s (v.handles ++ (ScriptValue.record done).handles) (fun fields => (ScriptValue.record fields).handles)
      (putField done name v) := by
  intro given b lends
  have put := ScriptValue.handles_perm (Table.perm_put (t := Table.mk done) name v sorted)
  rw [ScriptValue.handles_cons] at put
  rw [putField_eq]
  cases taken : (Table.mk done).get? name with
  | none =>
    rw [Table.erase_of_get?_none taken] at put
    exact lends.perm (put.symm.append_right given)
  | some old =>
    have parts := ScriptValue.handles_perm (Table.perm_of_get? sorted taken)
    rw [ScriptValue.handles_cons] at parts
    refine dropValue_lends opened (lends.perm (List.perm_iff_count.mpr fun id => ?_))
    have before := parts.count_eq id
    have after := put.count_eq id
    simp only [List.count_append] at before after ⊢
    omega

mutual

theorem scripting_lending (ty : TypeEncoding) (v : NativeValue) :
    Lending s v.handles ScriptValue.handles (scripting false ty v) := by
  rw [scripting.eq_def]
  split
  · exact mismatch_lending opened v ty _
  · cases v with
    | void | bool | f32 | f64 => exact (Quiet.pure rfl).lending
    | int kind n held =>
      refine (Quiet.pure ?_).lending
      unfold ScriptValue.ofInt
      split <;> rfl
    | pointer address =>
      refine (Quiet.pure ?_).lending
      split <;> rfl
    | cstring bytes =>
      cases bytes with
      | none => exact (Quiet.pure rfl).lending
      | some bytes =>
        dsimp only
        split
        · exact (Quiet.pure rfl).lending
        · exact (Quiet.fail _).lending
    | object a =>
      dsimp only
      split
      · exact (Quiet.pure rfl).lending
      · exact wrap_lending opened a _
    | classRef cls =>
      cases cls with
      | none => exact (Quiet.pure rfl).lending
      | some id => exact (classObject_quiet id).lending
    | block block =>
      cases block with
      | none => exact (Quiet.pure rfl).lending
      | some block =>
        dsimp only
        split
        · exact functionOfBlock_lending block _
        · exact mismatch_lending opened _ _ _
    | struct values =>
      dsimp only
      split
      · refine .bind (forgo_lending opened (structLayout_quiet _ _ _) fun _ _ _ => rfl) fun layout => ?_
        have empty : (Table.mk ([] : List (String × ScriptValue))).Sorted := .nil
        have fields := scriptingFields_lending values layout empty
        rw [show (ScriptValue.record []).handles = [] from rfl,List.append_nil] at fields
        exact .bind fields fun fields => .pure (ScriptValue.record fields)
      · exact mismatch_lending opened _ _ _

-- The fields that are done and the values that are left are spent in any case: they become part of the record, or
-- they are dropped.
theorem scriptingFields_lending (values : List NativeValue) (layout : List Field) {done : List (String × ScriptValue)}
    (sorted : (Table.mk done).Sorted) :
    Lending s ((NativeValue.struct values).handles ++ (ScriptValue.record done).handles)
      (fun fields => (ScriptValue.record fields).handles) (scriptingFields done values layout) := by
  match values, layout with
  | [], _ | _ :: _, [] =>
    rw [scriptingFields.eq_def]
    exact fun _ _ lends => dropNative_lends opened (List.append_assoc .. ▸ lends)
  | v :: vs, field :: layout =>
    intro given b lends
    rw [NativeValue.handles_struct_cons,List.append_assoc,List.append_assoc] at lends
    have first := scripting_lending field.type v _ b lends
    rw [scriptingFields]
    dsimp only
    revert first
    rcases scripting false field.type v b with ⟨error | value,after⟩
    · exact fun left => dropValue_lends opened (dropNative_lends opened left)
    · intro left
      have moved : (value.handles ++ ((NativeValue.struct vs).handles ++ ((ScriptValue.record done).handles ++ given))).Perm
          ((value.handles ++ (ScriptValue.record done).handles) ++ ((NativeValue.struct vs).handles ++ given)) := by
        rw [List.append_assoc]
        exact (List.perm_append_comm_assoc _ _ _).append_left _
      have placed := putField_lending opened sorted field.name value _ after (left.perm moved)
      rw [putField_eq] at placed
      have swapped := placed.perm (List.perm_append_comm_assoc _ _ _)
      rw [← List.append_assoc] at swapped
      have rest := scriptingFields_lending vs layout (Table.put_sorted _ field.name value sorted) given _ swapped
      dsimp only
      rw [bind_eq (putField_eq done field.name value after)]
      exact rest

end

omit opened

theorem classOfInstance_uncounted (a : Address) (declared : Option DescriptorId) : Uncounted (classOfInstance a declared) := by
  intro b
  rcases classOfInstance_cases a declared b with ⟨e,memo,fails⟩ | ⟨cls,memo,serial,_,found⟩
  · rw [fails]
  · rw [found]

theorem wrap_uncounted (a : Address) (declared : Option DescriptorId) (owning : Bool) :
    Uncounted (wrap a declared owning) := by
  refine .bind (fun _ => rfl) fun seen => ?_
  cases seen with
  | some existing => exact .bind (.pure _) fun _ => .bind (fun _ => rfl) fun _ => .pure _
  | none => exact .bind (classOfInstance_uncounted a declared) fun _ => .bind (fun _ => rfl) fun _ => .pure _

mutual

theorem scripting_uncounted (owning : Bool) (ty : TypeEncoding) (v : NativeValue) : Uncounted (scripting owning ty v) := by
  rw [scripting.eq_def]
  split
  · exact .forgo v fun _ => rfl
  · cases v with
    | void | bool | f32 | f64 | int | pointer => exact .pure _
    | cstring bytes =>
      cases bytes with
      | none => exact .pure _
      | some bytes =>
        dsimp only
        split
        · exact .pure _
        · exact fun _ => rfl
    | object a =>
      dsimp only
      split
      · exact .pure _
      · exact wrap_uncounted a _ owning
    | classRef cls =>
      cases cls with
      | none => exact .pure _
      | some id => exact .bind (fun _ => rfl) fun _ => .pure _
    | block block =>
      cases block with
      | none => exact .pure _
      | some block =>
        dsimp only
        split
        · exact .bind (fun _ => rfl) fun _ => .pure _
        · exact .forgo _ fun _ => rfl
    | struct values =>
      dsimp only
      split
      · refine .bind (.forgo _ (structLayout_uncounted _ _ _)) fun layout => ?_
        exact .bind (scriptingFields_uncounted values layout []) fun _ => .pure _
      · exact .forgo _ fun _ => rfl

theorem scriptingFields_uncounted (values : List NativeValue) (layout : List Field) (done : List (String × ScriptValue)) :
    Uncounted (scriptingFields done values layout) := by
  match values, layout with
  | [], _ | _ :: _, [] =>
    rw [scriptingFields.eq_def]
    exact fun _ => rfl
  | v :: vs, field :: layout =>
    intro b
    have first := scripting_uncounted false field.type v b
    rw [scriptingFields]
    dsimp only
    revert first
    rcases scripting false field.type v b with ⟨error | value,after⟩
    · exact id
    · intro same
      dsimp only
      rw [bind_eq (putField_eq done field.name value after)]
      refine (scriptingFields_uncounted vs layout _ _).trans (Eq.trans ?_ same)
      split <;> rfl

end

end Effect

namespace Bridge

variable {b : Bridge} {n : NativeValue} {ty : TypeEncoding} {owning : Bool}

-- The reference that a result brings, if the instance has any left to give back.
def brought (b : Bridge) (n : NativeValue) (owning : Bool) : List Nat :=
  match n with
  | .object p => if owning && !p.isNull then b.heap.loses p else []
  | _ => []

end Bridge

namespace Effect

open Bridge (registryNumber)

variable {b after : Bridge} {n : NativeValue} {ty : TypeEncoding} {owning : Bool} {p : Address}

-- Whether a value brings a reference makes no difference to any but an instance.
theorem scripting_owning (plain : ∀ p, n ≠ .object p) : scripting owning ty n = scripting false ty n := by
  rw [scripting.eq_def,scripting.eq_def]
  cases n with
  | object p => exact absurd rfl (plain p)
  | cstring inner | classRef inner | block inner => cases inner <;> rfl
  | _ => rfl

theorem scripting_instance (filed : b.holdings.Filed) (pointer : p.isNull = false) (owning : Bool) (ty : TypeEncoding) :
    (∃ e memo, scripting owning ty (.object p) b = (.error e,{ b with memo := memo })) ∨
      ∃ cls memo serial, b.heap.serial? p = some serial ∧ scripting owning ty (.object p) b =
        (.ok (.object (b.holdings.wrapperFor registryNumber p cls owning).1),
          { b with memo := memo, holdings := (b.holdings.wrapperFor registryNumber p cls owning).2 }) := by
  rw [scripting]
  split
  · exact .inl ⟨_,b.memo,rfl⟩
  · rw [if_neg (by simp [pointer])]
    exact wrap_cases filed p _ owning

theorem scripting_null (null : p.isNull = true) (owning : Bool) (ty : TypeEncoding) (b : Bridge) :
    (∃ e, scripting owning ty (.object p) b = (.error e,b)) ∨ scripting owning ty (.object p) b = (.ok .null,b) := by
  rw [scripting]
  split
  · exact .inl ⟨_,rfl⟩
  · exact .inr rfl

theorem owned_plain (plain : ∀ p, n ≠ .object p) : toScriptingOwned n ty owning b =
    match scripting owning ty n b with
    | (.ok v,middle) => (.ok v,middle)
    | (.error e,middle) => (.error e,middle.noteConversionError) := by
  unfold toScriptingOwned
  cases n with
  | object p => exact absurd rfl (plain p)
  | _ => rfl

theorem owned_counts {e : BridgeError} (fails : toScriptingOwned n ty owning b = (.error e,after)) :
    after.conversionErrors = b.conversionErrors+1 := by
  have same := scripting_uncounted owning ty n b
  unfold toScriptingOwned at fails
  rcases run : scripting owning ty n b with ⟨failure | v,middle⟩
  · rw [run] at fails same
    cases fails
    refine (congrArg (·+1) ?_).trans (congrArg (·+1) same)
    cases n with
    | object p => dsimp only; split <;> rfl
    | _ => rfl
  · rw [run] at fails
    cases fails

theorem owned_error {e : BridgeError} (filed : b.holdings.Filed) (sound : b.heap.Sound)
    (opened : b.holdings.isOpen registryNumber) (spared : b.holdings.Spares n.handles)
    (fails : toScriptingOwned n ty owning b = (.error e,after)) :
    ∃ freed t, after.holdings = t.settle freed ∧
      Holdings.Traceless registryNumber (b.dropNative n).holdings (b.brought n owning) freed t := by
  by_cases plain : ∀ p, n ≠ .object p
  · have sheds := Holdings.drops_shed filed n.wrappers spared
    have out := sheds.lends filed spared registryNumber
    have left := scripting_lending (out.opened.mp opened) ty n [] b (List.append_nil _ ▸ out)
    have nothing : b.brought n owning = [] := by
      cases n with
      | object p => exact absurd rfl (plain p)
      | _ => rfl
    rw [owned_plain plain,scripting_owning plain] at fails
    rcases run : scripting false ty n b with ⟨failure | v,middle⟩
    · rw [run] at fails left
      cases fails
      have traceless := Holdings.Lends.traceless left (sheds.heap.symm ▸ sound)
      exact ⟨[],middle.holdings,(Holdings.settle_nil _).symm,nothing ▸ traceless⟩
    · rw [run] at fails
      cases fails
  · obtain ⟨p,rfl⟩ := not_forall_not.mp plain
    change ∃ freed t, after.holdings = Holdings.settle t freed ∧
      Holdings.Traceless registryNumber b.holdings (b.brought (.object p) owning) freed t
    have failed {cause : BridgeError} (memo : Memo)
        (refused : scripting owning ty (.object p) b = (.error cause,{ b with memo := memo })) :
        ∃ freed t, after.holdings = Holdings.settle t freed ∧
          Holdings.Traceless registryNumber b.holdings (b.brought (.object p) owning) freed t := by
      unfold toScriptingOwned at fails
      rw [refused] at fails
      dsimp only at fails
      unfold Bridge.brought
      dsimp only
      split at fails
      · rename_i owed
        cases fails
        rw [if_pos owed]
        exact ⟨_,_,rfl,Holdings.release_traceless filed sound registryNumber p⟩
      · rename_i owes
        cases fails
        rw [if_neg owes]
        exact ⟨[],b.holdings,(Holdings.settle_nil _).symm,(Holdings.Lends.refl registryNumber filed).traceless sound⟩
    have converted {v : ScriptValue} {middle : Bridge} (wraps : scripting owning ty (.object p) b = (.ok v,middle)) : False := by
      unfold toScriptingOwned at fails
      rw [wraps] at fails
      cases fails
    cases null : p.isNull with
    | true =>
      rcases scripting_null null owning ty b with ⟨cause,refused⟩ | wraps
      · exact failed b.memo refused
      · exact absurd wraps converted
    | false =>
      rcases scripting_instance filed null owning ty with ⟨cause,memo,refused⟩ | ⟨_,_,_,_,wraps⟩
      · exact failed memo refused
      · exact absurd wraps converted

theorem owned_ok {v : ScriptValue} (succeeds : toScriptingOwned n ty owning b = (.ok v,after)) :
    scripting owning ty n b = (.ok v,after) := by
  unfold toScriptingOwned at succeeds
  rcases run : scripting owning ty n b with ⟨e | x,middle⟩
  · rw [run] at succeeds
    cases succeeds
  · rw [run] at succeeds
    exact succeeds

end Effect

namespace Bridge

variable {b : Bridge}

-- Code in a result goes with it, and the handles that it has captured go with the code. They are no trace as long as
-- none of them is a wrapper's last. If the conversion succeeds nothing is given back on top of what the wrapper takes.
theorem unconverted_result_leaves_no_trace (lived : b.Lived) (opened : b.isOpen = true) (n : NativeValue)
    (ty : TypeEncoding) (owning : Bool) :
    (∀ e after, Effect.toScriptingOwned n ty owning b = (.error e,after) →
      after.conversionErrors = b.conversionErrors+1 ∧ (b.holdings.Spares n.handles →
        b.holdings.Sheds n.handles (b.dropNative n).holdings ∧
        (∀ home a, (b.dropNative n).holdings.lookup? home a = b.holdings.lookup? home a) ∧
        ∃ freed t, after.holdings = t.settle freed ∧
          Holdings.Traceless registryNumber (b.dropNative n).holdings (b.brought n owning) freed t)) ∧
    ∀ v after, Effect.toScriptingOwned n ty owning b = (.ok v,after) →
      after.conversionErrors = b.conversionErrors ∧ ∀ p, n = .object p → p.isNull = false →
        ∃ w, v = .object w ∧ w.address = p ∧ b.heap.serial? p = some w.serial ∧
          Holdings.Receives b.holdings w owning after.holdings := by
  have standing := lived.reached.standing opened
  have filed := lived.filed
  refine ⟨fun e after fails => ⟨Effect.owned_counts fails,fun spared => ?_⟩,fun v after succeeds => ?_⟩
  · have sheds := Holdings.drops_shed filed n.wrappers spared
    exact ⟨sheds,sheds.lookup? spared,Effect.owned_error filed standing.heap standing.opened spared fails⟩
  · have converted := Effect.owned_ok succeeds
    have uncounted := Effect.scripting_uncounted owning ty n b
    rw [converted] at uncounted
    refine ⟨uncounted,?_⟩
    rintro p rfl pointer
    rcases Effect.scripting_instance filed pointer owning ty with ⟨cause,memo,refused⟩ | ⟨cls,memo,serial,live,wraps⟩
    · cases converted.symm.trans refused
    · cases converted.symm.trans wraps
      obtain ⟨here,current,receives⟩ := Holdings.wrapperFor_receives filed standing.heap standing.opened cls live owning
      exact ⟨_,rfl,here,current.symm ▸ live,receives⟩

-- A class at 64, and a structure at 88 of an instance of it and a text.
def pairFile : Array UInt8 :=
  #[0x4d,0x42,0x4d,0x44,1,0,0,0,32,0,0,0,12,0,0,0,44,0,0,0,64,0,0,0,74,0,0,0,138,0,0,0,
    1,0,0x41,1,0,0x50,1,0,0x6f,1,0,0x74, 2,0,0,0,32,0,0,0,64,0,0,0,35,0,0,0,88,0,0,0,
    1,0,0,0,32,0,0,0,255,255,255,255,100,0,0,0,104,0,0,0,108,0,0,0, 3,0,0,0,35,0,0,0,126,0,0,0,
    0,0,0,0,0,0,0,0,0,0,0,0, 38,0,0,0,13,64,0,0,0,41,0,0,0,12, 2,0,0,0,112,0,0,0,121,0,0,0]

def paired : Metadata := ⟨1,⟨pairFile,⟨32,44⟩,⟨44,64⟩,⟨64,138⟩⟩,⟨[(64,()),(88,())]⟩⟩

-- A program with a class of that name, and one instance of it that nobody has wrapped.
def pairNatives : ClassTable := ⟨[⟨"A",some ⟨0⟩,.empty,.empty⟩,ClassTable.root]⟩

def peopled : Bridge :=
  let b : Bridge := { Bridge.opened paired [] .empty with natives := pairNatives }
  { b with holdings := { b.holdings with heap := (b.heap.allocate ⟨1⟩ none).2 } }

def brokenPair : NativeValue := .struct [.object ⟨0x1000⟩,.cstring (some [0xff])]

theorem pairFile_accepted : Metadata.ofBytes pairFile = .ok paired := by cbv

theorem brokenPair_fails : (Effect.toScriptingOwned brokenPair (.struct ⟨88⟩) true peopled).1.toOption.isNone = true := by
  cbv

theorem brokenPair_makes : (Effect.toScriptingOwned brokenPair (.struct ⟨88⟩) true peopled).2.holdings.nextWrapper = 1 := by
  cbv

theorem peopled_lived : peopled.Lived := by
  have accepted : ClassTable.initial.register ⟨"A",none,.empty,.empty⟩ = .ok (⟨1⟩,pairNatives) := rfl
  have known : pairNatives.name? ⟨1⟩ = some "A" := rfl
  have registered := Relation.ReflTransGen.refl.tail (Act.aside (.register (b := opened paired [] .empty) accepted) rfl)
  exact ⟨paired,[],.empty,registered.tail (.allocate known none)⟩

def speaker : Wrapper := ⟨0,⟨0x1000⟩,1,Scene.bareClass,registryNumber⟩

-- The instance has a wrapper now, which does not own it, with one handle.
def spoken : Bridge :=
  { peopled with holdings := (peopled.holdings.wrapperFor registryNumber ⟨0x1000⟩ Scene.bareClass false).2 }

-- Native code that has captured a handle of the wrapper.
def capturing : NativeValue := .block (some (.native 0 0 ⟨"void"⟩ [speaker]))

theorem spoken_lived : spoken.Lived := by
  obtain ⟨metadata,registries,functions,acts⟩ := peopled_lived
  exact ⟨metadata,registries,functions,acts.tail (.deed (.wrapperFor registryNumber ⟨0x1000⟩ Scene.bareClass false))⟩

def shared : Bridge := { spoken with holdings := spoken.holdings.cloneHandle speaker }

theorem shared_lived : shared.Lived := by
  obtain ⟨metadata,registries,functions,acts⟩ := spoken_lived
  exact ⟨metadata,registries,functions,acts.tail (.deed (.cloneHandle speaker))⟩

-- The instance of the pair is wrapped before the text turns out to be none. An instance that comes as a text dies of
-- it, if it brings its only reference. Code that comes as a text lets go of the handle that it has captured, and the
-- wrapper has another.
set_option maxRecDepth 4000 in
theorem broken_pair_unwound : Metadata.ofBytes pairFile = .ok paired ∧
    (∃ e after freed t, Effect.toScriptingOwned brokenPair (.struct ⟨88⟩) true peopled = (.error e,after) ∧
      after.holdings = t.settle freed ∧ after.holdings.nextWrapper = 1 ∧
        Holdings.Traceless registryNumber peopled.holdings [] freed t) ∧
    (∃ e after freed t, Effect.toScriptingOwned (.object ⟨0x1000⟩) (.scalar .string) true peopled = (.error e,after) ∧
      after.holdings = t.settle freed ∧ after.heap.isLive ⟨0x1000⟩ = false ∧
        Holdings.Traceless registryNumber peopled.holdings [1] freed t) ∧
    ∃ e after, Effect.toScriptingOwned capturing (.scalar .string) false shared = (.error e,after) ∧
      shared.holdings.Spares capturing.handles ∧ after.holdings.handleCount speaker = 1 ∧
      (shared.dropNative capturing).holdings.lookup? registryNumber ⟨0x1000⟩ =
        shared.holdings.lookup? registryNumber ⟨0x1000⟩ := by
  refine ⟨pairFile_accepted,?_,?_,?_⟩
  · have fails := brokenPair_fails
    have made := brokenPair_makes
    rcases run : Effect.toScriptingOwned brokenPair (.struct ⟨88⟩) true peopled with ⟨e | v,after⟩
    · obtain ⟨_,left⟩ := (unconverted_result_leaves_no_trace peopled_lived rfl brokenPair (.struct ⟨88⟩) true).1 e after run
      obtain ⟨_,_,freed,t,settled,traceless⟩ := left fun _ member => nomatch member
      rw [run] at made
      exact ⟨e,after,freed,t,rfl,settled,made,traceless⟩
    · rw [run] at fails
      cases fails
  · obtain ⟨_,left⟩ :=
      (unconverted_result_leaves_no_trace peopled_lived rfl (.object ⟨0x1000⟩) (.scalar .string) true).1 _ _ rfl
    obtain ⟨_,_,freed,t,settled,traceless⟩ := left fun _ member => nomatch member
    exact ⟨_,_,freed,t,rfl,settled,rfl,traceless⟩
  · have spared : shared.holdings.Spares capturing.handles := by
      intro id member
      obtain rfl := List.mem_singleton.mp member
      exact ⟨_,rfl,by decide⟩
    obtain ⟨_,left⟩ := (unconverted_result_leaves_no_trace shared_lived rfl capturing (.scalar .string) false).1 _ _ rfl
    exact ⟨_,_,rfl,spared,rfl,(left spared).2.1 registryNumber ⟨0x1000⟩⟩

-- With the last handle of a wrapper, captured by code that is not converted, the wrapper goes, and none was made for
-- it. With the reference that an instance brings as its last, the instance goes, and nobody is found for it any more.
theorem last_handle_goes_with_result : spoken.Lived ∧ spoken.isOpen = true ∧
    spoken.holdings.lookup? registryNumber ⟨0x1000⟩ = some speaker ∧
    (∃ e after, Effect.toScriptingOwned capturing (.scalar .string) false spoken = (.error e,after) ∧
      after.heap.isLive ⟨0x1000⟩ = true ∧ after.holdings.lookup? registryNumber ⟨0x1000⟩ = none ∧
      (after.registryStats? registryNumber).map (fun g => (g.created,g.released)) = some (1,1) ∧
      (spoken.registryStats? registryNumber).map (fun g => (g.created,g.released)) = some (1,0)) ∧
    ∃ e after, Effect.toScriptingOwned (.object ⟨0x1000⟩) (.scalar .string) true spoken = (.error e,after) ∧
      after.holdings.lookup? registryNumber ⟨0x1000⟩ = none :=
  ⟨spoken_lived,rfl,rfl,⟨_,_,rfl,rfl,rfl,rfl,rfl⟩,_,_,rfl,rfl⟩

end Bridge
end ObjectBridge
