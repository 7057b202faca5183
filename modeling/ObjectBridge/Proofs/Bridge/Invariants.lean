import ObjectBridge.Proofs.Bridge.Moves

namespace ObjectBridge

namespace Bridge

variable {I : Bridge → Prop} {b : Bridge}

theorem metadata_invariant (m : Metadata) : Invariant fun b => b.metadata = m := by
  intro b b' move same
  cases move <;> exact same

-- Moves that have to do with one wrapper of a list after the other.
theorem Invariant.fold (invariant : Invariant I) {f : Holdings → Wrapper → Holdings}
    (changes : ∀ s w, Holdings.Change s (f s w)) (ws : List Wrapper) (holds : I b) :
    I { b with holdings := ws.foldl f b.holdings } := by
  induction ws generalizing b with
  | nil => exact holds
  | cons w rest ih => exact ih (invariant _ _ (.change (changes b.holdings w)) holds)

theorem Invariant.cloneValue (invariant : Invariant I) (v : ScriptValue) (holds : I b) : I (b.cloneValue v) :=
  invariant.fold (fun _ w => .cloneHandle w) _ holds

theorem Invariant.dropValue (invariant : Invariant I) (v : ScriptValue) (holds : I b) : I (b.dropValue v) :=
  invariant.fold (fun _ w => .drop w) _ holds

theorem Invariant.dropValues (invariant : Invariant I) (vs : List ScriptValue) (holds : I b) : I (b.dropValues vs) := by
  unfold Bridge.dropValues
  induction vs generalizing b with
  | nil => exact holds
  | cons v rest ih => exact ih (invariant.dropValue v holds)

theorem Invariant.cloneNative (invariant : Invariant I) (v : NativeValue) (holds : I b) : I (b.cloneNative v) :=
  invariant.fold (fun _ w => .cloneHandle w) _ holds

theorem Invariant.dropNative (invariant : Invariant I) (v : NativeValue) (holds : I b) : I (b.dropNative v) :=
  invariant.fold (fun _ w => .drop w) _ holds

end Bridge

open Bridge (Invariant)

namespace Effect

def Preserves (I : Bridge → Prop) (e : Effect α) : Prop := ∀ b, I b → I (e b).2

variable {I : Bridge → Prop} {e : Effect α} {f : α → Effect β}

theorem Preserves.pure (a : α) : Preserves I (Pure.pure a) := fun _ holds => holds

theorem Preserves.fail (error : BridgeError) : Preserves I (Effect.fail error : Effect α) := fun _ holds => holds

theorem Preserves.bind (one : Preserves I e) (rest : ∀ a, Preserves I (f a)) : Preserves I (e >>= f) := by
  intro b holds
  have middle := one b holds
  change I (ExceptT.bindCont f (e b).1 (e b).2).2
  revert middle
  rcases e b with ⟨error | a,after⟩
  · exact id
  · exact rest a after

theorem Preserves.located (one : Preserves I e) (site : String) (place : Option Nat) : Preserves I (located site place e) :=
  fun b holds => one b holds

section Moves

variable (invariant : Invariant I)

include invariant

-- Whatever is built, the memo is the one that it was or one that a request for a class has left.
theorem synthesis_preserves (build : Synthesis.Source → Memo → Synthesis.Outcome α)
    (asks : ∀ source memo, (build source memo).2 = memo ∨ ∃ id, (build source memo).2 = (Synthesis.classOf source id memo).2) :
    Preserves I (synthesis build) := by
  intro b holds
  change I { b with memo := (build b.source b.memo).2 }
  rcases asks b.source b.memo with same | ⟨id,asked⟩
  · rw [same]
    exact holds
  · rw [asked]
    exact invariant _ _ (.ask id) holds

theorem synthesize_preserves (id : DescriptorId) : Preserves I (synthesize id) :=
  synthesis_preserves invariant _ fun _ _ => .inr ⟨id,rfl⟩

theorem synthesizeNamed_preserves (name : String) : Preserves I (synthesizeNamed name) := by
  refine synthesis_preserves invariant _ fun source memo => ?_
  unfold Synthesis.classNamed
  split
  · exact .inr ⟨_,rfl⟩
  · exact .inl rfl

theorem classAt_preserves (heap : Heap) (a : Address) (declared : Option DescriptorId) :
    Preserves I (synthesis fun source => Synthesis.classOfInstance source heap a declared) := by
  refine synthesis_preserves invariant _ fun source memo => ?_
  unfold Synthesis.classOfInstance
  dsimp only
  split
  · exact .inr ⟨_,rfl⟩
  · split
    · exact .inr ⟨_,rfl⟩
    · exact .inl rfl

theorem freshIdentity_preserves : Preserves I freshIdentity := fun _ holds => invariant _ _ .identify holds

theorem onHoldings_preserves {g : Holdings → α × Holdings} (changes : ∀ s, (g s).2 = s ∨ Holdings.Change s (g s).2) :
    Preserves I (onHoldings g) := by
  intro b holds
  change I { b with holdings := (g b.holdings).2 }
  rcases changes b.holdings with same | change
  · rw [same]
    exact holds
  · exact invariant _ _ (.change change) holds

theorem dropValue_preserves (v : ScriptValue) : Preserves I (dropValue v) := fun _ holds => invariant.dropValue v holds

theorem toNative_preserves (v : ScriptValue) (ty : TypeEncoding) : Preserves I (toNative v ty) := by
  intro b holds
  unfold toNative
  split
  · exact holds
  · exact invariant _ _ .countConversionError holds

theorem toNativeOwned_preserves (v : ScriptValue) (ty : TypeEncoding) : Preserves I (toNativeOwned v ty) := by
  intro b holds
  have converted := toNative_preserves invariant v ty b holds
  unfold toNativeOwned
  revert converted
  rcases toNative v ty b with ⟨error | n,after⟩
  · exact id
  · exact invariant.cloneNative n

theorem frame_preserves (member : String) (params : List TypeEncoding) (args : List ScriptValue) :
    Preserves I (frame member params args) := by
  unfold frame
  generalize 0 = first
  induction args generalizing params first with
  | nil => exact .pure _
  | cons v rest ih =>
    cases params with
    | nil => exact .pure _
    | cons ty types =>
      refine .bind ((toNative_preserves invariant v ty).located member (some first)) fun n => ?_
      exact .bind (ih types (first+1)) fun _ => .pure _

theorem wrapperFor_preserves (a : Address) (cls : SynthesizedClass) (owning : Bool) : Preserves I (wrapperFor a cls owning) :=
  onHoldings_preserves invariant fun _ => .inr (.wrapperFor _ a cls owning)

theorem classOfInstance_preserves (a : Address) (declared : Option DescriptorId) :
    Preserves I (classOfInstance a declared) := by
  intro b holds
  unfold classOfInstance
  split
  · exact classAt_preserves invariant b.heap a declared b holds
  · exact holds

theorem wrap_preserves (a : Address) (declared : Option DescriptorId) (owning : Bool) : Preserves I (wrap a declared owning) := by
  have wrapped (cls : SynthesizedClass) : Preserves I (do return ScriptValue.object (← wrapperFor a cls owning)) :=
    .bind (wrapperFor_preserves invariant a cls owning) fun _ => .pure _
  refine .bind (fun _ holds => holds) fun existing => ?_
  cases existing with
  | none => exact .bind (classOfInstance_preserves invariant a declared) wrapped
  | some w => exact .bind (.pure w.cls) wrapped

theorem classObject_preserves (id : ClassId) : Preserves I (classObject id) := by
  intro b holds
  have named : Preserves I (do return ScriptValue.constructor (← synthesizeNamed ((b.natives.name? id).getD ""))) :=
    .bind (synthesizeNamed_preserves invariant _) fun _ => .pure _
  exact named b holds

theorem functionOfBlock_preserves (block : NativeBlock) (signature : CallSignature) :
    Preserves I (functionOfBlock block signature) :=
  .bind (freshIdentity_preserves invariant) fun _ => .pure _

omit invariant in
theorem structLayout_preserves (id : DescriptorId) (ty : TypeEncoding) (given : Nat) : Preserves I (structLayout id ty given) := by
  intro b holds
  unfold structLayout
  dsimp only
  split
  · exact holds
  · split <;> exact holds

omit invariant in
theorem mismatch_preserves (ty : TypeEncoding) (actual : String) : Preserves I (mismatch ty actual : Effect α) :=
  fun _ holds => holds

theorem putField_preserves (done : List (String × ScriptValue)) (name : String) (v : ScriptValue) :
    Preserves I (putField done name v) := by
  unfold putField
  split
  · exact .bind (dropValue_preserves invariant _) fun _ => .pure _
  · exact .pure _

theorem forgo_preserves (v : NativeValue) (one : Preserves I e) : Preserves I (forgo v e) := by
  intro b holds
  have middle := one b holds
  unfold forgo
  revert middle
  rcases e b with ⟨error | a,after⟩
  · exact invariant.dropNative v
  · exact id

mutual

theorem scripting_preserves (owning : Bool) (ty : TypeEncoding) (v : NativeValue) : Preserves I (scripting owning ty v) := by
  rw [scripting.eq_def]
  split
  · exact forgo_preserves invariant v (mismatch_preserves _ _)
  · cases v with
    | void | bool | int | f32 | f64 | pointer => exact .pure _
    | cstring bytes =>
      cases bytes with
      | none => exact .pure _
      | some bytes =>
        dsimp only
        split
        · exact .pure _
        · exact .fail _
    | object a =>
      dsimp only
      split
      · exact .pure _
      · exact wrap_preserves invariant a _ owning
    | classRef cls =>
      cases cls with
      | none => exact .pure _
      | some id => exact classObject_preserves invariant id
    | block block =>
      cases block with
      | none => exact .pure _
      | some block =>
        dsimp only
        split
        · exact functionOfBlock_preserves invariant block _
        · exact forgo_preserves invariant _ (mismatch_preserves _ _)
    | struct values =>
      dsimp only
      split
      · refine .bind (forgo_preserves invariant _ (structLayout_preserves _ _ _)) fun layout => ?_
        exact .bind (scriptingFields_preserves [] values layout) fun _ => .pure _
      · exact forgo_preserves invariant _ (mismatch_preserves _ _)

theorem scriptingFields_preserves (done : List (String × ScriptValue)) (vs : List NativeValue) (layout : List Field) :
    Preserves I (scriptingFields done vs layout) := by
  match vs, layout with
  | [], _ | _ :: _, [] => 
    rw [scriptingFields.eq_def]
    exact fun _ holds => invariant.dropNative _ holds
  | v :: vs, field :: layout =>
    intro b holds
    have first := scripting_preserves false field.type v b holds
    rw [scriptingFields]
    dsimp only
    revert first
    rcases scripting false field.type v b with ⟨error | value,after⟩
    · exact fun first => invariant.dropValue _ (invariant.dropNative _ first)
    · have rest : Preserves I (do scriptingFields (← putField done field.name value) vs layout) :=
        .bind (putField_preserves invariant done field.name value) fun done => scriptingFields_preserves done vs layout
      exact rest after

end

theorem toScriptingOwned_preserves (v : NativeValue) (ty : TypeEncoding) (owning : Bool) :
    Preserves I (toScriptingOwned v ty owning) := by
  intro b holds
  have converted := scripting_preserves invariant owning ty v b holds
  unfold toScriptingOwned
  revert converted
  rcases scripting owning ty v b with ⟨error | value,after⟩
  · intro converted
    refine invariant _ _ .countConversionError ?_
    cases v with
    | object a =>
      dsimp only
      split
      · exact invariant _ _ (.change (.releaseAddress a)) converted
      · exact converted
    | _ => exact converted
  · exact id

theorem toScripting_preserves (v : NativeValue) (ty : TypeEncoding) : Preserves I (toScripting v ty) :=
  toScriptingOwned_preserves invariant v ty false

theorem toScriptingShared_preserves (v : NativeValue) (ty : TypeEncoding) : Preserves I (toScriptingShared v ty) :=
  fun b holds => toScripting_preserves invariant v ty (b.cloneNative v) (invariant.cloneNative v holds)

theorem global_preserves (name : String) : Preserves I (global name) := by
  have cls (id : DescriptorId) : Preserves I (do return ScriptValue.constructor (← synthesize id)) :=
    .bind (synthesize_preserves invariant id) fun _ => .pure _
  have function : Preserves I (do return ScriptValue.function (.global (← freshIdentity) name)) :=
    .bind (freshIdentity_preserves invariant) fun _ => .pure _
  intro b holds
  unfold global
  split
  · exact cls _ b holds
  · exact cls _ b holds
  · exact function b holds
  · exact holds
  · exact holds

end Moves

end Effect

-- A run that comes to an end, whether with an answer or with an error.
def Run.Preserves {σ α : Type} (I : Bridge → Prop) (run : Run σ α) : Prop :=
  ∀ w a after, I w.bridge → run w = some (a,after) → I after.bridge

structure Host.Preserves {σ : Type} (I : Bridge → Prop) (host : Host σ) : Prop where
  perform : ∀ body frame, (host.perform body frame).Preserves I
  written : ∀ body args, (host.written body args).run.Preserves I

namespace Run.Preserves

variable {σ ε α β : Type} {I : Bridge → Prop}

theorem pure (a : α) : (Pure.pure a : Run σ α).Preserves I := by
  rintro w _ _ holds ⟨⟩
  exact holds

theorem bind {run : Run σ α} {f : α → Run σ β} (one : run.Preserves I) (rest : ∀ a, (f a).Preserves I) :
    (run >>= f).Preserves I := by
  intro w b after holds ends
  obtain ⟨⟨a,middle⟩,first,second⟩ := Option.bind_eq_some_iff.mp ends
  exact rest a middle b after (one w a middle holds first) second

theorem onBridge {f : Bridge → α × Bridge} (each : ∀ b, I b → I (f b).2) : (Run.onBridge f : Run σ α).Preserves I := by
  rintro w _ _ holds ⟨⟩
  exact each _ holds

theorem readBridge (f : Bridge → α) : (Run.readBridge f : Run σ α).Preserves I := by
  rintro w _ _ holds ⟨⟩
  exact holds

theorem answer (a : α) : (Pure.pure a : ExceptT ε (Run σ) α).run.Preserves I := .pure _

theorem throw (e : ε) : (MonadExcept.throw e : ExceptT ε (Run σ) α).run.Preserves I := .pure _

theorem lift {run : Run σ α} (one : run.Preserves I) : (ExceptT.lift run : ExceptT ε (Run σ) α).run.Preserves I :=
  one.bind fun _ => .pure _

theorem seq {c : ExceptT ε (Run σ) α} {f : α → ExceptT ε (Run σ) β} (one : c.run.Preserves I)
    (rest : ∀ a, (f a).run.Preserves I) : (c >>= f).run.Preserves I := by
  refine one.bind fun result => ?_
  cases result with
  | error e => exact .pure _
  | ok a => exact rest a

theorem mapped {run : Run σ (Except ε α)} {ε' : Type} {f : ε → ε'} (one : run.Preserves I) :
    (ExceptT.mk (do return (← run).mapError f) : ExceptT ε' (Run σ) α).run.Preserves I :=
  one.bind fun _ => .pure _

theorem ofEffect {e : Effect α} (one : e.Preserves I) : (Call.ofEffect e : Call σ α).run.Preserves I := .onBridge one

end Run.Preserves

section Hosts

variable {σ : Type} {I : Bridge → Prop} (invariant : Invariant I)

include invariant

theorem Run.dropValue_preserves (v : ScriptValue) : (Run.dropValue v : Run σ Unit).Preserves I :=
  .onBridge fun _ holds => invariant.dropValue v holds

theorem Run.dropValues_preserves (vs : List ScriptValue) : (Run.dropValues vs : Run σ Unit).Preserves I :=
  .onBridge fun _ holds => invariant.dropValues vs holds

theorem Run.dropNative_preserves (v : NativeValue) : (Run.dropNative v : Run σ Unit).Preserves I :=
  .onBridge fun _ holds => invariant.dropNative v holds

theorem Call.noteNativeCall_preserves : (Call.noteNativeCall : Call σ Unit).run.Preserves I :=
  .lift (.onBridge fun _ holds => invariant _ _ .countNativeCall holds)

namespace Host

variable {host : Host σ} (keeps : host.Preserves I)

include keeps

omit invariant in
theorem enter_preserves (body : Routine) (arity : Nat) (frame : Frame) : (host.enter body arity frame).Preserves I := by
  unfold enter
  split
  · exact (keeps.perform body frame).bind fun _ => .pure _
  · exact .pure _

omit invariant in
theorem send_preserves (receiver : Receiver) (selector : String) (args : List NativeValue) :
    (host.send receiver selector args).Preserves I := by
  refine (Run.Preserves.readBridge _).bind fun target => ?_
  cases target with
  | ok body => exact enter_preserves keeps body _ _
  | error e => exact .pure _

omit invariant in
theorem callPlain_preserves (name : String) (args : List NativeValue) : (host.callPlain name args).Preserves I := by
  refine (Run.Preserves.readBridge _).bind fun function => ?_
  cases function with
  | some f => exact enter_preserves keeps f.body f.arity _
  | none => exact .pure _

theorem callFunction_preserves (name : String) (args : List ScriptValue) :
    (host.callFunction name args).run.Preserves I := by
  refine .seq (.lift (.readBridge _)) fun metadata => ?_
  split
  · split
    · exact .throw _
    · refine .seq (.ofEffect (Effect.frame_preserves invariant _ _ _)) fun frame => ?_
      refine .seq (Call.noteNativeCall_preserves invariant) fun _ => ?_
      refine .seq (callPlain_preserves keeps _ _).mapped fun result => ?_
      exact (Run.Preserves.ofEffect (Effect.toScripting_preserves invariant _ _)).mapped
  · exact .throw _

omit keeps in
theorem callbackArgs_preserves (member : String) (index : Nat) (done : List ScriptValue) (vs : List NativeValue)
    (types : List TypeEncoding) : (callbackArgs member index done vs types : Call σ _).run.Preserves I := by
  induction vs generalizing index done types with
  | nil => exact .answer _
  | cons v rest ih =>
    cases types with
    | nil => exact .answer _
    | cons ty types =>
      have converted := Run.Preserves.mapped (σ := σ) (f := (·.located member (some index)))
        (Run.Preserves.ofEffect (Effect.toScriptingShared_preserves invariant v ty))
      refine converted.bind fun result => ?_
      cases result with
      | ok value => exact ih _ _ types
      | error e => exact (Run.dropValues_preserves invariant done).bind fun _ => .pure _

mutual

theorem callScript_preserves (function : ScriptFunction) (args : List ScriptValue) :
    (callScript host function args).run.Preserves I := by
  match function with
  | .written _ name arity body _ =>
    rw [callScript.eq_def]
    dsimp only
    split
    · split
      · exact keeps.written body args
      · exact .throw _
    · exact keeps.written body args
  | .global _ name =>
    rw [callScript]
    refine .seq (.lift (.readBridge _)) fun isOpen => ?_
    split
    · exact callFunction_preserves invariant keeps name args
    · exact .throw _
  | .ofBlock _ block signature =>
    rw [callScript]
    split
    · exact .throw _
    · refine .seq (.lift (.readBridge _)) fun isOpen => ?_
      split
      · refine .seq (.ofEffect (Effect.frame_preserves invariant _ _ _)) fun frame => ?_
        refine .seq (invokeBlock_preserves block frame).mapped fun result => ?_
        exact (Run.Preserves.ofEffect (Effect.toScripting_preserves invariant _ _)).mapped
      · exact .throw _

theorem invokeBlock_preserves (block : NativeBlock) (args : List NativeValue) :
    (invokeBlock host block args).Preserves I := by
  match block with
  | .native _ arity body _ =>
    rw [invokeBlock]
    exact enter_preserves keeps body arity _
  | .ofFunction function signature =>
    rw [invokeBlock]
    split
    · exact .pure _
    · refine (Run.Preserves.readBridge _).bind fun isOpen => ?_
      split
      · refine (callbackArgs_preserves invariant _ 0 [] args signature.params).bind fun values => ?_
        cases values with
        | error e => exact .pure _
        | ok values =>
          refine (callScript_preserves function values).bind fun result => ?_
          cases result with
          | error e => exact (Run.dropValues_preserves invariant values).bind fun _ => .pure _
          | ok result =>
            refine (Run.Preserves.ofEffect (Effect.toNativeOwned_preserves invariant result _)).bind fun native => ?_
            refine (Run.dropValue_preserves invariant result).bind fun _ => ?_
            refine (Run.dropValues_preserves invariant values).bind fun _ => ?_
            cases native <;> exact .pure _
      · exact .pure _

end

omit invariant keeps in
theorem checkArity_preserves (method : MethodEntry) (args : List ScriptValue) :
    (checkArity method args : Call σ Unit).run.Preserves I := by
  unfold checkArity
  split
  · exact .seq (.lift (.readBridge _)) fun _ => .throw _
  · exact .answer _

omit invariant keeps in
theorem receiverOf_preserves (method : MethodEntry) (target : Target) :
    (receiverOf method target : Call σ Receiver).run.Preserves I := by
  unfold receiverOf
  split
  · refine .seq (.lift (.readBridge _)) fun holdings => ?_
    split
    · exact .throw _
    · split
      · exact .throw _
      · exact .answer _
  · split
    · exact .answer _
    · exact .throw _

theorem invoke_preserves (method : MethodEntry) (target : Target) (args : List ScriptValue) :
    (host.invoke method target args).run.Preserves I := by
  refine .seq (checkArity_preserves method args) fun _ => ?_
  refine .seq (.ofEffect (Effect.frame_preserves invariant _ _ _)) fun frame => ?_
  refine .seq (receiverOf_preserves method target) fun receiver => ?_
  refine .seq (Call.noteNativeCall_preserves invariant) fun _ => ?_
  refine .seq (send_preserves keeps receiver _ frame).mapped fun result => ?_
  exact (Run.Preserves.ofEffect (Effect.toScriptingOwned_preserves invariant _ _ _)).mapped

theorem callMethod_preserves (w : Wrapper) (name : String) (args : List ScriptValue) :
    (host.callMethod w name args).run.Preserves I := by
  unfold callMethod
  split
  · exact invoke_preserves invariant keeps _ _ args
  · exact .throw _

theorem callStatic_preserves (c : SynthesizedClass) (name : String) (args : List ScriptValue) :
    (host.callStatic c name args).run.Preserves I := by
  unfold callStatic
  split
  · exact invoke_preserves invariant keeps _ _ args
  · exact .throw _

theorem getProperty_preserves (target : Target) (name : String) : (host.getProperty target name).run.Preserves I := by
  unfold getProperty
  split
  · exact invoke_preserves invariant keeps _ target []
  · exact .throw _

theorem setProperty_preserves (target : Target) (name : String) (value : ScriptValue) :
    (host.setProperty target name value).run.Preserves I := by
  unfold setProperty
  split
  · exact .throw _
  · split
    · split
      · exact .throw _
      · refine .seq (invoke_preserves invariant keeps _ target [value]) fun result => ?_
        exact .lift (Run.dropValue_preserves invariant result)
    · exact .throw _

omit keeps in
theorem allocate_preserves (cls : ClassId) (place : Option Address) :
    (allocate cls place : Run σ (Except CallError Address)).Preserves I := by
  refine .onBridge fun b holds => ?_
  dsimp only
  split
  · exact holds
  · rename_i name known
    exact invariant _ _ (.allocate known place) holds

theorem constructWith_preserves (c : SynthesizedClass) (init : MethodEntry) (args : List ScriptValue) :
    (host.constructWith c init args).run.Preserves I := by
  have giveBack (a : Address) : ((ExceptT.lift (Run.onBridge fun b =>
      ((),{ b with holdings := (b.holdings.releaseAddress a).2 }))) : Call σ Unit).run.Preserves I :=
    .lift (.onBridge fun b holds => invariant _ _ (.change (.releaseAddress a)) holds)
  unfold constructWith
  split
  · refine .seq (checkArity_preserves init args) fun _ => ?_
    refine .seq (.ofEffect (Effect.frame_preserves invariant _ _ _)) fun frame => ?_
    refine .seq (allocate_preserves invariant _ none).mapped fun a => ?_
    refine .seq (Call.noteNativeCall_preserves invariant) fun _ => ?_
    refine .seq (.lift (send_preserves keeps (.instance a) _ frame)) fun result => ?_
    cases result with
    | error e => exact .seq (giveBack a) fun _ => .throw _
    | ok result =>
      dsimp only
      split
      · exact .seq (.lift (Run.dropNative_preserves invariant result)) fun _ => .throw _
      · refine .seq (Run.Preserves.ofEffect (Effect.toScriptingOwned_preserves invariant _ _ _)).mapped fun value => ?_
        cases value with
        | object w => exact .answer _
        | _ => exact .seq (giveBack _) fun _ => .throw _
  · exact .throw _

theorem construct_preserves (c : SynthesizedClass) (args : List ScriptValue) :
    (host.construct c args).run.Preserves I := by
  unfold construct
  split
  · exact constructWith_preserves invariant keeps c _ args
  · split
    · exact constructWith_preserves invariant keeps c _ args
    · exact .seq (.lift (.readBridge _)) fun _ => .throw _

end Host

end Hosts
end ObjectBridge
