import ObjectBridge.Proofs.Bridge.Invariants
import ObjectBridge.Proofs.Outcome
import ObjectBridge.Session.Run

namespace ObjectBridge

open Bridge (Invariant)
open Run (Preserves)

variable {I : Bridge → Prop} (invariant : Invariant I)

include invariant

namespace Repertoire

variable {σ : Type}

theorem onHeap_preserves {f : Heap → α × Heap} (changes : ∀ s : Holdings, Holdings.Change s { s with heap := (f s.heap).2 }) :
    (onHeap f : Run σ α).Preserves I :=
  .onBridge fun _ holds => invariant _ _ (.change (changes _)) holds

theorem release_preserves (a : Address) : (release a : Run σ Unit).Preserves I :=
  .onBridge fun _ holds => invariant _ _ (.change (.releaseAddress a)) holds

theorem writeVariable_preserves (a : Address) (name : String) (v : NativeValue) :
    (writeVariable a name v : Run σ Unit).Preserves I :=
  onHeap_preserves invariant fun _ => .setVariable a name v

omit invariant in
theorem receiverClass_preserves (frame : Frame) : (receiverClass frame : Run σ (Option ClassId)).Preserves I := by
  unfold receiverClass
  split
  · exact .readBridge _
  · exact .pure _
  · exact .pure _

theorem newInstance_preserves (cls : Option ClassId) : (newInstance cls : Run σ NativeValue).Preserves I := by
  unfold newInstance
  split
  · exact .pure _
  · refine (Host.allocate_preserves invariant _ none).bind fun a => ?_
    cases a <;> exact .pure _

theorem freshBlock_preserves (arity : Nat) (body : String) : (freshBlock arity body : Run σ NativeValue).Preserves I :=
  .onBridge fun _ holds => invariant _ _ .identify holds

theorem storeArgs_preserves (this : Address) (index : Nat) (args : List NativeValue) :
    (storeArgs this index args : Run σ Unit).Preserves I := by
  induction args generalizing index with
  | nil => exact .pure _
  | cons v rest ih => exact (writeVariable_preserves invariant this _ v).bind fun _ => ih _

theorem invoke_preserves {host : Host σ} (keeps : host.Preserves I) (block : Option NativeBlock) (args : List NativeValue) :
    (invoke host block args).Preserves I := by
  unfold invoke
  split
  · exact .pure _
  · refine (Host.invokeBlock_preserves invariant keeps _ args).bind fun result => ?_
    cases result <;> exact .pure _

theorem perform_preserves {host : Host σ} (keeps : host.Preserves I) (body : Routine) (frame : Frame) :
    (perform host body frame).Preserves I := by
  have retains (a : Address) : (onHeap (·.retain a) : Run σ Bool).Preserves I :=
    onHeap_preserves invariant fun _ => .retain a
  have finishes {α : Type} (run : Run σ α) (one : run.Preserves I) (v : NativeValue) : (run >>= fun _ => pure v).Preserves I :=
    one.bind fun _ => .pure v
  unfold perform
  dsimp only
  split
  -- What is left are the routines that touch instances, call back or make blocks, as they are listed.
  all_goals try exact .pure _
  · exact finishes _ (release_preserves invariant _) _
  · exact finishes _ (release_preserves invariant _) _
  · exact finishes _ (retains _) _
  · exact finishes _ (storeArgs_preserves invariant _ 0 _) _
  · split
    · exact finishes _ (release_preserves invariant _) _
    · exact finishes _ (storeArgs_preserves invariant _ 0 _) _
  · refine (receiverClass_preserves frame).bind fun cls => ?_
    exact (release_preserves invariant _).bind fun _ => newInstance_preserves invariant cls
  · exact (receiverClass_preserves frame).bind fun cls => newInstance_preserves invariant cls
  · exact (Preserves.readBridge _).bind fun cls => newInstance_preserves invariant cls
  · exact .readBridge _
  · exact finishes _ (writeVariable_preserves invariant _ _ _) _
  · exact (receiverClass_preserves frame).bind fun _ => (Preserves.readBridge _).bind fun _ => .pure _
  · exact (receiverClass_preserves frame).bind fun _ => .pure _
  · exact (Preserves.readBridge _).bind fun _ => .pure _
  · exact finishes _ (retains _) _
  · exact finishes _ (release_preserves invariant _) _
  · exact invoke_preserves invariant keeps _ _
  · exact (Preserves.readBridge _).bind fun _ => invoke_preserves invariant keeps _ _
  · exact (Preserves.readBridge _).bind fun _ => finishes _ (writeVariable_preserves invariant _ _ _) _
  · exact freshBlock_preserves invariant 1 "inc"
  · exact freshBlock_preserves invariant 3 "count"

end Repertoire

namespace Act

omit invariant in
theorem onEnv_preserves (f : Env → α × Env) : (onEnv f).run.Preserves I := by
  refine .lift ?_
  rintro w _ _ holds ⟨⟩
  exact holds

omit invariant in
theorem readEnv_preserves (f : Env → α) : (readEnv f).run.Preserves I := onEnv_preserves _

omit invariant in
theorem readBridge_preserves (f : Bridge → α) : (readBridge f).run.Preserves I := .lift (.readBridge f)

omit invariant in
theorem ofEffect_preserves {e : Effect α} (one : e.Preserves I) : (ofEffect e).run.Preserves I :=
  (Preserves.ofEffect one).mapped

omit invariant in
theorem ofNative_preserves {run : Run Env (Except CallError α)} (one : run.Preserves I) : (ofNative run).run.Preserves I :=
  one.mapped.mapped

theorem cloneValue_preserves (v : ScriptValue) : (cloneValue v).run.Preserves I :=
  .lift (.onBridge fun _ holds => invariant.cloneValue v holds)

theorem dropValue_preserves (v : ScriptValue) : (dropValue v).run.Preserves I :=
  .lift (.onBridge fun _ holds => invariant.dropValue v holds)

theorem consuming_preserves (values : List ScriptValue) {act : Act α} (one : act.run.Preserves I) :
    (consuming values act).run.Preserves I :=
  one.bind fun _ => (Run.dropValues_preserves invariant values).bind fun _ => .pure _

theorem keeping_preserves (values : List ScriptValue) {act : Act α} (one : act.run.Preserves I) :
    (keeping values act).run.Preserves I := by
  refine one.bind fun result => ?_
  cases result with
  | error e => exact (Run.dropValues_preserves invariant values).bind fun _ => .pure _
  | ok a => exact .pure _

omit invariant in
theorem peek_preserves (name : String) : (peek name).run.Preserves I := by
  refine (readEnv_preserves _).seq fun found => ?_
  cases found with
  | some v => exact .answer v
  | none => exact .throw _

omit invariant in
theorem wrapperIn_preserves (name : String) : (wrapperIn name).run.Preserves I := by
  refine (peek_preserves name).seq fun v => ?_
  cases v with
  | object w => exact .answer w
  | _ => exact .throw _

theorem store_preserves (name : String) (v : ScriptValue) : (store name v).run.Preserves I := by
  refine (onEnv_preserves _).seq fun old => ?_
  cases old with
  | some old => exact dropValue_preserves invariant old
  | none => exact .answer ()

theorem unset_preserves (name : String) : (unset name).run.Preserves I := by
  refine (onEnv_preserves _).seq fun old => ?_
  cases old with
  | some old => exact (dropValue_preserves invariant old).seq fun _ => .answer _
  | none => exact .answer _

omit invariant in
theorem pointer_preserves (p : PointerRef) : (pointer p).run.Preserves I := by
  cases p with
  | null | raw => exact .answer _
  | ofVariable name => exact (wrapperIn_preserves name).seq fun _ => .answer _
  | named name =>
    refine (readEnv_preserves _).seq fun found => ?_
    cases found with
    | some a => exact .answer a
    | none => exact .throw _

omit invariant in
theorem namePointer_preserves (name : Option String) (a : Address) : (namePointer name a).run.Preserves I := by
  unfold namePointer
  split
  · exact onEnv_preserves _
  · exact .answer ()

theorem describedClass_preserves (c : ClassRef) : (describedClass c).run.Preserves I := by
  cases c with
  | named name => exact ofEffect_preserves (Effect.synthesizeNamed_preserves invariant name)
  | placed id => exact ofEffect_preserves (Effect.synthesize_preserves invariant id)

omit invariant in
theorem descriptorId_preserves (c : ClassRef) : (descriptorId c).run.Preserves I := by
  cases c with
  | placed id => exact .answer id
  | named name =>
    refine (readBridge_preserves _).seq fun found => ?_
    cases found with
    | some entry => exact .answer _
    | none => exact .throw _

omit invariant in
theorem type_preserves (ty : TypeArg) : (type ty).run.Preserves I := by
  cases ty with
  | objectAt | structAt => exact .answer _
  | spelled text =>
    refine (readBridge_preserves _).seq fun metadata => ?_
    split
    · exact .answer _
    · exact .throw _

omit invariant in
theorem nativeClass_preserves (c : NativeClassRef) : (nativeClass c).run.Preserves I := by
  cases c with
  | numbered id => exact .answer id
  | named name =>
    refine (readBridge_preserves _).seq fun found => ?_
    cases found with
    | some id => exact .answer id
    | none => exact .throw _

omit invariant in
theorem receiver_preserves (r : ReceiverRef) : (receiver r).run.Preserves I := by
  cases r with
  | «instance» p => exact (pointer_preserves p).seq fun _ => .answer _
  | classObject c => exact (nativeClass_preserves c).seq fun _ => .answer _
  | none => exact .answer _

theorem freshIdentity_preserves : freshIdentity.run.Preserves I :=
  ofEffect_preserves (Effect.freshIdentity_preserves invariant)

omit invariant in
theorem natives_preserves {args : List NativeArg} (each : ∀ arg ∈ args, (native arg).run.Preserves I) :
    (natives args).run.Preserves I := by
  induction args with
  | nil => exact .answer []
  | cons arg rest ih =>
    refine (each arg List.mem_cons_self).seq fun _ => ?_
    exact (ih fun arg member => each arg (List.mem_cons_of_mem _ member)).seq fun _ => .answer _

theorem native_preserves (arg : NativeArg) : (native arg).run.Preserves I := by
  match arg with
  | .literal v => exact .answer v
  | .object p => exact (pointer_preserves p).seq fun _ => .answer _
  | .classObject c => exact (nativeClass_preserves c).seq fun _ => .answer _
  | .block arity body => exact (freshIdentity_preserves invariant).seq fun _ => .answer _
  | .struct fields => exact (natives_preserves fun arg _ => native_preserves arg).seq fun _ => .answer _

theorem makeFunction_preserves (c : Callback) : (makeFunction c).run.Preserves I :=
  (onEnv_preserves _).seq fun _ => (freshIdentity_preserves invariant).seq fun _ => .answer _

mutual

theorem evaluate_preserves (e : Expression) : (evaluate e).run.Preserves I := by
  match e with
  | .literal v => exact .answer v
  | .var name => exact (peek_preserves name).seq fun v => (cloneValue_preserves invariant v).seq fun _ => .answer v
  | .constructor c => exact (describedClass_preserves invariant c).seq fun _ => .answer _
  | .function c => exact makeFunction_preserves invariant c
  | .record fields => exact (evaluateFields_preserves fields).seq fun _ => .answer _

theorem evaluateFields_preserves (fields : List (String × Expression)) : (evaluateFields fields).run.Preserves I := by
  match fields with
  | [] => exact .answer []
  | (name,e) :: rest =>
    refine (evaluate_preserves e).seq fun v => ?_
    exact (keeping_preserves invariant [v] (evaluateFields_preserves rest)).seq fun _ => .answer _

end

theorem evaluateAll_preserves (es : List Expression) : (evaluateAll es).run.Preserves I := by
  induction es with
  | nil => exact .answer []
  | cons e rest ih =>
    exact (evaluate_preserves invariant e).seq fun v => (keeping_preserves invariant [v] ih).seq fun _ => .answer _

omit invariant in
theorem answering (f : α → Answer) {act : Act α} (one : act.run.Preserves I) : (do return f (← act)).run.Preserves I :=
  one.seq fun _ => .answer _

omit invariant in
theorem nativeAnswer_preserves (v : Option NativeValue) : (nativeAnswer v).run.Preserves I :=
  answering _ (readBridge_preserves _)

omit invariant in
theorem optional_preserves {f : α → Act β} (each : ∀ a, (f a).run.Preserves I) (item : Option α) :
    (item.mapM f).run.Preserves I := by
  cases item with
  | none => exact .answer none
  | some a => exact (each a).seq fun _ => .answer _

theorem answerInquiry_preserves (inquiry : Inquiry) : (answerInquiry inquiry).run.Preserves I := by
  cases inquiry with
  | stats => exact answering _ (readBridge_preserves _)
  | describedClass c => exact answering _ (describedClass_preserves invariant c)
  | compatible c other =>
    exact (describedClass_preserves invariant c).seq fun _ => answering _ (descriptorId_preserves other)
  | state c => exact (descriptorId_preserves c).seq fun _ => answering _ (readBridge_preserves _)
  | classOfInstance p declared =>
    refine (pointer_preserves p).seq fun a => ?_
    refine (optional_preserves descriptorId_preserves declared).seq fun declared => ?_
    refine (readBridge_preserves _).seq fun heap => ?_
    exact answering _ (ofEffect_preserves (Effect.classAt_preserves invariant heap a declared))
  | type t => exact answering _ (type_preserves t)
  | describeType name => exact answering _ (readBridge_preserves _)

theorem onHoldings_preserves {f : Holdings → α × Holdings} (changes : ∀ s, (f s).2 = s ∨ Holdings.Change s (f s).2) :
    (onHoldings f).run.Preserves I :=
  .lift (.onBridge (Effect.onHoldings_preserves invariant changes))

theorem runRegistry_preserves (registry : Nat) (command : RegistryCommand) : (runRegistry registry command).run.Preserves I := by
  cases command with
  | wrapper owner =>
    refine (wrapperIn_preserves owner).seq fun w => (readBridge_preserves _).seq fun holdings => ?_
    split
    · exact .answer _
    · exact .throw _
  | lookup p =>
    refine (pointer_preserves p).seq fun a => ?_
    refine (onHoldings_preserves invariant (f := (·.lookup registry a)) fun s => ?_).seq fun found => ?_
    · unfold Holdings.lookup
      split
      · exact .inr (.cloneHandle _)
      · exact .inl rfl
    · cases found <;> exact .answer _
  | contains p => exact (pointer_preserves p).seq fun _ => answering _ (readBridge_preserves _)
  | wrap p c owning =>
    refine (describedClass_preserves invariant c).seq fun c => (pointer_preserves p).seq fun a => ?_
    exact answering _ (onHoldings_preserves invariant fun _ => .inr (.wrapperFor registry a c owning))
  | track p owner =>
    refine (pointer_preserves p).seq fun a => (wrapperIn_preserves owner).seq fun w => ?_
    exact answering _ (onHoldings_preserves invariant fun _ => .inr (.track registry a w))
  | release owner =>
    refine (wrapperIn_preserves owner).seq fun w => ?_
    exact answering _ (onHoldings_preserves invariant fun _ => .inr (.release registry w))
  | stats =>
    refine (readBridge_preserves _).seq fun found => ?_
    cases found with
    | some stats => exact .answer _
    | none => exact .throw _

theorem onHeap_preserves {f : Heap → α × Heap} (changes : ∀ s : Holdings, Holdings.Change s { s with heap := (f s.heap).2 }) :
    (onHeap f).run.Preserves I :=
  .lift (Repertoire.onHeap_preserves invariant changes)

theorem registerClass_preserves (d : ClassDefinition) : (registerClass d).run.Preserves I := by
  refine ofNative_preserves (.onBridge fun b holds => ?_)
  split
  · rename_i accepted
    exact invariant _ _ (.register accepted) holds
  · exact holds

theorem allocate_preserves (c : NativeClassRef) (place : Option Address) : (allocate c place).run.Preserves I := by
  cases c with
  | numbered id => exact ofNative_preserves (Host.allocate_preserves invariant id place)
  | named name =>
    refine (readBridge_preserves _).seq fun found => ?_
    cases found with
    | some id => exact ofNative_preserves (Host.allocate_preserves invariant id place)
    | none => exact .throw _

section Hosts

variable {host : Host Env} (keeps : host.Preserves I)

include keeps

theorem runNative_preserves (command : NativeCommand) : (runNative host command).run.Preserves I := by
  have given (args : List NativeArg) : (natives args).run.Preserves I :=
    natives_preserves fun arg _ => native_preserves invariant arg
  cases command with
  | registerClass d => exact answering _ (registerClass_preserves invariant d)
  | allocate c place name =>
    refine (optional_preserves pointer_preserves place).seq fun place => ?_
    refine (allocate_preserves invariant c place).seq fun a => (namePointer_preserves name a).seq fun _ => ?_
    exact answering _ (readBridge_preserves _)
  | namePointer owner name =>
    exact (wrapperIn_preserves owner).seq fun w => (namePointer_preserves name w.address).seq fun _ => .answer _
  | retain p =>
    exact (pointer_preserves p).seq fun a => answering _ (onHeap_preserves invariant fun _ => .retain a)
  | release p =>
    exact (pointer_preserves p).seq fun a => answering _ (onHoldings_preserves invariant fun _ => .inr (.releaseAddress a))
  | releaseInstance p serial =>
    refine (pointer_preserves p).seq fun a => ?_
    exact answering _ (onHoldings_preserves invariant fun _ => .inr (.releaseInstance a serial))
  | view p => exact (pointer_preserves p).seq fun _ => answering _ (readBridge_preserves _)
  | viewClass c selector => exact (nativeClass_preserves c).seq fun _ => answering _ (readBridge_preserves _)
  | isSubclass c ancestor =>
    refine (nativeClass_preserves c).seq fun _ => (nativeClass_preserves ancestor).seq fun _ => ?_
    exact answering _ (readBridge_preserves _)
  | respondsTo r selector => exact (receiver_preserves r).seq fun _ => answering _ (readBridge_preserves _)
  | send r selector args =>
    refine (receiver_preserves r).seq fun r => (given args).seq fun args => ?_
    exact (ofNative_preserves (Host.send_preserves keeps r selector args)).seq fun v => nativeAnswer_preserves (some v)
  | getVariable p name =>
    exact (pointer_preserves p).seq fun _ => (readBridge_preserves _).seq fun v => nativeAnswer_preserves v
  | setVariable p name value =>
    refine (pointer_preserves p).seq fun a => (native_preserves invariant value).seq fun v => ?_
    exact answering _ (onHeap_preserves invariant fun _ => .setVariable a name v)
  | call name args =>
    refine (given args).seq fun args => ?_
    exact (ofNative_preserves (Host.callPlain_preserves keeps name args)).seq fun v => nativeAnswer_preserves (some v)

omit keeps in
theorem usingWrapper_preserves (name : String) {use : Wrapper → Act α} (each : ∀ w, (use w).run.Preserves I) :
    (usingWrapper name use).run.Preserves I :=
  (wrapperIn_preserves name).seq fun w => (cloneValue_preserves invariant _).seq fun _ =>
    consuming_preserves invariant _ (each w)

omit keeps in
theorem usingOwner_preserves (owner : OwnerRef) {use : Target → Act α} (each : ∀ t, (use t).run.Preserves I) :
    (usingOwner owner use).run.Preserves I := by
  cases owner with
  | ofVariable name => exact usingWrapper_preserves invariant name fun w => each (.instance w)
  | ofClass c => exact (describedClass_preserves invariant c).seq fun c => each (.static c)

omit keeps in
theorem usingArgs_preserves (args : List Expression) {use : List ScriptValue → Act α}
    (each : ∀ values, (use values).run.Preserves I) : (usingArgs args use).run.Preserves I :=
  (evaluateAll_preserves invariant args).seq fun values => consuming_preserves invariant values (each values)

omit keeps in
theorem usingValue_preserves (e : Expression) {use : ScriptValue → Act α} (each : ∀ v, (use v).run.Preserves I) :
    (usingValue e use).run.Preserves I :=
  (evaluate_preserves invariant e).seq fun v => consuming_preserves invariant [v] (each v)

omit invariant keeps in
theorem valueOf_preserves {c : Call Env ScriptValue} (one : c.run.Preserves I) : (valueOf c).run.Preserves I :=
  answering _ one.mapped

omit invariant keeps in
theorem initializer_preserves (c : SynthesizedClass) (name : String) : (initializer c name).run.Preserves I := by
  unfold initializer
  split
  · exact .answer _
  · split
    · exact .answer _
    · exact .throw _

theorem invoked_preserves (v : NativeValue) (args : Option (List NativeValue)) : (invoked host v args).run.Preserves I := by
  unfold invoked
  split
  · exact .answer _
  · split
    · exact .answer _
    · exact (Preserves.lift (Host.invokeBlock_preserves invariant keeps _ _)).seq fun _ => .answer _

theorem marshal_preserves (v : ScriptValue) (ty : TypeEncoding) (invoke : Option (List NativeValue)) (back : Bool) :
    (marshal host v ty invoke back).run.Preserves I := by
  refine (ofEffect_preserves (Effect.toNative_preserves invariant v ty)).seq fun n => ?_
  refine (invoked_preserves invariant keeps n invoke).seq fun result => ?_
  cases back with
  | true =>
    have returned := ofEffect_preserves (Effect.toScripting_preserves invariant n ty)
    exact (returned.seq fun _ => .answer _).seq fun _ => answering _ (readBridge_preserves _)
  | false => exact (Preserves.answer none).seq fun _ => answering _ (readBridge_preserves _)

theorem runScript_preserves (command : ScriptCommand) : (runScript host command).run.Preserves I := by
  cases command with
  | evaluate e => exact answering _ (evaluate_preserves invariant e)
  | drop name => exact answering _ (unset_preserves invariant name)
  | new c args init =>
    refine (describedClass_preserves invariant c).seq fun c => usingArgs_preserves invariant args fun args => ?_
    cases init with
    | none => exact (Host.construct_preserves invariant keeps c args).mapped.seq fun _ => .answer _
    | some name =>
      refine (initializer_preserves c name).seq fun init => ?_
      exact (Host.constructWith_preserves invariant keeps c init args).mapped.seq fun _ => .answer _
  | call on method args =>
    refine usingWrapper_preserves invariant on fun w => usingArgs_preserves invariant args fun args => ?_
    exact valueOf_preserves (Host.callMethod_preserves invariant keeps w method args)
  | callStatic c method args =>
    refine (describedClass_preserves invariant c).seq fun c => usingArgs_preserves invariant args fun args => ?_
    exact valueOf_preserves (Host.callStatic_preserves invariant keeps c method args)
  | get owner property =>
    rw [runScript]
    refine usingOwner_preserves invariant owner fun t => ?_
    exact valueOf_preserves (Host.getProperty_preserves invariant keeps t property)
  | put owner property value =>
    rw [runScript]
    refine usingOwner_preserves invariant owner fun t => usingValue_preserves invariant value fun v => ?_
    exact (Host.setProperty_preserves invariant keeps t property v).mapped.seq fun _ => .answer _
  | callFunction name args =>
    refine usingArgs_preserves invariant args fun args => ?_
    exact valueOf_preserves (Host.callFunction_preserves invariant keeps name args)
  | global name => exact valueOf_preserves (.ofEffect (Effect.global_preserves invariant name))
  | apply function args =>
    refine usingValue_preserves invariant function fun f => usingArgs_preserves invariant args fun args => ?_
    cases f with
    | function f => exact valueOf_preserves (Host.callScript_preserves invariant keeps f args)
    | _ => exact .throw _
  | isInstance value c =>
    exact (describedClass_preserves invariant c).seq fun c => usingValue_preserves invariant value fun v => .answer _
  | shutdown =>
    refine (readBridge_preserves _).seq fun wasOpen => ?_
    have closed : (onBridge fun b => ((),b.close)).run.Preserves I :=
      .lift (.onBridge fun _ holds => invariant _ _ .close holds)
    exact closed.seq fun _ => .answer _
  | display value => exact usingValue_preserves invariant value fun v => .answer _
  | describe value => exact usingValue_preserves invariant value fun v => (readBridge_preserves _).seq fun _ => .answer _
  | same a b =>
    exact usingValue_preserves invariant a fun a => usingValue_preserves invariant b fun b => .answer _
  | sameClass a b =>
    exact (describedClass_preserves invariant a).seq fun a => (describedClass_preserves invariant b).seq fun b => .answer _
  | toNative value ty invoke back =>
    refine usingValue_preserves invariant value fun v => (type_preserves ty).seq fun ty => ?_
    refine (optional_preserves ?_ invoke).seq fun invoke => marshal_preserves invariant keeps v ty invoke back
    exact fun args => natives_preserves fun arg _ => native_preserves invariant arg
  | toScripting value ty owning =>
    refine (native_preserves invariant value).seq fun n => (type_preserves ty).seq fun ty => ?_
    exact valueOf_preserves (.ofEffect (Effect.toScriptingOwned_preserves invariant n ty _))

theorem runStep_preserves (step : Step) : (runStep host step).run.Preserves I := by
  have carried : (carryOut host step).run.Preserves I := by
    cases step with
    | script command => exact runScript_preserves invariant keeps command
    | ask inquiry => exact answerInquiry_preserves invariant inquiry
    | registry registry command => exact runRegistry_preserves invariant registry command
    | native command => exact runNative_preserves invariant keeps command
  refine carried.seq fun answer => ?_
  split
  · exact (store_preserves invariant _ _).seq fun _ => .answer _
  · exact (dropValue_preserves invariant _).seq fun _ => .answer _
  · exact .answer _

omit keeps in
theorem result_preserves (args : List ScriptValue) (r : CallbackResult) : (result args r).run.Preserves I := by
  cases r with
  | undefined | sum => exact .answer _
  | failure text => exact .throw _
  | argument index => exact (cloneValue_preserves invariant _).seq fun _ => .answer _
  | value e => exact evaluate_preserves invariant e

theorem runCallback_preserves (c : Callback) (args : List ScriptValue) : (runCallback host c args).run.Preserves I := by
  have steps (s : List Step) : (s.forM fun step => do log (.step (← attempt (runStep host step)))).run.Preserves I := by
    induction s with
    | nil => exact .answer ()
    | cons step rest ih =>
      have first : (attempt (runStep host step)).run.Preserves I := .lift (runStep_preserves invariant keeps step)
      exact (first.seq fun outcome => onEnv_preserves _).seq fun _ => ih
  refine (onEnv_preserves _).seq fun _ => ?_
  have rest := (steps c.steps).seq fun _ => result_preserves invariant args c.result
  dsimp only
  split
  · exact (cloneValue_preserves invariant _).seq fun _ => (store_preserves invariant _ _).seq fun _ => rest
  · exact rest

theorem callback_preserves (body : Nat) (args : List ScriptValue) : (callback host body args).run.Preserves I := by
  refine Preserves.mapped (f := failure) ?_
  refine (readEnv_preserves _).seq fun found => ?_
  cases found with
  | some c => exact runCallback_preserves invariant keeps c args
  | none => exact .throw _

end Hosts

end Act

namespace Session

-- Each level of nesting rests on the one below it.
theorem host_preserves (depth : Nat) : (host depth).Preserves I := by
  induction depth with
  | zero =>
    refine ⟨?_,?_⟩
    · rintro _ _ _ _ _ _ ⟨⟩
    · rintro _ _ _ _ _ _ ⟨⟩
  | succ depth ih =>
    exact ⟨fun body frame => Repertoire.perform_preserves invariant ih body frame,
      fun body args => Act.callback_preserves invariant ih body args⟩

theorem record_preserves (depth : Nat) (step : Step) : (record (host depth) step).Preserves I := by
  refine (Act.runStep_preserves invariant (host_preserves invariant depth) step).bind fun outcome => ?_
  refine (Preserves.readBridge id).bind fun b => ?_
  refine Preserves.bind ?_ fun log => .pure _
  rintro w _ _ holds ⟨⟩
  exact holds

theorem recordAll_preserves (depth : Nat) (steps : List Step) : (recordAll (host depth) steps).Preserves I := by
  induction steps with
  | nil => exact .pure []
  | cons step rest ih => exact (record_preserves invariant depth step).bind fun _ => ih.bind fun _ => .pure _

section Opening

omit invariant

variable {natives : ClassTable} {classes : List ClassDefinition}

theorem registered_reached {b : Bridge} (reached : b.Reached)
    (registered : classes.foldlM (fun t d => return (← ClassTable.register t d).2) b.natives = .ok natives) :
    Bridge.Reached { b with natives := natives } := by
  induction classes generalizing b with
  | nil =>
    obtain rfl := Outcome.pure_ok.mp registered
    exact reached
  | cons d rest ih =>
    rw [List.foldlM_cons] at registered
    obtain ⟨next,one,others⟩ := Outcome.bind_ok.mp registered
    obtain ⟨⟨id,t⟩,accepted,left⟩ := Outcome.bind_ok.mp one
    obtain rfl := Outcome.pure_ok.mp left
    exact ih (b := { b with natives := t }) (Bridge.reached_invariant _ _ (.register accepted) reached) others

-- The bridge as a session opens it, and as any steps of the session leave it.
theorem bridge_reached {metadata : Metadata} {functions : List (String × NativeFunction)} {depth : Nat} {steps : List Step}
    {records : List StepRecord} {after : World Env}
    (registered : classes.foldlM (fun t d => return (← ClassTable.register t d).2) ClassTable.initial = .ok natives)
    (ends : recordAll (host depth) steps ⟨{ Bridge.initial metadata [otherRegistry] with
      natives := natives
      functions := Table.ofList functions },Env.initial⟩ = some (records,after)) : after.bridge.Reached := by
  have opened : Bridge.Reached (Bridge.opened metadata [otherRegistry] (Table.ofList functions)) :=
    ⟨metadata,[otherRegistry],Table.ofList functions,.refl⟩
  have start := registered_reached opened registered
  exact recordAll_preserves Bridge.reached_invariant depth steps _ _ _ start ends

end Opening

end Session
end ObjectBridge
