import ObjectBridge.Proofs.Bridge.Callbacks
import ObjectBridge.Proofs.Bridge.PlainValues
import ObjectBridge.Proofs.Bridge.Rejections

namespace ObjectBridge

-- Types of values that are copied and not referred to.
inductive Simple : TypeEncoding → Prop where
  | bool : Simple (.scalar .bool)
  | int (kind : IntKind) : Simple (.scalar (.int kind))
  | string : Simple (.scalar .string)

-- The canonical form of the zero of a simple type.
def zeroForm : TypeEncoding → ScriptValue
  | .scalar .bool => .bool false
  | .scalar (.int _) => .number (.ofInt 0)
  | _ => .null

section Values

variable {m : Metadata} {ty : TypeEncoding} {v form : ScriptValue} {n : NativeValue} {b : Bridge}

theorem Simple.plain (simple : Simple ty) (m : Metadata) : Plain m ty := by
  cases simple with
  | bool => exact .bool
  | int kind => exact .int kind
  | string => exact .string

theorem Simple.zero_converts (simple : Simple ty) (b : Bridge) :
    Effect.toScripting (.zero ty.nativeKind) ty b = (.ok (zeroForm ty),b) := by
  cases simple with
  | bool => rfl
  | int kind =>
    refine (Effect.toScripting_ok (Effect.scripting_integer kind (kind.holds_wrap 0))).trans ?_
    have zero : kind.wrap 0 = 0 := by cases kind <;> rfl
    rw [zero,ScriptValue.ofInt_number kind (Nat.zero_le _)]
    rfl
  | string => rfl

theorem Simple.holds_no_wrappers (simple : Simple ty) (canonical : Canonical m ty v form) :
    v.wrappers = [] ∧ form.wrappers = [] := by
  cases simple with
  | bool => cases canonical; exact ⟨rfl,rfl⟩
  | int kind =>
    cases canonical with
    | number stands small => cases stands <;> exact ⟨rfl,rfl⟩
    | big stands large => cases stands <;> exact ⟨rfl,rfl⟩
  | string =>
    cases canonical with
    | string text => exact ⟨rfl,rfl⟩
    | nullish absent => cases v <;> first | exact ⟨rfl,rfl⟩ | cases absent

theorem Simple.slot_without (simple : Simple ty) (fits : b.slot v ty = .ok n) : n.wrappers = [] := by
  have kind := (Bridge.slot_shaped b v ty n fits).kind
  cases simple <;> cases n <;> first | rfl | cases kind

theorem cloneNative_without (none : n.wrappers = []) : b.cloneNative n = b := by
  rw [Bridge.cloneNative,none]
  rfl

theorem dropValue_without (none : v.wrappers = []) : b.dropValue v = b := by
  rw [Bridge.dropValue,none]
  rfl

theorem dropValues_without {vs : List ScriptValue} (none : ∀ v ∈ vs, v.wrappers = []) : b.dropValues vs = b := by
  induction vs with
  | nil => rfl
  | cons v rest ih =>
    obtain ⟨first,others⟩ := List.forall_mem_cons.mp none
    change (b.dropValue v).dropValues rest = b
    rw [dropValue_without first]
    exact ih others

end Values

-- Where the first argument stands that does not fit, and why it does not.
inductive FirstFailure (b : Bridge) : List TypeEncoding → List ScriptValue → Nat → BridgeError → Prop where
  | here {v : ScriptValue} {ty : TypeEncoding} {cause : BridgeError} (fails : b.slot v ty = .error cause)
      (types : List TypeEncoding) (rest : List ScriptValue) : FirstFailure b (ty :: types) (v :: rest) 0 cause
  | there {v : ScriptValue} {ty : TypeEncoding} {n : NativeValue} {types : List TypeEncoding} {rest : List ScriptValue}
      {i : Nat} {cause : BridgeError} (fits : b.slot v ty = .ok n) (later : FirstFailure b types rest i cause) :
      FirstFailure b (ty :: types) (v :: rest) (i+1) cause

section Arguments

variable {σ : Type} {b : Bridge} {params : List TypeEncoding} {args : List ScriptValue} {slots : List NativeValue}
  {forms : List ScriptValue} {w : World σ} {i : Nat} {cause : BridgeError}

theorem FirstFailure.exists (bad : Unconvertible b params args) : ∃ i cause, FirstFailure b params args i cause := by
  obtain ⟨i,v,ty,e,valued,typed,fails⟩ := bad
  rw [Effect.toNative_fst] at fails
  induction args generalizing params i with
  | nil => cases valued
  | cons first rest ih =>
    cases params with
    | nil => cases typed
    | cons head types =>
      cases converted : b.slot first head with
      | error cause => exact ⟨0,cause,.here converted types rest⟩
      | ok n =>
        cases i with
        | zero =>
          cases valued
          cases typed
          cases fails.symm.trans converted
        | succ i =>
          obtain ⟨j,cause,failure⟩ := ih i valued typed
          exact ⟨j+1,cause,.there converted failure⟩

theorem FirstFailure.frameFrom (failure : FirstFailure b params args i cause) (member : String) (first : Nat) :
    Effect.frameFrom member first args params b =
      (.error (cause.located member (some (first+i))),b.noteConversionError) := by
  induction failure generalizing first with
  | @here v ty cause fails types rest =>
    have stops : Effect.located member (some first) (Effect.toNative v ty) b =
        (.error (cause.located member (some first)),b.noteConversionError) := by
      rw [Effect.located,Effect.toNative,fails]
      rfl
    exact Effect.bind_stops stops
  | @there v ty n types rest i cause fits later ih =>
    have converts : Effect.located member (some first) (Effect.toNative v ty) b = (.ok n,b) := by
      rw [Effect.located,Effect.toNative,fits]
      rfl
    have stops := ih (first+1)
    rw [Nat.add_assoc,Nat.add_comm 1] at stops
    rw [Effect.frameFrom,Effect.bind_eq converts]
    exact Effect.bind_stops stops

theorem frame_fills (fits : ¬Unconvertible b params args) (member : String) : ∃ slots,
    Effect.frame member params args b = (.ok slots,b) ∧
      List.Forall₂ (fun pair n => b.slot pair.1 pair.2 = .ok n) (args.zip params) slots := by
  rcases run : Effect.frame member params args b with ⟨e | slots,after⟩
  · obtain ⟨_,_,i,v,ty,cause,valued,typed,fails,_⟩ := Effect.frame_error run
    exact absurd ⟨i,v,ty,cause,valued,typed,fails⟩ fits
  · obtain ⟨rfl,converted⟩ := Effect.frame_ok run
    exact ⟨slots,rfl,converted⟩

-- What the slots hold comes back in the canonical forms.
theorem simple_forms (simple : ∀ ty ∈ params, Simple ty) (counted : args.length = params.length)
    (converted : List.Forall₂ (fun pair n => b.slot pair.1 pair.2 = .ok n) (args.zip params) slots) :
    ∃ forms, List.Forall₂ (fun pair form => Canonical b.metadata pair.2 pair.1 form) (args.zip params) forms ∧
      List.Forall₂ (fun pair form => Effect.toScriptingShared pair.1 pair.2 b = (.ok form,b)) (slots.zip params) forms := by
  induction params generalizing args slots with
  | nil =>
    cases List.length_eq_zero_iff.mp counted
    cases converted
    exact ⟨[],.nil,.nil⟩
  | cons ty types ih =>
    cases args with
    | nil => cases counted
    | cons v rest =>
      cases converted with
      | @cons _ n _ others fits more =>
        obtain ⟨first,later⟩ := List.forall_mem_cons.mp simple
        obtain ⟨forms,canonical,back⟩ := ih later (Nat.succ.inj counted) more
        obtain ⟨form,returns,one⟩ := Effect.plain_back_again (first.plain b.metadata) fits
        have shared : Effect.toScriptingShared n ty b = (.ok form,b) := by
          rw [Effect.toScriptingShared,cloneNative_without (first.slot_without fits)]
          exact Effect.toScripting_ok returns
        exact ⟨form :: forms,.cons one canonical,.cons shared back⟩

theorem callbackArgs_converted {types : List TypeEncoding}
    (each : List.Forall₂ (fun pair form => Effect.toScriptingShared pair.1 pair.2 w.bridge = (.ok form,w.bridge))
      (slots.zip types) forms) (member : String) (index : Nat) (done : List ScriptValue) :
    (Host.callbackArgs member index done slots types : Call σ _).run w = some (.ok (done ++ forms),w) := by
  induction slots generalizing types forms index done with
  | nil =>
    cases each
    rw [List.append_nil]
    rfl
  | cons n rest ih =>
    cases types with
    | nil =>
      cases each
      rw [List.append_nil]
      rfl
    | cons ty types =>
      cases each with
      | @cons _ form _ others converts more =>
        rw [Host.callbackArgs]
        change (_ >>= _ : Run σ _) w = _
        rw [Run.bind_run,Call.located_run,Call.ofEffect_run]
        dsimp only at converts
        rw [converts]
        refine (ih more (index+1) (done ++ [form])).trans ?_
        rw [List.append_assoc]
        rfl

theorem forms_without (simple : ∀ ty ∈ params, Simple ty) {m : Metadata}
    (canonical : List.Forall₂ (fun pair form => Canonical m pair.2 pair.1 form) (args.zip params) forms) :
    ∀ form ∈ forms, form.wrappers = [] := by
  intro form member
  obtain ⟨⟨v,ty⟩,among,one⟩ := Outcome.related_left canonical member
  exact ((simple ty (List.of_mem_zip among).2).holds_no_wrappers one).2

end Arguments

section Calls

variable {σ : Type} {host : Host σ} {f : ScriptFunction} {sig : CallSignature} {args forms : List ScriptValue}
  {slots : List NativeValue} {w : World σ} {ty : TypeEncoding} {k i : Nat} {cause : BridgeError}

-- What a function without a declared number of arguments runs.
def Host.ownCode (host : Host σ) : ScriptFunction → List ScriptValue → Call σ ScriptValue
  | .written _ _ _ body _, args => host.written body args
  | .global _ name, args => host.callFunction name args
  | .ofBlock id block signature, args => host.callScript (.ofBlock id block signature) args

-- What whoever called through the block is handed then. Only an answer that does not fit is counted as a failure.
inductive Finishes (ty : TypeEncoding) : Except BridgeError ScriptValue × World σ → Except BridgeError ScriptValue × World σ →
    Prop where
  | converted {answer form : ScriptValue} {n : NativeValue} {v : World σ} (fits : v.bridge.slot answer ty = .ok n)
      (canonical : Canonical v.bridge.metadata ty answer form) : Finishes ty (.ok answer,v) (.ok form,v)
  | unfit {answer : ScriptValue} {e : BridgeError} {v : World σ} (refused : v.bridge.slot answer ty = .error e) :
      Finishes ty (.ok answer,v) (.ok (zeroForm ty),{ v with bridge := v.bridge.noteConversionError.dropValue answer })
  | failed (e : BridgeError) (v : World σ) : Finishes ty (.error e,v) (.ok (zeroForm ty),v)

theorem callScript_undeclared (undeclared : f.arity = none) (opened : w.bridge.isOpen = true) (args : List ScriptValue) :
    (host.callScript f args).run w = (host.ownCode f args).run w := by
  cases f with
  | written id name arity body =>
    cases undeclared
    rw [Host.callScript]
    rfl
  | global id name =>
    rw [Host.callScript,readBridge_bind,opened]
    rfl
  | ofBlock => cases undeclared

theorem handedBack_finishes (simple : Simple ty) (without : ∀ form ∈ forms, form.wrappers = [])
    (outcome : Except BridgeError ScriptValue × World σ) : ∃ form,
      Effect.toScripting (handedBack ty forms outcome).1 ty (handedBack ty forms outcome).2.bridge =
        (.ok form,(handedBack ty forms outcome).2.bridge) ∧
      Finishes ty outcome (.ok form,(handedBack ty forms outcome).2) := by
  obtain ⟨e | answer,v⟩ := outcome
  · rw [handedBack,dropValues_without without]
    exact ⟨_,simple.zero_converts _,.failed e v⟩
  · rw [handedBack]
    cases converted : v.bridge.slot answer ty with
    | error e =>
      dsimp only
      rw [dropValues_without without]
      exact ⟨_,simple.zero_converts _,.unfit converted⟩
    | ok n =>
      obtain ⟨form,returns,canonical⟩ := Effect.plain_back_again (simple.plain v.bridge.metadata) converted
      dsimp only
      rw [dropValues_without without,cloneNative_without (simple.slot_without converted),
        dropValue_without (simple.holds_no_wrappers canonical).1]
      exact ⟨form,Effect.toScripting_ok returns,.converted converted canonical⟩

-- A function behind a block, called as a function again.
def adapted (f : ScriptFunction) (sig : CallSignature) (k : Nat) : ScriptFunction := .ofBlock k (.ofFunction f sig) sig

theorem adapted_counted (opened : w.bridge.isOpen = true) (counted : args.length = sig.params.length) :
    (host.callScript (adapted f sig k) args).run w = ((do
      let frame ← Call.ofEffect (Effect.frame "block" sig.params args)
      let result ← Call.ofNative (host.invokeBlock (.ofFunction f sig) frame)
      Call.located "block" none (Call.ofEffect (Effect.toScripting result sig.result))) : Call σ ScriptValue).run w := by
  have arity : ¬args.length ≠ sig.arity := not_not.mpr counted
  rw [adapted,Host.callScript,if_neg arity,readBridge_bind,if_pos opened]

theorem adapted_unfit (opened : w.bridge.isOpen = true) (counted : args.length = sig.params.length)
    (failure : FirstFailure w.bridge sig.params args i cause) :
    (host.callScript (adapted f sig k) args).run w =
      some (.error (cause.located "block" (some i)),{ w with bridge := w.bridge.noteConversionError }) := by
  have fails := failure.frameFrom "block" 0
  rw [Nat.zero_add] at fails
  rw [adapted_counted opened counted]
  refine bind_fails ?_
  rw [Call.ofEffect_run,Effect.frame,fails]

theorem adapted_converted (opened : w.bridge.isOpen = true) (simple : ∀ ty ∈ sig.params, Simple ty)
    (result : Simple sig.result) (counted : args.length = sig.params.length) (fits : ¬Unconvertible w.bridge sig.params args) :
    ∃ forms, List.Forall₂ (fun pair form => Canonical w.bridge.metadata pair.2 pair.1 form) (args.zip sig.params) forms ∧
      ∀ host : Host σ, Option.Rel (Finishes sig.result) ((host.callScript f forms).run w)
        ((host.callScript (adapted f sig k) args).run w) := by
  obtain ⟨slots,framed,converted⟩ := frame_fills fits "block"
  obtain ⟨forms,canonical,back⟩ := simple_forms simple counted converted
  refine ⟨forms,canonical,fun host => ?_⟩
  have filled : slots.length = sig.params.length := by
    rw [← converted.length_eq,List.length_zip,counted,Nat.min_self]
  have handed : (handedArgs f sig slots).run w = some (.ok forms,w) := callbackArgs_converted back _ 0 []
  have invoked : host.invokeBlock (.ofFunction f sig) slots w = _ := invokeBlock_calls filled opened handed
  rw [adapted_counted opened counted,Call.bind_run,Call.ofEffect_run,framed]
  change Option.Rel _ _ (((host.invokeBlock (.ofFunction f sig) slots w).bind fun (r,v) => some (r.mapError .native,v)).bind
    fun (r,v) => ExceptT.bindCont (fun n => Call.located "block" none (Call.ofEffect (Effect.toScripting n sig.result))) r v)
  rw [invoked]
  rcases (host.callScript f forms).run w with _ | outcome
  · exact .none
  · obtain ⟨form,returns,finishes⟩ := handedBack_finishes result (forms_without simple canonical) outcome
    have ends : (Call.located "block" none
        (Call.ofEffect (Effect.toScripting (handedBack sig.result forms outcome).1 sig.result))).run
          (handedBack sig.result forms outcome).2 = some (.ok form,(handedBack sig.result forms outcome).2) := by
      rw [Call.located_run,Call.ofEffect_run,returns]
      rfl
    exact (congrArg (Option.Rel _ _) ends).mpr (.some finishes)

-- Whatever the function does, and whatever the world was before: it is run once at most, and on nothing but the
-- canonical forms of the arguments.
theorem adapters_compose (undeclared : f.arity = none) (simple : ∀ ty ∈ sig.params, Simple ty) (result : Simple sig.result)
    (b : Bridge) : ∃ block g after,
      Effect.toNative (.function f) (.block sig.result sig.params) b = (.ok (.block (some block)),b) ∧
      Effect.toScripting (.block (some block)) (.block sig.result sig.params) b = (.ok (.function g),after) ∧
      (∀ now, Effect.toScripting (.zero sig.result.nativeKind) sig.result now = (.ok (zeroForm sig.result),now)) ∧
      ∀ (w : World σ) (args : List ScriptValue), w.bridge.isOpen = true →
        (args.length ≠ sig.arity → ∀ host : Host σ, (host.callScript g args).run w =
          some (.error (.arityMismatch "block" sig.arity args.length ("function(" ++ toString sig.arity ++ " argument(s))")),w)) ∧
        (args.length = sig.arity → Unconvertible w.bridge sig.params args →
          ∃ i cause, FirstFailure w.bridge sig.params args i cause ∧ ∀ host : Host σ, (host.callScript g args).run w =
            some (.error (cause.located "block" (some i)),{ w with bridge := w.bridge.noteConversionError })) ∧
        (args.length = sig.arity → ¬Unconvertible w.bridge sig.params args →
          ∃ forms, List.Forall₂ (fun pair form => Canonical w.bridge.metadata pair.2 pair.1 form) (args.zip sig.params) forms ∧
            ∀ host : Host σ, Option.Rel (Finishes sig.result) ((host.ownCode f forms).run w) ((host.callScript g args).run w)) := by
  refine ⟨.ofFunction f sig,adapted f sig b.nextIdentity,{ b with nextIdentity := b.nextIdentity+1 },rfl,?_,
    result.zero_converts,?_⟩
  · rfl
  intro w args opened
  refine ⟨fun miscounted host => ?_,fun counted bad => ?_,fun counted fits => ?_⟩
  · rw [adapted,Host.callScript,if_pos miscounted]
    rfl
  · obtain ⟨i,cause,failure⟩ := FirstFailure.exists bad
    exact ⟨i,cause,failure,fun host => adapted_unfit opened counted failure⟩
  · obtain ⟨forms,canonical,runs⟩ := adapted_converted opened simple result counted fits
    refine ⟨forms,canonical,fun host => ?_⟩
    rw [← callScript_undeclared undeclared opened]
    exact runs host

end Calls

namespace Adapters

def signature : CallSignature := ⟨.scalar (.int .i32),[.scalar .bool,.scalar .string]⟩

def counter : ScriptFunction := .written 0 none none 0

-- Counts what it is given, and answers in a form of its own.
def counting : Host Unit := ⟨fun _ _ _ => none,fun _ args w => some (.ok (.big args.length),w)⟩

def start : Bridge := .initial default []

theorem counter_there_and_back : ∃ block g after,
    Effect.toNative (.function counter) (.block signature.result signature.params) start = (.ok (.block (some block)),start) ∧
    Effect.toScripting (.block (some block)) (.block signature.result signature.params) start = (.ok (.function g),after) ∧
    (counting.callScript g [.bool true,.undefined]).run ⟨start,()⟩ = some (.ok (.number (.ofInt 2)),⟨start,()⟩) := by
  have simple : ∀ ty ∈ signature.params, Simple ty := by
    simp only [signature,List.mem_cons,List.not_mem_nil,or_false,forall_eq_or_imp,forall_eq]
    exact ⟨.bool,.string⟩
  have undeclared : counter.arity = none := rfl
  obtain ⟨block,g,after,there,back,_,calls⟩ := adapters_compose (σ := Unit) undeclared simple (.int .i32) start
  refine ⟨block,g,after,there,back,?_⟩
  obtain ⟨_,_,runs⟩ := calls ⟨start,()⟩ [.bool true,.undefined] rfl
  have fits : ¬Unconvertible start signature.params [.bool true,.undefined] := by
    rintro ⟨i,v,ty,e,valued,typed,fails⟩
    rcases i with _ | _ | i <;> cases valued <;> cases typed <;> cases fails
  obtain ⟨forms,canonical,finishes⟩ := runs rfl fits
  have counted : (counting.ownCode counter forms).run ⟨start,()⟩ = some (.ok (.big 2),⟨start,()⟩) := by
    have two : forms.length = 2 := canonical.length_eq.symm
    change some (Except.ok (ScriptValue.big forms.length),_) = _
    rw [two]
    rfl
  have outcome := finishes counting
  rw [counted] at outcome
  cases ended : (counting.callScript g [.bool true,.undefined]).run ⟨start,()⟩ with
  | none => rw [ended] at outcome; cases outcome
  | some last =>
    rw [ended] at outcome
    cases outcome with
    | some finishes =>
      cases finishes with
      | converted fits form =>
        rw [form.unique (.number (.big 2) (by decide))]
      | unfit refused => cases refused

end Adapters
end ObjectBridge
