import ObjectBridge.Proofs.Bridge.Invariants
import ObjectBridge.Proofs.Bridge.Shapes

namespace ObjectBridge

theorem NativeValue.zero_kind (k : NativeKind) : (NativeValue.zero k).kind = k := by
  cases k <;> rfl

theorem HasShape.zero_iff {m : Metadata} {ty : TypeEncoding} :
    HasShape m ty (.zero ty.nativeKind) ↔ ∀ id, ty = .struct id → Bridge.layout? m id = some [] := by
  cases ty with
  | scalar s => exact ⟨fun _ => nofun,fun _ => .scalar (NativeValue.zero_kind _)⟩
  | object target => exact ⟨fun _ => nofun,fun _ => .object target .null⟩
  | block result params => exact ⟨fun _ => nofun,fun _ => .noBlock result params⟩
  | struct id =>
    constructor
    · intro shape
      cases shape with
      | struct described fields =>
        cases fields
        intro _ same
        cases same
        exact described
    · intro empty
      exact .struct (empty id rfl) .nil

variable {σ : Type}

-- The arguments of the script's function.
def handedArgs (function : ScriptFunction) (signature : CallSignature) (args : List NativeValue) : Call σ (List ScriptValue) :=
  Host.callbackArgs (function.name.getD "block") 0 [] args signature.params

-- How a callback ends, with the value that the script has for native code if it has one.
inductive CallbackEnds (host : Host σ) (function : ScriptFunction) (signature : CallSignature) (args : List NativeValue)
    (w : World σ) : Option NativeValue → World σ → Prop where
  | closed (gone : w.bridge.isOpen = false) : CallbackEnds host function signature args w none w
  | unreadable {e : BridgeError} {after : World σ} (opened : w.bridge.isOpen = true)
      (fails : (handedArgs function signature args).run w = some (.error e,after)) :
      CallbackEnds host function signature args w none after
  | failed {values : List ScriptValue} {v after : World σ} {e : BridgeError} (opened : w.bridge.isOpen = true)
      (handed : (handedArgs function signature args).run w = some (.ok values,v))
      (fails : (host.callScript function values).run v = some (.error e,after)) :
      CallbackEnds host function signature args w none { after with bridge := after.bridge.dropValues values }
  | unfit {values : List ScriptValue} {answer : ScriptValue} {v after : World σ} {e : BridgeError}
      (opened : w.bridge.isOpen = true)
      (handed : (handedArgs function signature args).run w = some (.ok values,v))
      (answers : (host.callScript function values).run v = some (.ok answer,after))
      (refused : after.bridge.slot answer signature.result = .error e) :
      CallbackEnds host function signature args w none
        { after with bridge := (after.bridge.noteConversionError.dropValue answer).dropValues values }
  | converted {values : List ScriptValue} {answer : ScriptValue} {v after : World σ} {n : NativeValue}
      (opened : w.bridge.isOpen = true)
      (handed : (handedArgs function signature args).run w = some (.ok values,v))
      (answers : (host.callScript function values).run v = some (.ok answer,after))
      (fits : after.bridge.slot answer signature.result = .ok n) :
      CallbackEnds host function signature args w (some n)
        { after with bridge := ((after.bridge.cloneNative n).dropValue answer).dropValues values }

variable {host : Host σ} {function : ScriptFunction} {signature : CallSignature} {args : List NativeValue}
  {w after : World σ} {n : NativeValue} {m : Metadata}

theorem Run.bind_run {α β : Type} (run : Run σ α) (rest : α → Run σ β) (w : World σ) :
    (run >>= rest) w = (run w).bind fun (a,after) => rest a after := rfl

theorem Call.ofEffect_run {α : Type} (e : Effect α) (w : World σ) :
    (Call.ofEffect e).run w = some ((e w.bridge).1,{ w with bridge := (e w.bridge).2 }) := rfl

theorem Call.located_run {α : Type} (site : String) (place : Option Nat) (call : Call σ α) (w : World σ) :
    (Call.located site place call).run w = (call.run w).map (Prod.map (Except.mapError (·.located site place)) id) := by
  change Option.bind (call.run w) _ = _
  cases call.run w <;> rfl

theorem callbackArgs_returns (member : String) (index : Nat) (done : List ScriptValue) (vs : List NativeValue)
    (types : List TypeEncoding) (w : World σ) :
    ∃ result after, (Host.callbackArgs member index done vs types : Call σ _).run w = some (result,after) := by
  induction vs generalizing index done types w with
  | nil => exact ⟨_,_,rfl⟩
  | cons v rest ih =>
    cases types with
    | nil => exact ⟨_,_,rfl⟩
    | cons ty types =>
      rw [Host.callbackArgs]
      change ∃ result after, (_ >>= _ : Run σ _) w = some (result,after)
      rw [Run.bind_run,Call.located_run,Call.ofEffect_run]
      rcases Effect.toScriptingShared v ty w.bridge with ⟨e | value,b⟩
      · exact ⟨_,_,rfl⟩
      · exact ih _ _ _ _

-- What native code is handed once the script's function has ended; the values that it was given go then, and what
-- code the answer has left with native code keeps its handles.
def handedBack (ty : TypeEncoding) (values : List ScriptValue) :
    Except BridgeError ScriptValue × World σ → NativeValue × World σ
  | (.error _,v) => (.zero ty.nativeKind,{ v with bridge := v.bridge.dropValues values })
  | (.ok answer,v) =>
    match v.bridge.slot answer ty with
    | .ok n => (n,{ v with bridge := ((v.bridge.cloneNative n).dropValue answer).dropValues values })
    | .error _ =>
      (.zero ty.nativeKind,{ v with bridge := (v.bridge.noteConversionError.dropValue answer).dropValues values })

-- Once the arguments are there, all that is left to do is one call of the function.
theorem invokeBlock_calls (counted : args.length = signature.params.length) (opened : w.bridge.isOpen = true)
    {values : List ScriptValue} {v : World σ} (handed : (handedArgs function signature args).run w = some (.ok values,v)) :
    host.invokeBlock (.ofFunction function signature) args w = ((host.callScript function values).run v).map
      fun outcome => (.ok (handedBack signature.result values outcome).1,(handedBack signature.result values outcome).2) := by
  have arity : ¬args.length ≠ signature.arity := not_not.mpr counted
  rw [handedArgs] at handed
  rw [Host.invokeBlock,if_neg arity,readBridge_then,opened,if_pos rfl,Run.bind_run,handed,Option.bind_some]
  dsimp only
  rw [Run.bind_run]
  rcases (host.callScript function values).run v with _ | ⟨e | answer,after⟩
  · rfl
  · rfl
  · rw [Option.bind_some]
    dsimp only
    rw [Run.bind_run,Call.ofEffect_run,Effect.toNativeOwned,Effect.toNative,Option.map_some,handedBack]
    cases after.bridge.slot answer signature.result <;> rfl

theorem invokeBlock_ends (counted : args.length = signature.params.length)
    (returns : ∀ values v, (handedArgs function signature args).run w = some (.ok values,v) →
      ∃ result after, (host.callScript function values).run v = some (result,after)) :
    ∃ outcome after, CallbackEnds host function signature args w outcome after ∧
      host.invokeBlock (.ofFunction function signature) args w =
        some (.ok (outcome.getD (.zero signature.result.nativeKind)),after) := by
  have arity : ¬args.length ≠ signature.arity := not_not.mpr counted
  cases opened : w.bridge.isOpen with
  | false =>
    refine ⟨none,w,.closed opened,?_⟩
    rw [Host.invokeBlock,if_neg arity,readBridge_then,opened]
    rfl
  | true =>
    obtain ⟨result,v,handed⟩ := callbackArgs_returns (function.name.getD "block") 0 [] args signature.params w
    cases result with
    | error e =>
      refine ⟨none,v,.unreadable opened handed,?_⟩
      rw [Host.invokeBlock,if_neg arity,readBridge_then,if_pos opened,Run.bind_run,handed]
      rfl
    | ok values =>
      obtain ⟨result,after,answers⟩ := returns values v handed
      have does : host.invokeBlock (.ofFunction function signature) args w = _ := invokeBlock_calls counted opened handed
      rw [answers,Option.map_some] at does
      cases result with
      | error e => exact ⟨none,_,.failed opened handed answers,does⟩
      | ok answer =>
        rw [handedBack] at does
        cases fits : after.bridge.slot answer signature.result with
        | error e =>
          rw [fits] at does
          exact ⟨none,_,.unfit opened handed answers fits,does⟩
        | ok n =>
          rw [fits] at does
          exact ⟨some n,_,.converted opened handed answers fits,does⟩

theorem CallbackEnds.shaped (keeps : host.Preserves fun b => b.metadata = m) (known : w.bridge.metadata = m)
    (ends : CallbackEnds host function signature args w (some n) after) : HasShape m signature.result n := by
  cases ends with
  | @converted values answer v middle _ opened handed answers fits =>
    have invariant := Bridge.metadata_invariant m
    have first := Host.callbackArgs_preserves invariant _ 0 [] args signature.params w _ v known handed
    have second := Host.callScript_preserves invariant keeps function values v _ middle first answers
    rw [← second]
    exact Bridge.slot_shaped middle.bridge answer signature.result n fits

-- The block that a function is made hands native code a value of the right kind, however the callback
-- ends. The shape is the whole one except where the zero value stands for a structure that has fields.
theorem callback_results_shaped (keeps : host.Preserves fun b => b.metadata = m) (known : w.bridge.metadata = m)
    (counted : args.length = signature.params.length)
    (returns : ∀ values v, (handedArgs function signature args).run w = some (.ok values,v) →
      ∃ result after, (host.callScript function values).run v = some (result,after)) :
    Effect.toNative (.function function) (.block signature.result signature.params) w.bridge =
      (.ok (.block (some (.ofFunction function signature))),w.bridge) ∧
    ∃ outcome after n, CallbackEnds host function signature args w outcome after ∧
      n = outcome.getD (.zero signature.result.nativeKind) ∧
      host.invokeBlock (.ofFunction function signature) args w = some (.ok n,after) ∧
      n.kind = signature.result.nativeKind ∧
      (HasShape m signature.result n ↔
        ¬(outcome = none ∧ ∃ id, signature.result = .struct id ∧ Bridge.layout? m id ≠ some [])) := by
  refine ⟨rfl,?_⟩
  obtain ⟨outcome,after,ends,does⟩ := invokeBlock_ends counted returns
  refine ⟨outcome,after,_,ends,rfl,does,?_⟩
  cases outcome with
  | some n =>
    have shape := ends.shaped keeps known
    exact ⟨shape.kind,fun _ => nofun,fun _ => shape⟩
  | none =>
    refine ⟨NativeValue.zero_kind _,?_⟩
    rw [Option.getD_none,HasShape.zero_iff]
    simp

-- A script whose code throws.
def throwing : Host Unit := ⟨fun _ _ w => some (.void,w),fun _ _ => Call.fail (.notFound "script" "answer")⟩

theorem throwing_preserves (I : Bridge → Prop) : throwing.Preserves I where
  perform _ _ := .pure _
  written _ _ := .throw _

theorem throwing_returns (values : List ScriptValue) (v : World Unit) :
    ∃ result after, (throwing.callScript (.written 0 none none 0) values).run v = some (result,after) :=
  ⟨_,_,rfl⟩

theorem thrown_number_keeps_shape : ∃ n after,
    throwing.invokeBlock (.ofFunction (.written 0 none none 0) ⟨.scalar (.int .i64),[]⟩) [] ⟨Effect.withNested,()⟩ =
      some (.ok n,after) ∧ HasShape Effect.nested (.scalar (.int .i64)) n := by
  have returns (values : List ScriptValue) (v : World Unit)
      (_ : (handedArgs (.written 0 none none 0) ⟨.scalar (.int .i64),[]⟩ []).run ⟨Effect.withNested,()⟩ =
        some (.ok values,v)) :
      ∃ result after, (throwing.callScript (.written 0 none none 0) values).run v = some (result,after) :=
    throwing_returns values v
  have known : Effect.withNested.metadata = Effect.nested := rfl
  obtain ⟨_,outcome,after,n,_,_,does,_,shaped⟩ := callback_results_shaped (throwing_preserves _) known rfl returns
  refine ⟨n,after,does,shaped.mpr ?_⟩
  intro ⟨_,id,same,_⟩
  cases same

-- In place of a structure of two integers native code is handed one without fields.
theorem thrown_structure_is_empty :
    (throwing.Preserves fun b => b.metadata = Effect.nested) ∧
    (∀ values v, ∃ result after, (throwing.callScript (.written 0 none none 0) values).run v = some (result,after)) ∧
    Bridge.layout? Effect.nested ⟨81⟩ = some [⟨"low",.scalar (.int .i64)⟩,⟨"high",.scalar (.int .u64)⟩] ∧
    throwing.invokeBlock (.ofFunction (.written 0 none none 0) ⟨.struct ⟨81⟩,[]⟩) [] ⟨Effect.withNested,()⟩ =
      some (.ok (.struct []),⟨Effect.withNested,()⟩) ∧
    ¬HasShape Effect.nested (.struct ⟨81⟩) (.struct []) := by
  refine ⟨throwing_preserves _,throwing_returns,Effect.inner_layout,?_,?_⟩
  · rw [Host.invokeBlock]
    rfl
  · intro shape
    cases shape with
    | struct described fields =>
      cases fields
      cases described.symm.trans Effect.inner_layout

end ObjectBridge
