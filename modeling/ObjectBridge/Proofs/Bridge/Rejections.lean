import ObjectBridge.Proofs.Bridge.Uses

namespace ObjectBridge

-- One of the arguments does not convert, and the error says so, together with where that argument stands.
def ArgumentFails (b : Bridge) (params : List TypeEncoding) (args : List ScriptValue) (e : BridgeError) : Prop :=
  ∃ (site : String) (i : Nat) (v : ScriptValue) (ty : TypeEncoding) (cause : BridgeError),
    args[i]? = some v ∧ params[i]? = some ty ∧ (Effect.toNative v ty b).1 = .error cause ∧
      e = cause.located site (some i)

namespace Effect

variable {b b' : Bridge} {params : List TypeEncoding} {args : List ScriptValue} {e : BridgeError}

theorem bind_error {one : Effect α} {f : α → Effect β} (fails : (one >>= f) b = (.error e,b')) :
    one b = (.error e,b') ∨ ∃ x middle, one b = (.ok x,middle) ∧ f x middle = (.error e,b') := by
  change ExceptT.bindCont f (one b).1 (one b).2 = _ at fails
  rcases run : one b with ⟨failure | x,middle⟩
  · rw [run] at fails
    cases fails
    exact .inl rfl
  · rw [run] at fails
    exact .inr ⟨x,middle,rfl,fails⟩

theorem argument_error {site : String} {place : Option Nat} {v : ScriptValue} {ty : TypeEncoding}
    (fails : located site place (toNative v ty) b = (.error e,b')) :
    b' = b.noteConversionError ∧ ∃ cause, (toNative v ty b).1 = .error cause ∧ e = cause.located site place := by
  unfold located toNative at fails
  cases converted : b.slot v ty with
  | ok n => rw [converted] at fails; cases fails
  | error cause =>
    rw [converted] at fails
    cases fails
    exact ⟨rfl,cause,by rw [toNative_fst,converted],rfl⟩

theorem frameFrom_error {member : String} {first : Nat} (fails : frameFrom member first args params b = (.error e,b')) :
    b' = b.noteConversionError ∧ ∃ i v ty cause, args[i]? = some v ∧ params[i]? = some ty ∧
      (toNative v ty b).1 = .error cause ∧ e = cause.located member (some (first+i)) := by
  induction args generalizing params first with
  | nil => cases fails
  | cons arg rest ih =>
    cases params with
    | nil => cases fails
    | cons ty types =>
      rcases bind_error fails with here | ⟨n,middle,one,later⟩
      · obtain ⟨noted,cause,failed,rfl⟩ := argument_error here
        exact ⟨noted,0,arg,ty,cause,rfl,rfl,failed,rfl⟩
      · obtain ⟨rfl,_⟩ := toNative_ok (located_ok one)
        rcases bind_error later with there | ⟨others,last,_,joined⟩
        · obtain ⟨noted,i,v,ty,cause,valued,typed,failed,rfl⟩ := ih there
          exact ⟨noted,i+1,v,ty,cause,valued,typed,failed,by rw [Nat.add_assoc,Nat.add_comm 1]⟩
        · cases joined

-- The arguments in front of the failing one left no trace.
theorem frame_error {member : String} (fails : frame member params args b = (.error e,b')) :
    b' = b.noteConversionError ∧ ArgumentFails b params args e := by
  obtain ⟨noted,i,v,ty,cause,valued,typed,failed,rfl⟩ := frameFrom_error fails
  exact ⟨noted,member,i,v,ty,cause,valued,typed,failed,by rw [Nat.zero_add]⟩

end Effect

section Refusals

variable {σ : Type} {w : World σ} {params : List TypeEncoding} {args : List ScriptValue} {method : MethodEntry}

-- Some argument does not convert to the type of its slot.
def Unconvertible (b : Bridge) (params : List TypeEncoding) (args : List ScriptValue) : Prop :=
  ∃ (i : Nat) (v : ScriptValue) (ty : TypeEncoding) (e : BridgeError),
    args[i]? = some v ∧ params[i]? = some ty ∧ (Effect.toNative v ty b).1 = .error e

-- What a refusal comes to: an error, and of the world at most the counter of failed conversions.
inductive Refuses (w : World σ) (params : List TypeEncoding) (args : List ScriptValue) {α : Type} :
    Option (Except BridgeError α × World σ) → Prop where
  | miscounted (e : BridgeError) (differ : args.length ≠ params.length) : Refuses w params args (some (.error e,w))
  | unconvertible {e : BridgeError} (counted : args.length = params.length) (fails : ArgumentFails w.bridge params args e) :
      Refuses w params args (some (.error e,{ w with bridge := w.bridge.noteConversionError }))

theorem bind_fails {call : Call σ α} {rest : α → Call σ β} {e : BridgeError} {after : World σ}
    (fails : call.run w = some (.error e,after)) : (call >>= rest).run w = some (.error e,after) := by
  rw [Call.bind_run,fails]
  rfl

theorem Refuses.bind {call : Call σ α} {rest : α → Call σ β} (refuses : Refuses w params args (call.run w)) :
    Refuses w params args ((call >>= rest).run w) := by
  rw [Call.bind_run]
  generalize call.run w = outcome at refuses
  cases refuses with
  | miscounted e differ => exact .miscounted e differ
  | unconvertible counted fails => exact .unconvertible counted fails

theorem frame_refuses (member : String) (counted : args.length = params.length)
    (bad : Unconvertible w.bridge params args) :
    Refuses w params args ((Call.ofEffect (Effect.frame member params args)).run w) := by
  rcases run : Effect.frame member params args w.bridge with ⟨e | slots,after⟩
  · obtain ⟨rfl,fails⟩ := Effect.frame_error run
    simp only [Call.ofEffect,Run.onBridge,ExceptT.run_mk]
    rw [run]
    exact .unconvertible counted fails
  · obtain ⟨_,converted⟩ := Effect.frame_ok run
    obtain ⟨i,v,ty,e,valued,typed,fails⟩ := bad
    have placed : (args.zip params)[i]? = some (v,ty) := List.getElem?_zip_eq_some.mpr ⟨valued,typed⟩
    obtain ⟨n,_,taken⟩ := Outcome.related_at converted placed
    rw [Effect.toNative_fst,taken] at fails
    cases fails

-- The count comes first, so that what does not convert matters only if the count is right.
theorem counted_refuses {rest : List NativeValue → Call σ β} (member : String)
    (bad : args.length ≠ method.signature.params.length ∨ Unconvertible w.bridge method.signature.params args) :
    Refuses w method.signature.params args ((do
      Host.checkArity method args
      rest (← Call.ofEffect (Effect.frame member method.signature.params args)) : Call σ β).run w) := by
  by_cases counted : args.length = method.arity
  · have passed : (Host.checkArity method args : Call σ Unit) = pure () := by
      rw [Host.checkArity,if_neg (not_not.mpr counted)]
    rw [passed,pure_bind]
    exact (frame_refuses member counted (bad.resolve_left (not_not.mpr counted))).bind
  · apply Refuses.bind
    have other : args.length ≠ method.arity := counted
    rw [Host.checkArity,if_pos other]
    exact .miscounted _ counted

theorem invoke_refuses (host : Host σ) (target : Target)
    (bad : args.length ≠ method.signature.params.length ∨ Unconvertible w.bridge method.signature.params args) :
    Refuses w method.signature.params args ((host.invoke method target args).run w) := by
  unfold Host.invoke
  exact counted_refuses method.name bad

theorem constructWith_refuses (host : Host σ) {c : SynthesizedClass} (instantiable : c.kind = .interface ∧ c.native.isSome = true)
    (bad : args.length ≠ method.signature.params.length ∨ Unconvertible w.bridge method.signature.params args) :
    Refuses w method.signature.params args ((host.constructWith c method args).run w) := by
  obtain ⟨interface,backed⟩ := instantiable
  obtain ⟨native,known⟩ := Option.isSome_iff_exists.mp backed
  unfold Host.constructWith
  rw [interface,known]
  exact counted_refuses method.selector bad

end Refusals

namespace Use

-- What is asked before the arguments are looked at, beside their number: a property that is not
-- read-only, a class that has instances.
def Permitted : Use → Prop
  | setProperty target name _ => ∀ property, target.property? name = some property → property.property.isReadonly = false
  | construct cls _ | constructWith cls _ _ => cls.kind = .interface ∧ cls.native.isSome = true
  | _ => True

-- The use fails with `e` because it got to its arguments, and one of them does not convert.
def FailsToConvert (use : Use) (b : Bridge) (e : BridgeError) : Prop :=
  use.Permitted ∧ ∃ params, use.params? b.metadata = some params ∧ use.args.length = params.length ∧
    ArgumentFails b params use.args e

-- How a rejected use ends. A failed conversion is counted, and nothing else changes at all.
inductive Rejected (use : Use) (w : World σ) : Option (Except BridgeError ScriptValue × World σ) → Prop where
  | counted {e : BridgeError} (fails : use.FailsToConvert w.bridge e) :
      Rejected use w (some (.error e,{ w with bridge := { w.bridge with conversionErrors := w.bridge.conversionErrors+1 } }))
  | uncounted (e : BridgeError) (otherwise : ∀ e, ¬use.FailsToConvert w.bridge e) : Rejected use w (some (.error e,w))

section Ways

variable {w : World σ} {use : Use} {params : List TypeEncoding} {host : Host σ} {e : BridgeError}

theorem rejected_of_miscount (member : use.params? w.bridge.metadata = some params) (differ : use.args.length ≠ params.length)
    (e : BridgeError) : use.Rejected w (some (.error e,w)) := by
  apply Rejected.uncounted
  rintro _ ⟨_,others,again,counted,_⟩
  cases member.symm.trans again
  exact differ counted

theorem rejected_of_forbidden (forbidden : ¬use.Permitted) (fails : (use.run host).run w = some (.error e,w)) :
    use.Rejected w ((use.run host).run w) := by
  rw [fails]
  exact .uncounted e fun _ converted => forbidden converted.1

theorem rejected_of_refuses (permitted : use.Permitted) (member : use.params? w.bridge.metadata = some params)
    (refuses : Refuses w params use.args ((use.run host).run w)) : use.Rejected w ((use.run host).run w) := by
  generalize (use.run host).run w = outcome at refuses
  cases refuses with
  | miscounted e differ => exact rejected_of_miscount member differ e
  | unconvertible counted fails => exact .counted ⟨permitted,params,member,counted,fails⟩

theorem constructWith_forbidden {c : SynthesizedClass} (forbidden : ¬(c.kind = .interface ∧ c.native.isSome = true))
    (init : MethodEntry) (args : List ScriptValue) :
    (host.constructWith c init args).run w = some (.error (.notFound c.name "native class"),w) := by
  unfold Host.constructWith
  split
  · rename_i native interface known
    exact absurd ⟨interface,by rw [known]; rfl⟩ forbidden
  · rfl

-- Either there is an initializer for the arguments, or there are arguments and none that takes them.
theorem construct_selects (host : Host σ) (c : SynthesizedClass) (args : List ScriptValue) (w : World σ) :
    (∃ init, (construct c args).params? w.bridge.metadata = some init.signature.params ∧
      host.construct c args = host.constructWith c init args) ∨
    (construct c args).params? w.bridge.metadata = some [] ∧ args.length ≠ 0 ∧
      ∃ e, (host.construct c args).run w = some (.error e,w) := by
  unfold Host.construct
  rw [params?]
  cases found : c.initializerForArity? args.length with
  | some init => exact .inl ⟨init,rfl,rfl⟩
  | none =>
    cases args with
    | nil => exact .inl ⟨.rootInit c.name,rfl,rfl⟩
    | cons arg rest => exact .inr ⟨rfl,Nat.succ_ne_zero _,_,rfl⟩

theorem constructions_rejected {init : MethodEntry} {args : List ScriptValue} {c : SynthesizedClass}
    (same : use.Permitted ↔ c.kind = .interface ∧ c.native.isSome = true) (given : use.args = args)
    (runs : use.run host = (do return .object (← host.constructWith c init args)))
    (member : use.params? w.bridge.metadata = some init.signature.params)
    (bad : args.length ≠ init.signature.params.length ∨ Unconvertible w.bridge init.signature.params args) :
    use.Rejected w ((use.run host).run w) := by
  subst given
  by_cases permitted : use.Permitted
  · apply rejected_of_refuses permitted member
    rw [runs]
    exact (constructWith_refuses host (same.mp permitted) bad).bind
  · apply rejected_of_forbidden permitted
    rw [runs]
    exact bind_fails (constructWith_forbidden (permitted ∘ same.mpr) init use.args)

theorem setProperty_rejected (target : Target) (name : String) (value : ScriptValue)
    (member : (setProperty target name value).params? w.bridge.metadata = some params)
    (bad : [value].length ≠ params.length ∨ Unconvertible w.bridge params [value]) :
    (setProperty target name value).Rejected w (((setProperty target name value).run host).run w) := by
  obtain ⟨setter,found,rfl⟩ := Option.map_eq_some_iff.mp member
  obtain ⟨property,known,writable⟩ := Option.bind_eq_some_iff.mp found
  have unfolded : host.setProperty target name value =
      (if property.property.isReadonly then Call.fail (.readOnlyProperty target.cls.name name)
        else do ExceptT.lift (Run.dropValue (← host.invoke setter target [value]))) := by
    rw [Host.setProperty,known]
    dsimp only
    rw [writable]
  cases readonly : property.property.isReadonly with
  | true =>
    rw [if_pos readonly] at unfolded
    have fails : ((setProperty target name value).run host).run w =
        some (.error (.readOnlyProperty target.cls.name name),w) := by
      rw [run,unfolded]
      rfl
    refine rejected_of_forbidden ?_ fails
    intro permitted
    cases readonly.symm.trans (permitted property known)
  | false =>
    rw [if_neg (Bool.eq_false_iff.mp readonly)] at unfolded
    apply rejected_of_refuses
    · intro other again
      cases known.symm.trans again
      exact readonly
    · exact member
    · rw [run,unfolded]
      exact (invoke_refuses host target bad).bind.bind

theorem callFunction_rejected (name : String) (args : List ScriptValue)
    (member : (callFunction name args).params? w.bridge.metadata = some params)
    (bad : args.length ≠ params.length ∨ Unconvertible w.bridge params args) :
    (callFunction name args).Rejected w (((callFunction name args).run host).run w) := by
  have permitted : (callFunction name args).Permitted := trivial
  refine rejected_of_refuses permitted member ?_
  rw [params?] at member
  split at member
  · rename_i id head signature known
    cases member
    rw [run,Host.callFunction,readBridge_bind,known]
    dsimp only
    by_cases counted : args.length = signature.arity
    · rw [if_neg (not_not.mpr counted)]
      exact (frame_refuses name counted (bad.resolve_left (not_not.mpr counted))).bind
    · have other : args.length ≠ signature.arity := counted
      rw [if_pos other]
      exact .miscounted _ counted
  · cases member

-- Every way to use an object rejects what it is handed before it has touched anything.
theorem rejected_leaves_world (host : Host σ) (use : Use) (w : World σ) {params : List TypeEncoding}
    (member : use.params? w.bridge.metadata = some params)
    (bad : use.args.length ≠ params.length ∨ Unconvertible w.bridge params use.args) :
    use.Rejected w ((use.run host).run w) := by
  cases use with
  | invoke method target args =>
    cases member
    exact rejected_of_refuses trivial rfl (invoke_refuses host target bad)
  | callMethod x name args =>
    obtain ⟨method,found,rfl⟩ := Option.map_eq_some_iff.mp member
    refine rejected_of_refuses trivial member ?_
    rw [run,Host.callMethod,found]
    exact invoke_refuses host (.instance x) bad
  | callStatic cls name args =>
    obtain ⟨method,found,rfl⟩ := Option.map_eq_some_iff.mp member
    refine rejected_of_refuses trivial member ?_
    rw [run,Host.callStatic,found]
    exact invoke_refuses host (.static cls) bad
  | getProperty target name =>
    obtain ⟨method,found,rfl⟩ := Option.map_eq_some_iff.mp member
    refine rejected_of_refuses trivial member ?_
    rw [run,Host.getProperty,found]
    exact invoke_refuses host target bad
  | setProperty target name value => exact setProperty_rejected target name value member bad
  | construct cls args =>
    rcases construct_selects host cls args w with ⟨init,types,runs⟩ | ⟨types,given,e,fails⟩
    · cases member.symm.trans types
      exact constructions_rejected .rfl rfl (by rw [run,runs]; rfl) types bad
    · rw [run,bind_fails fails]
      exact rejected_of_miscount types given e
  | constructWith cls init args =>
    cases member
    exact constructions_rejected .rfl rfl rfl rfl bad
  | callFunction name args => exact callFunction_rejected name args member bad

end Ways

-- The method takes one object: without one there is nothing to count, and one that died is counted.
theorem stale_argument_rejected :
    (invoke take (.instance keeper) []).Rejected ⟨takeover,()⟩ (((invoke take (.instance keeper) []).run mute).run ⟨takeover,()⟩) ∧
    (invoke take (.instance keeper) [.object stale]).Rejected ⟨takeover,()⟩
      (((invoke take (.instance keeper) [.object stale]).run mute).run ⟨takeover,()⟩) := by
  refine ⟨rejected_leaves_world mute _ _ rfl (.inl (by decide)),rejected_leaves_world mute _ _ rfl (.inr ?_)⟩
  exact ⟨0,.object stale,.object none,_,rfl,rfl,rfl⟩

end Use
end ObjectBridge
