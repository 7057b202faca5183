import ObjectBridge.Proofs.Bridge.Moves
import ObjectBridge.Proofs.Bridge.Slots
import ObjectBridge.Proofs.Registry.Runs

namespace ObjectBridge

variable {σ : Type}

-- A call without native code fails, or it succeeds with `Q` of its answer and what it leaves.
inductive Ends {α : Type} (Q : α → World σ → Prop) (call : Call σ α) (w : World σ) : Prop where
  | fails (e : BridgeError) (after : World σ) (does : call.run w = some (.error e,after))
  | passes (a : α) (after : World σ) (does : call.run w = some (.ok a,after)) (holds : Q a after)

-- Either every host sees the same failure, so that no native code was run, or the host is handed one
-- routine, with `P` true of the bridge and the frame at that moment, and is not needed afterwards.
inductive Guarded {ε α : Type} (P : Bridge → Frame → Prop) (run : Host σ → Run σ (Except ε α)) (w : World σ) : Prop where
  | refused (e : ε) (after : World σ) (fails : ∀ host, run host w = some (.error e,after))
  | enters (body : Routine) (frame : Frame) (now : World σ) (finish : NativeValue → Run σ (Except ε α))
      (met : P now.bridge frame) (does : ∀ host, run host w = (host.perform body frame >>= finish) now)

section Calculus

variable {ε ε' α β : Type} {P Q : Bridge → Frame → Prop} {w v : World σ}

theorem Guarded.weaken {run : Host σ → Run σ (Except ε α)} (guarded : Guarded P run w)
    (implies : ∀ b frame, P b frame → Q b frame) : Guarded Q run w := by
  cases guarded with
  | refused e after fails => exact .refused e after fails
  | enters body frame now finish met does => exact .enters body frame now finish (implies _ _ met) does

theorem Guarded.from {run other : Host σ → Run σ (Except ε α)} (guarded : Guarded P other v)
    (same : ∀ host, run host w = other host v) : Guarded P run w := by
  cases guarded with
  | refused e after fails => exact .refused e after fun host => (same host).trans (fails host)
  | enters body frame now finish met does =>
    exact .enters body frame now finish met fun host => (same host).trans (does host)

-- What follows may make something else of a failure, but not run native code after it.
theorem Guarded.then {run : Host σ → Run σ (Except ε α)} {rest : Except ε α → Run σ (Except ε' β)}
    (guarded : Guarded P run w) (failing : ∀ e v, ∃ e' after, rest (.error e) v = some (.error e',after)) :
    Guarded P (fun host => run host >>= rest) w := by
  have unfolded : ∀ host, (run host >>= rest) w = (run host w).bind fun (result,after) => rest result after :=
    fun _ => rfl
  cases guarded with
  | refused e after fails =>
    obtain ⟨e',last,does⟩ := failing e after
    refine .refused e' last fun host => ?_
    rw [unfolded,fails host]
    exact does
  | enters body frame now finish met does =>
    refine .enters body frame now (fun n => finish n >>= rest) met fun host => ?_
    rw [unfolded,does host,← bind_assoc]
    rfl

theorem Guarded.bind {call : Host σ → Call σ α} {rest : α → Call σ β}
    (guarded : Guarded P (fun host => (call host).run) w) : Guarded P (fun host => (call host >>= rest).run) w := by
  have both : Guarded P (fun host => (call host).run >>= ExceptT.bindCont rest) w :=
    guarded.then fun e v => ⟨e,v,rfl⟩
  exact both

theorem Guarded.lifted {run : Host σ → Run σ (Except ε α)} {rest : Except ε α → Call σ β} (guarded : Guarded P run w)
    (failing : ∀ e v, ∃ e' after, (rest (.error e)).run v = some (.error e',after)) :
    Guarded P (fun host => (ExceptT.lift (run host) >>= rest).run) w := by
  simp only [ExceptT.run_bind_lift]
  exact guarded.then failing

theorem Guarded.ofNative {run : Host σ → Run σ (Except CallError α)} (guarded : Guarded P run w) :
    Guarded P (fun host => (Call.ofNative (run host)).run) w :=
  guarded.then fun e v => ⟨.native e,v,rfl⟩

theorem Ends.guarded {Q : α → World σ → Prop} {first : Call σ α} {rest : α → Host σ → Call σ β}
    (ends : Ends Q first w) (next : ∀ a after, Q a after → Guarded P (fun host => (rest a host).run) after) :
    Guarded P (fun host => (first >>= fun a => rest a host).run) w := by
  have unfolded : ∀ host, (first >>= fun a => rest a host).run w = (first.run w).bind fun (result,after) =>
    ExceptT.bindCont (fun a => rest a host) result after := fun _ => rfl
  cases ends with
  | fails e after does => exact .refused e after fun host => by rw [unfolded,does]; rfl
  | passes a after does holds => exact (next a after holds).from fun host => by rw [unfolded,does]; rfl

end Calculus

def Target.wrapper? : Target → Option Wrapper
  | .instance w => some w
  | .static _ => none

-- What is true when native code is run on a frame: the receiver stands, and behind the slots stand the
-- wrappers that the arguments held, each of a class that its slot takes.
structure Checks (b : Bridge) (receiver : Option Wrapper) (params : List TypeEncoding) (args : List ScriptValue)
    (frame : Frame) : Prop where
  receiver : ∀ w, receiver = some w → frame.receiver = .instance w.address ∧ b.Stands w
  counted : args.length = params.length ∧ frame.args.length = params.length
  slots : ∀ (i : Nat) ty v path target w, params[i]? = some ty → args[i]? = some v → GivenAt b.metadata ty v path target w →
    frame.args[i]?.bind (·.at? path) = some (.object w.address) ∧ b.Admits target w

-- When the call was made, and still when native code is run.
def Lasts (start : Bridge) (receiver : Option Wrapper) (params : List TypeEncoding) (args : List ScriptValue)
    (now : Bridge) (frame : Frame) : Prop :=
  Checks start receiver params args frame ∧ Checks now receiver params args frame

-- As many arguments as there are slots, and each one converted to the type of its slot.
structure Bridge.Fills (b : Bridge) (params : List TypeEncoding) (args : List ScriptValue) (slots : List NativeValue) :
    Prop where
  counted : args.length = params.length
  converted : List.Forall₂ (fun pair n => b.slot pair.1 pair.2 = .ok n) (args.zip params) slots

section Parts

variable {w : World σ} {method : MethodEntry} {params : List TypeEncoding} {args : List ScriptValue}
  {slots : List NativeValue} {b : Bridge}

-- The frame that was made of the arguments, sent to where the receiver lives.
theorem frame_checks {receiver : Option Wrapper} {aim : Receiver} (selector : String)
    (aimed : ∀ x, receiver = some x → aim = .instance x.address ∧ b.Stands x) (fills : b.Fills params args slots) :
    Checks b receiver params args ⟨aim,selector,slots⟩ := by
  obtain ⟨counted,converted⟩ := fills
  refine ⟨aimed,⟨counted,?_⟩,?_⟩
  · rw [← converted.length_eq,List.length_zip,counted,Nat.min_self]
  · intro i ty v path target x typed valued given
    have placed : (args.zip params)[i]? = some (v,ty) := List.getElem?_zip_eq_some.mpr ⟨valued,typed⟩
    obtain ⟨n,there,taken⟩ := Outcome.related_at converted placed
    rw [there]
    exact Bridge.slot_given given taken

theorem checkArity_run (method : MethodEntry) (args : List ScriptValue) (w : World σ) :
    args.length = method.arity ∧ (Host.checkArity method args : Call σ Unit).run w = some (.ok (),w) ∨
      ∃ e, (Host.checkArity method args : Call σ Unit).run w = some (.error e,w) := by
  unfold Host.checkArity
  by_cases counted : args.length = method.arity
  · rw [if_neg (not_not.mpr counted)]
    exact .inl ⟨counted,rfl⟩
  · rw [if_pos counted]
    exact .inr ⟨_,rfl⟩

theorem checkArity_ends (method : MethodEntry) (args : List ScriptValue) (w : World σ) :
    Ends (fun _ after => after = w ∧ args.length = method.signature.params.length) (Host.checkArity method args) w := by
  rcases checkArity_run method args w with ⟨counted,passes⟩ | ⟨e,fails⟩
  · exact .passes () w passes ⟨rfl,counted⟩
  · exact .fails e w fails

theorem frame_ends (member : String) (params : List TypeEncoding) (args : List ScriptValue) (w : World σ) :
    Ends (fun slots after => after = w ∧
        List.Forall₂ (fun pair n => w.bridge.slot pair.1 pair.2 = .ok n) (args.zip params) slots)
      (Call.ofEffect (Effect.frame member params args)) w := by
  rcases run : Effect.frame member params args w.bridge with ⟨e | slots,after⟩
  · exact .fails e ⟨after,w.host⟩ (by simp only [Call.ofEffect,Run.onBridge,ExceptT.run_mk]; rw [run])
  · obtain ⟨rfl,converted⟩ := Effect.frame_ok run
    exact .passes slots w (by simp only [Call.ofEffect,Run.onBridge,ExceptT.run_mk]; rw [run]) ⟨rfl,converted⟩

theorem receiverOf_ends (method : MethodEntry) (target : Target) (w : World σ) :
    Ends (fun receiver after => after = w ∧
        ∀ x, target.wrapper? = some x → receiver = .instance x.address ∧ w.bridge.Stands x)
      (Host.receiverOf method target) w := by
  cases target with
  | «instance» x =>
    have unfolded : (Host.receiverOf method (.instance x) : Call σ Receiver).run w =
        (if w.bridge.holdings.isReleased x then Call.fail (.releasedInstance x.cls.name x.address)
          else if w.bridge.holdings.isCurrent x = false then Call.fail (.native (.deadReceiver x.address))
          else pure (.instance x.address) : Call σ Receiver).run w := rfl
    cases released : w.bridge.holdings.isReleased x with
    | true => exact .fails _ w (by rw [unfolded,if_pos released]; rfl)
    | false =>
      rw [if_neg (Bool.eq_false_iff.mp released)] at unfolded
      cases current : w.bridge.holdings.isCurrent x with
      | false => exact .fails _ w (by rw [unfolded,if_pos current]; rfl)
      | true =>
        refine .passes (.instance x.address) w (by rw [unfolded,if_neg (by simp [current])]; rfl) ⟨rfl,?_⟩
        rintro _ ⟨⟩
        exact ⟨rfl,released,Bridge.isCurrent_iff.mp current⟩
  | static c =>
    cases native : c.native with
    | none => exact .fails _ w (by rw [Host.receiverOf,native]; rfl)
    | some id => exact .passes (.classObject id) w (by rw [Host.receiverOf,native]; rfl) ⟨rfl,by rintro _ ⟨⟩⟩

theorem readBridge_ends (f : Bridge → β) (w : World σ) :
    Ends (fun a after => after = w ∧ a = f w.bridge) (Call.readBridge f) w :=
  .passes _ _ rfl ⟨rfl,rfl⟩

theorem noteNativeCall_ends (w : World σ) :
    Ends (fun _ after => after = { w with bridge := { w.bridge with nativeCalls := w.bridge.nativeCalls+1 } })
      Call.noteNativeCall w :=
  .passes () _ rfl rfl

theorem enter_guarded {P : Bridge → Frame → Prop} (body : Routine) (arity : Nat) (frame : Frame)
    (met : P w.bridge frame) : Guarded P (fun host => host.enter body arity frame) w := by
  by_cases counted : frame.args.length = arity
  · refine .enters body frame w (fun n => pure (.ok n)) met fun host => ?_
    rw [Host.enter,if_pos counted]
  · refine .refused (.argCountMismatch arity frame.args.length) w fun host => ?_
    rw [Host.enter,if_neg counted]
    rfl

theorem readBridge_then (f : Bridge → β) (rest : β → Run σ γ) : (Run.readBridge f >>= rest) w = rest (f w.bridge) w := rfl

theorem readBridge_bind (f : Bridge → β) (rest : β → Call σ γ) :
    (Call.readBridge f >>= rest).run w = (rest (f w.bridge)).run w := rfl

theorem Call.bind_run (first : Call σ β) (rest : β → Call σ γ) (w : World σ) :
    (first >>= rest).run w = (first.run w).bind fun (result,after) => ExceptT.bindCont rest result after := rfl

theorem send_guarded {P : Bridge → Frame → Prop} (receiver : Receiver) (selector : String) (slots : List NativeValue)
    (met : P w.bridge ⟨receiver,selector,slots⟩) : Guarded P (fun host => host.send receiver selector slots) w := by
  cases target : w.bridge.messageTarget receiver selector with
  | ok body =>
    refine (enter_guarded body (selectorArity selector) _ met).from fun host => ?_
    rw [Host.send,readBridge_then,target]
  | error e =>
    refine .refused e w fun host => ?_
    rw [Host.send,readBridge_then,target]
    rfl

theorem callPlain_guarded {P : Bridge → Frame → Prop} (name : String) (slots : List NativeValue)
    (met : P w.bridge ⟨.none,name,slots⟩) : Guarded P (fun host => host.callPlain name slots) w := by
  cases known : w.bridge.functions.get? name with
  | some f =>
    refine (enter_guarded f.body f.arity _ met).from fun host => ?_
    rw [Host.callPlain,readBridge_then,known]
  | none =>
    refine .refused (.unknownFunction name) w fun host => ?_
    rw [Host.callPlain,readBridge_then,known]
    rfl

theorem allocate_run (cls : ClassId) (place : Option Address) (w : World σ) :
    (∃ name, w.bridge.natives.name? cls = some name ∧ (Call.ofNative (Host.allocate cls place) : Call σ Address).run w =
      some (.ok (w.bridge.heap.nextAddress place),{ w with bridge := { w.bridge with holdings :=
        { w.bridge.holdings with heap := (w.bridge.heap.allocate cls place).2 } } })) ∨
      ∃ e, (Call.ofNative (Host.allocate cls place) : Call σ Address).run w = some (.error e,w) := by
  have unfolded : (Call.ofNative (Host.allocate cls place) : Call σ Address).run w =
      (Host.allocate cls place w).bind fun (result,after) => some (result.mapError .native,after) := rfl
  rw [unfolded,Host.allocate,Run.onBridge]
  cases known : w.bridge.natives.name? cls with
  | none => exact .inr ⟨_,rfl⟩
  | some name => exact .inl ⟨name,rfl,rfl⟩

theorem allocate_ends (cls : ClassId) (place : Option Address) (w : World σ) :
    Ends (fun _ after => after = { w with bridge := { w.bridge with holdings :=
        { w.bridge.holdings with heap := (w.bridge.heap.allocate cls place).2 } } })
      (Call.ofNative (Host.allocate cls place)) w := by
  rcases allocate_run cls place w with ⟨name,_,allocates⟩ | ⟨e,fails⟩
  · exact .passes _ _ allocates rfl
  · exact .fails e w fails

-- A new instance goes to an address where none lives, so that it takes no wrapper's place.
theorem stands_allocate (sound : b.heap.Sound) {x : Wrapper} (stands : b.Stands x) (cls : ClassId) (place : Option Address) :
    Bridge.Stands { b with holdings := { b.holdings with heap := (b.heap.allocate cls place).2 } } x := by
  refine ⟨stands.1,?_⟩
  change (b.heap.allocate cls place).2.serial? x.address = some x.serial
  rw [Heap.serial?_allocate,if_neg,stands.2]
  intro taken
  obtain ⟨i,found,_⟩ := Heap.serial?_eq.mp stands.2
  rw [taken,(Heap.nextAddress_free sound place).1] at found
  cases found

theorem Checks.lasts {b' : Bridge} {receiver : Option Wrapper} {frame : Frame}
    (checks : Checks b receiver params args frame) (same : b'.metadata = b.metadata)
    (stand : ∀ x, b.Stands x → b'.Stands x) : Lasts b receiver params args b' frame := by
  refine ⟨checks,fun x is => (checks.receiver x is).imp_right (stand x),checks.counted,?_⟩
  intro i ty v path target x typed valued given
  obtain ⟨placed,admits⟩ := checks.slots i ty v path target x typed valued (same ▸ given)
  exact ⟨placed,stand x admits.stands,admits.compatible⟩

end Parts

inductive Use where
  | invoke (method : MethodEntry) (target : Target) (args : List ScriptValue)
  | callMethod (x : Wrapper) (name : String) (args : List ScriptValue)
  | callStatic (cls : SynthesizedClass) (name : String) (args : List ScriptValue)
  | getProperty (target : Target) (name : String)
  | setProperty (target : Target) (name : String) (value : ScriptValue)
  | construct (cls : SynthesizedClass) (args : List ScriptValue)
  | constructWith (cls : SynthesizedClass) (init : MethodEntry) (args : List ScriptValue)
  | callFunction (name : String) (args : List ScriptValue)

namespace Use

def run (host : Host σ) : Use → Call σ ScriptValue
  | invoke method target args => host.invoke method target args
  | callMethod x name args => host.callMethod x name args
  | callStatic cls name args => host.callStatic cls name args
  | getProperty target name => host.getProperty target name
  | setProperty target name value => do
    host.setProperty target name value
    return .undefined
  | construct cls args => do return .object (← host.construct cls args)
  | constructWith cls init args => do return .object (← host.constructWith cls init args)
  | callFunction name args => host.callFunction name args

def receiver? : Use → Option Wrapper
  | invoke _ target _ | getProperty target _ | setProperty target _ _ => target.wrapper?
  | callMethod x _ _ => some x
  | callStatic .. | construct .. | constructWith .. | callFunction .. => none

def args : Use → List ScriptValue
  | invoke _ _ args | callMethod _ _ args | callStatic _ _ args | construct _ args | constructWith _ _ args
  | callFunction _ args => args
  | getProperty .. => []
  | setProperty _ _ value => [value]

-- The types of the slots, if there is such a member at all.
def params? (m : Metadata) : Use → Option (List TypeEncoding)
  | invoke method _ _ => some method.signature.params
  | callMethod x name _ => (x.cls.instanceMethods.get? name).map (·.signature.params)
  | callStatic cls name _ => (cls.staticMethods.get? name).map (·.signature.params)
  | getProperty target name => ((target.property? name).bind (·.getter?)).map (·.signature.params)
  | setProperty target name _ => ((target.property? name).bind (·.setter?)).map (·.signature.params)
  | construct cls args => some ((cls.initializerForArity? args.length).getD (.rootInit cls.name)).signature.params
  | constructWith _ init _ => some init.signature.params
  | callFunction name _ =>
    match m.resolve? name with
    | some (_,.function _ signature) => some signature.params
    | _ => none

def Checked (use : Use) (start now : Bridge) (frame : Frame) : Prop :=
  ∃ params, use.params? start.metadata = some params ∧ Lasts start use.receiver? params use.args now frame

end Use

section Entries

variable {w : World σ}

theorem invoke_guarded {P : Bridge → Frame → Prop} (method : MethodEntry) (target : Target) (args : List ScriptValue)
    (met : ∀ receiver slots, (∀ x, target.wrapper? = some x → receiver = .instance x.address ∧ w.bridge.Stands x) →
      w.bridge.Fills method.signature.params args slots →
      P { w.bridge with nativeCalls := w.bridge.nativeCalls+1 } ⟨receiver,method.selector,slots⟩) :
    Guarded P (fun host => (host.invoke method target args).run) w := by
  unfold Host.invoke
  refine (checkArity_ends method args w).guarded ?_
  rintro _ w ⟨rfl,counted⟩
  refine (frame_ends method.name method.signature.params args w).guarded ?_
  rintro slots w ⟨rfl,converted⟩
  refine (receiverOf_ends method target w).guarded ?_
  rintro receiver w ⟨rfl,aimed⟩
  refine (noteNativeCall_ends w).guarded ?_
  rintro _ _ rfl
  exact (send_guarded receiver method.selector slots (met receiver slots aimed ⟨counted,converted⟩)).ofNative.bind

theorem invoke_checks (method : MethodEntry) (target : Target) (args : List ScriptValue) (w : World σ) :
    Guarded (Lasts w.bridge target.wrapper? method.signature.params args)
      (fun host => (host.invoke method target args).run) w := by
  apply invoke_guarded
  intro receiver slots aimed fills
  exact (frame_checks method.selector aimed fills).lasts rfl fun _ stands => stands

theorem constructWith_guarded {P : Bridge → Frame → Prop} (c : SynthesizedClass) (init : MethodEntry)
    (args : List ScriptValue)
    (met : ∀ (native : ClassId) (a : Address) slots, w.bridge.Fills init.signature.params args slots →
      P { w.bridge with
          nativeCalls := w.bridge.nativeCalls+1
          holdings := { w.bridge.holdings with heap := (w.bridge.heap.allocate native none).2 } }
        ⟨.instance a,init.selector,slots⟩) :
    Guarded P (fun host => (host.constructWith c init args).run) w := by
  by_cases backed : c.kind = .interface ∧ ∃ native, c.native = some native
  · obtain ⟨interface,native,known⟩ := backed
    unfold Host.constructWith
    rw [interface,known]
    refine (checkArity_ends init args w).guarded ?_
    rintro _ w ⟨rfl,counted⟩
    refine (frame_ends init.selector init.signature.params args w).guarded ?_
    rintro slots w ⟨rfl,converted⟩
    refine (allocate_ends native none w).guarded ?_
    rintro a _ rfl
    refine (noteNativeCall_ends _).guarded ?_
    rintro _ _ rfl
    refine (send_guarded (.instance a) init.selector slots ?_).lifted fun e v => ⟨.native e,_,rfl⟩
    exact met native a slots ⟨counted,converted⟩
  · refine .refused (.notFound c.name "native class") w fun host => ?_
    unfold Host.constructWith
    split
    · rename_i native interface known
      exact absurd ⟨interface,native,known⟩ backed
    · rfl

theorem constructWith_checks (sound : w.bridge.heap.Sound) (c : SynthesizedClass) (init : MethodEntry)
    (args : List ScriptValue) :
    Guarded (Lasts w.bridge none init.signature.params args)
      (fun host => (host.constructWith c init args).run) w := by
  apply constructWith_guarded
  intro native a slots fills
  have checks : Checks w.bridge none init.signature.params args ⟨.instance a,init.selector,slots⟩ :=
    frame_checks init.selector (by rintro _ ⟨⟩) fills
  exact checks.lasts rfl fun _ stands => stands_allocate sound stands native none

-- A member that is looked up by its name, be it a method or an accessor.
theorem member_checks {call : Host σ → Call σ ScriptValue} (found : Option MethodEntry) (target : Target)
    (args : List ScriptValue) (e : BridgeError) (absent : found = none → ∀ host, call host = Call.fail e)
    (present : ∀ method, found = some method → ∀ host, call host = host.invoke method target args) :
    Guarded (fun now frame => ∃ params, found.map (·.signature.params) = some params ∧
      Lasts w.bridge target.wrapper? params args now frame) (fun host => (call host).run) w := by
  cases found with
  | none => exact .refused e w fun host => by rw [absent rfl host]; rfl
  | some method =>
    refine Guarded.from ?_ fun host => by rw [present method rfl host]
    exact (invoke_checks method target args w).weaken fun now frame lasts => ⟨_,rfl,lasts⟩

theorem setProperty_checks (target : Target) (name : String) (value : ScriptValue) (w : World σ) :
    Guarded ((Use.setProperty target name value).Checked w.bridge) (fun host => (host.setProperty target name value).run) w := by
  unfold Host.setProperty
  cases found : target.property? name with
  | none => exact .refused _ w fun _ => rfl
  | some property =>
    dsimp only
    cases writable : property.setter? with
    | none => exact .refused _ w fun _ => rfl
    | some setter =>
      dsimp only
      by_cases readonly : property.property.isReadonly = true
      · simp only [if_pos readonly]
        exact .refused _ w fun _ => rfl
      · simp only [if_neg readonly]
        refine ((invoke_checks setter target [value] w).weaken fun now frame lasts => ?_).bind
        exact ⟨_,by rw [Use.params?,found,Option.bind_some,writable]; rfl,lasts⟩

theorem construct_checks (sound : w.bridge.heap.Sound) (c : SynthesizedClass) (args : List ScriptValue) :
    Guarded ((Use.construct c args).Checked w.bridge) (fun host => (host.construct c args).run) w := by
  unfold Host.construct
  cases found : c.initializerForArity? args.length with
  | some init =>
    refine (constructWith_checks sound c init args).weaken fun now frame lasts => ?_
    exact ⟨_,by rw [Use.params?,found]; rfl,lasts⟩
  | none =>
    dsimp only
    by_cases empty : args.isEmpty = true
    · simp only [if_pos empty]
      refine (constructWith_checks sound c (.rootInit c.name) args).weaken fun now frame lasts => ?_
      exact ⟨_,by rw [Use.params?,found]; rfl,lasts⟩
    · simp only [if_neg empty]
      exact .refused _ w fun _ => rfl

theorem callFunction_guarded {P : Bridge → Frame → Prop} (name : String) (args : List ScriptValue)
    (met : ∀ id head signature slots, w.bridge.metadata.resolve? name = some (id,.function head signature) →
      w.bridge.Fills signature.params args slots →
      P { w.bridge with nativeCalls := w.bridge.nativeCalls+1 } ⟨.none,name,slots⟩) :
    Guarded P (fun host => (host.callFunction name args).run) w := by
  unfold Host.callFunction
  refine (readBridge_ends (·.metadata) w).guarded ?_
  rintro _ w ⟨rfl,rfl⟩
  rcases known : w.bridge.metadata.resolve? name with _ | ⟨id,d⟩
  · exact .refused _ w fun _ => rfl
  · cases d with
    | function head signature =>
      dsimp only
      by_cases counted : args.length = signature.params.length
      · have arity : ¬args.length ≠ signature.arity := not_not.mpr counted
        simp only [if_neg arity]
        refine (frame_ends name signature.params args w).guarded ?_
        rintro slots w ⟨rfl,converted⟩
        refine (noteNativeCall_ends w).guarded ?_
        rintro _ _ rfl
        exact (callPlain_guarded name slots (met id head signature slots known ⟨counted,converted⟩)).ofNative.bind
      · have arity : args.length ≠ signature.arity := counted
        simp only [if_pos arity]
        exact .refused _ w fun _ => rfl
    | _ => exact .refused _ w fun _ => rfl

theorem callFunction_checks (name : String) (args : List ScriptValue) (w : World σ) :
    Guarded ((Use.callFunction name args).Checked w.bridge) (fun host => (host.callFunction name args).run) w := by
  apply callFunction_guarded
  intro id head signature slots known fills
  have checks : Checks w.bridge none signature.params args ⟨.none,name,slots⟩ :=
    frame_checks name (by rintro _ ⟨⟩) fills
  refine ⟨signature.params,?_,checks.lasts rfl fun _ stands => stands⟩
  simp only [Use.params?,known]

theorem Use.enters_native_code_checked (reached : w.bridge.Reached) (use : Use) :
    Guarded (use.Checked w.bridge) (fun host => (use.run host).run) w := by
  have sound := reached.heap_sound
  cases use with
  | invoke method target args =>
    exact (invoke_checks method target args w).weaken fun now frame lasts => ⟨_,rfl,lasts⟩
  | callMethod x name args =>
    refine member_checks (x.cls.instanceMethods.get? name) (.instance x) args (.notFound (x.cls.name ++ " instance") name) ?_ ?_
    · intro absent host
      rw [run,Host.callMethod,absent]
    · intro method present host
      rw [run,Host.callMethod,present]
  | callStatic cls name args =>
    refine member_checks (cls.staticMethods.get? name) (.static cls) args (.notFound cls.name name) ?_ ?_
    · intro absent host
      rw [run,Host.callStatic,absent]
    · intro method present host
      rw [run,Host.callStatic,present]
  | getProperty target name =>
    refine member_checks ((target.property? name).bind (·.getter?)) target [] (.notFound target.cls.name name) ?_ ?_
    · intro absent host
      rw [run,Host.getProperty,absent]
    · intro method present host
      rw [run,Host.getProperty,present]
  | setProperty target name value => exact (setProperty_checks target name value w).bind
  | construct cls args => exact (construct_checks sound cls args).bind
  | constructWith cls init args =>
    exact ((constructWith_checks sound cls init args).weaken fun now frame lasts => ⟨_,rfl,lasts⟩).bind
  | callFunction name args => exact callFunction_checks name args w

end Entries

namespace Use

-- A class with a method that takes one object.
def taker : ClassDefinition := ⟨"Taker",none,.ofList [("take:",⟨"count"⟩)],.empty⟩

def takers : ClassTable := ⟨[⟨"Taker",some ⟨0⟩,.ofList [("take:",⟨"count"⟩)],.empty⟩,ClassTable.root]⟩

def take : MethodEntry := ⟨⟨"take","take:",0,⟨.scalar .void,[.object none]⟩⟩,"Taker"⟩

-- Two instances with a wrapper each, of which the second died.
def bereft : Bridge :=
  let b : Bridge := { Bridge.opened default [] .empty with natives := takers }
  let first : Bridge := { b with holdings := { b.holdings with heap := (b.heap.allocate ⟨1⟩ none).2 } }
  let second : Bridge := { first with holdings := { first.holdings with heap := (first.heap.allocate ⟨1⟩ none).2 } }
  let one := (second.holdings.wrapperFor 0 ⟨0x1000⟩ Scene.bareClass true).2
  let two := (one.wrapperFor 0 ⟨0x2000⟩ Scene.bareClass false).2
  { second with holdings := (two.releaseAddress ⟨0x2000⟩).2 }

-- A third one has moved in where the second lived.
def takeover : Bridge :=
  { bereft with holdings := { bereft.holdings with heap := (bereft.heap.allocate ⟨1⟩ (some ⟨0x2000⟩)).2 } }

def keeper : Wrapper := ⟨0,⟨0x1000⟩,1,Scene.bareClass,0⟩

def stale : Wrapper := ⟨1,⟨0x2000⟩,2,Scene.bareClass,0⟩

theorem takeover_reached : takeover.Reached := by
  refine ⟨default,[],.empty,?_⟩
  have accepted : ClassTable.initial.register taker = .ok (⟨1⟩,takers) := rfl
  have known : takers.name? ⟨1⟩ = some "Taker" := rfl
  have registered := Relation.ReflTransGen.refl.tail (Bridge.Move.register (b := Bridge.opened default [] .empty) accepted)
  have first := registered.tail (.allocate known none)
  have second := first.tail (.allocate known none)
  have one := second.tail (.change (.wrapperFor 0 ⟨0x1000⟩ Scene.bareClass true))
  have two := one.tail (.change (.wrapperFor 0 ⟨0x2000⟩ Scene.bareClass false))
  have died := two.tail (.change (.releaseAddress ⟨0x2000⟩))
  exact died.tail (.allocate known (some ⟨0x2000⟩))

-- Native code that answers nothing.
def mute : Host Unit := ⟨fun _ _ w => some (.void,w),fun _ _ _ => none⟩

-- The wrapper of the second instance does not stand for the third, though that one could take its
-- place; the receiver itself is let through.
theorem stale_argument_refused :
    (∃ e after, ∀ host : Host Unit,
      (run host (.invoke take (.instance keeper) [.object stale])).run ⟨takeover,()⟩ = some (.error e,after)) ∧
    ∃ after, (run mute (.invoke take (.instance keeper) [.object keeper])).run ⟨takeover,()⟩ = some (.ok .undefined,after) := by
  refine ⟨?_,_,rfl⟩
  cases enters_native_code_checked (w := ⟨takeover,()⟩) takeover_reached (.invoke take (.instance keeper) [.object stale]) with
  | refused e after fails => exact ⟨e,after,fails⟩
  | enters body frame now finish met does =>
    obtain ⟨_,⟨⟩,checks,_⟩ := met
    obtain ⟨_,admits⟩ := checks.slots 0 _ _ [] none _ rfl rfl (.here _ _)
    exact absurd admits.stands.2 (by decide)

end Use
end ObjectBridge
