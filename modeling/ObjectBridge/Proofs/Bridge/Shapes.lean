import ObjectBridge.Proofs.Bridge.PlainValues
import ObjectBridge.Proofs.Bridge.Uses

namespace ObjectBridge

section Shape
variable (m : Metadata)

-- A value that a slot of the type can hold. For a structure that is one value for each field of the
-- layout, in its order.
inductive HasShape : TypeEncoding → NativeValue → Prop where
  | scalar {s : Scalar} {n : NativeValue} (kind : n.kind = (TypeExpr.scalar s : TypeEncoding).nativeKind) :
      HasShape (.scalar s) n
  | object (target : Option DescriptorId) (a : Address) : HasShape (.object target) (.object a)
  | noBlock (result : TypeEncoding) (params : List TypeEncoding) : HasShape (.block result params) (.block none)
  | block {result : TypeEncoding} {params : List TypeEncoding} {block : NativeBlock}
      (counted : block.arity = params.length) : HasShape (.block result params) (.block (some block))
  | struct {id : DescriptorId} {layout : List Field} {values : List NativeValue}
      (described : Bridge.layout? m id = some layout)
      (fields : List.Forall₂ (fun f v => HasShape f.type v) layout values) : HasShape (.struct id) (.struct values)

-- What the slots inside a value's slot are filled from, each with its type: the value itself, and for
-- each field of a structure what its record has under the name of the field, which may be nothing.
inductive Within (ty : TypeEncoding) (v : ScriptValue) : TypeEncoding → Option ScriptValue → Prop where
  | whole : Within ty v ty (some v)
  | field {id : DescriptorId} {layout : List Field} {record : List (String × ScriptValue)} {f : Field}
      (outer : Within ty v (.struct id) (some (.record record))) (described : Bridge.layout? m id = some layout)
      (placed : f ∈ layout) : Within ty v f.type (record.lookup f.name)

variable {m} {ty : TypeEncoding} {n : NativeValue}

theorem HasShape.kind (shape : HasShape m ty n) : n.kind = ty.nativeKind := by
  cases shape with
  | scalar kind => exact kind
  | _ => rfl

end Shape

namespace Bridge

variable {b : Bridge} {v : ScriptValue} {ty : TypeEncoding} {n : NativeValue} {s : Scalar}

theorem scalarSlot_kind (converted : scalarSlot v s = .ok n) : n.kind = (TypeExpr.scalar s : TypeEncoding).nativeKind := by
  cases s with
  | void =>
    cases converted
    rfl
  | bool =>
    cases v <;> cases converted
    rfl
  | int kind =>
    obtain ⟨_,_,rfl⟩ := Outcome.map_ok.mp converted
    rfl
  | f32 =>
    obtain ⟨x,_,fits⟩ := Outcome.bind_ok.mp converted
    split at fits <;> cases fits
    rfl
  | f64 =>
    obtain ⟨_,_,rfl⟩ := Outcome.map_ok.mp converted
    rfl
  | string =>
    have read : (default : Bridge).slot v (.scalar .string) = .ok n := (slot_scalar _ v _).trans converted
    rcases stringSlot_ok.mp read with ⟨_,_,_,rfl⟩ | ⟨_,rfl⟩ <;> rfl
  | classRef =>
    dsimp only [scalarSlot] at converted
    repeat' split at converted
    all_goals
      cases converted
    all_goals rfl
  | pointer =>
    dsimp only [scalarSlot] at converted
    split at converted
    · cases converted
      rfl
    · obtain ⟨_,_,rfl⟩ := Outcome.map_ok.mp converted
      rfl

theorem plainSlot_shaped (converted : b.plainSlot v ty = .ok n) : HasShape b.metadata ty n := by
  unfold plainSlot at converted
  dsimp only at converted
  cases ty with
  | scalar s => exact .scalar (scalarSlot_kind converted)
  | object target =>
    cases v with
    | object w =>
      obtain ⟨rfl,_⟩ := wrapperSlot_ok converted
      exact .object _ _
    | _ =>
      dsimp only at converted
      split at converted <;> cases converted
      exact .object _ _
  | block result params =>
    cases v with
    | function f =>
      cases converted
      exact .block rfl
    | _ =>
      dsimp only at converted
      split at converted <;> cases converted
      exact .noBlock _ _
  | struct id => cases converted

theorem slot_plain (plain : ∀ id, ty ≠ .struct id) : b.slot v ty = b.plainSlot v ty := by
  cases v with
  | record record =>
    cases ty with
    | struct id => exact absurd rfl (plain id)
    | _ => rfl
  | _ => rfl

theorem slot_described {id : DescriptorId} (converted : b.slot v (.struct id) = .ok n) :
    ∃ layout, layout? b.metadata id = some layout := by
  cases v with
  | record record =>
    change b.structSlot (fieldSlots b record) id _ = .ok n at converted
    unfold structSlot at converted
    split at converted
    · cases converted
    · rename_i layout described
      exact ⟨layout,described⟩
  | _ => cases converted

-- The recursion is that of the conversion. Layouts that lead in circles take no part in it.
mutual

theorem slot_shaped (b : Bridge) (v : ScriptValue) (ty : TypeEncoding) (n : NativeValue) (converted : b.slot v ty = .ok n) :
    HasShape b.metadata ty n := by
  by_cases aggregate : ∃ id, ty = .struct id
  · obtain ⟨id,rfl⟩ := aggregate
    obtain ⟨layout,described⟩ := slot_described converted
    obtain ⟨record,values,same,rfl,each⟩ := (structSlot_iff described).mp converted
    apply HasShape.struct described
    apply each.imp
    intro f value ⟨given,named,inner⟩
    match v with
    | .record fields =>
      rw [← ScriptValue.record.inj same] at named
      exact fields_shaped b fields f.name given named f.type value inner
  · rw [slot_plain (not_exists.mp aggregate)] at converted
    exact plainSlot_shaped converted
termination_by structural v

theorem fields_shaped (b : Bridge) (fields : List (String × ScriptValue)) (name : String) (v : ScriptValue)
    (found : fields.lookup name = some v) (ty : TypeEncoding) (n : NativeValue) (converted : b.slot v ty = .ok n) :
    HasShape b.metadata ty n := by
  match fields with
  | [] => cases found
  | (key,value) :: rest =>
    rw [List.lookup_cons] at found
    split at found
    · rw [← Option.some.inj found] at converted
      exact slot_shaped b value ty n converted
    · exact fields_shaped b rest name v found ty n converted
termination_by structural fields

end

-- A conversion that succeeds has found and converted every part.
theorem within_converts {inner : TypeEncoding} {part : Option ScriptValue} (within : Within b.metadata ty v inner part)
    (converted : b.slot v ty = .ok n) : ∃ given value, part = some given ∧ b.slot given inner = .ok value := by
  induction within with
  | whole => exact ⟨v,n,rfl,converted⟩
  | field outer described placed ih =>
    obtain ⟨_,_,found,whole⟩ := ih
    cases found
    obtain ⟨_,_,same,_,each⟩ := (structSlot_iff described).mp whole
    cases same
    obtain ⟨value,_,given,named,taken⟩ := Outcome.related_right each placed
    exact ⟨given,value,named,taken⟩

theorem Fills.shaped {params : List TypeEncoding} {args : List ScriptValue} {slots : List NativeValue}
    (fills : b.Fills params args slots) : List.Forall₂ (HasShape b.metadata) params slots := by
  obtain ⟨counted,converted⟩ := fills
  have each : List.Forall₂ (fun pair value => HasShape b.metadata pair.2 value) (args.zip params) slots :=
    converted.imp fun pair value taken => slot_shaped b pair.1 pair.2 value taken
  rw [← List.map_snd_zip (Nat.le_of_eq counted.symm),List.forall₂_map_left_iff]
  exact each

end Bridge

variable {σ : Type}

-- Either every host sees the same failure and the block is not run, or it is run on slots of which `P` is
-- true, and nothing before.
inductive Invokes {α : Type} (P : List NativeValue → Prop) (block : NativeBlock) (call : Host σ → Call σ α)
    (w : World σ) : Prop where
  | refused (e : BridgeError) (after : World σ) (fails : ∀ host, (call host).run w = some (.error e,after))
  | invokes (slots : List NativeValue) (finish : NativeValue → Call σ α) (met : P slots)
      (does : ∀ host, (call host).run w = (Call.ofNative (host.invokeBlock block slots) >>= finish).run w)

theorem callScript_invokes (id : Nat) (block : NativeBlock) (signature : CallSignature) (args : List ScriptValue)
    (w : World σ) :
    Invokes (List.Forall₂ (HasShape w.bridge.metadata) signature.params) block
      (fun host => host.callScript (.ofBlock id block signature) args) w := by
  by_cases counted : args.length = signature.params.length
  · have arity : ¬args.length ≠ signature.arity := not_not.mpr counted
    cases opened : w.bridge.isOpen with
    | false =>
      refine .refused (.notFound "bridge" "block") w fun host => ?_
      rw [Host.callScript,if_neg arity,readBridge_bind,opened]
      rfl
    | true =>
      let finish (result : NativeValue) : Call σ ScriptValue :=
        Call.located "block" none (Call.ofEffect (Effect.toScripting result signature.result))
      have unfolded (host : Host σ) : (host.callScript (.ofBlock id block signature) args).run w =
          (Call.ofEffect (Effect.frame "block" signature.params args) >>= fun slots =>
            Call.ofNative (host.invokeBlock block slots) >>= finish).run w := by
        rw [Host.callScript,if_neg arity,readBridge_bind,opened]
        rfl
      cases frame_ends "block" signature.params args w with
      | fails e after does =>
        refine .refused e after fun host => ?_
        rw [unfolded,Call.bind_run,does]
        rfl
      | passes slots after does holds =>
        obtain ⟨rfl,converted⟩ := holds
        refine .invokes slots finish (Bridge.Fills.shaped ⟨counted,converted⟩) fun host => ?_
        rw [unfolded,Call.bind_run,does]
        rfl
  · have arity : args.length ≠ signature.arity := counted
    constructor
    · intro host
      rw [Host.callScript,if_pos arity]
      rfl

-- Every conversion comes to an end, with a value of the whole shape or with an error. There are four
-- places where the arguments of a call are put into a frame; what they make of them has one value of the
-- right shape for each parameter when native code is run.
theorem arguments_shaped (w : World σ) :
    (∀ v ty,
      (∃ n, Effect.toNative v ty w.bridge = (.ok n,w.bridge) ∧ n.kind = ty.nativeKind ∧ HasShape w.bridge.metadata ty n) ∨
      ∃ e, Effect.toNative v ty w.bridge = (.error e,w.bridge.noteConversionError)) ∧
    (∀ v ty inner part, Within w.bridge.metadata ty v inner part →
      (∀ given, part = some given → ∃ e after, Effect.toNative given inner w.bridge = (.error e,after)) →
      ∃ e after, Effect.toNative v ty w.bridge = (.error e,after)) ∧
    (∀ method target args, Guarded
      (fun now frame => List.Forall₂ (HasShape now.metadata) method.signature.params frame.args)
      (fun host => (host.invoke method target args).run) w) ∧
    (∀ c init args, Guarded
      (fun now frame => List.Forall₂ (HasShape now.metadata) init.signature.params frame.args)
      (fun host => (host.constructWith c init args).run) w) ∧
    (∀ name args, Guarded
      (fun now frame => ∃ id head signature, now.metadata.resolve? name = some (id,.function head signature) ∧
        List.Forall₂ (HasShape now.metadata) signature.params frame.args)
      (fun host => (host.callFunction name args).run) w) ∧
    ∀ id block signature args, Invokes (List.Forall₂ (HasShape w.bridge.metadata) signature.params) block
      (fun host => host.callScript (.ofBlock id block signature) args) w := by
  refine ⟨?_,?_,?_,?_,?_,?_⟩
  · intro v ty
    unfold Effect.toNative
    cases converted : w.bridge.slot v ty with
    | ok n =>
      have shape := Bridge.slot_shaped w.bridge v ty n converted
      exact .inl ⟨n,rfl,shape.kind,shape⟩
    | error e => exact .inr ⟨e,rfl⟩
  · intro v ty inner part within failing
    cases whole : w.bridge.slot v ty with
    | error e => exact ⟨e,w.bridge.noteConversionError,by rw [Effect.toNative,whole]⟩
    | ok n =>
      obtain ⟨given,value,found,taken⟩ := Bridge.within_converts within whole
      obtain ⟨e,after,fails⟩ := failing given found
      rw [Effect.toNative,taken] at fails
      cases fails
  · intro method target args
    apply invoke_guarded
    intro receiver slots _ fills
    exact fills.shaped
  · intro c init args
    apply constructWith_guarded
    intro native a slots fills
    exact fills.shaped
  · intro name args
    apply callFunction_guarded
    intro id head signature slots known fills
    exact ⟨id,head,signature,known,fills.shaped⟩
  · intro id block signature args
    exact callScript_invokes id block signature args w

-- A structure with an i64 and another one of itself.
def knotFile : Array UInt8 :=
  #[0x4d,0x42,0x4d,0x44,1,0,0,0,32,0,0,0,17,0,0,0,49,0,0,0,61,0,0,0,38,0,0,0,99,0,0,0,
    4,0,0x4e,0x6f,0x64,0x65,3,0,0x74,0x61,0x67,4,0,0x6e,0x65,0x78,0x74, 1,0,0,0,32,0,0,0,61,0,0,0,
    3,0,0,0,32,0,0,0,87,0,0,0, 38,0,0,0,5,43,0,0,0,16,61,0,0,0, 2,0,0,0,73,0,0,0,78,0,0,0]

def knotted : Metadata := ⟨1,⟨knotFile,⟨32,49⟩,⟨49,61⟩,⟨61,99⟩⟩,⟨[(61,())]⟩⟩

theorem knot_loaded : Metadata.ofBytes knotFile = .ok knotted := by cbv

theorem knot_layout :
    Bridge.layout? knotted ⟨61⟩ = some [⟨"tag",.scalar (.int .i64)⟩,⟨"next",.struct ⟨61⟩⟩] := by cbv

def chain : ScriptValue := .record [("next",.record [("next",.undefined),("tag",.big 2)]),("tag",.big 1)]

-- No record is deep enough for such a layout, and the one that ends the row fails as a whole.
theorem endless_layout_refused : Metadata.ofBytes knotFile = .ok knotted ∧
    ∃ e after, Effect.toNative chain (.struct ⟨61⟩) (.initial knotted []) = (.error e,after) := by
  refine ⟨knot_loaded,?_⟩
  have described : Bridge.layout? (Bridge.initial knotted []).metadata ⟨61⟩ = some _ := knot_layout
  have next : (⟨"next",.struct ⟨61⟩⟩ : Field) ∈ [⟨"tag",.scalar (.int .i64)⟩,⟨"next",.struct ⟨61⟩⟩] := by simp
  have outer : Within knotted (.struct ⟨61⟩) chain (.struct ⟨61⟩) (some (.record [("next",.undefined),("tag",.big 2)])) :=
    Within.whole.field described next
  have last : Within knotted (.struct ⟨61⟩) chain (.struct ⟨61⟩) (some .undefined) := outer.field described next
  obtain ⟨_,aborts,_⟩ := arguments_shaped (⟨.initial knotted [],()⟩ : World Unit)
  apply aborts chain _ _ _ last
  intro given found
  cases found
  exact ⟨_,_,rfl⟩

end ObjectBridge
