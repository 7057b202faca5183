import ObjectBridge.Proofs.Bridge.Results
import ObjectBridge.Proofs.Bridge.Shapes

namespace ObjectBridge

mutual

-- How often code was made to look like code of the other side.
def ScriptFunction.layers : ScriptFunction → Nat
  | .ofBlock _ block _ => block.layers+1
  | _ => 0

def NativeBlock.layers : NativeBlock → Nat
  | .ofFunction function _ => function.layers+1
  | _ => 0

end

-- All code in the value has at least that many layers.
inductive NativeValue.Layered (k : Nat) : NativeValue → Prop where
  | block {code : NativeBlock} (deep : k ≤ code.layers) : Layered k (.block (some code))
  | struct {fields : List NativeValue} (each : ∀ v ∈ fields, Layered k v) : Layered k (.struct fields)
  | plain {v : NativeValue} (noBlock : ∀ code, v ≠ .block (some code)) (noStruct : ∀ fields, v ≠ .struct fields) : Layered k v

inductive ScriptValue.Layered (k : Nat) : ScriptValue → Prop where
  | function {code : ScriptFunction} (deep : k ≤ code.layers) : Layered k (.function code)
  | record {fields : List (String × ScriptValue)} (each : ∀ name v, fields.lookup name = some v → Layered k v) :
      Layered k (.record fields)
  | plain {v : ScriptValue} (noFunction : ∀ code, v ≠ .function code) (noRecord : ∀ fields, v ≠ .record fields) : Layered k v

variable {k : Nat}

namespace NativeValue

mutual

theorem layered_zero (v : NativeValue) : v.Layered 0 := by
  match v with
  | .struct fields => exact .struct (fields_layered_zero fields)
  | .block (some code) => exact .block (Nat.zero_le _)
  | .block none | .void | .bool _ | .int .. | .f32 _ | .f64 _ | .cstring _ | .object _ | .classRef _ | .pointer _ =>
    exact .plain nofun nofun
termination_by structural v

theorem fields_layered_zero (fields : List NativeValue) : ∀ v ∈ fields, v.Layered 0 := by
  match fields with
  | [] => exact fun _ none => nomatch none
  | v :: rest => exact List.forall_mem_cons.mpr ⟨layered_zero v,fields_layered_zero rest⟩
termination_by structural fields

end

mutual

-- Code has some number of layers and no more, and a value without code has captured nothing.
theorem wrappers_of_layered (v : NativeValue) (layered : ∀ k, v.Layered k) : v.wrappers = [] := by
  match v with
  | .struct fields =>
    refine fields_wrappers_of_layered fields fun v member k => ?_
    cases layered k with
    | struct each => exact each v member
    | plain _ noStruct => exact absurd rfl (noStruct fields)
  | .block (some code) =>
    cases layered (code.layers+1) with
    | block deep => exact absurd deep (Nat.not_succ_le_self _)
    | plain noBlock _ => exact absurd rfl (noBlock code)
  | .block none | .void | .bool _ | .int .. | .f32 _ | .f64 _ | .cstring _ | .object _ | .classRef _ | .pointer _ => rfl
termination_by structural v

theorem fields_wrappers_of_layered (fields : List NativeValue) (layered : ∀ v ∈ fields, ∀ k, v.Layered k) :
    wrappersAll fields = [] := by
  match fields with
  | [] => rfl
  | v :: rest =>
    obtain ⟨first,others⟩ := List.forall_mem_cons.mp layered
    rw [wrappersAll,wrappers_of_layered v first,fields_wrappers_of_layered rest others,List.append_nil]
termination_by structural fields

end

end NativeValue

namespace Bridge

variable {b : Bridge} {v : ScriptValue} {n : NativeValue} {ty : TypeEncoding}

-- What is no structure goes into its slot in one piece.
theorem plainSlot_layered (layered : v.Layered k) (plain : ∀ id, ty ≠ .struct id) (converted : b.slot v ty = .ok n) :
    n.Layered (k+1) := by
  have kind := (slot_shaped b v ty n converted).kind
  rw [slot_plain plain] at converted
  cases ty with
  | scalar s => exact .plain (by rintro _ rfl; cases s <;> cases kind) (by rintro _ rfl; cases s <;> cases kind)
  | object target => exact .plain (by rintro _ rfl; cases kind) (by rintro _ rfl; cases kind)
  | struct id => exact absurd rfl (plain id)
  | block result params =>
    unfold plainSlot at converted
    cases v with
    | function code =>
      cases converted
      cases layered with
      | function deep => exact .block (Nat.succ_le_succ deep)
      | plain noFunction _ => exact absurd rfl (noFunction code)
    | _ =>
      dsimp only at converted
      split at converted <;> cases converted
      exact .plain nofun nofun

theorem slot_layered (layered : v.Layered k) (converted : b.slot v ty = .ok n) : n.Layered (k+1) := by
  induction layered generalizing ty n with
  | @record fields each ih =>
    by_cases aggregate : ∃ id, ty = .struct id
    · obtain ⟨id,rfl⟩ := aggregate
      obtain ⟨layout,described⟩ := slot_described converted
      obtain ⟨_,values,same,rfl,whole⟩ := (structSlot_iff described).mp converted
      cases same
      refine .struct fun value member => ?_
      obtain ⟨f,_,given,named,inner⟩ := Outcome.related_left whole member
      exact ih f.name given named inner
    · exact plainSlot_layered (.record each) (not_exists.mp aggregate) converted
  | function deep =>
    refine plainSlot_layered (.function deep) ?_ converted
    rintro id rfl
    cases converted
  | @plain v noFunction noRecord =>
    refine plainSlot_layered (.plain noFunction noRecord) ?_ converted
    rintro id rfl
    obtain ⟨layout,described⟩ := slot_described converted
    obtain ⟨record,_,same,_⟩ := (structSlot_iff described).mp converted
    exact noRecord record same

end Bridge

namespace Effect

variable {P : α → Prop} {Q : β → Prop} {e : Effect α} {f : α → Effect β}

def Yields (P : α → Prop) (e : Effect α) : Prop := ∀ b x after, e b = (.ok x,after) → P x

theorem Yields.pure {x : α} (holds : P x) : Yields P (Pure.pure x) := by
  rintro b _ _ ⟨⟩
  exact holds

theorem Yields.bind (one : Yields P e) (rest : ∀ x, P x → Yields Q (f x)) : Yields Q (e >>= f) := by
  intro b y after ends
  obtain ⟨x,middle,first,second⟩ := bind_ok ends
  exact rest x (one b x middle first) middle y after second

theorem Yields.forgo (v : NativeValue) (one : Yields P e) : Yields P (forgo v e) := by
  intro b x after ends
  unfold Effect.forgo at ends
  rcases run : e b with ⟨error | y,middle⟩
  · rw [run] at ends; cases ends
  · rw [run] at ends
    cases ends
    exact one b _ _ run

theorem Yields.any : Yields (fun _ => True) e := fun _ _ _ _ => trivial

theorem Yields.fail (error : BridgeError) : Yields P (Effect.fail error) := by rintro _ _ _ ⟨⟩

theorem Yields.mismatch (ty : TypeEncoding) (actual : String) : Yields P (mismatch ty actual) := by rintro _ _ _ ⟨⟩

theorem wrap_yields_plain (a : Address) (declared : Option DescriptorId) (owning : Bool) :
    Yields (ScriptValue.Layered k) (wrap a declared owning) := by
  refine .bind .any fun seen _ => ?_
  cases seen with
  | some existing => exact .bind .any fun _ _ => .bind .any fun _ _ => .pure (.plain nofun nofun)
  | none => exact .bind .any fun _ _ => .bind .any fun _ _ => .pure (.plain nofun nofun)

mutual

theorem scripting_layered (ty : TypeEncoding) (v : NativeValue) (layered : v.Layered k) :
    Yields (ScriptValue.Layered k) (scripting false ty v) := by
  rw [scripting.eq_def]
  split
  · exact .forgo v (.mismatch ty _)
  · cases v with
    | void | bool | f32 | f64 => exact .pure (.plain nofun nofun)
    | int kind n held =>
      refine .pure ?_
      unfold ScriptValue.ofInt
      split <;> exact .plain nofun nofun
    | pointer address =>
      refine .pure ?_
      split <;> exact .plain nofun nofun
    | cstring bytes =>
      cases bytes with
      | none => exact .pure (.plain nofun nofun)
      | some bytes =>
        dsimp only
        split
        · exact .pure (.plain nofun nofun)
        · exact .fail _
    | object a =>
      dsimp only
      split
      · exact .pure (.plain nofun nofun)
      · exact wrap_yields_plain a _ false
    | classRef cls =>
      cases cls with
      | none => exact .pure (.plain nofun nofun)
      | some id => exact .bind .any fun _ _ => .pure (.plain nofun nofun)
    | block block =>
      cases block with
      | none => exact .pure (.plain nofun nofun)
      | some code =>
        dsimp only
        split
        · refine .bind .any fun _ _ => .pure ?_
          cases layered with
          | block deep => exact .function (Nat.le_succ_of_le deep)
          | plain noBlock _ => exact absurd rfl (noBlock code)
        · exact .forgo _ (.mismatch _ _)
    | struct values =>
      have each : ∀ v ∈ values, v.Layered k := by
        cases layered with
        | struct each => exact each
        | plain _ noStruct => exact absurd rfl (noStruct values)
      dsimp only
      split
      · refine .bind (.forgo _ .any) fun layout _ => ?_
        exact .bind (scriptingFields_layered values layout each (.record fun _ _ => nofun)) fun _ fields => .pure fields
      · exact .forgo _ (.mismatch _ _)

theorem scriptingFields_layered (values : List NativeValue) (layout : List Field) (each : ∀ v ∈ values, v.Layered k)
    {done : List (String × ScriptValue)} (before : (ScriptValue.record done).Layered k) :
    Yields (fun fields => (ScriptValue.record fields).Layered k) (scriptingFields done values layout) := by
  match values, layout with
  | [], _ | _ :: _, [] =>
    rw [scriptingFields.eq_def]
    rintro b _ _ ⟨⟩
    exact before
  | v :: vs, field :: layout =>
    obtain ⟨first,others⟩ := List.forall_mem_cons.mp each
    intro b x after ends
    rw [scriptingFields] at ends
    dsimp only at ends
    rcases one : scripting false field.type v b with ⟨error | form,middle⟩
    · rw [one] at ends
      cases ends
    · rw [one] at ends
      dsimp only at ends
      rw [bind_eq (putField_eq done field.name form middle)] at ends
      have layered := scripting_layered field.type v first b form middle one
      refine scriptingFields_layered vs layout others (.record fun name v found => ?_) _ x after ends
      change ((Table.mk done).put field.name form).get? name = some v at found
      rw [Table.get?_put] at found
      split at found
      · cases found
        exact layered
      · cases before with
        | record each => exact each name v found
        | plain _ noRecord => exact absurd rfl (noRecord done)

end

end Effect

end ObjectBridge
