import ObjectBridge.Bridge.ToScripting
import ObjectBridge.Proofs.Bridge.Integers
import ObjectBridge.Proofs.Metadata.Segments
import ObjectBridge.Proofs.Table

namespace ObjectBridge

section Plain
variable (m : Metadata)

inductive Plain : TypeEncoding → Prop where
  | bool : Plain (.scalar .bool)
  | int (kind : IntKind) : Plain (.scalar (.int kind))
  | string : Plain (.scalar .string)
  | struct {id : DescriptorId} {layout : List Field} (described : Bridge.layout? m id = some layout)
      (distinct : (layout.map (·.name)).Nodup) (fields : ∀ f ∈ layout, Plain f.type) : Plain (.struct id)

-- The native values of a plain type. A native text ends at its first zero, so that it has none inside.
inductive Inhabits : TypeEncoding → NativeValue → Prop where
  | bool (x : Bool) : Inhabits (.scalar .bool) (.bool x)
  | int (kind : IntKind) (n : Int) (held : kind.holds n) : Inhabits (.scalar (.int kind)) (.int kind n held)
  | noText : Inhabits (.scalar .string) (.cstring none)
  | text {bytes : List UInt8} (unbroken : 0 ∉ bytes) (valid : (ByteArray.mk bytes.toArray).IsValidUTF8) :
      Inhabits (.scalar .string) (.cstring (some bytes))
  | struct {id : DescriptorId} {layout : List Field} {values : List NativeValue}
      (described : Bridge.layout? m id = some layout)
      (fields : List.Forall₂ (fun f v => Inhabits f.type v) layout values) : Inhabits (.struct id) (.struct values)

-- A script's value of the type, and the form that it takes when it comes back. `given` and `form` are a
-- field's value in the record and the form of that.
inductive Canonical : TypeEncoding → ScriptValue → ScriptValue → Prop where
  | bool (x : Bool) : Canonical (.scalar .bool) (.bool x) (.bool x)
  | number {kind : IntKind} {v : ScriptValue} {n : Int} (stands : v.StandsFor n) (small : n.natAbs ≤ 2^53) :
      Canonical (.scalar (.int kind)) v (.number (.ofInt n))
  | big {kind : IntKind} {v : ScriptValue} {n : Int} (stands : v.StandsFor n) (large : 2^53 < n.natAbs) :
      Canonical (.scalar (.int kind)) v (.big n)
  | string (text : String) : Canonical (.scalar .string) (.string text) (.string text)
  | nullish {v : ScriptValue} (absent : v.isNullish = true) : Canonical (.scalar .string) v .null
  | record {id : DescriptorId} {layout : List Field} {fields : List (String × ScriptValue)}
      {given form : Field → ScriptValue} (described : Bridge.layout? m id = some layout)
      (named : ∀ f ∈ layout, fields.lookup f.name = some (given f))
      (each : ∀ f ∈ layout, Canonical f.type (given f) (form f)) :
      Canonical (.struct id) (.record fields) (.ofFields (layout.map fun f => (f.name,form f)))

variable {m} {ty : TypeEncoding} {v form other : ScriptValue}

theorem Canonical.unique (one : Canonical m ty v form) (again : Canonical m ty v other) : form = other := by
  induction one generalizing other with
  | bool => cases again; rfl
  | number stands small =>
    cases again with
    | number other _ => rw [Int.cast_injective (stands.unique other)]
    | big other large => exact absurd small (Int.cast_injective (stands.unique other) ▸ Nat.not_le_of_lt large)
  | big stands large =>
    cases again with
    | number other small => exact absurd small (Int.cast_injective (stands.unique other) ▸ Nat.not_le_of_lt large)
    | big other _ => rw [Int.cast_injective (stands.unique other)]
  | string text =>
    cases again with
    | string => rfl
    | nullish absent => cases absent
  | nullish absent =>
    cases again with
    | string => cases absent
    | nullish => rfl
  | record described named each ih =>
    cases again with
    | record againDescribed againNamed againEach =>
      cases described.symm.trans againDescribed
      congr 1
      refine List.map_congr_left fun f member => ?_
      have same := Option.some.inj ((named f member).symm.trans (againNamed f member))
      rw [ih f member (same ▸ againEach f member)]

end Plain

theorem Text.decodeUtf8_ok {text : String} {bytes : List UInt8} :
    decodeUtf8 bytes.toArray = .ok text ↔ bytes = (encodeUtf8 text).toList := by
  constructor
  · intro decoded
    unfold decodeUtf8 at decoded
    split at decoded
    · rename_i read
      cases decoded
      unfold String.fromUTF8? at read
      split at read
      · cases read; rfl
      · cases read
    · cases decoded
  · rintro rfl
    unfold decodeUtf8 encodeUtf8
    rw [Array.toArray_toList,Stands.fromUTF8?_toUTF8]

namespace ScriptValue

variable {kind : IntKind} {n : Int}

theorem largestSafeInteger_eq : largestSafeInteger = 2^53 := by
  simp only [Nat.reducePow]
  rfl

theorem ofInt_number (kind : IntKind) (small : n.natAbs ≤ 2^53) : ofInt kind n = .number (.ofInt n) :=
  if_pos (.inr (largestSafeInteger_eq ▸ small))

-- What is beyond the safe integers needs one of the wide kinds.
theorem ofInt_big (held : kind.holds n) (large : 2^53 < n.natAbs) : ofInt kind n = .big n := by
  unfold ofInt
  rw [if_neg]
  rw [largestSafeInteger_eq]
  obtain ⟨above,below⟩ := held
  simp only [Nat.reducePow] at large ⊢
  cases kind <;> simp [IntKind.bits,IntKind.least,IntKind.greatest,IntKind.isSigned] at above below ⊢ <;> omega

theorem ofInt_stands (held : kind.holds n) : (ofInt kind n).StandsFor n := by
  rcases Nat.lt_or_ge (2^53) n.natAbs with large | small
  · rw [ofInt_big held large]
    exact .big n
  · rw [ofInt_number kind small]
    exact .number (Double.ofInt_value small)

theorem lookup_ofFields {layout : List Field} {form : Field → ScriptValue} (distinct : (layout.map (·.name)).Nodup)
    {f : Field} (member : f ∈ layout) :
    (Table.ofList (layout.map fun f => (f.name,form f))).entries.lookup f.name = some (form f) := by
  apply Table.get?_ofList
  · rwa [List.map_map]
  · exact List.mem_map.mpr ⟨f,member,rfl⟩

end ScriptValue

namespace Bridge

variable {b : Bridge} {v : ScriptValue} {n : NativeValue}

theorem boolSlot_ok : b.slot v (.scalar .bool) = .ok n ↔ ∃ x, v = .bool x ∧ n = .bool x := by
  rw [slot_scalar]
  cases v <;> simp [scalarSlot,eq_comm]

theorem stringSlot_ok : b.slot v (.scalar .string) = .ok n ↔
    (∃ text, v = .string text ∧ 0 ∉ (Text.encodeUtf8 text).toList ∧ n = .cstring (some (Text.encodeUtf8 text).toList)) ∨
      v.isNullish = true ∧ n = .cstring none := by
  rw [slot_scalar]
  cases v with
  | string text =>
    simp only [scalarSlot,NativeValue.ofText?]
    by_cases broken : 0 ∈ (Text.encodeUtf8 text).toList
    · simp [-Array.mem_toList_iff,broken,ScriptValue.isNullish]
    · simp [-Array.mem_toList_iff,broken,ScriptValue.isNullish,eq_comm]
  | _ => simp [scalarSlot,ScriptValue.isNullish,eq_comm]

end Bridge

namespace Effect

variable {b : Bridge} {owning : Bool} {done : List (String × ScriptValue)} {layout : List Field}
  {value : Field → NativeValue} {form : Field → ScriptValue}

theorem toScripting_ok {after : Bridge} {v : NativeValue} {ty : TypeEncoding} {s : ScriptValue}
    (converted : scripting false ty v b = (.ok s,after)) : toScripting v ty b = (.ok s,after) := by
  unfold toScripting toScriptingOwned
  rw [converted]

theorem putField_fresh {name : String} {v : ScriptValue} (fresh : (Table.mk done).get? name = none) :
    putField done name v b = (.ok ((Table.mk done).put name v).entries,b) := by
  unfold putField
  change done.lookup name = none at fresh
  rw [fresh]
  rfl

-- Where the fields' names differ, every field finds its place free.
theorem scriptingFields_ok (distinct : (layout.map (·.name)).Nodup)
    (fresh : ∀ f ∈ layout, (Table.mk done).get? f.name = none)
    (each : ∀ f ∈ layout, scripting false f.type (value f) b = (.ok (form f),b)) :
    scriptingFields done (layout.map value) layout b =
      (.ok (layout.foldl (fun t f => t.put f.name (form f)) (Table.mk done)).entries,b) := by
  induction layout generalizing done with
  | nil => rfl
  | cons f rest ih =>
    obtain ⟨unused,distinct⟩ := List.nodup_cons.mp distinct
    rw [List.map_cons,scriptingFields]
    dsimp only
    rw [each f List.mem_cons_self]
    dsimp only
    rw [bind_eq (putField_fresh (fresh f List.mem_cons_self))]
    refine ih distinct ?_ fun f later => each f (List.mem_cons_of_mem _ later)
    intro other later
    have different : other.name ≠ f.name := fun same => unused (List.mem_map.mpr ⟨other,later,same⟩)
    rw [Table.get?_put_ne _ _ different]
    exact fresh other (List.mem_cons_of_mem _ later)

theorem scripting_integer (kind : IntKind) {n : Int} (held : kind.holds n) :
    scripting false (.scalar (.int kind)) (.int kind n held) b = (.ok (.ofInt kind n),b) := by
  simp [scripting,fits,NativeValue.kind,TypeExpr.nativeKind]
  rfl

theorem scripting_text {text : String} {bytes : List UInt8} (decoded : Text.decodeUtf8 bytes.toArray = .ok text) :
    scripting false (.scalar .string) (.cstring (some bytes)) b = (.ok (.string text),b) := by
  rw [scripting]
  simp only [decoded]
  rfl

theorem forgo_ok {α : Type} {e : Effect α} {v : NativeValue} {x : α} {after : Bridge} :
    forgo v e b = (.ok x,after) ↔ e b = (.ok x,after) := by
  unfold forgo
  rcases e b with ⟨error | y,middle⟩
  · constructor <;> rintro ⟨⟩
  · exact .rfl

theorem scripting_struct {id : DescriptorId} (described : Bridge.layout? b.metadata id = some layout)
    (distinct : (layout.map (·.name)).Nodup)
    (each : ∀ f ∈ layout, scripting false f.type (value f) b = (.ok (form f),b)) :
    scripting false (.struct id) (.struct (layout.map value)) b =
      (.ok (.ofFields (layout.map fun f => (f.name,form f))),b) := by
  have whole : structLayout id (.struct id) (layout.map value).length b = (.ok layout,b) := by
    unfold structLayout
    simp [described]
  have unused : ∀ f ∈ layout, (Table.mk ([] : List (String × ScriptValue))).get? f.name = none := fun _ _ => rfl
  have fields := scriptingFields_ok distinct unused each
  rw [scripting]
  change (forgo _ (structLayout id (.struct id) (layout.map value).length) >>= _) b = _
  rw [bind_eq (forgo_ok.mpr whole),bind_eq fields,ScriptValue.ofFields,Table.ofList,List.foldl_map]
  rfl

section BothWays
variable {ty : TypeEncoding} {v : NativeValue} {s : ScriptValue}

theorem plain_there_and_back (plain : Plain b.metadata ty) (inhabits : Inhabits b.metadata ty v) :
    ∃ s, scripting false ty v b = (.ok s,b) ∧ b.slot s ty = .ok v := by
  induction plain generalizing v with
  | bool =>
    cases inhabits with
    | bool x => exact ⟨.bool x,rfl,rfl⟩
  | int kind =>
    cases inhabits with
    | int _ n held =>
      refine ⟨.ofInt kind n,scripting_integer kind held,?_⟩
      exact Bridge.integerSlot_ok.mpr ⟨n,held,ScriptValue.ofInt_stands held,rfl⟩
  | string =>
    cases inhabits with
    | noText => exact ⟨.null,rfl,rfl⟩
    | @text bytes unbroken valid =>
      let text := String.fromUTF8 ⟨bytes.toArray⟩ valid
      have encoded : bytes = (Text.encodeUtf8 text).toList := rfl
      refine ⟨.string text,scripting_text (Text.decodeUtf8_ok.mpr encoded),?_⟩
      exact Bridge.stringSlot_ok.mpr (.inl ⟨text,rfl,encoded ▸ unbroken,rfl⟩)
  | struct described distinct fields ih =>
    cases inhabits with
    | struct again inhabited =>
      cases described.symm.trans again
      obtain ⟨value,rfl,each⟩ := Outcome.related_map (distinct.of_map _) inhabited
      choose! form there back using fun f member => ih f member (each f member)
      refine ⟨_,scripting_struct described distinct there,?_⟩
      refine (Bridge.structSlot_iff described).mpr ⟨_,_,rfl,rfl,?_⟩
      rw [List.forall₂_map_right_iff,List.forall₂_same]
      exact fun f member => ⟨form f,ScriptValue.lookup_ofFields distinct member,back f member⟩

theorem plain_back_again (plain : Plain b.metadata ty) (converted : b.slot s ty = .ok v) :
    ∃ form, scripting false ty v b = (.ok form,b) ∧ Canonical b.metadata ty s form := by
  induction plain generalizing v s with
  | bool =>
    obtain ⟨x,rfl,rfl⟩ := Bridge.boolSlot_ok.mp converted
    exact ⟨.bool x,rfl,.bool x⟩
  | int kind =>
    obtain ⟨n,held,stands,rfl⟩ := Bridge.integerSlot_ok.mp converted
    refine ⟨.ofInt kind n,scripting_integer kind held,?_⟩
    rcases Nat.lt_or_ge (2^53) n.natAbs with large | small
    · rw [ScriptValue.ofInt_big held large]
      exact .big stands large
    · rw [ScriptValue.ofInt_number kind small]
      exact .number stands small
  | string =>
    rcases Bridge.stringSlot_ok.mp converted with ⟨text,rfl,_,rfl⟩ | ⟨absent,rfl⟩
    · exact ⟨.string text,scripting_text (Text.decodeUtf8_ok.mpr rfl),.string text⟩
    · exact ⟨.null,rfl,.nullish absent⟩
  | @struct id layout described distinct fields ih =>
    obtain ⟨record,values,rfl,rfl,each⟩ := (Bridge.structSlot_iff described).mp converted
    obtain ⟨value,rfl,taken⟩ := Outcome.related_map (distinct.of_map _) each
    have each : ∀ f ∈ layout, ∃ given, record.lookup f.name = some given ∧ b.slot given f.type = .ok (value f) := taken
    choose! given named taken using each
    choose! form there canonical using fun f member => ih f member (taken f member)
    exact ⟨_,scripting_struct described distinct there,.record described named canonical⟩

-- Neither direction touches the bridge.
theorem plain_values_round_trip (b : Bridge) {ty : TypeEncoding} (plain : Plain b.metadata ty) :
    (∀ v, Inhabits b.metadata ty v → ∃ s, toScripting v ty b = (.ok s,b) ∧ toNative s ty b = (.ok v,b)) ∧
    (∀ s v, (toNative s ty b).1 = .ok v → ∃ form, toScripting v ty b = (.ok form,b) ∧
      ∀ other, Canonical b.metadata ty s other ↔ other = form) := by
  constructor
  · intro v inhabits
    obtain ⟨s,there,back⟩ := plain_there_and_back plain inhabits
    exact ⟨s,toScripting_ok there,toNative_eq.mpr back⟩
  · intro s v converted
    rw [toNative_fst] at converted
    obtain ⟨form,back,canonical⟩ := plain_back_again plain converted
    refine ⟨form,toScripting_ok back,fun other => ⟨fun again => again.unique canonical,?_⟩⟩
    rintro rfl
    exact canonical

end BothWays

-- Two structures: at 81 one of an i64 and a u64, at 93 one of a text and the former.
def nestedFile : Array UInt8 :=
  #[0x4d,0x42,0x4d,0x44,1,0,0,0,32,0,0,0,29,0,0,0,61,0,0,0,81,0,0,0,72,0,0,0,153,0,0,0,
    2,0,0x49,0x6e,3,0,0x6c,0x6f,0x77,4,0,0x68,0x69,0x67,0x68,3,0,0x4f,0x75,0x74,3,0,0x74,0x61,0x67,2,0,0x69,0x6e,
    2,0,0,0,32,0,0,0,81,0,0,0,47,0,0,0,93,0,0,0, 3,0,0,0,32,0,0,0,115,0,0,0, 3,0,0,0,47,0,0,0,141,0,0,0,
    36,0,0,0,5,41,0,0,0,9, 2,0,0,0,105,0,0,0,110,0,0,0, 52,0,0,0,12,57,0,0,0,16,81,0,0,0,
    2,0,0,0,127,0,0,0,132,0,0,0]

def nested : Metadata := ⟨1,⟨nestedFile,⟨32,61⟩,⟨61,81⟩,⟨81,153⟩⟩,⟨[(81,()),(93,())]⟩⟩

theorem nested_loaded : Metadata.ofBytes nestedFile = .ok nested := by cbv

theorem inner_layout :
    Bridge.layout? nested ⟨81⟩ = some [⟨"low",.scalar (.int .i64)⟩,⟨"high",.scalar (.int .u64)⟩] := by cbv

theorem outer_layout : Bridge.layout? nested ⟨93⟩ = some [⟨"tag",.scalar .string⟩,⟨"in",.struct ⟨81⟩⟩] := by cbv

theorem outer_plain : Plain nested (.struct ⟨93⟩) := by
  refine .struct outer_layout (by decide) fun f member => ?_
  simp only [List.mem_cons,List.not_mem_nil,or_false] at member
  rcases member with rfl | rfl
  · exact .string
  · refine .struct inner_layout (by decide) fun f member => ?_
    simp only [List.mem_cons,List.not_mem_nil,or_false] at member
    rcases member with rfl | rfl
    · exact .int .i64
    · exact .int .u64

def widest : NativeValue :=
  .struct [.cstring (some [0xc3,0xa9]),.struct [.int .i64 (-2^63) (by decide),.int .u64 (2^64-1) (by decide)]]

def loose : ScriptValue :=
  .record [("in",.record [("high",.big 5),("low",.big (-3))]),("note",.bool true),("tag",.undefined)]

def withNested : Bridge := .initial nested []

theorem nested_structures_round_trip : Metadata.ofBytes nestedFile = .ok withNested.metadata ∧
    (∃ s, toScripting widest (.struct ⟨93⟩) withNested = (.ok s,withNested) ∧
      toNative s (.struct ⟨93⟩) withNested = (.ok widest,withNested)) ∧
    ∃ v form, (toNative loose (.struct ⟨93⟩) withNested).1 = .ok v ∧
      toScripting v (.struct ⟨93⟩) withNested = (.ok form,withNested) ∧ Canonical nested (.struct ⟨93⟩) loose form := by
  have valid : (ByteArray.mk #[0xc3,0xa9]).IsValidUTF8 := ("é" : String).isValidUTF8
  obtain ⟨there,back⟩ := plain_values_round_trip withNested outer_plain
  refine ⟨nested_loaded,there widest ?_,?_⟩
  · refine .struct outer_layout (.cons (.text (by decide) valid) (.cons (.struct inner_layout ?_) .nil))
    exact .cons (.int _ _ _) (.cons (.int _ _ _) .nil)
  · have low : withNested.slot (.big (-3)) (.scalar (.int .i64)) = .ok (.int .i64 (-3) (by decide)) := rfl
    have high : withNested.slot (.big 5) (.scalar (.int .u64)) = .ok (.int .u64 5 (by decide)) := rfl
    have innerLayout : Bridge.layout? withNested.metadata ⟨81⟩ = some _ := inner_layout
    have outerLayout : Bridge.layout? withNested.metadata ⟨93⟩ = some _ := outer_layout
    have inner : withNested.slot (.record [("high",.big 5),("low",.big (-3))]) (.struct ⟨81⟩) =
        .ok (.struct [.int .i64 (-3) (by decide),.int .u64 5 (by decide)]) :=
      (Bridge.structSlot_iff innerLayout).mpr ⟨_,_,rfl,rfl,.cons ⟨_,rfl,low⟩ (.cons ⟨_,rfl,high⟩ .nil)⟩
    have outer : withNested.slot loose (.struct ⟨93⟩) =
        .ok (.struct [.cstring none,.struct [.int .i64 (-3) (by decide),.int .u64 5 (by decide)]]) :=
      (Bridge.structSlot_iff outerLayout).mpr ⟨_,_,rfl,rfl,.cons ⟨.undefined,rfl,rfl⟩ (.cons ⟨_,rfl,inner⟩ .nil)⟩
    have converted := (toNative_fst withNested loose (.struct ⟨93⟩)).trans outer
    obtain ⟨form,returns,only⟩ := back loose _ converted
    exact ⟨_,form,converted,returns,(only form).mpr rfl⟩

end Effect
end ObjectBridge
