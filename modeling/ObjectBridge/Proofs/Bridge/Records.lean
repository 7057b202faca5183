import ObjectBridge.Proofs.Bridge.Invariants
import ObjectBridge.Proofs.Bridge.Layers
import ObjectBridge.Proofs.Bridge.PlainValues
import ObjectBridge.Proofs.Bridge.Results
import ObjectBridge.Proofs.Metadata.FieldNames

namespace ObjectBridge

namespace Effect
open Bridge (registryNumber)

-- Alone, the value is converted, and what it was converted to is converted back to it.
def ComesBack (b : Bridge) (ty : TypeEncoding) (v : NativeValue) : Prop :=
  ∃ form after, toScripting v ty b = (.ok form,after) ∧ (toNative form ty after).1 = .ok v

theorem comesBack_iff {b : Bridge} {ty : TypeEncoding} {v : NativeValue} : ComesBack b ty v ↔
    ((toScripting v ty b).1 >>= fun form => (toNative form ty (toScripting v ty b).2).1) = .ok v := by
  rw [Outcome.bind_ok]
  constructor
  · rintro ⟨form,after,there,back⟩
    exact ⟨form,by rw [there],by rw [there]; exact back⟩
  · rintro ⟨form,there,back⟩
    exact ⟨form,_,Prod.ext there rfl,back⟩

-- What was code comes back as code that calls it.
theorem ComesBack.codeless {b : Bridge} {ty : TypeEncoding} {v : NativeValue} (back : ComesBack b ty v) : v.wrappers = [] := by
  obtain ⟨form,after,there,back⟩ := back
  rw [toNative_fst] at back
  refine v.wrappers_of_layered fun k => ?_
  induction k with
  | zero => exact v.layered_zero
  | succ k ih => exact Bridge.slot_layered (scripting_layered ty v ih b form after (owned_ok there)) back

-- A field's value and what it is converted to, in the bridge as the fields in front of it have left it.
structure Crossing where
  field : Field
  value : NativeValue
  before : Bridge
  form : ScriptValue
  after : Bridge
  converts : toScripting value field.type before = (.ok form,after)

inductive Crossings : List (String × ScriptValue) → Bridge → List Crossing → Bridge → Prop where
  | done (done : List (String × ScriptValue)) (b : Bridge) : Crossings done b [] b
  | next {done : List (String × ScriptValue)} (crossing : Crossing) {crossings : List Crossing} {last : Bridge}
      (rest : Crossings ((Table.mk done).put crossing.field.name crossing.form).entries
        (putField done crossing.field.name crossing.form crossing.after).2 crossings last) :
      Crossings done crossing.before (crossing :: crossings) last

-- The record with the fields entered one after the other.
def entered (done : List (String × ScriptValue)) (crossings : List Crossing) : List (String × ScriptValue) :=
  (crossings.foldl (fun t crossing => t.put crossing.field.name crossing.form) (Table.mk done)).entries

def lastNamed (crossings : List Crossing) (name : String) : Option Crossing :=
  crossings.reverse.find? (·.field.name = name)

variable {b last : Bridge} {done : List (String × ScriptValue)} {crossing : Crossing} {crossings : List Crossing}
  {values : List NativeValue} {layout : List Field}

theorem crossings_cons : Crossings done b (crossing :: crossings) last ↔ crossing.before = b ∧
    Crossings ((Table.mk done).put crossing.field.name crossing.form).entries
      (putField done crossing.field.name crossing.form crossing.after).2 crossings last := by
  constructor
  · rintro ⟨⟩
    exact ⟨rfl,by assumption⟩
  · rintro ⟨rfl,rest⟩
    exact .next crossing rest

theorem scriptingFields_crossings {record : List (String × ScriptValue)} (counted : layout.length = values.length)
    (run : scriptingFields done values layout b = (.ok record,last)) :
    ∃ crossings, Crossings done b crossings last ∧ crossings.map (·.field) = layout ∧ crossings.map (·.value) = values ∧
      record = entered done crossings := by
  induction layout generalizing values done b with
  | nil =>
    obtain rfl := List.length_eq_zero_iff.mp counted.symm
    cases run
    exact ⟨[],.done _ _,rfl,rfl,rfl⟩
  | cons field rest ih =>
    obtain ⟨v,vs,rfl⟩ := List.exists_cons_of_length_eq_add_one counted.symm
    rw [scriptingFields] at run
    dsimp only at run
    rcases one : scripting false field.type v b with ⟨failure | form,after⟩
    · rw [one] at run
      cases run
    · rw [one] at run
      dsimp only at run
      rw [bind_eq (putField_eq done field.name form after)] at run
      have converts := toScripting_ok one
      obtain ⟨crossings,others,rfl,rfl,rfl⟩ := ih (Nat.succ.inj counted) run
      refine ⟨⟨field,v,b,form,after,converts⟩ :: crossings,crossings_cons.mpr ⟨rfl,?_⟩,rfl,rfl,rfl⟩
      rw [putField_eq]
      exact others

theorem structure_crossings {id : DescriptorId} {form : ScriptValue} (described : Bridge.layout? b.metadata id = some layout)
    (converted : toScripting (.struct values) (.struct id) b = (.ok form,last)) :
    ∃ crossings, Crossings [] b crossings last ∧ crossings.map (·.field) = layout ∧ crossings.map (·.value) = values ∧
      form = .record (entered [] crossings) := by
  have run := owned_ok converted
  rw [scripting] at run
  obtain ⟨found,middle,given,rest⟩ := bind_ok run
  have whole := forgo_ok.mp given
  unfold structLayout at whole
  rw [described] at whole
  dsimp only at whole
  split at whole
  · rename_i counted
    cases whole
    obtain ⟨record,after,fields,joined⟩ := bind_ok rest
    cases joined
    obtain ⟨crossings,each,same,given,rfl⟩ := scriptingFields_crossings counted fields
    exact ⟨crossings,each,same,given,rfl⟩
  · cases whole

theorem lastNamed_some {name : String} (found : lastNamed crossings name = some crossing) :
    crossing ∈ crossings ∧ crossing.field.name = name := by
  refine ⟨List.mem_reverse.mp (List.mem_of_find?_eq_some found),?_⟩
  simpa using List.find?_some found

theorem lastNamed_exists (member : crossing ∈ crossings) : ∃ last, lastNamed crossings crossing.field.name = some last := by
  refine Option.isSome_iff_exists.mp (List.find?_isSome.mpr ⟨crossing,List.mem_reverse.mpr member,?_⟩)
  exact decide_eq_true rfl

theorem lookup_entered (crossings : List Crossing) (name : String) :
    (entered [] crossings).lookup name = (lastNamed crossings name).map (·.form) := by
  refine (Table.get?_puts (fun crossing : Crossing => crossing.field.name) (·.form) crossings ⟨[]⟩ name).trans ?_
  exact Option.or_none

theorem entered_sorted (crossings : List Crossing) : (Table.mk (entered [] crossings)).Sorted :=
  Table.puts_sorted (fun crossing : Crossing => crossing.field.name) (·.form) crossings .nil

theorem entered_names (crossings : List Crossing) :
    ((entered [] crossings).map (·.1)).Perm (crossings.map (·.field.name)).dedup := by
  refine (List.perm_ext_iff_of_nodup (entered_sorted crossings).keys_nodup (List.nodup_dedup _)).mpr fun name => ?_
  rw [List.mem_dedup,List.mem_map]
  refine (Table.mem_keys (t := ⟨entered [] crossings⟩)).trans ?_
  change (∃ value, (entered [] crossings).lookup name = some value) ↔ _
  constructor
  · rintro ⟨value,found⟩
    rw [lookup_entered] at found
    obtain ⟨crossing,stands,_⟩ := Option.map_eq_some_iff.mp found
    exact ⟨crossing,lastNamed_some stands⟩
  · rintro ⟨crossing,member,rfl⟩
    obtain ⟨last,stands⟩ := lastNamed_exists member
    exact ⟨last.form,by rw [lookup_entered,stands]; rfl⟩

-- Each field's value comes back alone, from the bridge in which it is converted.
def AllComeBack (crossings : List Crossing) : Prop :=
  ∀ crossing ∈ crossings, ComesBack crossing.before crossing.field.type crossing.value

-- What has become of a structure whose fields have these names. Only where no name is there twice has the record an
-- entry for each field; then nothing but a field itself can fail to come back.
structure Recorded (names : List String) (id : DescriptorId) (crossings : List Crossing)
    (record : List (String × ScriptValue)) (after : Bridge) : Prop where
  entries : (record.map (·.1)).Perm names.dedup
  complete : (record.map (·.1)).Perm names ↔ names.Nodup
  stands : ∀ name, record.lookup name = (lastNamed crossings name).map (·.form)
  entryBack : AllComeBack crossings → ∀ name crossing, lastNamed crossings name = some crossing →
    toNative crossing.form crossing.field.type after = (.ok crossing.value,after)
  back : AllComeBack crossings → names.Nodup →
    toNative (.record record) (.struct id) after = (.ok (.struct (crossings.map (·.value))),after)
  repeated : AllComeBack crossings →
    (∀ one ∈ crossings, ∀ other ∈ crossings, one.field.name = other.field.name → one.field.type = other.field.type) →
      (toNative (.record record) (.struct id) after = (.ok (.struct (crossings.map (·.value))),after) ↔
        ∀ one ∈ crossings, ∀ other ∈ crossings, one.field.name = other.field.name → one.value = other.value)

theorem Crossings.metadata (run : Crossings done b crossings last) :
    last.metadata = b.metadata ∧ ∀ crossing ∈ crossings, crossing.after.metadata = b.metadata := by
  induction run with
  | done => exact ⟨rfl,fun _ none => nomatch none⟩
  | @next done crossing crossings last _ ih =>
    have invariant := Bridge.metadata_invariant crossing.before.metadata
    have converted := toScripting_preserves invariant crossing.value crossing.field.type crossing.before rfl
    rw [crossing.converts] at converted
    have placed := putField_preserves invariant done crossing.field.name crossing.form crossing.after converted
    obtain ⟨lasts,each⟩ := ih
    exact ⟨lasts.trans placed,List.forall_mem_cons.mpr ⟨converted,fun other later => (each other later).trans placed⟩⟩

-- All that is borrowed is out with the record, and what a field has borrowed was out when it was converted.
theorem Crossings.lends {s : Holdings} {given : List Nat} (opened : s.isOpen registryNumber)
    (codeless : ∀ crossing ∈ crossings, crossing.value.wrappers = []) (sorted : (Table.mk done).Sorted)
    (before : Holdings.Lends registryNumber s ((ScriptValue.record done).handles ++ given) b.holdings)
    (run : Crossings done b crossings last) :
    Holdings.Lends registryNumber s ((ScriptValue.record (entered done crossings)).handles ++ given) last.holdings ∧
      ∀ crossing ∈ crossings, ∃ others,
        Holdings.Lends registryNumber s (crossing.form.handles ++ others) crossing.after.holdings := by
  induction run with
  | done => exact ⟨before,fun _ none => nomatch none⟩
  | @next done crossing crossings last _ ih =>
    obtain ⟨first,others⟩ := List.forall_mem_cons.mp codeless
    have nothing : crossing.value.handles = [] := by rw [NativeValue.handles,first,List.map_nil]
    have lending := scripting_lending (s := s) opened crossing.field.type crossing.value
    rw [nothing] at lending
    have converted := lending _ _ before
    rw [owned_ok crossing.converts] at converted
    have placed := putField_lending opened sorted crossing.field.name crossing.form given crossing.after
      (List.append_assoc .. ▸ converted)
    rw [putField_eq] at placed ih
    obtain ⟨whole,each⟩ := ih others (Table.put_sorted _ _ _ sorted) placed
    exact ⟨whole,List.forall_mem_cons.mpr ⟨⟨_,converted⟩,each⟩⟩

theorem slot_structure {record : List (String × ScriptValue)} {id : DescriptorId}
    (described : Bridge.layout? b.metadata id = some (crossings.map (·.field))) :
    b.slot (.record record) (.struct id) = .ok (.struct (crossings.map (·.value))) ↔ ∀ crossing ∈ crossings,
      ∃ given, record.lookup crossing.field.name = some given ∧ b.slot given crossing.field.type = .ok crossing.value := by
  rw [Bridge.structSlot_iff described]
  constructor
  · rintro ⟨_,_,same,values,each⟩
    cases same
    cases values
    rwa [List.forall₂_map_left_iff,List.forall₂_map_right_iff,List.forall₂_same] at each
  · intro each
    refine ⟨_,_,rfl,rfl,?_⟩
    rwa [List.forall₂_map_left_iff,List.forall₂_map_right_iff,List.forall₂_same]

section Start
variable (filed : b.holdings.Filed) (opened : b.holdings.isOpen registryNumber) (run : Crossings [] b crossings last)
include filed opened run

-- To a slot an entry of the record is in the end what it was when it was made.
theorem Crossings.slot (alone : AllComeBack crossings) (kept : lastNamed crossings crossing.field.name = some crossing) :
    last.slot crossing.form = crossing.after.slot crossing.form := by
  obtain ⟨member,_⟩ := lastNamed_some kept
  obtain ⟨whole,each⟩ := run.lends opened (fun other among => (alone other among).codeless) .nil (.refl _ filed)
  obtain ⟨others,lent⟩ := each crossing member
  obtain ⟨lasts,metadata⟩ := run.metadata
  have entry : (crossing.field.name,crossing.form) ∈ entered [] crossings :=
    Table.mem_of_get? (t := ⟨entered [] crossings⟩) (by rw [Table.get?,lookup_entered,kept]; rfl)
  refine Bridge.slot_congr (lasts.trans (metadata crossing member).symm) (whole.heap.trans lent.heap.symm) _ fun w among => ?_
  have mine : w.id ∈ crossing.form.handles := List.mem_map_of_mem among
  have out : w.id ∈ (ScriptValue.record (entered [] crossings)).handles := by
    rw [ScriptValue.handles_record]
    exact List.mem_flatMap.mpr ⟨_,entry,mine⟩
  rw [whole.isReleased (List.mem_append_left _ out),lent.isReleased (List.mem_append_left _ mine)]

theorem Crossings.entry_comes_back (alone : AllComeBack crossings)
    (kept : lastNamed crossings crossing.field.name = some crossing) :
    last.slot crossing.form crossing.field.type = .ok crossing.value := by
  obtain ⟨form,after,there,back⟩ := alone crossing (lastNamed_some kept).1
  cases crossing.converts.symm.trans there
  rw [run.slot filed opened alone kept,← toNative_fst]
  exact back

section Repeated
variable (alone : AllComeBack crossings)
  (types : ∀ one ∈ crossings, ∀ other ∈ crossings, one.field.name = other.field.name → one.field.type = other.field.type)
include alone types

-- What goes into a field comes from the last field of its name.
theorem Crossings.field_comes_back_iff {kept : Crossing} (member : crossing ∈ crossings)
    (found : lastNamed crossings crossing.field.name = some kept) :
    (∃ given, (entered [] crossings).lookup crossing.field.name = some given ∧
      last.slot given crossing.field.type = .ok crossing.value) ↔ kept.value = crossing.value := by
  obtain ⟨among,named⟩ := lastNamed_some found
  have entry : (entered [] crossings).lookup crossing.field.name = some kept.form := by rw [lookup_entered,found]; rfl
  have back := run.entry_comes_back filed opened alone (named.symm ▸ found)
  rw [types kept among crossing member named] at back
  constructor
  · rintro ⟨given,again,converted⟩
    cases entry.symm.trans again
    exact Except.ok.inj (back.symm.trans converted)
  · intro same
    exact ⟨kept.form,entry,same ▸ back⟩

theorem Crossings.structure_comes_back_iff {id : DescriptorId}
    (described : Bridge.layout? b.metadata id = some (crossings.map (·.field))) :
    toNative (.record (entered [] crossings)) (.struct id) last = (.ok (.struct (crossings.map (·.value))),last) ↔
      ∀ one ∈ crossings, ∀ other ∈ crossings, one.field.name = other.field.name → one.value = other.value := by
  rw [← run.metadata.1] at described
  rw [toNative_eq,slot_structure described]
  constructor
  · intro each one member other among same
    obtain ⟨kept,found⟩ := lastNamed_exists member
    have first := (run.field_comes_back_iff filed opened alone types member found).mp (each one member)
    have second := (run.field_comes_back_iff filed opened alone types among (same ▸ found)).mp (each other among)
    exact first.symm.trans second
  · intro equal one member
    obtain ⟨kept,found⟩ := lastNamed_exists member
    obtain ⟨among,named⟩ := lastNamed_some found
    exact (run.field_comes_back_iff filed opened alone types member found).mpr (equal kept among one member named)

end Repeated

theorem Crossings.recorded {id : DescriptorId} (described : Bridge.layout? b.metadata id = some (crossings.map (·.field))) :
    Recorded (crossings.map (·.field.name)) id crossings (entered [] crossings) last where
  entries := entered_names crossings
  complete := by
    have names := entered_names crossings
    constructor
    · intro all
      exact (all.symm.trans names).nodup_iff.mpr (List.nodup_dedup _)
    · intro distinct
      rwa [distinct.dedup] at names
  stands := lookup_entered crossings
  entryBack alone name crossing kept := by
    obtain ⟨_,rfl⟩ := lastNamed_some kept
    exact toNative_eq.mpr (run.entry_comes_back filed opened alone kept)
  back alone distinct := by
    have single : ∀ one ∈ crossings, ∀ other ∈ crossings, one.field.name = other.field.name → one = other :=
      fun one member other among same => List.inj_on_of_nodup_map distinct member among same
    refine (run.structure_comes_back_iff filed opened alone ?_ described).mpr ?_
    · exact fun one member other among same => by rw [single one member other among same]
    · exact fun one member other among same => by rw [single one member other among same]
  repeated alone types := run.structure_comes_back_iff filed opened alone types described

end Start
end Effect

namespace Universe
open Effect

variable {u : Universe} {file : Array UInt8} {b : Bridge} {d : StructDecl}

-- Neither compiling nor loading looks at the names of a structure's fields, so that they are as they were declared.
theorem distinct_fields_come_back (compiled : u.compile = .ok file) (loaded : Metadata.ofBytes file = .ok b.metadata)
    (lived : b.Lived) (opened : b.isOpen = true) (declared : d ∈ u.structs) :
    ∃ id layout, b.metadata.resolve? d.name = some (id,.struct d.name layout) ∧
      layout.map (·.name) = d.fields.map (·.name) ∧
      ∀ values form after, toScripting (.struct values) (.struct id) b = (.ok form,after) →
        ∃ record crossings, form = .record record ∧ Crossings [] b crossings after ∧
          crossings.map (·.field) = layout ∧ crossings.map (·.value) = values ∧
          Recorded (d.fields.map (·.name)) id crossings record after := by
  obtain ⟨id,layout,found,described,names⟩ := Metadata.loaded_layout compiled loaded declared
  refine ⟨id,layout,found,names,fun values form after converted => ?_⟩
  obtain ⟨crossings,run,rfl,rfl,rfl⟩ := structure_crossings described converted
  refine ⟨_,crossings,rfl,run,rfl,rfl,?_⟩
  have recorded := run.recorded lived.filed (lived.reached.standing opened).opened described
  rwa [← names,List.map_map]

open Bridge (pairFile paired peopled peopled_lived)

-- The class and the structure of `pairFile` as they are declared.
def couple : Universe where
  interfaces := [⟨"A",none,[],[],[]⟩]
  protocols := []
  structs := [⟨"P",[⟨"o","id<A>"⟩,⟨"t","string"⟩]⟩]
  functions := []

theorem couple_compiled : couple.compile = .ok pairFile := by
  have object : TypeRef.parse "id<A>" = .ok (.object (some "A")) :=
    parse_tokens [.word "id" 0,.mark '<' 2,.word "A" 3,.mark '>' 4] (by decide +kernel) (by cbv)
  have text : TypeRef.parse "string" = .ok (.scalar .string) :=
    parse_tokens [.word "string" 0] (by decide +kernel) (by cbv)
  have declarations : couple.declarations = [.interface _,.struct _] := rfl
  unfold Universe.compile Universe.resolve
  simp only [declarations,List.map_cons,List.map_nil,placeDeclarations,List.mapM_cons,List.mapM_nil,Scope.describe,
    Scope.readMembers,Scope.readSignature,readType_parsed object,readType_parsed text]
  cbv

theorem couple_loaded : Metadata.ofBytes pairFile = .ok paired := by cbv

theorem couple_found : paired.resolve? "P" =
    some (⟨88⟩,.struct "P" [⟨"o",.object (some ⟨64⟩)⟩,⟨"t",.scalar .string⟩]) := by cbv

def wholePair : List NativeValue := [.object ⟨0x1000⟩,.cstring (some [0x61])]

theorem instance_comes_back : ComesBack peopled (.object (some ⟨64⟩)) (.object ⟨0x1000⟩) := comesBack_iff.mpr (by cbv)

theorem text_comes_back (b : Bridge) : ComesBack b (.scalar .string) (.cstring (some [0x61])) :=
  ⟨.string "a",b,toScripting_ok (scripting_text (by cbv)),by cbv⟩

-- The instance is wrapped for the record, and its wrapper leads back to it.
theorem couple_comes_back : couple.compile = .ok pairFile ∧ Metadata.ofBytes pairFile = .ok paired ∧ peopled.Lived ∧
    ∃ form after, toScripting (.struct wholePair) (.struct ⟨88⟩) peopled = (.ok form,after) ∧
      toNative form (.struct ⟨88⟩) after = (.ok (.struct wholePair),after) := by
  have converts : (toScripting (.struct wholePair) (.struct ⟨88⟩) peopled).1.toOption.isSome = true := by cbv
  obtain ⟨id,layout,found,_,each⟩ :=
    distinct_fields_come_back couple_compiled (b := peopled) couple_loaded peopled_lived rfl List.mem_cons_self
  cases couple_found.symm.trans found
  refine ⟨couple_compiled,couple_loaded,peopled_lived,?_⟩
  rcases run : toScripting (.struct wholePair) (.struct ⟨88⟩) peopled with ⟨e | form,after⟩
  · rw [run] at converts
    cases converts
  · obtain ⟨record,crossings,rfl,crossed,fields,values,recorded⟩ := each _ _ _ run
    obtain ⟨one,_,rfl,first,others⟩ := List.map_eq_cons_iff.mp fields
    obtain ⟨two,_,rfl,second,none⟩ := List.map_eq_cons_iff.mp others
    obtain rfl := List.map_eq_nil_iff.mp none
    obtain ⟨start,_⟩ := crossings_cons.mp crossed
    obtain ⟨given,text⟩ : one.value = .object ⟨0x1000⟩ ∧ two.value = .cstring (some [0x61]) := by simpa [wholePair] using values
    have alone : AllComeBack [one,two] := by
      refine List.forall_mem_cons.mpr ⟨?_,List.forall_mem_singleton.mpr ?_⟩
      · rw [start,first,given]
        exact instance_comes_back
      · rw [second,text]
        exact text_comes_back _
    exact ⟨_,after,rfl,values ▸ recorded.back alone (by decide)⟩

-- Two fields of one name and one type.
def twins : Universe where
  interfaces := []
  protocols := []
  structs := [⟨"P",[⟨"x","bool"⟩,⟨"x","bool"⟩]⟩]
  functions := []

def twinFile : Array UInt8 :=
  #[0x4d,0x42,0x4d,0x44,1,0,0,0,32,0,0,0,6,0,0,0,38,0,0,0,50,0,0,0,34,0,0,0,84,0,0,0,
    1,0,0x50,1,0,0x78, 1,0,0,0,32,0,0,0,50,0,0,0, 3,0,0,0,32,0,0,0,72,0,0,0,
    35,0,0,0,1, 35,0,0,0,1, 2,0,0,0,62,0,0,0,67,0,0,0]

def twinned : Metadata := ⟨1,⟨twinFile,⟨32,38⟩,⟨38,50⟩,⟨50,84⟩⟩,⟨[(50,())]⟩⟩

theorem twins_compiled : twins.compile = .ok twinFile := by
  have truth : TypeRef.parse "bool" = .ok (.scalar .bool) := parse_tokens [.word "bool" 0] (by decide +kernel) (by cbv)
  have declarations : twins.declarations = [.struct _] := rfl
  unfold Universe.compile Universe.resolve
  simp only [declarations,List.map_cons,List.map_nil,placeDeclarations,List.mapM_cons,List.mapM_nil,Scope.describe,
    readType_parsed truth]
  cbv

-- The second field takes the place of the first, in the record and in what comes back.
theorem repeated_field_is_lost : twins.compile = .ok twinFile ∧ Metadata.ofBytes twinFile = .ok twinned ∧
    (Bridge.opened twinned [] .empty).Lived ∧
    Bridge.layout? twinned ⟨50⟩ = some [⟨"x",.scalar .bool⟩,⟨"x",.scalar .bool⟩] ∧
    (∀ b x, ComesBack b (.scalar .bool) (.bool x)) ∧
    toScripting (.struct [.bool true,.bool false]) (.struct ⟨50⟩) (.opened twinned [] .empty) =
      (.ok (.record [("x",.bool false)]),.opened twinned [] .empty) ∧
    toNative (.record [("x",.bool false)]) (.struct ⟨50⟩) (.opened twinned [] .empty) =
      (.ok (.struct [.bool false,.bool false]),.opened twinned [] .empty) := by
  refine ⟨twins_compiled,by cbv,⟨twinned,[],.empty,.refl⟩,by cbv,?_,by cbv,by cbv⟩
  exact fun b x => ⟨.bool x,b,rfl,rfl⟩

end Universe
end ObjectBridge
