import Mathlib.Data.List.Forall2
import ObjectBridge.Bridge.ToNative
import ObjectBridge.Proofs.Outcome

namespace ObjectBridge

-- What a native value holds behind the fields of these places, one inside the other.
def NativeValue.at? : NativeValue → List Nat → Option NativeValue
  | v, [] => some v
  | .struct fields, i :: path => fields[i]?.bind (·.at? path)
  | _, _ :: _ => none

-- Handing the value to a slot of the type hands the wrapper to an object slot, for which the type may
-- name a target. A structure takes from a record only what its fields are named after.
inductive GivenAt (m : Metadata) : TypeEncoding → ScriptValue → List Nat → Option DescriptorId → Wrapper → Prop where
  | here (target : Option DescriptorId) (w : Wrapper) : GivenAt m (.object target) (.object w) [] target w
  | field {id : DescriptorId} {layout : List Field} {i : Nat} {field : Field} {record : List (String × ScriptValue)}
      {value : ScriptValue} {path : List Nat} {target : Option DescriptorId} {w : Wrapper}
      (described : Bridge.layout? m id = some layout) (placed : layout[i]? = some field)
      (named : record.lookup field.name = some value) (inside : GivenAt m field.type value path target w) :
      GivenAt m (.struct id) (.record record) (i :: path) target w

-- The wrapper is unreleased, and the instance that lives at its address is its own.
def Bridge.Stands (b : Bridge) (w : Wrapper) : Prop :=
  b.holdings.isReleased w = false ∧ b.heap.serial? w.address = some w.serial

-- What native code can rely on where a wrapper was handed to it.
structure Bridge.Admits (b : Bridge) (target : Option DescriptorId) (w : Wrapper) : Prop where
  stands : b.Stands w
  compatible : ∀ id, target = some id → w.cls.isCompatible id = true

namespace Bridge

variable {b : Bridge} {v : ScriptValue} {ty : TypeEncoding} {n : NativeValue} {w : Wrapper} {path : List Nat}
  {target : Option DescriptorId} {expected : String}

theorem isCurrent_iff : b.holdings.isCurrent w = true ↔ b.heap.serial? w.address = some w.serial :=
  decide_eq_true_iff

theorem wrapperSlot_ok (converted : b.wrapperSlot w target expected = .ok n) :
    n = .object w.address ∧ b.Admits target w := by
  unfold wrapperSlot at converted
  dsimp only at converted
  split at converted
  · cases converted
  · rename_i unreleased
    split at converted
    · cases converted
    · rename_i current
      split at converted
      · cases converted
      · rename_i fits
        cases converted
        refine ⟨rfl,⟨Bool.eq_false_iff.mpr unreleased,isCurrent_iff.mp (Bool.not_eq_false _ ▸ current)⟩,?_⟩
        rintro id rfl
        simpa using fits

theorem lookup_fieldSlots (b : Bridge) (record : List (String × ScriptValue)) (name : String) :
    (fieldSlots b record).lookup name = (record.lookup name).map b.slot := by
  induction record with
  | nil => rfl
  | cons entry rest ih =>
    rw [fieldSlots,List.lookup_cons,List.lookup_cons,ih]
    split <;> rfl

-- A structure comes from a record, and each of its fields from the record's field of that name.
theorem structSlot_iff {id : DescriptorId} {layout : List Field} (described : layout? b.metadata id = some layout) :
    b.slot v (.struct id) = .ok n ↔ ∃ record values, v = .record record ∧ n = .struct values ∧
      List.Forall₂ (fun f value => ∃ given, record.lookup f.name = some given ∧ b.slot given f.type = .ok value)
        layout values := by
  cases v with
  | record record =>
    change b.structSlot (fieldSlots b record) id _ = .ok n ↔ _
    unfold structSlot
    simp only [described,Outcome.bind_ok,Outcome.pure_ok,Outcome.mapM_ok,lookup_fieldSlots]
    constructor
    · rintro ⟨values,each,rfl⟩
      refine ⟨record,values,rfl,rfl,each.imp fun f value taken => ?_⟩
      cases named : record.lookup f.name with
      | none => rw [named] at taken; cases taken
      | some given => rw [named] at taken; exact ⟨given,rfl,taken⟩
    · rintro ⟨_,values,same,rfl,each⟩
      cases same
      refine ⟨values,each.imp fun f value taken => ?_,rfl⟩
      obtain ⟨given,named,converted⟩ := taken
      rw [named]
      exact converted
  | _ =>
    simp only [reduceCtorEq,false_and,exists_false,iff_false]
    exact fun converted => nomatch converted

-- The induction is on the way to the wrapper; at each structure one field of the record is left.
theorem slot_given (given : GivenAt b.metadata ty v path target w) (converted : b.slot v ty = .ok n) :
    n.at? path = some (.object w.address) ∧ b.Admits target w := by
  induction given generalizing n with
  | here target w =>
    obtain ⟨rfl,admits⟩ := wrapperSlot_ok converted
    exact ⟨rfl,admits⟩
  | field described placed named inside ih =>
    obtain ⟨_,fields,same,rfl,each⟩ := (structSlot_iff described).mp converted
    cases same
    obtain ⟨slot,there,given,again,taken⟩ := Outcome.related_at each placed
    cases named.symm.trans again
    rw [NativeValue.at?,there]
    exact ih taken

variable {c : Bridge}

theorem wrapperSlot_congr (heap : c.heap = b.heap) {w : Wrapper}
    (same : c.holdings.isReleased w = b.holdings.isReleased w) (target : Option DescriptorId) (expected : String) :
    c.wrapperSlot w target expected = b.wrapperSlot w target expected := by
  have current : c.holdings.isCurrent w = b.holdings.isCurrent w := by
    change decide (c.heap.serial? w.address = some w.serial) = _
    rw [heap]
    rfl
  unfold wrapperSlot
  rw [same,current]

theorem plainSlot_congr (metadata : c.metadata = b.metadata) (heap : c.heap = b.heap) {v : ScriptValue}
    (same : ∀ w ∈ v.wrappers, c.holdings.isReleased w = b.holdings.isReleased w) (ty : TypeEncoding) :
    c.plainSlot v ty = b.plainSlot v ty := by
  unfold plainSlot
  rw [metadata]
  cases ty with
  | object target =>
    cases v with
    | object w => exact wrapperSlot_congr heap (same w List.mem_cons_self) target _
    | _ => rfl
  | _ => rfl

mutual

theorem slot_congr (metadata : c.metadata = b.metadata) (heap : c.heap = b.heap) (v : ScriptValue)
    (same : ∀ w ∈ v.wrappers, c.holdings.isReleased w = b.holdings.isReleased w) : c.slot v = b.slot v := by
  funext ty
  cases v with
  | record fields =>
    cases ty with
    | struct id =>
      change c.structSlot (fieldSlots c fields) id _ = b.structSlot (fieldSlots b fields) id _
      rw [fieldSlots_congr metadata heap fields same,metadata]
      unfold structSlot
      rw [metadata]
    | scalar s => exact plainSlot_congr metadata heap same (.scalar s)
    | object target => exact plainSlot_congr metadata heap same (.object target)
    | block result params => exact plainSlot_congr metadata heap same (.block result params)
  | _ => exact plainSlot_congr metadata heap same ty

theorem fieldSlots_congr (metadata : c.metadata = b.metadata) (heap : c.heap = b.heap) (fields : List (String × ScriptValue))
    (same : ∀ w ∈ ScriptValue.fieldWrappers fields, c.holdings.isReleased w = b.holdings.isReleased w) :
    fieldSlots c fields = fieldSlots b fields := by
  match fields with
  | [] => rfl
  | (name,v) :: rest =>
    obtain ⟨first,others⟩ := List.forall_mem_append.mp same
    rw [fieldSlots,fieldSlots,slot_congr metadata heap v first,fieldSlots_congr metadata heap rest others]

end

end Bridge

namespace Effect

variable {b b' : Bridge} {args : List ScriptValue} {params : List TypeEncoding} {slots : List NativeValue}

theorem bind_ok {e : Effect α} {f : α → Effect β} {y : β} (succeeds : (e >>= f) b = (.ok y,b')) :
    ∃ x middle, e b = (.ok x,middle) ∧ f x middle = (.ok y,b') := by
  change ExceptT.bindCont f (e b).1 (e b).2 = _ at succeeds
  rcases run : e b with ⟨failure | x,middle⟩
  · rw [run] at succeeds; cases succeeds
  · rw [run] at succeeds; exact ⟨x,middle,rfl,succeeds⟩

theorem bind_eq {e : Effect α} {f : α → Effect β} {x : α} {middle : Bridge} (one : e b = (.ok x,middle)) :
    (e >>= f) b = f x middle := by
  change ExceptT.bindCont f (e b).1 (e b).2 = _
  rw [one]
  rfl

theorem bind_stops {e : Effect α} {f : α → Effect β} {error : BridgeError} {middle : Bridge}
    (fails : e b = (.error error,middle)) : (e >>= f) b = (.error error,middle) := by
  change ExceptT.bindCont f (e b).1 (e b).2 = _
  rw [fails]
  rfl

theorem located_ok {e : Effect α} {site : String} {place : Option Nat} {x : α}
    (succeeds : located site place e b = (.ok x,b')) : e b = (.ok x,b') := by
  unfold located at succeeds
  rcases run : e b with ⟨failure | y,middle⟩
  · rw [run] at succeeds; cases succeeds
  · rw [run] at succeeds; exact succeeds

theorem toNative_fst (b : Bridge) (v : ScriptValue) (ty : TypeEncoding) : (toNative v ty b).1 = b.slot v ty := by
  unfold toNative
  cases b.slot v ty <;> rfl

theorem toNative_ok {v : ScriptValue} {ty : TypeEncoding} {n : NativeValue}
    (succeeds : toNative v ty b = (.ok n,b')) : b' = b ∧ b.slot v ty = .ok n := by
  unfold toNative at succeeds
  split at succeeds
  · rename_i converted; cases succeeds; exact ⟨rfl,converted⟩
  · cases succeeds

theorem toNative_eq {v : ScriptValue} {ty : TypeEncoding} {n : NativeValue} :
    toNative v ty b = (.ok n,b) ↔ b.slot v ty = .ok n := by
  refine ⟨fun converted => (toNative_ok converted).2,fun converted => ?_⟩
  unfold toNative
  rw [converted]

-- Arguments that convert leave no trace, and each one fits the slot that it went to.
theorem frame_ok {member : String} (succeeds : frame member params args b = (.ok slots,b')) :
    b' = b ∧ List.Forall₂ (fun pair n => b.slot pair.1 pair.2 = .ok n) (args.zip params) slots := by
  unfold frame at succeeds
  generalize 0 = first at succeeds
  induction args generalizing params slots first with
  | nil => cases succeeds; exact ⟨rfl,.nil⟩
  | cons v rest ih =>
    cases params with
    | nil => cases succeeds; exact ⟨rfl,.nil⟩
    | cons ty types =>
      obtain ⟨n,middle,one,later⟩ := bind_ok succeeds
      obtain ⟨others,last,more,joined⟩ := bind_ok later
      obtain ⟨rfl,converted⟩ := toNative_ok (located_ok one)
      cases joined
      obtain ⟨rfl,related⟩ := ih _ more
      exact ⟨rfl,.cons converted related⟩

end Effect
end ObjectBridge
