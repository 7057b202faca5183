import ObjectBridge.Proofs.Metadata.TypeBytes

namespace ObjectBridge

def Method.kept (m : Method) : Method := { m with signature := m.signature.kept }

def Property.kept (p : Property) : Property :=
  { p with getter := p.getter.map (·.kept), setter := p.setter.map (·.kept), type := p.type.kept }

def Field.kept (f : Field) : Field := { f with type := f.type.kept }

def Members.kept (m : Members) : Members :=
  { m with methods := m.methods.map (·.kept), properties := m.properties.map (·.kept) }

namespace Descriptor

def kept : Descriptor → Descriptor
  | .interface name base members => .interface name base members.kept
  | .protocol name members => .protocol name members.kept
  | .struct name fields => .struct name (fields.map (·.kept))
  | .function name signature => .function name signature.kept

@[simp] theorem kept_name (d : Descriptor) : d.kept.name = d.name := by cases d <;> rfl

@[simp] theorem kept_kind (d : Descriptor) : d.kept.kind = d.kind := by cases d <;> rfl

end Descriptor

variable {target : DescriptorId}

theorem accessor_references {m : Option Method} (member : target ∈ ((m.map (·.kept)).map (·.signature.references)).getD []) :
    target ∈ (m.map (·.signature.references)).getD [] := by
  cases m with
  | none => exact member
  | some m => exact Signature.kept_references member

theorem Property.kept_references {p : Property} (member : target ∈ p.kept.references) : target ∈ p.references := by
  rcases List.mem_append.mp member with accessors | type
  · refine List.mem_append_left _ ?_
    rcases List.mem_append.mp accessors with getter | setter
    · exact List.mem_append_left _ (accessor_references getter)
    · exact List.mem_append_right _ (accessor_references setter)
  · exact List.mem_append_right _ (TypeExpr.kept_references type)

-- What the parts that are left refer to, the parts have referred to.
theorem flatMap_references {α : Type} {left : α → α} {references : α → List DescriptorId} {items : List α}
    (each : ∀ a, target ∈ references (left a) → target ∈ references a)
    (member : target ∈ (items.map left).flatMap references) : target ∈ items.flatMap references := by
  obtain ⟨b,among,refers⟩ := List.mem_flatMap.mp member
  obtain ⟨a,there,rfl⟩ := List.mem_map.mp among
  exact List.mem_flatMap.mpr ⟨a,there,each a refers⟩

theorem Members.kept_references {m : Members} (member : target ∈ m.kept.references) : target ∈ m.references := by
  rcases List.mem_append.mp member with front | properties
  · refine List.mem_append_left _ ?_
    rcases List.mem_append.mp front with protocols | methods
    · exact List.mem_append_left _ protocols
    · exact List.mem_append_right _ (flatMap_references (fun _ => Signature.kept_references) methods)
  · exact List.mem_append_right _ (flatMap_references (fun _ => Property.kept_references) properties)

theorem Descriptor.kept_references {d : Descriptor} (member : target ∈ d.kept.references) : target ∈ d.references := by
  cases d with
  | interface name base members =>
    rcases List.mem_append.mp member with inBase | inMembers
    · exact List.mem_append_left _ inBase
    · exact List.mem_append_right _ (Members.kept_references inMembers)
  | protocol name members => exact Members.kept_references member
  | struct name fields => exact flatMap_references (fun _ => TypeExpr.kept_references) member
  | function name signature => exact Signature.kept_references member

namespace Blob
open Layout Outcome

variable {blob : Blob} {texts : List String} {place here n : Nat} {row : List UInt8}

theorem Holds.next (holds : Holds blob place (word n ++ row)) : Holds blob (place+4) row := by
  have rest := holds.right
  rwa [Stands.length_word] at rest

theorem Holds.read (holds : Holds blob place (word n ++ row)) (fits : n < 2^32) (part : String) :
    readWord blob.bytes part place = .ok n :=
  holds.left.stands.word fits part

theorem Holds.word_below (holds : Holds blob place (word n ++ row)) (small : blob.bytes.size < 2^32) :
    place < nowhere := by
  refine holds.below small ?_
  rw [List.length_append,Stands.length_word]
  omega

-- Every text can be read at its place.
def Lettered (blob : Blob) (texts : List String) : Prop :=
  ∀ text ∈ texts, textPlace texts text < 2^32 ∧ ∀ part, blob.readText part (textPlace texts text) = .ok text

structure MethodFits (Good : TypeEncoding → Prop) (texts : List String) (m : Method) : Prop where
  name : m.name ∈ texts
  selector : m.selector ∈ texts
  signature : SignatureFits Good m.signature

theorem methodPart_read {m : Method} (small : blob.bytes.size < 2^32) (lettered : Lettered blob texts)
    (fits : MethodFits Readable texts m) (holds : Holds blob here (methodPart texts here m).bytes) :
    blob.readMethod (methodPart texts here m).place = .ok m.kept ∧ (methodPart texts here m).place < nowhere := by
  unfold methodPart at holds ⊢
  dsimp only at holds ⊢
  simp only [List.append_assoc] at holds
  obtain ⟨signature,signatureBelow⟩ := signaturePart_read small fits.signature holds.left
  have name := holds.right
  have selector := name.next
  have flags := selector.next
  have pointer := flags.next
  have pointed := pointer.stands.word (Nat.lt_trans signatureBelow (by decide)) "method signature"
  obtain ⟨nameBelow,nameRead⟩ := lettered _ fits.name
  obtain ⟨selectorBelow,selectorRead⟩ := lettered _ fits.selector
  have flagsBelow : m.flags.toNat < 2^32 := Nat.lt_trans m.flags.toNat_lt (by decide)
  refine ⟨?_,name.word_below small⟩
  unfold readMethod
  refine bind_ok.mpr ⟨(),name.require (by simp [Stands.length_word,methodSize]) _,?_⟩
  refine bind_ok.mpr ⟨_,name.read nameBelow _,bind_ok.mpr ⟨_,nameRead _,?_⟩⟩
  refine bind_ok.mpr ⟨_,selector.read selectorBelow _,bind_ok.mpr ⟨_,selectorRead _,?_⟩⟩
  refine bind_ok.mpr ⟨_,flags.read flagsBelow _,?_⟩
  refine bind_ok.mpr ⟨_,pointed,bind_ok.mpr ⟨_,signature,?_⟩⟩
  rw [UInt8.ofNat_toNat]
  rfl

theorem accessorPart_read {m : Option Method} (small : blob.bytes.size < 2^32) (lettered : Lettered blob texts)
    (fits : ∀ method ∈ m, MethodFits Readable texts method) (holds : Holds blob here (accessorPart texts here m).bytes) :
    blob.readAccessor (accessorPart texts here m).place = .ok (m.map (·.kept)) ∧ (accessorPart texts here m).place < 2^32 := by
  cases m with
  | none => exact ⟨if_pos rfl,show nowhere < 2^32 by decide⟩
  | some m =>
    obtain ⟨read,below⟩ := methodPart_read small lettered (fits m rfl) holds
    refine ⟨?_,Nat.lt_trans below (by decide)⟩
    change blob.readAccessor (methodPart texts here m).place = _
    unfold readAccessor
    rw [if_neg (Nat.ne_of_lt below)]
    exact bind_ok.mpr ⟨m.kept,read,rfl⟩

structure PropertyFits (Good : TypeEncoding → Prop) (texts : List String) (p : Property) : Prop where
  name : p.name ∈ texts
  getter : ∀ m ∈ p.getter, MethodFits Good texts m
  setter : ∀ m ∈ p.setter, MethodFits Good texts m
  type : Good p.type

theorem propertyPart_read {p : Property} (small : blob.bytes.size < 2^32) (lettered : Lettered blob texts)
    (fits : PropertyFits Readable texts p) (holds : Holds blob here (propertyPart texts here p).bytes) :
    blob.readProperty (propertyPart texts here p).place = .ok p.kept ∧ (propertyPart texts here p).place < nowhere := by
  unfold propertyPart at holds ⊢
  dsimp only at holds ⊢
  simp only [List.append_assoc] at holds
  obtain ⟨getterRead,getterBelow⟩ := accessorPart_read small lettered fits.getter holds.left
  obtain ⟨setterRead,setterBelow⟩ := accessorPart_read small lettered fits.setter holds.right.left
  have before := holds.right.right.left
  have name := holds.right.right.right
  have flags := name.next
  have getter := flags.next
  have setter := getter.next
  have inline := setter.next
  have some := typeParts_nonempty
    (here+(accessorPart texts here p.getter).bytes.length+
      (accessorPart texts (here+(accessorPart texts here p.getter).bytes.length) p.setter).bytes.length) p.type
  have typeRead := inlineType_read small fits.type before inline
  obtain ⟨nameBelow,nameRead⟩ := lettered _ fits.name
  have flagsBelow : p.flags.toNat < 2^32 := Nat.lt_trans p.flags.toNat_lt (by decide)
  refine ⟨?_,name.word_below small⟩
  unfold readProperty
  refine bind_ok.mpr ⟨(),name.require ?_ _,?_⟩
  · simp only [List.length_append,Stands.length_word,propertySize]; omega
  refine bind_ok.mpr ⟨_,name.read nameBelow _,bind_ok.mpr ⟨_,nameRead _,?_⟩⟩
  refine bind_ok.mpr ⟨_,flags.read flagsBelow _,?_⟩
  refine bind_ok.mpr ⟨_,getter.read getterBelow _,bind_ok.mpr ⟨_,setter.read setterBelow _,?_⟩⟩
  refine bind_ok.mpr ⟨_,getterRead,bind_ok.mpr ⟨_,setterRead,bind_ok.mpr ⟨_,typeRead,?_⟩⟩⟩
  rw [UInt8.ofNat_toNat]
  rfl

structure FieldFits (Good : TypeEncoding → Prop) (texts : List String) (f : Field) : Prop where
  name : f.name ∈ texts
  type : Good f.type

theorem fieldPart_read {f : Field} (small : blob.bytes.size < 2^32) (lettered : Lettered blob texts)
    (fits : FieldFits Readable texts f) (holds : Holds blob here (fieldPart texts here f).bytes) :
    blob.readField (fieldPart texts here f).place = .ok f.kept ∧ (fieldPart texts here f).place < nowhere := by
  unfold fieldPart at holds ⊢
  dsimp only at holds ⊢
  simp only [List.append_assoc] at holds
  have name := holds.right
  have inline := name.next
  have some := typeParts_nonempty here f.type
  have typeRead := inlineType_read small fits.type holds.left inline
  obtain ⟨nameBelow,nameRead⟩ := lettered _ fits.name
  refine ⟨?_,name.word_below small⟩
  unfold readField
  refine bind_ok.mpr ⟨(),name.require ?_ _,?_⟩
  · simp only [List.length_append,Stands.length_word,fieldSize]; omega
  refine bind_ok.mpr ⟨_,name.read nameBelow _,bind_ok.mpr ⟨_,nameRead _,?_⟩⟩
  exact bind_ok.mpr ⟨_,typeRead,rfl⟩

theorem length_words (places : List Nat) : (places.flatMap word).length = 4*places.length := by
  induction places with
  | nil => rfl
  | cons first rest ih =>
    rw [List.flatMap_cons,List.length_append,Stands.length_word,ih,List.length_cons]
    omega

theorem places_read {bytes : Array UInt8} {places : List Nat} (stands : Stands bytes place (places.flatMap word))
    (fit : ∀ p ∈ places, p < 2^32) : readPlaces bytes places.length place = .ok places := by
  induction places generalizing place with
  | nil => rfl
  | cons first rest ih =>
    rw [List.flatMap_cons] at stands
    have others := stands.right
    rw [Stands.length_word] at others
    refine bind_ok.mpr ⟨first,stands.left.word (fit first List.mem_cons_self) _,?_⟩
    exact bind_ok.mpr ⟨rest,ih others fun p member => fit p (List.mem_cons_of_mem _ member),rfl⟩

theorem listPart_read {places : List Nat} (small : blob.bytes.size < 2^32) (fit : ∀ p ∈ places, p < 2^32)
    (holds : Holds blob here (listPart here places).bytes) :
    blob.readList here = .ok places ∧ here < nowhere := by
  unfold listPart at holds
  dsimp only at holds
  have below := holds.word_below small
  have size : (word places.length ++ places.flatMap word).length = 4+4*places.length := by
    rw [List.length_append,Stands.length_word,length_words]
  have inside := holds.stands.inside
  refine ⟨?_,below⟩
  unfold readList
  rw [if_neg (Nat.ne_of_lt below)]
  refine bind_ok.mpr ⟨(),holds.require (by omega) _,?_⟩
  refine bind_ok.mpr ⟨_,holds.read (by omega) _,?_⟩
  exact bind_ok.mpr ⟨(),holds.require (Nat.le_of_eq size.symm) _,places_read holds.next.stands fit⟩

theorem references_read {ids : List DescriptorId} (small : blob.bytes.size < 2^32) (refers : Refers ids)
    (holds : Holds blob here (listPart here (ids.map (·.offset))).bytes) :
    blob.readList here = .ok (ids.map (·.offset)) ∧ here < nowhere := by
  refine listPart_read small ?_ holds
  intro p member
  obtain ⟨target,among,rfl⟩ := List.mem_map.mp member
  exact Nat.lt_trans (refers target among) (by decide)

-- Parts that can each be read where they stand can be read one after the other.
theorem rowParts_read {α : Type} {part : Nat → α → Part} {item : Nat → Except LoadError α} (left : α → α) {items : List α}
    (each : ∀ a ∈ items, ∀ here, Holds blob here (part here a).bytes →
      item (part here a).place = .ok (left a) ∧ (part here a).place < nowhere)
    (holds : Holds blob here (rowParts part here items).1) :
    (rowParts part here items).2.mapM item = .ok (items.map left) ∧ ∀ p ∈ (rowParts part here items).2, p < 2^32 := by
  induction items generalizing here with
  | nil => exact ⟨rfl,fun p member => nomatch member⟩
  | cons a rest ih =>
    rw [rowParts] at holds ⊢
    dsimp only at holds ⊢
    obtain ⟨first,below⟩ := each a List.mem_cons_self here holds.left
    obtain ⟨others,fit⟩ := ih (fun b member => each b (List.mem_cons_of_mem _ member)) holds.right
    refine ⟨mapM_ok.mpr (.cons first (mapM_ok.mp others)),?_⟩
    intro p member
    rcases List.mem_cons.mp member with rfl | later
    · exact Nat.lt_trans below (by decide)
    · exact fit p later

theorem rowPart_read {α : Type} {part : Nat → α → Part} {item : Nat → Except LoadError α} (left : α → α) {items : List α}
    (small : blob.bytes.size < 2^32)
    (each : ∀ a ∈ items, ∀ here, Holds blob here (part here a).bytes →
      item (part here a).place = .ok (left a) ∧ (part here a).place < nowhere)
    (holds : Holds blob here (rowPart part here items).bytes) :
    ∃ places, blob.readList (rowPart part here items).place = .ok places ∧ places.mapM item = .ok (items.map left) ∧
      (rowPart part here items).place < nowhere := by
  unfold rowPart at holds ⊢
  dsimp only at holds ⊢
  obtain ⟨read,fit⟩ := rowParts_read left each holds.left
  obtain ⟨list,below⟩ := listPart_read small fit holds.right
  exact ⟨_,list,read,below⟩

structure MembersFit (Good : TypeEncoding → Prop) (texts : List String) (m : Members) : Prop where
  protocols : Refers m.protocols
  methods : ∀ method ∈ m.methods, MethodFits Good texts method
  properties : ∀ property ∈ m.properties, PropertyFits Good texts property

theorem membersParts_read {m : Members} (small : blob.bytes.size < 2^32) (lettered : Lettered blob texts)
    (fits : MembersFit Readable texts m) (holds : Holds blob here (membersParts texts here m).1)
    (record : Holds blob place ((membersParts texts here m).2.flatMap word)) :
    blob.readMembers place = .ok m.kept := by
  unfold membersParts at holds record
  dsimp only at holds record
  simp only [List.append_assoc,List.flatMap_cons,List.flatMap_nil] at holds record
  obtain ⟨protocols,protocolsBelow⟩ := references_read small fits.protocols holds.left
  obtain ⟨_,methods,methodsRead,methodsBelow⟩ := rowPart_read Method.kept small
    (fun a member here holds => methodPart_read small lettered (fits.methods a member) holds) holds.right.left
  obtain ⟨_,properties,propertiesRead,propertiesBelow⟩ := rowPart_read Property.kept small
    (fun a member here holds => propertyPart_read small lettered (fits.properties a member) holds) holds.right.right
  have below : ∀ {p : Nat}, p < nowhere → p < 2^32 := fun small => Nat.lt_trans small (by decide)
  unfold readMembers
  refine bind_ok.mpr ⟨_,record.read (below protocolsBelow) _,bind_ok.mpr ⟨_,protocols,?_⟩⟩
  refine bind_ok.mpr ⟨_,record.next.read (below methodsBelow) _,bind_ok.mpr ⟨_,methods,?_⟩⟩
  refine bind_ok.mpr ⟨_,methodsRead,?_⟩
  refine bind_ok.mpr ⟨_,record.next.next.read (below propertiesBelow) _,bind_ok.mpr ⟨_,properties,?_⟩⟩
  refine bind_ok.mpr ⟨_,propertiesRead,?_⟩
  have same : (m.protocols.map (·.offset)).map DescriptorId.mk = m.protocols := by
    rw [List.map_map]
    exact List.map_id _
  rw [same]
  rfl

def BodyFits (Good : TypeEncoding → Prop) (texts : List String) : Descriptor → Prop
  | .interface _ base members => Refers base.toList ∧ MembersFit Good texts members
  | .protocol _ members => MembersFit Good texts members
  | .struct _ fields => ∀ field ∈ fields, FieldFits Good texts field
  | .function _ signature => SignatureFits Good signature

structure DescriptorFits (Good : TypeEncoding → Prop) (texts : List String) (d : Descriptor) : Prop where
  name : d.name ∈ texts
  body : BodyFits Good texts d

section Whole

variable {Good : TypeEncoding → Prop} (whole : ∀ ty, Good ty → ty.kept = ty)
include whole

theorem SignatureFits.kept {sig : CallSignature} (fits : SignatureFits Good sig) : sig.kept = sig := by
  have params : sig.params.map (·.kept) = sig.params :=
    List.map_congr_left (fun ty member => whole ty (fits.params ty member)) |>.trans (List.map_id' _)
  rw [Signature.kept,whole _ fits.result,params]

theorem MethodFits.kept {m : Method} (fits : MethodFits Good texts m) : m.kept = m := by
  rw [Method.kept,fits.signature.kept whole]

theorem accessor_kept {m : Option Method} (fits : ∀ method ∈ m, MethodFits Good texts method) : m.map (·.kept) = m := by
  cases m with
  | none => rfl
  | some m => exact congrArg some ((fits m rfl).kept whole)

theorem PropertyFits.kept {p : Property} (fits : PropertyFits Good texts p) : p.kept = p := by
  rw [Property.kept,accessor_kept whole fits.getter,accessor_kept whole fits.setter,whole _ fits.type]

theorem MembersFit.kept {m : Members} (fits : MembersFit Good texts m) : m.kept = m := by
  have methods : m.methods.map (·.kept) = m.methods :=
    List.map_congr_left (fun method member => (fits.methods method member).kept whole) |>.trans (List.map_id' _)
  have properties : m.properties.map (·.kept) = m.properties :=
    List.map_congr_left (fun p member => (fits.properties p member).kept whole) |>.trans (List.map_id' _)
  rw [Members.kept,methods,properties]

-- Where nothing is left out of the types, nothing is left out of the descriptor.
theorem DescriptorFits.kept {d : Descriptor} (fits : DescriptorFits Good texts d) : d.kept = d := by
  have body := fits.body
  cases d with
  | interface name base members => rw [Descriptor.kept,body.2.kept whole]
  | protocol name members => rw [Descriptor.kept,MembersFit.kept whole body]
  | struct name fields =>
    have same : fields.map (·.kept) = fields := by
      refine List.map_congr_left (fun f member => ?_) |>.trans (List.map_id' _)
      rw [Field.kept,whole _ (body f member).type]
    rw [Descriptor.kept,same]
  | function name signature => rw [Descriptor.kept,SignatureFits.kept whole body]

end Whole

theorem headSize_le (kind : DescriptorKind) : descriptorHeadSize ≤ kind.recordSize := by
  cases kind <;> decide

theorem length_recordBytes (texts : List String) (here : Nat) (d : Descriptor) :
    (recordBytes texts d (descriptorParts texts here d).2).length = d.kind.recordSize := by
  have head : (half 0).length = 2 := rfl
  cases d <;> simp [recordBytes,descriptorParts,membersParts,Stands.length_word,head,Descriptor.kind,
    DescriptorKind.recordSize]

theorem record_read {d : Descriptor} (small : blob.bytes.size < 2^32) (lettered : Lettered blob texts)
    (fits : DescriptorFits Readable texts d) (holds : Holds blob here (descriptorParts texts here d).1)
    (record : Holds blob place (recordBytes texts d (descriptorParts texts here d).2)) :
    blob.readDescriptor place = .ok d.kept := by
  have size := length_recordBytes texts here d
  have whole := record
  unfold recordBytes at record
  simp only [List.append_assoc] at record
  have tag := record.left.stands.byte
  have name : Holds blob (place+4) (word (textPlace texts d.name) ++ _) := record.right
  have body := name.next
  obtain ⟨nameBelow,nameRead⟩ := lettered _ fits.name
  have members := fits.body
  unfold readDescriptor
  refine bind_ok.mpr ⟨(),whole.require ?_ _,bind_ok.mpr ⟨_,readByte_ok.mpr tag,?_⟩⟩
  · rw [size]; exact headSize_le _
  rw [DescriptorKind.ofTag?_tag]
  refine bind_ok.mpr ⟨_,name.read nameBelow _,bind_ok.mpr ⟨_,nameRead _,?_⟩⟩
  refine bind_ok.mpr ⟨(),whole.require (Nat.le_of_eq size.symm) _,?_⟩
  cases d with
  | interface title base m =>
    unfold descriptorParts at holds body
    dsimp only at holds body
    rw [List.flatMap_cons] at body
    have baseFits : (base.map (·.offset)).getD nowhere < 2^32 := by
      cases base with
      | none => exact show nowhere < 2^32 by decide
      | some id => exact Nat.lt_trans (members.1 id (by simp)) (by decide)
    have membersRead := membersParts_read small lettered members.2 holds body.next
    refine bind_ok.mpr ⟨_,body.read baseFits _,bind_ok.mpr ⟨_,membersRead,?_⟩⟩
    cases base with
    | none => rfl
    | some id =>
      have other : id.offset ≠ nowhere := Nat.ne_of_lt (members.1 id (by simp))
      change pure (Descriptor.interface title (if id.offset = nowhere then none else some ⟨id.offset⟩) m.kept) = _
      rw [if_neg other]
      rfl
  | protocol title m =>
    exact bind_ok.mpr ⟨_,membersParts_read small lettered members holds body,rfl⟩
  | struct title fields =>
    unfold descriptorParts at holds body
    dsimp only at holds body
    rw [List.flatMap_cons] at body
    obtain ⟨_,list,fieldsRead,below⟩ := rowPart_read Field.kept small
      (fun a member here holds => fieldPart_read small lettered (members a member) holds) holds
    refine bind_ok.mpr ⟨_,body.read (Nat.lt_trans below (by decide)) _,bind_ok.mpr ⟨_,list,?_⟩⟩
    exact bind_ok.mpr ⟨_,fieldsRead,rfl⟩
  | function title signature =>
    unfold descriptorParts at holds body
    dsimp only at holds body
    rw [List.flatMap_cons] at body
    obtain ⟨read,below⟩ := signaturePart_read small members holds
    refine bind_ok.mpr ⟨_,body.read (Nat.lt_trans below (by decide)) _,?_⟩
    exact bind_ok.mpr ⟨_,read,rfl⟩

-- The descriptors' records follow one another from `start` on.
def Consecutive (start : Nat) : List (DescriptorId × Descriptor) → Prop
  | [] => True
  | (id,d) :: rest => id.offset = start ∧ Consecutive (start+d.kind.recordSize) rest

-- Each record stands at its place, and behind the records stands what it refers to.
theorem descriptorRows_hold {placed : List (DescriptorId × Descriptor)} (consecutive : Consecutive place placed)
    (records : Holds blob place (descriptorRows texts here (placed.map (·.2))).1)
    (behind : Holds blob here (descriptorRows texts here (placed.map (·.2))).2) :
    ∀ p ∈ placed, ∃ there, Holds blob there (descriptorParts texts there p.2).1 ∧
      Holds blob p.1.offset (recordBytes texts p.2 (descriptorParts texts there p.2).2) := by
  induction placed generalizing place here with
  | nil => intro p member; cases member
  | cons first rest ih =>
    obtain ⟨id,d⟩ := first
    obtain ⟨rfl,later⟩ := consecutive
    rw [List.map_cons,descriptorRows] at records behind
    dsimp only at records behind
    intro p member
    rcases List.mem_cons.mp member with rfl | old
    · exact ⟨here,behind.left,records.left⟩
    · have others := records.right
      rw [length_recordBytes] at others
      exact ih later others behind.right p old

theorem descriptorRows_read {placed : List (DescriptorId × Descriptor)} (small : blob.bytes.size < 2^32)
    (lettered : Lettered blob texts) (fits : ∀ p ∈ placed, DescriptorFits Readable texts p.2)
    (consecutive : Consecutive place placed)
    (records : Holds blob place (descriptorRows texts here (placed.map (·.2))).1)
    (behind : Holds blob here (descriptorRows texts here (placed.map (·.2))).2) :
    ∀ p ∈ placed, blob.readDescriptor p.1.offset = .ok p.2.kept := by
  intro p member
  obtain ⟨there,parts,record⟩ := descriptorRows_hold consecutive records behind p member
  exact record_read small lettered (fits p member) parts record

end Blob
end ObjectBridge
