import ObjectBridge.Proofs.Metadata.Outlines
import ObjectBridge.Proofs.Metadata.WideBlocks

namespace ObjectBridge
open Layout Outcome

namespace TypeExpr

variable {ρ : Type}

theorem anyOverfull_iff {types : List (TypeExpr ρ)} : AnyOverfull types ↔ ∃ ty ∈ types, ty.Overfull := by
  induction types with
  | nil => simp [AnyOverfull]
  | cons ty rest ih => simp [AnyOverfull,ih]

theorem not_overfull_block {result : TypeExpr ρ} {params : List (TypeExpr ρ)} :
    ¬(TypeExpr.block result params).Overfull ↔ params.length ≤ 255 ∧ ¬result.Overfull ∧ ¬AnyOverfull params := by
  simp [Overfull]

theorem not_anyOverfull_cons {ty : TypeExpr ρ} {rest : List (TypeExpr ρ)} :
    ¬AnyOverfull (ty :: rest) ↔ ¬ty.Overfull ∧ ¬AnyOverfull rest := by
  simp [AnyOverfull]

mutual

-- What a byte can count is not cut.
theorem kept_of_counted {ty : TypeExpr ρ} (counted : ¬ty.Overfull) : ty.kept = ty := by
  cases ty with
  | scalar | object | struct => rfl
  | block result params =>
    obtain ⟨few,first,others⟩ := not_overfull_block.mp counted
    have all : params.length%256 = params.length := Nat.mod_eq_of_lt (by omega)
    rw [kept,kept_of_counted first,keptAll_of_counted others,all,List.take_length]

theorem keptAll_of_counted {types : List (TypeExpr ρ)} (counted : ¬AnyOverfull types) : keptAll types = types := by
  cases types with
  | nil => rfl
  | cons ty rest =>
    obtain ⟨first,others⟩ := not_anyOverfull_cons.mp counted
    rw [keptAll,kept_of_counted first,keptAll_of_counted others]

end
end TypeExpr

mutual

theorem Spells.counted {stands : Meaning} {t : TypeRef} {ty : TypeEncoding} (spells : Spells stands t ty)
    (counted : ¬t.Overfull) : ¬ty.Overfull := by
  cases spells with
  | scalar | anyObject | object | struct => exact id
  | block first others =>
    obtain ⟨few,result,params⟩ := TypeExpr.not_overfull_block.mp counted
    exact TypeExpr.not_overfull_block.mpr ⟨others.length_eq ▸ few,first.counted result,others.counted params⟩

theorem SpellsAll.counted {stands : Meaning} {ts : List TypeRef} {types : List TypeEncoding}
    (spells : SpellsAll stands ts types) (counted : ¬TypeExpr.AnyOverfull ts) : ¬TypeExpr.AnyOverfull types := by
  cases spells with
  | nil => exact id
  | cons first others =>
    obtain ⟨one,rest⟩ := TypeExpr.not_anyOverfull_cons.mp counted
    exact TypeExpr.not_anyOverfull_cons.mpr ⟨first.counted one,others.counted rest⟩

end

namespace Blob

variable {bytes : Array UInt8} {blob : Blob} {texts : List String} {place here target : Nat} {row : List UInt8}

theorem block_read {room : Nat} {found : TypeEncoding × Nat} (tag : bytes[place]? = some blockTag)
    (pointer : readWord bytes "block signature" (place+1) = .ok target) (read : readType bytes room place = .ok found) :
    ∃ r sig, room = r+1 ∧ readSignatureWith bytes (readType bytes r) target = .ok sig := by
  have other : scalarOfTag? blockTag = none := rfl
  have object : blockTag ≠ objectTag := by decide
  have struct : blockTag ≠ structTag := by decide
  unfold readType at read
  rw [readByte_ok.mpr tag] at read
  simp only [bind,Except.bind,other,if_neg object,if_neg struct,if_pos,pointer] at read
  cases room with
  | zero => cases read
  | succ r =>
    dsimp only at read
    cases decoded : readSignatureWith bytes (readType bytes r) target with
    | error e => rw [decoded] at read; cases read
    | ok sig => exact ⟨r,sig,rfl,decoded⟩

theorem signature_row {read : Nat → Except LoadError (TypeEncoding × Nat)} {sig : CallSignature} {count : Nat}
    (counted : bytes[place]? = some (UInt8.ofNat count)) (decoded : readSignatureWith bytes read place = .ok sig) :
    ∃ result next row, read (place+1) = .ok (result,next) ∧ readRow read (count%256) next = .ok row := by
  have back : (UInt8.ofNat count).toNat = count%256 := UInt8.toNat_ofNat'
  obtain ⟨byte,there,decoded⟩ := bind_ok.mp decoded
  obtain rfl := Option.some.inj (counted.symm.trans (readByte_ok.mp there))
  obtain ⟨⟨result,next⟩,first,rest⟩ := bind_ok.mp decoded
  obtain ⟨row,others,_⟩ := bind_ok.mp rest
  rw [back] at others
  exact ⟨result,next,row,first,others⟩

theorem row_cons {read : Nat → Except LoadError (TypeEncoding × Nat)} {count : Nat} {found : List TypeEncoding × Nat}
    (listed : readRow read (count+1) place = .ok found) :
    ∃ first next row, read place = .ok (first,next) ∧ readRow read count next = .ok row := by
  rw [readRow] at listed
  obtain ⟨⟨first,next⟩,one,rest⟩ := bind_ok.mp listed
  obtain ⟨row,others,_⟩ := bind_ok.mp rest
  exact ⟨first,next,row,one,others⟩

mutual

-- Where reading a type ended is known once it is known to nest, so the types of a row follow one by one.
theorem typeParts_nests (small : bytes.size < 2^32) (ty : TypeEncoding) (room here place : Nat)
    (counted : ¬ty.Overfull) (refers : Refers ty.references) (before : Stands bytes here (typeParts here ty).1)
    (inline : Stands bytes place (typeParts here ty).2) (read : ∃ found, readType bytes room place = .ok found) :
    ty.Nests room := by
  cases ty with
  | scalar | object | struct => trivial
  | block result params =>
    obtain ⟨few,resultCounted,paramsCounted⟩ := TypeExpr.not_overfull_block.mp counted
    obtain ⟨resultRefers,paramsRefer⟩ := Refers.append refers
    obtain ⟨found,read⟩ := read
    rw [typeParts] at before inline
    dsimp only at before inline
    have body := before.right
    have fronts := before.left
    have types := body.tail
    have here' := body.inside
    rw [List.length_cons] at here'
    obtain ⟨r,sig,rfl,decoded⟩ := block_read inline.byte (inline.tail.word (by omega) _) read
    obtain ⟨_,next,row,first,others⟩ := signature_row body.byte decoded
    have nests := typeParts_nests small result r here _ resultCounted resultRefers fronts.left types.left ⟨_,first⟩
    have same := typeParts_read small result r here _ nests resultRefers fronts.left types.left
    cases first.symm.trans same
    rw [Nat.mod_eq_of_lt (Nat.lt_succ_of_le few)] at others
    exact ⟨nests,typesParts_nest small params r _ _ paramsCounted paramsRefer fronts.right types.right ⟨row,others⟩⟩

theorem typesParts_nest (small : bytes.size < 2^32) (types : List TypeEncoding) (room here place : Nat)
    (counted : ¬TypeExpr.AnyOverfull types) (refers : Refers (TypeExpr.referencesAll types))
    (before : Stands bytes here (typesParts here types).1) (inline : Stands bytes place (typesParts here types).2)
    (read : ∃ found, readRow (readType bytes room) types.length place = .ok found) : TypeExpr.NestsAll room types := by
  cases types with
  | nil => trivial
  | cons ty rest =>
    obtain ⟨tyCounted,restCounted⟩ := TypeExpr.not_anyOverfull_cons.mp counted
    obtain ⟨tyRefers,restRefer⟩ := Refers.append refers
    obtain ⟨found,read⟩ := read
    rw [typesParts] at before inline
    dsimp only at before inline
    obtain ⟨_,next,row,first,others⟩ := row_cons read
    have nests := typeParts_nests small ty room here place tyCounted tyRefers before.left inline.left ⟨_,first⟩
    have same := typeParts_read small ty room here place nests tyRefers before.left inline.left
    cases first.symm.trans same
    exact ⟨nests,typesParts_nest small rest room _ _ restCounted restRefer before.right inline.right ⟨row,others⟩⟩

end

-- A byte can count the parameters of the type's blocks, and four bytes hold the places it refers to.
def Counted (ty : TypeEncoding) : Prop := ¬ty.Overfull ∧ Refers ty.references

variable (small : blob.bytes.size < 2^32)
include small

theorem type_readable {ty : TypeEncoding} (counted : Counted ty) (before : Holds blob here (typeParts here ty).1)
    (inline : Holds blob place (typeParts here ty).2) (reads : blob.ReadsType place) : Readable ty := by
  obtain ⟨stop,read⟩ := reads
  exact ⟨typeParts_nests small ty _ here place counted.1 counted.2 before.stands inline.stands ⟨_,read⟩,counted.2⟩

theorem signature_below {sig : CallSignature} (holds : Holds blob here (signaturePart here sig).bytes) :
    (signaturePart here sig).place < nowhere := by
  unfold signaturePart at holds ⊢
  exact holds.right.below small (by simp)

theorem signature_readable {sig : CallSignature} (fits : SignatureFits Counted sig)
    (holds : Holds blob here (signaturePart here sig).bytes) (reads : blob.ReadsSignature (signaturePart here sig).place) :
    SignatureFits Readable sig := by
  have each : ∀ ty ∈ sig.result :: sig.params, Counted ty := List.forall_mem_cons.mpr ⟨fits.result,fits.params⟩
  have counted : ¬TypeExpr.AnyOverfull (sig.result :: sig.params) := by
    rw [TypeExpr.anyOverfull_iff]
    rintro ⟨ty,member,full⟩
    exact (each ty member).1 full
  have refers : Refers (TypeExpr.referencesAll (sig.result :: sig.params)) := by
    intro target member
    obtain ⟨ty,among,refer⟩ := TypeExpr.mem_referencesAll.mp member
    exact (each ty among).2 target refer
  unfold signaturePart at holds reads
  dsimp only at holds reads
  have body := holds.right.stands
  obtain ⟨_,next,row,first,others⟩ := signature_row body.byte reads
  rw [Nat.mod_eq_of_lt (Nat.lt_succ_of_le fits.few)] at others
  have nest := typesParts_nest small (sig.result :: sig.params) nestingLimit here _ counted refers holds.left.stands
    body.tail ⟨_,readRow_cons first others⟩
  have nests := TypeExpr.nestsAll_iff.mp nest
  exact ⟨fits.few,⟨nests _ List.mem_cons_self,fits.result.2⟩,
    fun ty member => ⟨nests ty (List.mem_cons_of_mem _ member),(fits.params ty member).2⟩⟩

theorem method_below {m : Method} (holds : Holds blob here (methodPart texts here m).bytes) :
    (methodPart texts here m).place < nowhere := by
  unfold methodPart at holds ⊢
  simp only [List.append_assoc] at holds
  exact holds.right.word_below small

theorem method_readable {m : Method} (fits : MethodFits Counted texts m)
    (holds : Holds blob here (methodPart texts here m).bytes) (reads : blob.ReadsMethod (methodPart texts here m).place) :
    MethodFits Readable texts m := by
  refine ⟨fits.name,fits.selector,?_⟩
  have signature := reads.signature
  unfold methodPart at holds signature
  dsimp only at holds signature
  simp only [List.append_assoc] at holds
  have below := signature_below small holds.left
  have pointer := holds.right.next.next.next
  have pointed : blob.wordAt (here+(signaturePart here m.signature).bytes.length+12) =
      (signaturePart here m.signature).place :=
    (word_reads (pointer.stands.number (Nat.lt_trans below (by decide)))).2
  rw [pointed] at signature
  exact signature_readable small fits.signature holds.left signature

theorem accessor_readable {m : Option Method} (fits : ∀ method ∈ m, MethodFits Counted texts method)
    (holds : Holds blob here (accessorPart texts here m).bytes)
    (pointed : blob.wordAt place = (accessorPart texts here m).place) (reads : blob.ReadsAccessor place) :
    ∀ method ∈ m, MethodFits Readable texts method := by
  cases m with
  | none => exact fun method member => nomatch member
  | some m =>
    have below : (accessorPart texts here (some m)).place < nowhere := method_below small holds
    have read := reads.2 (by rw [pointed]; exact Nat.ne_of_lt below)
    rw [pointed] at read
    rintro _ ⟨⟩
    exact method_readable small (fits m rfl) holds read

theorem accessor_below {m : Option Method} (holds : Holds blob here (accessorPart texts here m).bytes) :
    (accessorPart texts here m).place < 2^32 := by
  cases m with
  | none => exact show nowhere < 2^32 by decide
  | some m => exact Nat.lt_trans (method_below small holds) (by decide)

theorem property_readable {p : Property} (fits : PropertyFits Counted texts p)
    (holds : Holds blob here (propertyPart texts here p).bytes)
    (reads : blob.ReadsProperty (propertyPart texts here p).place) : PropertyFits Readable texts p := by
  have getter := reads.getter
  have setter := reads.setter
  have type := reads.type
  unfold propertyPart at holds getter setter type
  dsimp only at holds getter setter type
  simp only [List.append_assoc] at holds
  have name := holds.right.right.right
  have getterWord := name.next.next
  have setterWord := getterWord.next
  have getterAt := getterWord.wordAt (accessor_below small holds.left)
  have setterAt := setterWord.wordAt (accessor_below small holds.right.left)
  exact ⟨fits.name,accessor_readable small fits.getter holds.left getterAt getter,
    accessor_readable small fits.setter holds.right.left setterAt setter,
    type_readable small fits.type holds.right.right.left setterWord.next type⟩

theorem property_below {p : Property} (holds : Holds blob here (propertyPart texts here p).bytes) :
    (propertyPart texts here p).place < nowhere := by
  unfold propertyPart at holds ⊢
  simp only [List.append_assoc] at holds
  exact holds.right.right.right.word_below small

theorem field_readable {f : Field} (fits : FieldFits Counted texts f)
    (holds : Holds blob here (fieldPart texts here f).bytes) (reads : blob.ReadsField (fieldPart texts here f).place) :
    FieldFits Readable texts f := by
  have type := reads.type
  unfold fieldPart at holds type
  dsimp only at holds type
  simp only [List.append_assoc] at holds
  exact ⟨fits.name,type_readable small fits.type holds.left holds.right.next type⟩

theorem field_below {f : Field} (holds : Holds blob here (fieldPart texts here f).bytes) :
    (fieldPart texts here f).place < nowhere := by
  unfold fieldPart at holds ⊢
  simp only [List.append_assoc] at holds
  exact holds.right.word_below small

omit small in
-- The parts stand one behind the other, each with its own place.
theorem rowParts_hold {α : Type} {part : Nat → α → Part} {items : List α}
    (holds : Holds blob here (rowParts part here items).1) : List.Forall₂ (fun a p => ∃ there, Holds blob there (part there a).bytes ∧ p = (part there a).place) items
      (rowParts part here items).2 := by
  induction items generalizing here with
  | nil => exact .nil
  | cons a rest ih =>
    rw [rowParts] at holds ⊢
    dsimp only at holds ⊢
    exact .cons ⟨here,holds.left,rfl⟩ (ih holds.right)

-- The list behind the parts leads to each of them.
theorem row_listed {α : Type} {part : Nat → α → Part} {items : List α}
    (below : ∀ a there, Holds blob there (part there a).bytes → (part there a).place < nowhere)
    (holds : Holds blob here (rowPart part here items).bytes)
    (pointed : Holds blob place (word (rowPart part here items).place ++ row)) :
    List.Forall₂ (fun a p => ∃ there, Holds blob there (part there a).bytes ∧ p = (part there a).place) items
      (blob.listAt (blob.wordAt place)) := by
  unfold rowPart at holds pointed
  dsimp only at holds pointed
  have parts := rowParts_hold holds.left
  have fit : ∀ p ∈ (rowParts part here items).2, p < 2^32 := by
    intro p member
    obtain ⟨a,_,there,stands,rfl⟩ := related_left parts member
    exact Nat.lt_trans (below a there stands) (by decide)
  obtain ⟨list,listBelow⟩ := listPart_read small fit holds.right
  have entries := (list_reads list).2
  have there := pointed.wordAt (Nat.lt_trans listBelow (by decide))
  rw [there]
  exact entries ▸ parts

-- What is read at each entry of a list was read at the place of each of the parts.
theorem row_items {α : Type} {part : Nat → α → Part} {items : List α} {sound : Nat → Prop}
    (below : ∀ a there, Holds blob there (part there a).bytes → (part there a).place < nowhere)
    (holds : Holds blob here (rowPart part here items).bytes)
    (pointed : Holds blob place (word (rowPart part here items).place ++ row)) (reads : blob.ReadsItems sound place) :
    ∀ a ∈ items, ∃ there, Holds blob there (part there a).bytes ∧ sound (part there a).place := by
  intro a member
  obtain ⟨_,listed,there,stands,rfl⟩ := related_right (row_listed small below holds pointed) member
  exact ⟨there,stands,reads.items _ listed⟩

theorem members_readable {m : Members} (fits : MembersFit Counted texts m)
    (holds : Holds blob here (membersParts texts here m).1) (record : Holds blob place ((membersParts texts here m).2.flatMap word)) (reads : blob.ReadsMembers place) :
    MembersFit Readable texts m := by
  unfold membersParts at holds record
  dsimp only at holds record
  simp only [List.append_assoc,List.flatMap_cons] at holds record
  have methods := row_items small (fun _ _ => method_below small) holds.right.left record.next reads.methods
  have properties := row_items small (fun _ _ => property_below small) holds.right.right record.next.next reads.properties
  refine ⟨fits.protocols,fun method member => ?_,fun property member => ?_⟩
  · obtain ⟨there,stands,read⟩ := methods method member
    exact method_readable small (fits.methods method member) stands read
  · obtain ⟨there,stands,read⟩ := properties property member
    exact property_readable small (fits.properties property member) stands read

theorem record_readable {d : Descriptor} (fits : DescriptorFits Counted texts d)
    (holds : Holds blob here (descriptorParts texts here d).1)
    (record : Holds blob place (recordBytes texts d (descriptorParts texts here d).2))
    (reads : blob.ReadsDescriptor place) : DescriptorFits Readable texts d := by
  unfold recordBytes at record
  simp only [List.append_assoc] at record
  have tag := (byte_reads record.left.stands.byte).2
  have name : Holds blob (place+4) (word (textPlace texts d.name) ++ _) := record.right
  have body := name.next
  obtain ⟨kind,known,reads⟩ := reads.body
  rw [tag,DescriptorKind.ofTag?_tag] at known
  obtain rfl := Option.some.inj known
  have members := fits.body
  refine ⟨fits.name,?_⟩
  cases d with
  | interface title base m =>
    unfold descriptorParts at holds body
    dsimp only at holds body
    rw [List.flatMap_cons] at body
    exact ⟨members.1,members_readable small members.2 holds body.next reads.2⟩
  | protocol title m => exact members_readable small members holds body reads
  | struct title fields =>
    unfold descriptorParts at holds body
    dsimp only at holds body
    rw [List.flatMap_cons] at body
    intro field member
    obtain ⟨there,stands,read⟩ := row_items small (fun _ _ => field_below small) holds body reads field member
    exact field_readable small (members field member) stands read
  | function title signature =>
    unfold descriptorParts at holds body
    dsimp only at holds body
    rw [List.flatMap_cons] at body
    have pointed := body.wordAt (Nat.lt_trans (signature_below small holds) (by decide))
    have read := reads.2
    rw [pointed] at read
    exact signature_readable small members holds read

end Blob

theorem Spelled.counted {text : String} {ty : TypeEncoding} {stands : Meaning}
    (bounded : ∀ name id kind, stands name id kind → id.offset < nowhere) (spelled : Spelled stands text ty)
    (counts : ∀ t, TypeRef.parse text = .ok t → ¬t.Overfull) : Blob.Counted ty := by
  have refers := spelled.references bounded
  obtain ⟨t,parsed,spells⟩ := spelled
  exact ⟨spells.counted (counts t parsed),refers⟩

-- No block of a type text has more parameters than a byte can count.
def Universe.CountsParameters (u : Universe) : Prop :=
  ∀ text ∈ u.typeTexts, ∀ t, TypeRef.parse text = .ok t → ¬t.Overfull

namespace Metadata
open Blob

variable {m : Metadata} {u : Universe} {placed : List (DescriptorId × Descriptor)} {file : Array UInt8}

theorem known_reads {place : Nat} (loaded : Metadata.ofBytes file = .ok m) (known : m.known.contains place = true) :
    m.blob.ReadsDescriptor place := by
  obtain ⟨d,read,_⟩ := known_explored loaded place known
  exact (descriptor_reads read).1

section Reloaded

variable (reloads : m.Reloads u placed file) (loaded : Metadata.ofBytes file = .ok m) (counts : u.CountsParameters)
include reloads loaded counts

-- The reader went through all of the file and refused nothing, so that nothing in it nests too deeply.
theorem reloaded_readable : ∀ p ∈ placed, DescriptorFits Readable u.texts p.2 := by
  have short := reloads.parts.short reloads.small
  have consecutive := resolved_consecutive reloads.resolved
  have void : Counted .void := ⟨id,fun target member => nomatch member⟩
  have fits := resolved_fits Counted reloads.resolved short void fun text member ty spelled =>
    Spelled.counted (among_bounded consecutive short) spelled (counts text member)
  intro p member
  obtain ⟨there,behind,record⟩ := opened_records reloads.resolved reloads.parts p member
  have known : m.known.contains p.1.offset = true := by
    rw [← descriptor_known,reloads.described p member]
    rfl
  have reads := known_reads loaded known
  rw [reloads.itself] at reads
  exact record_readable reloads.small (fits p member) behind record reads

-- So every descriptor is found as it was compiled.
theorem reloaded_whole : ∀ p ∈ placed, m.entry p = p := by
  have resolved := reloads.resolved
  have consecutive := resolved_consecutive resolved
  have read := descriptorRows_read reloads.small (resolved_lettered resolved reloads.parts reloads.small)
    (reloaded_readable reloads loaded counts) consecutive (records_hold reloads.parts) (behind_holds reloads.parts)
  have whole := resolved_fits (fun ty => ty.kept = ty) resolved (reloads.parts.short reloads.small) rfl
    fun text member ty ⟨t,parsed,spells⟩ => TypeExpr.kept_of_counted (spells.counted (counts text member t parsed))
  intro p member
  have found := (descriptor_reads (read p member)).2
  rw [(whole p member).kept fun _ same => same,← reloads.itself] at found
  exact Prod.ext rfl found

theorem reloaded_resolves : ∀ p ∈ placed, m.resolve? p.2.name = some p := by
  intro p member
  have whole := reloaded_whole reloads loaded counts p member
  have there : m.entry p ∈ (Blob.sorted placed).map m.entry :=
    List.mem_map_of_mem ((Blob.sorted_perm placed).mem_iff.mpr member)
  have resolves := reloads.lists.resolves there
  rwa [whole] at resolves

end Reloaded
end Metadata
end ObjectBridge
