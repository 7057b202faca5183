import ObjectBridge.Proofs.Metadata.Segments

namespace ObjectBridge

namespace TypeExpr

-- Blocks stand at most so many levels deep in one another, and none has more parameters than a byte
-- can count.
mutual

def Fits (levels : Nat) : TypeExpr ρ → Prop
  | .scalar _ | .object _ | .struct _ => True
  | .block result params =>
    match levels with
    | 0 => False
    | levels+1 => params.length ≤ 255 ∧ result.Fits levels ∧ FitsAll levels params

def FitsAll (levels : Nat) : List (TypeExpr ρ) → Prop
  | [] => True
  | ty :: rest => ty.Fits levels ∧ FitsAll levels rest

end

mutual

-- Blocks stand at most so many levels deep in one another, whatever the number of their parameters.
def Nests (levels : Nat) : TypeExpr ρ → Prop
  | .scalar _ | .object _ | .struct _ => True
  | .block result params =>
    match levels with
    | 0 => False
    | levels+1 => result.Nests levels ∧ NestsAll levels params

def NestsAll (levels : Nat) : List (TypeExpr ρ) → Prop
  | [] => True
  | ty :: rest => ty.Nests levels ∧ NestsAll levels rest

end

theorem nestsAll_iff {levels : Nat} {types : List (TypeExpr ρ)} :
    NestsAll levels types ↔ ∀ ty ∈ types, ty.Nests levels := by
  induction types with
  | nil => simp [NestsAll]
  | cons ty rest ih => simp [NestsAll,ih]

mutual

-- What is left of a type once the parameters of each of its blocks were counted in one byte.
def kept : TypeExpr ρ → TypeExpr ρ
  | .scalar s => .scalar s
  | .object target => .object target
  | .struct target => .struct target
  | .block result params => .block result.kept ((keptAll params).take (params.length%256))

def keptAll : List (TypeExpr ρ) → List (TypeExpr ρ)
  | [] => []
  | ty :: rest => ty.kept :: keptAll rest

end

theorem keptAll_eq (types : List (TypeExpr ρ)) : keptAll types = types.map kept := by
  induction types with
  | nil => rfl
  | cons ty rest ih => rw [keptAll,ih,List.map_cons]

mutual

theorem Fits.nests {levels : Nat} {ty : TypeExpr ρ} (fits : ty.Fits levels) : ty.Nests levels := by
  cases ty with
  | scalar | object | struct => trivial
  | block result params =>
    cases levels with
    | zero => exact fits.elim
    | succ levels => exact ⟨Fits.nests fits.2.1,FitsAll.nests fits.2.2⟩

theorem FitsAll.nests {levels : Nat} {types : List (TypeExpr ρ)} (fits : FitsAll levels types) : NestsAll levels types := by
  cases types with
  | nil => trivial
  | cons ty rest => exact ⟨Fits.nests fits.1,FitsAll.nests fits.2⟩

end

mutual

theorem Fits.kept {levels : Nat} {ty : TypeExpr ρ} (fits : ty.Fits levels) : ty.kept = ty := by
  cases ty with
  | scalar | object | struct => rfl
  | block result params =>
    cases levels with
    | zero => exact fits.elim
    | succ levels =>
      obtain ⟨few,resultFits,paramsFit⟩ := fits
      have all : params.length%256 = params.length := Nat.mod_eq_of_lt (by omega)
      rw [TypeExpr.kept,Fits.kept resultFits,FitsAll.kept paramsFit,all,List.take_length]

theorem FitsAll.kept {levels : Nat} {types : List (TypeExpr ρ)} (fits : FitsAll levels types) :
    keptAll types = types := by
  cases types with
  | nil => rfl
  | cons ty rest => rw [keptAll,Fits.kept fits.1,FitsAll.kept fits.2]

end

theorem mem_referencesAll {types : List (TypeExpr ρ)} {r : ρ} :
    r ∈ referencesAll types ↔ ∃ ty ∈ types, r ∈ ty.references := by
  induction types with
  | nil => simp [referencesAll]
  | cons ty rest ih => simp [referencesAll,ih]

mutual

theorem kept_references {ty : TypeExpr ρ} {r : ρ} (member : r ∈ ty.kept.references) : r ∈ ty.references := by
  cases ty with
  | scalar | object | struct => exact member
  | block result params =>
    rcases List.mem_append.mp member with first | others
    · exact List.mem_append_left _ (kept_references first)
    · obtain ⟨ty,among,refers⟩ := mem_referencesAll.mp others
      exact List.mem_append_right _ (keptAll_references (mem_referencesAll.mpr ⟨ty,List.mem_of_mem_take among,refers⟩))

theorem keptAll_references {types : List (TypeExpr ρ)} {r : ρ} (member : r ∈ referencesAll (keptAll types)) :
    r ∈ referencesAll types := by
  cases types with
  | nil => cases member
  | cons ty rest =>
    rcases List.mem_append.mp member with first | others
    · exact List.mem_append_left _ (kept_references first)
    · exact List.mem_append_right _ (keptAll_references others)

end

end TypeExpr

def Signature.kept (sig : Signature ρ) : Signature ρ := ⟨sig.result.kept,sig.params.map (·.kept)⟩

theorem Signature.kept_references {sig : Signature ρ} {r : ρ} (member : r ∈ sig.kept.references) : r ∈ sig.references := by
  rcases List.mem_append.mp member with first | others
  · exact List.mem_append_left _ (TypeExpr.kept_references first)
  · rw [Signature.kept,← TypeExpr.keptAll_eq] at others
    exact List.mem_append_right _ (TypeExpr.keptAll_references others)

namespace Blob
open Layout Outcome

variable {bytes : Array UInt8} {place r target : Nat}

theorem readType_scalar {s : Scalar} (tag : bytes[place]? = some (scalarTag s)) :
    readType bytes r place = .ok (.scalar s,place+1) := by
  unfold readType
  rw [readByte_ok.mpr tag]
  simp only [bind,Except.bind,scalarOfTag?_scalarTag]
  rfl

theorem readType_object (tag : bytes[place]? = some objectTag)
    (read : readWord bytes "object type" (place+1) = .ok target) : readType bytes r place =
      .ok (.object (if target = nowhere then none else some ⟨target⟩),place+5) := by
  have other : scalarOfTag? objectTag = none := rfl
  unfold readType
  rw [readByte_ok.mpr tag]
  simp only [bind,Except.bind,other,if_pos,read]
  rfl

theorem readType_struct (tag : bytes[place]? = some structTag)
    (read : readWord bytes "struct type" (place+1) = .ok target) :
    readType bytes r place = .ok (.struct ⟨target⟩,place+5) := by
  have other : scalarOfTag? structTag = none := rfl
  have object : structTag ≠ objectTag := by decide
  unfold readType
  rw [readByte_ok.mpr tag]
  simp only [bind,Except.bind,other,if_neg object,if_pos,read]
  rfl

theorem readType_block {sig : CallSignature} (tag : bytes[place]? = some blockTag)
    (read : readWord bytes "block signature" (place+1) = .ok target)
    (decoded : readSignatureWith bytes (readType bytes r) target = .ok sig) :
    readType bytes (r+1) place = .ok (.block sig.result sig.params,place+5) := by
  have other : scalarOfTag? blockTag = none := rfl
  have object : blockTag ≠ objectTag := by decide
  have struct : blockTag ≠ structTag := by decide
  unfold readType
  rw [readByte_ok.mpr tag]
  simp only [bind,Except.bind,other,if_neg object,if_neg struct,if_pos,read,decoded]
  rfl

theorem readSignatureWith_row {read : Nat → Except LoadError (TypeEncoding × Nat)} {sig : CallSignature}
    {count next stop : Nat} (counted : bytes[place]? = some (UInt8.ofNat count))
    (result : read (place+1) = .ok (sig.result,next))
    (params : readRow read (count%256) next = .ok (sig.params,stop)) : readSignatureWith bytes read place = .ok sig := by
  have back : (UInt8.ofNat count).toNat = count%256 := UInt8.toNat_ofNat'
  unfold readSignatureWith
  rw [readByte_ok.mpr counted]
  simp only [bind,Except.bind,result,back,params]
  rfl

theorem readRow_cons {read : Nat → Except LoadError (TypeEncoding × Nat)} {ty : TypeEncoding}
    {types : List TypeEncoding} {count next stop : Nat} (first : read place = .ok (ty,next))
    (others : readRow read count next = .ok (types,stop)) :
    readRow read (count+1) place = .ok (ty :: types,stop) := by
  rw [readRow]
  simp only [bind,Except.bind,first,others]
  rfl

-- What a type refers to has a place that four bytes can hold.
def Refers (references : List DescriptorId) : Prop := ∀ target ∈ references, target.offset < nowhere

theorem Refers.append {first second : List DescriptorId} (refers : Refers (first ++ second)) :
    Refers first ∧ Refers second :=
  ⟨fun target member => refers target (List.mem_append_left _ member),
    fun target member => refers target (List.mem_append_right _ member)⟩

mutual

theorem typeParts_read (small : bytes.size < 2^32) (ty : TypeEncoding) (room here place : Nat)
    (nests : ty.Nests room) (refers : Refers ty.references) (before : Stands bytes here (typeParts here ty).1)
    (inline : Stands bytes place (typeParts here ty).2) :
    readType bytes room place = .ok (ty.kept,place+(typeParts here ty).2.length) := by
  cases ty with
  | scalar s =>
    rw [typeParts] at inline ⊢
    exact readType_scalar inline.byte
  | object target =>
    cases target with
    | none =>
      rw [typeParts] at inline ⊢
      have read := readType_object (r := room) inline.byte (inline.tail.word (by decide) _)
      rwa [if_pos rfl] at read
    | some id =>
      rw [typeParts] at inline ⊢
      have below : id.offset < nowhere := refers id List.mem_cons_self
      have read := readType_object (r := room) inline.byte (inline.tail.word (Nat.lt_trans below (by decide)) _)
      rwa [if_neg (Nat.ne_of_lt below)] at read
  | struct id =>
    rw [typeParts] at inline ⊢
    have below : id.offset < nowhere := refers id List.mem_cons_self
    exact readType_struct inline.byte (inline.tail.word (Nat.lt_trans below (by decide)) _)
  | block result params =>
    cases room with
    | zero => exact nests.elim
    | succ room =>
      obtain ⟨resultNests,paramsNest⟩ := nests
      obtain ⟨resultRefers,paramsRefer⟩ := Refers.append refers
      rw [typeParts] at before inline ⊢
      dsimp only at before inline ⊢
      -- The signature stands behind the block signatures that it needs itself.
      have body := before.right
      have fronts := before.left
      have types := body.tail
      have here' := body.inside
      rw [List.length_cons] at here'
      have resultRead := typeParts_read small result room here _ resultNests resultRefers fronts.left types.left
      obtain ⟨_,paramsRead⟩ := typesParts_read small params room _ _ (params.length%256) (Nat.mod_le _ _)
        paramsNest paramsRefer fronts.right types.right
      have decoded : readSignatureWith bytes (readType bytes room) _ =
          .ok ⟨result.kept,(TypeExpr.keptAll params).take (params.length%256)⟩ :=
        readSignatureWith_row body.byte resultRead paramsRead
      exact readType_block inline.byte (inline.tail.word (by omega) _) decoded

-- However many of the types are asked for, these are read.
theorem typesParts_read (small : bytes.size < 2^32) (types : List TypeEncoding) (room here place count : Nat)
    (enough : count ≤ types.length) (nest : TypeExpr.NestsAll room types) (refers : Refers (TypeExpr.referencesAll types))
    (before : Stands bytes here (typesParts here types).1)
    (inline : Stands bytes place (typesParts here types).2) :
    ∃ stop, readRow (readType bytes room) count place = .ok ((TypeExpr.keptAll types).take count,stop) := by
  cases count with
  | zero => exact ⟨place,rfl⟩
  | succ count =>
    cases types with
    | nil => cases enough
    | cons ty rest =>
      obtain ⟨tyNests,restNest⟩ := nest
      obtain ⟨tyRefers,restRefer⟩ := Refers.append refers
      rw [typesParts] at before inline
      dsimp only at before inline
      have first := typeParts_read small ty room here place tyNests tyRefers before.left inline.left
      obtain ⟨stop,others⟩ := typesParts_read small rest room _ _ count (Nat.le_of_succ_le_succ enough) restNest
        restRefer before.right inline.right
      exact ⟨stop,readRow_cons first others⟩

end

-- The row stands among the descriptors.
structure Holds (blob : Blob) (place : Nat) (row : List UInt8) : Prop where
  stands : Stands blob.bytes place row
  starts : blob.descriptors.start ≤ place
  stops : place+row.length ≤ blob.descriptors.stop

variable {blob : Blob} {here : Nat} {row first second : List UInt8}

theorem Holds.left (holds : Holds blob here (first ++ second)) : Holds blob here first := by
  refine ⟨holds.stands.left,holds.starts,?_⟩
  have stops := holds.stops
  rw [List.length_append] at stops
  omega

theorem Holds.right (holds : Holds blob here (first ++ second)) : Holds blob (here+first.length) second := by
  refine ⟨holds.stands.right,Nat.le_add_right_of_le holds.starts,?_⟩
  have stops := holds.stops
  rw [List.length_append] at stops
  omega

theorem Holds.require {size : Nat} (holds : Holds blob here row) (enough : size ≤ row.length) (part : String) :
    blob.require part here size = .ok () := by
  have stops := holds.stops
  exact if_pos ⟨holds.starts,by omega⟩

-- A place that something stands at can be referred to.
theorem Holds.below (holds : Holds blob here row) (small : blob.bytes.size < 2^32) (some : 0 < row.length) :
    here < nowhere := by
  have inside := holds.stands.inside
  simp only [nowhere]
  omega

-- The types of a signature are of some sort, and a byte can count its parameters.
structure SignatureFits (Good : TypeEncoding → Prop) (sig : CallSignature) : Prop where
  few : sig.params.length ≤ 255
  result : Good sig.result
  params : ∀ ty ∈ sig.params, Good ty

-- The type can be read back.
def Readable (ty : TypeEncoding) : Prop := ty.Nests nestingLimit ∧ Refers ty.references

theorem SignatureFits.all {sig : CallSignature} (fits : SignatureFits Readable sig) :
    TypeExpr.NestsAll nestingLimit sig.params ∧ Refers (TypeExpr.referencesAll sig.params) := by
  refine ⟨TypeExpr.nestsAll_iff.mpr fun ty member => (fits.params ty member).1,fun target member => ?_⟩
  obtain ⟨ty,among,refers⟩ := TypeExpr.mem_referencesAll.mp member
  exact (fits.params ty among).2 target refers

theorem typeParts_nonempty (here : Nat) (ty : TypeEncoding) : 0 < (typeParts here ty).2.length := by
  cases ty with
  | object target => cases target <;> simp [typeParts]
  | _ => simp [typeParts]

theorem inlineType_read {ty : TypeEncoding} (small : blob.bytes.size < 2^32) (fits : Readable ty)
    (before : Holds blob here (typeParts here ty).1) (inline : Holds blob place (typeParts here ty).2) :
    blob.readInlineType place = .ok ty.kept := by
  have read := typeParts_read small ty nestingLimit here place fits.1 fits.2 before.stands inline.stands
  unfold readInlineType
  rw [read]
  rfl

theorem signaturePart_read {sig : CallSignature} (small : blob.bytes.size < 2^32) (fits : SignatureFits Readable sig)
    (holds : Holds blob here (signaturePart here sig).bytes) :
    blob.readSignature (signaturePart here sig).place = .ok sig.kept ∧ (signaturePart here sig).place < nowhere := by
  obtain ⟨paramsNest,paramsRefer⟩ := fits.all
  unfold signaturePart at holds ⊢
  rw [typesParts] at holds ⊢
  dsimp only at holds ⊢
  have fronts := holds.left
  have body := holds.right
  have types := body.stands.tail
  have resultRead := typeParts_read small sig.result nestingLimit here _ fits.result.1 fits.result.2
    fronts.left.stands types.left
  obtain ⟨_,paramsRead⟩ := typesParts_read small sig.params nestingLimit _ _ (sig.params.length%256) (Nat.mod_le _ _)
    paramsNest paramsRefer fronts.right.stands types.right
  have all : sig.params.length%256 = (TypeExpr.keptAll sig.params).length := by
    rw [TypeExpr.keptAll_eq,List.length_map]
    exact Nat.mod_eq_of_lt (Nat.lt_succ_of_le fits.few)
  rw [all,List.take_length,← all,TypeExpr.keptAll_eq] at paramsRead
  have decoded : readSignatureWith blob.bytes (readType blob.bytes nestingLimit) _ = .ok sig.kept :=
    readSignatureWith_row body.stands.byte resultRead paramsRead
  have result := typeParts_nonempty here sig.result
  refine ⟨?_,body.below small (by simp)⟩
  unfold readSignature
  rw [body.require (by simp only [List.length_cons,List.length_append]; omega),decoded]
  rfl

end Blob
end ObjectBridge
