import ObjectBridge.Proofs.Metadata.RoundTrip
import ObjectBridge.Proofs.Metadata.TypeGrammar

namespace ObjectBridge
open Layout Outcome

-- The file has the declarations of the universe, each with what is left of its types.
structure Metadata.Keeps (m : Metadata) (u : Universe) : Prop where
  names : (m.named.map (·.2.name)).Perm (u.declarations.map (·.name))
  presents : ∀ decl ∈ u.declarations, ∃ id d, Presents m.Declares decl d ∧ (id,d.kept) ∈ m.named ∧
    m.resolve? decl.name = some (id,d.kept)

-- So many parameters, each followed by a comma.
def voids : Nat → List Char
  | 0 => []
  | n+1 => 'v' :: 'o' :: 'i' :: 'd' :: ',' :: voids n

-- A block with one more parameter than that.
def wideText (n : Nat) : String :=
  String.ofList ('b' :: 'l' :: 'o' :: 'c' :: 'k' :: '<' :: 'v' :: 'o' :: 'i' :: 'd' :: '(' ::
    (voids n ++ ['v','o','i','d',')','>']))

def wide (n : Nat) : Universe where
  interfaces := []
  protocols := []
  structs := []
  functions := [⟨"each",[wideText n],"void"⟩]

namespace TypeText

def voidSymbols : Nat → List Symbol
  | 0 => [.word "void"]
  | n+1 => .word "void" :: .mark ',' :: voidSymbols n

theorem voidSymbols_row (n : Nat) : Row (voidSymbols n) (List.replicate (n+1) .void) := by
  induction n with
  | zero => exact .last (.scalar .void)
  | succ n ih => exact .more (.scalar .void) ih

theorem Shows.void_mark {mark : Char} {ss : List Symbol} {cs : List Char} (visible : Text.isBlank mark = false)
    (apart : isWordChar mark = false) (behind : Shows ss cs) :
    Shows (.word "void" :: .mark mark :: ss) ('v' :: 'o' :: 'i' :: 'd' :: mark :: cs) :=
  Shows.word_mark (List.cons_ne_nil _ _) (by decide) visible apart behind

theorem shows_voids (n : Nat) {ss : List Symbol} {cs : List Char} (behind : Shows ss cs) :
    Shows (voidSymbols n ++ .mark ')' :: ss) (voids n ++ 'v' :: 'o' :: 'i' :: 'd' :: ')' :: cs) := by
  induction n with
  | zero => exact behind.void_mark (by decide) (by decide)
  | succ n ih => exact ih.void_mark (by decide) (by decide)

theorem wide_written (n : Nat) : Writes (wideText n) (.block .void (List.replicate (n+1) .void)) := by
  refine ⟨_,?_,.block (.scalar .void) (voidSymbols_row n)⟩
  have closed : Shows [.mark '>'] ['>'] := .mark (by decide) (by decide) .nothing
  rw [wideText,String.toList_ofList]
  exact .word_mark (List.cons_ne_nil _ _) (by decide) (by decide) (by decide)
    ((shows_voids n closed).void_mark (by decide) (by decide))

end TypeText

theorem wide_parsed (n : Nat) : TypeRef.parse (wideText n) = .ok (.block .void (List.replicate (n+1) .void)) :=
  TypeText.parse_written (TypeText.wide_written n)

theorem resolveAll_voids (scope : Scope) (n : Nat) :
    TypeExpr.resolveAll scope.any (scope.ofKind .struct) (List.replicate n .void) = .ok (List.replicate n .void) := by
  induction n with
  | zero => rfl
  | succ n ih =>
    rw [List.replicate_succ,TypeExpr.resolveAll,ih]
    rfl

-- A function that takes a block with so many parameters.
def takesBlock (count : Nat) : Descriptor := .function "each" ⟨.void,[.block .void (List.replicate count .void)]⟩

theorem wide_resolved (n : Nat) : (wide n).resolve = .ok [(⟨descriptorStart (wide n)⟩,takesBlock (n+1))] := by
  obtain ⟨void,_⟩ := nodes_types
  have declarations : (wide n).declarations = [.function ⟨"each",[wideText n],"void"⟩] := rfl
  have block (scope : Scope) : scope.readType (wideText n) = .ok (.block .void (List.replicate (n+1) .void)) := by
    rw [readType_parsed (wide_parsed n),Scope.resolve,TypeExpr.resolve,resolveAll_voids]
    rfl
  unfold Universe.resolve
  simp only [declarations,List.map_cons,List.map_nil,placeDeclarations,List.mapM_cons,List.mapM_nil,Scope.describe,
    Scope.readSignature,block,readType_parsed void]
  rfl

theorem wide_parts (here n : Nat) :
    typesParts here (List.replicate n .void) = ([],List.replicate n (scalarTag .void)) := by
  induction n generalizing here with
  | zero => rfl
  | succ n ih =>
    rw [List.replicate_succ,typesParts]
    simp only [typeParts,ih]
    rfl

theorem wide_compiled (n : Nat) : (wide n).compile.map (·.size) = .ok (72+n) := by
  unfold Universe.compile
  rw [wide_resolved]
  generalize (⟨descriptorStart (wide n)⟩ : DescriptorId) = id
  have start : Blob.descriptorsStart (wide n).texts [(id,takesBlock (n+1))] = 50 := rfl
  have records : (Blob.rows (wide n).texts [(id,takesBlock (n+1))]).1.length = 12 := Blob.length_records _ _ _
  have behind : (Blob.rows (wide n).texts [(id,takesBlock (n+1))]).2.length = n+10 := by
    simp [Blob.rows,descriptorRows,takesBlock,descriptorParts,signaturePart,typesParts,typeParts,wide_parts,Stands.length_word]
  change Except.ok (fileBytes (wide n).texts [_]).toArray.size = _
  rw [List.size_toArray,Blob.length_fileBytes,records,behind,start]
  exact congrArg Except.ok (by omega)

theorem spelled_void {stands : Meaning} {ty : TypeEncoding} (spelled : Spelled stands "void" ty) : ty = .void := by
  obtain ⟨void,_⟩ := nodes_types
  obtain ⟨t,parsed,spells⟩ := spelled
  cases void.symm.trans parsed
  cases spells
  rfl

theorem spells_voids {stands : Meaning} {n : Nat} {types : List TypeEncoding}
    (spells : SpellsAll stands (List.replicate n .void) types) : types = List.replicate n .void := by
  induction n generalizing types with
  | zero => cases spells; rfl
  | succ n ih =>
    rw [List.replicate_succ] at spells
    cases spells with
    | cons first others =>
      cases first
      rw [ih others,List.replicate_succ]

theorem spelled_wide {stands : Meaning} {n : Nat} {ty : TypeEncoding} (spelled : Spelled stands (wideText n) ty) :
    ty = .block .void (List.replicate (n+1) .void) := by
  obtain ⟨t,parsed,spells⟩ := spelled
  cases (wide_parsed n).symm.trans parsed
  cases spells with
  | block first others =>
    cases first
    rw [spells_voids others]

theorem kept_voids {n : Nat} : (TypeExpr.block .void (List.replicate n .void) : TypeEncoding).kept =
    .block .void (List.replicate (n%256) .void) := by
  rw [TypeExpr.kept,TypeExpr.keptAll_eq,List.map_replicate,List.take_replicate,List.length_replicate,
    Nat.min_eq_left (Nat.mod_le _ _)]
  rfl

theorem wide_kept {m : Metadata} {n : Nat} (keeps : m.Keeps (wide n)) :
    ∃ id, m.resolve? "each" = some (id,takesBlock ((n+1)%256)) := by
  obtain ⟨id,d,presents,_,resolved⟩ := keeps.presents (.function ⟨"each",[wideText n],"void"⟩) List.mem_cons_self
  refine ⟨id,resolved.trans ?_⟩
  cases d with
  | function name sig =>
    obtain ⟨rfl,signature⟩ := presents
    obtain ⟨result,params⟩ := sig
    obtain ⟨isVoid,each,_⟩ := signature
    obtain rfl := spelled_void isVoid
    cases each with
    | cons one others =>
      cases others
      obtain rfl := spelled_wide one
      rw [takesBlock,← kept_voids]
      rfl
  | interface | protocol | struct => exact presents.elim

theorem wide_nested (n : Nat) : ∀ text ∈ (wide n).typeTexts, Nested text := by
  have texts : (wide n).typeTexts = ["void",wideText n] := rfl
  obtain ⟨void,_⟩ := nodes_types
  intro text member t parsed
  rw [texts] at member
  simp only [List.mem_cons,List.not_mem_nil,or_false] at member
  rcases member with rfl | rfl
  · cases void.symm.trans parsed; trivial
  · cases (wide_parsed n).symm.trans parsed
    refine ⟨trivial,TypeExpr.nestsAll_iff.mpr fun ty member => ?_⟩
    rw [List.eq_of_mem_replicate member]
    trivial

theorem Universe.loaded_keeps {u : Universe} {file : Array UInt8} (compiled : u.compile = .ok file)
    (small : file.size < 2^32) (nested : ∀ text ∈ u.typeTexts, Nested text) :
    ∃ m, Metadata.ofBytes file = .ok m ∧ m.Keeps u := by
  obtain ⟨placed,resolved,joined⟩ := bind_ok.mp compiled
  obtain rfl := pure_ok.mp joined
  have checked := resolve_ok resolved
  obtain ⟨m,loaded,resolves,perm⟩ := Metadata.file_reads (resolved_arranged checked small nested) small
  have described := checked.described
  have sources := declarations_placed (descriptorStart u) u.declarations
  generalize placeDeclarations (descriptorStart u) u.declarations = source at described sources
  have knows : (Scope.of source).Knows m.Declares := by
    intro name id kind found
    obtain ⟨d,among,rfl,rfl⟩ := described_knows described name id kind found
    exact ⟨d.kept,resolves _ among,d.kept_name,d.kept_kind⟩
  refine ⟨m,loaded,?_,?_⟩
  · have names : source.map (·.2.name) = (source.map (·.2)).map (·.name) := by rw [List.map_map]; rfl
    have same : (placed.map Metadata.inFile).map (·.2.name) = placed.map (·.2.name) := by
      rw [List.map_map]
      exact List.map_congr_left fun p _ => p.2.kept_name
    rw [← sources,← names,← described_names described,← same]
    exact perm.map _
  · intro decl member
    rw [← sources] at member
    obtain ⟨p,among,rfl⟩ := List.mem_map.mp member
    obtain ⟨⟨id,d⟩,there,_,one⟩ := related_right described among
    refine ⟨id,d,describe_presents knows one,perm.mem_iff.mpr (List.mem_map_of_mem there),?_⟩
    rw [← (describe_kind one).1]
    exact resolves _ there

theorem wide_loses_its_parameters : ∃ file m id, (wide 255).compile = .ok file ∧ file.size < 2^32 ∧
    (∀ text ∈ (wide 255).typeTexts, Nested text) ∧ Metadata.ofBytes file = .ok m ∧ m.Keeps (wide 255) ∧
    m.resolve? "each" = some (id,takesBlock 0) := by
  obtain ⟨file,compiled,size⟩ := map_ok.mp (wide_compiled 255)
  have small : file.size < 2^32 := by rw [size]; decide
  obtain ⟨m,loaded,keeps⟩ := Universe.loaded_keeps compiled small (wide_nested 255)
  obtain ⟨id,resolved⟩ := wide_kept keeps
  exact ⟨file,m,id,compiled,small,wide_nested 255,loaded,keeps,resolved⟩

namespace TypeExpr
mutual

-- Some block in the type has more parameters than a byte can count.
def Overfull : TypeExpr ρ → Prop
  | .scalar _ | .object _ | .struct _ => False
  | .block result params => 255 < params.length ∨ result.Overfull ∨ AnyOverfull params

def AnyOverfull : List (TypeExpr ρ) → Prop
  | [] => False
  | ty :: rest => ty.Overfull ∨ AnyOverfull rest

end
end TypeExpr

theorem wide_block_not_refused : ¬∀ u : Universe,
    (∃ text ∈ u.typeTexts, ∃ t, TypeRef.parse text = .ok t ∧ t.Overfull) → ∃ e, u.compile = .error e := by
  intro refused
  obtain ⟨file,compiled,_⟩ := map_ok.mp (wide_compiled 255)
  have full : (TypeExpr.block .void (List.replicate 256 .void) : TypeRef).Overfull :=
    .inl (by rw [List.length_replicate]; decide)
  obtain ⟨e,failed⟩ := refused (wide 255) ⟨wideText 255,List.mem_cons_of_mem _ List.mem_cons_self,_,wide_parsed 255,full⟩
  cases failed.symm.trans compiled

end ObjectBridge
