import ObjectBridge.Proofs.Metadata.RoundTrip

namespace ObjectBridge
open Outcome

-- A type is part of itself and of every block type that has it as result or parameter, at any depth.
inductive TypeExpr.Within {ρ : Type} : TypeExpr ρ → TypeExpr ρ → Prop where
  | here (t : TypeExpr ρ) : Within t t
  | result {t result : TypeExpr ρ} {params : List (TypeExpr ρ)} (within : Within t result) :
      Within t (.block result params)
  | param {t ty result : TypeExpr ρ} {params : List (TypeExpr ρ)} (among : ty ∈ params) (within : Within t ty) :
      Within t (.block result params)

-- What two bytes can tell the length of.
def Short (text : String) : Prop := text.utf8ByteSize ≤ 65535

namespace Universe

def Declares (u : Universe) (kind : DescriptorKind) (name : String) : Prop :=
  ∃ decl ∈ u.declarations, decl.kind = kind ∧ decl.name = name

-- The text is a type, and each name in it is that of a declaration fit for where it stands.
def Types (u : Universe) (text : String) : Prop :=
  ∃ t : TypeRef, TypeRef.parse text = .ok t ∧
    (∀ name, (TypeExpr.struct name).Within t → u.Declares .struct name) ∧
    ∀ name, (TypeExpr.object (some name)).Within t → ∃ kind, u.Declares kind name

structure Consistent (u : Universe) : Prop where
  names : ∀ decl ∈ u.declarations, Short decl.name
  methods : ∀ decl ∈ u.declarations, ∀ m ∈ decl.methods, Short m.name ∧ Short m.selector
  properties : ∀ decl ∈ u.declarations, ∀ p ∈ decl.properties,
    Short p.name ∧ Short p.getterSelector ∧ (p.isReadonly = false → Short p.setterSelector)
  fields : ∀ decl ∈ u.declarations, ∀ f ∈ decl.fields, Short f.name
  distinct : (u.declarations.map (·.name)).Nodup
  bases : ∀ decl ∈ u.declarations, ∀ name, decl.base? = some name → u.Declares .interface name
  protocols : ∀ decl ∈ u.declarations, ∀ name ∈ decl.protocols, u.Declares .protocol name
  types : ∀ text ∈ u.typeTexts, u.Types text
  few : ∀ decl ∈ u.declarations, ∀ params ∈ decl.parameterRows, params.length ≤ 255

inductive Misnames (u : Universe) (t : TypeRef) : SchemaError → Prop where
  | struct {name : String} (within : (TypeExpr.struct name).Within t) (unknown : ¬u.Declares .struct name) :
      Misnames u t (.unknownType name)
  | object {name : String} (within : (TypeExpr.object (some name)).Within t) (unknown : ¬∃ kind, u.Declares kind name) :
      Misnames u t (.unknownType name)

inductive Mistypes (u : Universe) (text : String) : SchemaError → Prop where
  | unread {e : TypeTextError} (fails : TypeRef.parse text = .error e) : Mistypes u text (e.toSchemaError text)
  | names {t : TypeRef} {e : SchemaError} (parsed : TypeRef.parse text = .ok t) (misnames : u.Misnames t e) :
      Mistypes u text e

inductive Misdeclares (u : Universe) (decl : Declaration) : SchemaError → Prop where
  | base {name : String} (derives : decl.base? = some name) (unknown : ¬u.Declares .interface name) :
      Misdeclares u decl (.unknownType name)
  | protocol {name : String} (listed : name ∈ decl.protocols) (unknown : ¬u.Declares .protocol name) :
      Misdeclares u decl (.unknownType name)
  | type {text : String} {e : SchemaError} (among : text ∈ decl.typeTexts) (mistypes : u.Mistypes text e) :
      Misdeclares u decl e
  | crowded {params : List String} (among : params ∈ decl.parameterRows) (many : 255 < params.length) :
      Misdeclares u decl (.tooMany decl.name "parameters" params.length)

inductive Fault (u : Universe) : SchemaError → Prop where
  | long {decl : Declaration} {text : String} (among : decl ∈ u.declarations) (kept : text ∈ decl.texts)
      (long : ¬Short text) :
      Fault u (.tooMany (String.ofList (text.toList.take 32)) "bytes" text.utf8ByteSize)
  | repeated {name : String} (twice : List.Duplicate name (u.declarations.map (·.name))) : Fault u (.duplicate name)
  | declaration {decl : Declaration} {e : SchemaError} (among : decl ∈ u.declarations)
      (misdeclares : u.Misdeclares decl e) :
      Fault u e

end Universe

theorem Declaration.mem_texts {decl : Declaration} {text : String} : text ∈ decl.texts ↔
    text = decl.name ∨ (∃ m ∈ decl.methods, text = m.name ∨ text = m.selector) ∨
    (∃ p ∈ decl.properties, text = p.name ∨ text = p.getterSelector ∨ p.isReadonly = false ∧ text = p.setterSelector) ∨
    ∃ f ∈ decl.fields, text = f.name := by
  have method (m : MethodDecl) : text ∈ m.texts ↔ text = m.name ∨ text = m.selector := by simp [MethodDecl.texts]
  have property (p : PropertyDecl) : text ∈ p.texts ↔
      text = p.name ∨ text = p.getterSelector ∨ p.isReadonly = false ∧ text = p.setterSelector := by
    cases readonly : p.isReadonly <;> simp [PropertyDecl.texts,readonly]
  cases decl with
  | interface d | protocol d | function d =>
    simp [Declaration.texts,Declaration.name,Declaration.methods,Declaration.properties,Declaration.fields,method,
      property]
  | struct d =>
    simp only [Declaration.texts,Declaration.name,Declaration.methods,Declaration.properties,Declaration.fields,
      List.mem_cons,List.mem_map,List.not_mem_nil,false_and,exists_false,false_or,eq_comm]

-- A name that has to be declared is not.
def Lacks (declared : Prop) (name : String) (e : SchemaError) : Prop := ¬declared ∧ e = .unknownType name

namespace Universe

variable {u : Universe}

theorem misnames_scalar (s : Scalar) (e : SchemaError) : ¬u.Misnames (.scalar s) e := by
  rintro (within | within) <;> cases within

theorem misnames_anyObject (e : SchemaError) : ¬u.Misnames (.object none) e := by
  rintro (within | within) <;> cases within

theorem misnames_object {name : String} (e : SchemaError) :
    Lacks (∃ kind, u.Declares kind name) name e ↔ u.Misnames (.object (some name)) e := by
  constructor
  · rintro ⟨unknown,rfl⟩
    exact .object (.here _) unknown
  · rintro (⟨within,unknown⟩ | ⟨within,unknown⟩) <;> cases within
    exact ⟨unknown,rfl⟩

theorem misnames_struct {name : String} (e : SchemaError) :
    Lacks (u.Declares .struct name) name e ↔ u.Misnames (.struct name) e := by
  constructor
  · rintro ⟨unknown,rfl⟩
    exact .struct (.here _) unknown
  · rintro (⟨within,unknown⟩ | ⟨within,unknown⟩) <;> cases within
    exact ⟨unknown,rfl⟩

theorem misnames_block {result : TypeRef} {params : List TypeRef} (e : SchemaError) :
    (u.Misnames result e ∨ ∃ t ∈ params, u.Misnames t e) ↔ u.Misnames (.block result params) e := by
  constructor
  · rintro ((⟨within,unknown⟩ | ⟨within,unknown⟩) | ⟨t,among,⟨within,unknown⟩ | ⟨within,unknown⟩⟩)
    · exact .struct (.result within) unknown
    · exact .object (.result within) unknown
    · exact .struct (.param among within) unknown
    · exact .object (.param among within) unknown
  · rintro (⟨within,unknown⟩ | ⟨within,unknown⟩)
    · cases within with
      | result within => exact .inl (.struct within unknown)
      | param among within => exact .inr ⟨_,among,.struct within unknown⟩
    · cases within with
      | result within => exact .inl (.object within unknown)
      | param among within => exact .inr ⟨_,among,.object within unknown⟩

theorem misdeclares_iff (decl : Declaration) (e : SchemaError) : u.Misdeclares decl e ↔
    (∃ name ∈ decl.base?, Lacks (u.Declares .interface name) name e) ∨
    (∃ name ∈ decl.protocols, Lacks (u.Declares .protocol name) name e) ∨
    (∃ text ∈ decl.typeTexts, u.Mistypes text e) ∨
    ∃ params ∈ decl.parameterRows, 255 < params.length ∧ e = .tooMany decl.name "parameters" params.length := by
  constructor
  · rintro (⟨derives,unknown⟩ | ⟨listed,unknown⟩ | ⟨among,mistypes⟩ | ⟨among,many⟩)
    · exact .inl ⟨_,derives,unknown,rfl⟩
    · exact .inr (.inl ⟨_,listed,unknown,rfl⟩)
    · exact .inr (.inr (.inl ⟨_,among,mistypes⟩))
    · exact .inr (.inr (.inr ⟨_,among,many,rfl⟩))
  · rintro (⟨name,derives,unknown,rfl⟩ | ⟨name,listed,unknown,rfl⟩ | ⟨text,among,mistypes⟩ | ⟨params,among,many,rfl⟩)
    · exact .base derives unknown
    · exact .protocol listed unknown
    · exact .type among mistypes
    · exact .crowded among many

theorem Consistent.short (consistent : u.Consistent) {decl : Declaration} {text : String}
    (among : decl ∈ u.declarations) (kept : text ∈ decl.texts) : Short text := by
  rcases Declaration.mem_texts.mp kept with
    rfl | ⟨m,method,rfl | rfl⟩ | ⟨p,property,rfl | rfl | ⟨writable,rfl⟩⟩ | ⟨f,field,rfl⟩
  · exact consistent.names decl among
  · exact (consistent.methods decl among m method).1
  · exact (consistent.methods decl among m method).2
  · exact (consistent.properties decl among p property).1
  · exact (consistent.properties decl among p property).2.1
  · exact (consistent.properties decl among p property).2.2 writable
  · exact consistent.fields decl among f field

theorem Types.not_mistypes {text : String} {e : SchemaError} (types : u.Types text) : ¬u.Mistypes text e := by
  obtain ⟨t,parsed,structs,objects⟩ := types
  intro mistypes
  cases mistypes with
  | unread fails => cases parsed.symm.trans fails
  | names again misnames =>
    cases parsed.symm.trans again
    cases misnames with
    | struct within unknown => exact unknown (structs _ within)
    | object within unknown => exact unknown (objects _ within)

theorem types_of_not_mistypes {text : String} (faultless : ∀ e, ¬u.Mistypes text e) : u.Types text := by
  cases parsed : TypeRef.parse text with
  | error e => exact (faultless _ (.unread parsed)).elim
  | ok t =>
    refine ⟨t,parsed,fun name within => ?_,fun name within => ?_⟩
    · exact Classical.not_not.mp fun unknown => faultless _ (.names parsed (.struct within unknown))
    · exact Classical.not_not.mp fun unknown => faultless _ (.names parsed (.object within unknown))

theorem Consistent.faultless (consistent : u.Consistent) (e : SchemaError) : ¬u.Fault e := by
  intro fault
  cases fault with
  | long among kept long => exact long (consistent.short among kept)
  | repeated twice => exact List.nodup_iff_forall_not_duplicate.mp consistent.distinct _ twice
  | declaration among misdeclares =>
    cases misdeclares with
    | base derives unknown => exact unknown (consistent.bases _ among _ derives)
    | protocol listed unknown => exact unknown (consistent.protocols _ among _ listed)
    | type text mistypes =>
      exact (consistent.types _ (List.mem_flatMap.mpr ⟨_,among,text⟩)).not_mistypes mistypes
    | crowded row many => exact Nat.not_lt.mpr (consistent.few _ among _ row) many

theorem consistent_of_faultless (faultless : ∀ e, ¬u.Fault e) : u.Consistent := by
  have short {decl : Declaration} {text : String} (among : decl ∈ u.declarations) (kept : text ∈ decl.texts) :
      Short text := Classical.not_not.mp fun long => faultless _ (.long among kept long)
  have declared {decl : Declaration} (among : decl ∈ u.declarations) (e : SchemaError) : ¬u.Misdeclares decl e :=
    fun misdeclares => faultless e (.declaration among misdeclares)
  constructor
  case names => exact fun decl among => short among (Declaration.mem_texts.mpr (.inl rfl))
  case methods =>
    intro decl among m method
    exact ⟨short among (Declaration.mem_texts.mpr (.inr (.inl ⟨m,method,.inl rfl⟩))),
      short among (Declaration.mem_texts.mpr (.inr (.inl ⟨m,method,.inr rfl⟩)))⟩
  case properties =>
    intro decl among p property
    have kept {text : String}
        (one : text = p.name ∨ text = p.getterSelector ∨ p.isReadonly = false ∧ text = p.setterSelector) :
        Short text := short among (Declaration.mem_texts.mpr (.inr (.inr (.inl ⟨p,property,one⟩))))
    exact ⟨kept (.inl rfl),kept (.inr (.inl rfl)),fun writable => kept (.inr (.inr ⟨writable,rfl⟩))⟩
  case fields =>
    intro decl among f field
    exact short among (Declaration.mem_texts.mpr (.inr (.inr (.inr ⟨f,field,rfl⟩))))
  case distinct =>
    exact List.nodup_iff_forall_not_duplicate.mpr fun name twice => faultless _ (.repeated twice)
  case bases =>
    intro decl among name derives
    exact Classical.not_not.mp fun unknown => declared among _ (.base derives unknown)
  case protocols =>
    intro decl among name listed
    exact Classical.not_not.mp fun unknown => declared among _ (.protocol listed unknown)
  case types =>
    intro text member
    obtain ⟨decl,among,text⟩ := List.mem_flatMap.mp member
    exact types_of_not_mistypes fun e mistypes => declared among e (.type text mistypes)
  case few =>
    intro decl among params row
    exact Nat.not_lt.mp fun many => declared among _ (.crowded row many)

end Universe

-- With names that are declared once, a scope knows of each name of what kind its declaration is.
structure Scope.Covers (scope : Scope) (u : Universe) : Prop where
  known : ∀ {name : String} {id : DescriptorId} {kind : DescriptorKind}, scope.lookup name = some (id,kind) →
    ∀ other, u.Declares other name ↔ other = kind
  unknown : ∀ {name : String}, scope.lookup name = none → ∀ kind, ¬u.Declares kind name

theorem placed_covers {u : Universe} (start : Nat) (distinct : (u.declarations.map (·.name)).Nodup) :
    (Scope.of (placeDeclarations start u.declarations)).Covers u := by
  have sources := declarations_placed start u.declarations
  generalize placeDeclarations start u.declarations = placed at sources
  constructor
  case known =>
    intro name id kind found other
    obtain ⟨decl,member,rfl,rfl⟩ := lookup_placed found
    have among : decl ∈ u.declarations := sources ▸ List.mem_map.mpr ⟨_,member,rfl⟩
    constructor
    · rintro ⟨again,there,rfl,named⟩
      rw [List.inj_on_of_nodup_map distinct there among named]
    · rintro rfl
      exact ⟨decl,among,rfl,rfl⟩
  case unknown =>
    rintro name missing kind ⟨decl,among,_,rfl⟩
    rw [← sources] at among
    obtain ⟨p,member,rfl⟩ := List.mem_map.mp among
    have apart := List.lookup_eq_none_iff.mp missing (p.2.name,p.1,p.2.kind) (List.mem_map.mpr ⟨p,member,rfl⟩)
    simp at apart

namespace Scope.Covers

variable {scope : Scope} {u : Universe} (covers : scope.Covers u)
include covers

theorem any_judged (name : String) : Judged (Lacks (∃ kind, u.Declares kind name) name) (scope.any name) := by
  unfold Scope.any
  split
  · rename_i id kind found
    exact .sound fun e lacks => lacks.1 ⟨kind,(covers.known found kind).mpr rfl⟩
  · rename_i missing
    exact .faulty ⟨fun ⟨kind,declared⟩ => covers.unknown missing kind declared,rfl⟩

theorem ofKind_judged (kind : DescriptorKind) (name : String) :
    Judged (Lacks (u.Declares kind name) name) (scope.ofKind kind name) := by
  unfold Scope.ofKind
  split
  · rename_i id other found
    split
    · rename_i same
      exact .sound fun e lacks => lacks.1 ((covers.known found kind).mpr same.symm)
    · rename_i differs
      exact .faulty ⟨fun declared => differs ((covers.known found kind).mp declared).symm,rfl⟩
  · rename_i missing
    exact .faulty ⟨covers.unknown missing kind,rfl⟩

omit covers

mutual

theorem resolve_judged (covers : scope.Covers u) (t : TypeRef) :
    Judged (u.Misnames t) (TypeExpr.resolve scope.any (scope.ofKind .struct) t) := by
  cases t with
  | scalar s => exact .sound (Universe.misnames_scalar s)
  | object target =>
    cases target with
    | none => exact .sound Universe.misnames_anyObject
    | some name => exact ((covers.any_judged name).map _).congr Universe.misnames_object
  | struct name => exact ((covers.ofKind_judged .struct name).map _).congr Universe.misnames_struct
  | block result params =>
    have both := (resolve_judged covers result).bind fun result' =>
      (resolveAll_judged covers params).followed (TypeExpr.block result')
    exact both.congr Universe.misnames_block

theorem resolveAll_judged (covers : scope.Covers u) (ts : List TypeRef) :
    Judged (fun e => ∃ t ∈ ts, u.Misnames t e) (TypeExpr.resolveAll scope.any (scope.ofKind .struct) ts) := by
  cases ts with
  | nil => exact .sound fun e found => nomatch found
  | cons t rest =>
    refine ((resolve_judged covers t).bind fun _ => (resolveAll_judged covers rest).followed _).congr fun e => ?_
    exact (List.exists_mem_cons_iff (u.Misnames · e) t rest).symm

end

include covers

theorem readType_judged (text : String) : Judged (u.Mistypes text) (scope.readType text) := by
  unfold Scope.readType readTypeText
  cases parsed : TypeRef.parse text with
  | error e => exact .faulty (.unread parsed)
  | ok t =>
    refine (covers.resolve_judged t).congr fun e => ⟨.names parsed,fun mistypes => ?_⟩
    cases mistypes with
    | unread fails => cases parsed.symm.trans fails
    | names again misnames => cases parsed.symm.trans again; exact misnames

theorem readSignature_judged (owner : String) (params : List String) (result : String) :
    Judged (fun e => 255 < params.length ∧ e = .tooMany owner "parameters" params.length ∨
      ∃ text ∈ result :: params, u.Mistypes text e) (scope.readSignature owner params result) := by
  have typed := (covers.readType_judged result).bind fun result' =>
    (Judged.each fun text (_ : text ∈ params) => covers.readType_judged text).followed (Signature.mk result')
  unfold Scope.readSignature
  exact .guard (typed.congr fun e => (List.exists_mem_cons_iff (u.Mistypes · e) result params).symm)

theorem readMembers_judged (owner : String) (protocols : List String) (methods : List MethodDecl)
    (properties : List PropertyDecl) :
    Judged (fun e => (∃ name ∈ protocols, Lacks (u.Declares .protocol name) name e) ∨
      (∃ text ∈ methods.flatMap (·.typeTexts) ++ properties.map (·.type), u.Mistypes text e) ∨
      ∃ params ∈ methods.map (·.params), 255 < params.length ∧ e = .tooMany owner "parameters" params.length)
      (scope.readMembers owner protocols methods properties) := by
  have listed := Judged.each fun name (_ : name ∈ protocols) => covers.ofKind_judged .protocol name
  have signed := Judged.each fun m (_ : m ∈ methods) =>
    show Judged _ (scope.readMethod owner m) from (covers.readSignature_judged owner m.params m.result).followed _
  have typed := Judged.each fun p (_ : p ∈ properties) =>
    show Judged _ (scope.readProperty p) from (covers.readType_judged p.type).followed _
  refine (listed.bind fun _ => signed.bind fun _ => typed.followed _).congr fun e => or_congr_right ?_
  simp only [List.mem_append,List.mem_flatMap,List.mem_map,MethodDecl.typeTexts]
  grind

theorem describe_judged (decl : Declaration) : Judged (u.Misdeclares decl) (scope.describe decl) := by
  refine Judged.congr ?_ fun e => (Universe.misdeclares_iff decl e).symm
  cases decl with
  | interface d =>
    have base : Judged (fun e => ∃ name ∈ d.base, Lacks (u.Declares .interface name) name e)
        (d.base.mapM (scope.ofKind .interface)) := by
      cases d.base with
      | none => exact .sound fun e found => nomatch found
      | some name =>
        refine ((covers.ofKind_judged .interface name).map some).congr fun e => ?_
        simp
    exact base.bind fun _ => (covers.readMembers_judged d.name d.protocols d.methods d.properties).followed _
  | protocol d =>
    refine ((covers.readMembers_judged d.name d.protocols d.methods d.properties).followed _).congr fun e => ?_
    simp [Declaration.base?,Declaration.protocols,Declaration.typeTexts,Declaration.parameterRows,Declaration.name,
      Declaration.methods]
  | struct d =>
    refine ((Judged.each fun (field : FieldDecl) (_ : field ∈ d.fields) =>
      (covers.readType_judged field.type).followed (Field.mk field.name)).followed _).congr fun e => ?_
    simp [Declaration.base?,Declaration.protocols,Declaration.typeTexts,Declaration.parameterRows,Declaration.methods]
  | function d =>
    refine ((covers.readSignature_judged d.name d.params d.result).followed _).congr fun e => ?_
    simp [Declaration.base?,Declaration.protocols,Declaration.typeTexts,Declaration.parameterRows,Declaration.name,
      or_comm]

end Scope.Covers

theorem checkText_judged (text : String) : Judged (fun e => ¬Short text ∧
    e = .tooMany (String.ofList (text.toList.take 32)) "bytes" text.utf8ByteSize) (checkText text) := by
  unfold checkText
  split
  · rename_i short
    exact .sound fun e long => long.1 short
  · rename_i long
    exact .faulty ⟨long,rfl⟩

theorem firstRepeated?_some {seen names : List String} {name : String}
    (repeated : firstRepeated? seen names = some name) :
    name ∈ names ∧ (name ∈ seen ∨ List.Duplicate name names) := by
  induction names generalizing seen with
  | nil => cases repeated
  | cons first rest ih =>
    unfold firstRepeated? at repeated
    split at repeated
    · rename_i old
      cases repeated
      exact ⟨List.mem_cons_self,.inl old⟩
    · obtain ⟨member,before | twice⟩ := ih repeated
      · rcases List.mem_cons.mp before with rfl | old
        · exact ⟨List.mem_cons_self,.inr (.cons_mem member)⟩
        · exact ⟨List.mem_cons_of_mem _ member,.inl old⟩
      · exact ⟨List.mem_cons_of_mem _ member,.inr (.cons_duplicate twice)⟩

namespace Universe

variable {u : Universe}

theorem describeAll_judged (start : Nat) (distinct : (u.declarations.map (·.name)).Nodup) :
    let placed := placeDeclarations start u.declarations
    Judged (fun e => ∃ decl ∈ u.declarations, u.Misdeclares decl e)
      (placed.mapM fun p => do return (p.1,← (Scope.of placed).describe p.2)) := by
  intro placed
  have covers : (Scope.of placed).Covers u := placed_covers start distinct
  have sources : placed.map (·.2) = u.declarations := declarations_placed start u.declarations
  have described := Judged.each fun (p : DescriptorId × Declaration) (_ : p ∈ placed) =>
    (covers.describe_judged p.2).followed (p.1,·)
  refine described.congr fun e => ?_
  rw [← sources]
  simp only [List.mem_map,exists_exists_and_eq_and]

-- That names are distinct is known before any of them is looked up.
theorem distinct_judged (u : Universe) (start : Nat) :
    let placed := placeDeclarations start u.declarations
    Judged (fun e => (∃ name, List.Duplicate name (u.declarations.map (·.name)) ∧ e = .duplicate name) ∨
        ∃ decl ∈ u.declarations, u.Misdeclares decl e)
      (match firstRepeated? [] (u.declarations.map (·.name)) with
      | some name => throw (.duplicate name)
      | none => placed.mapM fun p => do return (p.1,← (Scope.of placed).describe p.2)) := by
  intro placed
  split
  · rename_i name repeated
    have twice := (firstRepeated?_some repeated).2.resolve_left List.not_mem_nil
    exact .faulty (.inl ⟨name,twice,rfl⟩)
  · rename_i none
    have distinct := (firstRepeated?_none none).2
    refine (describeAll_judged start distinct).congr fun e => ⟨.inr,fun found => found.resolve_left ?_⟩
    rintro ⟨name,twice,_⟩
    exact List.nodup_iff_forall_not_duplicate.mp distinct name twice

theorem resolve_judged (u : Universe) : Judged u.Fault u.resolve := by
  have texts : Judged _ (u.texts.forM checkText) := .all checkText_judged
  refine (texts.bind fun _ => u.distinct_judged (Layout.descriptorStart u)).congr fun e => ⟨?_,?_⟩
  · rintro (⟨text,kept,long,rfl⟩ | ⟨name,twice,rfl⟩ | ⟨decl,among,misdeclares⟩)
    · obtain ⟨decl,among,part⟩ := List.mem_flatMap.mp (List.mem_eraseDups.mp kept)
      exact .long among part long
    · exact .repeated twice
    · exact .declaration among misdeclares
  · rintro (⟨among,part,long⟩ | twice | ⟨among,misdeclares⟩)
    · exact .inl ⟨_,List.mem_eraseDups.mpr (List.mem_flatMap.mpr ⟨_,among,part⟩),long,rfl⟩
    · exact .inr (.inl ⟨_,twice,rfl⟩)
    · exact .inr (.inr ⟨_,among,misdeclares⟩)

theorem compiles_exactly_consistent (u : Universe) :
    ((∃ file, u.compile = .ok file) ↔ u.Consistent) ∧
      (¬u.Consistent → ∃ e, u.compile = .error e ∧ u.Fault e) := by
  have judged : Judged u.Fault u.compile := u.resolve_judged.followed _
  have faultless : (∀ e, ¬u.Fault e) ↔ u.Consistent := ⟨consistent_of_faultless,Consistent.faultless⟩
  refine ⟨judged.succeeds_iff.trans faultless,fun inconsistent => judged.reports ?_⟩
  rw [← faultless] at inconsistent
  exact not_forall_not.mp inconsistent

end Universe

end ObjectBridge
