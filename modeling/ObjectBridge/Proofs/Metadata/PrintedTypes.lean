import ObjectBridge.Proofs.Metadata.NestingLimit
import ObjectBridge.Proofs.Metadata.TypePrinting

namespace ObjectBridge
open Layout Outcome

section Texts

variable (f : String → String)

def MethodDecl.mapTypes (decl : MethodDecl) : MethodDecl :=
  { decl with params := decl.params.map f, result := f decl.result }

def PropertyDecl.mapTypes (decl : PropertyDecl) : PropertyDecl := { decl with type := f decl.type }

def FieldDecl.mapTypes (decl : FieldDecl) : FieldDecl := { decl with type := f decl.type }

def InterfaceDecl.mapTypes (decl : InterfaceDecl) : InterfaceDecl :=
  { decl with methods := decl.methods.map (·.mapTypes f), properties := decl.properties.map (·.mapTypes f) }

def ProtocolDecl.mapTypes (decl : ProtocolDecl) : ProtocolDecl :=
  { decl with methods := decl.methods.map (·.mapTypes f), properties := decl.properties.map (·.mapTypes f) }

def StructDecl.mapTypes (decl : StructDecl) : StructDecl := { decl with fields := decl.fields.map (·.mapTypes f) }

def FunctionDecl.mapTypes (decl : FunctionDecl) : FunctionDecl :=
  { decl with params := decl.params.map f, result := f decl.result }

def Declaration.mapTypes : Declaration → Declaration
  | .interface decl => .interface (decl.mapTypes f)
  | .protocol decl => .protocol (decl.mapTypes f)
  | .struct decl => .struct (decl.mapTypes f)
  | .function decl => .function (decl.mapTypes f)

def Universe.mapTypes (u : Universe) : Universe where
  interfaces := u.interfaces.map (·.mapTypes f)
  protocols := u.protocols.map (·.mapTypes f)
  structs := u.structs.map (·.mapTypes f)
  functions := u.functions.map (·.mapTypes f)

variable {f}

theorem Universe.mapTypes_declarations (u : Universe) :
    (u.mapTypes f).declarations = u.declarations.map (·.mapTypes f) := by
  simp [Universe.declarations,Universe.mapTypes,Declaration.mapTypes,Function.comp_def]

theorem Declaration.mapTypes_name (decl : Declaration) : (decl.mapTypes f).name = decl.name := by
  cases decl <;> rfl

theorem Declaration.mapTypes_kind (decl : Declaration) : (decl.mapTypes f).kind = decl.kind := by
  cases decl <;> rfl

-- Types are not kept as texts.
theorem Declaration.mapTypes_texts (decl : Declaration) : (decl.mapTypes f).texts = decl.texts := by
  have methods (decls : List MethodDecl) : (decls.map (·.mapTypes f)).flatMap (·.texts) = decls.flatMap (·.texts) := by
    rw [List.flatMap_map]
    rfl
  have properties (decls : List PropertyDecl) : (decls.map (·.mapTypes f)).flatMap (·.texts) = decls.flatMap (·.texts) := by
    rw [List.flatMap_map]
    rfl
  cases decl with
  | interface decl => simp [Declaration.mapTypes,Declaration.texts,InterfaceDecl.mapTypes,methods,properties]
  | protocol decl => simp [Declaration.mapTypes,Declaration.texts,ProtocolDecl.mapTypes,methods,properties]
  | struct decl => simp [Declaration.mapTypes,Declaration.texts,StructDecl.mapTypes,FieldDecl.mapTypes]
  | function => rfl

theorem Universe.mapTypes_texts (u : Universe) : (u.mapTypes f).texts = u.texts := by
  rw [Universe.texts,Universe.mapTypes_declarations,List.flatMap_map]
  simp only [Declaration.mapTypes_texts]
  rfl

theorem Universe.mapTypes_names (u : Universe) :
    (u.mapTypes f).declarations.map (·.name) = u.declarations.map (·.name) := by
  simp [Universe.mapTypes_declarations,Declaration.mapTypes_name]

theorem mapTypes_placed (start : Nat) (decls : List Declaration) :
    placeDeclarations start (decls.map (·.mapTypes f)) =
      (placeDeclarations start decls).map fun p => (p.1,p.2.mapTypes f) := by
  induction decls generalizing start with
  | nil => rfl
  | cons decl rest ih => simp [placeDeclarations,ih,Declaration.mapTypes_kind]

theorem mapTypes_scope (placed : List (DescriptorId × Declaration)) :
    Scope.of (placed.map fun p => (p.1,p.2.mapTypes f)) = Scope.of placed := by
  simp [Scope.of,Declaration.mapTypes_name,Declaration.mapTypes_kind]

-- Going through other items comes to the same if each of them does.
theorem mapM_same {α β γ ε : Type} {items : List α} {g : α → β} {one : β → Except ε γ} (other : α → Except ε γ)
    (same : ∀ a ∈ items, one (g a) = other a) : (items.map g).mapM one = items.mapM other := by
  induction items with
  | nil => rfl
  | cons first rest ih =>
    rw [List.map_cons,List.mapM_cons,List.mapM_cons,same first List.mem_cons_self,
      ih fun a member => same a (List.mem_cons_of_mem _ member)]

variable {scope : Scope}

theorem readSignature_same {params : List String} {result : String} (owner : String)
    (same : ∀ text ∈ result :: params, scope.readType (f text) = scope.readType text) :
    scope.readSignature owner (params.map f) (f result) = scope.readSignature owner params result := by
  have others := mapM_same _ fun text member => same text (List.mem_cons_of_mem _ member)
  rw [Scope.readSignature,Scope.readSignature,List.length_map,same result List.mem_cons_self,others]

theorem readMethod_same {decl : MethodDecl} (owner : String)
    (same : ∀ text ∈ decl.typeTexts, scope.readType (f text) = scope.readType text) :
    scope.readMethod owner (decl.mapTypes f) = scope.readMethod owner decl := by
  have signature := readSignature_same owner same
  unfold Scope.readMethod
  dsimp only [MethodDecl.mapTypes]
  rw [signature]
  rfl

theorem readProperty_same {decl : PropertyDecl} (same : scope.readType (f decl.type) = scope.readType decl.type) :
    scope.readProperty (decl.mapTypes f) = scope.readProperty decl := by
  unfold Scope.readProperty
  dsimp only [PropertyDecl.mapTypes]
  rw [same]
  rfl

theorem readMembers_same {methods : List MethodDecl} {properties : List PropertyDecl} (owner : String)
    (protocols : List String) (same : ∀ text ∈ methods.flatMap (·.typeTexts) ++ properties.map (·.type),
      scope.readType (f text) = scope.readType text) :
    scope.readMembers owner protocols (methods.map (·.mapTypes f)) (properties.map (·.mapTypes f)) =
      scope.readMembers owner protocols methods properties := by
  have eachMethod : ∀ decl ∈ methods, scope.readMethod owner (decl.mapTypes f) = scope.readMethod owner decl := by
    intro decl member
    refine readMethod_same owner fun text part => same text ?_
    exact List.mem_append_left _ (List.mem_flatMap.mpr ⟨decl,member,part⟩)
  have eachProperty : ∀ decl ∈ properties, scope.readProperty (decl.mapTypes f) = scope.readProperty decl := by
    intro decl member
    exact readProperty_same (same _ (List.mem_append_right _ (List.mem_map_of_mem member)))
  rw [Scope.readMembers,Scope.readMembers,mapM_same _ eachMethod,mapM_same _ eachProperty]

theorem describe_same {decl : Declaration}
    (same : ∀ text ∈ decl.typeTexts, scope.readType (f text) = scope.readType text) :
    scope.describe (decl.mapTypes f) = scope.describe decl := by
  cases decl with
  | interface decl =>
    have members := readMembers_same decl.name decl.protocols same
    unfold Declaration.mapTypes Scope.describe
    dsimp only [InterfaceDecl.mapTypes]
    rw [members]
  | protocol decl =>
    have members := readMembers_same decl.name decl.protocols same
    unfold Declaration.mapTypes Scope.describe
    dsimp only [ProtocolDecl.mapTypes]
    rw [members]
  | struct decl =>
    have fields : ∀ field ∈ decl.fields, scope.readType (f field.type) = scope.readType field.type :=
      fun field member => same _ (List.mem_map_of_mem member)
    unfold Declaration.mapTypes Scope.describe
    dsimp only [StructDecl.mapTypes]
    rw [mapM_same fun field => do return ⟨field.name,← scope.readType field.type⟩]
    intro field member
    dsimp only [FieldDecl.mapTypes]
    rw [fields field member]
  | function decl =>
    have signature := readSignature_same decl.name same
    unfold Declaration.mapTypes Scope.describe
    dsimp only [FunctionDecl.mapTypes]
    rw [signature]

-- A text stands for the type that it is read as, whatever else it is.
theorem Universe.mapTypes_compile {u : Universe}
    (same : ∀ text ∈ u.typeTexts, readTypeText (f text) = readTypeText text) : (u.mapTypes f).compile = u.compile := by
  have start : descriptorStart (u.mapTypes f) = descriptorStart u := by
    rw [descriptorStart,descriptorStart,Universe.mapTypes_texts,Universe.mapTypes_declarations,List.length_map]
  have sources := declarations_placed (descriptorStart u) u.declarations
  have resolve : (u.mapTypes f).resolve = u.resolve := by
    unfold Universe.resolve
    rw [start,Universe.mapTypes_texts,Universe.mapTypes_names,Universe.mapTypes_declarations,mapTypes_placed]
    dsimp only
    rw [mapTypes_scope]
    generalize placeDeclarations (descriptorStart u) u.declarations = placed at sources
    rw [mapM_same fun p => do return (p.1,← (Scope.of placed).describe p.2)]
    intro p member
    have among : p.2 ∈ u.declarations := sources ▸ List.mem_map_of_mem member
    have described : (Scope.of placed).describe (p.2.mapTypes f) = (Scope.of placed).describe p.2 := by
      refine describe_same fun text part => ?_
      rw [Scope.readType,same text (List.mem_flatMap.mpr ⟨p.2,among,part⟩)]
      rfl
    dsimp only
    rw [described]
  rw [Universe.compile,Universe.compile,resolve,Universe.mapTypes_texts]

end Texts

-- The types of a signature, each with the text that it was declared by.
inductive InSignature (params : List String) (result : String) (sig : CallSignature) : String → TypeEncoding → Prop where
  | result : InSignature params result sig result sig.result
  | param {text : String} {ty : TypeEncoding} (beside : (text,ty) ∈ params.zip sig.params) :
      InSignature params result sig text ty

-- The methods by which a property is read and written have its type too.
inductive InProperty (p : Property) : TypeEncoding → Prop where
  | type : InProperty p p.type
  | getter {m : Method} (reads : p.getter = some m) : InProperty p m.signature.result
  | setter {m : Method} {ty : TypeEncoding} (writes : p.setter = some m) (takes : ty ∈ m.signature.params) :
      InProperty p ty

inductive InMembers (methods : List MethodDecl) (properties : List PropertyDecl) (members : Members) :
    String → TypeEncoding → Prop where
  | method {decl : MethodDecl} {m : Method} {text : String} {ty : TypeEncoding}
      (beside : (decl,m) ∈ methods.zip members.methods) (within : InSignature decl.params decl.result m.signature text ty) : InMembers methods properties members text ty
  | property {decl : PropertyDecl} {p : Property} {ty : TypeEncoding}
      (beside : (decl,p) ∈ properties.zip members.properties) (within : InProperty p ty) : InMembers methods properties members decl.type ty

-- The descriptor has the type where the declaration has the text.
inductive ReadBack : Declaration → Descriptor → String → TypeEncoding → Prop where
  | interface {decl : InterfaceDecl} {name : String} {base : Option DescriptorId} {members : Members} {text : String}
      {ty : TypeEncoding} (within : InMembers decl.methods decl.properties members text ty) :
      ReadBack (.interface decl) (.interface name base members) text ty
  | protocol {decl : ProtocolDecl} {name : String} {members : Members} {text : String} {ty : TypeEncoding}
      (within : InMembers decl.methods decl.properties members text ty) :
      ReadBack (.protocol decl) (.protocol name members) text ty
  | field {decl : StructDecl} {name : String} {fields : List Field} {field : FieldDecl} {f : Field}
      (beside : (field,f) ∈ decl.fields.zip fields) : ReadBack (.struct decl) (.struct name fields) field.type f.type
  | function {decl : FunctionDecl} {name : String} {sig : CallSignature} {text : String} {ty : TypeEncoding}
      (within : InSignature decl.params decl.result sig text ty) : ReadBack (.function decl) (.function name sig) text ty

-- The file has the type under the name of a declaration, where the declaration has the text.
def Metadata.ReadsBack (m : Metadata) (u : Universe) (text : String) (ty : TypeEncoding) : Prop :=
  ∃ decl ∈ u.declarations, ∃ id d, m.resolve? decl.name = some (id,d) ∧ ReadBack decl d text ty

variable {stands : Meaning} {text : String} {ty : TypeEncoding}

theorem exists_beside {α β : Type} {R : α → β → Prop} {items : List α} {results : List β}
    (related : List.Forall₂ R items results) {a : α} (member : a ∈ items) : ∃ b, (a,b) ∈ items.zip results := by
  induction related with
  | nil => cases member
  | cons _ _ ih =>
    rcases List.mem_cons.mp member with rfl | later
    · exact ⟨_,List.mem_cons_self⟩
    · obtain ⟨b,beside⟩ := ih later
      exact ⟨b,List.mem_cons_of_mem _ beside⟩

theorem PresentsSignature.spelled {params : List String} {result : String} {sig : CallSignature}
    (presents : PresentsSignature stands params result sig) (within : InSignature params result sig text ty) :
    Spelled stands text ty := by
  cases within with
  | result => exact presents.result
  | param beside => exact List.forall₂_zip presents.params beside

theorem PresentsProperty.spelled {decl : PropertyDecl} {p : Property} (presents : PresentsProperty stands decl p)
    (within : InProperty p ty) : Spelled stands decl.type ty := by
  cases within with
  | type => exact presents.type
  | getter reads =>
    obtain ⟨m,is,accessor⟩ := presents.getter
    cases is.symm.trans reads
    rw [accessor.signature]
    exact presents.type
  | setter writes takes =>
    have setter := presents.setter
    split at setter
    · cases setter.symm.trans writes
    · obtain ⟨m,is,accessor⟩ := setter
      cases is.symm.trans writes
      rw [accessor.signature] at takes
      rw [List.mem_singleton.mp takes]
      exact presents.type

theorem PresentsMembers.spelled {protocols : List String} {methods : List MethodDecl} {properties : List PropertyDecl}
    {m : Members} (presents : PresentsMembers stands protocols methods properties m)
    (within : InMembers methods properties m text ty) : Spelled stands text ty := by
  cases within with
  | method beside within => exact (List.forall₂_zip presents.methods beside).signature.spelled within
  | property beside within => exact (List.forall₂_zip presents.properties beside).spelled within

theorem Presents.spelled {decl : Declaration} {d : Descriptor} (presents : Presents stands decl d)
    (back : ReadBack decl d text ty) : Spelled stands text ty := by
  cases back with
  | interface within => exact presents.2.2.spelled within
  | protocol within => exact presents.2.spelled within
  | field beside => exact (List.forall₂_zip presents.2 beside).type
  | function within => exact presents.2.spelled within

theorem PresentsSignature.found {params : List String} {result : String} {sig : CallSignature}
    (presents : PresentsSignature stands params result sig) (member : text ∈ result :: params) :
    ∃ ty, InSignature params result sig text ty := by
  rcases List.mem_cons.mp member with rfl | later
  · exact ⟨_,.result⟩
  · obtain ⟨ty,beside⟩ := exists_beside presents.params later
    exact ⟨ty,.param beside⟩

theorem PresentsMembers.found {protocols : List String} {methods : List MethodDecl} {properties : List PropertyDecl}
    {m : Members} (presents : PresentsMembers stands protocols methods properties m)
    (member : text ∈ methods.flatMap (·.typeTexts) ++ properties.map (·.type)) :
    ∃ ty, InMembers methods properties m text ty := by
  rcases List.mem_append.mp member with inMethods | inProperties
  · obtain ⟨decl,among,part⟩ := List.mem_flatMap.mp inMethods
    obtain ⟨method,beside⟩ := exists_beside presents.methods among
    obtain ⟨ty,within⟩ := (List.forall₂_zip presents.methods beside).signature.found part
    exact ⟨ty,.method beside within⟩
  · obtain ⟨decl,among,rfl⟩ := List.mem_map.mp inProperties
    obtain ⟨p,beside⟩ := exists_beside presents.properties among
    exact ⟨p.type,.property beside .type⟩

theorem Presents.found {decl : Declaration} {d : Descriptor} (presents : Presents stands decl d)
    (member : text ∈ decl.typeTexts) : ∃ ty, ReadBack decl d text ty := by
  cases decl <;> cases d <;> try exact presents.elim
  case interface.interface =>
    obtain ⟨ty,within⟩ := presents.2.2.found member
    exact ⟨ty,.interface within⟩
  case protocol.protocol =>
    obtain ⟨ty,within⟩ := presents.2.found member
    exact ⟨ty,.protocol within⟩
  case struct.struct =>
    obtain ⟨field,among,rfl⟩ := List.mem_map.mp member
    obtain ⟨f,beside⟩ := exists_beside presents.2 among
    exact ⟨f.type,.field beside⟩
  case function.function =>
    obtain ⟨ty,within⟩ := presents.2.found member
    exact ⟨ty,.function within⟩

mutual

theorem Spells.text {nameOf : DescriptorId → String} {t : TypeRef} {ty : TypeEncoding}
    (named : ∀ name id kind, stands name id kind → nameOf id = name) (spells : Spells stands t ty) :
    ty.text nameOf = t.text id := by
  cases spells with
  | scalar | anyObject => rfl
  | object known => rw [TypeExpr.text,TypeExpr.text,named _ _ _ known]; rfl
  | struct known => rw [TypeExpr.text,TypeExpr.text,named _ _ _ known]; rfl
  | block first others => rw [TypeExpr.text,TypeExpr.text,first.text named,others.texts named]

theorem SpellsAll.texts {nameOf : DescriptorId → String} {ts : List TypeRef} {types : List TypeEncoding}
    (named : ∀ name id kind, stands name id kind → nameOf id = name) (spells : SpellsAll stands ts types) :
    TypeExpr.texts nameOf types = TypeExpr.texts id ts := by
  cases spells with
  | nil => rfl
  | cons first others => rw [TypeExpr.texts,TypeExpr.texts,first.text named,others.texts named]

end

theorem readTypeText_ok {t : TypeRef} : readTypeText text = .ok t ↔ TypeRef.parse text = .ok t := by
  unfold readTypeText
  cases TypeRef.parse text with
  | ok t' => simp
  | error e => simp

namespace Metadata

variable {m : Metadata} {u : Universe} {file : Array UInt8} {placed : List (DescriptorId × Descriptor)}

-- A name stands for what is printed by it.
def Prints (m : Metadata) : Meaning := fun name id _ => m.nameOf id = name

section Reloaded

variable (reloads : m.Reloads u placed file) (loaded : Metadata.ofBytes file = .ok m) (counts : u.CountsParameters)
include reloads loaded counts

theorem reloaded_presents :
    ∀ decl ∈ u.declarations, ∃ id d, m.resolve? decl.name = some (id,d) ∧ Presents m.Prints decl d := by
  have prints : ∀ name id kind, Among placed name id kind → m.Prints name id kind := by
    rintro name id kind ⟨d,among,rfl,_⟩
    have there := reloads.described _ among
    rw [reloaded_whole reloads loaded counts _ among] at there
    change m.nameOf id = d.name
    rw [nameOf,there]
  intro decl member
  obtain ⟨⟨id,d⟩,there,named,presents⟩ := resolved_declared reloads.resolved prints decl member
  exact ⟨id,d,named ▸ reloaded_resolves reloads loaded counts _ there,presents⟩

theorem reloaded_printed (back : m.ReadsBack u text ty) :
    ∃ t, TypeRef.parse text = .ok t ∧ m.typeText ty = t.text id := by
  obtain ⟨decl,member,_,_,resolved,within⟩ := back
  obtain ⟨_,_,same,presents⟩ := reloaded_presents reloads loaded counts decl member
  cases resolved.symm.trans same
  obtain ⟨t,parsed,spells⟩ := presents.spelled within
  exact ⟨t,parsed,spells.text fun _ _ _ named => named⟩

theorem reloaded_found (member : text ∈ u.typeTexts) : ∃ ty, m.ReadsBack u text ty := by
  obtain ⟨decl,among,part⟩ := List.mem_flatMap.mp member
  obtain ⟨id,d,resolved,presents⟩ := reloaded_presents reloads loaded counts decl among
  obtain ⟨ty,within⟩ := presents.found part
  exact ⟨ty,decl,among,id,d,resolved,within⟩

end Reloaded

theorem types_print_back {u : Universe} {file : Array UInt8} {m : Metadata} (compiled : u.compile = .ok file)
    (loaded : Metadata.ofBytes file = .ok m) (counts : u.CountsParameters) :
    (∀ text ∈ u.typeTexts, ∃ ty, m.ReadsBack u text ty) ∧
    (∀ text ty, m.ReadsBack u text ty → m.typeText ty = TypeText.respaced text ∧
      ∃ t, readTypeText text = .ok t ∧ readTypeText (m.typeText ty) = .ok t) ∧
    (∀ text ty other ty', m.ReadsBack u text ty → m.ReadsBack u other ty' →
      TypeText.visible text = TypeText.visible other → m.typeText ty = m.typeText ty') ∧
    ∀ print : String → String, (∀ text ty, m.ReadsBack u text ty → print text = m.typeText ty) →
      (u.mapTypes print).compile = .ok file := by
  obtain ⟨placed,reloads⟩ := loaded_reloads compiled loaded
  have found : ∀ text ∈ u.typeTexts, ∃ ty, m.ReadsBack u text ty :=
    fun _ member => reloaded_found reloads loaded counts member
  have again : ∀ text ty, m.ReadsBack u text ty → m.typeText ty = TypeText.respaced text ∧
      ∃ t, readTypeText text = .ok t ∧ readTypeText (m.typeText ty) = .ok t := by
    intro text ty back
    obtain ⟨t,parsed,shown⟩ := reloaded_printed reloads loaded counts back
    rw [shown]
    have parsedAgain := TypeText.parse_printed parsed
    exact ⟨TypeText.printed_visible parsed,t,readTypeText_ok.mpr parsed,readTypeText_ok.mpr parsedAgain⟩
  refine ⟨found,again,?_,fun print prints => ?_⟩
  · intro text ty other ty' back back' same
    rw [(again text ty back).1,(again other ty' back').1,TypeText.respaced,TypeText.respaced,same]
  · rw [Universe.mapTypes_compile fun text member => ?_,compiled]
    obtain ⟨ty,back⟩ := found text member
    obtain ⟨_,t,read,readAgain⟩ := again text ty back
    rw [prints text ty back,read,readAgain]

-- Two parameters whose types differ in their blanks alone.
def loose : Universe where
  interfaces := []
  protocols := []
  structs := [⟨"P",[⟨"x"," f64"⟩]⟩]
  functions := [⟨"f",["block < id(struct< P >,id<f>)>","block<id( struct<P>, id<f> )>"],"id"⟩]

theorem loose_types : TypeRef.parse " f64" = .ok (.scalar .f64) ∧ TypeRef.parse "id" = .ok (.object none) ∧
    TypeRef.parse "block < id(struct< P >,id<f>)>" = .ok (.block (.object none) [.struct "P",.object (some "f")]) ∧
    TypeRef.parse "block<id( struct<P>, id<f> )>" = .ok (.block (.object none) [.struct "P",.object (some "f")]) := by
  refine ⟨parse_tokens [.word "f64" 1] (by decide +kernel) (by cbv),
    parse_tokens [.word "id" 0] (by decide +kernel) (by cbv),
    parse_tokens [.word "block" 0,.mark '<' 6,.word "id" 8,.mark '(' 10,.word "struct" 11,.mark '<' 17,.word "P" 19,
      .mark '>' 21,.mark ',' 22,.word "id" 23,.mark '<' 25,.word "f" 26,.mark '>' 27,.mark ')' 28,.mark '>' 29]
      (by decide +kernel) (by cbv),
    parse_tokens [.word "block" 0,.mark '<' 5,.word "id" 6,.mark '(' 8,.word "struct" 10,.mark '<' 16,.word "P" 17,
      .mark '>' 18,.mark ',' 19,.word "id" 21,.mark '<' 23,.word "f" 24,.mark '>' 25,.mark ')' 27,.mark '>' 28]
      (by decide +kernel) (by cbv)⟩

theorem loose_compiled : loose.compile.map (·.size) = .ok 146 := by
  obtain ⟨f64,object,first,second⟩ := loose_types
  have declarations : loose.declarations = [.struct _,.function _] := rfl
  unfold Universe.compile Universe.resolve
  simp only [declarations,List.map_cons,List.map_nil,placeDeclarations,List.mapM_cons,List.mapM_nil,Scope.describe,
    Scope.readSignature,readType_parsed f64,readType_parsed object,readType_parsed first,readType_parsed second]
  cbv

theorem loose_parsed : ∀ text ∈ loose.typeTexts, ∀ t, TypeRef.parse text = .ok t → t.Fits nestingLimit ∧ ¬t.Overfull := by
  obtain ⟨f64,object,first,second⟩ := loose_types
  have texts : loose.typeTexts =
    [" f64","id","block < id(struct< P >,id<f>)>","block<id( struct<P>, id<f> )>"] := rfl
  have block : (TypeExpr.block (.object none) [.struct "P",.object (some "f")] : TypeRef).Fits nestingLimit ∧
      ¬(TypeExpr.block (.object none) [.struct "P",.object (some "f")] : TypeRef).Overfull :=
    ⟨⟨by decide,trivial,trivial,trivial,trivial⟩,by simp [TypeExpr.Overfull,TypeExpr.AnyOverfull]⟩
  intro text member t parsed
  rw [texts] at member
  simp only [List.mem_cons,List.not_mem_nil,or_false] at member
  rcases member with rfl | rfl | rfl | rfl
  · cases f64.symm.trans parsed; exact ⟨trivial,id⟩
  · cases object.symm.trans parsed; exact ⟨trivial,id⟩
  · cases first.symm.trans parsed; exact block
  · cases second.symm.trans parsed; exact block

theorem loose_types_print_back : ∃ file m, loose.compile = .ok file ∧ Metadata.ofBytes file = .ok m ∧
    loose.CountsParameters ∧
    (∃ ty, m.ReadsBack loose "block < id(struct< P >,id<f>)>" ty ∧ m.typeText ty = "block<id(struct<P>, id<f>)>") ∧
    (loose.mapTypes TypeText.respaced).compile = .ok file := by
  obtain ⟨file,compiled,size⟩ := map_ok.mp loose_compiled
  have small : file.size < 2^32 := by rw [size]; decide
  have counts : loose.CountsParameters := fun text member t parsed => (loose_parsed text member t parsed).2
  obtain ⟨placed,resolves,joined⟩ := bind_ok.mp compiled
  obtain rfl := pure_ok.mp joined
  have laid := resolved_laid (resolve_ok resolves) small fun text member t parsed => (loose_parsed text member t parsed).1
  obtain ⟨m,loaded,_⟩ := Metadata.file_loads laid small
  obtain ⟨found,printed,_,same⟩ := types_print_back compiled loaded counts
  obtain ⟨ty,back⟩ := found "block < id(struct< P >,id<f>)>" (by decide)
  have shown : TypeText.respaced "block < id(struct< P >,id<f>)>" = "block<id(struct<P>, id<f>)>" := by decide +kernel
  exact ⟨_,m,compiled,loaded,counts,⟨ty,back,(printed _ ty back).1.trans shown⟩,
    same _ fun text ty back => (printed text ty back).1.symm⟩

end Metadata
end ObjectBridge
