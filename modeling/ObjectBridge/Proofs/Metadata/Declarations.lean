import ObjectBridge.Proofs.Metadata.RecordBytes

namespace ObjectBridge
open Outcome

-- A name, the place of its declaration and of what kind that is.
abbrev Meaning := String → DescriptorId → DescriptorKind → Prop

section Presents

variable (stands : Meaning)

-- Object types take a declaration of any kind, structure types a structure.
mutual

inductive Spells : TypeRef → TypeEncoding → Prop where
  | scalar (s : Scalar) : Spells (.scalar s) (.scalar s)
  | anyObject : Spells (.object none) (.object none)
  | object {name : String} {id : DescriptorId} {kind : DescriptorKind} (known : stands name id kind) :
      Spells (.object (some name)) (.object (some id))
  | struct {name : String} {id : DescriptorId} (known : stands name id .struct) : Spells (.struct name) (.struct id)
  | block {result : TypeRef} {result' : TypeEncoding} {params : List TypeRef} {params' : List TypeEncoding}
      (first : Spells result result') (others : SpellsAll params params') :
      Spells (.block result params) (.block result' params')

inductive SpellsAll : List TypeRef → List TypeEncoding → Prop where
  | nil : SpellsAll [] []
  | cons {ty : TypeRef} {ty' : TypeEncoding} {rest : List TypeRef} {rest' : List TypeEncoding}
      (first : Spells ty ty') (others : SpellsAll rest rest') : SpellsAll (ty :: rest) (ty' :: rest')

end

def Spelled (text : String) (ty : TypeEncoding) : Prop := ∃ t, TypeRef.parse text = .ok t ∧ Spells stands t ty

structure PresentsSignature (params : List String) (result : String) (sig : CallSignature) : Prop where
  result : Spelled stands result sig.result
  params : List.Forall₂ (Spelled stands) params sig.params
  counted : sig.params.length ≤ 255

structure PresentsMethod (decl : MethodDecl) (m : Method) : Prop where
  name : m.name = decl.name
  selector : m.selector = decl.selector
  isStatic : m.isStatic = decl.isStatic
  ownsResult : m.ownsResult = decl.ownsResult
  isInitializer : m.isInitializer = decl.isInitializer
  isOptional : m.isOptional = decl.isOptional
  signature : PresentsSignature stands decl.params decl.result m.signature

-- A method by which a property is read or written.
structure PresentsAccessor (decl : PropertyDecl) (selector : String) (signature : CallSignature) (m : Method) :
    Prop where
  name : m.name = decl.name
  selector : m.selector = selector
  isStatic : m.isStatic = decl.isStatic
  signature : m.signature = signature

structure PresentsProperty (decl : PropertyDecl) (p : Property) : Prop where
  name : p.name = decl.name
  isStatic : p.isStatic = decl.isStatic
  isReadonly : p.isReadonly = decl.isReadonly
  type : Spelled stands decl.type p.type
  getter : ∃ m, p.getter = some m ∧ PresentsAccessor decl decl.getterSelector ⟨p.type,[]⟩ m
  setter : if decl.isReadonly then p.setter = none
    else ∃ m, p.setter = some m ∧ PresentsAccessor decl decl.setterSelector ⟨.void,[p.type]⟩ m

structure PresentsField (decl : FieldDecl) (f : Field) : Prop where
  name : f.name = decl.name
  type : Spelled stands decl.type f.type

structure PresentsMembers (protocols : List String) (methods : List MethodDecl) (properties : List PropertyDecl)
    (m : Members) : Prop where
  protocols : List.Forall₂ (fun name id => stands name id .protocol) protocols m.protocols
  methods : List.Forall₂ (PresentsMethod stands) methods m.methods
  properties : List.Forall₂ (PresentsProperty stands) properties m.properties

def Presents : Declaration → Descriptor → Prop
  | .interface decl, .interface name base members =>
    name = decl.name ∧ Option.Rel (fun name id => stands name id .interface) decl.base base ∧
      PresentsMembers stands decl.protocols decl.methods decl.properties members
  | .protocol decl, .protocol name members =>
    name = decl.name ∧ PresentsMembers stands decl.protocols decl.methods decl.properties members
  | .struct decl, .struct name fields => name = decl.name ∧ List.Forall₂ (PresentsField stands) decl.fields fields
  | .function decl, .function name signature =>
    name = decl.name ∧ PresentsSignature stands decl.params decl.result signature
  | _, _ => False

end Presents

variable {stands : Meaning} {scope : Scope}

theorem any_ok {name : String} {id : DescriptorId} (found : scope.any name = .ok id) :
    ∃ kind, scope.lookup name = some (id,kind) := by
  unfold Scope.any at found
  split at found
  · rename_i kind known
    cases found
    exact ⟨kind,known⟩
  · cases found

theorem ofKind_ok {kind : DescriptorKind} {name : String} {id : DescriptorId}
    (found : scope.ofKind kind name = .ok id) : scope.lookup name = some (id,kind) := by
  unfold Scope.ofKind at found
  split at found
  · rename_i other known
    split at found
    · rename_i same
      cases found
      rw [known,same]
    · cases found
  · cases found

-- Whatever the scope knows a name for, it stands for.
def Scope.Knows (scope : Scope) (stands : Meaning) : Prop :=
  ∀ name id kind, scope.lookup name = some (id,kind) → stands name id kind

mutual

theorem resolve_spells (knows : scope.Knows stands) (t : TypeRef) (ty : TypeEncoding)
    (resolved : TypeExpr.resolve scope.any (scope.ofKind .struct) t = .ok ty) : Spells stands t ty := by
  cases t with
  | scalar s => cases resolved; exact .scalar s
  | object target =>
    cases target with
    | none => cases resolved; exact .anyObject
    | some name =>
      obtain ⟨id,found,rfl⟩ := map_ok.mp resolved
      obtain ⟨kind,known⟩ := any_ok found
      exact .object (knows name id kind known)
  | struct name =>
    obtain ⟨id,found,rfl⟩ := map_ok.mp resolved
    exact .struct (knows name id .struct (ofKind_ok found))
  | block result params =>
    obtain ⟨result',first,rest⟩ := bind_ok.mp resolved
    obtain ⟨params',others,joined⟩ := bind_ok.mp rest
    obtain rfl := pure_ok.mp joined
    exact .block (resolve_spells knows result result' first) (resolveAll_spells knows params params' others)

theorem resolveAll_spells (knows : scope.Knows stands) (ts : List TypeRef) (types : List TypeEncoding)
    (resolved : TypeExpr.resolveAll scope.any (scope.ofKind .struct) ts = .ok types) : SpellsAll stands ts types := by
  cases ts with
  | nil => cases resolved; exact .nil
  | cons t rest =>
    obtain ⟨ty,first,more⟩ := bind_ok.mp resolved
    obtain ⟨types',others,joined⟩ := bind_ok.mp more
    obtain rfl := pure_ok.mp joined
    exact .cons (resolve_spells knows t ty first) (resolveAll_spells knows rest types' others)

end

theorem readType_spelled (knows : scope.Knows stands) {text : String} {ty : TypeEncoding} (read : scope.readType text = .ok ty) :
    Spelled stands text ty := by
  obtain ⟨t,parsed,resolved⟩ := bind_ok.mp read
  unfold readTypeText at parsed
  split at parsed
  · rename_i t' whole
    cases parsed
    exact ⟨t,whole,resolve_spells knows t ty resolved⟩
  · cases parsed

theorem readSignature_presents (knows : scope.Knows stands) {owner result : String} {params : List String} {sig : CallSignature}
    (read : scope.readSignature owner params result = .ok sig) : PresentsSignature stands params result sig := by
  unfold Scope.readSignature at read
  obtain ⟨few,read⟩ := guard_ok.mp read
  obtain ⟨result',first,read⟩ := bind_ok.mp read
  obtain ⟨params',others,read⟩ := bind_ok.mp read
  obtain rfl := pure_ok.mp read
  have each := mapM_ok.mp others
  refine ⟨readType_spelled knows first,each.imp fun _ _ one => readType_spelled knows one,?_⟩
  exact each.length_eq ▸ Nat.not_lt.mp few

-- Each flag has a bit of its own.
theorem flag_bits : ∀ isStatic ownsResult isInitializer isOptional : Bool,
    let flags := (if isStatic then Method.staticFlag else 0) ||| (if ownsResult then Method.ownsResultFlag else 0)
      ||| (if isInitializer then Method.initializerFlag else 0) ||| (if isOptional then Method.optionalFlag else 0)
    decide (flags &&& Method.staticFlag ≠ 0) = isStatic ∧ decide (flags &&& Method.ownsResultFlag ≠ 0) = ownsResult ∧
      decide (flags &&& Method.initializerFlag ≠ 0) = isInitializer ∧
      decide (flags &&& Method.optionalFlag ≠ 0) = isOptional := by
  decide

theorem readMethod_presents (knows : scope.Knows stands) {owner : String} {decl : MethodDecl} {m : Method}
    (read : scope.readMethod owner decl = .ok m) : PresentsMethod stands decl m := by
  obtain ⟨signature,sig,read⟩ := bind_ok.mp read
  obtain rfl := pure_ok.mp read
  obtain ⟨isStatic,ownsResult,isInitializer,isOptional⟩ :=
    flag_bits decl.isStatic decl.ownsResult decl.isInitializer decl.isOptional
  exact ⟨rfl,rfl,isStatic,ownsResult,isInitializer,isOptional,readSignature_presents knows sig⟩

theorem property_bits : ∀ isStatic isReadonly : Bool,
    let flags := (if isStatic then Property.staticFlag else 0) ||| (if isReadonly then Property.readonlyFlag else 0)
    decide ((if isStatic then Method.staticFlag else 0) &&& Method.staticFlag ≠ 0) = isStatic ∧
      decide (flags &&& Property.staticFlag ≠ 0) = isStatic ∧
      decide (flags &&& Property.readonlyFlag ≠ 0) = isReadonly := by
  decide

theorem readProperty_presents (knows : scope.Knows stands) {decl : PropertyDecl} {p : Property}
    (read : scope.readProperty decl = .ok p) : PresentsProperty stands decl p := by
  obtain ⟨type,typeRead,read⟩ := bind_ok.mp read
  obtain rfl := pure_ok.mp read
  obtain ⟨accessorStatic,isStatic,isReadonly⟩ := property_bits decl.isStatic decl.isReadonly
  refine ⟨rfl,isStatic,isReadonly,readType_spelled knows typeRead,⟨_,rfl,rfl,rfl,accessorStatic,rfl⟩,?_⟩
  cases readonly : decl.isReadonly with
  | true => rfl
  | false => exact ⟨_,rfl,rfl,rfl,accessorStatic,rfl⟩

theorem readMembers_presents (knows : scope.Knows stands) {owner : String} {protocols : List String}
    {methods : List MethodDecl} {properties : List PropertyDecl} {m : Members}
    (read : scope.readMembers owner protocols methods properties = .ok m) :
    PresentsMembers stands protocols methods properties m := by
  obtain ⟨protocols',protocolsRead,read⟩ := bind_ok.mp read
  obtain ⟨methods',methodsRead,read⟩ := bind_ok.mp read
  obtain ⟨properties',propertiesRead,read⟩ := bind_ok.mp read
  obtain rfl := pure_ok.mp read
  refine ⟨(mapM_ok.mp protocolsRead).imp ?_,(mapM_ok.mp methodsRead).imp ?_,(mapM_ok.mp propertiesRead).imp ?_⟩
  · intro name id found
    exact knows name id .protocol (ofKind_ok found)
  · intro decl m one
    exact readMethod_presents knows one
  · intro decl p one
    exact readProperty_presents knows one

theorem describe_presents (knows : scope.Knows stands) {decl : Declaration} {d : Descriptor}
    (described : scope.describe decl = .ok d) : Presents stands decl d := by
  cases decl with
  | interface decl =>
    obtain ⟨base,baseRead,described⟩ := bind_ok.mp described
    obtain ⟨members,membersRead,described⟩ := bind_ok.mp described
    obtain rfl := pure_ok.mp described
    refine ⟨rfl,?_,readMembers_presents knows membersRead⟩
    have related := option_mapM_ok.mp baseRead
    generalize decl.base = named at related ⊢
    cases related with
    | none => exact .none
    | some found => exact .some (knows _ _ _ (ofKind_ok found))
  | protocol decl =>
    obtain ⟨members,membersRead,described⟩ := bind_ok.mp described
    obtain rfl := pure_ok.mp described
    exact ⟨rfl,readMembers_presents knows membersRead⟩
  | struct decl =>
    obtain ⟨fields,fieldsRead,described⟩ := bind_ok.mp described
    obtain rfl := pure_ok.mp described
    refine ⟨rfl,(mapM_ok.mp fieldsRead).imp ?_⟩
    intro field f one
    obtain ⟨type,typeRead,one⟩ := bind_ok.mp one
    obtain rfl := pure_ok.mp one
    exact ⟨rfl,readType_spelled knows typeRead⟩
  | function decl =>
    obtain ⟨signature,sig,described⟩ := bind_ok.mp described
    obtain rfl := pure_ok.mp described
    exact ⟨rfl,readSignature_presents knows sig⟩

theorem Presents.name_eq {decl : Declaration} {d : Descriptor} (presents : Presents stands decl d) :
    d.name = decl.name := by
  cases decl <;> cases d <;> first | exact presents.elim | exact presents.1

theorem Presents.kind_eq {decl : Declaration} {d : Descriptor} (presents : Presents stands decl d) :
    d.kind = decl.kind := by
  cases decl <;> cases d <;> first | exact presents.elim | rfl

variable {P : DescriptorId → Prop}

mutual

theorem Spells.references {t : TypeRef} {ty : TypeEncoding} (known : ∀ name id kind, stands name id kind → P id)
    (spells : Spells stands t ty) : ∀ target ∈ ty.references, P target := by
  cases spells with
  | scalar | anyObject => intro target member; cases member
  | object found =>
    intro target member
    obtain rfl := List.mem_singleton.mp member
    exact known _ _ _ found
  | struct found =>
    intro target member
    obtain rfl := List.mem_singleton.mp member
    exact known _ _ _ found
  | block first others =>
    intro target member
    rcases List.mem_append.mp member with result | params
    · exact first.references known target result
    · exact others.references known target params

theorem SpellsAll.references {ts : List TypeRef} {types : List TypeEncoding}
    (known : ∀ name id kind, stands name id kind → P id) (spells : SpellsAll stands ts types) :
    ∀ target ∈ TypeExpr.referencesAll types, P target := by
  cases spells with
  | nil => intro target member; cases member
  | cons first others =>
    intro target member
    rcases List.mem_append.mp member with one | more
    · exact first.references known target one
    · exact others.references known target more

end

section References

variable (known : ∀ name id kind, stands name id kind → P id)
include known

theorem Spelled.references {text : String} {ty : TypeEncoding} (spelled : Spelled stands text ty) :
    ∀ target ∈ ty.references, P target := by
  obtain ⟨_,_,spells⟩ := spelled
  exact spells.references known

theorem PresentsSignature.references {params : List String} {result : String} {sig : CallSignature}
    (presents : PresentsSignature stands params result sig) : ∀ target ∈ sig.references, P target := by
  intro target member
  rcases List.mem_append.mp member with first | others
  · exact presents.result.references known target first
  · obtain ⟨ty,among,refers⟩ := TypeExpr.mem_referencesAll.mp others
    obtain ⟨text,_,spelled⟩ := related_left presents.params among
    exact spelled.references known target refers

theorem PresentsProperty.references {decl : PropertyDecl} {p : Property} (presents : PresentsProperty stands decl p) :
    ∀ target ∈ p.references, P target := by
  have inType := presents.type.references known
  obtain ⟨getter,getterIs,reads⟩ := presents.getter
  intro target member
  rcases List.mem_append.mp member with accessor | type
  · rcases List.mem_append.mp accessor with get | set
    · rw [getterIs] at get
      change target ∈ getter.signature.references at get
      rw [reads.signature] at get
      rcases List.mem_append.mp get with result | none
      · exact inType target result
      · cases none
    · have setter := presents.setter
      split at setter
      · rw [setter] at set
        cases set
      · obtain ⟨m,setterIs,writes⟩ := setter
        rw [setterIs] at set
        change target ∈ m.signature.references at set
        rw [writes.signature] at set
        rcases List.mem_append.mp set with void | param
        · cases void
        · rcases List.mem_append.mp param with type | none
          · exact inType target type
          · cases none
  · exact inType target type

theorem PresentsMembers.references {protocols : List String} {methods : List MethodDecl}
    {properties : List PropertyDecl} {m : Members} (presents : PresentsMembers stands protocols methods properties m) :
    ∀ target ∈ m.references, P target := by
  intro target member
  rcases List.mem_append.mp member with front | inProperties
  · rcases List.mem_append.mp front with inProtocols | inMethods
    · obtain ⟨name,_,found⟩ := related_left presents.protocols inProtocols
      exact known _ _ _ found
    · obtain ⟨m,among,refers⟩ := List.mem_flatMap.mp inMethods
      obtain ⟨decl,_,one⟩ := related_left presents.methods among
      exact one.signature.references known target refers
  · obtain ⟨p,among,refers⟩ := List.mem_flatMap.mp inProperties
    obtain ⟨decl,_,one⟩ := related_left presents.properties among
    exact one.references known target refers

theorem base_references {named : Option String} {base : Option DescriptorId}
    (related : Option.Rel (fun name id => stands name id .interface) named base) : ∀ target ∈ base.toList, P target := by
  intro target member
  cases related with
  | none => cases member
  | some found =>
    obtain rfl := List.mem_singleton.mp member
    exact known _ _ _ found

theorem Presents.references {decl : Declaration} {d : Descriptor} (presents : Presents stands decl d) :
    ∀ target ∈ d.references, P target := by
  intro target member
  cases decl <;> cases d <;> try exact presents.elim
  case interface.interface =>
    obtain ⟨_,base,members⟩ := presents
    rcases List.mem_append.mp member with first | others
    · exact base_references known base target first
    · exact members.references known target others
  case protocol.protocol => exact presents.2.references known target member
  case struct.struct =>
    obtain ⟨f,among,refers⟩ := List.mem_flatMap.mp member
    obtain ⟨field,_,one⟩ := related_left presents.2 among
    exact one.type.references known target refers
  case function.function => exact presents.2.references known target member

end References

namespace Declaration

def base? : Declaration → Option String
  | .interface d => d.base
  | _ => none

def protocols : Declaration → List String
  | .interface d => d.protocols
  | .protocol d => d.protocols
  | _ => []

def methods : Declaration → List MethodDecl
  | .interface d => d.methods
  | .protocol d => d.methods
  | _ => []

def properties : Declaration → List PropertyDecl
  | .interface d => d.properties
  | .protocol d => d.properties
  | _ => []

def fields : Declaration → List FieldDecl
  | .struct d => d.fields
  | _ => []

-- The parameters of each method, or those of the function.
def parameterRows : Declaration → List (List String)
  | .function d => [d.params]
  | decl => decl.methods.map (·.params)

end Declaration

def MethodDecl.typeTexts (m : MethodDecl) : List String := m.result :: m.params

-- The type texts of a declaration.
def Declaration.typeTexts : Declaration → List String
  | .interface d => d.methods.flatMap (·.typeTexts) ++ d.properties.map (·.type)
  | .protocol d => d.methods.flatMap (·.typeTexts) ++ d.properties.map (·.type)
  | .struct d => d.fields.map (·.type)
  | .function d => d.result :: d.params

-- The blocks of the type that a text stands for are few and small enough to be loaded again.
def Shallow (text : String) : Prop := ∀ t, TypeRef.parse text = .ok t → t.Fits Layout.nestingLimit

-- They are few enough, however many parameters they have.
def Nested (text : String) : Prop := ∀ t, TypeRef.parse text = .ok t → t.Nests Layout.nestingLimit

theorem SpellsAll.length_eq {ts : List TypeRef} {types : List TypeEncoding} (spells : SpellsAll stands ts types) :
    ts.length = types.length := by
  cases spells with
  | nil => rfl
  | cons _ others => exact congrArg (·+1) others.length_eq

mutual

theorem Spells.fits {t : TypeRef} {ty : TypeEncoding} {levels : Nat} (spells : Spells stands t ty)
    (fits : t.Fits levels) : ty.Fits levels := by
  cases spells with
  | scalar | anyObject | object | struct => trivial
  | block first others =>
    cases levels with
    | zero => exact fits.elim
    | succ levels =>
      obtain ⟨few,result,params⟩ := fits
      exact ⟨others.length_eq ▸ few,first.fits result,others.fits params⟩

theorem SpellsAll.fits {ts : List TypeRef} {types : List TypeEncoding} {levels : Nat}
    (spells : SpellsAll stands ts types) (fits : TypeExpr.FitsAll levels ts) : TypeExpr.FitsAll levels types := by
  cases spells with
  | nil => trivial
  | cons first others => exact ⟨first.fits fits.1,others.fits fits.2⟩

end

mutual

theorem Spells.nests {t : TypeRef} {ty : TypeEncoding} {levels : Nat} (spells : Spells stands t ty)
    (nests : t.Nests levels) : ty.Nests levels := by
  cases spells with
  | scalar | anyObject | object | struct => trivial
  | block first others =>
    cases levels with
    | zero => exact nests.elim
    | succ levels => exact ⟨first.nests nests.1,others.nests nests.2⟩

theorem SpellsAll.nests {ts : List TypeRef} {types : List TypeEncoding} {levels : Nat}
    (spells : SpellsAll stands ts types) (nest : TypeExpr.NestsAll levels ts) : TypeExpr.NestsAll levels types := by
  cases spells with
  | nil => trivial
  | cons first others => exact ⟨first.nests nest.1,others.nests nest.2⟩

end

theorem Spelled.readable {text : String} {ty : TypeEncoding}
    (bounded : ∀ name id kind, stands name id kind → id.offset < Layout.nowhere) (spelled : Spelled stands text ty)
    (nested : Nested text) : Blob.Readable ty := by
  have refers := spelled.references bounded
  obtain ⟨t,parsed,spells⟩ := spelled
  exact ⟨spells.nests (nested t parsed),refers⟩

theorem Spelled.whole {text : String} {ty : TypeEncoding} (spelled : Spelled stands text ty) (shallow : Shallow text) :
    ty.kept = ty := by
  obtain ⟨t,parsed,spells⟩ := spelled
  exact (spells.fits (shallow t parsed)).kept

section Fits

variable {Good : TypeEncoding → Prop} {texts : List String}

theorem PresentsAccessor.fits {decl : PropertyDecl} {selector : String} {signature : CallSignature} {m : Method}
    (presents : PresentsAccessor decl selector signature m) (name : decl.name ∈ texts) (selected : selector ∈ texts)
    (fits : Blob.SignatureFits Good signature) : Blob.MethodFits Good texts m := by
  obtain ⟨nameIs,selectorIs,_,signatureIs⟩ := presents
  exact ⟨nameIs ▸ name,selectorIs ▸ selected,signatureIs ▸ fits⟩

theorem PresentsSignature.fits {params : List String} {result : String} {sig : CallSignature}
    (presents : PresentsSignature stands params result sig)
    (good : ∀ text ∈ result :: params, ∀ ty, Spelled stands text ty → Good ty) : Blob.SignatureFits Good sig := by
  refine ⟨presents.counted,good _ List.mem_cons_self _ presents.result,?_⟩
  intro ty member
  obtain ⟨text,among,spelled⟩ := related_left presents.params member
  exact good text (List.mem_cons_of_mem _ among) ty spelled

theorem PresentsMethod.fits {decl : MethodDecl} {m : Method} (presents : PresentsMethod stands decl m)
    (kept : ∀ text ∈ decl.texts, text ∈ texts)
    (good : ∀ text ∈ decl.typeTexts, ∀ ty, Spelled stands text ty → Good ty) : Blob.MethodFits Good texts m := by
  refine ⟨?_,?_,presents.signature.fits good⟩
  · rw [presents.name]
    exact kept _ (by simp [MethodDecl.texts])
  · rw [presents.selector]
    exact kept _ (by simp [MethodDecl.texts])

variable (void : Good .void)
include void

theorem PresentsProperty.fits {decl : PropertyDecl} {p : Property} (presents : PresentsProperty stands decl p)
    (kept : ∀ text ∈ decl.texts, text ∈ texts) (good : ∀ ty, Spelled stands decl.type ty → Good ty) :
    Blob.PropertyFits Good texts p := by
  have name : decl.name ∈ texts := kept _ (by simp [PropertyDecl.texts])
  have getterSelector : decl.getterSelector ∈ texts := kept _ (by simp [PropertyDecl.texts])
  have type := good _ presents.type
  refine ⟨presents.name ▸ name,?_,?_,type⟩
  · obtain ⟨getter,is,reads⟩ := presents.getter
    rw [is]
    rintro m ⟨⟩
    exact reads.fits name getterSelector ⟨Nat.zero_le _,type,fun ty member => nomatch member⟩
  · have setter := presents.setter
    split at setter
    · rw [setter]
      rintro m ⟨⟩
    · rename_i writable
      obtain ⟨m,is,writes⟩ := setter
      have setterSelector : decl.setterSelector ∈ texts := kept _ (by simp [PropertyDecl.texts,writable])
      rw [is]
      rintro m ⟨⟩
      refine writes.fits name setterSelector ⟨show 1 ≤ 255 by decide,void,fun ty member => ?_⟩
      rw [List.mem_singleton.mp member]
      exact type

variable (bounded : ∀ name id kind, stands name id kind → id.offset < Layout.nowhere)
include bounded

theorem PresentsMembers.fits {protocols : List String} {methods : List MethodDecl} {properties : List PropertyDecl}
    {m : Members} (presents : PresentsMembers stands protocols methods properties m)
    (kept : ∀ text ∈ methods.flatMap (·.texts) ++ properties.flatMap (·.texts), text ∈ texts)
    (good : ∀ text ∈ methods.flatMap (·.typeTexts) ++ properties.map (·.type), ∀ ty, Spelled stands text ty → Good ty) :
    Blob.MembersFit Good texts m := by
  refine ⟨?_,?_,?_⟩
  · intro target member
    obtain ⟨name,_,found⟩ := related_left presents.protocols member
    exact bounded _ _ _ found
  · intro method member
    obtain ⟨decl,among,one⟩ := related_left presents.methods member
    refine one.fits (fun text part => kept text ?_) (fun text part => good text ?_)
    · exact List.mem_append_left _ (List.mem_flatMap.mpr ⟨decl,among,part⟩)
    · exact List.mem_append_left _ (List.mem_flatMap.mpr ⟨decl,among,part⟩)
  · intro property member
    obtain ⟨decl,among,one⟩ := related_left presents.properties member
    refine one.fits void (fun text part => kept text ?_) (good _ ?_)
    · exact List.mem_append_right _ (List.mem_flatMap.mpr ⟨decl,among,part⟩)
    · exact List.mem_append_right _ (List.mem_map.mpr ⟨decl,among,rfl⟩)

theorem Presents.fits {decl : Declaration} {d : Descriptor} (presents : Presents stands decl d)
    (kept : ∀ text ∈ decl.texts, text ∈ texts)
    (good : ∀ text ∈ decl.typeTexts, ∀ ty, Spelled stands text ty → Good ty) : Blob.DescriptorFits Good texts d := by
  have name : decl.name ∈ texts := kept _ (by cases decl <;> exact List.mem_cons_self)
  refine ⟨presents.name_eq ▸ name,?_⟩
  cases decl <;> cases d <;> try exact presents.elim
  case interface.interface =>
    obtain ⟨_,base,members⟩ := presents
    refine ⟨base_references bounded base,members.fits void bounded ?_ good⟩
    exact fun text part => kept text (List.mem_cons_of_mem _ part)
  case protocol.protocol =>
    exact presents.2.fits void bounded (fun text part => kept text (List.mem_cons_of_mem _ part)) good
  case struct.struct =>
    intro f member
    obtain ⟨field,among,one⟩ := related_left presents.2 member
    refine ⟨?_,good _ (List.mem_map.mpr ⟨field,among,rfl⟩) _ one.type⟩
    rw [one.name]
    exact kept _ (List.mem_cons_of_mem _ (List.mem_map.mpr ⟨field,among,rfl⟩))
  case function.function => exact presents.2.fits good

end Fits

end ObjectBridge
