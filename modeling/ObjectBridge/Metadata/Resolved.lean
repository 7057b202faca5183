import ObjectBridge.Metadata.Descriptor
import ObjectBridge.Metadata.Layout
import ObjectBridge.Metadata.Universe

namespace ObjectBridge

inductive Declaration where
  | interface (decl : InterfaceDecl)
  | protocol (decl : ProtocolDecl)
  | struct (decl : StructDecl)
  | function (decl : FunctionDecl)

namespace Declaration

def name : Declaration → String
  | .interface d => d.name
  | .protocol d => d.name
  | .struct d => d.name
  | .function d => d.name

def kind : Declaration → DescriptorKind
  | .interface _ => .interface
  | .protocol _ => .protocol
  | .struct _ => .struct
  | .function _ => .function

end Declaration

def Universe.declarations (u : Universe) : List Declaration :=
  u.interfaces.map .interface ++ u.protocols.map .protocol ++ u.structs.map .struct
    ++ u.functions.map .function

def MethodDecl.texts (m : MethodDecl) : List String := [m.name, m.selector]

def PropertyDecl.texts (p : PropertyDecl) : List String :=
  [p.name, p.getterSelector] ++ if p.isReadonly then [] else [p.setterSelector]

-- The texts that a declaration keeps in the file.
def Declaration.texts : Declaration → List String
  | .interface d => d.name :: (d.methods.flatMap (·.texts) ++ d.properties.flatMap (·.texts))
  | .protocol d => d.name :: (d.methods.flatMap (·.texts) ++ d.properties.flatMap (·.texts))
  | .struct d => d.name :: d.fields.map (·.name)
  | .function d => [d.name]

-- The length of a text is kept in two bytes.
def Layout.textLimit : Nat := 65535

def checkText (text : String) : Except SchemaError Unit :=
  if text.utf8ByteSize ≤ Layout.textLimit then .ok ()
  else .error (.tooMany (String.ofList (text.toList.take 32)) "bytes" text.utf8ByteSize)

-- Every text once, in the order of first use.
def Universe.texts (u : Universe) : List String := (u.declarations.flatMap (·.texts)).eraseDups

namespace Layout

def textSize (text : String) : Nat := 2 + text.utf8ByteSize

def textsSize (texts : List String) : Nat := (texts.map textSize).foldr (· + ·) 0

-- The place of a text among the texts of a file.
def textPlace (texts : List String) (text : String) : Nat :=
  headerSize + textsSize (texts.takeWhile (· ≠ text))

def descriptorStart (u : Universe) : Nat :=
  headerSize + textsSize u.texts + indexSize u.declarations.length

end Layout

def placeDeclarations (start : Nat) : List Declaration → List (DescriptorId × Declaration)
  | [] => []
  | d :: rest => (⟨start⟩, d) :: placeDeclarations (start + d.kind.recordSize) rest

abbrev Scope := List (String × DescriptorId × DescriptorKind)

def Scope.of (placed : List (DescriptorId × Declaration)) : Scope :=
  placed.map fun (id, d) => (d.name, id, d.kind)

namespace Scope

def any (scope : Scope) (name : String) : Except SchemaError DescriptorId :=
  match scope.lookup name with
  | some (id, _) => .ok id
  | none => .error (.unknownType name)

def ofKind (scope : Scope) (kind : DescriptorKind) (name : String) :
    Except SchemaError DescriptorId :=
  match scope.lookup name with
  | some (id, k) => if k = kind then .ok id else .error (.unknownType name)
  | none => .error (.unknownType name)

-- A structure type needs a structure; any declaration will do for an object.
def resolve (scope : Scope) (ty : TypeRef) : Except SchemaError TypeEncoding :=
  TypeExpr.resolve scope.any (scope.ofKind .struct) ty

end Scope

def TypeTextError.toSchemaError (text : String) : TypeTextError → SchemaError
  | .malformed fault column => .badType text fault column
  | .unknownWord word => .unknownType word

def readTypeText (text : String) : Except SchemaError TypeRef :=
  match TypeRef.parse text with
  | .ok ty => .ok ty
  | .error e => .error (e.toSchemaError text)

namespace Scope

def readType (scope : Scope) (text : String) : Except SchemaError TypeEncoding := do
  scope.resolve (← readTypeText text)

-- The number of parameters is kept in one byte.
def readSignature (scope : Scope) (owner : String) (params : List String) (result : String) :
    Except SchemaError CallSignature := do
  if 255 < params.length then throw (.tooMany owner "parameters" params.length)
  let result ← scope.readType result
  return ⟨result, ← params.mapM scope.readType⟩

def readMethod (scope : Scope) (owner : String) (m : MethodDecl) : Except SchemaError Method := do
  return {
    name := m.name
    selector := m.selector
    flags := (if m.isStatic then Method.staticFlag else 0)
      ||| (if m.ownsResult then Method.ownsResultFlag else 0)
      ||| (if m.isInitializer then Method.initializerFlag else 0)
      ||| (if m.isOptional then Method.optionalFlag else 0)
    signature := ← scope.readSignature owner m.params m.result }

-- A property is read by a method without parameters and written by one without result.
def readProperty (scope : Scope) (p : PropertyDecl) : Except SchemaError Property := do
  let type ← scope.readType p.type
  let flags := if p.isStatic then Method.staticFlag else 0
  return {
    name := p.name
    flags := (if p.isStatic then Property.staticFlag else 0)
      ||| (if p.isReadonly then Property.readonlyFlag else 0)
    getter := some ⟨p.name, p.getterSelector, flags, ⟨type, []⟩⟩
    setter := if p.isReadonly then none
      else some ⟨p.name, p.setterSelector, flags, ⟨.void, [type]⟩⟩
    type := type }

def readMembers (scope : Scope) (owner : String) (protocols : List String)
    (methods : List MethodDecl) (properties : List PropertyDecl) : Except SchemaError Members := do
  return {
    protocols := ← protocols.mapM (scope.ofKind .protocol)
    methods := ← methods.mapM (scope.readMethod owner)
    properties := ← properties.mapM scope.readProperty }

def describe (scope : Scope) : Declaration → Except SchemaError Descriptor
  | .interface d => do
    let base ← d.base.mapM (scope.ofKind .interface)
    return .interface d.name base
      (← scope.readMembers d.name d.protocols d.methods d.properties)
  | .protocol d => do
    return .protocol d.name (← scope.readMembers d.name d.protocols d.methods d.properties)
  | .struct d => do
    return .struct d.name (← d.fields.mapM fun field =>
      return ⟨field.name, ← scope.readType field.type⟩)
  | .function d => do return .function d.name (← scope.readSignature d.name d.params d.result)

end Scope

-- The first name that stands among those before it.
def firstRepeated? (seen : List String) : List String → Option String
  | [] => none
  | name :: rest => if name ∈ seen then some name else firstRepeated? (name :: seen) rest

-- The descriptors of the file to be, each at its place.
def Universe.resolve (u : Universe) : Except SchemaError (List (DescriptorId × Descriptor)) := do
  u.texts.forM checkText
  match firstRepeated? [] (u.declarations.map (·.name)) with
  | some name => throw (.duplicate name)
  | none =>
    let placed := placeDeclarations (Layout.descriptorStart u) u.declarations
    placed.mapM fun (id, d) => do return (id, ← (Scope.of placed).describe d)

end ObjectBridge
