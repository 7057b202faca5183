import ObjectBridge.Json.Decode
import ObjectBridge.Json.Reader
import ObjectBridge.Metadata.Error
import ObjectBridge.Text.UpperCase

namespace ObjectBridge

structure MethodDecl where
  -- What scripts call the method.
  name : String
  selector : String
  params : List String
  result : String
  isStatic : Bool
  ownsResult : Bool
  isInitializer : Bool
  isOptional : Bool
  deriving DecidableEq, Repr

structure PropertyDecl where
  name : String
  type : String
  isStatic : Bool
  isReadonly : Bool
  getter : Option String
  setter : Option String
  deriving DecidableEq, Repr

structure InterfaceDecl where
  name : String
  base : Option String
  protocols : List String
  methods : List MethodDecl
  properties : List PropertyDecl
  deriving DecidableEq, Repr

structure ProtocolDecl where
  name : String
  protocols : List String
  methods : List MethodDecl
  properties : List PropertyDecl
  deriving DecidableEq, Repr

structure FieldDecl where
  name : String
  type : String
  deriving DecidableEq, Repr

structure StructDecl where
  name : String
  fields : List FieldDecl
  deriving DecidableEq, Repr

structure FunctionDecl where
  name : String
  params : List String
  result : String
  deriving DecidableEq, Repr

structure Universe where
  interfaces : List InterfaceDecl
  protocols : List ProtocolDecl
  structs : List StructDecl
  functions : List FunctionDecl
  deriving DecidableEq, Repr

namespace PropertyDecl

-- A getter is selected by the property's name unless the declaration says otherwise.
def getterSelector (p : PropertyDecl) : String := p.getter.getD p.name

-- A setter is selected by `setName:` unless the declaration says otherwise.
def setterSelector (p : PropertyDecl) : String :=
  p.setter.getD ("set" ++ Text.capitalize p.name ++ ":")

end PropertyDecl

private def texts? (j : Json) : Option (List String) := j.toList?.bind (·.mapM Json.toText?)

private def listOf? (decode : Json → Option α) (j : Json) : Option (List α) :=
  j.toList?.bind (·.mapM decode)

private def required (decode : Json → Option α) (field : Option Json) : Option α :=
  field.bind decode

def MethodDecl.ofJson? (j : Json) : Option MethodDecl := do
  let [name, selector, params, result, isStatic, ownsResult, isInitializer, isOptional] ←
    j.fields? ["name", "selector", "params", "returns", "static", "owns_return", "initializer",
      "optional"] | none
  return {
    name := ← required Json.toText? name
    selector := ← required Json.toText? selector
    params := ← Json.orElse [] texts? params
    result := ← Json.orElse "void" Json.toText? result
    isStatic := ← Json.orElse false Json.toBool? isStatic
    ownsResult := ← Json.orElse false Json.toBool? ownsResult
    isInitializer := ← Json.orElse false Json.toBool? isInitializer
    isOptional := ← Json.orElse false Json.toBool? isOptional }

def PropertyDecl.ofJson? (j : Json) : Option PropertyDecl := do
  let [name, type, isStatic, isReadonly, getter, setter] ←
    j.fields? ["name", "type", "static", "readonly", "getter", "setter"] | none
  return {
    name := ← required Json.toText? name
    type := ← required Json.toText? type
    isStatic := ← Json.orElse false Json.toBool? isStatic
    isReadonly := ← Json.orElse false Json.toBool? isReadonly
    getter := ← Json.nullable Json.toText? getter
    setter := ← Json.nullable Json.toText? setter }

def InterfaceDecl.ofJson? (j : Json) : Option InterfaceDecl := do
  let [name, base, protocols, methods, properties] ←
    j.fields? ["name", "base", "protocols", "methods", "properties"] | none
  return {
    name := ← required Json.toText? name
    base := ← Json.nullable Json.toText? base
    protocols := ← Json.orElse [] texts? protocols
    methods := ← Json.orElse [] (listOf? MethodDecl.ofJson?) methods
    properties := ← Json.orElse [] (listOf? PropertyDecl.ofJson?) properties }

def ProtocolDecl.ofJson? (j : Json) : Option ProtocolDecl := do
  let [name, protocols, methods, properties] ←
    j.fields? ["name", "protocols", "methods", "properties"] | none
  return {
    name := ← required Json.toText? name
    protocols := ← Json.orElse [] texts? protocols
    methods := ← Json.orElse [] (listOf? MethodDecl.ofJson?) methods
    properties := ← Json.orElse [] (listOf? PropertyDecl.ofJson?) properties }

def FieldDecl.ofJson? (j : Json) : Option FieldDecl := do
  let [name, type] ← j.fields? ["name", "type"] | none
  return { name := ← required Json.toText? name, type := ← required Json.toText? type }

def StructDecl.ofJson? (j : Json) : Option StructDecl := do
  let [name, fields] ← j.fields? ["name", "fields"] | none
  return {
    name := ← required Json.toText? name
    fields := ← Json.orElse [] (listOf? FieldDecl.ofJson?) fields }

def FunctionDecl.ofJson? (j : Json) : Option FunctionDecl := do
  let [name, params, result] ← j.fields? ["name", "params", "returns"] | none
  return {
    name := ← required Json.toText? name
    params := ← Json.orElse [] texts? params
    result := ← Json.orElse "void" Json.toText? result }

def Universe.ofJson? (j : Json) : Option Universe := do
  let [interfaces, protocols, structs, functions] ←
    j.fields? ["interfaces", "protocols", "structs", "functions"] | none
  return {
    interfaces := ← Json.orElse [] (listOf? InterfaceDecl.ofJson?) interfaces
    protocols := ← Json.orElse [] (listOf? ProtocolDecl.ofJson?) protocols
    structs := ← Json.orElse [] (listOf? StructDecl.ofJson?) structs
    functions := ← Json.orElse [] (listOf? FunctionDecl.ofJson?) functions }

def Universe.parse (text : String) : Except SchemaError Universe :=
  match (Json.parse? text).bind Universe.ofJson? with
  | some u => .ok u
  | none => .error .notJson

end ObjectBridge
