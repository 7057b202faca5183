import ObjectBridge.Json.Value
import ObjectBridge.Metadata.Metadata

namespace ObjectBridge

namespace Listing

private def texts (name : String) (items : List String) : List (String × Json) :=
  if items.isEmpty then [] else [(name, .array (items.map .string))]

private def optional (name : String) (text : Option String) : List (String × Json) :=
  (text.map fun t => (name, Json.string t)).toList

private def group (name : String) (items : List Json) : List (String × Json) :=
  if items.isEmpty then [] else [(name, .array items)]

private def member (name type : String) (flags : List (Bool × String)) : Json :=
  .object ([("name", .string name), ("type", .string type)]
    ++ texts "flags" ((flags.filter (·.1)).map (·.2)))

def method (m : Metadata) (x : Method) : Json :=
  member (x.name ++ " (" ++ x.selector ++ ")") (m.signatureText x.signature)
    [(x.isStatic, "static"), (x.isInitializer, "initializer"), (x.ownsResult, "owning"),
      (x.isOptional, "optional")]

def property (m : Metadata) (x : Property) : Json :=
  member x.name (m.typeText x.type) [(x.isStatic, "static"), (x.isReadonly, "readonly")]

def field (m : Metadata) (x : Field) : Json := member x.name (m.typeText x.type) []

-- A reference by name; by place where there is no descriptor.
def reference (m : Metadata) (id : DescriptorId) : String :=
  ((m.descriptor? id).map (·.name)).getD id.text

def descriptor (m : Metadata) (id : DescriptorId) (d : Descriptor) : Json :=
  let base := match d with
    | .interface _ base _ => base.map (reference m)
    | _ => none
  let fields := match d with
    | .struct _ fields => fields.map (field m)
    | _ => []
  let signature := match d with
    | .function _ signature => some (m.signatureText signature)
    | _ => none
  .object ([("id", .string id.text), ("name", .string d.name), ("kind", .string d.kind.word)]
    ++ optional "base" base
    ++ texts "protocols" (d.members.protocols.map (reference m))
    ++ group "methods" (d.methods.map (method m))
    ++ group "properties" (d.properties.map (property m))
    ++ group "fields" fields
    ++ optional "signature" signature)

end Listing

namespace Metadata

def listing (m : Metadata) : Json :=
  .array (m.named.map fun (id, d) => Listing.descriptor m id d)

def listingText (m : Metadata) (pretty : Bool) : String :=
  if pretty then m.listing.pretty 0 else m.listing.compact

end Metadata

end ObjectBridge
