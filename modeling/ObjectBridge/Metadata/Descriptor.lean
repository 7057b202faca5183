import ObjectBridge.Metadata.TypeExpr
import ObjectBridge.Text.Hex

namespace ObjectBridge

structure DescriptorId where
  offset : Nat
  deriving DecidableEq, Repr, Inhabited

def DescriptorId.text (id : DescriptorId) : String := "@" ++ Hex.marked id.offset

instance : LT DescriptorId := ⟨fun a b => a.offset < b.offset⟩

instance : DecidableLT DescriptorId := fun a b => inferInstanceAs (Decidable (a.offset < b.offset))

abbrev TypeEncoding := TypeExpr DescriptorId

abbrev CallSignature := Signature DescriptorId

inductive DescriptorKind where
  | interface
  | protocol
  | struct
  | function
  deriving DecidableEq, Repr, Inhabited

namespace DescriptorKind

def title : DescriptorKind → String
  | .interface => "Interface"
  | .protocol => "Protocol"
  | .struct => "Struct"
  | .function => "Function"

def word : DescriptorKind → String
  | .interface => "interface"
  | .protocol => "protocol"
  | .struct => "struct"
  | .function => "function"

end DescriptorKind

structure Method where
  name : String
  selector : String
  flags : UInt8
  signature : CallSignature
  deriving Repr, Inhabited

namespace Method

def staticFlag : UInt8 := 1

def ownsResultFlag : UInt8 := 2

def initializerFlag : UInt8 := 4

def optionalFlag : UInt8 := 8

def isStatic (m : Method) : Bool := m.flags &&& staticFlag ≠ 0

-- The caller is handed a reference of its own to the object that comes back.
def ownsResult (m : Method) : Bool := m.flags &&& ownsResultFlag ≠ 0

def isInitializer (m : Method) : Bool := m.flags &&& initializerFlag ≠ 0

def isOptional (m : Method) : Bool := m.flags &&& optionalFlag ≠ 0

end Method

structure Property where
  name : String
  flags : UInt8
  getter : Option Method
  setter : Option Method
  type : TypeEncoding
  deriving Repr, Inhabited

namespace Property

def staticFlag : UInt8 := 1

def readonlyFlag : UInt8 := 2

def isStatic (p : Property) : Bool := p.flags &&& staticFlag ≠ 0

def isReadonly (p : Property) : Bool := p.flags &&& readonlyFlag ≠ 0

end Property

structure Field where
  name : String
  type : TypeEncoding
  deriving Repr, Inhabited

structure Members where
  protocols : List DescriptorId
  methods : List Method
  properties : List Property
  deriving Repr, Inhabited

inductive Descriptor where
  | interface (name : String) (base : Option DescriptorId) (members : Members)
  | protocol (name : String) (members : Members)
  | struct (name : String) (fields : List Field)
  | function (name : String) (signature : CallSignature)
  deriving Repr, Inhabited

namespace Descriptor

def name : Descriptor → String
  | .interface name _ _ | .protocol name _ | .struct name _ | .function name _ => name

def kind : Descriptor → DescriptorKind
  | .interface .. => .interface
  | .protocol .. => .protocol
  | .struct .. => .struct
  | .function .. => .function

-- Structures and functions have none.
def members : Descriptor → Members
  | .interface _ _ members | .protocol _ members => members
  | _ => ⟨[], [], []⟩

def methods (d : Descriptor) : List Method := d.members.methods

def properties (d : Descriptor) : List Property := d.members.properties

end Descriptor

def Property.references (p : Property) : List DescriptorId :=
  (p.getter.map (·.signature.references)).getD []
    ++ (p.setter.map (·.signature.references)).getD []
    ++ p.type.references

def Members.references (m : Members) : List DescriptorId :=
  m.protocols ++ m.methods.flatMap (·.signature.references) ++ m.properties.flatMap (·.references)

-- Every descriptor that this one refers to, in the order of its parts.
def Descriptor.references : Descriptor → List DescriptorId
  | .interface _ base members => base.toList ++ members.references
  | .protocol _ members => members.references
  | .struct _ fields => fields.flatMap (·.type.references)
  | .function _ signature => signature.references

end ObjectBridge
