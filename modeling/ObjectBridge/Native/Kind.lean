import ObjectBridge.Metadata.TypeExpr

namespace ObjectBridge

inductive NativeKind where
  | void
  | bool
  | int (kind : IntKind)
  | f32
  | f64
  | cstring
  | object
  | classRef
  | block
  | struct
  | pointer
  deriving DecidableEq, Repr, Inhabited

namespace NativeKind

def name : NativeKind → String
  | .void => "Void"
  | .bool => "Bool"
  | .int kind => kind.name.capitalize
  | .f32 => "F32"
  | .f64 => "F64"
  | .cstring => "CString"
  | .object => "Object"
  | .classRef => "Class"
  | .block => "Block"
  | .struct => "Struct"
  | .pointer => "Pointer"

def cName : NativeKind → String
  | .void => "void"
  | .bool => "bool"
  | .int kind => (if kind.isSigned then "int" else "uint") ++ toString kind.bits ++ "_t"
  | .f32 => "float"
  | .f64 => "double"
  | .cstring => "char *"
  | .object => "id"
  | .classRef => "Class"
  | .block => "block"
  | .struct => "struct"
  | .pointer => "void *"

-- In bytes; zero for what has no slot of its own.
def size : NativeKind → Nat
  | .void | .struct => 0
  | .bool => 1
  | .int kind => kind.bits / 8
  | .f32 => 4
  | _ => 8

def alignment (k : NativeKind) : Nat := max 1 k.size

def isIntegral : NativeKind → Bool
  | .int _ => true
  | _ => false

def isFloating : NativeKind → Bool
  | .f32 | .f64 => true
  | _ => false

end NativeKind

-- The kind of slot that a type travels in.
def TypeExpr.nativeKind : TypeExpr ρ → NativeKind
  | .scalar .void => .void
  | .scalar .bool => .bool
  | .scalar (.int kind) => .int kind
  | .scalar .f32 => .f32
  | .scalar .f64 => .f64
  | .scalar .string => .cstring
  | .scalar .classRef => .classRef
  | .scalar .pointer => .pointer
  | .object _ => .object
  | .struct _ => .struct
  | .block .. => .block

end ObjectBridge
