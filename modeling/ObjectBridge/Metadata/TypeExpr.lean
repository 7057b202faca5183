import ObjectBridge.Number.IntKind

namespace ObjectBridge

inductive Scalar where
  | void
  | bool
  | int (kind : IntKind)
  | f32
  | f64
  | string
  | classRef
  | pointer
  deriving DecidableEq, Repr, Inhabited

namespace Scalar

def name : Scalar → String
  | .void => "void"
  | .bool => "bool"
  | .int kind => kind.name
  | .f32 => "f32"
  | .f64 => "f64"
  | .string => "string"
  | .classRef => "class"
  | .pointer => "pointer"

def all : List Scalar :=
  [.void, .bool, .int .i8, .int .i16, .int .i32, .int .i64, .int .u8, .int .u16, .int .u32,
    .int .u64, .f32, .f64, .string, .classRef, .pointer]

def ofName? (word : String) : Option Scalar := all.find? (·.name = word)

end Scalar

-- A scalar, an object of a declared type or of any, a structure, or a block of code.
inductive TypeExpr (ρ : Type) where
  | scalar (s : Scalar)
  | object (target : Option ρ)
  | struct (target : ρ)
  | block (result : TypeExpr ρ) (params : List (TypeExpr ρ))
  deriving Repr, Inhabited

structure Signature (ρ : Type) where
  result : TypeExpr ρ
  params : List (TypeExpr ρ)
  deriving Repr, Inhabited

def Signature.arity (sig : Signature ρ) : Nat := sig.params.length

namespace TypeExpr

abbrev void : TypeExpr ρ := .scalar .void

def isVoid : TypeExpr ρ → Bool
  | .scalar .void => true
  | _ => false

def isPrimitive : TypeExpr ρ → Bool
  | .scalar .classRef => false
  | .scalar _ => true
  | _ => false

mutual

def text (name : ρ → String) : TypeExpr ρ → String
  | .scalar s => s.name
  | .object none => "id"
  | .object (some target) => "id<" ++ name target ++ ">"
  | .struct target => "struct<" ++ name target ++ ">"
  | .block result params =>
    "block<" ++ result.text name ++ "(" ++ ", ".intercalate (texts name params) ++ ")>"

def texts (name : ρ → String) : List (TypeExpr ρ) → List String
  | [] => []
  | ty :: rest => ty.text name :: texts name rest

end

mutual

-- What the type refers to, from left to right.
def references : TypeExpr ρ → List ρ
  | .scalar _ | .object none => []
  | .object (some target) | .struct target => [target]
  | .block result params => result.references ++ referencesAll params

def referencesAll : List (TypeExpr ρ) → List ρ
  | [] => []
  | ty :: rest => ty.references ++ referencesAll rest

end

mutual

-- The same type with its references looked up, from left to right.
def resolve (object struct : ρ → Except ε τ) : TypeExpr ρ → Except ε (TypeExpr τ)
  | .scalar s => .ok (.scalar s)
  | .object none => .ok (.object none)
  | .object (some target) => (object target).map (.object ∘ some)
  | .struct target => (struct target).map .struct
  | .block result params => do
    let result ← result.resolve object struct
    return .block result (← resolveAll object struct params)

def resolveAll (object struct : ρ → Except ε τ) :
    List (TypeExpr ρ) → Except ε (List (TypeExpr τ))
  | [] => .ok []
  | ty :: rest => do
    let ty ← ty.resolve object struct
    return ty :: (← resolveAll object struct rest)

end

end TypeExpr

namespace Signature

def text (name : ρ → String) (sig : Signature ρ) : String :=
  sig.result.text name ++ "(" ++ ", ".intercalate (TypeExpr.texts name sig.params) ++ ")"

def references (sig : Signature ρ) : List ρ :=
  sig.result.references ++ TypeExpr.referencesAll sig.params

end Signature

end ObjectBridge
