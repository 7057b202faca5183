import ObjectBridge.Metadata.Descriptor
import ObjectBridge.Native.Kind
import ObjectBridge.Number.Binary
import ObjectBridge.Registry.Wrapper
import ObjectBridge.Text.Utf8

namespace ObjectBridge

mutual

-- `written` is code of the script itself, `global` calls a described native function, `ofBlock`
-- calls a block. Code may have captured wrappers; whoever owns a function or a block has a handle of
-- each of them for it.
inductive ScriptFunction where
  | written (id : Nat) (name : Option String) (arity : Option Nat) (body : Nat)
    (captured : List Wrapper := [])
  | global (id : Nat) (name : String)
  | ofBlock (id : Nat) (block : NativeBlock) (signature : CallSignature)

inductive NativeBlock where
  | native (id : Nat) (arity : Nat) (body : Routine) (captured : List Wrapper := [])
  | ofFunction (function : ScriptFunction) (signature : CallSignature)

end

instance : Inhabited ScriptFunction := ⟨.global 0 ""⟩

instance : Inhabited NativeBlock := ⟨.native 0 0 ⟨""⟩⟩

namespace ScriptFunction

def id : ScriptFunction → Nat
  | .written id .. | .global id _ | .ofBlock id .. => id

def name : ScriptFunction → Option String
  | .written _ name .. => name
  | .global _ name => some name
  | .ofBlock .. => some "block"

def arity : ScriptFunction → Option Nat
  | .written _ _ arity .. => arity
  | .global .. => none
  | .ofBlock _ _ signature => some signature.arity

end ScriptFunction

namespace NativeBlock

-- A function that is made a block keeps its identity.
def id : NativeBlock → Nat
  | .native id .. => id
  | .ofFunction function _ => function.id

def arity : NativeBlock → Nat
  | .native _ arity .. => arity
  | .ofFunction _ signature => signature.arity

end NativeBlock

mutual

-- The wrappers that code has captured, its own or what it was made of.
def ScriptFunction.wrappers : ScriptFunction → List Wrapper
  | .written _ _ _ _ captured => captured
  | .global .. => []
  | .ofBlock _ block _ => block.wrappers

def NativeBlock.wrappers : NativeBlock → List Wrapper
  | .native _ _ _ captured => captured
  | .ofFunction function _ => function.wrappers

end

inductive NativeValue where
  | void
  | bool (value : Bool)
  | int (kind : IntKind) (value : Int) (inRange : kind.holds value)
  | f32 (value : Single)
  | f64 (value : Double)
  | cstring (bytes : Option (List UInt8))
  | object (address : Address)
  | classRef (id : Option ClassId)
  | block (block : Option NativeBlock)
  | struct (fields : List NativeValue)
  | pointer (address : UInt64)
  deriving Inhabited

namespace NativeValue

def kind : NativeValue → NativeKind
  | .void => .void
  | .bool _ => .bool
  | .int kind _ _ => .int kind
  | .f32 _ => .f32
  | .f64 _ => .f64
  | .cstring _ => .cstring
  | .object _ => .object
  | .classRef _ => .classRef
  | .block _ => .block
  | .struct _ => .struct
  | .pointer _ => .pointer

def ofInt (kind : IntKind) (n : Int) : NativeValue := .int kind (kind.wrap n) (kind.holds_wrap n)

-- Nothing, nil, or an aggregate without fields.
def zero : NativeKind → NativeValue
  | .void => .void
  | .bool => .bool false
  | .int kind => ofInt kind 0
  | .f32 => .f32 .zero
  | .f64 => .f64 .zero
  | .cstring => .cstring none
  | .object => .object .null
  | .classRef => .classRef none
  | .block => .block none
  | .struct => .struct []
  | .pointer => .pointer 0

-- A text with a zero character has no such form.
def ofText? (text : String) : Option NativeValue :=
  let bytes := (Text.encodeUtf8 text).toList
  if 0 ∈ bytes then none else some (.cstring (some bytes))

-- Integers that fit a signed word of 64 bits.
def toInt? : NativeValue → Option Int
  | .int _ n _ => if IntKind.i64.holds n then some n else none
  | _ => none

def toDouble? : NativeValue → Option Double
  | .int _ n _ => some (.ofInt n)
  | .f32 x => some x.toDouble
  | .f64 x => some x
  | _ => none

def toBool? : NativeValue → Option Bool
  | .bool b => some b
  | _ => none

def toAddress? : NativeValue → Option Address
  | .object a => some a
  | _ => none

def toText? : NativeValue → Option String
  | .cstring (some bytes) => (Text.decodeUtf8 bytes.toArray).toOption
  | _ => none

def toBlock? : NativeValue → Option NativeBlock
  | .block b => b
  | _ => none

mutual

-- The wrappers that a value takes handles of along, one for each handle.
def wrappers : NativeValue → List Wrapper
  | .block (some code) => code.wrappers
  | .struct fields => wrappersAll fields
  | _ => []

def wrappersAll : List NativeValue → List Wrapper
  | [] => []
  | v :: rest => v.wrappers ++ wrappersAll rest

end

mutual

-- Numbers are compared as numbers, so that no value with a NaN equals itself; blocks by
-- identity.
def same : NativeValue → NativeValue → Bool
  | .void, .void => true
  | .bool a, .bool b => a = b
  | .int k a _, .int l b _ => k = l && a = b
  | .f32 a, .f32 b => a.same b
  | .f64 a, .f64 b => a.same b
  | .cstring a, .cstring b => a = b
  | .object a, .object b => a = b
  | .classRef a, .classRef b => a = b
  | .block a, .block b => a.map (·.id) = b.map (·.id)
  | .struct a, .struct b => sameAll a b
  | .pointer a, .pointer b => a = b
  | _, _ => false

def sameAll : List NativeValue → List NativeValue → Bool
  | [], [] => true
  | a :: as, b :: bs => a.same b && sameAll as bs
  | _, _ => false

end

end NativeValue

end ObjectBridge
