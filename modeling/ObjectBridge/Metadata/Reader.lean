import ObjectBridge.Metadata.Error
import ObjectBridge.Metadata.Layout
import ObjectBridge.Text.Utf8

namespace ObjectBridge

-- From `start` up to `stop`.
structure Span where
  start : Nat
  stop : Nat
  deriving DecidableEq, Repr, Inhabited

structure Blob where
  bytes : Array UInt8
  texts : Span
  index : Span
  descriptors : Span
  deriving Inhabited

namespace Blob

-- The number of `count` bytes from `place` on.
def number? (bytes : Array UInt8) : (count place : Nat) → Option Nat
  | 0, _ => some 0
  | count + 1, place => do
    let low ← bytes[place]?
    let high ← number? bytes count (place + 1)
    return low.toNat + 256 * high

-- Fails at `place` unless all of the number lies within the bytes.
def readNumber (bytes : Array UInt8) (count : Nat) (part : String) (place : Nat) :
    Except LoadError Nat :=
  match number? bytes count place with
  | some n => .ok n
  | none => .error (.outOfBounds part place)

def readByte (bytes : Array UInt8) (part : String) (place : Nat) : Except LoadError UInt8 :=
  match bytes[place]? with
  | some b => .ok b
  | none => .error (.outOfBounds part place)

abbrev readHalf (bytes : Array UInt8) := readNumber bytes 2

abbrev readWord (bytes : Array UInt8) := readNumber bytes 4

def readRawText (bytes : Array UInt8) (part : String) (place : Nat) :
    Except LoadError (String × Nat) := do
  let length ← readHalf bytes part place
  let start := place + 2
  if bytes.size < start + length then throw (.outOfBounds part start)
  match Text.decodeUtf8 (bytes.extract start (start + length)) with
  | .ok text => return (text, start + length)
  | .error fault => throw (.invalidRecord part place fault.message)

def readText (blob : Blob) (part : String) (place : Nat) : Except LoadError String := do
  let (text, stop) ← readRawText blob.bytes part place
  if place < blob.texts.start ∨ blob.texts.stop < stop then throw (.outOfBounds part place)
  return text

-- Whether `size` bytes from `place` on belong to the descriptor section.
def InDescriptors (blob : Blob) (place size : Nat) : Prop :=
  blob.descriptors.start ≤ place ∧ place + size ≤ blob.descriptors.stop

instance (blob : Blob) (place size : Nat) : Decidable (blob.InDescriptors place size) :=
  inferInstanceAs (Decidable (_ ∧ _))

def require (blob : Blob) (part : String) (place size : Nat) : Except LoadError Unit :=
  if blob.InDescriptors place size then .ok () else .error (.outOfBounds part place)

-- `count` types in a row; also where they end.
def readRow (read : Nat → Except LoadError (TypeEncoding × Nat)) :
    (count place : Nat) → Except LoadError (List TypeEncoding × Nat)
  | 0, place => .ok ([], place)
  | count + 1, place => do
    let (ty, next) ← read place
    let (types, stop) ← readRow read count next
    return (ty :: types, stop)

def readSignatureWith (bytes : Array UInt8)
    (read : Nat → Except LoadError (TypeEncoding × Nat)) (place : Nat) :
    Except LoadError CallSignature := do
  let count ← readByte bytes "parameter count" place
  let (result, next) ← read (place + 1)
  let (params, _) ← readRow read count.toNat next
  return ⟨result, params⟩

-- A type in line; also where it ends. Blocks may nest `room` levels deep.
def readType (bytes : Array UInt8) :
    (room place : Nat) → Except LoadError (TypeEncoding × Nat)
  | room, place => do
    let tag ← readByte bytes "type tag" place
    match Layout.scalarOfTag? tag with
    | some s => return (.scalar s, place + 1)
    | none =>
      if tag = Layout.objectTag then
        let target ← readWord bytes "object type" (place + 1)
        return (.object (if target = Layout.nowhere then none else some ⟨target⟩), place + 5)
      else if tag = Layout.structTag then
        let target ← readWord bytes "struct type" (place + 1)
        return (.struct ⟨target⟩, place + 5)
      else if tag = Layout.blockTag then
        let target ← readWord bytes "block signature" (place + 1)
        match room with
        | 0 =>
          throw (.invalidRecord "signature" target "block signatures nest too deeply")
        | room + 1 =>
          let sig ← readSignatureWith bytes (readType bytes room) target
          return (.block sig.result sig.params, place + 5)
      else throw (.unknownTag "type" tag place)

def readInlineType (blob : Blob) (place : Nat) : Except LoadError TypeEncoding := do
  return (← readType blob.bytes Layout.nestingLimit place).1

def readSignature (blob : Blob) (place : Nat) : Except LoadError CallSignature := do
  blob.require "signature" place 2
  readSignatureWith blob.bytes (readType blob.bytes Layout.nestingLimit) place

def readMethod (blob : Blob) (place : Nat) : Except LoadError Method := do
  blob.require "method" place Layout.methodSize
  let name ← blob.readText "method name" (← readWord blob.bytes "method name" place)
  let selector ← blob.readText "selector" (← readWord blob.bytes "selector" (place + 4))
  let flags ← readWord blob.bytes "method flags" (place + 8)
  let signature ← blob.readSignature (← readWord blob.bytes "method signature" (place + 12))
  return ⟨name, selector, UInt8.ofNat flags, signature⟩

def readAccessor (blob : Blob) (place : Nat) : Except LoadError (Option Method) :=
  if place = Layout.nowhere then .ok none
  else do return some (← blob.readMethod place)

def readProperty (blob : Blob) (place : Nat) : Except LoadError Property := do
  blob.require "property" place Layout.propertySize
  let name ← blob.readText "property name" (← readWord blob.bytes "property name" place)
  let flags ← readWord blob.bytes "property flags" (place + 4)
  let getter ← readWord blob.bytes "getter" (place + 8)
  let setter ← readWord blob.bytes "setter" (place + 12)
  let getter ← blob.readAccessor getter
  let setter ← blob.readAccessor setter
  let type ← blob.readInlineType (place + 16)
  return ⟨name, UInt8.ofNat flags, getter, setter, type⟩

def readField (blob : Blob) (place : Nat) : Except LoadError Field := do
  blob.require "struct field" place Layout.fieldSize
  let name ← blob.readText "field name" (← readWord blob.bytes "field name" place)
  return ⟨name, ← blob.readInlineType (place + 4)⟩

def readPlaces (bytes : Array UInt8) : (count place : Nat) → Except LoadError (List Nat)
  | 0, _ => .ok []
  | count + 1, place => do
    let first ← readWord bytes "list entry" place
    return first :: (← readPlaces bytes count (place + 4))

-- The places of a list; a list that stands nowhere has none.
def readList (blob : Blob) (place : Nat) : Except LoadError (List Nat) :=
  if place = Layout.nowhere then .ok []
  else do
    blob.require "list" place 4
    let count ← readWord blob.bytes "list length" place
    blob.require "list" place (4 + 4 * count)
    readPlaces blob.bytes count (place + 4)

def readMembers (blob : Blob) (place : Nat) : Except LoadError Members := do
  let protocols ← blob.readList (← readWord blob.bytes "protocols" place)
  let methods ← blob.readList (← readWord blob.bytes "methods" (place + 4))
  let methods ← methods.mapM blob.readMethod
  let properties ← blob.readList (← readWord blob.bytes "properties" (place + 8))
  return ⟨protocols.map DescriptorId.mk, methods, ← properties.mapM blob.readProperty⟩

def readDescriptor (blob : Blob) (place : Nat) : Except LoadError Descriptor := do
  blob.require "descriptor" place Layout.descriptorHeadSize
  let tag ← readByte blob.bytes "descriptor kind" place
  let some kind := DescriptorKind.ofTag? tag | throw (.unknownTag "descriptor" tag place)
  let name ← blob.readText "descriptor name" (← readWord blob.bytes "descriptor name" (place + 4))
  blob.require "descriptor" place kind.recordSize
  match kind with
  | .interface =>
    let base ← readWord blob.bytes "base class" (place + 8)
    let members ← blob.readMembers (place + 12)
    return .interface name (if base = Layout.nowhere then none else some ⟨base⟩) members
  | .protocol => return .protocol name (← blob.readMembers (place + 8))
  | .struct =>
    let fields ← blob.readList (← readWord blob.bytes "fields" (place + 8))
    return .struct name (← fields.mapM blob.readField)
  | .function =>
    let signature ← readWord blob.bytes "function signature" (place + 8)
    return .function name (← blob.readSignature signature)

end Blob

end ObjectBridge
