import ObjectBridge.Metadata.Descriptor

namespace ObjectBridge

namespace Layout

-- All numbers are little-endian. A header of 32 bytes
--   mark (4), version (2), reserved (2), texts at, texts length, index at,
--   descriptors at, descriptors length, file length
-- is followed by the texts (each a length of two bytes and UTF-8), the index (a count, then pairs of
-- a text's place and a descriptor's place in the order of the names) and the descriptors. A
-- descriptor begins with its kind, three unused bytes and the place of its name; then come
--   interface: base, protocols, methods, properties
--   protocol:  protocols, methods, properties
--   struct:    fields
--   function:  signature
-- A method is name, selector, flags, signature; a property name, flags, getter, setter and its type
-- in line; a field its name and its type in line. A list is a count and that many places. A signature
-- is a count in one byte, the result type and the parameter types. A type is a tag, followed by a
-- place if it refers to something.
def mark : List UInt8 := [0x4d, 0x42, 0x4d, 0x44]

def version : Nat := 1

def headerSize : Nat := 32

-- Stands for no place at all.
def nowhere : Nat := 0xffffffff

-- How deep block signatures may stand in one another.
def nestingLimit : Nat := 16

def methodSize : Nat := 16

def propertySize : Nat := 17

def fieldSize : Nat := 5

-- A count and a pair of places for each descriptor.
def indexSize (count : Nat) : Nat := 4 + 8 * count

def descriptorHeadSize : Nat := 8

end Layout

namespace DescriptorKind

def tag : DescriptorKind → UInt8
  | .interface => 1
  | .protocol => 2
  | .struct => 3
  | .function => 4

def ofTag? : UInt8 → Option DescriptorKind
  | 1 => some .interface
  | 2 => some .protocol
  | 3 => some .struct
  | 4 => some .function
  | _ => none

theorem ofTag?_tag (kind : DescriptorKind) : ofTag? kind.tag = some kind := by
  cases kind <;> rfl

def recordSize : DescriptorKind → Nat
  | .interface => 24
  | .protocol => 20
  | .struct | .function => 12

end DescriptorKind

namespace Layout

def objectTag : UInt8 := 13

def blockTag : UInt8 := 15

def structTag : UInt8 := 16

def scalarTag : Scalar → UInt8
  | .void => 0
  | .bool => 1
  | .int .i8 => 2
  | .int .i16 => 3
  | .int .i32 => 4
  | .int .i64 => 5
  | .int .u8 => 6
  | .int .u16 => 7
  | .int .u32 => 8
  | .int .u64 => 9
  | .f32 => 10
  | .f64 => 11
  | .string => 12
  | .classRef => 14
  | .pointer => 17

def scalarOfTag? : UInt8 → Option Scalar
  | 0 => some .void
  | 1 => some .bool
  | 2 => some (.int .i8)
  | 3 => some (.int .i16)
  | 4 => some (.int .i32)
  | 5 => some (.int .i64)
  | 6 => some (.int .u8)
  | 7 => some (.int .u16)
  | 8 => some (.int .u32)
  | 9 => some (.int .u64)
  | 10 => some .f32
  | 11 => some .f64
  | 12 => some .string
  | 14 => some .classRef
  | 17 => some .pointer
  | _ => none

theorem scalarOfTag?_scalarTag (s : Scalar) : scalarOfTag? (scalarTag s) = some s := by
  cases s with
  | int kind => cases kind <;> rfl
  | _ => rfl

end Layout

end ObjectBridge
