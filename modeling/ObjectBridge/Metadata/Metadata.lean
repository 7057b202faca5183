import ObjectBridge.Metadata.Reachable
import ObjectBridge.Metadata.View

namespace ObjectBridge

structure Metadata where
  version : Nat
  blob : Blob
  -- The places of all descriptors that can be reached.
  known : Table Nat Unit
  deriving Inhabited

namespace Blob

-- A section lies behind the header and within the file.
def section? (part : String) (start length total : Nat) : Except LoadError Span :=
  if Layout.headerSize ≤ start ∧ start + length ≤ total then .ok ⟨start, start + length⟩
  else .error (.outOfBounds part start)

def ofBytes (bytes : Array UInt8) : Except LoadError Blob := do
  if bytes.size < Layout.headerSize then throw (.truncated Layout.headerSize bytes.size)
  let found := (bytes.extract 0 4).toList
  if found ≠ Layout.mark then throw (.badMagic found)
  let version ← readHalf bytes "version" 4
  if version ≠ Layout.version then throw (.unsupportedVersion version Layout.version)
  let textsStart ← readWord bytes "string table offset" 8
  let textsLength ← readWord bytes "string table length" 12
  let indexStart ← readWord bytes "name index offset" 16
  let start ← readWord bytes "descriptor section offset" 20
  let length ← readWord bytes "descriptor section length" 24
  let total ← readWord bytes "total length" 28
  if bytes.size < total then throw (.truncated total bytes.size)
  if total < bytes.size then
    throw (.invalidRecord "header" 28
      s!"declares {total} bytes but the file has {bytes.size}")
  let texts ← section? "string table" textsStart textsLength total
  let descriptors ← section? "descriptor section" start length total
  let count ← readWord bytes "name index" indexStart
  let index ← section? "name index" indexStart (Layout.indexSize count) total
  return ⟨bytes, texts, index, descriptors⟩

-- `count` entries from `place` on, their names ascending from `previous`.
def readIndex (blob : Blob) (previous : Option String) :
    (count place : Nat) → Except LoadError (List (String × DescriptorId))
  | 0, _ => .ok []
  | count + 1, place => do
    let name ← blob.readText "type name" (← readWord blob.bytes "u32" place)
    if previous.any (name ≤ ·) then
      throw (.invalidRecord "name index" place ("'" ++ name ++ "' is out of order or duplicated"))
    let target ← readWord blob.bytes "u32" (place + 4)
    return (name, ⟨target⟩) :: (← blob.readIndex (some name) count (place + 8))

end Blob

namespace Metadata

def ofBytes (bytes : Array UInt8) : Except LoadError Metadata := do
  let blob ← Blob.ofBytes bytes
  let index ← blob.readIndex none blob.indexCount (blob.index.start + 4)
  let known ← blob.reach (index.map (·.2.offset)).reverse Table.empty
  return ⟨Layout.version, blob, known⟩

def descriptor? (m : Metadata) (id : DescriptorId) : Option Descriptor :=
  if m.known.contains id.offset then some (m.blob.descriptorAt id.offset) else none

def count (m : Metadata) : Nat := m.blob.indexCount

-- The named descriptors in ascending order of the names.
def index (m : Metadata) : Array (String × DescriptorId) :=
  (Array.range m.count).map m.blob.entryAt

-- The entry of that name between two positions of the index.
def search (m : Metadata) (name : String) (low high : Nat) : Option DescriptorId :=
  if _open : low < high then
    let middle := low + (high - low) / 2
    let (found, id) := m.blob.entryAt middle
    if found = name then some id
    else if found < name then m.search name (middle + 1) high
    else m.search name low middle
  else none
  termination_by high - low

def idOf? (m : Metadata) (name : String) : Option DescriptorId := m.search name 0 m.count

def resolve? (m : Metadata) (name : String) : Option (DescriptorId × Descriptor) := do
  let id ← m.idOf? name
  return (id, ← m.descriptor? id)

def named (m : Metadata) : List (DescriptorId × Descriptor) :=
  (List.range m.count).filterMap fun i =>
    let id := (m.blob.entryAt i).2
    (m.descriptor? id).map (id, ·)

-- A place without descriptor is written as a number.
def nameOf (m : Metadata) (id : DescriptorId) : String :=
  match m.descriptor? id with
  | some d => d.name
  | none => "#" ++ Hex.ofNat id.offset

def typeText (m : Metadata) (ty : TypeEncoding) : String := ty.text m.nameOf

def signatureText (m : Metadata) (sig : CallSignature) : String := sig.text m.nameOf

def label (id : DescriptorId) (d : Descriptor) : String :=
  d.kind.title ++ "(" ++ d.name ++ " " ++ id.text ++ ")"

end Metadata

end ObjectBridge
