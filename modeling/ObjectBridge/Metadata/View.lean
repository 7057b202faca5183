import ObjectBridge.Metadata.Reader

namespace ObjectBridge.Blob

-- Nothing is checked again here: a read that fails gives zero, no place, no text or `void` instead.
def byteAt (blob : Blob) (place : Nat) : UInt8 := blob.bytes[place]?.getD 0

def wordAt (blob : Blob) (place : Nat) : Nat :=
  (number? blob.bytes 4 place).getD Layout.nowhere

def textAt (blob : Blob) (place : Nat) : String :=
  match readRawText blob.bytes "string" place with
  | .ok (text, _) => text
  | .error _ => ""

-- A list that stands nowhere is empty.
def listAt (blob : Blob) (place : Nat) : List Nat :=
  if place = Layout.nowhere then []
  else (List.range (blob.wordAt place)).map fun i => blob.wordAt (place + 4 + 4 * i)

def signatureAt (blob : Blob) (place : Nat) : CallSignature :=
  match readSignatureWith blob.bytes (readType blob.bytes Layout.nestingLimit) place with
  | .ok sig => sig
  | .error _ => ⟨.void, []⟩

def typeAt (blob : Blob) (place : Nat) : TypeEncoding :=
  match readType blob.bytes Layout.nestingLimit place with
  | .ok (ty, _) => ty
  | .error _ => .void

def referenceAt (blob : Blob) (place : Nat) : Option DescriptorId :=
  if blob.wordAt place = Layout.nowhere then none else some ⟨blob.wordAt place⟩

def methodAt (blob : Blob) (place : Nat) : Method where
  name := blob.textAt (blob.wordAt place)
  selector := blob.textAt (blob.wordAt (place + 4))
  flags := blob.byteAt (place + 8)
  signature := blob.signatureAt (blob.wordAt (place + 12))

def accessorAt (blob : Blob) (place : Nat) : Option Method :=
  if blob.wordAt place = Layout.nowhere then none else some (blob.methodAt (blob.wordAt place))

def propertyAt (blob : Blob) (place : Nat) : Property where
  name := blob.textAt (blob.wordAt place)
  flags := blob.byteAt (place + 4)
  getter := blob.accessorAt (place + 8)
  setter := blob.accessorAt (place + 12)
  type := blob.typeAt (place + 16)

def fieldAt (blob : Blob) (place : Nat) : Field where
  name := blob.textAt (blob.wordAt place)
  type := blob.typeAt (place + 4)

def membersAt (blob : Blob) (place : Nat) : Members where
  protocols := (blob.listAt (blob.wordAt place)).map DescriptorId.mk
  methods := (blob.listAt (blob.wordAt (place + 4))).map blob.methodAt
  properties := (blob.listAt (blob.wordAt (place + 8))).map blob.propertyAt

-- An unknown kind would be taken for an interface.
def descriptorAt (blob : Blob) (place : Nat) : Descriptor :=
  let name := blob.textAt (blob.wordAt (place + 4))
  match DescriptorKind.ofTag? (blob.byteAt place) with
  | some .protocol => .protocol name (blob.membersAt (place + 8))
  | some .struct => .struct name ((blob.listAt (blob.wordAt (place + 8))).map blob.fieldAt)
  | some .function => .function name (blob.signatureAt (blob.wordAt (place + 8)))
  | _ => .interface name (blob.referenceAt (place + 8)) (blob.membersAt (place + 12))

-- An index that is too short for its count has no entries.
def indexCount (blob : Blob) : Nat := (blob.index.stop - blob.index.start - 4) / 8

def entryAt (blob : Blob) (i : Nat) : String × DescriptorId :=
  let place := blob.index.start + 4 + 8 * i
  (blob.textAt (blob.wordAt place), ⟨blob.wordAt (place + 4)⟩)

end ObjectBridge.Blob
