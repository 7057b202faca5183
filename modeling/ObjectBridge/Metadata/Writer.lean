import ObjectBridge.Metadata.Resolved
import ObjectBridge.Number.LittleEndian
import ObjectBridge.Text.Utf8

namespace ObjectBridge

namespace Layout

def word (n : Nat) : List UInt8 := littleEndian 4 n

def half (n : Nat) : List UInt8 := littleEndian 2 n

-- Bytes to be appended, and the place to refer to them by.
structure Part where
  bytes : List UInt8
  place : Nat

mutual

-- The block signatures of a type, which stand in front, and the type itself in line.
def typeParts (here : Nat) : TypeEncoding → List UInt8 × List UInt8
  | .scalar s => ([], [scalarTag s])
  | .object none => ([], objectTag :: word nowhere)
  | .object (some id) => ([], objectTag :: word id.offset)
  | .struct id => ([], structTag :: word id.offset)
  | .block result params =>
    let (before₁, inline₁) := typeParts here result
    let (before₂, inline₂) := typesParts (here + before₁.length) params
    let before := before₁ ++ before₂
    (before ++ UInt8.ofNat params.length :: (inline₁ ++ inline₂),
      blockTag :: word (here + before.length))

def typesParts (here : Nat) : List TypeEncoding → List UInt8 × List UInt8
  | [] => ([], [])
  | ty :: rest =>
    let (before₁, inline₁) := typeParts here ty
    let (before₂, inline₂) := typesParts (here + before₁.length) rest
    (before₁ ++ before₂, inline₁ ++ inline₂)

end

def signaturePart (here : Nat) (sig : CallSignature) : Part :=
  let (before, inline) := typesParts here (sig.result :: sig.params)
  ⟨before ++ UInt8.ofNat sig.params.length :: inline, here + before.length⟩

def methodPart (texts : List String) (here : Nat) (m : Method) : Part :=
  let sig := signaturePart here m.signature
  ⟨sig.bytes ++ word (textPlace texts m.name) ++ word (textPlace texts m.selector)
      ++ word m.flags.toNat ++ word sig.place,
    here + sig.bytes.length⟩

def accessorPart (texts : List String) (here : Nat) : Option Method → Part
  | none => ⟨[], nowhere⟩
  | some m => methodPart texts here m

def propertyPart (texts : List String) (here : Nat) (p : Property) : Part :=
  let getter := accessorPart texts here p.getter
  let here₁ := here + getter.bytes.length
  let setter := accessorPart texts here₁ p.setter
  let here₂ := here₁ + setter.bytes.length
  let (before, inline) := typeParts here₂ p.type
  ⟨getter.bytes ++ setter.bytes ++ before ++ word (textPlace texts p.name)
      ++ word p.flags.toNat ++ word getter.place ++ word setter.place ++ inline,
    here₂ + before.length⟩

def fieldPart (texts : List String) (here : Nat) (f : Field) : Part :=
  let (before, inline) := typeParts here f.type
  ⟨before ++ word (textPlace texts f.name) ++ inline, here + before.length⟩

def listPart (here : Nat) (places : List Nat) : Part :=
  ⟨word places.length ++ places.flatMap word, here⟩

-- Parts in a row; their bytes and places.
def rowParts (part : Nat → α → Part) (here : Nat) : List α → List UInt8 × List Nat
  | [] => ([], [])
  | a :: rest =>
    let first := part here a
    let (bytes, places) := rowParts part (here + first.bytes.length) rest
    (first.bytes ++ bytes, first.place :: places)

-- Parts in a row, followed by the list of them.
def rowPart (part : Nat → α → Part) (here : Nat) (items : List α) : Part :=
  let (bytes, places) := rowParts part here items
  let list := listPart (here + bytes.length) places
  ⟨bytes ++ list.bytes, list.place⟩

-- What stands behind the records for one descriptor, and the places in its record.
def membersParts (texts : List String) (here : Nat) (m : Members) : List UInt8 × List Nat :=
  let protocols := listPart here (m.protocols.map (·.offset))
  let here₁ := here + protocols.bytes.length
  let methods := rowPart (methodPart texts) here₁ m.methods
  let here₂ := here₁ + methods.bytes.length
  let properties := rowPart (propertyPart texts) here₂ m.properties
  (protocols.bytes ++ methods.bytes ++ properties.bytes,
    [protocols.place, methods.place, properties.place])

def descriptorParts (texts : List String) (here : Nat) : Descriptor → List UInt8 × List Nat
  | .interface _ base members =>
    let (bytes, places) := membersParts texts here members
    (bytes, ((base.map (·.offset)).getD nowhere) :: places)
  | .protocol _ members => membersParts texts here members
  | .struct _ fields =>
    let part := rowPart (fieldPart texts) here fields
    (part.bytes, [part.place])
  | .function _ signature =>
    let part := signaturePart here signature
    (part.bytes, [part.place])

def recordBytes (texts : List String) (d : Descriptor) (places : List Nat) : List UInt8 :=
  d.kind.tag :: 0 :: half 0 ++ word (textPlace texts d.name) ++ places.flatMap word

def descriptorRows (texts : List String) (here : Nat) :
    List Descriptor → List UInt8 × List UInt8
  | [] => ([], [])
  | d :: rest =>
    let (bytes, places) := descriptorParts texts here d
    let (records, behind) := descriptorRows texts (here + bytes.length) rest
    (recordBytes texts d places ++ records, bytes ++ behind)

def textBytes (text : String) : List UInt8 :=
  half text.utf8ByteSize ++ (Text.encodeUtf8 text).toList

-- The index lists the names in ascending order.
def indexBytes (texts : List String) (descriptors : List (DescriptorId × Descriptor)) :
    List UInt8 :=
  let sorted := descriptors.mergeSort fun a b => decide (a.2.name ≤ b.2.name)
  word descriptors.length
    ++ sorted.flatMap fun (id, d) => word (textPlace texts d.name) ++ word id.offset

def recordsSize (descriptors : List (DescriptorId × Descriptor)) : Nat :=
  (descriptors.map (·.2.kind.recordSize)).foldr (· + ·) 0

def fileBytes (texts : List String) (descriptors : List (DescriptorId × Descriptor)) :
    List UInt8 :=
  let indexStart := headerSize + textsSize texts
  let start := indexStart + indexSize descriptors.length
  let (records, behind) :=
    descriptorRows texts (start + recordsSize descriptors) (descriptors.map (·.2))
  let length := records.length + behind.length
  mark ++ half version ++ half 0 ++ word headerSize ++ word (textsSize texts) ++ word indexStart
    ++ word start ++ word length ++ word (start + length)
    ++ texts.flatMap textBytes ++ indexBytes texts descriptors ++ records ++ behind

end Layout

def Universe.compile (u : Universe) : Except SchemaError (Array UInt8) := do
  return (Layout.fileBytes u.texts (← u.resolve)).toArray

end ObjectBridge
