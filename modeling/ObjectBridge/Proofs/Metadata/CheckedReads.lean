import Mathlib
import ObjectBridge.Metadata.Metadata
import ObjectBridge.Proofs.Outcome

namespace ObjectBridge.Blob
open Outcome

-- A read of the views that does not fall back. These say nothing about sections: the bytes of a
-- type may lie behind the descriptors, as long as they lie within the file.
def ReadsByte (blob : Blob) (place : Nat) : Prop :=
  place < blob.bytes.size ∧ blob.bytes[place]? = some (blob.byteAt place)

def ReadsWord (blob : Blob) (place : Nat) : Prop :=
  place + 4 ≤ blob.bytes.size ∧ number? blob.bytes 4 place = some (blob.wordAt place)

def ReadsText (blob : Blob) (place : Nat) : Prop :=
  ∃ length, number? blob.bytes 2 place = some length ∧ place + 2 + length ≤ blob.bytes.size ∧
    String.fromUTF8? ⟨blob.bytes.extract (place+2) (place+2+length)⟩ = some (blob.textAt place)

def ReadsSignature (blob : Blob) (place : Nat) : Prop :=
  readSignatureWith blob.bytes (readType blob.bytes Layout.nestingLimit) place =
    .ok (blob.signatureAt place)

def ReadsType (blob : Blob) (place : Nat) : Prop :=
  ∃ stop, readType blob.bytes Layout.nestingLimit place = .ok (blob.typeAt place,stop)

def ReadsList (blob : Blob) (place : Nat) : Prop :=
  place ≠ Layout.nowhere →
    blob.ReadsWord place ∧ ∀ i < blob.wordAt place, blob.ReadsWord (place+4+4*i)

-- A place in the file, and the text that stands there.
def ReadsName (blob : Blob) (place : Nat) : Prop :=
  blob.ReadsWord place ∧ blob.ReadsText (blob.wordAt place)

structure ReadsMethod (blob : Blob) (place : Nat) : Prop where
  name : blob.ReadsName place
  selector : blob.ReadsName (place+4)
  flags : blob.ReadsByte (place+8)
  signaturePlace : blob.ReadsWord (place+12)
  signature : blob.ReadsSignature (blob.wordAt (place+12))

def ReadsAccessor (blob : Blob) (place : Nat) : Prop :=
  blob.ReadsWord place ∧
    (blob.wordAt place ≠ Layout.nowhere → blob.ReadsMethod (blob.wordAt place))

structure ReadsProperty (blob : Blob) (place : Nat) : Prop where
  name : blob.ReadsName place
  flags : blob.ReadsByte (place+4)
  getter : blob.ReadsAccessor (place+8)
  setter : blob.ReadsAccessor (place+12)
  type : blob.ReadsType (place+16)

structure ReadsField (blob : Blob) (place : Nat) : Prop where
  name : blob.ReadsName place
  type : blob.ReadsType (place+4)

-- A list in place of which the view puts the items at its entries.
structure ReadsItems (blob : Blob) (item : Nat → Prop) (place : Nat) : Prop where
  listPlace : blob.ReadsWord place
  list : blob.ReadsList (blob.wordAt place)
  items : ∀ entry ∈ blob.listAt (blob.wordAt place), item entry

structure ReadsMembers (blob : Blob) (place : Nat) : Prop where
  protocols : blob.ReadsItems (fun _ => True) place
  methods : blob.ReadsItems blob.ReadsMethod (place+4)
  properties : blob.ReadsItems blob.ReadsProperty (place+8)

def ReadsBody (blob : Blob) (place : Nat) : DescriptorKind → Prop
  | .interface => blob.ReadsWord (place+8) ∧ blob.ReadsMembers (place+12)
  | .protocol => blob.ReadsMembers (place+8)
  | .struct => blob.ReadsItems blob.ReadsField (place+8)
  | .function => blob.ReadsWord (place+8) ∧ blob.ReadsSignature (blob.wordAt (place+8))

structure ReadsDescriptor (blob : Blob) (place : Nat) : Prop where
  tag : blob.ReadsByte place
  name : blob.ReadsName (place+4)
  body : ∃ kind, DescriptorKind.ofTag? (blob.byteAt place) = some kind ∧ blob.ReadsBody place kind

variable {bytes : Array UInt8} {blob : Blob}

theorem number_first (found : number? bytes (count+1) place = some n) :
    ∃ low high, bytes[place]? = some low ∧ number? bytes count (place+1) = some high ∧
      n = low.toNat + 256*high := by
  rw [number?] at found
  cases first : bytes[place]? with
  | none => simp [first] at found
  | some low =>
    cases others : number? bytes count (place+1) with
    | none => simp [first,others] at found
    | some high =>
      simp [first,others] at found
      exact ⟨low,high,rfl,rfl,found.symm⟩

theorem number_inside (found : number? bytes (count+1) place = some n) :
    place+count+1 ≤ bytes.size := by
  induction count generalizing place n with
  | zero =>
    obtain ⟨low,_,first,_,_⟩ := number_first found
    exact (Array.getElem?_eq_some_iff.mp first).1
  | succ count ih =>
    obtain ⟨_,_,_,others,_⟩ := number_first found
    have := ih others
    omega

theorem readNumber_ok : readNumber bytes count part place = .ok n ↔
    number? bytes count place = some n := by
  unfold readNumber
  cases number? bytes count place <;> simp

theorem readByte_ok : readByte bytes part place = .ok b ↔ bytes[place]? = some b := by
  unfold readByte
  cases bytes[place]? <;> simp

theorem readRawText_ok : readRawText bytes part place = .ok (text,stop) ↔
    ∃ length, number? bytes 2 place = some length ∧ place+2+length ≤ bytes.size ∧
      String.fromUTF8? ⟨bytes.extract (place+2) (place+2+length)⟩ = some text ∧
      stop = place+2+length := by
  unfold readRawText
  simp only [bind_ok,readNumber_ok]
  refine exists_congr fun length => and_congr_right fun _ => ?_
  rw [guard_ok,Nat.not_lt]
  refine and_congr_right fun _ => ?_
  unfold Text.decodeUtf8
  cases String.fromUTF8? ⟨bytes.extract (place+2) (place+2+length)⟩ with
  | none => simp [throw_ok]
  | some found =>
    simp only [pure_ok,Prod.mk.injEq,Option.some.injEq]
    exact and_congr_right fun _ => eq_comm

theorem byte_reads (found : blob.bytes[place]? = some b) : blob.ReadsByte place ∧ blob.byteAt place = b :=
  have same : blob.byteAt place = b := by simp [byteAt,found]
  ⟨⟨(Array.getElem?_eq_some_iff.mp found).1,by rw [same,found]⟩,same⟩

theorem word_reads (found : number? blob.bytes 4 place = some n) :
    blob.ReadsWord place ∧ blob.wordAt place = n :=
  have same : blob.wordAt place = n := by simp [wordAt,found]
  ⟨⟨number_inside found,by rw [same,found]⟩,same⟩

-- The views read flags as one byte, the check reads them as a word.
theorem low_byte_reads (found : number? blob.bytes (count+1) place = some n) :
    blob.ReadsByte place ∧ blob.byteAt place = UInt8.ofNat n := by
  obtain ⟨low,high,first,_,rfl⟩ := number_first found
  obtain ⟨reads,same⟩ := byte_reads first
  refine ⟨reads,?_⟩
  rw [same,← UInt8.toNat_inj,UInt8.toNat_ofNat',Nat.add_mul_mod_self_left]
  exact (Nat.mod_eq_of_lt low.toNat_lt).symm

theorem text_reads (read : blob.readText part place = .ok text) :
    blob.ReadsText place ∧ blob.textAt place = text := by
  unfold readText at read
  obtain ⟨⟨found,stop⟩,raw,checked⟩ := bind_ok.mp read
  dsimp only at checked
  obtain ⟨_,rest⟩ := guard_ok.mp checked
  obtain rfl := pure_ok.mp rest
  have raw := readRawText_ok.mp raw
  have again : readRawText blob.bytes "string" place = .ok (found,stop) := readRawText_ok.mpr raw
  have same : blob.textAt place = found := by rw [textAt,again]
  obtain ⟨length,counted,inside,decoded,_⟩ := raw
  exact ⟨⟨length,counted,inside,by rw [same,decoded]⟩,same⟩

theorem name_reads (pointed : readWord blob.bytes part place = .ok target)
    (read : blob.readText part' target = .ok text) :
    blob.ReadsName place ∧ blob.textAt (blob.wordAt place) = text := by
  obtain ⟨word,rfl⟩ := word_reads (readNumber_ok.mp pointed)
  obtain ⟨reads,same⟩ := text_reads read
  exact ⟨⟨word,reads⟩,same⟩

theorem signature_reads (read : blob.readSignature place = .ok sig) :
    blob.ReadsSignature place ∧ blob.signatureAt place = sig := by
  unfold readSignature at read
  obtain ⟨_,_,decoded⟩ := bind_ok.mp read
  have same : blob.signatureAt place = sig := by rw [signatureAt,decoded]
  exact ⟨by rw [ReadsSignature,same,decoded],same⟩

theorem type_reads (read : blob.readInlineType place = .ok ty) :
    blob.ReadsType place ∧ blob.typeAt place = ty := by
  unfold readInlineType at read
  obtain ⟨⟨found,stop⟩,decoded,done⟩ := bind_ok.mp read
  obtain rfl := pure_ok.mp done
  have same : blob.typeAt place = found := by rw [typeAt,decoded]
  exact ⟨⟨stop,by rw [same,decoded]⟩,same⟩

theorem places_reads (read : readPlaces blob.bytes count place = .ok places) :
    (∀ i < count, blob.ReadsWord (place+4*i)) ∧
      (List.range count).map (fun i => blob.wordAt (place+4*i)) = places := by
  induction count generalizing place places with
  | zero =>
    cases read
    simp
  | succ count ih =>
    obtain ⟨first,one,others⟩ := bind_ok.mp read
    obtain ⟨tail,many,joined⟩ := bind_ok.mp others
    obtain rfl := pure_ok.mp joined
    obtain ⟨reads,same⟩ := word_reads (readNumber_ok.mp one)
    obtain ⟨tailReads,tailSame⟩ := ih many
    have next : ∀ i, place+4*(i+1) = place+4+4*i := by intro i; omega
    constructor
    · intro i below
      cases i with
      | zero => exact reads
      | succ i => rw [next]; exact tailReads i (by omega)
    · rw [List.range_succ_eq_map,List.map_cons,List.map_map,Nat.mul_zero,Nat.add_zero,same,← tailSame]
      simp [Function.comp_def,next]

theorem list_reads (read : blob.readList place = .ok places) :
    blob.ReadsList place ∧ blob.listAt place = places := by
  unfold readList at read
  unfold ReadsList listAt
  split at read
  · rename_i none
    cases read
    simp [none]
  · rename_i some
    obtain ⟨_,_,counted⟩ := bind_ok.mp read
    obtain ⟨count,number,rest⟩ := bind_ok.mp counted
    obtain ⟨_,_,entries⟩ := bind_ok.mp rest
    obtain ⟨word,rfl⟩ := word_reads (readNumber_ok.mp number)
    obtain ⟨reads,same⟩ := places_reads entries
    exact ⟨fun _ => ⟨word,reads⟩,by rw [if_neg some,same]⟩

-- Items are read one after the other by the check and all alike by the view.
theorem items_read {item : Nat → Except LoadError α} {view : Nat → α} {sound : Nat → Prop}
    {places : List Nat} {found : List α}
    (each : ∀ place found, item place = .ok found → sound place ∧ view place = found)
    (read : places.mapM item = .ok found) : (∀ place ∈ places, sound place) ∧ places.map view = found := by
  induction mapM_ok.mp read with
  | nil => simp
  | @cons place a places others one _ ih =>
    obtain ⟨reads,same⟩ := each _ _ one
    obtain ⟨tailReads,tailSame⟩ := ih (mapM_ok.mpr ‹_›)
    refine ⟨?_,by rw [List.map_cons,same,tailSame]⟩
    intro p member
    rcases List.mem_cons.mp member with rfl | old
    · exact reads
    · exact tailReads p old

theorem method_reads (read : blob.readMethod place = .ok found) :
    blob.ReadsMethod place ∧ blob.methodAt place = found := by
  unfold readMethod at read
  obtain ⟨_,_,read⟩ := bind_ok.mp read
  obtain ⟨_,namePlace,read⟩ := bind_ok.mp read
  obtain ⟨_,nameText,read⟩ := bind_ok.mp read
  obtain ⟨_,selectorPlace,read⟩ := bind_ok.mp read
  obtain ⟨_,selectorText,read⟩ := bind_ok.mp read
  obtain ⟨_,flagWord,read⟩ := bind_ok.mp read
  obtain ⟨_,signaturePlace,read⟩ := bind_ok.mp read
  obtain ⟨_,decoded,read⟩ := bind_ok.mp read
  obtain rfl := pure_ok.mp read
  obtain ⟨name,rfl⟩ := name_reads namePlace nameText
  obtain ⟨selector,rfl⟩ := name_reads selectorPlace selectorText
  obtain ⟨flags,flagsSame⟩ := low_byte_reads (readNumber_ok.mp flagWord)
  obtain ⟨pointer,rfl⟩ := word_reads (readNumber_ok.mp signaturePlace)
  obtain ⟨signature,rfl⟩ := signature_reads decoded
  exact ⟨⟨name,selector,flags,pointer,signature⟩,by rw [methodAt,flagsSame]⟩

theorem accessor_reads (pointed : readWord blob.bytes part place = .ok target)
    (read : blob.readAccessor target = .ok found) :
    blob.ReadsAccessor place ∧ blob.accessorAt place = found := by
  obtain ⟨word,rfl⟩ := word_reads (readNumber_ok.mp pointed)
  unfold readAccessor at read
  unfold ReadsAccessor accessorAt
  split at read
  · rename_i none
    cases read
    simp [none,word]
  · rename_i some
    obtain ⟨_,method,read⟩ := bind_ok.mp read
    obtain rfl := pure_ok.mp read
    obtain ⟨reads,rfl⟩ := method_reads method
    exact ⟨⟨word,fun _ => reads⟩,by rw [if_neg some]⟩

theorem property_reads (read : blob.readProperty place = .ok found) :
    blob.ReadsProperty place ∧ blob.propertyAt place = found := by
  unfold readProperty at read
  obtain ⟨_,_,read⟩ := bind_ok.mp read
  obtain ⟨_,namePlace,read⟩ := bind_ok.mp read
  obtain ⟨_,nameText,read⟩ := bind_ok.mp read
  obtain ⟨_,flagWord,read⟩ := bind_ok.mp read
  obtain ⟨_,getterPlace,read⟩ := bind_ok.mp read
  obtain ⟨_,setterPlace,read⟩ := bind_ok.mp read
  obtain ⟨_,getterRead,read⟩ := bind_ok.mp read
  obtain ⟨_,setterRead,read⟩ := bind_ok.mp read
  obtain ⟨_,decoded,read⟩ := bind_ok.mp read
  obtain rfl := pure_ok.mp read
  obtain ⟨name,rfl⟩ := name_reads namePlace nameText
  obtain ⟨flags,flagsSame⟩ := low_byte_reads (readNumber_ok.mp flagWord)
  obtain ⟨getter,rfl⟩ := accessor_reads getterPlace getterRead
  obtain ⟨setter,rfl⟩ := accessor_reads setterPlace setterRead
  obtain ⟨type,rfl⟩ := type_reads decoded
  exact ⟨⟨name,flags,getter,setter,type⟩,by rw [propertyAt,flagsSame]⟩

theorem field_reads (read : blob.readField place = .ok found) :
    blob.ReadsField place ∧ blob.fieldAt place = found := by
  unfold readField at read
  obtain ⟨_,_,read⟩ := bind_ok.mp read
  obtain ⟨_,namePlace,read⟩ := bind_ok.mp read
  obtain ⟨_,nameText,read⟩ := bind_ok.mp read
  obtain ⟨_,decoded,read⟩ := bind_ok.mp read
  obtain rfl := pure_ok.mp read
  obtain ⟨name,rfl⟩ := name_reads namePlace nameText
  obtain ⟨type,rfl⟩ := type_reads decoded
  exact ⟨⟨name,type⟩,rfl⟩

theorem listed_reads {item : Nat → Except LoadError α} {view : Nat → α} {sound : Nat → Prop}
    {places : List Nat} {found : List α}
    (each : ∀ place found, item place = .ok found → sound place ∧ view place = found)
    (pointed : readWord blob.bytes part place = .ok target)
    (read : blob.readList target = .ok places) (items : places.mapM item = .ok found) :
    blob.ReadsItems sound place ∧ (blob.listAt (blob.wordAt place)).map view = found := by
  obtain ⟨word,rfl⟩ := word_reads (readNumber_ok.mp pointed)
  obtain ⟨list,rfl⟩ := list_reads read
  obtain ⟨all,same⟩ := items_read each items
  exact ⟨⟨word,list,all⟩,same⟩

theorem members_read (read : blob.readMembers place = .ok found) :
    blob.ReadsMembers place ∧ blob.membersAt place = found := by
  unfold readMembers at read
  obtain ⟨_,protocolsPlace,read⟩ := bind_ok.mp read
  obtain ⟨_,protocolsList,read⟩ := bind_ok.mp read
  obtain ⟨_,methodsPlace,read⟩ := bind_ok.mp read
  obtain ⟨_,methodsList,read⟩ := bind_ok.mp read
  obtain ⟨_,methodsRead,read⟩ := bind_ok.mp read
  obtain ⟨_,propertiesPlace,read⟩ := bind_ok.mp read
  obtain ⟨_,propertiesList,read⟩ := bind_ok.mp read
  obtain ⟨_,propertiesRead,read⟩ := bind_ok.mp read
  obtain rfl := pure_ok.mp read
  obtain ⟨word,rfl⟩ := word_reads (readNumber_ok.mp protocolsPlace)
  obtain ⟨list,rfl⟩ := list_reads protocolsList
  obtain ⟨methods,rfl⟩ := listed_reads (fun _ _ => method_reads) methodsPlace methodsList methodsRead
  obtain ⟨properties,rfl⟩ :=
    listed_reads (fun _ _ => property_reads) propertiesPlace propertiesList propertiesRead
  exact ⟨⟨⟨word,list,fun _ _ => trivial⟩,methods,properties⟩,rfl⟩

theorem descriptor_reads (read : blob.readDescriptor place = .ok found) :
    blob.ReadsDescriptor place ∧ blob.descriptorAt place = found := by
  unfold readDescriptor at read
  obtain ⟨_,_,read⟩ := bind_ok.mp read
  obtain ⟨_,tagByte,read⟩ := bind_ok.mp read
  obtain ⟨tag,rfl⟩ := byte_reads (readByte_ok.mp tagByte)
  split at read
  · rename_i kind known
    obtain ⟨_,namePlace,read⟩ := bind_ok.mp read
    obtain ⟨_,nameText,read⟩ := bind_ok.mp read
    obtain ⟨_,_,read⟩ := bind_ok.mp read
    obtain ⟨name,rfl⟩ := name_reads namePlace nameText
    suffices body : blob.ReadsBody place kind ∧ blob.descriptorAt place = found from
      ⟨⟨tag,name,kind,known,body.1⟩,body.2⟩
    unfold descriptorAt
    rw [known]
    cases kind with
    | interface =>
      obtain ⟨_,basePlace,read⟩ := bind_ok.mp read
      obtain ⟨_,membersRead,read⟩ := bind_ok.mp read
      obtain rfl := pure_ok.mp read
      obtain ⟨base,rfl⟩ := word_reads (readNumber_ok.mp basePlace)
      obtain ⟨members,rfl⟩ := members_read membersRead
      exact ⟨⟨base,members⟩,rfl⟩
    | protocol =>
      obtain ⟨_,membersRead,read⟩ := bind_ok.mp read
      obtain rfl := pure_ok.mp read
      obtain ⟨members,rfl⟩ := members_read membersRead
      exact ⟨members,rfl⟩
    | struct =>
      obtain ⟨_,fieldsPlace,read⟩ := bind_ok.mp read
      obtain ⟨_,fieldsList,read⟩ := bind_ok.mp read
      obtain ⟨_,fieldsRead,read⟩ := bind_ok.mp read
      obtain rfl := pure_ok.mp read
      obtain ⟨fields,rfl⟩ := listed_reads (fun _ _ => field_reads) fieldsPlace fieldsList fieldsRead
      exact ⟨fields,rfl⟩
    | function =>
      obtain ⟨_,signaturePlace,read⟩ := bind_ok.mp read
      obtain ⟨_,decoded,read⟩ := bind_ok.mp read
      obtain rfl := pure_ok.mp read
      obtain ⟨pointer,rfl⟩ := word_reads (readNumber_ok.mp signaturePlace)
      obtain ⟨signature,rfl⟩ := signature_reads decoded
      exact ⟨⟨pointer,signature⟩,rfl⟩
  · exact (throw_ok.mp read).elim

def ReadsEntry (blob : Blob) (i : Nat) : Prop :=
  blob.ReadsName (blob.index.start+4+8*i) ∧ blob.ReadsWord (blob.index.start+4+8*i+4)

theorem entries_read (read : blob.readIndex previous count place = .ok entries) :
    (∀ i < count, blob.ReadsName (place+8*i) ∧ blob.ReadsWord (place+8*i+4)) ∧
      (List.range count).map (fun i => (blob.textAt (blob.wordAt (place+8*i)),
        (⟨blob.wordAt (place+8*i+4)⟩ : DescriptorId))) = entries := by
  induction count generalizing previous place entries with
  | zero =>
    cases read
    simp
  | succ count ih =>
    obtain ⟨_,namePlace,read⟩ := bind_ok.mp read
    obtain ⟨_,nameText,read⟩ := bind_ok.mp read
    obtain ⟨_,read⟩ := guard_ok.mp read
    obtain ⟨_,targetPlace,read⟩ := bind_ok.mp read
    obtain ⟨tail,many,joined⟩ := bind_ok.mp read
    obtain rfl := pure_ok.mp joined
    obtain ⟨name,rfl⟩ := name_reads namePlace nameText
    obtain ⟨target,rfl⟩ := word_reads (readNumber_ok.mp targetPlace)
    obtain ⟨tailReads,tailSame⟩ := ih many
    have next : ∀ i, place+8*(i+1) = place+8+8*i := by intro i; omega
    constructor
    · intro i below
      cases i with
      | zero => exact ⟨name,target⟩
      | succ i => rw [next]; exact tailReads i (by omega)
    · rw [List.range_succ_eq_map,List.map_cons,List.map_map,← tailSame]
      simp [Function.comp_def,next]

theorem index_reads (read : blob.readIndex previous count (blob.index.start+4) = .ok entries) :
    (∀ i < count, blob.ReadsEntry i) ∧ (List.range count).map blob.entryAt = entries :=
  entries_read read

theorem section_ok {span : Span} : section? part start length total = .ok span ↔
    Layout.headerSize ≤ start ∧ start+length ≤ total ∧ span = ⟨start,start+length⟩ := by
  unfold section?
  split
  · rename_i within
    simp [within.1,within.2,eq_comm]
  · rename_i beyond
    simp only [reduceCtorEq,false_iff]
    intro ⟨behind,inside,_⟩
    exact beyond ⟨behind,inside⟩

-- What the header of a file has to declare.
structure Header (bytes : Array UInt8) (textsStart textsLength indexStart start length count : Nat) : Prop where
  long : Layout.headerSize ≤ bytes.size
  mark : (bytes.extract 0 4).toList = Layout.mark
  version : number? bytes 2 4 = some Layout.version
  textsPlace : number? bytes 4 8 = some textsStart
  textsSize : number? bytes 4 12 = some textsLength
  indexPlace : number? bytes 4 16 = some indexStart
  descriptorsPlace : number? bytes 4 20 = some start
  descriptorsSize : number? bytes 4 24 = some length
  size : number? bytes 4 28 = some bytes.size
  entries : number? bytes 4 indexStart = some count
  texts : Layout.headerSize ≤ textsStart ∧ textsStart+textsLength ≤ bytes.size
  index : Layout.headerSize ≤ indexStart ∧ indexStart+Layout.indexSize count ≤ bytes.size
  descriptors : Layout.headerSize ≤ start ∧ start+length ≤ bytes.size

theorem ofBytes_ok : Blob.ofBytes bytes = .ok blob ↔
    ∃ textsStart textsLength indexStart start length count,
      Header bytes textsStart textsLength indexStart start length count ∧
      blob = ⟨bytes,⟨textsStart,textsStart+textsLength⟩,⟨indexStart,indexStart+Layout.indexSize count⟩,
        ⟨start,start+length⟩⟩ := by
  unfold Blob.ofBytes
  simp only [guard_ok,bind_ok,readNumber_ok,section_ok,pure_ok,not_not,Nat.not_lt]
  constructor
  · rintro ⟨long,mark,_,version,rfl,textsStart,h1,textsLength,h2,indexStart,h3,start,h4,length,h5,total,h6,short,full,
      _,⟨behind1,inside1,rfl⟩,_,⟨behind2,inside2,rfl⟩,count,h7,_,⟨behind3,inside3,rfl⟩,rfl⟩
    obtain rfl : total = bytes.size := Nat.le_antisymm short full
    exact ⟨_,_,_,_,_,_,⟨long,mark,version,h1,h2,h3,h4,h5,h6,h7,⟨behind1,inside1⟩,⟨behind3,inside3⟩,
      ⟨behind2,inside2⟩⟩,rfl⟩
  · rintro ⟨textsStart,textsLength,indexStart,start,length,count,header,rfl⟩
    exact ⟨header.long,header.mark,_,header.version,rfl,_,header.textsPlace,_,header.textsSize,_,header.indexPlace,
      _,header.descriptorsPlace,_,header.descriptorsSize,_,header.size,Nat.le_refl _,Nat.le_refl _,_,
      ⟨header.texts.1,header.texts.2,rfl⟩,_,⟨header.descriptors.1,header.descriptors.2,rfl⟩,_,header.entries,_,
      ⟨header.index.1,header.index.2,rfl⟩,rfl⟩

theorem opened_bytes (opened : Blob.ofBytes bytes = .ok blob) : blob.bytes = bytes := by
  obtain ⟨_,_,_,_,_,_,_,rfl⟩ := ofBytes_ok.mp opened
  rfl

-- Everything known was read, and what it refers to is known or still to be read.
def Explored (blob : Blob) (pending : List Nat) (known : Table Nat Unit) : Prop :=
  ∀ place, known.contains place = true → ∃ d, blob.readDescriptor place = .ok d ∧
    ∀ target ∈ d.references, known.contains target.offset = true ∨ target.offset ∈ pending

theorem explored_empty : Explored blob pending Table.empty := by
  intro place there
  simp [Table.contains,Table.get?,Table.empty] at there

theorem contains_put (known : Table Nat Unit) (place p : Nat) :
    (known.put place ()).contains p = (decide (p = place) || known.contains p) := by
  by_cases same : p = place
  · subst p; simp [Table.contains,Table.get?_put_self]
  · simp [Table.contains,Table.get?_put_ne,same]

theorem Explored.pass (explored : Explored blob (place :: rest) known)
    (old : known.contains place = true) : Explored blob rest known := by
  intro p there
  obtain ⟨d,read,targets⟩ := explored p there
  refine ⟨d,read,fun target member => ?_⟩
  rcases targets target member with seen | waiting
  · exact .inl seen
  · rcases List.mem_cons.mp waiting with same | later
    · exact .inl (same ▸ old)
    · exact .inr later

theorem Explored.visit (explored : Explored blob (place :: rest) known)
    (read : blob.readDescriptor place = .ok d) :
    Explored blob ((d.references.map (·.offset)).reverse ++ rest) (known.put place ()) := by
  intro p there
  rw [contains_put,Bool.or_eq_true,decide_eq_true_eq] at there
  rcases there with rfl | old
  · refine ⟨d,read,fun target member => .inr (List.mem_append_left _ ?_)⟩
    simpa using ⟨target,member,rfl⟩
  · obtain ⟨e,readBefore,targets⟩ := explored p old
    refine ⟨e,readBefore,fun target member => ?_⟩
    rw [contains_put,Bool.or_eq_true,decide_eq_true_eq]
    rcases targets target member with seen | waiting
    · exact .inl (.inr seen)
    · rcases List.mem_cons.mp waiting with same | later
      · exact .inl (.inl same)
      · exact .inr (List.mem_append_right _ later)

-- The walk ends with nothing left to read, and forgets nothing on the way.
theorem reach_explored (explored : Explored blob pending known)
    (reached : blob.reach pending known = .ok result) :
    Explored blob [] result ∧ (∀ p ∈ pending, result.contains p = true) ∧
      ∀ p, known.contains p = true → result.contains p = true := by
  fun_induction reach blob pending known with
  | case1 known =>
    cases reached
    exact ⟨explored,by simp,fun _ old => old⟩
  | case2 known place rest old ih =>
    obtain ⟨done,later,kept⟩ := ih (explored.pass old) reached
    refine ⟨done,?_,kept⟩
    intro p member
    rcases List.mem_cons.mp member with rfl | tail
    · exact kept p old
    · exact later p tail
  | case3 => cases reached
  | case4 known place rest _ _ d read ih =>
    obtain ⟨done,later,kept⟩ := ih (explored.visit read) reached
    have keeps : ∀ p, p = place ∨ known.contains p = true → result.contains p = true := by
      intro p there
      exact kept p (by simpa [contains_put] using there)
    refine ⟨done,?_,fun p old => keeps p (.inr old)⟩
    intro p member
    rcases List.mem_cons.mp member with rfl | tail
    · exact keeps p (.inl rfl)
    · exact later p (List.mem_append_right _ tail)
  | case5 => cases reached

end ObjectBridge.Blob

namespace ObjectBridge.Metadata
open Outcome Blob

variable {bytes : Array UInt8} {m : Metadata} {id : DescriptorId}

-- The steps of loading.
theorem ofBytes_parts (loaded : Metadata.ofBytes bytes = .ok m) :
    ∃ index, Blob.ofBytes bytes = .ok m.blob ∧
      m.blob.readIndex none m.blob.indexCount (m.blob.index.start+4) = .ok index ∧
      m.blob.reach (index.map (·.2.offset)).reverse Table.empty = .ok m.known := by
  unfold Metadata.ofBytes at loaded
  obtain ⟨blob,opened,loaded⟩ := bind_ok.mp loaded
  obtain ⟨index,listed,loaded⟩ := bind_ok.mp loaded
  obtain ⟨known,reached,loaded⟩ := bind_ok.mp loaded
  obtain rfl := pure_ok.mp loaded
  exact ⟨index,opened,listed,reached⟩

theorem known_explored (loaded : Metadata.ofBytes bytes = .ok m) : Explored m.blob [] m.known := by
  obtain ⟨index,_,_,reached⟩ := ofBytes_parts loaded
  exact (reach_explored explored_empty reached).1

theorem ofBytes_bytes (loaded : Metadata.ofBytes bytes = .ok m) : m.blob.bytes = bytes := by
  obtain ⟨_,opened,_,_⟩ := ofBytes_parts loaded
  exact opened_bytes opened

theorem descriptor_known : (m.descriptor? id).isSome = m.known.contains id.offset := by
  unfold descriptor?
  split <;> simp_all

-- Every entry of the index was read as the views read it, and has its descriptor.
theorem entries_known (loaded : Metadata.ofBytes bytes = .ok m) :
    ∀ i < m.count, m.blob.ReadsEntry i ∧ (m.descriptor? (m.blob.entryAt i).2).isSome = true := by
  obtain ⟨index,_,listed,reached⟩ := ofBytes_parts loaded
  obtain ⟨reads,same⟩ := index_reads listed
  intro i below
  refine ⟨reads i below,?_⟩
  rw [descriptor_known]
  have nothing : Explored m.blob (index.map (·.2.offset)).reverse Table.empty := explored_empty
  apply (reach_explored nothing reached).2.1
  rw [List.mem_reverse,← same,List.map_map]
  exact List.mem_map.mpr ⟨i,List.mem_range.mpr below,rfl⟩

-- Nothing that can be reached in an accepted file is ever read wrong: no view of a known
-- descriptor falls back, and whatever it refers to is known as well.
theorem accepted_never_falls_back (loaded : Metadata.ofBytes bytes = .ok m) :
    m.blob.bytes = bytes ∧ ∀ place, m.known.contains place = true →
      m.descriptor? ⟨place⟩ = some (m.blob.descriptorAt place) ∧ m.blob.ReadsDescriptor place ∧
      ∀ target ∈ (m.blob.descriptorAt place).references, (m.descriptor? target).isSome = true := by
  refine ⟨ofBytes_bytes loaded,fun place known => ?_⟩
  obtain ⟨d,read,targets⟩ := known_explored loaded place known
  obtain ⟨reads,rfl⟩ := descriptor_reads read
  refine ⟨by simp [descriptor?,known],reads,fun target member => ?_⟩
  rw [descriptor_known]
  rcases targets target member with seen | waiting
  · exact seen
  · cases waiting

-- A structure that contains itself: its descriptor at 50, its only field at 71.
def selfContained : Array UInt8 :=
  #[0x4d,0x42,0x4d,0x44,1,0,0,0,32,0,0,0,6,0,0,0,38,0,0,0,50,0,0,0,29,0,0,0,79,0,0,0,
    1,0,0x50,1,0,0x78, 1,0,0,0,32,0,0,0,50,0,0,0,
    3,0,0,0,32,0,0,0,71,0,0,0,35,0,0,0,16,50,0,0,0,1,0,0,0,62,0,0,0]

def selfContainedBlob : Blob := ⟨selfContained,⟨32,38⟩,⟨38,50⟩,⟨50,79⟩⟩

theorem selfContained_never_falls_back :
    Metadata.ofBytes selfContained = .ok ⟨1,selfContainedBlob,⟨[(50,())]⟩⟩ ∧
      selfContainedBlob.ReadsDescriptor 50 := by
  have loaded : Metadata.ofBytes selfContained = .ok ⟨1,selfContainedBlob,⟨[(50,())]⟩⟩ := by cbv
  exact ⟨loaded,((accepted_never_falls_back loaded).2 50 (by decide)).2.1⟩

end ObjectBridge.Metadata
