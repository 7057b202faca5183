import Mathlib.Algebra.Group.Nat.Defs
import ObjectBridge.Inspector.Objects
import ObjectBridge.Proofs.Bridge.PlainValues
import ObjectBridge.Proofs.Json.Reading

namespace ObjectBridge

namespace Inspector

-- What makes an encoding of it: writing touches nothing that is already there, reading takes back
-- exactly what was written, and nothing else is read as the same value. `Fits` bounds what can be written.
structure Form (append : ByteWriter α) (read : ByteReader α) (Fits : α → Prop) : Prop where
  appends : ∀ a out, append a out = out ++ append a []
  reads : ∀ a rest, Fits a → read (append a [] ++ rest) = some (a,rest)
  canonical : ∀ {bytes a rest}, read bytes = some (a,rest) → Fits a ∧ bytes = append a [] ++ rest

theorem readNumber_written {count n : Nat} (fits : n < 256^count) (rest : Bytes) :
    readNumber count (littleEndian count n ++ rest) = some (n,rest) := by
  induction count generalizing n with
  | zero =>
    rw [Nat.pow_zero] at fits
    rw [Nat.lt_one_iff.mp fits]
    rfl
  | succ count ih =>
    rw [Nat.pow_succ'] at fits
    rw [littleEndian,List.cons_append,readNumber,ih (Nat.div_lt_of_lt_mul fits)]
    simp only [Option.bind_eq_bind,Option.bind_some,Option.pure_def,UInt8.toNat_ofNat']
    rw [Nat.mod_add_div n 256]

theorem readNumber_ok {count n : Nat} {bytes rest : Bytes} (read : readNumber count bytes = some (n,rest)) :
    n < 256^count ∧ bytes = littleEndian count n ++ rest := by
  induction count generalizing bytes n with
  | zero =>
    cases read
    exact ⟨by decide,rfl⟩
  | succ count ih =>
    cases bytes with
    | nil => cases read
    | cons low bytes =>
      obtain ⟨⟨high,_⟩,later,joined⟩ := Option.bind_eq_some_iff.mp read
      cases joined
      obtain ⟨below,rfl⟩ := ih later
      have byte := low.toNat_lt
      have front : (low.toNat+256*high)/256 = high := by omega
      have back : UInt8.ofNat (low.toNat+256*high) = low := by
        apply UInt8.toNat.inj
        rw [UInt8.toNat_ofNat']
        omega
      refine ⟨?_,?_⟩
      · rw [Nat.pow_succ']
        omega
      · rw [littleEndian,front,back,List.cons_append]

theorem number_form (count : Nat) : Form (appendNumber count) (readNumber count) (· < 256^count) where
  appends n out := by simp [appendNumber]
  reads n rest fits := by
    rw [appendNumber,List.nil_append]
    exact readNumber_written fits rest
  canonical read := by
    rw [appendNumber,List.nil_append]
    exact readNumber_ok read

-- Lengths are kept in words of 64 bits, and no text in memory is longer than such a word can say.
def Addressable (text : String) : Prop := text.utf8ByteSize < 2^64

instance : DecidablePred Addressable := fun text => inferInstanceAs (Decidable (text.utf8ByteSize < 2^64))

theorem text_form : Form appendText readText Addressable where
  appends text out := by simp [appendText,appendNumber]
  reads text rest fits := by
    have length : (Text.encodeUtf8 text).toList.length = text.utf8ByteSize := rfl
    have decoded : Text.decodeUtf8 (Text.encodeUtf8 text).toList.toArray = .ok text := Text.decodeUtf8_ok.mpr rfl
    rw [appendText,appendNumber,List.nil_append,List.append_assoc,readText,readNumber_written fits]
    simp only [Option.bind_eq_bind,Option.bind_some]
    rw [if_neg (by rw [List.length_append,length]; omega),← length,List.take_left,List.drop_left,decoded]
    rfl
  canonical {bytes text rest} read := by
    obtain ⟨⟨length,behind⟩,number,body⟩ := Option.bind_eq_some_iff.mp read
    obtain ⟨fits,rfl⟩ := readNumber_ok number
    dsimp only at body
    split at body
    · cases body
    · rename_i enough
      obtain ⟨_,decoded,joined⟩ := Option.bind_eq_some_iff.mp body
      cases joined
      cases result : Text.decodeUtf8 (behind.take length).toArray with
      | error e =>
        rw [result] at decoded
        cases decoded
      | ok _ =>
        rw [result] at decoded
        cases decoded
        have taken := Text.decodeUtf8_ok.mp result
        have counted : text.utf8ByteSize = length := by
          change (Text.encodeUtf8 text).toList.length = length
          rw [← taken,List.length_take_of_le (Nat.not_lt.mp enough)]
        refine ⟨by rw [Addressable,counted]; exact fits,?_⟩
        rw [appendText,appendNumber,List.nil_append,List.append_assoc,counted,← taken,List.take_append_drop]

section Parts

variable {α β : Type} {append : ByteWriter α} {append' : ByteWriter β} {read : ByteReader α} {read' : ByteReader β}
  {Fits : α → Prop} {Fits' : β → Prop}

theorem Form.option (form : Form append read Fits) :
    Form (appendOption append) (readOption read) fun o => ∀ a ∈ o, Fits a where
  appends o out := by
    cases o with
    | none => rfl
    | some a =>
      simp only [appendOption]
      rw [form.appends a (out ++ [1]),form.appends a ([] ++ [1]),List.append_assoc,List.nil_append]
  reads o rest fits := by
    cases o with
    | none => rfl
    | some a =>
      simp only [appendOption]
      rw [form.appends,List.nil_append,List.append_assoc]
      change (read (append a [] ++ rest)).bind _ = _
      rw [form.reads a rest (fits a rfl)]
      rfl
  canonical {bytes o rest} taken := by
    unfold readOption at taken
    split at taken
    · cases taken
      exact ⟨nofun,rfl⟩
    · obtain ⟨⟨a,behind⟩,inside,joined⟩ := Option.bind_eq_some_iff.mp taken
      cases joined
      obtain ⟨fits,rfl⟩ := form.canonical inside
      refine ⟨fun _ same => Option.some.inj same ▸ fits,?_⟩
      simp only [appendOption]
      rw [form.appends a ([] ++ [1]),List.append_assoc]
      rfl
    · cases taken

def appendBoth (append : ByteWriter α) (append' : ByteWriter β) : ByteWriter (α × β) :=
  fun pair out => append' pair.2 (append pair.1 out)

def readBoth (read : ByteReader α) (read' : ByteReader β) : ByteReader (α × β) := fun bytes => do
  let (a,bytes) ← read bytes
  let (b,bytes) ← read' bytes
  return ((a,b),bytes)

theorem Form.both (first : Form append read Fits) (second : Form append' read' Fits') :
    Form (appendBoth append append') (readBoth read read') fun pair => Fits pair.1 ∧ Fits' pair.2 where
  appends pair out := by
    simp only [appendBoth]
    rw [second.appends pair.2 (append pair.1 out),first.appends pair.1 out,second.appends pair.2 (append pair.1 []),
      List.append_assoc]
  reads pair rest fits := by
    simp only [appendBoth,readBoth]
    rw [second.appends,List.append_assoc,first.reads _ _ fits.1]
    simp only [Option.bind_eq_bind,Option.bind_some]
    rw [second.reads _ _ fits.2]
    rfl
  canonical {bytes pair rest} taken := by
    obtain ⟨⟨a,middle⟩,one,later⟩ := Option.bind_eq_some_iff.mp taken
    obtain ⟨⟨b,behind⟩,other,joined⟩ := Option.bind_eq_some_iff.mp later
    cases joined
    obtain ⟨fits,rfl⟩ := first.canonical one
    obtain ⟨fits',rfl⟩ := second.canonical other
    refine ⟨⟨fits,fits'⟩,?_⟩
    simp only [appendBoth]
    rw [second.appends b (append a []),List.append_assoc]

-- Another type with the same form: all its values have their parts, and what parts do not belong
-- together is refused.
theorem Form.made {append' : ByteWriter β} {read' : ByteReader β} {Fits' : β → Prop} (form : Form append read Fits)
    (parts : β → α) (make : α → Option β) (whole : ∀ b, make (parts b) = some b)
    (unique : ∀ a b, Fits a → make a = some b → parts b = a) (written : ∀ b out, append' b out = append (parts b) out)
    (taken : ∀ bytes, read' bytes = (read bytes).bind fun front => (make front.1).map (·,front.2))
    (fit : ∀ b, Fits' b ↔ Fits (parts b)) : Form append' read' Fits' where
  appends b out := by
    rw [written,written,form.appends]
  reads b rest fits := by
    rw [written,taken,form.reads (parts b) rest ((fit b).mp fits),Option.bind_some,whole]
    rfl
  canonical {bytes b rest} read := by
    rw [taken] at read
    obtain ⟨⟨a,behind⟩,front,later⟩ := Option.bind_eq_some_iff.mp read
    obtain ⟨b',made,joined⟩ := Option.map_eq_some_iff.mp later
    cases joined
    obtain ⟨fits,same⟩ := form.canonical front
    have back := unique a b fits made
    rw [fit,written,back]
    exact ⟨fits,same⟩

end Parts
end Inspector

namespace RemoteObject

-- All five texts can be written.
def Addressable (x : RemoteObject) : Prop :=
  Inspector.Addressable x.type ∧ ∀ value ∈ [x.subtype,x.className,x.description,x.objectId],
    ∀ text ∈ value, Inspector.Addressable text

instance : DecidablePred Addressable := fun _ => inferInstanceAs (Decidable (_ ∧ _))

theorem bytes_form : Inspector.Form appendTo readBytes Addressable := by
  have optional := Inspector.text_form.option
  have fields := Inspector.text_form.both (optional.both (optional.both (optional.both optional)))
  refine fields.made (fun x => (x.type,x.subtype,x.className,x.description,x.objectId))
    (fun p => some ⟨p.1,p.2.1,p.2.2.1,p.2.2.2.1,p.2.2.2.2⟩) (fun _ => rfl) ?_ (fun _ _ => rfl) ?_ ?_
  · intro parts x _ made
    cases made
    rfl
  · intro bytes
    simp [readBytes,Inspector.readBoth,Option.bind_assoc]
  · intro x
    simp [Addressable]

end RemoteObject

namespace Domain

def Addressable (x : Domain) : Prop := Inspector.Addressable x.name ∧ Inspector.Addressable x.version

theorem bytes_form : Inspector.Form appendTo readBytes Addressable := by
  refine (Inspector.text_form.both Inspector.text_form).made (fun x => (x.name,x.version))
    (fun p => some ⟨p.1,p.2⟩) (fun _ => rfl) ?_ (fun _ _ => rfl) ?_ (fun _ => Iff.rfl)
  · intro parts x _ made
    cases made
    rfl
  · intro bytes
    simp [readBytes,Inspector.readBoth,Option.bind_assoc]

end Domain

theorem ConsoleLevel.ofNumber_number (level : ConsoleLevel) : ofNumber? level.number = some level := by
  cases level <;> rfl

theorem ConsoleLevel.number_ofNumber {n : Nat} {level : ConsoleLevel} (found : ofNumber? n = some level) :
    level.number = n := by
  unfold ofNumber? at found
  split at found <;> cases found <;> rfl

namespace ConsoleMessage

def Addressable (x : ConsoleMessage) : Prop := Inspector.Addressable x.text

theorem bytes_form : Inspector.Form appendTo readBytes Addressable := by
  have fields := (Inspector.number_form 4).both (Inspector.text_form.both (Inspector.number_form 8))
  refine fields.made (fun x => (x.level.number,x.text,x.timestamp.bits.toNat))
    (fun p => (ConsoleLevel.ofNumber? p.1).map fun level => ⟨level,p.2.1,⟨UInt64.ofNat p.2.2⟩⟩)
    ?_ ?_ (fun _ _ => rfl) ?_ ?_
  · intro x
    simp [ConsoleLevel.ofNumber_number]
  · intro parts x fits made
    obtain ⟨level,found,joined⟩ := Option.map_eq_some_iff.mp made
    cases joined
    have stamp : parts.2.2 % 2^64 = parts.2.2 := Nat.mod_eq_of_lt fits.2.2
    rw [UInt64.toNat_ofNat',stamp,ConsoleLevel.number_ofNumber found]
  · intro bytes
    -- The level is looked up before the reader goes on; where it is none, nothing that follows matters.
    simp only [readBytes,Inspector.readBoth,Option.bind_eq_bind,Option.bind_assoc,Option.pure_def,Option.bind_some]
    congr 1
    funext front
    cases ConsoleLevel.ofNumber? front.1 <;> simp
  · intro x
    have level : x.level.number < 256^4 := by cases x.level <;> decide
    have stamp : x.timestamp.bits.toNat < 256^8 := x.timestamp.bits.toNat_lt
    simp only [Addressable,level,stamp,true_and,and_true]

end ConsoleMessage

namespace Inspector

-- Members of an object as they are written, without those that are absent.
def present (fields : List (String × Option String)) : List (String × Json) :=
  fields.flatMap fun f => (f.2.map fun text => (f.1,Json.string text)).toList

theorem present_worded (fields : List (String × Option String)) : (Json.object (present fields)).Worded := by
  refine .object fun member among => ?_
  obtain ⟨f,_,inside⟩ := List.mem_flatMap.mp among
  obtain ⟨text,_,rfl⟩ := Option.map_eq_some_iff.mp (Option.mem_toList.mp inside)
  exact .string text

theorem present_filter (fields : List (String × Option String)) (name : String) :
    (present fields).filter (·.1 = name) = present (fields.filter (·.1 = name)) := by
  induction fields with
  | nil => rfl
  | cons f fields ih =>
    obtain ⟨own,value⟩ := f
    rw [present,List.flatMap_cons,List.filter_append,← present,ih]
    by_cases same : own = name <;> cases value <;> simp [present,same]

theorem named_once {fields : List (String × α)} (distinct : (fields.map (·.1)).Nodup) {f : String × α}
    (among : f ∈ fields) : fields.filter (·.1 = f.1) = [f] := by
  induction fields with
  | nil => cases among
  | cons g fields ih =>
    obtain ⟨apart,distinct⟩ := List.nodup_cons.mp distinct
    rcases List.mem_cons.mp among with rfl | among
    · have others : fields.filter (·.1 = f.1) = [] := by
        apply List.filter_eq_nil_iff.mpr
        intro h among same
        exact apart (List.mem_map.mpr ⟨h,among,of_decide_eq_true same⟩)
      rw [List.filter_cons_of_pos (by simp),others]
    · have other : g.1 ≠ f.1 := fun same => apart (List.mem_map.mpr ⟨f,among,same.symm⟩)
      rw [List.filter_cons_of_neg (by simp [other]),ih distinct among]

-- Each field is found under its own name, the absent ones as absent.
theorem present_fields (fields : List (String × Option String)) (distinct : (fields.map (·.1)).Nodup) :
    (Json.object (present fields)).fields? (fields.map (·.1)) = some (fields.map fun f => f.2.map Json.string) := by
  rw [Json.fields?,List.mapM_map]
  apply Json.mapM_found
  intro f among
  rw [Function.comp_apply,present_filter,named_once distinct among]
  obtain ⟨_,value⟩ := f
  cases value <;> rfl

theorem nullable_text (value : Option String) : Json.nullable Json.toText? (value.map Json.string) = some value := by
  cases value <;> rfl

end Inspector

-- The fields under the names that they have in JSON.
def RemoteObject.named (x : RemoteObject) : List (String × Option String) :=
  [("type",some x.type),("subtype",x.subtype),("className",x.className),("description",x.description),
    ("objectId",x.objectId)]

theorem RemoteObject.json_form (x : RemoteObject) : (Json.parse? x.toJson.compact).bind ofJson? = some x := by
  have shape : x.toJson = .object (Inspector.present x.named) := by
    simp [toJson,Inspector.present,named]
  have fields := Inspector.present_fields x.named (by simp [named])
  simp only [named,List.map_cons,List.map_nil] at fields
  rw [shape,(Inspector.present_worded _).parsed,Option.bind_some,ofJson?,named,fields]
  simp [Inspector.nullable_text,Json.toText?]

theorem Domain.json_form (x : Domain) : (Json.parse? x.toJson.compact).bind ofJson? = some x := by
  have worded : x.toJson.Worded := Inspector.present_worded [("name",some x.name),("version",some x.version)]
  rw [worded.parsed]
  rfl

-- Whatever an inspector is sent, either form gives it back, and in bytes nothing but its own form does.
theorem both_forms_decode :
    (∀ x : RemoteObject, (Json.parse? x.toJson.compact).bind RemoteObject.ofJson? = some x) ∧
    (∀ x : Domain, (Json.parse? x.toJson.compact).bind Domain.ofJson? = some x) ∧
    Inspector.Form RemoteObject.appendTo RemoteObject.readBytes RemoteObject.Addressable ∧
    Inspector.Form Domain.appendTo Domain.readBytes Domain.Addressable ∧
    Inspector.Form ConsoleMessage.appendTo ConsoleMessage.readBytes ConsoleMessage.Addressable :=
  ⟨RemoteObject.json_form,Domain.json_form,RemoteObject.bytes_form,Domain.bytes_form,ConsoleMessage.bytes_form⟩

def peculiar : RemoteObject := ⟨"\"\\\n\x01é😀",none,some "",none,some "null"⟩

theorem peculiar_decodes :
    (Json.parse? peculiar.toJson.compact).bind RemoteObject.ofJson? = some peculiar ∧
    RemoteObject.readBytes (peculiar.appendTo [] ++ [1,0]) = some (peculiar,[1,0]) ∧
    ConsoleMessage.readBytes (ConsoleMessage.appendTo ⟨.warn,"é",⟨0x7ff8000000000001⟩⟩ [] ++ [0]) =
      some (⟨.warn,"é",⟨0x7ff8000000000001⟩⟩,[0]) := by
  obtain ⟨json,_,remote,_,message⟩ := both_forms_decode
  have short : Inspector.Addressable "é" := by decide
  exact ⟨json peculiar,remote.reads peculiar [1,0] (by decide),message.reads _ [0] short⟩

end ObjectBridge
