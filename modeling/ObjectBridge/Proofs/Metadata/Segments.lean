import ObjectBridge.Metadata.Writer
import ObjectBridge.Proofs.Metadata.CheckedReads

namespace ObjectBridge

-- The file has the row at that place.
def Stands (bytes : Array UInt8) (place : Nat) (row : List UInt8) : Prop :=
  ∃ before after, bytes.toList = before ++ row ++ after ∧ before.length = place

namespace Stands
open Layout Blob

variable {bytes : Array UInt8} {place : Nat} {row first second : List UInt8}

theorem left (stands : Stands bytes place (first ++ second)) : Stands bytes place first := by
  obtain ⟨before,after,whole,here⟩ := stands
  exact ⟨before,second ++ after,by rw [whole]; simp only [List.append_assoc],here⟩

theorem right (stands : Stands bytes place (first ++ second)) :
    Stands bytes (place+first.length) second := by
  obtain ⟨before,after,whole,here⟩ := stands
  exact ⟨before ++ first,after,by rw [whole]; simp only [List.append_assoc],by rw [List.length_append,here]⟩

theorem inside (stands : Stands bytes place row) : place+row.length ≤ bytes.size := by
  obtain ⟨before,after,whole,here⟩ := stands
  have size := congrArg List.length whole
  rw [Array.length_toList,List.length_append,List.length_append,here] at size
  omega

theorem byte {b : UInt8} (stands : Stands bytes place (b :: row)) : bytes[place]? = some b := by
  obtain ⟨before,after,whole,rfl⟩ := stands
  rw [← Array.getElem?_toList,whole,List.append_assoc,List.getElem?_append_right (Nat.le_refl _),Nat.sub_self]
  rfl

theorem tail {b : UInt8} (stands : Stands bytes place (b :: row)) : Stands bytes (place+1) row := by
  have split : Stands bytes place ([b] ++ row) := stands
  exact split.right

theorem whole (row : List UInt8) : Stands row.toArray 0 row := ⟨[],[],by simp,rfl⟩

theorem number {count n : Nat} (stands : Stands bytes place (littleEndian count n)) (fits : n < 256^count) :
    number? bytes count place = some n := by
  induction count generalizing place n with
  | zero =>
    rw [Nat.pow_zero] at fits
    rw [number?,Nat.lt_one_iff.mp fits]
  | succ count ih =>
    have low := stands.byte
    have high := ih stands.tail (by rw [Nat.pow_succ'] at fits; exact Nat.div_lt_of_lt_mul fits)
    rw [number?,low,high]
    simp only [Option.bind_eq_bind,Option.bind_some,Option.pure_def,Option.some.injEq]
    rw [UInt8.toNat_ofNat']
    exact Nat.mod_add_div n 256

theorem word {n : Nat} (stands : Stands bytes place (Layout.word n)) (fits : n < 2^32) (part : String) :
    readWord bytes part place = .ok n :=
  readNumber_ok.mpr (stands.number fits)

theorem length_word (n : Nat) : (Layout.word n).length = 4 := length_littleEndian 4 n

theorem next {n : Nat} (stands : Stands bytes place (Layout.word n ++ row)) : Stands bytes (place+4) row := by
  have rest := stands.right
  rwa [length_word] at rest

theorem extract (stands : Stands bytes place row) : (bytes.extract place (place+row.length)).toList = row := by
  obtain ⟨before,after,whole,rfl⟩ := stands
  rw [Array.toList_extract,whole,List.extract_eq_take_drop,List.append_assoc,List.drop_left,Nat.add_sub_cancel_left,
    List.take_left]

theorem fromUTF8?_toUTF8 (text : String) : String.fromUTF8? text.toUTF8 = some text :=
  dif_pos text.isValidUTF8

theorem text {text : String} (stands : Stands bytes place (textBytes text)) (short : text.utf8ByteSize ≤ textLimit)
    (part : String) : readRawText bytes part place = .ok (text,place+textSize text) := by
  have body := stands.right
  have length : (half text.utf8ByteSize).length = 2 := length_littleEndian 2 _
  have size : (Text.encodeUtf8 text).toList.length = text.utf8ByteSize := rfl
  rw [length] at body
  have written : bytes.extract (place+2) (place+2+text.utf8ByteSize) = text.toUTF8.data := by
    rw [← Array.toList_inj,← size]
    exact body.extract
  refine readRawText_ok.mpr ⟨text.utf8ByteSize,stands.left.number ?_,?_,?_,?_⟩
  · simp only [textLimit] at short; omega
  · have within := body.inside; omega
  · rw [written]
    exact fromUTF8?_toUTF8 text
  · rw [textSize]; omega

end Stands
end ObjectBridge
