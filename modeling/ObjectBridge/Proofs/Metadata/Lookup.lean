import ObjectBridge.Proofs.Metadata.FileBytes

namespace ObjectBridge
open Outcome

namespace Blob

variable {bytes : Array UInt8} {blob : Blob} {entries : List (String × DescriptorId)}

-- At `place` is a word that says where a text stands, and the text stands there.
def NameAt (bytes : Array UInt8) (place : Nat) (name : String) : Prop :=
  ∃ target length, number? bytes 4 place = some target ∧ number? bytes 2 target = some length ∧
    target+2+length ≤ bytes.size ∧ String.fromUTF8? ⟨bytes.extract (target+2) (target+2+length)⟩ = some name

-- An entry takes eight bytes, the word for its name and the place of its descriptor.
structure EntryAt (bytes : Array UInt8) (place : Nat) (entry : String × DescriptorId) : Prop where
  name : NameAt bytes place entry.1
  target : number? bytes 4 (place+4) = some entry.2.offset

-- The header says where the index starts, the first word of the index how many entries follow.
structure Indexed (bytes : Array UInt8) (entries : List (String × DescriptorId)) (start : Nat) : Prop where
  place : number? bytes 4 16 = some start
  count : number? bytes 4 start = some entries.length
  each : ∀ i (below : i < entries.length), EntryAt bytes (start+4+8*i) entries[i]

theorem entry_bytes {i : Nat} (reads : blob.ReadsEntry i) :
    EntryAt blob.bytes (blob.index.start+4+8*i) (blob.entryAt i) := by
  obtain ⟨⟨⟨_,pointed⟩,length,counted,inside,decoded⟩,⟨_,target⟩⟩ := reads
  exact ⟨⟨_,length,pointed,counted,inside,decoded⟩,target⟩

-- The count of the index is the one its bytes give.
theorem opened_index (opens : Blob.ofBytes bytes = .ok blob) :
    number? bytes 4 16 = some blob.index.start ∧ number? bytes 4 blob.index.start = some blob.indexCount := by
  obtain ⟨_,_,start,_,_,count,header,rfl⟩ := ofBytes_ok.mp opens
  have same : (start+(4+8*count)-start-4)/8 = count := by omega
  refine ⟨header.indexPlace,?_⟩
  change number? bytes 4 start = some ((start+(4+8*count)-start-4)/8)
  rw [same]
  exact header.entries

-- Each name that was read is above the one read before it, so above all before it.
theorem index_ascending {previous : Option String} {count place : Nat}
    (read : blob.readIndex previous count place = .ok entries) :
    (previous.toList ++ entries.map (·.1)).Pairwise (· < ·) := by
  induction count generalizing previous place entries with
  | zero =>
    cases read
    cases previous <;> simp
  | succ count ih =>
    obtain ⟨_,_,read⟩ := bind_ok.mp read
    obtain ⟨name,_,read⟩ := bind_ok.mp read
    obtain ⟨inOrder,read⟩ := guard_ok.mp read
    obtain ⟨_,_,read⟩ := bind_ok.mp read
    obtain ⟨rest,others,joined⟩ := bind_ok.mp read
    obtain rfl := pure_ok.mp joined
    have tail : (name :: rest.map (·.1)).Pairwise (· < ·) := ih others
    cases previous with
    | none => exact tail
    | some before =>
      have less : before < name := by simpa using inOrder
      refine List.pairwise_cons.mpr ⟨?_,tail⟩
      intro later member
      rcases List.mem_cons.mp member with same | behind
      · exact same ▸ less
      · exact lt_trans less ((List.pairwise_cons.mp tail).1 later behind)

end Blob

namespace Metadata
open Blob

variable {bytes : Array UInt8} {m : Metadata} {entries : List (String × DescriptorId)}

-- What loading has established about the index.
structure Loads (m : Metadata) (entries : List (String × DescriptorId)) : Prop extends m.Catalogue entries where
  read : ∀ e ∈ entries, m.blob.readDescriptor e.2.offset = .ok (m.blob.descriptorAt e.2.offset)
  described : ∀ e ∈ entries, m.descriptor? e.2 = some (m.blob.descriptorAt e.2.offset)

theorem loaded_index (loaded : Metadata.ofBytes bytes = .ok m) : ∃ entries, m.Loads entries := by
  obtain ⟨entries,_,listed,reached⟩ := ofBytes_parts loaded
  have known : ∀ e ∈ entries, m.known.contains e.2.offset = true := by
    intro e member
    refine (reach_explored explored_empty reached).2.1 _ ?_
    simpa using ⟨e.1,e.2,member,rfl⟩
  refine ⟨entries,⟨(index_reads listed).2,index_ascending listed⟩,?_,fun e member => if_pos (known e member)⟩
  intro e member
  obtain ⟨d,read,_⟩ := known_explored loaded e.2.offset (known e member)
  obtain ⟨_,rfl⟩ := descriptor_reads read
  exact read

namespace Loads

variable (loads : m.Loads entries)
include loads

-- The first entry of a name is the only one.
theorem scans (name : String) : m.idOf? name = (entries.find? (·.1 = name)).map (·.2) := by
  have distinct : (entries.map (·.1)).Nodup := loads.ascending.imp ne_of_lt
  ext id
  rw [loads.finds_iff,Option.map_eq_some_iff]
  constructor
  · intro member
    cases first : entries.find? (·.1 = name) with
    | none => simpa using List.find?_eq_none.mp first (name,id) member
    | some e =>
      have named : e.1 = name := by simpa using List.find?_some first
      have same : e = (name,id) :=
        List.inj_on_of_nodup_map distinct (List.mem_of_find?_eq_some first) member named
      exact ⟨e,rfl,congrArg Prod.snd same⟩
  · rintro ⟨e,first,rfl⟩
    have named : e.1 = name := by simpa using List.find?_some first
    rw [← named]
    exact List.mem_of_find?_eq_some first

theorem resolves (name : String) : m.resolve? name =
    (entries.find? (·.1 = name)).map fun e => (e.2,m.blob.descriptorAt e.2.offset) := by
  change (m.idOf? name).bind (fun id => (m.descriptor? id).bind fun d => some (id,d)) = _
  rw [loads.scans]
  cases first : entries.find? (·.1 = name) with
  | none => rfl
  | some e => simp [loads.described e (List.mem_of_find?_eq_some first)]

theorem resolves_iff {name : String} {id : DescriptorId} {d : Descriptor} :
    m.resolve? name = some (id,d) ↔ (name,id) ∈ entries ∧ m.blob.readDescriptor id.offset = .ok d := by
  change (m.idOf? name).bind (fun found => (m.descriptor? found).bind fun e => some (found,e)) = _ ↔ _
  rw [Option.bind_eq_some_iff]
  constructor
  · rintro ⟨found,there,other⟩
    have member := loads.finds_iff.mp there
    obtain ⟨rfl,rfl⟩ : found = id ∧ m.blob.descriptorAt found.offset = d := by
      simpa [loads.described _ member] using other
    exact ⟨member,loads.read _ member⟩
  · rintro ⟨member,read⟩
    obtain rfl : m.blob.descriptorAt id.offset = d := Except.ok.inj ((loads.read _ member).symm.trans read)
    exact ⟨id,loads.finds_iff.mpr member,by simp [loads.described _ member]⟩

theorem names : m.named = entries.map fun e => (e.2,m.blob.descriptorAt e.2.offset) := by
  rw [loads.named_eq,← List.filterMap_eq_map]
  refine List.filterMap_congr fun e member => ?_
  simp [loads.described e member]

theorem indexed (loaded : Metadata.ofBytes bytes = .ok m) : Indexed bytes entries m.blob.index.start := by
  obtain ⟨_,opens,_,_⟩ := ofBytes_parts loaded
  obtain ⟨place,count⟩ := opened_index opens
  refine ⟨place,loads.count ▸ count,fun i below => ?_⟩
  have bytesSay := entry_bytes (entries_known loaded i (loads.count ▸ below)).1
  rwa [opened_bytes opens,loads.entryAt below] at bytesSay

end Loads

-- Looking a name up answers as going through the index from the first entry to the last does.
theorem names_looked_up_exactly (loaded : Metadata.ofBytes bytes = .ok m) : ∃ start entries,
    Indexed bytes entries start ∧ m.count = entries.length ∧ (entries.map (·.1)).Pairwise (· < ·) ∧
      (∀ e ∈ entries, m.blob.readDescriptor e.2.offset = .ok (m.blob.descriptorAt e.2.offset)) ∧
      (∀ name, (m.resolve? name).isSome ↔ ∃ id, (name,id) ∈ entries) ∧
      (∀ name id d, m.resolve? name = some (id,d) ↔ (name,id) ∈ entries ∧ m.blob.readDescriptor id.offset = .ok d) ∧
      (∀ name, m.resolve? name =
        (entries.find? (·.1 = name)).map fun e => (e.2,m.blob.descriptorAt e.2.offset)) ∧
      m.named = entries.map fun e => (e.2,m.blob.descriptorAt e.2.offset) := by
  obtain ⟨entries,loads⟩ := loaded_index loaded
  have present : ∀ name, (m.resolve? name).isSome ↔ ∃ id, (name,id) ∈ entries := by
    intro name
    rw [loads.resolves,Option.isSome_map]
    simp
  exact ⟨_,entries,loads.indexed loaded,loads.count,loads.ascending,loads.read,present,
    fun _ _ _ => loads.resolves_iff,loads.resolves,loads.names⟩

-- Two classes without members, their names at 32 and 35, their descriptors at 58 and 82.
def twoClasses : Array UInt8 :=
  #[0x4d,0x42,0x4d,0x44,1,0,0,0,32,0,0,0,6,0,0,0,38,0,0,0,58,0,0,0,72,0,0,0,130,0,0,0,
    1,0,0x41,1,0,0x42, 2,0,0,0,32,0,0,0,58,0,0,0,35,0,0,0,82,0,0,0,
    1,0,0,0,32,0,0,0,255,255,255,255,106,0,0,0,110,0,0,0,114,0,0,0,
    1,0,0,0,35,0,0,0,255,255,255,255,118,0,0,0,122,0,0,0,126,0,0,0,
    0,0,0,0,0,0,0,0,0,0,0,0,0,0,0,0,0,0,0,0,0,0,0,0]

def twoClassesLoaded : Metadata :=
  ⟨1,⟨twoClasses,⟨32,38⟩,⟨38,58⟩,⟨58,130⟩⟩,⟨[(58,()),(82,())]⟩⟩

set_option maxRecDepth 2000 in
theorem twoClasses_looked_up : Metadata.ofBytes twoClasses = .ok twoClassesLoaded ∧
    ∃ start entries, Indexed twoClasses entries start ∧ entries.length = 2 ∧ ("B",⟨82⟩) ∈ entries ∧
      ¬∃ id, ("AB",id) ∈ entries := by
  have loaded : Metadata.ofBytes twoClasses = .ok twoClassesLoaded := by cbv
  obtain ⟨start,entries,indexed,count,_,_,present,described,_,_⟩ := names_looked_up_exactly loaded
  have found : twoClassesLoaded.resolve? "B" = some (⟨82⟩,.interface "B" none ⟨[],[],[]⟩) := by cbv
  have missing : (twoClassesLoaded.resolve? "AB").isSome = false := by cbv
  refine ⟨loaded,start,entries,indexed,?_,((described _ _ _).mp found).1,?_⟩
  · rw [← count]
    decide
  · rw [← present,missing]
    simp

end Metadata
end ObjectBridge
