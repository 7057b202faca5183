import ObjectBridge.Proofs.Metadata.RoundTrip
import ObjectBridge.Synthesis.Memo

namespace ObjectBridge
open Layout Outcome

structure Descriptor.SameOutline (d e : Descriptor) : Prop where
  name : d.name = e.name
  kind : d.kind = e.kind
  parents : Synthesis.parentsOf d = Synthesis.parentsOf e

namespace Blob

variable {blob : Blob} {texts : List String} {place here n : Nat} {row : List UInt8}

theorem number_below {bytes : Array UInt8} {count : Nat} (found : number? bytes count place = some n) : n < 256^count := by
  induction count generalizing place n with
  | zero =>
    cases found
    exact Nat.one_pos
  | succ count ih =>
    obtain ⟨low,high,_,others,rfl⟩ := number_first found
    have below := ih others
    have byte := low.toNat_lt
    rw [Nat.pow_succ]
    omega

theorem Holds.wordAt (holds : Holds blob place (word n ++ row)) (fits : n < 2^32) : blob.wordAt place = n :=
  (word_reads (holds.left.stands.number fits)).2

theorem protocols_at {m : Members} (small : blob.bytes.size < 2^32) (refers : Refers m.protocols)
    (holds : Holds blob here (membersParts texts here m).1)
    (record : Holds blob place ((membersParts texts here m).2.flatMap word)) :
    (blob.membersAt place).protocols = m.protocols := by
  unfold membersParts at holds record
  dsimp only at holds record
  simp only [List.append_assoc,List.flatMap_cons] at holds record
  obtain ⟨list,below⟩ := references_read small refers holds.left
  have pointed : blob.wordAt place = here := record.wordAt (Nat.lt_trans below (by decide))
  have places : blob.listAt here = m.protocols.map (·.offset) := (list_reads list).2
  rw [membersAt,pointed,places,List.map_map]
  exact List.map_id _

theorem referenceAt_word {base : Option DescriptorId} (refers : Refers base.toList)
    (holds : Holds blob place (word ((base.map (·.offset)).getD nowhere) ++ row)) : blob.referenceAt place = base := by
  unfold referenceAt
  cases base with
  | none =>
    have pointed : blob.wordAt place = nowhere := holds.wordAt (by decide)
    rw [if_pos pointed]
  | some id =>
    have below : id.offset < nowhere := refers id List.mem_cons_self
    have pointed : blob.wordAt place = id.offset := holds.wordAt (Nat.lt_trans below (by decide))
    rw [pointed,if_neg (Nat.ne_of_lt below)]

theorem textAt_word {text : String} (lettered : Lettered blob texts) (among : text ∈ texts)
    (holds : Holds blob place (word (textPlace texts text) ++ row)) : blob.textAt (blob.wordAt place) = text := by
  obtain ⟨below,read⟩ := lettered text among
  rw [holds.wordAt below]
  exact (text_reads (read "name")).2

-- Every record begins with the kind and the name.
theorem record_head {d : Descriptor} {places : List Nat} (lettered : Lettered blob texts) (among : d.name ∈ texts)
    (record : Holds blob place (recordBytes texts d places)) :
    DescriptorKind.ofTag? (blob.byteAt place) = some d.kind ∧ blob.textAt (blob.wordAt (place+4)) = d.name ∧
      Holds blob (place+8) (places.flatMap word) := by
  unfold recordBytes at record
  simp only [List.append_assoc] at record
  have tag := (byte_reads record.left.stands.byte).2
  have name : Holds blob (place+4) (word (textPlace texts d.name) ++ _) := record.right
  exact ⟨by rw [tag,DescriptorKind.ofTag?_tag],textAt_word lettered among name,name.next⟩

-- The types of the members need not even be readable.
theorem record_outline {d : Descriptor} (small : blob.bytes.size < 2^32) (lettered : Lettered blob texts)
    (fits : DescriptorFits (fun _ => True) texts d) (holds : Holds blob here (descriptorParts texts here d).1)
    (record : Holds blob place (recordBytes texts d (descriptorParts texts here d).2)) :
    (blob.descriptorAt place).SameOutline d := by
  obtain ⟨kind,named,body⟩ := record_head lettered fits.name record
  have members := fits.body
  unfold descriptorAt
  rw [kind,named]
  cases d with
  | interface title base m =>
    unfold descriptorParts at holds body
    dsimp only at holds body
    rw [List.flatMap_cons] at body
    have superclass := referenceAt_word members.1 body
    have protocols := protocols_at small members.2.protocols holds body.next
    refine ⟨rfl,rfl,?_⟩
    change Except.ok (blob.referenceAt (place+8),(blob.membersAt (place+8+4)).protocols) = Except.ok (base,m.protocols)
    rw [superclass,protocols]
  | protocol title m =>
    have protocols := protocols_at small members.protocols holds body
    refine ⟨rfl,rfl,?_⟩
    change Except.ok (none,(blob.membersAt (place+4+4)).protocols) = Except.ok (none,m.protocols)
    rw [protocols]
  | struct | function => exact ⟨rfl,rfl,rfl⟩

end Blob

namespace Metadata

variable {m : Metadata} {file : Array UInt8}

-- A file states its size in four bytes.
theorem ofBytes_small (loaded : Metadata.ofBytes file = .ok m) : file.size < 2^32 := by
  obtain ⟨_,opens,_,_⟩ := ofBytes_parts loaded
  obtain ⟨_,_,_,_,_,_,header,_⟩ := Blob.ofBytes_ok.mp opens
  exact Blob.number_below header.size

-- What the file has at the place of a descriptor.
def entry (m : Metadata) (p : DescriptorId × Descriptor) : DescriptorId × Descriptor :=
  (p.1,m.blob.descriptorAt p.1.offset)

structure Outlines (m : Metadata) (placed : List (DescriptorId × Descriptor)) : Prop where
  named : m.named.Perm (placed.map m.entry)
  described : ∀ p ∈ placed, m.descriptor? p.1 = some (m.entry p).2
  same : ∀ p ∈ placed, (m.entry p).2.SameOutline p.2

variable {u : Universe} {placed : List (DescriptorId × Descriptor)}

section Resolved

variable (resolved : Resolved u placed) (parts : Blob.Parts u.texts placed file) (small : file.size < 2^32)
include resolved parts small

theorem resolved_lettered : Blob.Lettered (opened u.texts placed file) u.texts :=
  Blob.texts_lettered small resolved.short parts.strings rfl

-- Nothing is asked of the types here.
theorem resolved_outlined : ∀ p ∈ placed, Blob.DescriptorFits (fun _ => True) u.texts p.2 :=
  resolved_fits (fun _ => True) resolved (parts.short small) trivial fun _ _ _ _ => trivial

omit small in
theorem opened_records : ∀ p ∈ placed, ∃ there,
    Blob.Holds (opened u.texts placed file) there (descriptorParts u.texts there p.2).1 ∧
      Blob.Holds (opened u.texts placed file) p.1.offset (recordBytes u.texts p.2 (descriptorParts u.texts there p.2).2) :=
  Blob.descriptorRows_hold (resolved_consecutive resolved) (records_hold parts) (behind_holds parts)

theorem opened_outlines : ∀ p ∈ placed, ((opened u.texts placed file).descriptorAt p.1.offset).SameOutline p.2 := by
  intro p member
  obtain ⟨there,behind,record⟩ := opened_records resolved parts p member
  exact Blob.record_outline small (resolved_lettered resolved parts small) (resolved_outlined resolved parts small p member)
    behind record

theorem opened_entries : (opened u.texts placed file).readIndex none (opened u.texts placed file).indexCount
    ((opened u.texts placed file).index.start+4) = .ok ((Blob.sorted placed).map Blob.entryOf) := by
  refine entries_list parts (resolved_lettered resolved parts small) ?_ ?_ (resolved_names resolved ▸ resolved.distinct)
  · exact fun p member => (resolved_outlined resolved parts small p member).name
  · intro p member
    have below := among_bounded (resolved_consecutive resolved) (parts.short small) _ _ _ ⟨_,member,rfl,rfl⟩
    exact Nat.lt_trans below (by decide)

-- The index as it was read leads to what the file has at the places of the descriptors.
theorem opened_lists_found {index : List (String × DescriptorId)} (itself : m.blob = opened u.texts placed file)
    (listed : m.blob.readIndex none m.blob.indexCount (m.blob.index.start+4) = .ok index)
    (reached : m.blob.reach (index.map (·.2.offset)).reverse Table.empty = .ok m.known) :
    m.Lists ((Blob.sorted placed).map m.entry) := by
  have entries := opened_entries resolved parts small
  rw [← itself,listed] at entries
  cases entries
  refine lists_of_index (resolved_names resolved ▸ resolved.distinct) listed (fun p member => ?_) ?_
  · have same := opened_outlines resolved parts small p member
    rw [← itself] at same
    exact Prod.ext same.name rfl
  · exact fun p member => if_pos (reached_contains reached p member)

end Resolved

-- A compiled file as it was taken apart when it was loaded.
structure Reloads (m : Metadata) (u : Universe) (placed : List (DescriptorId × Descriptor)) (file : Array UInt8) : Prop where
  resolved : Resolved u placed
  parts : Blob.Parts u.texts placed file
  small : file.size < 2^32
  itself : m.blob = opened u.texts placed file
  lists : m.Lists ((Blob.sorted placed).map m.entry)

theorem loaded_reloads (compiled : u.compile = .ok file) (loaded : Metadata.ofBytes file = .ok m) :
    ∃ placed, m.Reloads u placed file := by
  have small := ofBytes_small loaded
  obtain ⟨placed,resolves,joined⟩ := bind_ok.mp compiled
  have resolved := resolve_ok resolves
  have parts := Blob.file_parts (pure_ok.mp joined).symm small
  obtain ⟨index,opens,listed,reached⟩ := ofBytes_parts loaded
  have opensToo : Blob.ofBytes file = .ok (opened u.texts placed file) :=
    Blob.ofBytes_ok.mpr ⟨_,_,_,_,_,_,parts.header,rfl⟩
  have itself : m.blob = opened u.texts placed file := Except.ok.inj (opens.symm.trans opensToo)
  exact ⟨placed,resolved,parts,small,itself,opened_lists_found resolved parts small itself listed reached⟩

theorem Reloads.described (reloads : m.Reloads u placed file) :
    ∀ p ∈ placed, m.descriptor? p.1 = some (m.entry p).2 := by
  intro p member
  exact reloads.lists.described _ (List.mem_map_of_mem ((Blob.sorted_perm placed).mem_iff.mpr member))

theorem Reloads.named (reloads : m.Reloads u placed file) : m.named.Perm (placed.map m.entry) := by
  rw [reloads.lists.named_eq]
  exact (Blob.sorted_perm placed).map m.entry

theorem loaded_outlines (compiled : u.compile = .ok file) (loaded : Metadata.ofBytes file = .ok m) :
    ∃ placed, Resolved u placed ∧ m.Outlines placed := by
  obtain ⟨placed,reloads⟩ := loaded_reloads compiled loaded
  refine ⟨placed,reloads.resolved,reloads.named,reloads.described,fun p member => ?_⟩
  rw [entry,reloads.itself]
  exact opened_outlines reloads.resolved reloads.parts reloads.small p member

end Metadata
end ObjectBridge
