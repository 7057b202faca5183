import ObjectBridge.Proofs.Metadata.RecordBytes

namespace ObjectBridge.Blob
open Layout Outcome

variable {bytes : Array UInt8} {blob : Blob} {texts : List String} {place here n : Nat} {row : List UInt8}

theorem length_textBytes (text : String) : (textBytes text).length = textSize text := by
  have head : (half text.utf8ByteSize).length = 2 := length_littleEndian 2 _
  rw [textBytes,List.length_append,head]
  rfl

theorem length_texts (texts : List String) : (texts.flatMap textBytes).length = textsSize texts := by
  induction texts with
  | nil => rfl
  | cons text rest ih =>
    rw [List.flatMap_cons,List.length_append,length_textBytes,ih]
    rfl

-- A text stands behind those before it, and the section is long enough for it.
theorem texts_stand {text : String} (stands : Stands bytes place (texts.flatMap textBytes)) (member : text ∈ texts) :
    Stands bytes (place+textsSize (texts.takeWhile (· ≠ text))) (textBytes text) ∧
      textsSize (texts.takeWhile (· ≠ text))+textSize text ≤ textsSize texts := by
  induction texts generalizing place with
  | nil => cases member
  | cons first rest ih =>
    rw [List.flatMap_cons] at stands
    by_cases same : first = text
    · subst same
      rw [List.takeWhile_cons_of_neg (by simp)]
      refine ⟨stands.left,?_⟩
      change 0+textSize first ≤ textSize first+textsSize rest
      omega
    · have later := stands.right
      rw [length_textBytes] at later
      obtain ⟨there,enough⟩ := ih later ((List.mem_cons.mp member).resolve_left (Ne.symm same))
      rw [List.takeWhile_cons_of_pos (by simpa using same)]
      have size : textsSize (first :: rest.takeWhile (· ≠ text)) =
          textSize first+textsSize (rest.takeWhile (· ≠ text)) := rfl
      have all : textsSize (first :: rest) = textSize first+textsSize rest := rfl
      rw [size,all,← Nat.add_assoc]
      exact ⟨there,by omega⟩

theorem texts_lettered (small : blob.bytes.size < 2^32) (short : ∀ text ∈ texts, text.utf8ByteSize ≤ textLimit)
    (stands : Stands blob.bytes headerSize (texts.flatMap textBytes))
    (span : blob.texts = ⟨headerSize,headerSize+textsSize texts⟩) : Lettered blob texts := by
  intro text member
  obtain ⟨there,enough⟩ := texts_stand stands member
  have inside := there.inside
  rw [length_textBytes] at inside
  refine ⟨by unfold textPlace; omega,fun part => ?_⟩
  unfold readText
  refine bind_ok.mpr ⟨_,there.text (short text member) part,?_⟩
  dsimp only
  rw [guard_ok,span]
  refine ⟨?_,rfl⟩
  rintro (early | late)
  · exact absurd early (Nat.not_lt.mpr (Nat.le_add_right _ _))
  · dsimp only at late
    omega

def entryBytes (texts : List String) (p : DescriptorId × Descriptor) : List UInt8 :=
  word (textPlace texts p.2.name) ++ word p.1.offset

def entryOf (p : DescriptorId × Descriptor) : String × DescriptorId := (p.2.name,p.1)

theorem length_entries (texts : List String) (placed : List (DescriptorId × Descriptor)) :
    (placed.flatMap (entryBytes texts)).length = 8*placed.length := by
  induction placed with
  | nil => rfl
  | cons p rest ih =>
    rw [List.flatMap_cons,List.length_append,ih,entryBytes,List.length_append,Stands.length_word,
      Stands.length_word,List.length_cons]
    omega

theorem readIndex_ok {placed : List (DescriptorId × Descriptor)} {previous : Option String}
    (lettered : Lettered blob texts) (named : ∀ p ∈ placed, p.2.name ∈ texts)
    (below : ∀ p ∈ placed, p.1.offset < 2^32)
    (ascending : (previous.toList ++ placed.map (·.2.name)).Pairwise (· < ·))
    (stands : Stands blob.bytes place (placed.flatMap (entryBytes texts))) :
    blob.readIndex previous placed.length place = .ok (placed.map entryOf) := by
  induction placed generalizing previous place with
  | nil => rfl
  | cons p rest ih =>
    rw [List.flatMap_cons] at stands
    have name := stands.left.left
    have target := stands.left.right
    have later := stands.right
    rw [Stands.length_word] at target
    rw [entryBytes,List.length_append,Stands.length_word,Stands.length_word] at later
    obtain ⟨nameBelow,nameRead⟩ := lettered _ (named p List.mem_cons_self)
    have inOrder : ¬previous.any (p.2.name ≤ ·) = true := by
      cases previous with
      | none => simp
      | some before =>
        have less := (List.pairwise_cons.mp ascending).1 p.2.name List.mem_cons_self
        simpa using less
    have tail : ((some p.2.name).toList ++ rest.map (·.2.name)).Pairwise (· < ·) :=
      ascending.sublist (List.sublist_append_right _ _)
    have others := ih (fun q member => named q (List.mem_cons_of_mem _ member))
      (fun q member => below q (List.mem_cons_of_mem _ member)) tail later
    rw [List.length_cons,readIndex]
    refine bind_ok.mpr ⟨_,name.word nameBelow _,bind_ok.mpr ⟨_,nameRead _,?_⟩⟩
    refine guard_ok.mpr ⟨inOrder,?_⟩
    refine bind_ok.mpr ⟨_,target.word (below p List.mem_cons_self) _,?_⟩
    exact bind_ok.mpr ⟨_,others,rfl⟩

def sorted (placed : List (DescriptorId × Descriptor)) : List (DescriptorId × Descriptor) :=
  placed.mergeSort fun a b => decide (a.2.name ≤ b.2.name)

theorem sorted_perm (placed : List (DescriptorId × Descriptor)) : (sorted placed).Perm placed :=
  List.mergeSort_perm _ _

theorem sorted_ascending {placed : List (DescriptorId × Descriptor)} (distinct : (placed.map (·.2.name)).Nodup) :
    ((sorted placed).map (·.2.name)).Pairwise (· < ·) := by
  have ordered : (sorted placed).Pairwise fun a b => decide (a.2.name ≤ b.2.name) = true := by
    apply List.pairwise_mergeSort
    · intro a b c one two
      simp only [decide_eq_true_eq] at one two ⊢
      exact le_trans one two
    · intro a b
      simp only [Bool.or_eq_true,decide_eq_true_eq]
      exact le_total _ _
  have different := ((sorted_perm placed).map (·.2.name)).nodup_iff.mpr distinct
  rw [List.pairwise_map]
  have both := ordered.and (List.pairwise_map.mp different)
  refine both.imp fun {a b} pair => ?_
  exact lt_of_le_of_ne (of_decide_eq_true pair.1) pair.2

theorem length_records (texts : List String) (here : Nat) (placed : List (DescriptorId × Descriptor)) :
    (descriptorRows texts here (placed.map (·.2))).1.length = recordsSize placed := by
  induction placed generalizing here with
  | nil => rfl
  | cons p rest ih =>
    rw [List.map_cons,descriptorRows]
    dsimp only
    rw [List.length_append,length_recordBytes,ih]
    rfl

def indexStart (texts : List String) : Nat := headerSize+textsSize texts

def descriptorsStart (texts : List String) (placed : List (DescriptorId × Descriptor)) : Nat :=
  indexStart texts+indexSize placed.length

def behindStart (texts : List String) (placed : List (DescriptorId × Descriptor)) : Nat :=
  descriptorsStart texts placed+recordsSize placed

def rows (texts : List String) (placed : List (DescriptorId × Descriptor)) : List UInt8 × List UInt8 :=
  descriptorRows texts (behindStart texts placed) (placed.map (·.2))

theorem length_indexBytes (texts : List String) (placed : List (DescriptorId × Descriptor)) :
    (indexBytes texts placed).length = indexSize placed.length := by
  change (word placed.length ++ (sorted placed).flatMap (entryBytes texts)).length = _
  rw [List.length_append,Stands.length_word,length_entries,sorted,List.length_mergeSort]
  rfl

theorem length_fileBytes (texts : List String) (placed : List (DescriptorId × Descriptor)) :
    (fileBytes texts placed).length =
      descriptorsStart texts placed+((rows texts placed).1.length+(rows texts placed).2.length) := by
  have mark : mark.length = 4 := rfl
  have halves : ∀ n, (half n).length = 2 := fun n => length_littleEndian 2 n
  unfold fileBytes
  simp only [List.length_append,Stands.length_word,mark,halves,length_texts,length_indexBytes]
  change 4+2+2+4+4+4+4+4+4+textsSize texts+indexSize placed.length+(rows texts placed).1.length+
    (rows texts placed).2.length = 32+textsSize texts+indexSize placed.length+_
  omega

-- Where everything stands in a file, and that the header says so.
structure Parts (texts : List String) (placed : List (DescriptorId × Descriptor)) (file : Array UInt8) : Prop where
  size : file.size = descriptorsStart texts placed+((rows texts placed).1.length+(rows texts placed).2.length)
  header : Header file headerSize (textsSize texts) (indexStart texts) (descriptorsStart texts placed)
    ((rows texts placed).1.length+(rows texts placed).2.length) placed.length
  strings : Stands file headerSize (texts.flatMap textBytes)
  entries : Stands file (indexStart texts+4) ((sorted placed).flatMap (entryBytes texts))
  records : Stands file (descriptorsStart texts placed) (rows texts placed).1
  behind : Stands file (behindStart texts placed) (rows texts placed).2

theorem Parts.short {file : Array UInt8} {placed : List (DescriptorId × Descriptor)} (parts : Parts texts placed file)
    (small : file.size < 2^32) : (fileBytes texts placed).length < 2^32 := by
  rwa [length_fileBytes,← parts.size]

theorem file_parts {file : Array UInt8} {placed : List (DescriptorId × Descriptor)}
    (written : file = (fileBytes texts placed).toArray) (small : file.size < 2^32) : Parts texts placed file := by
  have whole : Stands file 0 (fileBytes texts placed) := written ▸ Stands.whole _
  have total : file.size = descriptorsStart texts placed+
      ((rows texts placed).1.length+(rows texts placed).2.length) := by
    rw [written,List.size_toArray,length_fileBytes]
  have start : descriptorsStart texts placed = 32+textsSize texts+(4+8*placed.length) := rfl
  have indexBegin : indexStart texts = 32+textsSize texts := rfl
  have indexEnd : indexStart texts+indexSize placed.length = descriptorsStart texts placed := rfl
  -- One part after the other, each behind the one before.
  unfold fileBytes at whole
  simp only [List.append_assoc] at whole
  have versions : Stands file 4 (half version ++ _) := whole.right
  have unused : Stands file 6 (half 0 ++ _) := versions.right
  have textsAt : Stands file 8 (word headerSize ++ _) := unused.right
  have textsFor := textsAt.next
  have indexAt := textsFor.next
  have descriptorsAt := indexAt.next
  have descriptorsFor := descriptorsAt.next
  have sizeAt := descriptorsFor.next
  have strings : Stands file headerSize (texts.flatMap textBytes ++ _) := sizeAt.next
  have index := strings.right
  rw [length_texts] at index
  have behindIndex := index.right
  rw [length_indexBytes] at behindIndex
  have entries : Stands file (indexStart texts+4) ((sorted placed).flatMap (entryBytes texts)) := index.left.next
  have behind := behindIndex.right
  rw [length_records] at behind
  refine ⟨total,?_,strings.left,entries,behindIndex.left,behind⟩
  refine ⟨?_,whole.left.extract,versions.left.number (by decide),textsAt.left.number (by decide),
    textsFor.left.number (by omega),indexAt.left.number ?_,descriptorsAt.left.number ?_,
    descriptorsFor.left.number ?_,?_,index.left.left.number (by omega),?_,?_,?_⟩
  · rw [total]; change 32 ≤ _; omega
  · change 32+textsSize texts < _; omega
  · change descriptorsStart texts placed < _; omega
  · change (rows texts placed).1.length+(rows texts placed).2.length < _; omega
  · rw [total]
    refine sizeAt.left.number ?_
    change descriptorsStart texts placed+((rows texts placed).1.length+(rows texts placed).2.length) < _
    omega
  · rw [total]; change 32 ≤ 32 ∧ 32+_ ≤ _; omega
  · rw [total,indexEnd]; change 32 ≤ _ ∧ _; omega
  · rw [total]; change 32 ≤ _ ∧ _; omega

-- Places that refer to one another only, each with a descriptor that can be read.
theorem reach_succeeds {S : Nat → Prop} (closed : ∀ p, S p → blob.InDescriptors p descriptorHeadSize ∧
      ∃ d, blob.readDescriptor p = .ok d ∧ ∀ target ∈ d.references, S target.offset)
    (pending : List Nat) (known : Table Nat Unit) (among : ∀ p ∈ pending, S p) :
    ∃ result, blob.reach pending known = .ok result := by
  fun_induction reach blob pending known with
  | case1 known => exact ⟨known,rfl⟩
  | case2 known p rest old ih => exact ih fun q member => among q (List.mem_cons_of_mem _ member)
  | case3 known p rest new inside e failed =>
    obtain ⟨_,d,read,_⟩ := closed p (among p List.mem_cons_self)
    rw [read] at failed
    cases failed
  | case4 known p rest new inside d read ih =>
    obtain ⟨_,e,again,targets⟩ := closed p (among p List.mem_cons_self)
    cases read.symm.trans again
    refine ih fun q member => ?_
    rcases List.mem_append.mp member with found | later
    · rw [List.mem_reverse] at found
      obtain ⟨target,refers,rfl⟩ := List.mem_map.mp found
      exact targets target refers
    · exact among q (List.mem_cons_of_mem _ later)
  | case5 known p rest new outside =>
    exact absurd (closed p (among p List.mem_cons_self)).1 outside

end ObjectBridge.Blob

namespace ObjectBridge.Metadata
open Layout Blob Outcome

variable {m : Metadata}

def Ascending (m : Metadata) : Prop :=
  ∀ i j, i < j → j < m.count → (m.blob.entryAt i).1 < (m.blob.entryAt j).1

theorem Ascending.before {i j : Nat} (ascending : m.Ascending) (inside : i < m.count)
    (less : (m.blob.entryAt i).1 < (m.blob.entryAt j).1) : i < j := by
  rcases Nat.lt_trichotomy i j with first | same | last
  · exact first
  · rw [same] at less
    exact absurd less (lt_irrefl _)
  · exact absurd (lt_trans less (ascending j i last inside)) (lt_irrefl _)

theorem Ascending.same {i j : Nat} (ascending : m.Ascending) (one : i < m.count) (other : j < m.count)
    (equal : (m.blob.entryAt i).1 = (m.blob.entryAt j).1) : i = j := by
  rcases Nat.lt_trichotomy i j with first | same | last
  · exact absurd (ascending i j first other) (by rw [equal]; exact lt_irrefl _)
  · exact same
  · exact absurd (ascending j i last one) (by rw [equal]; exact lt_irrefl _)

-- Halving the range keeps the entry that is sought within it.
theorem search_finds (ascending : m.Ascending) (name : String) (low high k : Nat) (above : low ≤ k)
    (below : k < high) (within : high ≤ m.count) (sought : (m.blob.entryAt k).1 = name) :
    m.search name low high = some (m.blob.entryAt k).2 := by
  have middles : ∀ {low high : Nat}, low < high → low+(high-low)/2 < high := by omega
  fun_induction search m name low high with
  | case1 low high opened middle id found =>
    have inside : middle < m.count := Nat.lt_of_lt_of_le (middles opened) within
    have here := ascending.same inside (Nat.lt_of_lt_of_le below within) (by rw [found,sought])
    rw [← here,found]
  | case2 low high opened middle found id entry other less ih =>
    have inside : middle < m.count := Nat.lt_of_lt_of_le (middles opened) within
    have later : (m.blob.entryAt middle).1 < (m.blob.entryAt k).1 := by rw [entry,sought]; exact less
    exact ih (ascending.before inside later) below within
  | case3 low high opened middle found id entry other notLess ih =>
    have inside : middle < m.count := Nat.lt_of_lt_of_le (middles opened) within
    have more : name < found := lt_of_le_of_ne (not_lt.mp notLess) (Ne.symm other)
    have earlier : (m.blob.entryAt k).1 < (m.blob.entryAt middle).1 := by rw [entry,sought]; exact more
    exact ih above (ascending.before (Nat.lt_of_lt_of_le below within) earlier) (Nat.le_of_lt inside)
  | case4 low high closed => exact absurd (Nat.lt_of_le_of_lt above below) closed

-- Whatever the order of the entries, what is found is an entry of that name within the range.
theorem search_sound {name : String} {low high : Nat} {id : DescriptorId} (found : m.search name low high = some id) :
    ∃ k, low ≤ k ∧ k < high ∧ m.blob.entryAt k = (name,id) := by
  fun_induction search m name low high with
  | case1 low high opened middle other entry =>
    cases found
    exact ⟨middle,by omega,by omega,entry⟩
  | case2 low high opened middle other target entry differs less ih =>
    obtain ⟨k,above,below,there⟩ := ih found
    exact ⟨k,by omega,below,there⟩
  | case3 low high opened middle other target entry differs notLess ih =>
    obtain ⟨k,above,below,there⟩ := ih found
    exact ⟨k,above,by omega,there⟩
  | case4 => cases found

-- The entries of the index, in the order of their names.
structure Catalogue (m : Metadata) (entries : List (String × DescriptorId)) : Prop where
  index : (List.range m.count).map m.blob.entryAt = entries
  ascending : (entries.map (·.1)).Pairwise (· < ·)

namespace Catalogue

variable {entries : List (String × DescriptorId)} (catalogue : m.Catalogue entries)
include catalogue

theorem count : m.count = entries.length := by
  simpa using congrArg List.length catalogue.index

theorem entryAt {k : Nat} (below : k < entries.length) : m.blob.entryAt k = entries[k] := by
  have both := congrArg (·[k]?) catalogue.index
  have inside : k < m.count := catalogue.count ▸ below
  simpa [inside,below] using both

theorem ordered : m.Ascending := by
  intro i j less inside
  rw [catalogue.count] at inside
  have pairs := List.pairwise_iff_getElem.mp catalogue.ascending i j (by simp; omega) (by simpa using inside) less
  rw [catalogue.entryAt (Nat.lt_trans less inside),catalogue.entryAt inside]
  simpa using pairs

theorem finds_iff {name : String} {id : DescriptorId} : m.idOf? name = some id ↔ (name,id) ∈ entries := by
  constructor
  · intro found
    obtain ⟨k,_,below,there⟩ := search_sound found
    have inside : k < entries.length := catalogue.count ▸ below
    rw [← there,catalogue.entryAt inside]
    exact List.getElem_mem inside
  · intro member
    obtain ⟨k,below,there⟩ := List.getElem_of_mem member
    have entry : m.blob.entryAt k = (name,id) := (catalogue.entryAt below).trans there
    have inside : k < m.count := catalogue.count ▸ below
    have found := search_finds catalogue.ordered name 0 m.count k (Nat.zero_le _) inside (Nat.le_refl _)
      (congrArg Prod.fst entry)
    exact found.trans (congrArg (some ·.2) entry)

theorem named_eq : m.named = entries.filterMap fun e => (m.descriptor? e.2).map (e.2,·) := by
  rw [← catalogue.index,List.filterMap_map]
  rfl

end Catalogue

-- Each entry with its descriptor, and that of the name the entry gives.
structure Lists (m : Metadata) (entries : List (DescriptorId × Descriptor)) : Prop where
  index : (List.range m.count).map m.blob.entryAt = entries.map entryOf
  ascending : (entries.map (·.2.name)).Pairwise (· < ·)
  described : ∀ p ∈ entries, m.descriptor? p.1 = some p.2

variable {entries : List (DescriptorId × Descriptor)}

theorem Lists.catalogue (lists : m.Lists entries) : m.Catalogue (entries.map entryOf) := by
  refine ⟨lists.index,?_⟩
  rw [List.map_map]
  exact lists.ascending

theorem Lists.resolves {p : DescriptorId × Descriptor} (lists : m.Lists entries) (member : p ∈ entries) :
    m.resolve? p.2.name = some p := by
  have found : m.idOf? p.2.name = some p.1 := lists.catalogue.finds_iff.mpr (List.mem_map_of_mem member)
  simp [resolve?,found,lists.described p member]

theorem Lists.named_eq (lists : m.Lists entries) : m.named = entries := by
  rw [lists.catalogue.named_eq,List.filterMap_map]
  have each : ∀ p ∈ entries, ((fun e => (m.descriptor? e.2).map (e.2,·)) ∘ entryOf) p = some p := by
    intro p member
    simp [entryOf,lists.described p member]
  rw [List.filterMap_congr each,List.filterMap_some]

-- Descriptors arranged for a file: at their places, each in a form that fits, none referring to
-- anything outside.
structure Arranged (texts : List String) (placed : List (DescriptorId × Descriptor)) : Prop where
  short : ∀ text ∈ texts, text.utf8ByteSize ≤ textLimit
  fits : ∀ p ∈ placed, DescriptorFits Readable texts p.2
  consecutive : Consecutive (descriptorsStart texts placed) placed
  distinct : (placed.map (·.2.name)).Nodup
  closed : ∀ p ∈ placed, ∀ target ∈ p.2.references, ∃ d, (target,d) ∈ placed

-- None of them loses anything in the file.
structure Laid (texts : List String) (placed : List (DescriptorId × Descriptor)) : Prop extends
    Arranged texts placed where
  whole : ∀ p ∈ placed, p.2.kept = p.2

variable {texts : List String} {placed : List (DescriptorId × Descriptor)}

theorem read_inside {blob : Blob} {place : Nat} {d : Descriptor} (read : blob.readDescriptor place = .ok d) :
    blob.InDescriptors place descriptorHeadSize := by
  unfold readDescriptor at read
  obtain ⟨_,required,_⟩ := bind_ok.mp read
  unfold require at required
  split at required
  · rename_i inside; exact inside
  · cases required

-- What the header of such a file says where.
def opened (texts : List String) (placed : List (DescriptorId × Descriptor)) (file : Array UInt8) : Blob where
  bytes := file
  texts := ⟨headerSize,headerSize+textsSize texts⟩
  index := ⟨indexStart texts,indexStart texts+indexSize placed.length⟩
  descriptors := ⟨descriptorsStart texts placed,
    descriptorsStart texts placed+((rows texts placed).1.length+(rows texts placed).2.length)⟩

section Opened

variable {file : Array UInt8}

theorem records_hold (parts : Parts texts placed file) :
    Holds (opened texts placed file) (descriptorsStart texts placed) (rows texts placed).1 :=
  ⟨parts.records,Nat.le_refl _,Nat.add_le_add_left (Nat.le_add_right _ _) _⟩

theorem behind_holds (parts : Parts texts placed file) :
    Holds (opened texts placed file) (behindStart texts placed) (rows texts placed).2 := by
  refine ⟨parts.behind,Nat.le_add_right _ _,?_⟩
  have inside := parts.behind.inside
  rw [parts.size] at inside
  exact inside

theorem entries_list (parts : Parts texts placed file) (lettered : Lettered (opened texts placed file) texts)
    (names : ∀ p ∈ placed, p.2.name ∈ texts) (below : ∀ p ∈ placed, p.1.offset < 2^32)
    (distinct : (placed.map (·.2.name)).Nodup) :
    (opened texts placed file).readIndex none (opened texts placed file).indexCount
      ((opened texts placed file).index.start+4) = .ok ((sorted placed).map entryOf) := by
  have perm := sorted_perm placed
  have count : (opened texts placed file).indexCount = (sorted placed).length := by
    rw [perm.length_eq]
    change (indexStart texts+(4+8*placed.length)-indexStart texts-4)/8 = placed.length
    omega
  rw [count]
  exact readIndex_ok lettered (fun p member => names p (perm.mem_iff.mp member))
    (fun p member => below p (perm.mem_iff.mp member)) (sorted_ascending distinct) parts.entries

variable (arranged : Arranged texts placed) (parts : Parts texts placed file) (small : file.size < 2^32)
include arranged parts small

theorem opened_lettered : Lettered (opened texts placed file) texts :=
  texts_lettered small arranged.short parts.strings rfl

theorem opened_reads : ∀ p ∈ placed, (opened texts placed file).readDescriptor p.1.offset = .ok p.2.kept :=
  descriptorRows_read small (opened_lettered arranged parts small) arranged.fits arranged.consecutive
    (records_hold parts) (behind_holds parts)

theorem opened_inside {p : DescriptorId × Descriptor} (member : p ∈ placed) :
    (opened texts placed file).InDescriptors p.1.offset descriptorHeadSize :=
  read_inside (opened_reads arranged parts small p member)

theorem opened_lists : (opened texts placed file).readIndex none (opened texts placed file).indexCount
    ((opened texts placed file).index.start+4) = .ok ((sorted placed).map entryOf) := by
  refine entries_list parts (opened_lettered arranged parts small) (fun p member => (arranged.fits p member).name) ?_
    arranged.distinct
  intro p member
  obtain ⟨_,stops⟩ := opened_inside arranged parts small member
  have stop : (opened texts placed file).descriptors.stop = file.size := parts.size.symm
  simp only [descriptorHeadSize] at stops
  omega

theorem opened_reaches : ∃ known,
    (opened texts placed file).reach (((sorted placed).map entryOf).map (·.2.offset)).reverse Table.empty = .ok known := by
  have perm := sorted_perm placed
  refine reach_succeeds (S := fun q => ∃ p ∈ placed, p.1.offset = q) ?_ _ _ ?_
  · rintro q ⟨p,member,rfl⟩
    refine ⟨opened_inside arranged parts small member,p.2.kept,opened_reads arranged parts small p member,fun target refers => ?_⟩
    obtain ⟨d,among⟩ := arranged.closed p member target (Descriptor.kept_references refers)
    exact ⟨_,among,rfl⟩
  · intro q member
    rw [List.mem_reverse,List.map_map] at member
    obtain ⟨p,among,rfl⟩ := List.mem_map.mp member
    exact ⟨p,perm.mem_iff.mp among,rfl⟩

end Opened

-- The index names what is found at the places, whatever else has become of it.
theorem lists_of_index {found : DescriptorId × Descriptor → DescriptorId × Descriptor}
    (distinct : (placed.map (·.2.name)).Nodup)
    (listed : m.blob.readIndex none m.count (m.blob.index.start+4) = .ok ((sorted placed).map entryOf))
    (same : ∀ p ∈ placed, entryOf (found p) = entryOf p)
    (described : ∀ p ∈ placed, m.descriptor? (found p).1 = some (found p).2) : m.Lists ((sorted placed).map found) := by
  have perm := sorted_perm placed
  have sameSorted : ∀ p ∈ sorted placed, entryOf (found p) = entryOf p := fun p member => same p (perm.mem_iff.mp member)
  have names : ((sorted placed).map found).map (·.2.name) = (sorted placed).map (·.2.name) := by
    rw [List.map_map]
    exact List.map_congr_left fun p member => congrArg Prod.fst (sameSorted p member)
  refine ⟨?_,names ▸ sorted_ascending distinct,?_⟩
  · rw [List.map_map]
    exact (index_reads listed).2.trans (List.map_congr_left fun p member => (sameSorted p member).symm)
  · intro q member
    obtain ⟨p,among,rfl⟩ := List.mem_map.mp member
    exact described p (perm.mem_iff.mp among)

theorem reached_contains {blob : Blob} {known : Table Nat Unit}
    (reached : blob.reach (((sorted placed).map entryOf).map (·.2.offset)).reverse Table.empty = .ok known) :
    ∀ p ∈ placed, known.contains p.1.offset = true := by
  intro p member
  refine (reach_explored explored_empty reached).2.1 _ ?_
  rw [List.mem_reverse,List.map_map]
  exact List.mem_map.mpr ⟨p,(sorted_perm placed).mem_iff.mpr member,rfl⟩

-- A placed descriptor as it is found in the file.
def inFile (p : DescriptorId × Descriptor) : DescriptorId × Descriptor := (p.1,p.2.kept)

theorem file_reads (arranged : Arranged texts placed) (small : (fileBytes texts placed).length < 2^32) :
    ∃ m, Metadata.ofBytes (fileBytes texts placed).toArray = .ok m ∧
      (∀ p ∈ placed, m.resolve? p.2.name = some (inFile p)) ∧ m.named.Perm (placed.map inFile) := by
  obtain ⟨file,written⟩ : ∃ file, file = (fileBytes texts placed).toArray := ⟨_,rfl⟩
  have fileSmall : file.size < 2^32 := by rw [written,List.size_toArray]; exact small
  rw [← written]
  have parts := file_parts written fileSmall
  have opens : Blob.ofBytes file = .ok (opened texts placed file) := ofBytes_ok.mpr ⟨_,_,_,_,_,_,parts.header,rfl⟩
  have listed := opened_lists arranged parts fileSmall
  obtain ⟨known,reached⟩ := opened_reaches arranged parts fileSmall
  have loaded : Metadata.ofBytes file = .ok ⟨Layout.version,opened texts placed file,known⟩ := by
    unfold Metadata.ofBytes
    exact bind_ok.mpr ⟨_,opens,bind_ok.mpr ⟨_,listed,bind_ok.mpr ⟨_,reached,rfl⟩⟩⟩
  have perm := sorted_perm placed
  have same : ∀ p ∈ placed, entryOf (inFile p) = entryOf p := fun p _ => by simp [entryOf,inFile]
  have lists : Lists ⟨Layout.version,opened texts placed file,known⟩ ((sorted placed).map inFile) := by
    refine lists_of_index arranged.distinct listed same fun p member => ?_
    have there : known.contains p.1.offset = true := reached_contains reached p member
    have read := (descriptor_reads (opened_reads arranged parts fileSmall p member)).2
    exact (if_pos there).trans (congrArg some read)
  refine ⟨_,loaded,fun p member => ?_,?_⟩
  · have resolves := lists.resolves (List.mem_map_of_mem (perm.mem_iff.mpr member))
    rwa [show (inFile p).2.name = p.2.name from Descriptor.kept_name p.2] at resolves
  · rw [lists.named_eq]
    exact perm.map inFile

theorem file_loads (laid : Laid texts placed) (small : (fileBytes texts placed).length < 2^32) :
    ∃ m, Metadata.ofBytes (fileBytes texts placed).toArray = .ok m ∧
      (∀ p ∈ placed, m.resolve? p.2.name = some p) ∧ m.named.Perm placed := by
  have whole : ∀ p ∈ placed, inFile p = p := fun p member => Prod.ext rfl (laid.whole p member)
  obtain ⟨m,loaded,resolves,perm⟩ := file_reads laid.toArranged small
  refine ⟨m,loaded,fun p member => ?_,?_⟩
  · rw [resolves p member,whole p member]
  · rwa [List.map_congr_left whole,List.map_id'] at perm

end ObjectBridge.Metadata
