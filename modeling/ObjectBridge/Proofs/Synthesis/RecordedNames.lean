import ObjectBridge.Proofs.Metadata.Lookup
import ObjectBridge.Proofs.Metadata.Outlines
import ObjectBridge.Proofs.Synthesis.NativePrograms

namespace ObjectBridge
open Outcome Synthesis

namespace Blob

variable {bytes : Array UInt8} {blob : Blob} {entries : List (String × DescriptorId)} {place : Nat}

theorem NameAt.unique {name other : String} (one : NameAt bytes place name) (two : NameAt bytes place other) :
    name = other := by
  obtain ⟨target,length,pointed,counted,_,decoded⟩ := one
  obtain ⟨target',length',pointed',counted',_,decoded'⟩ := two
  obtain rfl := Option.some.inj (pointed.symm.trans pointed')
  obtain rfl := Option.some.inj (counted.symm.trans counted')
  exact Option.some.inj (decoded.symm.trans decoded')

-- A record says its name in its second word.
theorem record_name {d : Descriptor} (read : blob.readDescriptor place = .ok d) : NameAt blob.bytes (place+4) d.name := by
  obtain ⟨reads,rfl⟩ := descriptor_reads read
  obtain ⟨⟨_,pointed⟩,length,counted,inside,decoded⟩ := reads.name
  have named : (blob.descriptorAt place).name = blob.textAt (blob.wordAt (place+4)) := by
    unfold descriptorAt
    split <;> rfl
  exact ⟨_,length,pointed,counted,inside,by rw [named]; exact decoded⟩

-- Each entry leads to a record of the name that it gives.
def Agreeing (bytes : Array UInt8) (entries : List (String × DescriptorId)) : Prop :=
  ∀ e ∈ entries, NameAt bytes (e.2.offset+4) e.1

end Blob

namespace Metadata
open Blob

variable {bytes : Array UInt8} {m : Metadata} {entries : List (String × DescriptorId)} {natives : ClassTable}
  {asked : List (ClassTable × DescriptorId)} {memo : Memo} {c : SynthesizedClass} {name : String} {id : DescriptorId}

theorem agreeing_iff (loads : m.Loads entries) (itself : m.blob.bytes = bytes) : Agreeing bytes entries ↔
    ∀ name id d, m.resolve? name = some (id,d) → d.name = name := by
  subst itself
  constructor
  · intro agreeing name id d found
    obtain ⟨member,read⟩ := loads.resolves_iff.mp found
    exact (record_name read).unique (agreeing (name,id) member)
  · rintro named ⟨name,id⟩ member
    have read := loads.read _ member
    have same := named name id _ (loads.resolves_iff.mpr ⟨member,read⟩)
    have there := record_name read
    rwa [same] at there

theorem agreeing_ascending (loads : m.Loads entries) (itself : m.blob.bytes = bytes) (agreeing : Agreeing bytes entries) :
    (m.named.map (·.2.name)).Pairwise (· < ·) := by
  subst itself
  have same : m.named.map (·.2.name) = entries.map (·.1) := by
    rw [loads.names,List.map_map]
    exact List.map_congr_left fun e member => (record_name (loads.read e member)).unique (agreeing e member)
  rw [same]
  exact loads.ascending

theorem class_named (answer : classOf ⟨m,natives⟩ id (requested m asked) = (.ok c,memo)) :
    c.id = id ∧ ∃ d, m.descriptor? id = some d ∧ c.name = d.name := by
  obtain ⟨rfl,held⟩ := answer_requested answer
  obtain ⟨_,d,_,_,_,_,assembled⟩ := requested_assembled held
  rw [assembled.result]
  exact ⟨rfl,d,assembled.derives.known,rfl⟩

theorem resolves_described {d : Descriptor} (found : m.resolve? name = some (id,d)) : m.descriptor? id = some d := by
  obtain ⟨id',_,described⟩ := Option.bind_eq_some_iff.mp found
  obtain ⟨d',known,same⟩ := Option.bind_eq_some_iff.mp described
  cases same
  exact known

theorem resolved_class (answer : classNamed ⟨m,natives⟩ name (requested m asked) = (.ok c,memo)) :
    ∃ d, m.resolve? name = some (c.id,d) ∧ c.name = d.name := by
  unfold classNamed at answer
  split at answer
  · rename_i id d found
    obtain ⟨rfl,d',known,named⟩ := class_named answer
    obtain rfl := Option.some.inj ((resolves_described found).symm.trans known)
    exact ⟨d,found,named⟩
  · cases answer

-- The class of an instance is found by the name of a native class of its, unless it is of the declared type.
theorem resolved_instance {heap : Heap} {a : Address} {declared : Option DescriptorId}
    (answer : classOfInstance ⟨m,natives⟩ heap a declared (requested m asked) = (.ok c,memo)) :
    declared = some c.id ∨ ∃ native ∈ ((heap.classOf? a).map natives.chain).getD [], ∃ d,
      m.resolve? native.2.name = some (c.id,d) ∧ c.name = d.name := by
  unfold classOfInstance at answer
  dsimp only at answer
  split at answer
  · rename_i id found
    obtain ⟨native,among,described⟩ := List.exists_of_findSome?_eq_some found
    unfold describedBy at described
    split at described
    · rename_i id' name base members resolves
      cases described
      obtain ⟨rfl,d',known,named⟩ := class_named answer
      obtain rfl := Option.some.inj ((resolves_described resolves).symm.trans known)
      exact .inr ⟨native,among,_,resolves,named⟩
    · cases described
  · cases declared with
    | none => cases answer
    | some id =>
      obtain ⟨rfl,_⟩ := class_named answer
      exact .inl rfl

theorem compiled_agreeing {u : Universe} (loads : m.Loads entries) (loaded : Metadata.ofBytes bytes = .ok m)
    (compiled : u.compile = .ok bytes) : Agreeing bytes entries := by
  obtain ⟨placed,reloads⟩ := loaded_reloads compiled loaded
  have same : entries = ((Blob.sorted placed).map m.entry).map entryOf :=
    loads.index.symm.trans reloads.lists.index
  intro e member
  have read := record_name (loads.read e member)
  rw [ofBytes_bytes loaded] at read
  rw [same,List.map_map] at member
  obtain ⟨p,_,rfl⟩ := List.mem_map.mp member
  exact read

-- Where the index and the records agree, what is found by a name and its class have that name.
structure NamesAgree (m : Metadata) : Prop where
  found : ∀ name id d, m.resolve? name = some (id,d) → d.name = name
  listed : (m.named.map (·.2.name)).Pairwise (· < ·)
  synthesized : ∀ natives asked name c memo, classNamed ⟨m,natives⟩ name (requested m asked) = (.ok c,memo) → c.name = name
  instances : ∀ natives asked heap a c memo, classOfInstance ⟨m,natives⟩ heap a none (requested m asked) = (.ok c,memo) →
    ∃ native ∈ ((heap.classOf? a).map natives.chain).getD [], c.name = native.2.name

theorem agreeing_names (loads : m.Loads entries) (itself : m.blob.bytes = bytes) :
    Agreeing bytes entries ↔ m.NamesAgree := by
  constructor
  · intro agreeing
    have found := (agreeing_iff loads itself).mp agreeing
    refine ⟨found,agreeing_ascending loads itself agreeing,?_,?_⟩
    · intro natives asked name c memo answer
      obtain ⟨d,there,named⟩ := resolved_class answer
      exact named.trans (found name c.id d there)
    · intro natives asked heap a c memo answer
      rcases resolved_instance answer with none | ⟨native,among,d,there,named⟩
      · cases none
      · exact ⟨native,among,named.trans (found _ c.id d there)⟩
  · intro names
    exact (agreeing_iff loads itself).mpr names.found

-- In every accepted file, a descriptor is called what its record says, and so is the class of a name or of an
-- instance; that this is the name that was asked for is a property of the file, which compiled files have.
theorem names_are_the_records (loaded : Metadata.ofBytes bytes = .ok m) : ∃ start entries,
    Indexed bytes entries start ∧
      (∀ name id d, m.resolve? name = some (id,d) → (name,id) ∈ entries ∧ NameAt bytes (id.offset+4) d.name) ∧
      (∀ natives asked name c memo, classNamed ⟨m,natives⟩ name (requested m asked) = (.ok c,memo) →
        (name,c.id) ∈ entries ∧ NameAt bytes (c.id.offset+4) c.name) ∧
      (Agreeing bytes entries ↔ m.NamesAgree) ∧
      ∀ u : Universe, u.compile = .ok bytes → m.NamesAgree := by
  obtain ⟨entries,loads⟩ := loaded_index loaded
  have itself := ofBytes_bytes loaded
  have found : ∀ name id d, m.resolve? name = some (id,d) → (name,id) ∈ entries ∧ NameAt bytes (id.offset+4) d.name := by
    intro name id d there
    obtain ⟨member,read⟩ := loads.resolves_iff.mp there
    exact ⟨member,itself ▸ record_name read⟩
  have names := agreeing_names loads itself
  have compiled : ∀ u : Universe, u.compile = .ok bytes → m.NamesAgree :=
    fun u compiled => names.mp (compiled_agreeing loads loaded compiled)
  refine ⟨_,entries,loads.indexed loaded,found,?_,names,compiled⟩
  intro natives asked name c memo answer
  obtain ⟨d,there,named⟩ := resolved_class answer
  rw [named]
  exact found name c.id d there

-- The file of `twoClasses` with the places of the two descriptors exchanged in the index.
def crossedClasses : Array UInt8 := (twoClasses.set! 46 82).set! 54 58

def crossedLoaded : Metadata := { twoClassesLoaded with blob := { twoClassesLoaded.blob with bytes := crossedClasses } }

set_option maxRecDepth 2000 in
theorem crossed_loaded : Metadata.ofBytes crossedClasses = .ok crossedLoaded := by cbv

set_option maxRecDepth 2000 in
theorem crossed_names_differ : ¬∀ (bytes : Array UInt8) (m : Metadata) (name : String) (id : DescriptorId) (d : Descriptor),
    Metadata.ofBytes bytes = .ok m → m.resolve? name = some (id,d) → d.name = name := by
  intro all
  have found : crossedLoaded.resolve? "A" = some (⟨82⟩,.interface "B" none ⟨[],[],[]⟩) := by cbv
  have same := all _ _ _ _ _ crossed_loaded found
  revert same
  decide

set_option maxRecDepth 2000 in
theorem crossed_class_is_the_records : Metadata.ofBytes crossedClasses = .ok crossedLoaded ∧
    ∃ c memo, classNamed ⟨crossedLoaded,ClassTable.initial⟩ "A" (requested crossedLoaded []) = (.ok c,memo) ∧
      c.name = "B" ∧ NameAt crossedClasses 86 c.name ∧ ¬crossedLoaded.NamesAgree := by
  have shown : (classNamed ⟨crossedLoaded,ClassTable.initial⟩ "A" (requested crossedLoaded [])).1.toOption.map
      (fun c => (c.id,c.name)) = some (⟨82⟩,"B") := by cbv
  rcases answer : classNamed ⟨crossedLoaded,ClassTable.initial⟩ "A" (requested crossedLoaded []) with ⟨_ | c,memo⟩
  · rw [answer] at shown
    cases shown
  rw [answer] at shown
  obtain ⟨place,named⟩ := Prod.mk.inj (Option.some.inj shown)
  obtain ⟨_,_,_,_,recorded,_,_⟩ := names_are_the_records crossed_loaded
  have there := (recorded _ _ _ _ _ answer).2
  rw [place] at there
  refine ⟨crossed_loaded,c,memo,rfl,named,there,fun names => ?_⟩
  have same := names.synthesized _ _ _ _ _ answer
  rw [named] at same
  revert same
  decide

end Metadata
end ObjectBridge
