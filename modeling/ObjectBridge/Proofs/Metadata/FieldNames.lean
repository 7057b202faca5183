import ObjectBridge.Bridge.ToNative
import ObjectBridge.Proofs.Metadata.NestingLimit

namespace ObjectBridge
open Layout Outcome

namespace Blob

variable {blob : Blob} {texts : List String} {place here : Nat} {f : Field} {title : String} {fields : List Field}

theorem fieldAt_name (lettered : Lettered blob texts) (among : f.name ∈ texts)
    (holds : Holds blob here (fieldPart texts here f).bytes) :
    (blob.fieldAt (fieldPart texts here f).place).name = f.name := by
  unfold fieldPart at holds ⊢
  dsimp only at holds ⊢
  simp only [List.append_assoc] at holds
  exact textAt_word lettered among holds.right

-- What is found at the places of the fields' records has the fields' names, whatever the types have become.
theorem fieldsAt_names {places : List Nat} (lettered : Lettered blob texts) (among : ∀ f ∈ fields, f.name ∈ texts)
    (listed : List.Forall₂ (fun f p => ∃ there, Holds blob there (fieldPart texts there f).bytes ∧
      p = (fieldPart texts there f).place) fields places) :
    (places.map blob.fieldAt).map (·.name) = fields.map (·.name) := by
  have each := (List.forall₂_and_left fields places).mpr ⟨among,listed⟩
  have same : List.Forall₂ (fun f p => f.name = (blob.fieldAt p).name) fields places := by
    refine each.imp ?_
    rintro f _ ⟨member,there,stands,rfl⟩
    exact (fieldAt_name lettered member stands).symm
  rw [List.map_map]
  exact (related_same same).symm

theorem descriptorAt_fields (small : blob.bytes.size < 2^32) (lettered : Lettered blob texts)
    (fits : DescriptorFits (fun _ => True) texts (.struct title fields))
    (holds : Holds blob here (descriptorParts texts here (.struct title fields)).1)
    (record : Holds blob place (recordBytes texts (.struct title fields) (descriptorParts texts here (.struct title fields)).2)) :
    ∃ found, blob.descriptorAt place = .struct title found ∧ found.map (·.name) = fields.map (·.name) := by
  obtain ⟨kind,named,body⟩ := record_head lettered fits.name record
  unfold descriptorParts at holds body
  dsimp only at holds body
  rw [List.flatMap_cons] at body
  have listed := row_listed small (fun _ _ => field_below small) holds body
  refine ⟨(blob.listAt (blob.wordAt (place+8))).map blob.fieldAt,?_,?_⟩
  · unfold descriptorAt
    rw [kind,named]
    rfl
  · exact fieldsAt_names lettered (fun f member => (fits.body f member).name) listed

end Blob

namespace Metadata

variable {m : Metadata} {u : Universe} {file : Array UInt8} {d : StructDecl}

theorem Reloads.layout_names {placed : List (DescriptorId × Descriptor)} {id : DescriptorId} {title : String} {fields : List Field}
    (reloads : m.Reloads u placed file) (member : (id,.struct title fields) ∈ placed) :
    ∃ found, m.entry (id,.struct title fields) = (id,.struct title found) ∧ found.map (·.name) = fields.map (·.name) := by
  obtain ⟨resolved,parts,small,itself,_⟩ := reloads
  obtain ⟨there,behind,record⟩ := opened_records resolved parts _ member
  obtain ⟨found,read,names⟩ := Blob.descriptorAt_fields small (resolved_lettered resolved parts small)
    (resolved_outlined resolved parts small _ member) behind record
  refine ⟨found,?_,names⟩
  rw [entry,itself]
  exact Prod.ext rfl read

-- Each declared structure is found in the file, and its fields with it.
theorem loaded_layout (compiled : u.compile = .ok file) (loaded : Metadata.ofBytes file = .ok m) (declared : d ∈ u.structs) :
    ∃ id layout, m.resolve? d.name = some (id,.struct d.name layout) ∧ Bridge.layout? m id = some layout ∧
      layout.map (·.name) = d.fields.map (·.name) := by
  obtain ⟨placed,reloads⟩ := loaded_reloads compiled loaded
  have among : Declaration.struct d ∈ u.declarations := by simp [Universe.declarations,declared]
  obtain ⟨⟨id,found⟩,member,_,presents⟩ :=
    resolved_declared reloads.resolved (fun _ _ _ known => known) _ among
  cases found with
  | interface | protocol | function => exact presents.elim
  | struct title fields =>
    obtain ⟨rfl,presented⟩ := presents
    obtain ⟨layout,entry,names⟩ := reloads.layout_names member
    have described := reloads.described _ member
    have listed := List.mem_map_of_mem (f := m.entry) ((Blob.sorted_perm placed).mem_iff.mpr member)
    rw [entry] at described listed
    have spelled : d.fields.map (·.name) = fields.map (·.name) :=
      related_same (presented.imp fun _ _ one => one.name.symm)
    refine ⟨id,layout,reloads.lists.resolves listed,?_,names.trans spelled.symm⟩
    unfold Bridge.layout?
    rw [described]

end Metadata
end ObjectBridge
