import ObjectBridge.Bridge.Marshal
import ObjectBridge.Proofs.Synthesis.Members

namespace ObjectBridge.Synthesis

variable {m : Metadata} {asked : List (ClassTable × DescriptorId)} {natives : ClassTable} {id target : DescriptorId}
  {memo : Memo} {c k : SynthesizedClass} {d : Descriptor} {base : Option DescriptorId} {ids : List DescriptorId}
  {parent : Option SynthesizedClass} {protocols : List SynthesizedClass}

-- A descriptor, its superclass, and so on up to the one that has none.
inductive Lineage (m : Metadata) : DescriptorId → List DescriptorId → Prop where
  | root {id : DescriptorId} {d : Descriptor} {protocols : List DescriptorId} (derives : Derives m id d none protocols) :
      Lineage m id [id]
  | above {id base : DescriptorId} {d : Descriptor} {protocols ids : List DescriptorId}
      (derives : Derives m id d (some base) protocols) (further : Lineage m base ids) : Lineage m id (id :: ids)

theorem Lineage.mem_iff (lineage : Lineage m id ids) :
    target ∈ ids ↔ Relation.ReflTransGen (Superclass m) id target := by
  induction lineage with
  | @root id d protocols derives =>
    rw [List.mem_singleton,Relation.ReflTransGen.cases_head_iff]
    refine ⟨fun same => .inl same.symm,?_⟩
    rintro (same | ⟨base,⟨d',protocols',derives'⟩,_⟩)
    · exact same.symm
    · cases (derives.unique derives').2.1
  | @above id base d protocols ids derives further ih =>
    rw [List.mem_cons,Relation.ReflTransGen.cases_head_iff,ih]
    constructor
    · rintro (same | way)
      · exact .inl same.symm
      · exact .inr ⟨base,⟨d,protocols,derives⟩,way⟩
    · rintro (same | ⟨base',⟨d',protocols',derives'⟩,way⟩)
      · exact .inl same.symm
      · obtain rfl := Option.some.inj (derives.unique derives').2.1
        exact .inr way

-- A class that came twice would derive from itself.
theorem Lineage.nodup (lineage : Lineage m id ids) (grounded : Grounded m id) : ids.Nodup := by
  induction lineage with
  | root => exact List.nodup_cons.mpr ⟨List.not_mem_nil,.nil⟩
  | @above id base d protocols ids derives further ih =>
    have superclass : Superclass m id base := ⟨d,protocols,derives⟩
    refine List.nodup_cons.mpr ⟨?_,ih (grounded.above superclass.edge)⟩
    intro again
    have way := Relation.ReflTransGen.mono (fun _ _ => Superclass.edge) _ _ (further.mem_iff.mp again)
    exact grounded.acyclic (.head' superclass.edge way)

theorem requested_id (held : (requested m asked).cached? id = some c) : c.id = id := by
  obtain ⟨_,d,base,ids,parent,protocols,assembled⟩ := requested_assembled held
  rw [assembled.result]
  rfl

theorem requested_lineage (held : (requested m asked).cached? id = some c) : Lineage m id c.lineage := by
  refine requested_induct (motive := fun id c => Lineage m id c.lineage) ?_ held
  intro id c d base ids parent protocols assembled superclass _
  obtain ⟨derives,inherits,_,result⟩ := assembled
  rw [result]
  cases inherits with
  | none => exact .root derives
  | @some b k held => exact .above derives (superclass b k rfl rfl held.1)

-- Protocols have no superclass.
theorem protocol_lineage (held : Held (requested m asked) .protocol id c) : c.lineage = [id] := by
  obtain ⟨_,d,base,ids,parent,protocols,⟨known,parents⟩,inherits,_,result⟩ := requested_assembled held.1
  have kind := held.2
  rw [result] at kind ⊢
  cases d with
  | protocol name members =>
    cases parents
    cases inherits
    rfl
  | interface | struct | function => cases kind

theorem mem_conformances (assembled : Assembled m memo id c d base ids parent protocols) :
    target ∈ c.conformances ↔
      (∃ k, parent = some k ∧ target ∈ k.conformances) ∨ ∃ k ∈ protocols, target = k.id ∨ target ∈ k.conformances := by
  rw [assembled.result]
  simp only [SynthesizedClass.assemble,List.mem_eraseDups,List.mem_append,List.mem_flatMap,List.mem_cons]
  cases parent <;> simp

theorem isCompatible_iff : c.isCompatible target = true ↔ target ∈ c.lineage ∨ target ∈ c.conformances := by
  simp [SynthesizedClass.isCompatible,SynthesizedClass.isSubclassOf,SynthesizedClass.conformsTo]

theorem assembled_compatible (assembled : Assembled m (requested m asked) id c d base ids parent protocols) :
    c.isCompatible target ↔ target = id ∨ (∃ k, parent = some k ∧ k.isCompatible target) ∨
      ∃ k ∈ protocols, k.isCompatible target := by
  have lineage : target ∈ c.lineage ↔ target = id ∨ ∃ k, parent = some k ∧ target ∈ k.lineage := by
    rw [assembled.result]
    cases parent <;> simp [SynthesizedClass.assemble]
  have ofParent : (∃ k, parent = some k ∧ k.isCompatible target) ↔
      (∃ k, parent = some k ∧ target ∈ k.lineage) ∨ ∃ k, parent = some k ∧ target ∈ k.conformances := by
    simp only [isCompatible_iff,and_or_left,exists_or]
  have ofProtocols : (∃ k ∈ protocols, k.isCompatible target) ↔
      ∃ k ∈ protocols, target = k.id ∨ target ∈ k.conformances := by
    refine exists_congr fun k => and_congr_right fun among => ?_
    obtain ⟨p,_,held⟩ := Outcome.related_left assembled.conforms among
    rw [isCompatible_iff,protocol_lineage held,List.mem_singleton,requested_id held.1]
  rw [isCompatible_iff,lineage,mem_conformances assembled,ofParent,ofProtocols]
  simp only [or_assoc]

theorem requested_compatible (held : (requested m asked).cached? id = some c) :
    c.isCompatible target ↔ Relation.ReflTransGen (Parent m) id target := by
  refine requested_induct (motive := fun id c => c.isCompatible target ↔ Relation.ReflTransGen (Parent m) id target) ?_ held
  intro id c d base ids parent protocols assembled superclass conforms
  have derives := assembled.derives
  rw [assembled_compatible assembled,Relation.ReflTransGen.cases_head_iff]
  constructor
  · rintro (same | ⟨k,rfl,compatible⟩ | ⟨k,among,compatible⟩)
    · exact .inl same.symm
    · cases assembled.superclass with
      | @some b _ above =>
        exact .inr ⟨b,⟨d,some b,ids,derives,.inl rfl⟩,(superclass b k rfl rfl above.1).mp compatible⟩
    · obtain ⟨p,member,_,leads⟩ := conforms k among
      exact .inr ⟨p,⟨d,base,ids,derives,.inr member⟩,leads.mp compatible⟩
  · rintro (same | ⟨p,⟨d',base',ids',derives',among⟩,way⟩)
    · exact .inl same.symm
    obtain ⟨rfl,rfl,rfl⟩ := derives.unique derives'
    rcases among with rfl | member
    · cases assembled.superclass with
      | @some _ k above => exact .inr (.inl ⟨k,rfl,(superclass p k rfl rfl above.1).mpr way⟩)
    · obtain ⟨k,among,above⟩ := Outcome.related_right assembled.conforms member
      obtain ⟨p',_,above',leads⟩ := conforms k among
      obtain rfl : p = p' := (requested_id above.1).symm.trans (requested_id above')
      exact .inr (.inr ⟨k,among,leads.mpr way⟩)

theorem compatible_transitive (held : (requested m asked).cached? id = some c) {other : DescriptorId}
    (there : (requested m asked).cached? other = some k) (one : c.isCompatible other) (next : k.isCompatible target) :
    c.isCompatible target := by
  rw [requested_compatible held] at one ⊢
  exact one.trans ((requested_compatible there).mp next)

theorem compatible_antisymmetric (held : (requested m asked).cached? id = some c) {other : DescriptorId}
    (there : (requested m asked).cached? other = some k) (one : c.isCompatible other) (back : k.isCompatible id) :
    c = k := by
  rw [requested_compatible held,Relation.reflTransGen_iff_eq_or_transGen] at one
  rw [requested_compatible there] at back
  rcases one with rfl | way
  · exact Option.some.inj (held.symm.trans there)
  · exact absurd (way.trans_left back) (requested_assembled held).1.acyclic

theorem compatible_is_reachable (held : (requested m asked).cached? id = some c) :
    c.id = id ∧ Lineage m id c.lineage ∧ c.lineage.Nodup ∧
    (∀ target, c.isCompatible target ↔ Relation.ReflTransGen (Parent m) id target) ∧
    c.isCompatible c.id ∧
    (∀ other k target, (requested m asked).cached? other = some k → c.isCompatible k.id → k.isCompatible target →
      c.isCompatible target) ∧
    (∀ other k, (requested m asked).cached? other = some k → c.isCompatible k.id → k.isCompatible c.id → c = k) ∧
    ∀ (w : Wrapper) (other further : DescriptorId) (k e : SynthesizedClass), w.cls = c →
      (requested m asked).cached? other = some k → (requested m asked).cached? further = some e →
      (ScriptValue.object w).isInstanceOf k → k.isCompatible e.id → (ScriptValue.object w).isInstanceOf e := by
  obtain rfl := requested_id held
  refine ⟨rfl,requested_lineage held,(requested_lineage held).nodup (requested_assembled held).1,
    fun _ => requested_compatible held,(requested_compatible held).mpr .refl,?_,?_,?_⟩
  · rintro other k target there one next
    obtain rfl := requested_id there
    exact compatible_transitive held there one next
  · rintro other k there one back
    obtain rfl := requested_id there
    exact compatible_antisymmetric held there one back
  · rintro w other further k e rfl there _ isInstance compatible
    obtain rfl := requested_id there
    exact compatible_transitive held there isInstance compatible

set_option maxRecDepth 2000 in
theorem ducks_are_birds : ∃ c, (requested waterbirds [(ClassTable.initial,⟨116⟩)]).cached? ⟨116⟩ = some c ∧
    c.lineage = [⟨116⟩,⟨92⟩] ∧ Lineage waterbirds ⟨116⟩ c.lineage ∧ c.lineage.Nodup ∧
    c.isCompatible ⟨140⟩ ∧ Relation.ReflTransGen (Parent waterbirds) ⟨116⟩ ⟨140⟩ := by
  have shown : ((requested waterbirds [(ClassTable.initial,⟨116⟩)]).cached? ⟨116⟩).map
      (fun c => (c.lineage,c.isCompatible ⟨140⟩)) = some ([⟨116⟩,⟨92⟩],true) := by cbv
  obtain ⟨c,held,facts⟩ := Option.map_eq_some_iff.mp shown
  obtain ⟨ancestors,swims⟩ := Prod.mk.inj facts
  obtain ⟨_,lineage,distinct,reachable,_⟩ := compatible_is_reachable held
  exact ⟨c,held,ancestors,lineage,distinct,swims,(reachable ⟨140⟩).mp swims⟩

end ObjectBridge.Synthesis
