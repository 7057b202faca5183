import ObjectBridge.Proofs.Synthesis.Compatibility

namespace ObjectBridge
open Synthesis

variable {m : Metadata} {asked : List (ClassTable × DescriptorId)} {id above : DescriptorId} {c k : SynthesizedClass}
  {d : Descriptor} {base : Option DescriptorId} {ids : List DescriptorId} {parent : Option SynthesizedClass}
  {protocols : List SynthesizedClass}

namespace Shelf

variable {α : Type} (s : Shelf α)

-- Every name of the table of `k` is one of that of `c`, though what it stands for may differ.
def Covers (c k : SynthesizedClass) : Prop :=
  ∀ name, (s.table k).contains name = true → (s.table c).contains name = true

theorem covers_parent (assembled : Assembled m (requested m asked) id c d base ids (some k) protocols) : s.Covers c k := by
  intro name there
  rw [Table.contains,s.resolves assembled,inOrder,Option.isSome_or,Option.isSome_or,Bool.or_eq_true,Bool.or_eq_true]
  exact .inr (.inl there)

theorem covers_protocol (assembled : Assembled m (requested m asked) id c d base ids parent protocols)
    (among : k ∈ protocols) : s.Covers c k := by
  intro name there
  rw [Table.contains,s.resolves assembled,inOrder,Option.isSome_or,Option.isSome_or,Bool.or_eq_true,Bool.or_eq_true]
  refine .inr (.inr ?_)
  rw [List.findSome?_isSome_iff]
  exact ⟨k,List.mem_reverse.mpr among,there⟩

-- No table shows the native class behind a class.
theorem Covers.same {k' : SynthesizedClass} {s : Shelf α} (covers : s.Covers c k') (same : k'.bare = k.bare)
    (plain : ∀ k, s.table k.bare = s.table k) : s.Covers c k := by
  intro name there
  rw [← plain,← same,plain] at there
  exact covers name there

end Shelf

namespace Synthesis

-- What was assembled first is still there, and the class covers it on every shelf.
theorem parent_covered (held : (requested m asked).cached? id = some c) (edge : Parent m id above) :
    ∃ k, (requested m asked).cached? above = some k ∧ ∀ {α : Type} (s : Shelf α), s.Covers c k := by
  obtain ⟨_,d,base,ids,parent,protocols,assembled⟩ := requested_assembled held
  obtain ⟨d',base',ids',derives,among⟩ := edge
  obtain ⟨rfl,rfl,rfl⟩ := assembled.derives.unique derives
  rcases among with rfl | member
  · cases assembled.superclass with
    | @some _ k one => exact ⟨k,one.1,fun s => s.covers_parent assembled⟩
  · obtain ⟨k,among,one⟩ := Outcome.related_right assembled.conforms member
    exact ⟨k,one.1,fun s => s.covers_protocol assembled among⟩

-- The induction is on the way up, each step of it one of `parent_covered`.
theorem reached_covered (way : Relation.ReflTransGen (Parent m) id above)
    (held : (requested m asked).cached? id = some c) :
    ∃ k, (requested m asked).cached? above = some k ∧ ∀ {α : Type} (s : Shelf α), s.Covers c k := by
  induction way using Relation.ReflTransGen.head_induction_on generalizing c with
  | refl => exact ⟨c,held,fun _ _ there => there⟩
  | head edge _ ih =>
    obtain ⟨between,there,first⟩ := parent_covered held edge
    obtain ⟨k,last,rest⟩ := ih there
    exact ⟨k,last,fun s name known => first s name (rest s name known)⟩

theorem superclass_initializers (held : (requested m asked).cached? id = some c) (edge : Superclass m id above) :
    ∃ k, (requested m asked).cached? above = some k ∧ k.initializers <:+ c.initializers := by
  obtain ⟨_,d,base,ids,parent,protocols,assembled⟩ := requested_assembled held
  obtain ⟨d',ids',derives⟩ := edge
  obtain ⟨rfl,rfl,rfl⟩ := assembled.derives.unique derives
  have inherits := assembled_initializers assembled
  cases assembled.superclass with
  | @some _ k one => exact ⟨k,one.1,_,inherits.symm⟩

theorem lineage_initializers (way : Relation.ReflTransGen (Superclass m) id above)
    (held : (requested m asked).cached? id = some c) :
    ∃ k, (requested m asked).cached? above = some k ∧ k.initializers <:+ c.initializers := by
  induction way using Relation.ReflTransGen.head_induction_on generalizing c with
  | refl => exact ⟨c,held,List.suffix_rfl⟩
  | head edge _ ih =>
    obtain ⟨between,there,first⟩ := superclass_initializers held edge
    obtain ⟨k,last,rest⟩ := ih there
    exact ⟨k,last,rest.trans first⟩

variable {asked' : List (ClassTable × DescriptorId)}

-- Nothing but the native classes shows when and in what order the classes were asked for.
theorem requested_same (held : (requested m asked).cached? id = some c)
    (held' : (requested m asked').cached? id = some k) : c.bare = k.bare := by
  have one := (requested_alike m asked).cached id
  have other := (requested_alike m asked').cached id
  rw [held] at one
  rw [held'] at other
  have consistent (asked : List DescriptorId) : Consistent ⟨m,⟨[]⟩⟩ [] (after ⟨m,⟨[]⟩⟩ asked) := after_consistent _ asked
  exact (requested_assembled held).1.one_class (consistent _) (consistent _) _ _ one other

-- A class that may stand for another one answers every name that the other one answers, the same way (as a method
-- or a property, of instances or of the class), and a subclass has all its superclass's initializers behind its own.
theorem subclasses_answer_all {other : DescriptorId} (held : (requested m asked).cached? id = some c)
    (there : (requested m asked').cached? other = some k) (compatible : c.isCompatible k.id) :
    Shelf.instanceMethods.Covers c k ∧ Shelf.staticMethods.Covers c k ∧ Shelf.instanceProperties.Covers c k ∧
      Shelf.staticProperties.Covers c k ∧
      (c.isSubclassOf k.id → k.initializers <:+ c.initializers ∧ ∀ e ∈ k.initializers, e ∈ c.initializers) := by
  obtain rfl := requested_id there
  obtain ⟨k',there',covers⟩ := reached_covered ((requested_compatible held).mp compatible) held
  have same := requested_same there' there
  refine ⟨(covers _).same same fun _ => rfl,(covers _).same same fun _ => rfl,(covers _).same same fun _ => rfl,
    (covers _).same same fun _ => rfl,?_⟩
  intro subclass
  have way := (requested_lineage held).mem_iff.mp (of_decide_eq_true subclass)
  obtain ⟨k₁,there₁,behind⟩ := lineage_initializers way held
  have initializers : k₁.bare.initializers = k.bare.initializers :=
    congrArg SynthesizedClass.initializers (requested_same there₁ there)
  have last : k.initializers <:+ c.initializers := initializers ▸ behind
  exact ⟨last,fun e member => last.subset member⟩

set_option maxRecDepth 2000 in
theorem ducks_answer_as_birds : ∃ duck bird swims, (requested waterbirds [(ClassTable.initial,⟨116⟩)]).cached? ⟨116⟩ = some duck ∧
    (requested waterbirds [(ClassTable.initial,⟨92⟩)]).cached? ⟨92⟩ = some bird ∧
    (requested waterbirds [(ClassTable.initial,⟨116⟩)]).cached? ⟨140⟩ = some swims ∧
    Shelf.instanceMethods.Covers duck swims ∧ Shelf.instanceMethods.Covers duck bird ∧
    bird.initializers.map (·.name) = ["hatch"] ∧ bird.initializers <:+ duck.initializers := by
  have ducks : ((requested waterbirds [(ClassTable.initial,⟨116⟩)]).cached? ⟨116⟩).map
      (fun c => (c.isCompatible ⟨140⟩,c.isCompatible ⟨92⟩,c.isSubclassOf ⟨92⟩)) = some (true,true,true) := by cbv
  have birds : ((requested waterbirds [(ClassTable.initial,⟨92⟩)]).cached? ⟨92⟩).map
      (fun c => (c.id,c.initializers.map (·.name))) = some (⟨92⟩,["hatch"]) := by cbv
  have swimmers : ((requested waterbirds [(ClassTable.initial,⟨116⟩)]).cached? ⟨140⟩).map (·.id) = some ⟨140⟩ := by cbv
  obtain ⟨duck,heldDuck,facts⟩ := Option.map_eq_some_iff.mp ducks
  obtain ⟨bird,heldBird,shown⟩ := Option.map_eq_some_iff.mp birds
  obtain ⟨swims,heldSwims,place⟩ := Option.map_eq_some_iff.mp swimmers
  obtain ⟨birdPlace,hatched⟩ := Prod.mk.inj shown
  obtain ⟨toSwims,rest⟩ := Prod.mk.inj facts
  obtain ⟨toBird,subclass⟩ := Prod.mk.inj rest
  obtain ⟨methods,_,_,_,_⟩ := subclasses_answer_all heldDuck heldSwims (place ▸ toSwims)
  obtain ⟨methods',_,_,_,initializers⟩ := subclasses_answer_all heldDuck heldBird (birdPlace ▸ toBird)
  exact ⟨duck,bird,swims,heldDuck,heldBird,heldSwims,methods,methods',hatched,(initializers (birdPlace ▸ subclass)).1⟩

end Synthesis
end ObjectBridge
