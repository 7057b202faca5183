import ObjectBridge.Proofs.Metadata.Outlines
import ObjectBridge.Proofs.Synthesis.Histories
import ObjectBridge.Synthesis.Check

namespace ObjectBridge

section Cycles
open Relation

variable {α : Type} {r : α → α → Prop} {a b : α}

-- Along the relation one comes to something that the relation leads back to.
def LeadsToCycle (r : α → α → Prop) (a : α) : Prop := ∃ b, ReflTransGen r a b ∧ TransGen r b b

theorem LeadsToCycle.before (leads : LeadsToCycle r b) (edge : r a b) : LeadsToCycle r a := by
  obtain ⟨c,path,cycle⟩ := leads
  exact ⟨c,.head edge path,cycle⟩

theorem not_leadsToCycle (accessible : Acc (flip r) a) : ¬LeadsToCycle r a := by
  induction accessible with
  | intro a _ ih =>
    intro leads
    obtain ⟨b,path,cycle⟩ := leads
    rcases path.cases_head with rfl | ⟨next,edge,rest⟩
    · obtain ⟨next,edge,back⟩ := TransGen.head'_iff.mp cycle
      exact ih next edge ⟨next,.refl,.tail' back edge⟩
    · exact ih next edge ⟨b,rest,cycle⟩

theorem wellFounded_of_acyclic [Finite α] (acyclic : ∀ a, ¬TransGen r a a) : WellFounded (flip r) := by
  have : IsTrans α fun a b => TransGen r b a := ⟨fun _ _ _ first second => second.trans first⟩
  have : Std.Irrefl fun a b => TransGen r b a := ⟨acyclic⟩
  have founded := Finite.wellFounded_of_trans_of_irrefl fun a b => TransGen r b a
  exact Subrelation.wf (fun {a b} (edge : r b a) => TransGen.single edge) founded

-- With finitely many places to come to, a way that leads to no cycle ends.
theorem accessible_iff (finite : {y | ∃ x, r x y}.Finite) : Acc (flip r) a ↔ ¬LeadsToCycle r a := by
  refine ⟨not_leadsToCycle,fun clear => ?_⟩
  have : Finite {y // (∃ x, r x y) ∧ ¬LeadsToCycle r y} := (finite.subset fun y node => node.1).to_subtype
  have founded : WellFounded (flip fun x y : {y // (∃ x, r x y) ∧ ¬LeadsToCycle r y} => r x.1 y.1) :=
    wellFounded_of_acyclic fun x around => x.2.2 ⟨x.1,.refl,around.lift Subtype.val fun _ _ edge => edge⟩
  have next {x y : α} (clear : ¬LeadsToCycle r x) (edge : r x y) : (∃ x, r x y) ∧ ¬LeadsToCycle r y :=
    ⟨⟨x,edge⟩,fun leads => clear (leads.before edge)⟩
  have nodes (x : {y // (∃ x, r x y) ∧ ¬LeadsToCycle r y}) : Acc (flip r) x.1 := by
    induction x using founded.induction with
    | h x ih => exact ⟨_,fun y edge => ih ⟨y,next x.2.2 edge⟩ edge⟩
  exact ⟨_,fun y edge => nodes ⟨y,next clear edge⟩⟩

end Cycles

namespace Declaration

-- The names of what the declaration derives from.
def parents (decl : Declaration) : List String := decl.base?.toList ++ decl.protocols

end Declaration

namespace Universe

variable {u : Universe}

def DerivesFrom (u : Universe) (name parent : String) : Prop :=
  ∃ decl ∈ u.declarations, decl.name = name ∧ parent ∈ decl.parents

-- The names of the interfaces and the protocols.
def classNames (u : Universe) : List String := u.interfaces.map (·.name) ++ u.protocols.map (·.name)

theorem finite_parents (u : Universe) : {parent | ∃ name, u.DerivesFrom name parent}.Finite := by
  refine (List.finite_toSet (u.declarations.flatMap (·.parents))).subset ?_
  rintro parent ⟨name,decl,among,_,derives⟩
  exact List.mem_flatMap.mpr ⟨decl,among,derives⟩

end Universe

theorem isClassLike_iff {d : Descriptor} :
    Metadata.isClassLike d = true ↔ d.kind = .interface ∨ d.kind = .protocol := by
  cases d <;> simp [Metadata.isClassLike,Descriptor.kind]

theorem isClassLike_congr {d e : Descriptor} (same : d.kind = e.kind) : Metadata.isClassLike d = Metadata.isClassLike e := by
  rw [Bool.eq_iff_iff,isClassLike_iff,isClassLike_iff,same]

namespace Synthesis
open Outcome

variable {u : Universe} {m : Metadata} {placed : List (DescriptorId × Descriptor)} {id : DescriptorId} {d : Descriptor}
  {base : Option DescriptorId} {ids : List DescriptorId}

theorem toList_related {R : α → β → Prop} {a : Option α} {b : Option β} (related : Option.Rel R a b) :
    List.Forall₂ R a.toList b.toList := by
  cases related with
  | none => exact .nil
  | some one => exact .cons one .nil

theorem resolved_heads (resolved : Resolved u placed) :
    List.Forall₂ (fun decl p => p.2.name = decl.name ∧ p.2.kind = decl.kind) u.declarations placed := by
  rw [← declarations_placed (Layout.descriptorStart u) u.declarations,List.forall₂_map_left_iff]
  exact resolved.described.imp fun _ _ one => describe_kind one.2

theorem class_names {decls : List Declaration}
    (heads : List.Forall₂ (fun decl p => p.2.name = decl.name ∧ p.2.kind = decl.kind) decls placed) :
    (placed.filter fun p => Metadata.isClassLike p.2).map (·.2.name) =
      (decls.filter fun decl => decl.kind = .interface ∨ decl.kind = .protocol).map (·.name) := by
  induction heads with
  | nil => rfl
  | @cons decl p _ _ one _ ih =>
    obtain ⟨name,kind⟩ := one
    have alike : Metadata.isClassLike p.2 = decide (decl.kind = .interface ∨ decl.kind = .protocol) := by
      rw [Bool.eq_iff_iff,isClassLike_iff,kind,decide_eq_true_eq]
    rw [List.filter_cons,List.filter_cons,alike]
    split
    · rw [List.map_cons,List.map_cons,ih,name]
    · exact ih

theorem presents_parents {stands : Meaning} {decl : Declaration} (presents : Presents stands decl d)
    (parents : parentsOf d = .ok (base,ids)) :
    List.Forall₂ (fun name id => stands name id .interface) decl.base?.toList base.toList ∧
      List.Forall₂ (fun name id => stands name id .protocol) decl.protocols ids := by
  cases decl <;> cases d <;> try exact presents.elim
  case interface.interface =>
    cases parents
    exact ⟨toList_related presents.2.1,presents.2.2.protocols⟩
  case protocol.protocol =>
    cases parents
    exact ⟨.nil,presents.2.protocols⟩
  case struct.struct => cases parents
  case function.function => cases parents

-- With a name goes one declaration and one descriptor.
theorem presents_of_name (resolved : Resolved u placed) (member : (id,d) ∈ placed) {decl : Declaration}
    (among : decl ∈ u.declarations) (named : decl.name = d.name) : Presents (Among placed) decl d := by
  obtain ⟨other,there,presents⟩ := resolved_presents resolved _ member
  have same : other = decl :=
    List.inj_on_of_nodup_map resolved.distinct there among (presents.name_eq.symm.trans named.symm)
  exact same ▸ presents

section Outlined

variable (resolved : Resolved u placed) (outlines : m.Outlines placed)
include outlines

theorem ofKind_of_among {name : String} {kind : DescriptorKind} (among : Among placed name id kind) : OfKind m kind id := by
  obtain ⟨d,member,_,rfl⟩ := among
  exact ⟨_,outlines.described _ member,(outlines.same _ member).kind⟩

theorem derives_iff (member : (id,d) ∈ placed) :
    (∃ e, Derives m id e base ids) ↔ parentsOf d = .ok (base,ids) := by
  have known := outlines.described _ member
  have same := (outlines.same _ member).parents
  constructor
  · rintro ⟨e,again,parents⟩
    cases known.symm.trans again
    exact same.symm.trans parents
  · intro parents
    exact ⟨_,known,same.trans parents⟩

include resolved

theorem Grounded.accessible (grounded : Grounded m id) : ∀ d, (id,d) ∈ placed → Acc (flip u.DerivesFrom) d.name := by
  refine Grounded.induct ?_ grounded
  intro id e base ids derives superclass conforms d member
  have parents := (derives_iff outlines member).mp ⟨e,derives⟩
  constructor
  intro parent edge
  obtain ⟨decl,among,named,derived⟩ := edge
  obtain ⟨bases,protocols⟩ := presents_parents (presents_of_name resolved member among named) parents
  rcases List.mem_append.mp derived with inBase | inProtocols
  · obtain ⟨b,isBase,found⟩ := related_right bases inBase
    obtain ⟨d,there,rfl,_⟩ := found
    exact (superclass b (Option.mem_toList.mp isBase)).2.2 d there
  · obtain ⟨p,inIds,found⟩ := related_right protocols inProtocols
    obtain ⟨d,there,rfl,_⟩ := found
    exact (conforms p inIds).2.2 d there

theorem grounded_of_accessible {name : String} (accessible : Acc (flip u.DerivesFrom) name) :
    ∀ id d, (id,d) ∈ placed → d.name = name → Metadata.isClassLike d = true → Grounded m id := by
  induction accessible with
  | intro name _ ih =>
    intro id d member named classLike
    obtain ⟨decl,among,presents⟩ := resolved_presents resolved _ member
    obtain ⟨base,ids,parents⟩ : ∃ base ids, parentsOf d = .ok (base,ids) := by
      cases d with
      | interface | protocol => exact ⟨_,_,rfl⟩
      | struct | function => cases classLike
    obtain ⟨e,derives⟩ := (derives_iff outlines member).mpr parents
    obtain ⟨bases,protocols⟩ := presents_parents presents parents
    have above {parent : String} {p : DescriptorId} {kind : DescriptorKind} (derived : parent ∈ decl.parents)
        (found : Among placed parent p kind) (derivable : kind = .interface ∨ kind = .protocol) :
        OfKind m kind p ∧ Grounded m p := by
      refine ⟨ofKind_of_among outlines found,?_⟩
      obtain ⟨d,there,is,rfl⟩ := found
      exact ih parent ⟨decl,among,presents.name_eq.symm.trans named,derived⟩ p d there is (isClassLike_iff.mpr derivable)
    apply derives.grounded
    · intro b isBase
      obtain ⟨parent,inBase,found⟩ := related_left bases (Option.mem_toList.mpr isBase)
      exact above (List.mem_append_left _ inBase) found (.inl rfl)
    · intro p inIds
      obtain ⟨parent,inProtocols,found⟩ := related_left protocols inIds
      exact above (List.mem_append_right _ inProtocols) found (.inr rfl)

theorem grounded_iff (member : (id,d) ∈ placed) (classLike : Metadata.isClassLike d = true) :
    Grounded m id ↔ ¬LeadsToCycle u.DerivesFrom d.name := by
  rw [← accessible_iff u.finite_parents]
  constructor
  · intro grounded
    exact grounded.accessible resolved outlines d member
  · intro accessible
    exact grounded_of_accessible resolved outlines accessible id d member rfl classLike

end Outlined

section Counts
open Classical

-- What was built or has failed before makes no difference to the next one.
theorem checkAll_failures {memo : Memo} (consistent : Consistent ⟨m,ClassTable.initial⟩ [] memo)
    (described : List (DescriptorId × Descriptor)) :
    (m.checkAll memo described).length = described.countP fun p => ¬Grounded m p.1 := by
  induction described generalizing memo with
  | nil => rfl
  | cons p rest ih =>
    obtain ⟨id,d⟩ := p
    have opening : LeadsTo m [] id := fun _ none => nomatch none
    have answers := succeeds_iff consistent opening
    have left := calls_leave ⟨m,ClassTable.initial⟩ [] id memo consistent
    have others := ih left.consistent
    have called : classOf ⟨m,ClassTable.initial⟩ id memo = synthesize ⟨m,ClassTable.initial⟩ [] id memo := rfl
    rw [Metadata.checkAll,called,List.countP_cons]
    rcases out : synthesize ⟨m,ClassTable.initial⟩ [] id memo with ⟨e | c,after⟩
    · rw [out] at answers others
      have groundless : ¬Grounded m id := fun grounded => by
        obtain ⟨c,answer⟩ := answers.mpr grounded
        cases answer
      rw [if_pos (by simpa using groundless)]
      exact congrArg (·+1) others
    · rw [out] at answers others
      have grounded : Grounded m id := answers.mp ⟨c,rfl⟩
      rw [if_neg (by simpa using grounded)]
      exact others

end Counts

-- What a file is checked for, in the order of the names.
def described (m : Metadata) : List (DescriptorId × Descriptor) := m.named.filter fun p => Metadata.isClassLike p.2

section Described

variable (resolved : Resolved u placed) (outlines : m.Outlines placed)
include resolved outlines

-- The classes and protocols of the file are those of the universe.
theorem described_names : ((described m).map (·.2.name)).Perm u.classNames := by
  have declared : (u.declarations.filter fun decl => decl.kind = .interface ∨ decl.kind = .protocol).map (·.name) =
      u.classNames := by
    simp [Universe.declarations,Universe.classNames,List.filter_map,Function.comp_def,Declaration.kind,Declaration.name]
  have same : ((placed.map m.entry).filter fun p => Metadata.isClassLike p.2).map (·.2.name) = u.classNames := by
    have kinds : ∀ p ∈ placed, Metadata.isClassLike (m.entry p).2 = Metadata.isClassLike p.2 :=
      fun p member => isClassLike_congr (outlines.same p member).kind
    have names : ∀ p ∈ placed.filter fun p => Metadata.isClassLike p.2, (m.entry p).2.name = p.2.name :=
      fun p member => (outlines.same p (List.mem_of_mem_filter member)).name
    rw [← declared,← class_names (resolved_heads resolved),← List.map_congr_left names,← List.filter_congr kinds,
      List.filter_map,List.map_map]
    rfl
  rw [← same]
  exact (outlines.named.filter _).map _

open Classical in
theorem described_failures :
    (described m).countP (fun p => ¬Grounded m p.1) =
      u.classNames.countP fun name => LeadsToCycle u.DerivesFrom name := by
  rw [← (described_names resolved outlines).countP_eq,List.countP_map]
  apply List.countP_congr
  intro p member
  obtain ⟨among,classLike⟩ := List.mem_filter.mp member
  obtain ⟨q,there,rfl⟩ := List.mem_map.mp (outlines.named.mem_iff.mp among)
  have same := outlines.same q there
  have likewise : Metadata.isClassLike q.2 = true := by
    rw [isClassLike_iff,← same.kind]
    exact isClassLike_iff.mp classLike
  have grounded := grounded_iff resolved outlines there likewise
  simp only [decide_eq_true_eq,Function.comp_apply,same.name]
  rw [show (m.entry q).1 = q.1 from rfl,grounded,not_not]

end Described

open Classical in
theorem check_counts_cycles {file : Array UInt8} (compiled : u.compile = .ok file) (loaded : Metadata.ofBytes file = .ok m) :
    let failed := u.classNames.countP fun name => LeadsToCycle u.DerivesFrom name
    m.check.verdict = if failed = 0 then .ok u.classNames.length else .error (failed,u.classNames.length) := by
  obtain ⟨placed,resolved,outlines⟩ := Metadata.loaded_outlines compiled loaded
  have checked : m.check = ⟨(described m).length,m.checkAll .empty (described m)⟩ := rfl
  have total : (described m).length = u.classNames.length := by
    rw [← (described_names resolved outlines).length_eq,List.length_map]
  have failures := checkAll_failures (empty_consistent ⟨m,ClassTable.initial⟩) (described m)
  rw [described_failures resolved outlines] at failures
  intro failed
  rw [CheckReport.verdict,checked,failures,total]
  by_cases none : failed = 0
  · rw [if_pos none,if_pos (List.isEmpty_iff_length_eq_zero.mpr (failures.trans none))]
  · rw [if_neg none,if_neg fun empty => none (failures.symm.trans (List.isEmpty_iff_length_eq_zero.mp empty))]

-- Two classes that derive from each other, one below them and a protocol that stands alone.
def henAndEgg : Universe where
  interfaces := [⟨"Egg",some "Hen",[],[],[]⟩,⟨"Hen",some "Egg",["Bird"],[],[]⟩,⟨"Chick",some "Hen",[],[],[]⟩]
  protocols := [⟨"Bird",[],[],[]⟩]
  structs := []
  functions := []

def henAndEggFile : Array UInt8 :=
  #[0x4d,0x42,0x4d,0x44,1,0,0,0,32,0,0,0,23,0,0,0,55,0,0,0,91,0,0,0,144,0,0,0,235,0,0,0,
    3,0,0x45,0x67,0x67,3,0,0x48,0x65,0x6e,5,0,0x43,0x68,0x69,0x63,0x6b,4,0,0x42,0x69,0x72,0x64,
    4,0,0,0,49,0,0,0,163,0,0,0,42,0,0,0,139,0,0,0,32,0,0,0,91,0,0,0,37,0,0,0,115,0,0,0,
    1,0,0,0,32,0,0,0,115,0,0,0,183,0,0,0,187,0,0,0,191,0,0,0, 1,0,0,0,37,0,0,0,91,0,0,0,195,0,0,0,203,0,0,0,207,0,0,0,
    1,0,0,0,42,0,0,0,115,0,0,0,211,0,0,0,215,0,0,0,219,0,0,0, 2,0,0,0,49,0,0,0,223,0,0,0,227,0,0,0,231,0,0,0,
    0,0,0,0,0,0,0,0,0,0,0,0, 1,0,0,0,163,0,0,0,0,0,0,0,0,0,0,0, 0,0,0,0,0,0,0,0,0,0,0,0, 0,0,0,0,0,0,0,0,0,0,0,0]

def henAndEggLoaded : Metadata :=
  ⟨1,⟨henAndEggFile,⟨32,55⟩,⟨55,91⟩,⟨91,235⟩⟩,⟨[(91,()),(115,()),(139,()),(163,())]⟩⟩

theorem henAndEgg_lead (name : String) (among : name = "Egg" ∨ name = "Hen" ∨ name = "Chick") :
    LeadsToCycle henAndEgg.DerivesFrom name := by
  have egg : henAndEgg.DerivesFrom "Egg" "Hen" :=
    ⟨.interface ⟨"Egg",some "Hen",[],[],[]⟩,by simp [Universe.declarations,henAndEgg],rfl,by decide⟩
  have hen : henAndEgg.DerivesFrom "Hen" "Egg" :=
    ⟨.interface ⟨"Hen",some "Egg",["Bird"],[],[]⟩,by simp [Universe.declarations,henAndEgg],rfl,by decide⟩
  have chick : henAndEgg.DerivesFrom "Chick" "Hen" :=
    ⟨.interface ⟨"Chick",some "Hen",[],[],[]⟩,by simp [Universe.declarations,henAndEgg],rfl,by decide⟩
  have first : LeadsToCycle henAndEgg.DerivesFrom "Egg" := ⟨"Egg",.refl,.tail (.single egg) hen⟩
  rcases among with rfl | rfl | rfl
  · exact first
  · exact first.before hen
  · exact (first.before hen).before chick

theorem bird_alone : ¬LeadsToCycle henAndEgg.DerivesFrom "Bird" := by
  apply not_leadsToCycle
  constructor
  intro parent edge
  obtain ⟨decl,among,named,derived⟩ := edge
  simp only [Universe.declarations,henAndEgg,List.map_cons,List.map_nil,List.cons_append,List.nil_append,
    List.mem_cons,List.not_mem_nil,or_false] at among
  rcases among with rfl | rfl | rfl | rfl
  · exact absurd named (by decide)
  · exact absurd named (by decide)
  · exact absurd named (by decide)
  · cases derived

theorem hen_and_egg_counted : henAndEgg.compile = .ok henAndEggFile ∧
    Metadata.ofBytes henAndEggFile = .ok henAndEggLoaded ∧ henAndEggLoaded.check.verdict = .error (3,4) := by
  have compiled : henAndEgg.compile = .ok henAndEggFile := by cbv
  have loaded : Metadata.ofBytes henAndEggFile = .ok henAndEggLoaded := by cbv
  refine ⟨compiled,loaded,?_⟩
  have checked := check_counts_cycles compiled loaded
  have names : henAndEgg.classNames = ["Egg","Hen","Chick","Bird"] := rfl
  have egg := henAndEgg_lead "Egg" (.inl rfl)
  have hen := henAndEgg_lead "Hen" (.inr (.inl rfl))
  have chick := henAndEgg_lead "Chick" (.inr (.inr rfl))
  simpa [names,egg,hen,chick,bird_alone] using checked

end Synthesis
end ObjectBridge
