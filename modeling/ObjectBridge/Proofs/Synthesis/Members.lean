import Mathlib
import ObjectBridge.Proofs.Synthesis.NativePrograms

namespace ObjectBridge

namespace Descriptor

def instanceMethods (d : Descriptor) : List MethodEntry :=
  (d.methods.filter fun m => !m.isInitializer && !m.isStatic).map (⟨·,d.name⟩)

def staticMethods (d : Descriptor) : List MethodEntry :=
  (d.methods.filter fun m => !m.isInitializer && m.isStatic).map (⟨·,d.name⟩)

def instanceProperties (d : Descriptor) : List PropertyEntry :=
  (d.properties.filter fun p => !p.isStatic).map (⟨·,d.name⟩)

def staticProperties (d : Descriptor) : List PropertyEntry :=
  (d.properties.filter (·.isStatic)).map (⟨·,d.name⟩)

def initializers (d : Descriptor) : List MethodEntry := (d.methods.filter (·.isInitializer)).map (⟨·,d.name⟩)

end Descriptor

namespace MemberTables

theorem addMethods (owner : String) (methods : List Method) (t : MemberTables) :
    methods.foldl (fun t m => t.addMethod ⟨m,owner⟩) t =
      { t with
        instanceMethods := ((methods.filter fun m => !m.isInitializer && !m.isStatic).map (⟨·,owner⟩)).foldl
          (fun t e => t.put (MethodEntry.name e) e) t.instanceMethods
        staticMethods := ((methods.filter fun m => !m.isInitializer && m.isStatic).map (⟨·,owner⟩)).foldl
          (fun t e => t.put (MethodEntry.name e) e) t.staticMethods
        initializers := t.initializers ++ (methods.filter (·.isInitializer)).map (⟨·,owner⟩) } := by
  induction methods generalizing t with
  | nil => simp
  | cons m rest ih =>
    rw [List.foldl_cons,ih]
    cases initializer : m.isInitializer <;> cases static : m.isStatic <;> simp [addMethod,initializer,static]

theorem addProperties (owner : String) (properties : List Property) (t : MemberTables) :
    properties.foldl (fun t p => t.addProperty ⟨p,owner⟩) t =
      { t with
        instanceProperties := ((properties.filter fun p => !p.isStatic).map (⟨·,owner⟩)).foldl
          (fun t e => t.put (PropertyEntry.property e).name e) t.instanceProperties
        staticProperties := ((properties.filter (·.isStatic)).map (⟨·,owner⟩)).foldl
          (fun t e => t.put (PropertyEntry.property e).name e) t.staticProperties } := by
  induction properties generalizing t with
  | nil => simp
  | cons p rest ih =>
    rw [List.foldl_cons,ih]
    cases static : p.isStatic <;> simp [addProperty,static]

theorem declare_eq (t : MemberTables) (d : Descriptor) : t.declare d =
    { instanceMethods := d.instanceMethods.foldl (fun t e => t.put e.name e) t.instanceMethods
      staticMethods := d.staticMethods.foldl (fun t e => t.put e.name e) t.staticMethods
      instanceProperties := d.instanceProperties.foldl (fun t e => t.put e.property.name e) t.instanceProperties
      staticProperties := d.staticProperties.foldl (fun t e => t.put e.property.name e) t.staticProperties
      initializers := t.initializers ++ d.initializers } := by
  rw [declare,addMethods,addProperties]
  rfl

theorem inherits_initializers (classes : List SynthesizedClass) (t : MemberTables) :
    (classes.foldl inherit t).initializers = t.initializers := by
  induction classes generalizing t with
  | nil => rfl
  | cons c rest ih => exact ih _

end MemberTables

-- A table of a class with what a descriptor puts into it, from first to last.
structure Shelf (α : Type) where
  table : SynthesizedClass → Table String α
  tables : MemberTables → Table String α
  own : Descriptor → List α
  name : α → String
  declaredIn : α → String
  assembled : ∀ id d native parent protocols, table (.assemble id d native parent protocols) =
    tables ((parent.toList.foldl MemberTables.inherit (protocols.foldl MemberTables.inherit .empty)).declare d)
  blank : tables .empty = .empty
  inherits : ∀ t c, tables (t.inherit c) = (table c).overlaying (tables t)
  declares : ∀ t d, tables (t.declare d) = (own d).foldl (fun t e => t.put (name e) e) (tables t)
  owner : ∀ d, ∀ e ∈ own d, declaredIn e = d.name

namespace Shelf

variable {α : Type} (s : Shelf α)

private theorem owned {β : Type} {items : List β} {entry : β → α} {declaredIn : α → String} {owner : String}
    (owns : ∀ b, declaredIn (entry b) = owner) : ∀ e ∈ items.map entry, declaredIn e = owner := by
  intro e member
  obtain ⟨b,_,rfl⟩ := List.mem_map.mp member
  exact owns b

def instanceMethods : Shelf MethodEntry where
  table := (·.instanceMethods)
  tables := (·.instanceMethods)
  own := (·.instanceMethods)
  name := (·.name)
  declaredIn := (·.declaredIn)
  assembled _ _ _ _ _ := rfl
  blank := rfl
  inherits _ _ := rfl
  declares t d := by rw [MemberTables.declare_eq]
  owner _ := owned fun _ => rfl

def staticMethods : Shelf MethodEntry where
  table := (·.staticMethods)
  tables := (·.staticMethods)
  own := (·.staticMethods)
  name := (·.name)
  declaredIn := (·.declaredIn)
  assembled _ _ _ _ _ := rfl
  blank := rfl
  inherits _ _ := rfl
  declares t d := by rw [MemberTables.declare_eq]
  owner _ := owned fun _ => rfl

def instanceProperties : Shelf PropertyEntry where
  table := (·.instanceProperties)
  tables := (·.instanceProperties)
  own := (·.instanceProperties)
  name := (·.property.name)
  declaredIn := (·.declaredIn)
  assembled _ _ _ _ _ := rfl
  blank := rfl
  inherits _ _ := rfl
  declares t d := by rw [MemberTables.declare_eq]
  owner _ := owned fun _ => rfl

def staticProperties : Shelf PropertyEntry where
  table := (·.staticProperties)
  tables := (·.staticProperties)
  own := (·.staticProperties)
  name := (·.property.name)
  declaredIn := (·.declaredIn)
  assembled _ _ _ _ _ := rfl
  blank := rfl
  inherits _ _ := rfl
  declares t d := by rw [MemberTables.declare_eq]
  owner _ := owned fun _ => rfl

-- The last of the descriptor's own, else the superclass's, else that of the last protocol that has one.
def inOrder (d : Descriptor) (parent : Option SynthesizedClass) (protocols : List SynthesizedClass) (name : String) :
    Option α :=
  ((s.own d).reverse.find? (s.name · = name)).or
    ((parent.bind fun k => (s.table k).get? name).or (protocols.reverse.findSome? fun k => (s.table k).get? name))

theorem inherits_sorted (classes : List SynthesizedClass) {t : MemberTables} (sorted : (s.tables t).Sorted) :
    (s.tables (classes.foldl MemberTables.inherit t)).Sorted := by
  induction classes generalizing t with
  | nil => exact sorted
  | cons c rest ih =>
    refine ih ?_
    rw [s.inherits]
    exact Table.overlaying_sorted _ sorted

theorem assembled_sorted (id : DescriptorId) (d : Descriptor) (native : Option ClassId) (parent : Option SynthesizedClass)
    (protocols : List SynthesizedClass) : (s.table (.assemble id d native parent protocols)).Sorted := by
  rw [s.assembled,s.declares]
  refine Table.puts_sorted s.name (fun e => e) _ (s.inherits_sorted _ (s.inherits_sorted _ ?_))
  rw [s.blank]
  exact Table.empty_sorted

theorem inherits_get? {classes : List SynthesizedClass} (sorted : ∀ k ∈ classes, (s.table k).Sorted) (t : MemberTables)
    (name : String) : (s.tables (classes.foldl MemberTables.inherit t)).get? name =
      (classes.reverse.findSome? fun k => (s.table k).get? name).or ((s.tables t).get? name) := by
  induction classes generalizing t with
  | nil => rfl
  | cons k rest ih =>
    rw [List.foldl_cons,ih (fun other member => sorted other (List.mem_cons_of_mem _ member)),s.inherits,
      Table.get?_overlaying (sorted k List.mem_cons_self),List.reverse_cons,List.findSome?_append,Option.or_assoc]
    cases found : (s.table k).get? name <;> simp only [List.findSome?,found]

theorem assembled_get? {parent : Option SynthesizedClass} {protocols : List SynthesizedClass}
    (superclass : ∀ k, parent = some k → (s.table k).Sorted) (conforms : ∀ k ∈ protocols, (s.table k).Sorted)
    (id : DescriptorId) (d : Descriptor) (native : Option ClassId) (name : String) :
    (s.table (.assemble id d native parent protocols)).get? name = s.inOrder d parent protocols name := by
  have single : (parent.toList.reverse.findSome? fun k => (s.table k).get? name) =
      parent.bind fun k => (s.table k).get? name := by
    cases parent with
    | none => rfl
    | some k => simp
  rw [s.assembled,s.declares,Table.get?_puts s.name (fun e => e),Option.map_id',
    s.inherits_get? fun k member => superclass k (Option.mem_toList.mp member),s.inherits_get? conforms,s.blank,
    inOrder,single,Table.get?_empty,Option.or_none]

theorem inOrder_origin {d : Descriptor} {parent : Option SynthesizedClass} {protocols : List SynthesizedClass}
    {name : String} {e : α} (found : s.inOrder d parent protocols name = some e) :
    (e ∈ s.own d ∧ s.name e = name) ∨ (∃ k, parent = some k ∧ (s.table k).get? name = some e) ∨
      ∃ k ∈ protocols, (s.table k).get? name = some e := by
  rcases Option.or_eq_some_iff.mp found with own | ⟨_,inherited⟩
  · exact .inl ⟨List.mem_reverse.mp (List.mem_of_find?_eq_some own),by simpa using List.find?_some own⟩
  rcases Option.or_eq_some_iff.mp inherited with above | ⟨_,conformed⟩
  · exact .inr (.inl (Option.bind_eq_some_iff.mp above))
  · obtain ⟨k,among,answer⟩ := List.exists_of_findSome?_eq_some conformed
    exact .inr (.inr ⟨k,List.mem_reverse.mp among,answer⟩)

open Synthesis

variable {m : Metadata} {asked : List (ClassTable × DescriptorId)} {id : DescriptorId} {c : SynthesizedClass}
  {d : Descriptor} {base : Option DescriptorId} {ids : List DescriptorId} {parent : Option SynthesizedClass}
  {protocols : List SynthesizedClass}

-- Declared by the descriptor itself or by one that it derives from, whose name the entry carries.
def DeclaredAbove (m : Metadata) (id : DescriptorId) (e : α) : Prop :=
  ∃ k d, Relation.ReflTransGen (Parent m) id k ∧ m.descriptor? k = some d ∧ e ∈ s.own d ∧ s.declaredIn e = d.name

theorem requested_sorted (held : (requested m asked).cached? id = some c) : (s.table c).Sorted := by
  obtain ⟨_,d,base,ids,parent,protocols,assembled⟩ := requested_assembled held
  rw [assembled.result]
  exact s.assembled_sorted ..

theorem resolves (assembled : Assembled m (requested m asked) id c d base ids parent protocols) (name : String) :
    (s.table c).get? name = s.inOrder d parent protocols name := by
  rw [assembled.result]
  refine s.assembled_get? ?_ ?_ id d c.native name
  · rintro k rfl
    cases assembled.superclass with
    | some held => exact s.requested_sorted held.1
  · intro k among
    obtain ⟨p,_,held⟩ := Outcome.related_left assembled.conforms among
    exact s.requested_sorted held.1

theorem requested_declared (held : (requested m asked).cached? id = some c) :
    ∀ name e, (s.table c).get? name = some e → s.name e = name ∧ s.DeclaredAbove m id e := by
  refine requested_induct (motive := fun id c => ∀ name e, (s.table c).get? name = some e →
    s.name e = name ∧ s.DeclaredAbove m id e) ?_ held
  intro id c d base ids parent protocols assembled superclass conforms name e found
  rw [s.resolves assembled] at found
  have derives := assembled.derives
  have step {p : DescriptorId} (edge : Parent m id p) : s.DeclaredAbove m p e → s.DeclaredAbove m id e := by
    rintro ⟨k,d',way,declared⟩
    exact ⟨k,d',.head edge way,declared⟩
  rcases s.inOrder_origin found with ⟨own,named⟩ | ⟨k,rfl,above⟩ | ⟨k,among,above⟩
  · exact ⟨named,id,d,.refl,derives.known,own,s.owner d e own⟩
  · cases assembled.superclass with
    | @some b _ held =>
      obtain ⟨named,declared⟩ := superclass b k rfl rfl held.1 name e above
      exact ⟨named,step ⟨d,some b,ids,derives,.inl rfl⟩ declared⟩
  · obtain ⟨p,member,_,declares⟩ := conforms k among
    obtain ⟨named,declared⟩ := declares name e above
    exact ⟨named,step ⟨d,base,ids,derives,.inr member⟩ declared⟩

end Shelf

namespace Synthesis

variable {m : Metadata} {asked : List (ClassTable × DescriptorId)} {natives : ClassTable} {id : DescriptorId}
  {memo : Memo} {c : SynthesizedClass} {d : Descriptor} {base : Option DescriptorId} {ids : List DescriptorId}
  {parent : Option SynthesizedClass} {protocols : List SynthesizedClass}

theorem assembled_initializers (assembled : Assembled m memo id c d base ids parent protocols) :
    c.initializers = d.initializers ++ (parent.map (·.initializers)).getD [] := by
  rw [assembled.result]
  simp only [SynthesizedClass.assemble,MemberTables.declare_eq,MemberTables.inherits_initializers,MemberTables.empty,
    List.nil_append]

-- Initializers come down from superclasses alone.
theorem requested_initializers (held : (requested m asked).cached? id = some c) : ∀ e ∈ c.initializers,
    ∃ k d, Relation.ReflTransGen (Superclass m) id k ∧ m.descriptor? k = some d ∧ e ∈ d.initializers ∧
      e.declaredIn = d.name := by
  refine requested_induct (motive := fun id c => ∀ e ∈ c.initializers, ∃ k d, Relation.ReflTransGen (Superclass m) id k ∧
    m.descriptor? k = some d ∧ e ∈ d.initializers ∧ e.declaredIn = d.name) ?_ held
  intro id c d base ids parent protocols assembled superclass _ e among
  rw [assembled_initializers assembled] at among
  rcases List.mem_append.mp among with own | inherited
  · obtain ⟨i,_,rfl⟩ := List.mem_map.mp own
    exact ⟨id,d,.refl,assembled.derives.known,own,rfl⟩
  · cases assembled.superclass with
    | none => cases inherited
    | @some b k held =>
      obtain ⟨above,d',way,declared⟩ := superclass b k rfl rfl held.1 e inherited
      exact ⟨above,d',.head ⟨d,ids,assembled.derives⟩ way,declared⟩

-- What a table of a class answers, and where it has it from.
structure Resolves {α : Type} (s : Shelf α) (m : Metadata) (id : DescriptorId) (c : SynthesizedClass) (d : Descriptor)
    (parent : Option SynthesizedClass) (protocols : List SynthesizedClass) : Prop where
  found : ∀ name, (s.table c).get? name = s.inOrder d parent protocols name
  named : ∀ name e, (s.table c).get? name = some e → s.name e = name
  declared : ∀ name e, (s.table c).get? name = some e → s.DeclaredAbove m id e

theorem resolves_declared {α : Type} (s : Shelf α) (held : (requested m asked).cached? id = some c)
    (assembled : Assembled m (requested m asked) id c d base ids parent protocols) :
    Resolves s m id c d parent protocols where
  found := s.resolves assembled
  named name e found := (s.requested_declared held name e found).1
  declared name e found := (s.requested_declared held name e found).2

-- However the file was used before, and whatever native classes came and went.
theorem members_resolve_in_order (answer : classOf ⟨m,natives⟩ id (requested m asked) = (.ok c,memo)) :
    ∃ d base ids parent protocols,
      Derives m id d base ids ∧
      Option.Rel (Held memo .interface) base parent ∧
      List.Forall₂ (Held memo .protocol) ids protocols ∧
      Resolves .instanceMethods m id c d parent protocols ∧
      Resolves .staticMethods m id c d parent protocols ∧
      Resolves .instanceProperties m id c d parent protocols ∧
      Resolves .staticProperties m id c d parent protocols ∧
      c.initializers = d.initializers ++ (parent.map (·.initializers)).getD [] ∧
      ∀ e ∈ c.initializers, ∃ k d, Relation.ReflTransGen (Superclass m) id k ∧ m.descriptor? k = some d ∧
        e ∈ d.initializers ∧ e.declaredIn = d.name := by
  obtain ⟨rfl,held⟩ := answer_requested answer
  obtain ⟨_,d,base,ids,parent,protocols,assembled⟩ := requested_assembled held
  refine ⟨d,base,ids,parent,protocols,assembled.derives,assembled.superclass,assembled.conforms,?_⟩
  refine ⟨resolves_declared _ held assembled,resolves_declared _ held assembled,resolves_declared _ held assembled,
    resolves_declared _ held assembled,assembled_initializers assembled,requested_initializers held⟩

-- At 92 the class Bird with the initializer hatch and the method call, at 116 its subclass Duck, at 140 the protocol
-- Swims with a method call of its own, to which Duck conforms.
def waterbirdsFile : Array UInt8 :=
  #[0x4d,0x42,0x4d,0x44,1,0,0,0,32,0,0,0,32,0,0,0,64,0,0,0,92,0,0,0,178,0,0,0,14,1,0,0,
    4,0,0x42,0x69,0x72,0x64,5,0,0x68,0x61,0x74,0x63,0x68,4,0,0x63,0x61,0x6c,0x6c,
    4,0,0x44,0x75,0x63,0x6b,5,0,0x53,0x77,0x69,0x6d,0x73,
    3,0,0,0,32,0,0,0,92,0,0,0,51,0,0,0,116,0,0,0,57,0,0,0,140,0,0,0,
    1,0,0,0,32,0,0,0,255,255,255,255,160,0,0,0,204,0,0,0,216,0,0,0, 1,0,0,0,51,0,0,0,92,0,0,0,220,0,0,0,228,0,0,0,232,0,0,0,
    2,0,0,0,57,0,0,0,236,0,0,0,2,1,0,0,10,1,0,0, 0,0,0,0,0,13,255,255,255,255,38,0,0,0,38,0,0,0,4,0,0,0,164,0,0,0,
    0,0,45,0,0,0,45,0,0,0,0,0,0,0,186,0,0,0,2,0,0,0,170,0,0,0,188,0,0,0, 0,0,0,0,1,0,0,0,140,0,0,0,0,0,0,0,0,0,0,0,
    0,0,0,0,0,0,45,0,0,0,45,0,0,0,0,0,0,0,240,0,0,0,1,0,0,0,242,0,0,0,0,0,0,0]

def waterbirds : Metadata := ⟨1,⟨waterbirdsFile,⟨32,64⟩,⟨64,92⟩,⟨92,270⟩⟩,⟨[(92,()),(116,()),(140,())]⟩⟩

set_option maxRecDepth 2000 in
theorem waterbirds_loaded : Metadata.ofBytes waterbirdsFile = .ok waterbirds := by cbv

set_option maxRecDepth 2000 in
theorem ducks_call_like_birds : Metadata.ofBytes waterbirdsFile = .ok waterbirds ∧
    ∃ c memo, classOf ⟨waterbirds,ClassTable.initial⟩ ⟨116⟩ (requested waterbirds []) = (.ok c,memo) ∧
      (c.instanceMethods.get? "call").map (·.declaredIn) = some "Bird" ∧ c.initializers.map (·.name) = ["hatch"] ∧
      ∃ d base ids parent protocols, Derives waterbirds ⟨116⟩ d base ids ∧
        Option.Rel (Held memo .interface) base parent ∧ List.Forall₂ (Held memo .protocol) ids protocols ∧
        Resolves .instanceMethods waterbirds ⟨116⟩ c d parent protocols := by
  have shown : (classOf ⟨waterbirds,ClassTable.initial⟩ ⟨116⟩ (requested waterbirds [])).1.toOption.map
      (fun c => ((c.instanceMethods.get? "call").map (·.declaredIn),c.initializers.map (·.name))) =
        some (some "Bird",["hatch"]) := by cbv
  rcases answer : classOf ⟨waterbirds,ClassTable.initial⟩ ⟨116⟩ (requested waterbirds []) with ⟨_ | c,memo⟩
  · rw [answer] at shown
    cases shown
  rw [answer] at shown
  obtain ⟨called,hatched⟩ := Prod.mk.inj (Option.some.inj shown)
  obtain ⟨d,base,ids,parent,protocols,derives,superclass,conforms,methods,_⟩ := members_resolve_in_order answer
  exact ⟨waterbirds_loaded,c,memo,rfl,called,hatched,d,base,ids,parent,protocols,derives,superclass,conforms,methods⟩

end Synthesis
end ObjectBridge
