import Mathlib.Logic.Relation
import ObjectBridge.Synthesis.Memo

namespace ObjectBridge.Synthesis

def OfKind (m : Metadata) (kind : DescriptorKind) (id : DescriptorId) : Prop :=
  ∃ d, m.descriptor? id = some d ∧ d.kind = kind

inductive Grounded (m : Metadata) : DescriptorId → Prop where
  | interface {id : DescriptorId} {name : String} {base : Option DescriptorId} {members : Members}
      (known : m.descriptor? id = some (.interface name base members))
      (isClass : ∀ b, base = some b → OfKind m .interface b)
      (isProtocol : ∀ p ∈ members.protocols, OfKind m .protocol p)
      (superclass : ∀ b, base = some b → Grounded m b)
      (protocols : ∀ p ∈ members.protocols, Grounded m p) : Grounded m id
  | protocol {id : DescriptorId} {name : String} {members : Members}
      (known : m.descriptor? id = some (.protocol name members))
      (isProtocol : ∀ p ∈ members.protocols, OfKind m .protocol p)
      (protocols : ∀ p ∈ members.protocols, Grounded m p) : Grounded m id

-- What a descriptor derives from directly.
structure Derives (m : Metadata) (id : DescriptorId) (d : Descriptor) (base : Option DescriptorId)
    (protocols : List DescriptorId) : Prop where
  known : m.descriptor? id = some d
  parents : parentsOf d = .ok (base,protocols)

def Parent (m : Metadata) (id parent : DescriptorId) : Prop :=
  ∃ d base protocols, Derives m id d base protocols ∧ (base = some parent ∨ parent ∈ protocols)

def Superclass (m : Metadata) (id base : DescriptorId) : Prop :=
  ∃ d protocols, Derives m id d (some base) protocols

variable {m : Metadata} {id : DescriptorId} {d : Descriptor} {base : Option DescriptorId}
  {protocols : List DescriptorId}

theorem Derives.grounded (derives : Derives m id d base protocols)
    (superclass : ∀ b, base = some b → OfKind m .interface b ∧ Grounded m b)
    (conforms : ∀ p ∈ protocols, OfKind m .protocol p ∧ Grounded m p) : Grounded m id := by
  obtain ⟨known,parents⟩ := derives
  cases d with
  | interface name base members =>
    cases parents
    exact .interface known (fun b is => (superclass b is).1) (fun p member => (conforms p member).1)
      (fun b is => (superclass b is).2) (fun p member => (conforms p member).2)
  | protocol name members =>
    cases parents
    exact .protocol known (fun p member => (conforms p member).1) (fun p member => (conforms p member).2)
  | struct | function => cases parents

-- Induction over a hierarchy without regard to the kind of the descriptor.
@[elab_as_elim]
theorem Grounded.induct {motive : DescriptorId → Prop}
    (step : ∀ id d base protocols, Derives m id d base protocols →
      (∀ b, base = some b → OfKind m .interface b ∧ Grounded m b ∧ motive b) →
      (∀ p ∈ protocols, OfKind m .protocol p ∧ Grounded m p ∧ motive p) → motive id)
    (grounded : Grounded m id) : motive id := by
  induction grounded with
  | interface known isClass isProtocol superclass protocols inSuperclass inProtocols =>
    refine step _ _ _ _ ⟨known,rfl⟩ ?_ ?_
    · exact fun b is => ⟨isClass b is,superclass b is,inSuperclass b is⟩
    · exact fun p member => ⟨isProtocol p member,protocols p member,inProtocols p member⟩
  | protocol known isProtocol protocols inProtocols =>
    refine step _ _ _ _ ⟨known,rfl⟩ (fun b is => nomatch is) ?_
    exact fun p member => ⟨isProtocol p member,protocols p member,inProtocols p member⟩

theorem Derives.unique {d' : Descriptor} {base' : Option DescriptorId} {protocols' : List DescriptorId}
    (one : Derives m id d base protocols) (other : Derives m id d' base' protocols') :
    d = d' ∧ base = base' ∧ protocols = protocols' := by
  obtain rfl := Option.some.inj (one.known.symm.trans other.known)
  cases one.parents.symm.trans other.parents
  exact ⟨rfl,rfl,rfl⟩

theorem Superclass.edge {base : DescriptorId} (superclass : Superclass m id base) : Parent m id base := by
  obtain ⟨d,protocols,derives⟩ := superclass
  exact ⟨d,some base,protocols,derives,.inl rfl⟩

theorem Grounded.above {p : DescriptorId} (grounded : Grounded m id) (edge : Parent m id p) : Grounded m p := by
  revert p
  refine Grounded.induct (motive := fun id => ∀ {p}, Parent m id p → Grounded m p) ?_ grounded
  rintro id d base protocols derives superclass conforms p ⟨d',base',protocols',derives',among⟩
  obtain ⟨rfl,rfl,rfl⟩ := derives.unique derives'
  rcases among with is | member
  · exact (superclass p is).2.1
  · exact (conforms p member).2.1

theorem Grounded.acyclic (grounded : Grounded m id) : ¬Relation.TransGen (Parent m) id id := by
  refine Grounded.induct ?_ grounded
  intro id d base protocols derives superclass conforms cyclic
  obtain ⟨parent,edge,back⟩ := Relation.TransGen.head'_iff.mp cyclic
  have around : Relation.TransGen (Parent m) parent parent := .tail' back edge
  obtain ⟨d',base',protocols',derives',among⟩ := edge
  obtain ⟨rfl,rfl,rfl⟩ := derives.unique derives'
  rcases among with is | member
  · exact (superclass parent is).2.2 around
  · exact (conforms parent member).2.2 around

end ObjectBridge.Synthesis
