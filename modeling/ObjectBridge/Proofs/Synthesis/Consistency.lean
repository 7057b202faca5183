import Mathlib.Data.Nat.Basic
import ObjectBridge.Proofs.Outcome
import ObjectBridge.Proofs.Synthesis.Hierarchy
import ObjectBridge.Proofs.Table

namespace ObjectBridge

def Slot.isDone : Slot → Bool
  | .building => false
  | .done _ => true

namespace Memo

variable {memo : Memo} {id other : DescriptorId} {c k : SynthesizedClass}

def place (memo : Memo) (id : DescriptorId) : Option Slot := memo.slots.get? id.offset

theorem offset_inj : id.offset = other.offset ↔ id = other :=
  ⟨fun same => by cases id; cases other; exact congrArg DescriptorId.mk same,congrArg _⟩

theorem place_begin : (memo.begin id).place other = if other = id then some .building else memo.place other := by
  rw [place,begin,Table.get?_put]
  exact if_congr offset_inj rfl rfl

theorem place_finish : (memo.finish id c).place other = if other = id then some (.done c) else memo.place other := by
  rw [place,finish,Table.get?_put]
  exact if_congr offset_inj rfl rfl

theorem place_abandon : (memo.abandon id).place other = if other = id then none else memo.place other := by
  rw [place,abandon,Table.get?_erase]
  exact if_congr offset_inj rfl rfl

theorem cached?_eq : memo.cached? id = some c ↔ memo.place id = some (.done c) := by
  rw [cached?,place]
  split
  · rename_i found
    rw [found]
    simp
  · rename_i other
    constructor
    · intro nothing
      cases nothing
    · intro found
      exact absurd found (other c)

theorem state_eq : memo.state id = .synthesizing ↔ memo.place id = some .building := by
  rw [state,place]
  split <;> simp_all

theorem synthesized_eq : memo.state id = .synthesized ↔ ∃ c, memo.cached? id = some c := by
  rw [state,cached?]
  split <;> simp_all

theorem unresolved_eq : memo.state id = .unresolved ↔ memo.place id = none := by
  rw [state,place]
  split <;> simp_all

-- Whatever the memo holds for another descriptor, it held before.
theorem cached?_begin (absent : memo.cached? id = none) : (memo.begin id).cached? other = memo.cached? other := by
  refine Option.ext fun k => ?_
  rw [cached?_eq,cached?_eq,place_begin]
  split
  · rename_i same
    subst same
    exact ⟨nofun,fun found => by rw [cached?_eq.mpr found] at absent; cases absent⟩
  · rfl

theorem cached?_finish : (memo.finish id c).cached? other = if other = id then some c else memo.cached? other := by
  refine Option.ext fun k => ?_
  rw [cached?_eq,place_finish]
  split
  · simp
  · exact cached?_eq.symm

theorem cached?_abandon (absent : memo.cached? id = none) :
    (memo.abandon id).cached? other = memo.cached? other := by
  refine Option.ext fun k => ?_
  rw [cached?_eq,cached?_eq,place_abandon]
  split
  · rename_i same
    subst same
    exact ⟨nofun,fun found => by rw [cached?_eq.mpr found] at absent; cases absent⟩
  · rfl

-- How many classes are done.
def finished (memo : Memo) : Nat := memo.slots.entries.countP fun e => Slot.isDone e.2

theorem finished_put (slot : Slot) (sorted : memo.slots.Sorted) (place : memo.place id = some .building ∨ memo.place id = none) :
    (memo.slots.put id.offset slot).entries.countP (fun e => Slot.isDone e.2) =
      (if slot.isDone then 1 else 0) + memo.finished := by
  have split := (Table.perm_put id.offset slot sorted).countP_eq fun e => Slot.isDone e.2
  rw [List.countP_cons] at split
  have rest : (memo.slots.erase id.offset).entries.countP (fun e => Slot.isDone e.2) = memo.finished := by
    rcases place with taken | free
    · have old := (Table.perm_of_get? sorted taken).countP_eq fun e => Slot.isDone e.2
      rw [List.countP_cons_of_neg (by simp [Slot.isDone])] at old
      exact old.symm
    · rw [Table.erase_of_get?_none free]
      rfl
  rw [split,rest,Nat.add_comm]

theorem finished_abandon (sorted : memo.slots.Sorted) (taken : memo.place id = some .building) :
    (memo.abandon id).finished = memo.finished := by
  have old := (Table.perm_of_get? sorted taken).countP_eq fun e => Slot.isDone e.2
  rw [List.countP_cons_of_neg (by simp [Slot.isDone])] at old
  exact old.symm

-- Each of them belongs to another descriptor.
theorem finished_listed (sorted : memo.slots.Sorted) : ∃ ids : List DescriptorId, ids.Nodup ∧
    (∀ id, id ∈ ids ↔ memo.state id = .synthesized) ∧ ids.length = memo.finished := by
  refine ⟨(memo.slots.entries.filter fun e => Slot.isDone e.2).map fun e => ⟨e.1⟩,?_,?_,?_⟩
  · refine List.Pairwise.map _ ?_ (List.Pairwise.filter _ sorted)
    intro first second less same
    exact Nat.ne_of_lt less (congrArg DescriptorId.offset same)
  · intro id
    rw [synthesized_eq,List.mem_map]
    constructor
    · rintro ⟨⟨offset,slot⟩,member,rfl⟩
      obtain ⟨among,done⟩ := List.mem_filter.mp member
      cases slot with
      | building => cases done
      | done c => exact ⟨c,cached?_eq.mpr (Table.get?_of_mem sorted among)⟩
    · rintro ⟨c,cached⟩
      exact ⟨(id.offset,.done c),List.mem_filter.mpr ⟨Table.mem_of_get? (cached?_eq.mp cached),rfl⟩,rfl⟩
  · rw [List.length_map,← List.countP_eq_length_filter]
    rfl

end Memo

namespace Synthesis

variable {source : Source} {visiting : List DescriptorId} {memo memo' : Memo} {id : DescriptorId}
  {d : Descriptor} {c : SynthesizedClass}

def Held (memo : Memo) (kind : DescriptorKind) (id : DescriptorId) (c : SynthesizedClass) : Prop :=
  memo.cached? id = some c ∧ c.kind = kind

-- The class was assembled from classes that the memo holds.
def Made (source : Source) (memo : Memo) (id : DescriptorId) (d : Descriptor) (c : SynthesizedClass) : Prop :=
  ∃ base ids parent protocols, parentsOf d = .ok (base,ids) ∧
    Option.Rel (Held memo .interface) base parent ∧ List.Forall₂ (Held memo .protocol) ids protocols ∧
    c = .assemble id d (nativeOf source d) parent protocols

structure Consistent (source : Source) (visiting : List DescriptorId) (memo : Memo) : Prop where
  building : ∀ id, memo.place id = some .building ↔ id ∈ visiting
  made : ∀ id c, memo.cached? id = some c → ∃ d, source.metadata.descriptor? id = some d ∧ Made source memo id d c
  grounded : ∀ id c, memo.cached? id = some c → Grounded source.metadata id
  sorted : memo.slots.Sorted
  counted : memo.built = memo.finished

def Extends (before after : Memo) : Prop := ∀ id c, before.cached? id = some c → after.cached? id = some c

theorem Extends.refl (memo : Memo) : Extends memo memo := fun _ _ held => held

theorem Extends.trans {between : Memo} (first : Extends memo between) (second : Extends between memo') :
    Extends memo memo' := fun id c held => second id c (first id c held)

theorem Made.extend (made : Made source memo id d c) (extends_ : Extends memo memo') : Made source memo' id d c := by
  obtain ⟨base,ids,parent,protocols,parents,superclass,conforms,rfl⟩ := made
  refine ⟨base,ids,parent,protocols,parents,?_,?_,rfl⟩
  · cases superclass with
    | none => exact .none
    | some held => exact .some ⟨extends_ _ _ held.1,held.2⟩
  · exact conforms.imp fun _ _ held => ⟨extends_ _ _ held.1,held.2⟩

theorem Made.kind (made : Made source memo id d c) : c.kind = d.kind := by
  obtain ⟨_,_,_,_,_,_,_,rfl⟩ := made
  rfl

theorem Consistent.held_kind {kind : DescriptorKind} (consistent : Consistent source visiting memo)
    (held : Held memo kind id c) : OfKind source.metadata kind id ∧ Grounded source.metadata id := by
  obtain ⟨d,known,made⟩ := consistent.made id c held.1
  exact ⟨⟨d,known,made.kind.symm.trans held.2⟩,consistent.grounded id c held.1⟩

theorem Made.grounded (consistent : Consistent source visiting memo)
    (known : source.metadata.descriptor? id = some d) (made : Made source memo id d c) : Grounded source.metadata id := by
  obtain ⟨base,ids,parent,protocols,parents,superclass,conforms,_⟩ := made
  refine Derives.grounded ⟨known,parents⟩ ?_ ?_
  · rintro b rfl
    cases superclass with
    | some held => exact consistent.held_kind held
  · intro p member
    obtain ⟨k,_,held⟩ := Outcome.related_right conforms member
    exact consistent.held_kind held

theorem empty_consistent (source : Source) : Consistent source [] .empty where
  building _ := ⟨nofun,nofun⟩
  made _ _ held := nomatch held
  grounded _ _ held := nomatch held
  sorted := Table.empty_sorted
  counted := rfl

theorem Consistent.begin (consistent : Consistent source visiting memo) (new : id ∉ visiting)
    (missing : memo.cached? id = none) : Consistent source (visiting ++ [id]) (memo.begin id) := by
  have free : memo.place id = none := by
    cases taken : memo.place id with
    | none => rfl
    | some slot =>
      cases slot with
      | building => exact absurd ((consistent.building id).mp taken) new
      | done c => rw [Memo.cached?_eq.mpr taken] at missing; cases missing
  refine ⟨fun other => ?_,fun other c held => ?_,fun other c held => ?_,?_,?_⟩
  · rw [Memo.place_begin,List.mem_append,List.mem_singleton,← consistent.building]
    split
    · rename_i same
      exact ⟨fun _ => .inr same,fun _ => rfl⟩
    · rename_i different
      exact ⟨.inl,fun either => either.resolve_right different⟩
  · rw [Memo.cached?_begin missing] at held
    obtain ⟨d,known,made⟩ := consistent.made other c held
    exact ⟨d,known,made.extend fun x k was => (Memo.cached?_begin missing).trans was⟩
  · rw [Memo.cached?_begin missing] at held
    exact consistent.grounded other c held
  · exact Table.put_sorted _ _ _ consistent.sorted
  · have count := Memo.finished_put .building consistent.sorted (.inr free)
    rw [if_neg (by simp [Slot.isDone]),Nat.zero_add] at count
    exact consistent.counted.trans count.symm

section Closing

variable (consistent : Consistent source (visiting ++ [id]) memo) (new : id ∉ visiting)
include consistent

theorem Consistent.under_construction : memo.place id = some .building ∧ memo.cached? id = none := by
  have taken := (consistent.building id).mpr (List.mem_append_right _ List.mem_cons_self)
  refine ⟨taken,?_⟩
  cases held : memo.cached? id with
  | none => rfl
  | some c => cases (Memo.cached?_eq.mp held).symm.trans taken

include new

theorem Consistent.finish (known : source.metadata.descriptor? id = some d) (made : Made source memo id d c) :
    Consistent source visiting (memo.finish id c) := by
  obtain ⟨taken,missing⟩ := consistent.under_construction
  have grows : Extends memo (memo.finish id c) := by
    intro other k held
    rw [Memo.cached?_finish,if_neg]
    · exact held
    · rintro rfl
      rw [missing] at held
      cases held
  refine ⟨fun other => ?_,fun other k held => ?_,fun other k held => ?_,?_,?_⟩
  · have before := consistent.building other
    rw [List.mem_append,List.mem_singleton] at before
    rw [Memo.place_finish]
    split
    · rename_i same
      exact ⟨nofun,fun under => absurd (same ▸ under) new⟩
    · rename_i different
      exact before.trans ⟨fun either => either.resolve_right different,.inl⟩
  · rw [Memo.cached?_finish] at held
    split at held
    · rename_i same
      cases held
      exact ⟨d,same ▸ known,same ▸ made.extend grows⟩
    · obtain ⟨d',known',made'⟩ := consistent.made other k held
      exact ⟨d',known',made'.extend grows⟩
  · rw [Memo.cached?_finish] at held
    split at held
    · rename_i same
      exact same ▸ made.grounded consistent known
    · exact consistent.grounded other k held
  · exact Table.put_sorted _ _ _ consistent.sorted
  · have count := Memo.finished_put (.done c) consistent.sorted (.inl taken)
    rw [if_pos (by rfl),Nat.add_comm,← consistent.counted] at count
    exact count.symm

theorem Consistent.abandon : Consistent source visiting (memo.abandon id) := by
  obtain ⟨taken,missing⟩ := consistent.under_construction
  refine ⟨fun other => ?_,fun other k held => ?_,fun other k held => ?_,?_,?_⟩
  · have before := consistent.building other
    rw [List.mem_append,List.mem_singleton] at before
    rw [Memo.place_abandon]
    split
    · rename_i same
      exact ⟨nofun,fun under => absurd (same ▸ under) new⟩
    · rename_i different
      exact before.trans ⟨fun either => either.resolve_right different,.inl⟩
  · rw [Memo.cached?_abandon missing] at held
    obtain ⟨d,known,made⟩ := consistent.made other k held
    exact ⟨d,known,made.extend fun x k was => (Memo.cached?_abandon missing).trans was⟩
  · rw [Memo.cached?_abandon missing] at held
    exact consistent.grounded other k held
  · exact Table.erase_sorted _ _ consistent.sorted
  · exact consistent.counted.trans (Memo.finished_abandon consistent.sorted taken).symm

end Closing

-- A class under construction is finished or given up.
def closed (id : DescriptorId) : Outcome SynthesizedClass → Outcome SynthesizedClass
  | (.ok c, memo) => (.ok c, memo.finish id c)
  | (.error e, memo) => (.error e, memo.abandon id)

theorem closed_result (id : DescriptorId) (out : Outcome SynthesizedClass) : (closed id out).1 = out.1 := by
  obtain ⟨_ | _,_⟩ := out <;> rfl

theorem synthesize_busy (busy : id ∈ visiting) :
    synthesize source visiting id memo = (.error (cycle source.metadata visiting id),memo) := by
  rw [synthesize,dif_pos busy]

theorem synthesize_cached (new : id ∉ visiting) (cached : memo.cached? id = some c) :
    synthesize source visiting id memo = (.ok c,memo) := by
  rw [synthesize,dif_neg new,cached]

theorem synthesize_unknown (new : id ∉ visiting) (missing : memo.cached? id = none)
    (unknown : source.metadata.descriptor? id = none) : synthesize source visiting id memo =
      (.error (.synthesis id.text "no descriptor at this offset"),(memo.begin id).abandon id) := by
  rw [synthesize,dif_neg new,missing]
  dsimp only
  split
  · rfl
  · rename_i known
    cases unknown.symm.trans known

theorem synthesize_known (new : id ∉ visiting) (missing : memo.cached? id = none)
    (known : source.metadata.descriptor? id = some d) : synthesize source visiting id memo =
      closed id (build source (visiting ++ [id]) id d (memo.begin id)) := by
  rw [synthesize,dif_neg new,missing]
  dsimp only
  split
  · rename_i unknown
    cases unknown.symm.trans known
  · rename_i known'
    obtain rfl := Option.some.inj (known.symm.trans known')
    obtain ⟨_ | _,_⟩ := build source (visiting ++ [id]) id d (memo.begin id) <;> rfl

theorem build_classless {e : BridgeError} (fails : parentsOf d = .error e) :
    build source visiting id d memo = (.error e,memo) := by
  rw [build]
  split
  · rename_i fails'
    cases fails.symm.trans fails'
    rfl
  · rename_i parents
    cases fails.symm.trans parents

theorem build_parents {base : Option DescriptorId} {ids : List DescriptorId} (parents : parentsOf d = .ok (base,ids)) :
    build source visiting id d memo = match buildSuperclass source visiting d.name base memo with
      | (.error e, memo) => (.error e,memo)
      | (.ok parent, memo) =>
        match buildProtocols source visiting d.name ids memo with
        | (.error e, memo) => (.error e,memo)
        | (.ok protocols, memo) => (.ok (.assemble id d (nativeOf source d) parent protocols),memo) := by
  rw [build]
  split
  · rename_i fails
    cases parents.symm.trans fails
  · rename_i parents'
    cases parents.symm.trans parents'
    rfl

end Synthesis
end ObjectBridge
