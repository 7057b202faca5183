import Mathlib.Data.List.Induction
import ObjectBridge.Proofs.Synthesis.Requests

namespace ObjectBridge.Synthesis

-- The memo once each of the classes was asked for.
def after (source : Source) (asked : List DescriptorId) : Memo :=
  asked.foldl (fun memo id => (classOf source id memo).2) .empty

-- The call is one of those that the later requests come to, at whatever depth.
def Arises (source : Source) (earlier asked : List DescriptorId) (r : Request) : Prop :=
  ∃ before id behind, asked = before ++ id :: behind ∧
    Relation.ReflTransGen (Asks source) ⟨[],id,after source (earlier ++ before)⟩ r

-- The class was assembled from the classes that the memo holds for its superclass and its protocols.
def Linked (source : Source) (memo : Memo) (id : DescriptorId) (c : SynthesizedClass) : Prop :=
  ∃ d base ids parent protocols, Derives source.metadata id d base ids ∧ c.superclass = base ∧ c.protocols = ids ∧
    base.map memo.cached? = parent.map some ∧ ids.map memo.cached? = protocols.map some ∧
    c = .assemble id d (nativeOf source d) parent protocols

variable {source : Source} {visiting earlier asked : List DescriptorId} {memo : Memo} {id : DescriptorId}
  {c : SynthesizedClass} {r : Request}

theorem after_next (source : Source) (asked : List DescriptorId) (id : DescriptorId) :
    after source (asked ++ [id]) = (classOf source id (after source asked)).2 := by
  rw [after,List.foldl_append]
  rfl

theorem after_consistent (source : Source) (asked : List DescriptorId) : Consistent source [] (after source asked) := by
  induction asked using List.reverseRecOn with
  | nil => exact empty_consistent source
  | append_singleton asked id ih =>
    rw [after_next]
    exact (calls_leave source [] id _ ih).consistent

theorem after_extends (source : Source) (asked later : List DescriptorId) :
    Extends (after source asked) (after source (asked ++ later)) := by
  induction later using List.reverseRecOn with
  | nil =>
    rw [List.append_nil]
    exact .refl _
  | append_singleton later id ih =>
    rw [← List.append_assoc,after_next]
    exact ih.trans (calls_leave source [] id _ (after_consistent source _)).grows

theorem opening_sound (source : Source) (asked : List DescriptorId) (id : DescriptorId) :
    Sound source ⟨[],id,after source asked⟩ where
  consistent := after_consistent source asked
  leads _ member := nomatch member

theorem arises_sound (arises : Arises source earlier asked r) : Sound source r := by
  obtain ⟨before,id,behind,_,calls⟩ := arises
  exact calls_sound calls (opening_sound source _ id)

theorem Arises.further (arises : Arises source earlier asked r) (id : DescriptorId) :
    Arises source earlier (asked ++ [id]) r := by
  obtain ⟨before,first,behind,rfl,calls⟩ := arises
  exact ⟨before,first,behind ++ [id],by simp,calls⟩

theorem Arises.last (calls : Relation.ReflTransGen (Asks source) ⟨[],id,after source (earlier ++ asked)⟩ r) :
    Arises source earlier (asked ++ [id]) r :=
  ⟨asked,id,[],rfl,calls⟩

-- What a call leaves in the memo stays there for good.
theorem Arises.kept (arises : Arises source earlier asked r) : Extends (r.run source).2 (after source (earlier ++ asked)) := by
  obtain ⟨before,id,behind,rfl,calls⟩ := arises
  have once : Extends (r.run source).2 (after source (earlier ++ before ++ [id])) := by
    rw [after_next]
    exact calls_extend calls (opening_sound source _ id)
  refine once.trans ?_
  rw [show earlier ++ (before ++ id :: behind) = earlier ++ before ++ [id] ++ behind by simp]
  exact after_extends source _ behind

-- Every call finds what was there before.
theorem Arises.found (arises : Arises source earlier asked r) : Extends (after source earlier) r.memo := by
  obtain ⟨before,id,behind,_,calls⟩ := arises
  exact (after_extends source earlier before).trans (calls_grow calls (opening_sound source _ id))

theorem synthesized_built (synthesized : ∃ c, (after source asked).cached? id = some c) :
    ∃ r, Arises source [] asked r ∧ r.id = id ∧ r.Builds source := by
  induction asked using List.reverseRecOn with
  | nil =>
    obtain ⟨c,held⟩ := synthesized
    cases held
  | append_singleton asked last ih =>
    obtain ⟨c,held⟩ := synthesized
    rw [after_next] at held
    rcases calls_account (opening_sound source asked last) id c held with before | ⟨r,calls,same,builds⟩
    · obtain ⟨r,arises,same,builds⟩ := ih ⟨c,before⟩
      exact ⟨r,arises.further last,same,builds⟩
    · exact ⟨r,.last calls,same,builds⟩

theorem Consistent.unresolved (consistent : Consistent source visiting memo) (new : id ∉ visiting)
    (groundless : ¬Grounded source.metadata id) : memo.state id = .unresolved := by
  rw [Memo.unresolved_eq]
  cases taken : memo.place id with
  | none => rfl
  | some slot =>
    cases slot with
    | building => exact absurd ((consistent.building id).mp taken) new
    | done c => exact absurd (consistent.grounded id c (Memo.cached?_eq.mpr taken)) groundless

theorem Consistent.held_id (consistent : Consistent source visiting memo) (held : memo.cached? id = some c) : c.id = id := by
  obtain ⟨_,_,_,_,_,_,_,_,_,rfl⟩ := consistent.made id c held
  rfl

theorem Consistent.held_parents {kind : DescriptorKind} {ids : List DescriptorId} {cs : List SynthesizedClass}
    (consistent : Consistent source visiting memo) (held : List.Forall₂ (Held memo kind) ids cs) :
    cs.map (·.id) = ids ∧ ids.map memo.cached? = cs.map some := by
  induction held with
  | nil => exact ⟨rfl,rfl⟩
  | cons one _ ih =>
    rw [List.map_cons,List.map_cons,List.map_cons,ih.1,ih.2,one.1,consistent.held_id one.1]
    exact ⟨rfl,rfl⟩

theorem Consistent.linked (consistent : Consistent source visiting memo) (held : memo.cached? id = some c) :
    Linked source memo id c := by
  obtain ⟨d,known,base,ids,parent,protocols,parents,superclass,conforms,rfl⟩ := consistent.made id c held
  obtain ⟨named,found⟩ := consistent.held_parents conforms
  refine ⟨d,base,ids,parent,protocols,⟨known,parents⟩,?_,named,?_,found,rfl⟩
  · cases superclass with
    | none => rfl
    | some one => exact congrArg some (consistent.held_id one.1)
  · cases superclass with
    | none => rfl
    | some one => exact congrArg some one.1

theorem succeeds_exactly_on_grounded (source : Source) (earlier : List DescriptorId) (id : DescriptorId) :
    ((∃ c, (classOf source id (after source earlier)).1 = .ok c) ↔ Grounded source.metadata id) ∧
    (¬Grounded source.metadata id →
      ∃ name reason, (classOf source id (after source earlier)).1 = .error (.synthesis name reason)) ∧
    (∀ r, Arises source earlier [id] r → r.memo.state r.id = .synthesizing →
      r.run source = (.error (cycle source.metadata r.visiting r.id),r.memo)) ∧
    (classOf source id (after source earlier)).1 = (classOf source id .empty).1 := by
  have opening := opening_sound source earlier id
  have answers := succeeds_iff opening.consistent opening.leads
  refine ⟨answers,fun groundless => ?_,fun r arises building => ?_,?_⟩
  · cases answer : (classOf source id (after source earlier)).1 with
    | ok c => exact absurd (answers.mp ⟨c,answer⟩) groundless
    | error e =>
      obtain ⟨name,reason,rfl⟩ := opening.leaves.fails e answer
      exact ⟨name,reason,rfl⟩
  · have busy := ((arises_sound arises).consistent.building r.id).mp (Memo.state_eq.mp building)
    exact synthesize_busy busy
  · exact calls_agree source [] id _ _ opening.leads opening.consistent (empty_consistent source)

theorem memo_records_what_was_built (source : Source) (asked : List DescriptorId) :
    (∀ id, (after source asked).state id ≠ .synthesizing) ∧
    (∀ id, (after source asked).state id = .synthesized ↔ ∃ r, Arises source [] asked r ∧ r.id = id ∧ r.Builds source) ∧
    (∀ id c, (after source asked).cached? id = some c →
      Linked source (after source asked) id c ∧
      ∀ later, classOf source id (after source (asked ++ later)) = (.ok c,after source (asked ++ later)) ∧
        ∀ r, Arises source asked later r → r.id = id → ¬r.Opens) ∧
    (∀ r, Arises source [] asked r → r.Fails source →
      (r.run source).2.state r.id = .unresolved ∧ (after source asked).state r.id = .unresolved) ∧
    ∃ ids : List DescriptorId, ids.Nodup ∧ (∀ id, id ∈ ids ↔ (after source asked).state id = .synthesized) ∧
      (after source asked).built = ids.length := by
  have consistent := after_consistent source asked
  refine ⟨fun id building => ?_,fun id => ?_,fun id c held => ⟨consistent.linked held,fun later => ⟨?_,?_⟩⟩,?_,?_⟩
  · exact nomatch (consistent.building id).mp (Memo.state_eq.mp building)
  · rw [Memo.synthesized_eq]
    refine ⟨synthesized_built,?_⟩
    rintro ⟨r,arises,rfl,_,c,answer⟩
    exact ⟨c,arises.kept r.id c ((arises_sound arises).leaves.held c answer)⟩
  · exact synthesize_cached (fun member => nomatch member) (after_extends source asked later id c held)
  · rintro r arises rfl opens
    cases opens.2.symm.trans (arises.found r.id c held)
  · intro r arises fails
    have sound := arises_sound arises
    have groundless := sound.groundless fails
    exact ⟨sound.leaves.consistent.unresolved fails.1.1 groundless,consistent.unresolved (fun member => nomatch member) groundless⟩
  · obtain ⟨ids,distinct,listed,count⟩ := Memo.finished_listed consistent.sorted
    exact ⟨ids,distinct,listed,consistent.counted.trans count.symm⟩

end ObjectBridge.Synthesis
