import ObjectBridge.Proofs.Synthesis.Histories

namespace ObjectBridge

def SynthesizedClass.bare (c : SynthesizedClass) : SynthesizedClass := { c with native := none }

def Slot.bare : Slot → Slot
  | .building => .building
  | .done c => .done c.bare

theorem SynthesizedClass.bare_inj {c k : SynthesizedClass} (same : c.bare = k.bare) (native : c.native = k.native) :
    c = k := by
  cases c
  cases k
  simp only [bare,SynthesizedClass.mk.injEq,true_and] at same native ⊢
  simp only [same,native,true_and]

theorem SynthesizedClass.assemble_bare (id : DescriptorId) (d : Descriptor) (native : Option ClassId)
    (parent : Option SynthesizedClass) (protocols : List SynthesizedClass) :
    (SynthesizedClass.assemble id d native parent protocols).bare =
      .assemble id d none (parent.map bare) (protocols.map bare) := by
  have tables : (protocols.map bare).foldl MemberTables.inherit .empty = protocols.foldl MemberTables.inherit .empty := by
    rw [List.foldl_map]
    rfl
  have ids : (protocols.map bare).map (·.id) = protocols.map (·.id) := by
    rw [List.map_map]
    rfl
  have conformed : (protocols.map bare).flatMap (fun p => p.id :: p.conformances) =
      protocols.flatMap fun p => p.id :: p.conformances := by
    rw [List.flatMap_map]
    rfl
  unfold assemble
  rw [tables,ids,conformed]
  cases parent <;> rfl

namespace Synthesis

variable {m : Metadata} {natives : ClassTable} {visiting : List DescriptorId} {memo plain : Memo} {id : DescriptorId}
  {d : Descriptor} {c : SynthesizedClass}

-- The same places are taken, by the same classes but for their native ones.
def Alike (memo plain : Memo) : Prop := ∀ id, plain.place id = (memo.place id).map Slot.bare

theorem Alike.cached (alike : Alike memo plain) (id : DescriptorId) :
    plain.cached? id = (memo.cached? id).map SynthesizedClass.bare := by
  have place := alike id
  unfold Memo.place at place
  rw [Memo.cached?,Memo.cached?,place]
  rcases memo.slots.get? id.offset with _ | _ | c <;> rfl

theorem Alike.begin (alike : Alike memo plain) (id : DescriptorId) : Alike (memo.begin id) (plain.begin id) := by
  intro other
  rw [Memo.place_begin,Memo.place_begin,alike other]
  split <;> rfl

theorem Alike.finish (alike : Alike memo plain) (id : DescriptorId) (c : SynthesizedClass) :
    Alike (memo.finish id c) (plain.finish id c.bare) := by
  intro other
  rw [Memo.place_finish,Memo.place_finish,alike other]
  split <;> rfl

theorem Alike.abandon (alike : Alike memo plain) (id : DescriptorId) : Alike (memo.abandon id) (plain.abandon id) := by
  intro other
  rw [Memo.place_abandon,Memo.place_abandon,alike other]
  split <;> rfl

-- The call without native classes comes to the same but for the native classes.
structure Echoes (f : α → α) (out plain : Outcome α) : Prop where
  result : plain.1 = out.1.map f
  memo : Alike out.2 plain.2

theorem Echoes.split {f : α → α} {out plain : Outcome α} (echoes : Echoes f out plain) :
    ∃ answer after after', out = (answer,after) ∧ plain = (answer.map f,after') ∧ Alike after after' :=
  ⟨out.1,out.2,plain.2,rfl,Prod.ext echoes.result rfl,echoes.memo⟩

def CallsEcho (m : Metadata) (natives : ClassTable) (visiting : List DescriptorId) : Prop :=
  ∀ id memo plain, Alike memo plain → Echoes SynthesizedClass.bare
    (synthesize ⟨m,natives⟩ visiting id memo) (synthesize ⟨m,⟨[]⟩⟩ visiting id plain)

theorem nativeOf_none (m : Metadata) (d : Descriptor) : nativeOf ⟨m,⟨[]⟩⟩ d = none := by
  cases d <;> rfl

section Building

variable (calls : CallsEcho m natives visiting) (owner : String) (alike : Alike memo plain)
include calls alike

theorem superclass_echoes (base : Option DescriptorId) : Echoes (Option.map SynthesizedClass.bare)
    (buildSuperclass ⟨m,natives⟩ visiting owner base memo) (buildSuperclass ⟨m,⟨[]⟩⟩ visiting owner base plain) := by
  cases base with
  | none =>
    rw [buildSuperclass,buildSuperclass]
    exact ⟨rfl,alike⟩
  | some id =>
    obtain ⟨answer,after,after',out,out',left⟩ := (calls id memo plain alike).split
    cases answer with
    | error e =>
      simp only [buildSuperclass,out,out',Except.map]
      exact ⟨rfl,left⟩
    | ok c =>
      simp only [buildSuperclass,out,out',Except.map]
      by_cases kind : c.kind = .interface
      · have kind' : c.bare.kind = .interface := kind
        rw [if_pos kind,if_pos kind']
        exact ⟨rfl,left⟩
      · have kind' : c.bare.kind ≠ .interface := kind
        rw [if_neg kind,if_neg kind']
        exact ⟨rfl,left⟩

theorem protocols_echo (ids : List DescriptorId) : Echoes (List.map SynthesizedClass.bare)
    (buildProtocols ⟨m,natives⟩ visiting owner ids memo) (buildProtocols ⟨m,⟨[]⟩⟩ visiting owner ids plain) := by
  induction ids generalizing memo plain with
  | nil =>
    rw [buildProtocols,buildProtocols]
    exact ⟨rfl,alike⟩
  | cons id rest ih =>
    obtain ⟨answer,between,between',one,one',left⟩ := (calls id memo plain alike).split
    cases answer with
    | error e =>
      simp only [buildProtocols,one,one',Except.map]
      exact ⟨rfl,left⟩
    | ok c =>
      simp only [buildProtocols,one,one',Except.map]
      by_cases kind : c.kind = .protocol
      · have kind' : c.bare.kind = .protocol := kind
        rw [if_pos kind,if_pos kind']
        obtain ⟨answers,after,after',others,others',lasts⟩ := (ih left).split
        rw [others,others']
        cases answers <;> exact ⟨rfl,lasts⟩
      · have kind' : c.bare.kind ≠ .protocol := kind
        rw [if_neg kind,if_neg kind']
        exact ⟨rfl,left⟩

theorem build_echoes (id : DescriptorId) (d : Descriptor) : Echoes SynthesizedClass.bare
    (build ⟨m,natives⟩ visiting id d memo) (build ⟨m,⟨[]⟩⟩ visiting id d plain) := by
  rcases parents : parentsOf d with e | ⟨base,ids⟩
  · rw [build_classless parents,build_classless parents]
    exact ⟨rfl,alike⟩
  · obtain ⟨answer,between,between',first,first',left⟩ := (superclass_echoes calls d.name alike base).split
    cases answer with
    | error e =>
      simp only [build_parents parents,first,first',Except.map]
      exact ⟨rfl,left⟩
    | ok parent =>
      obtain ⟨answers,after,after',second,second',lasts⟩ := (protocols_echo calls d.name left ids).split
      cases answers with
      | error e =>
        simp only [build_parents parents,first,first',second,second',Except.map]
        exact ⟨rfl,lasts⟩
      | ok protocols =>
        simp only [build_parents parents,first,first',second,second',Except.map]
        refine ⟨?_,lasts⟩
        rw [nativeOf_none,Except.map,SynthesizedClass.assemble_bare]

end Building

theorem closed_echoes {out out' : Outcome SynthesizedClass} (echoes : Echoes SynthesizedClass.bare out out')
    (id : DescriptorId) : Echoes SynthesizedClass.bare (closed id out) (closed id out') := by
  obtain ⟨answer,after,after',rfl,rfl,left⟩ := echoes.split
  cases answer with
  | error e => exact ⟨rfl,left.abandon id⟩
  | ok c => exact ⟨rfl,left.finish id c⟩

theorem calls_echo (m : Metadata) (natives : ClassTable) (visiting : List DescriptorId) :
    CallsEcho m natives visiting := by
  refine visiting_induct (m := m) ?_ visiting
  intro visiting below id memo plain alike
  by_cases busy : id ∈ visiting
  · rw [synthesize_busy busy,synthesize_busy busy]
    exact ⟨rfl,alike⟩
  have cached' := alike.cached id
  cases cached : memo.cached? id with
  | some c =>
    rw [cached] at cached'
    rw [synthesize_cached busy cached,synthesize_cached busy cached']
    exact ⟨rfl,alike⟩
  | none =>
    rw [cached] at cached'
    cases known : m.descriptor? id with
    | none =>
      rw [synthesize_unknown busy cached known,synthesize_unknown busy cached' known]
      exact ⟨rfl,(alike.begin id).abandon id⟩
    | some d =>
      rw [synthesize_known busy cached known,synthesize_known busy cached' known]
      exact closed_echoes (build_echoes (below id d busy known) (alike.begin id) id d) id

-- The memo once each of the classes was asked for, with the native program as it was at the time.
def requested (m : Metadata) (asked : List (ClassTable × DescriptorId)) : Memo :=
  asked.foldl (fun memo r => (classOf ⟨m,r.1⟩ r.2 memo).2) .empty

theorem requested_next (m : Metadata) (asked : List (ClassTable × DescriptorId)) (natives : ClassTable)
    (id : DescriptorId) :
    requested m (asked ++ [(natives,id)]) = (classOf ⟨m,natives⟩ id (requested m asked)).2 := by
  rw [requested,List.foldl_append]
  rfl

theorem requested_alike (m : Metadata) (asked : List (ClassTable × DescriptorId)) :
    Alike (requested m asked) (after ⟨m,⟨[]⟩⟩ (asked.map (·.2))) := by
  induction asked using List.reverseRecOn with
  | nil => exact fun _ => rfl
  | append_singleton asked r ih =>
    rw [requested_next,List.map_append,List.map_singleton,after_next]
    exact (calls_echo m r.1 [] r.2 _ _ ih).memo

-- The class was assembled from the classes that the memo holds for what its descriptor derives from.
structure Assembled (m : Metadata) (memo : Memo) (id : DescriptorId) (c : SynthesizedClass) (d : Descriptor)
    (base : Option DescriptorId) (ids : List DescriptorId) (parent : Option SynthesizedClass)
    (protocols : List SynthesizedClass) : Prop where
  derives : Derives m id d base ids
  superclass : Option.Rel (Held memo .interface) base parent
  conforms : List.Forall₂ (Held memo .protocol) ids protocols
  result : c = .assemble id d c.native parent protocols

theorem Alike.held {kind : DescriptorKind} (alike : Alike memo plain) {k : SynthesizedClass}
    (held : Held plain kind id k) : ∃ c, k = c.bare ∧ Held memo kind id c := by
  have found := (alike.cached id).symm.trans held.1
  obtain ⟨c,cached,rfl⟩ := Option.map_eq_some_iff.mp found
  exact ⟨c,rfl,cached,held.2⟩

theorem Alike.held_all {kind : DescriptorKind} {ids : List DescriptorId} {ks : List SynthesizedClass}
    (alike : Alike memo plain) (held : List.Forall₂ (Held plain kind) ids ks) : ∃ cs : List SynthesizedClass,
      ks = cs.map SynthesizedClass.bare ∧ List.Forall₂ (Held memo kind) ids cs := by
  induction held with
  | nil => exact ⟨[],rfl,.nil⟩
  | cons one _ ih =>
    obtain ⟨c,rfl,first⟩ := alike.held one
    obtain ⟨cs,rfl,others⟩ := ih
    exact ⟨c :: cs,rfl,.cons first others⟩

theorem requested_assembled {asked : List (ClassTable × DescriptorId)} (held : (requested m asked).cached? id = some c) :
    Grounded m id ∧ ∃ d base ids parent protocols, Assembled m (requested m asked) id c d base ids parent protocols := by
  have alike := requested_alike m asked
  have consistent := after_consistent ⟨m,⟨[]⟩⟩ (asked.map (·.2))
  have bare := alike.cached id
  rw [held,Option.map_some] at bare
  refine ⟨consistent.grounded id _ bare,?_⟩
  obtain ⟨d,known,base,ids,parent,protocols,parents,superclass,conforms,made⟩ := consistent.made id _ bare
  obtain ⟨cs,rfl,protocols⟩ := alike.held_all conforms
  rw [nativeOf_none] at made
  have parent : ∃ k : Option SynthesizedClass, parent = k.map SynthesizedClass.bare ∧
      Option.Rel (Held (requested m asked) .interface) base k := by
    cases superclass with
    | none => exact ⟨none,rfl,.none⟩
    | some one =>
      obtain ⟨k,rfl,first⟩ := alike.held one
      exact ⟨some k,rfl,.some first⟩
  obtain ⟨k,rfl,inherited⟩ := parent
  refine ⟨d,base,ids,k,cs,⟨known,parents⟩,inherited,protocols,?_⟩
  refine SynthesizedClass.bare_inj (made.trans ?_) rfl
  rw [SynthesizedClass.assemble_bare]

-- Induction over the classes that are there, with what they were assembled from.
theorem requested_induct {asked : List (ClassTable × DescriptorId)} {motive : DescriptorId → SynthesizedClass → Prop}
    (step : ∀ id c d base ids parent protocols, Assembled m (requested m asked) id c d base ids parent protocols →
      (∀ b k, base = some b → parent = some k → (requested m asked).cached? b = some k → motive b k) →
      (∀ k ∈ protocols, ∃ p ∈ ids, (requested m asked).cached? p = some k ∧ motive p k) → motive id c)
    (held : (requested m asked).cached? id = some c) : motive id c := by
  have grounded := (requested_assembled held).1
  revert c
  refine Grounded.induct (motive := fun id => ∀ {c}, (requested m asked).cached? id = some c → motive id c) ?_ grounded
  intro id d base ids derives superclass conforms c held
  obtain ⟨_,d',base',ids',parent,protocols,assembled⟩ := requested_assembled held
  obtain ⟨rfl,rfl,rfl⟩ := derives.unique assembled.derives
  refine step id c d base ids parent protocols assembled ?_ ?_
  · rintro b k rfl rfl cached
    exact (superclass b rfl).2.2 cached
  · intro k among
    obtain ⟨p,member,one⟩ := Outcome.related_left assembled.conforms among
    exact ⟨p,member,one.1,(conforms p member).2.2 one.1⟩

-- What a request answers is there afterwards.
theorem synthesize_held {source : Source} {after : Memo} (answer : synthesize source visiting id memo = (.ok c,after)) :
    after.cached? id = some c := by
  by_cases busy : id ∈ visiting
  · rw [synthesize_busy busy] at answer
    cases answer
  cases cached : memo.cached? id with
  | some k =>
    rw [synthesize_cached busy cached] at answer
    cases answer
    exact cached
  | none =>
    cases known : source.metadata.descriptor? id with
    | none =>
      rw [synthesize_unknown busy cached known] at answer
      cases answer
    | some d =>
      rw [synthesize_known busy cached known] at answer
      rcases out : build source (visiting ++ [id]) id d (memo.begin id) with ⟨_ | k,built⟩ <;> rw [out] at answer
      · cases answer
      · cases answer
        rw [Memo.cached?_finish,if_pos rfl]

theorem answer_requested {asked : List (ClassTable × DescriptorId)}
    (answer : classOf ⟨m,natives⟩ id (requested m asked) = (.ok c,memo)) :
    memo = requested m (asked ++ [(natives,id)]) ∧ memo.cached? id = some c := by
  have next := requested_next m asked natives id
  rw [answer] at next
  exact ⟨next.symm,synthesize_held answer⟩

end Synthesis
end ObjectBridge
