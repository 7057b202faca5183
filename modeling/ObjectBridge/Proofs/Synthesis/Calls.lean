import ObjectBridge.Proofs.Synthesis.Consistency

namespace ObjectBridge.Synthesis

variable {source : Source} {visiting : List DescriptorId} {memo memo' : Memo} {id : DescriptorId}
  {d : Descriptor} {c : SynthesizedClass}

-- A call leaves a consistent memo. What it answers is held there, and its errors are of one kind.
structure Leaves (source : Source) (visiting : List DescriptorId) (memo : Memo) (out : Outcome α)
    (holds : Memo → α → Prop) : Prop where
  consistent : Consistent source visiting out.2
  grows : Extends memo out.2
  held : ∀ a, out.1 = .ok a → holds out.2 a
  fails : ∀ e, out.1 = .error e → ∃ name reason, e = .synthesis name reason

section Outcomes

variable {α : Type} {holds : Memo → α → Prop} {after : Memo}

theorem Leaves.answer {a : α} (consistent : Consistent source visiting after) (grows : Extends memo after)
    (held : holds after a) : Leaves source visiting memo (.ok a,after) holds where
  consistent := consistent
  grows := grows
  held := by rintro _ ⟨⟩; exact held
  fails := by rintro _ ⟨⟩

theorem Leaves.failure {e : BridgeError} (consistent : Consistent source visiting after) (grows : Extends memo after)
    (synthesis : ∃ name reason, e = .synthesis name reason) :
    Leaves source visiting memo ((.error e,after) : Outcome α) holds where
  consistent := consistent
  grows := grows
  held := by rintro _ ⟨⟩
  fails := by rintro _ ⟨⟩; exact synthesis

end Outcomes

theorem parentsOf_fails {e : BridgeError} (fails : parentsOf d = .error e) : ∃ name reason, e = .synthesis name reason := by
  cases d <;> cases fails <;> exact ⟨_,_,rfl⟩

theorem begin_extends (missing : memo.cached? id = none) : Extends memo (memo.begin id) :=
  fun _ _ held => (Memo.cached?_begin missing).trans held

theorem finish_extends (missing : memo.cached? id = none) : Extends memo (memo.finish id c) := by
  intro other k held
  rw [Memo.cached?_finish,if_neg]
  · exact held
  · rintro rfl
    cases missing.symm.trans held

theorem abandon_extends (missing : memo.cached? id = none) : Extends memo (memo.abandon id) :=
  fun _ _ held => (Memo.cached?_abandon missing).trans held

-- Every class that is begun is under construction for all calls below it, so that a fact about calls may
-- be taken for granted there.
@[elab_as_elim]
theorem visiting_induct {m : Metadata} {motive : List DescriptorId → Prop}
    (step : ∀ visiting, (∀ id d, id ∉ visiting → m.descriptor? id = some d → motive (visiting ++ [id])) → motive visiting)
    (visiting : List DescriptorId) : motive visiting := by
  induction left : m.untouched visiting using Nat.strongRecOn generalizing visiting with
  | _ n ih =>
    refine step visiting fun id d new known => ih _ ?_ _ rfl
    exact left ▸ untouched_lt m visiting id d known new

def CallsLeave (source : Source) (visiting : List DescriptorId) : Prop :=
  ∀ id memo, Consistent source visiting memo →
    Leaves source visiting memo (synthesize source visiting id memo) fun memo c => memo.cached? id = some c

theorem superclass_leaves (calls : CallsLeave source visiting) (owner : String) (base : Option DescriptorId)
    (consistent : Consistent source visiting memo) :
    Leaves source visiting memo (buildSuperclass source visiting owner base memo) fun memo parent =>
      Option.Rel (Held memo .interface) base parent := by
  cases base with
  | none =>
    rw [buildSuperclass]
    exact .answer consistent (.refl _) .none
  | some id =>
    have left := calls id memo consistent
    rcases out : synthesize source visiting id memo with ⟨_ | c,after⟩ <;> rw [out] at left <;>
      simp only [buildSuperclass,out]
    · exact .failure left.consistent left.grows (left.fails _ rfl)
    · split
      · rename_i kind
        exact .answer left.consistent left.grows (.some ⟨left.held c rfl,kind⟩)
      · exact .failure left.consistent left.grows ⟨_,_,rfl⟩

theorem protocols_leave (calls : CallsLeave source visiting) (owner : String) (ids : List DescriptorId)
    (consistent : Consistent source visiting memo) :
    Leaves source visiting memo (buildProtocols source visiting owner ids memo) fun memo cs =>
      List.Forall₂ (Held memo .protocol) ids cs := by
  induction ids generalizing memo with
  | nil =>
    rw [buildProtocols]
    exact .answer consistent (.refl _) .nil
  | cons id rest ih =>
    have left := calls id memo consistent
    rcases one : synthesize source visiting id memo with ⟨_ | c,between⟩ <;> rw [one] at left <;>
      simp only [buildProtocols,one]
    · exact .failure left.consistent left.grows (left.fails _ rfl)
    · split
      · rename_i kind
        have left' := ih left.consistent
        rcases others : buildProtocols source visiting owner rest between with ⟨_ | cs,after⟩ <;> rw [others] at left'
        · exact .failure left'.consistent (left.grows.trans left'.grows) (left'.fails _ rfl)
        · refine .answer left'.consistent (left.grows.trans left'.grows) (.cons ⟨?_,kind⟩ (left'.held cs rfl))
          exact left'.grows id c (left.held c rfl)
      · exact .failure left.consistent left.grows ⟨_,_,rfl⟩

theorem build_leaves (calls : CallsLeave source visiting) (id : DescriptorId) (d : Descriptor)
    (consistent : Consistent source visiting memo) :
    Leaves source visiting memo (build source visiting id d memo) fun memo c => Made source memo id d c := by
  rcases parents : parentsOf d with _ | ⟨base,ids⟩
  · rw [build_classless parents]
    exact .failure consistent (.refl _) (parentsOf_fails parents)
  · have left := superclass_leaves calls d.name base consistent
    rcases superclass : buildSuperclass source visiting d.name base memo with ⟨_ | parent,between⟩ <;>
      rw [superclass] at left <;> simp only [build_parents parents,superclass]
    · exact .failure left.consistent left.grows (left.fails _ rfl)
    · have left' := protocols_leave calls d.name ids left.consistent
      rcases protocols : buildProtocols source visiting d.name ids between with ⟨_ | cs,after⟩ <;> rw [protocols] at left'
      · exact .failure left'.consistent (left.grows.trans left'.grows) (left'.fails _ rfl)
      · refine .answer left'.consistent (left.grows.trans left'.grows) ⟨base,ids,parent,cs,parents,?_,left'.held cs rfl,rfl⟩
        cases left.held parent rfl with
        | none => exact .none
        | some held => exact .some ⟨left'.grows _ _ held.1,held.2⟩

theorem calls_leave (source : Source) (visiting : List DescriptorId) : CallsLeave source visiting := by
  refine visiting_induct (m := source.metadata) ?_ visiting
  intro visiting below id memo consistent
  by_cases busy : id ∈ visiting
  · rw [synthesize_busy busy]
    exact .failure consistent (.refl _) ⟨_,_,rfl⟩
  cases cached : memo.cached? id with
  | some c =>
    rw [synthesize_cached busy cached]
    exact .answer consistent (.refl _) cached
  | none =>
    have begun := consistent.begin busy cached
    cases known : source.metadata.descriptor? id with
    | none =>
      rw [synthesize_unknown busy cached known]
      refine .failure (begun.abandon busy) ?_ ⟨_,_,rfl⟩
      exact (begin_extends cached).trans (abandon_extends begun.under_construction.2)
    | some d =>
      have left := build_leaves (below id d busy known) id d begun
      rw [synthesize_known busy cached known]
      rcases built : build source (visiting ++ [id]) id d (memo.begin id) with ⟨_ | c,after⟩ <;> rw [built] at left
      · refine .failure (left.consistent.abandon busy) ?_ (left.fails _ rfl)
        exact ((begin_extends cached).trans left.grows).trans (abandon_extends left.consistent.under_construction.2)
      · refine .answer (left.consistent.finish busy known (left.held c rfl)) ?_ ?_
        · exact ((begin_extends cached).trans left.grows).trans (finish_extends left.consistent.under_construction.2)
        · rw [Memo.cached?_finish,if_pos rfl]

theorem Consistent.answer_kind {kind : DescriptorKind} (consistent : Consistent source visiting memo)
    (held : memo.cached? id = some c) (ofKind : OfKind source.metadata kind id) : c.kind = kind := by
  obtain ⟨d,known,made⟩ := consistent.made id c held
  obtain ⟨d',known',is⟩ := ofKind
  obtain rfl := Option.some.inj (known.symm.trans known')
  exact made.kind.trans is

-- What is under construction needs the descriptor.
def LeadsTo (m : Metadata) (visiting : List DescriptorId) (id : DescriptorId) : Prop :=
  ∀ v ∈ visiting, Relation.TransGen (Parent m) v id

theorem LeadsTo.below {m : Metadata} {p : DescriptorId} (leads : LeadsTo m visiting id) (parent : Parent m id p) :
    LeadsTo m (visiting ++ [id]) p := by
  intro v member
  rcases List.mem_append.mp member with before | last
  · exact (leads v before).tail parent
  · rw [List.mem_singleton.mp last]
    exact .single parent

theorem LeadsTo.new {m : Metadata} (leads : LeadsTo m visiting id) (grounded : Grounded m id) : id ∉ visiting :=
  fun busy => grounded.acyclic (leads id busy)

def Succeeds (source : Source) (visiting : List DescriptorId) (id : DescriptorId) : Prop :=
  ∀ memo, Consistent source visiting memo → ∃ c, (synthesize source visiting id memo).1 = .ok c

theorem superclass_succeeds (owner : String) {base : Option DescriptorId}
    (superclass : ∀ b, base = some b → OfKind source.metadata .interface b ∧ Succeeds source visiting b)
    (consistent : Consistent source visiting memo) :
    ∃ parent, (buildSuperclass source visiting owner base memo).1 = .ok parent := by
  cases base with
  | none => exact ⟨none,by rw [buildSuperclass]⟩
  | some id =>
    obtain ⟨isClass,succeeds⟩ := superclass id rfl
    obtain ⟨c,answer⟩ := succeeds memo consistent
    have left := calls_leave source visiting id memo consistent
    have kind := left.consistent.answer_kind (left.held c answer) isClass
    rcases out : synthesize source visiting id memo with ⟨_,after⟩
    rw [out] at answer
    obtain rfl := answer
    exact ⟨some c,by simp only [buildSuperclass,out,if_pos kind]⟩

theorem protocols_succeed (owner : String) {ids : List DescriptorId}
    (conforms : ∀ p ∈ ids, OfKind source.metadata .protocol p ∧ Succeeds source visiting p)
    (consistent : Consistent source visiting memo) :
    ∃ cs, (buildProtocols source visiting owner ids memo).1 = .ok cs := by
  induction ids generalizing memo with
  | nil => exact ⟨[],by rw [buildProtocols]⟩
  | cons id rest ih =>
    obtain ⟨isProtocol,succeeds⟩ := conforms id List.mem_cons_self
    obtain ⟨c,answer⟩ := succeeds memo consistent
    have left := calls_leave source visiting id memo consistent
    have kind := left.consistent.answer_kind (left.held c answer) isProtocol
    obtain ⟨cs,answers⟩ := ih (fun p member => conforms p (List.mem_cons_of_mem _ member)) left.consistent
    rcases one : synthesize source visiting id memo with ⟨_,between⟩
    rw [one] at answer answers
    obtain rfl := answer
    rcases others : buildProtocols source visiting owner rest between with ⟨_,after⟩
    rw [others] at answers
    obtain rfl := answers
    exact ⟨c :: cs,by simp only [buildProtocols,one,if_pos kind,others]⟩

theorem Grounded.succeeds (grounded : Grounded source.metadata id) :
    ∀ visiting, LeadsTo source.metadata visiting id → Succeeds source visiting id := by
  refine Grounded.induct ?_ grounded
  intro id d base ids derives superclass conforms visiting leads memo consistent
  have itself := derives.grounded (fun b is => ⟨(superclass b is).1,(superclass b is).2.1⟩)
    fun p member => ⟨(conforms p member).1,(conforms p member).2.1⟩
  have new := leads.new itself
  cases cached : memo.cached? id with
  | some c => exact ⟨c,by rw [synthesize_cached new cached]⟩
  | none =>
    have begun := consistent.begin new cached
    have parent : ∀ p, base = some p ∨ p ∈ ids → LeadsTo source.metadata (visiting ++ [id]) p :=
      fun p among => leads.below ⟨d,base,ids,derives,among⟩
    obtain ⟨parent?,answer⟩ := superclass_succeeds d.name
      (fun b is => ⟨(superclass b is).1,(superclass b is).2.2 _ (parent b (.inl is))⟩) begun
    have left := superclass_leaves (calls_leave source _) d.name base begun
    obtain ⟨cs,answers⟩ := protocols_succeed d.name
      (fun p member => ⟨(conforms p member).1,(conforms p member).2.2 _ (parent p (.inr member))⟩) left.consistent
    rcases first : buildSuperclass source (visiting ++ [id]) d.name base (memo.begin id) with ⟨_,between⟩
    rw [first] at answer answers
    obtain rfl := answer
    rcases second : buildProtocols source (visiting ++ [id]) d.name ids between with ⟨_,after⟩
    rw [second] at answers
    obtain rfl := answers
    refine ⟨.assemble id d (nativeOf source d) parent? cs,?_⟩
    rw [synthesize_known new cached derives.known,closed_result,build_parents derives.parents]
    simp only [first,second]

theorem succeeds_iff (consistent : Consistent source visiting memo) (leads : LeadsTo source.metadata visiting id) :
    (∃ c, (synthesize source visiting id memo).1 = .ok c) ↔ Grounded source.metadata id := by
  constructor
  · rintro ⟨c,answer⟩
    have left := calls_leave source visiting id memo consistent
    exact left.consistent.grounded id c (left.held c answer)
  · intro grounded
    exact grounded.succeeds visiting leads memo consistent

theorem held_unique {memo' : Memo} {kind : DescriptorKind} {ids : List DescriptorId} {cs cs' : List SynthesizedClass}
    (same : ∀ p ∈ ids, ∀ c c', memo.cached? p = some c → memo'.cached? p = some c' → c = c')
    (held : List.Forall₂ (Held memo kind) ids cs) (held' : List.Forall₂ (Held memo' kind) ids cs') : cs = cs' := by
  induction held generalizing cs' with
  | nil =>
    cases held'
    rfl
  | cons one _ ih =>
    cases held' with
    | cons one' others' =>
      rw [same _ List.mem_cons_self _ _ one.1 one'.1,
        ih (fun p member => same p (List.mem_cons_of_mem _ member)) others']

-- Two memos that hold a class for one descriptor hold the same.
theorem Grounded.one_class {visiting' : List DescriptorId} (consistent : Consistent source visiting memo)
    (consistent' : Consistent source visiting' memo') (grounded : Grounded source.metadata id) :
    ∀ c c', memo.cached? id = some c → memo'.cached? id = some c' → c = c' := by
  refine Grounded.induct ?_ grounded
  intro id d base ids derives superclass conforms c c' held held'
  obtain ⟨d₁,known,base₁,ids₁,parent,cs,parents,fromClass,fromProtocols,rfl⟩ := consistent.made id c held
  obtain ⟨d₂,known',base₂,ids₂,parent',cs',parents',fromClass',fromProtocols',rfl⟩ := consistent'.made id c' held'
  obtain ⟨rfl,rfl,rfl⟩ := derives.unique ⟨known,parents⟩
  obtain ⟨rfl,rfl,rfl⟩ := derives.unique ⟨known',parents'⟩
  have protocols : cs = cs' := held_unique (fun p member => (conforms p member).2.2) fromProtocols fromProtocols'
  have superclasses : parent = parent' := by
    cases fromClass with
    | none => cases fromClass'; rfl
    | some one =>
      cases fromClass' with
      | some other => rw [(superclass _ rfl).2.2 _ _ one.1 other.1]
  rw [protocols,superclasses]

def CallsAgree (source : Source) (visiting : List DescriptorId) : Prop :=
  ∀ id memo memo', LeadsTo source.metadata visiting id → Consistent source visiting memo →
    Consistent source visiting memo' → (synthesize source visiting id memo).1 = (synthesize source visiting id memo').1

section Agreement

variable (calls : CallsAgree source visiting) (owner : String) (consistent : Consistent source visiting memo)
  (consistent' : Consistent source visiting memo')
include calls consistent consistent'

theorem superclass_agrees {base : Option DescriptorId}
    (leads : ∀ b, base = some b → LeadsTo source.metadata visiting b) :
    (buildSuperclass source visiting owner base memo).1 = (buildSuperclass source visiting owner base memo').1 := by
  cases base with
  | none => rw [buildSuperclass,buildSuperclass]
  | some id =>
    have same := calls id memo memo' (leads id rfl) consistent consistent'
    rcases out : synthesize source visiting id memo with ⟨answer,after⟩
    rcases out' : synthesize source visiting id memo' with ⟨answer',after'⟩
    rw [out,out'] at same
    obtain rfl : answer = answer' := same
    cases answer with
    | error e => simp only [buildSuperclass,out,out']
    | ok c =>
      simp only [buildSuperclass,out,out']
      split <;> rfl

theorem protocols_agree {ids : List DescriptorId} (leads : ∀ p ∈ ids, LeadsTo source.metadata visiting p) :
    (buildProtocols source visiting owner ids memo).1 = (buildProtocols source visiting owner ids memo').1 := by
  induction ids generalizing memo memo' with
  | nil => rw [buildProtocols,buildProtocols]
  | cons id rest ih =>
    have same := calls id memo memo' (leads id List.mem_cons_self) consistent consistent'
    have next := (calls_leave source visiting id memo consistent).consistent
    have next' := (calls_leave source visiting id memo' consistent').consistent
    have tail := ih next next' fun p member => leads p (List.mem_cons_of_mem _ member)
    rcases one : synthesize source visiting id memo with ⟨answer,between⟩
    rcases one' : synthesize source visiting id memo' with ⟨answer',between'⟩
    rw [one,one'] at same tail
    obtain rfl : answer = answer' := same
    cases answer with
    | error e => simp only [buildProtocols,one,one']
    | ok c =>
      rcases others : buildProtocols source visiting owner rest between with ⟨answers,after⟩
      rcases others' : buildProtocols source visiting owner rest between' with ⟨answers',after'⟩
      rw [others,others'] at tail
      obtain rfl : answers = answers' := tail
      simp only [buildProtocols,one,one']
      split
      · simp only [others,others']
        cases answers <;> rfl
      · rfl

theorem build_agrees (leads : ∀ p, Parent source.metadata id p → LeadsTo source.metadata visiting p)
    (known : source.metadata.descriptor? id = some d) :
    (build source visiting id d memo).1 = (build source visiting id d memo').1 := by
  rcases parents : parentsOf d with e | ⟨base,ids⟩
  · rw [build_classless parents,build_classless parents]
  · have parent : ∀ p, base = some p ∨ p ∈ ids → LeadsTo source.metadata visiting p :=
      fun p among => leads p ⟨d,base,ids,⟨known,parents⟩,among⟩
    have same := superclass_agrees calls d.name consistent consistent' fun b is => parent b (.inl is)
    have next := (superclass_leaves (calls_leave source visiting) d.name base consistent).consistent
    have next' := (superclass_leaves (calls_leave source visiting) d.name base consistent').consistent
    have tail := protocols_agree calls d.name next next' fun p member => parent p (.inr member)
    rcases first : buildSuperclass source visiting d.name base memo with ⟨answer,between⟩
    rcases first' : buildSuperclass source visiting d.name base memo' with ⟨answer',between'⟩
    rw [first,first'] at same tail
    obtain rfl : answer = answer' := same
    cases answer with
    | error e => simp only [build_parents parents,first,first']
    | ok c =>
      rcases second : buildProtocols source visiting d.name ids between with ⟨answers,after⟩
      rcases second' : buildProtocols source visiting d.name ids between' with ⟨answers',after'⟩
      rw [second,second'] at tail
      obtain rfl : answers = answers' := tail
      simp only [build_parents parents,first,first',second,second']
      cases answers <;> rfl

end Agreement

theorem calls_agree (source : Source) (visiting : List DescriptorId) : CallsAgree source visiting := by
  refine visiting_induct (m := source.metadata) ?_ visiting
  intro visiting below id memo memo' leads consistent consistent'
  by_cases grounded : Grounded source.metadata id
  · obtain ⟨c,answer⟩ := grounded.succeeds visiting leads memo consistent
    obtain ⟨c',answer'⟩ := grounded.succeeds visiting leads memo' consistent'
    have left := calls_leave source visiting id memo consistent
    have left' := calls_leave source visiting id memo' consistent'
    rw [answer,answer',
      grounded.one_class left.consistent left'.consistent c c' (left.held c answer) (left'.held c' answer')]
  -- No memo holds a class for it, so that both calls build.
  by_cases busy : id ∈ visiting
  · rw [synthesize_busy busy,synthesize_busy busy]
  have missing : memo.cached? id = none :=
    Option.eq_none_iff_forall_not_mem.mpr fun c held => grounded (consistent.grounded id c held)
  have missing' : memo'.cached? id = none :=
    Option.eq_none_iff_forall_not_mem.mpr fun c held => grounded (consistent'.grounded id c held)
  cases known : source.metadata.descriptor? id with
  | none => rw [synthesize_unknown busy missing known,synthesize_unknown busy missing' known]
  | some d =>
    rw [synthesize_known busy missing known,synthesize_known busy missing' known,closed_result,closed_result]
    exact build_agrees (below id d busy known) (consistent.begin busy missing) (consistent'.begin busy missing')
      (fun p parent => leads.below parent) known

end ObjectBridge.Synthesis
