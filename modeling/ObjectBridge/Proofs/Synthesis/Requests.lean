import ObjectBridge.Proofs.Synthesis.Calls

namespace ObjectBridge.Synthesis

structure Request where
  visiting : List DescriptorId
  id : DescriptorId
  memo : Memo

namespace Request

def run (source : Source) (r : Request) : Outcome SynthesizedClass := synthesize source r.visiting r.id r.memo

-- The call goes on to build the class: it is not under construction and the memo does not hold it.
def Opens (r : Request) : Prop := r.id ∉ r.visiting ∧ r.memo.cached? r.id = none

def Builds (source : Source) (r : Request) : Prop := r.Opens ∧ ∃ c, (r.run source).1 = .ok c

def Fails (source : Source) (r : Request) : Prop := r.Opens ∧ ∃ e, (r.run source).1 = .error e

end Request

-- A call makes another one.
inductive Asks (source : Source) (r : Request) : Request → Prop where
  | superclass {d : Descriptor} {b : DescriptorId} {ids : List DescriptorId}
      (opens : r.Opens) (derives : Derives source.metadata r.id d (some b) ids) :
      Asks source r ⟨r.visiting ++ [r.id],b,r.memo.begin r.id⟩
  | protocol {d : Descriptor} {base : Option DescriptorId} {before behind : List DescriptorId} {p : DescriptorId}
      {parent : Option SynthesizedClass} {built : List SynthesizedClass} {between memo : Memo}
      (opens : r.Opens) (derives : Derives source.metadata r.id d base (before ++ p :: behind))
      (superclass : buildSuperclass source (r.visiting ++ [r.id]) d.name base (r.memo.begin r.id) = (.ok parent,between))
      (earlier : buildProtocols source (r.visiting ++ [r.id]) d.name before between = (.ok built,memo)) :
      Asks source r ⟨r.visiting ++ [r.id],p,memo⟩

variable {source : Source} {visiting : List DescriptorId} {memo between : Memo} {id k : DescriptorId}
  {d : Descriptor} {c : SynthesizedClass} {base : Option DescriptorId} {ids : List DescriptorId} {r s : Request}

structure Sound (source : Source) (r : Request) : Prop where
  consistent : Consistent source r.visiting r.memo
  leads : LeadsTo source.metadata r.visiting r.id

theorem asks_sound (asks : Asks source r s) (sound : Sound source r) : Sound source s := by
  cases asks with
  | superclass opens derives =>
    refine ⟨sound.consistent.begin opens.1 opens.2,sound.leads.below ⟨_,_,_,derives,.inl rfl⟩⟩
  | @protocol d base before _ _ _ _ _ _ opens derives superclass earlier =>
    have begun := sound.consistent.begin opens.1 opens.2
    have first := (superclass_leaves (calls_leave source _) d.name base begun).consistent
    rw [superclass] at first
    have second := (protocols_leave (calls_leave source _) d.name before first).consistent
    rw [earlier] at second
    exact ⟨second,sound.leads.below ⟨_,_,_,derives,.inr (List.mem_append_right _ List.mem_cons_self)⟩⟩

theorem calls_sound (calls : Relation.ReflTransGen (Asks source) r s) (sound : Sound source r) : Sound source s := by
  induction calls with
  | refl => exact sound
  | tail _ asks ih => exact asks_sound asks ih

theorem Sound.leaves (sound : Sound source r) :
    Leaves source r.visiting r.memo (r.run source) fun memo c => memo.cached? r.id = some c :=
  calls_leave source r.visiting r.id r.memo sound.consistent

theorem Sound.groundless (sound : Sound source r) (fails : r.Fails source) : ¬Grounded source.metadata r.id := by
  intro grounded
  obtain ⟨_,e,failure⟩ := fails
  obtain ⟨c,answer⟩ := (succeeds_iff sound.consistent sound.leads).mpr grounded
  cases failure.symm.trans answer

theorem protocols_append {owner : String} {before rest : List DescriptorId} {built : List SynthesizedClass}
    (earlier : buildProtocols source visiting owner before between = (.ok built,memo)) :
    buildProtocols source visiting owner (before ++ rest) between =
      ((buildProtocols source visiting owner rest memo).1.map (built ++ ·),
        (buildProtocols source visiting owner rest memo).2) := by
  induction before generalizing between built with
  | nil =>
    rw [buildProtocols] at earlier
    cases earlier
    rw [List.nil_append]
    rcases buildProtocols source visiting owner rest memo with ⟨_ | _,_⟩ <;> rfl
  | cons p others ih =>
    rcases one : synthesize source visiting p between with ⟨_ | c,next⟩ <;>
      simp only [buildProtocols,one,List.cons_append] at earlier ⊢
    · cases earlier
    split at earlier
    · rename_i kind
      rcases more : buildProtocols source visiting owner others next with ⟨_ | cs,last⟩ <;> rw [more] at earlier <;>
        cases earlier
      rw [if_pos kind,ih more]
      rcases buildProtocols source visiting owner rest memo with ⟨_ | _,_⟩ <;> rfl
    · cases earlier

theorem superclass_memo (source : Source) (visiting : List DescriptorId) (owner : String) (b : DescriptorId) (memo : Memo) :
    (buildSuperclass source visiting owner (some b) memo).2 = (synthesize source visiting b memo).2 := by
  rcases out : synthesize source visiting b memo with ⟨_ | c,after⟩ <;> simp only [buildSuperclass,out]
  split <;> rfl

theorem protocols_extend (owner : String) (p : DescriptorId) (rest : List DescriptorId)
    (consistent : Consistent source visiting memo) :
    Extends (synthesize source visiting p memo).2 (buildProtocols source visiting owner (p :: rest) memo).2 := by
  have next := (calls_leave source visiting p memo consistent).consistent
  rcases one : synthesize source visiting p memo with ⟨_ | c,after⟩ <;> rw [one] at next <;>
    simp only [buildProtocols,one]
  · exact .refl _
  split
  · have left := protocols_leave (calls_leave source visiting) owner rest next
    rcases others : buildProtocols source visiting owner rest after with ⟨_ | cs,last⟩ <;> rw [others] at left <;>
      exact left.grows
  · exact .refl _

theorem build_after_failure {e : BridgeError} (parents : parentsOf d = .ok (base,ids))
    (superclass : buildSuperclass source visiting d.name base memo = (.error e,between)) :
    (build source visiting id d memo).2 = between := by
  rw [build_parents parents,superclass]

theorem build_after_superclass {parent : Option SynthesizedClass} (parents : parentsOf d = .ok (base,ids))
    (superclass : buildSuperclass source visiting d.name base memo = (.ok parent,between)) :
    (build source visiting id d memo).2 = (buildProtocols source visiting d.name ids between).2 := by
  rw [build_parents parents,superclass]
  dsimp only
  rcases buildProtocols source visiting d.name ids between with ⟨_ | cs,last⟩ <;> rfl

theorem Request.run_known (opens : r.Opens) (known : source.metadata.descriptor? r.id = some d) :
    r.run source = closed r.id (build source (r.visiting ++ [r.id]) r.id d (r.memo.begin r.id)) :=
  synthesize_known opens.1 opens.2 known

theorem closed_extends {out : Outcome SynthesizedClass} (consistent : Consistent source (visiting ++ [id]) out.2) :
    Extends out.2 (closed id out).2 := by
  rcases out with ⟨_ | c,after⟩
  · exact abandon_extends consistent.under_construction.2
  · exact finish_extends consistent.under_construction.2

theorem build_extends_run (sound : Sound source r) (opens : r.Opens) (known : source.metadata.descriptor? r.id = some d) :
    Extends (build source (r.visiting ++ [r.id]) r.id d (r.memo.begin r.id)).2 (r.run source).2 := by
  rw [Request.run_known opens known]
  exact closed_extends (build_leaves (calls_leave source _) _ d (sound.consistent.begin opens.1 opens.2)).consistent

theorem asks_extends (asks : Asks source r s) (sound : Sound source r) : Extends (s.run source).2 (r.run source).2 := by
  have below := asks_sound asks sound
  cases asks with
  | @superclass d b ids opens derives =>
    refine Extends.trans ?_ (build_extends_run sound opens derives.known)
    have memo := superclass_memo source (r.visiting ++ [r.id]) d.name b (r.memo.begin r.id)
    rcases superclass : buildSuperclass source (r.visiting ++ [r.id]) d.name (some b) (r.memo.begin r.id) with ⟨_ | parent,between⟩
    · rw [build_after_failure derives.parents superclass]
      rw [superclass] at memo
      rw [Request.run,← memo]
      exact .refl _
    · rw [build_after_superclass derives.parents superclass]
      have left := superclass_leaves (calls_leave source _) d.name (some b) below.consistent
      rw [superclass] at left memo
      rw [Request.run,← memo]
      exact (protocols_leave (calls_leave source _) d.name ids left.consistent).grows
  | @protocol d base before behind p parent built between memo opens derives superclass earlier =>
    refine Extends.trans ?_ (build_extends_run sound opens derives.known)
    rw [build_after_superclass derives.parents superclass,protocols_append earlier]
    exact protocols_extend d.name p behind below.consistent

theorem calls_extend (calls : Relation.ReflTransGen (Asks source) r s) (sound : Sound source r) :
    Extends (s.run source).2 (r.run source).2 := by
  induction calls using Relation.ReflTransGen.head_induction_on with
  | refl => exact .refl _
  | head asks _ ih => exact (ih (asks_sound asks sound)).trans (asks_extends asks sound)

-- A call finds what the call above it has found.
theorem asks_grow (asks : Asks source r s) (sound : Sound source r) : Extends r.memo s.memo := by
  cases asks with
  | superclass opens derives => exact begin_extends opens.2
  | @protocol d base before _ _ _ _ _ _ opens derives superclass earlier =>
    have first := superclass_leaves (calls_leave source _) d.name base (sound.consistent.begin opens.1 opens.2)
    rw [superclass] at first
    have second := protocols_leave (calls_leave source _) d.name before first.consistent
    rw [earlier] at second
    exact ((begin_extends opens.2).trans first.grows).trans second.grows

theorem calls_grow (calls : Relation.ReflTransGen (Asks source) r s) (sound : Sound source r) :
    Extends r.memo s.memo := by
  induction calls with
  | refl => exact .refl _
  | tail calls asks ih => exact ih.trans (asks_grow asks (calls_sound calls sound))

def Built (source : Source) (r : Request) (k : DescriptorId) : Prop :=
  ∃ s, Relation.ReflTransGen (Asks source) r s ∧ s.id = k ∧ s.Builds source

theorem Built.above (asks : Asks source r s) (built : Built source s k) : Built source r k := by
  obtain ⟨t,calls,same,builds⟩ := built
  exact ⟨t,.head asks calls,same,builds⟩

-- Every class of the later memo was in the earlier one or has been built by the call.
def Accounted (source : Source) (r : Request) (memo after : Memo) : Prop :=
  ∀ k c, after.cached? k = some c → memo.cached? k = some c ∨ Built source r k

theorem Accounted.refl (source : Source) (r : Request) (memo : Memo) : Accounted source r memo memo :=
  fun _ _ held => .inl held

theorem Accounted.trans {last : Memo} (first : Accounted source r memo between) (second : Accounted source r between last) :
    Accounted source r memo last :=
  fun k c held => (second k c held).elim (first k c) .inr

theorem Accounted.above {after : Memo} (asks : Asks source r s) (accounted : Accounted source s memo after) :
    Accounted source r memo after :=
  fun k c held => (accounted k c held).imp_right (.above asks)

def CallsAccount (source : Source) (visiting : List DescriptorId) : Prop :=
  ∀ id memo, Sound source ⟨visiting,id,memo⟩ →
    Accounted source ⟨visiting,id,memo⟩ memo (Request.run source ⟨visiting,id,memo⟩).2

section Building

variable (calls : CallsAccount source (r.visiting ++ [r.id])) (sound : Sound source r) (opens : r.Opens)
include calls sound opens

theorem superclass_accounts (derives : Derives source.metadata r.id d base ids) :
    Accounted source r (r.memo.begin r.id)
      (buildSuperclass source (r.visiting ++ [r.id]) d.name base (r.memo.begin r.id)).2 := by
  cases base with
  | none =>
    rw [buildSuperclass]
    exact .refl _ _ _
  | some b =>
    have asks : Asks source r ⟨r.visiting ++ [r.id],b,r.memo.begin r.id⟩ := .superclass opens derives
    rw [superclass_memo]
    exact .above asks (calls b _ (asks_sound asks sound))

-- The induction is on the protocols that are left, behind those that were built.
theorem protocols_account {before behind : List DescriptorId} {parent : Option SynthesizedClass}
    {built : List SynthesizedClass} {memo : Memo} (derives : Derives source.metadata r.id d base (before ++ behind))
    (superclass : buildSuperclass source (r.visiting ++ [r.id]) d.name base (r.memo.begin r.id) = (.ok parent,between))
    (earlier : buildProtocols source (r.visiting ++ [r.id]) d.name before between = (.ok built,memo)) :
    Accounted source r memo (buildProtocols source (r.visiting ++ [r.id]) d.name behind memo).2 := by
  induction behind generalizing before built memo with
  | nil =>
    rw [buildProtocols]
    exact .refl _ _ _
  | cons p rest ih =>
    have asks : Asks source r ⟨r.visiting ++ [r.id],p,memo⟩ := .protocol opens derives superclass earlier
    have accounted := Accounted.above asks (calls p memo (asks_sound asks sound))
    rw [Request.run] at accounted
    rcases one : synthesize source (r.visiting ++ [r.id]) p memo with ⟨_ | c,next⟩ <;> rw [one] at accounted <;>
      simp only [buildProtocols,one]
    · exact accounted
    split
    · rename_i kind
      have further : buildProtocols source (r.visiting ++ [r.id]) d.name (before ++ [p]) between = (.ok (built ++ [c]),next) := by
        rw [protocols_append earlier]
        simp only [buildProtocols,one,if_pos kind]
        rfl
      have tail := ih (by rwa [List.append_assoc]) further
      rcases others : buildProtocols source (r.visiting ++ [r.id]) d.name rest next with ⟨_ | cs,last⟩ <;>
        rw [others] at tail <;> exact accounted.trans tail
    · exact accounted

theorem build_accounts (known : source.metadata.descriptor? r.id = some d) :
    Accounted source r (r.memo.begin r.id) (build source (r.visiting ++ [r.id]) r.id d (r.memo.begin r.id)).2 := by
  rcases parents : parentsOf d with e | ⟨base,ids⟩
  · rw [build_classless parents]
    exact .refl _ _ _
  · have first := superclass_accounts calls sound opens ⟨known,parents⟩
    rcases superclass : buildSuperclass source (r.visiting ++ [r.id]) d.name base (r.memo.begin r.id) with ⟨_ | parent,between⟩ <;>
      rw [superclass] at first
    · rw [build_after_failure parents superclass]
      exact first
    · rw [build_after_superclass parents superclass]
      have nothing : buildProtocols source (r.visiting ++ [r.id]) d.name [] between = (.ok [],between) := by rw [buildProtocols]
      exact first.trans (protocols_account calls sound opens ⟨known,parents⟩ superclass nothing)

end Building

theorem begin_accounts (source : Source) (opens : r.Opens) : Accounted source r r.memo (r.memo.begin r.id) :=
  fun _ _ held => .inl ((Memo.cached?_begin opens.2).symm.trans held)

-- Closing adds the class itself, and only if the call answers.
theorem closed_accounts {out : Outcome SynthesizedClass} (opens : r.Opens)
    (consistent : Consistent source (r.visiting ++ [r.id]) out.2) (run : r.run source = closed r.id out) :
    Accounted source r out.2 (closed r.id out).2 := by
  intro k _ held
  rcases out with ⟨_ | c,memo⟩
  · exact .inl ((Memo.cached?_abandon consistent.under_construction.2).symm.trans held)
  · rw [closed,Memo.cached?_finish] at held
    split at held
    · rename_i itself
      refine .inr ⟨r,.refl,itself.symm,opens,c,?_⟩
      rw [run,closed]
    · exact .inl held

-- Below the call more is under construction, so that the calls it makes are taken for granted.
theorem calls_account (sound : Sound source r) : Accounted source r r.memo (r.run source).2 := by
  obtain ⟨visiting,id,memo⟩ := r
  revert id memo
  refine visiting_induct (m := source.metadata) ?_ visiting
  intro visiting below id memo sound
  by_cases busy : id ∈ visiting
  · rw [Request.run,synthesize_busy busy]
    exact .refl _ _ _
  cases cached : memo.cached? id with
  | some c =>
    rw [Request.run,synthesize_cached busy cached]
    exact .refl _ _ _
  | none =>
    have opens : Request.Opens ⟨visiting,id,memo⟩ := ⟨busy,cached⟩
    have begun := sound.consistent.begin busy cached
    cases known : source.metadata.descriptor? id with
    | none =>
      rw [Request.run,synthesize_unknown busy cached known]
      intro k _ held
      rw [Memo.cached?_abandon begun.under_construction.2] at held
      exact begin_accounts source opens k _ held
    | some d =>
      have left := build_leaves (calls_leave source _) id d begun
      have run := Request.run_known opens known
      rw [run]
      refine (begin_accounts source opens).trans (.trans ?_ (closed_accounts opens left.consistent run))
      exact build_accounts (below id d busy known) sound opens known

end ObjectBridge.Synthesis
