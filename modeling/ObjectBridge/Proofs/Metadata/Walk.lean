import Mathlib.Order.Interval.Finset.Nat
import ObjectBridge.Proofs.Metadata.CheckedReads

namespace ObjectBridge

inductive TypeExpr.Names {ρ : Type} : TypeExpr ρ → ρ → Prop where
  | object (target : ρ) : Names (.object (some target)) target
  | struct (target : ρ) : Names (.struct target) target
  | result {result : TypeExpr ρ} {params : List (TypeExpr ρ)} {target : ρ} (inside : Names result target) :
      Names (.block result params) target
  | param {result ty : TypeExpr ρ} {params : List (TypeExpr ρ)} {target : ρ} (among : ty ∈ params)
      (inside : Names ty target) : Names (.block result params) target

def Signature.Names {ρ : Type} (sig : Signature ρ) (target : ρ) : Prop :=
  sig.result.Names target ∨ ∃ ty ∈ sig.params, ty.Names target

inductive Descriptor.Mentions : Descriptor → DescriptorId → Prop where
  | base {name : String} {target : DescriptorId} {members : Members} :
      Mentions (.interface name (some target) members) target
  | protocol {d : Descriptor} {target : DescriptorId} (listed : target ∈ d.members.protocols) : Mentions d target
  | method {d : Descriptor} {target : DescriptorId} {m : Method} (listed : m ∈ d.methods)
      (names : m.signature.Names target) : Mentions d target
  | accessor {d : Descriptor} {target : DescriptorId} {p : Property} {m : Method} (listed : p ∈ d.properties)
      (either : p.getter = some m ∨ p.setter = some m) (names : m.signature.Names target) : Mentions d target
  | property {d : Descriptor} {target : DescriptorId} {p : Property} (listed : p ∈ d.properties)
      (names : p.type.Names target) : Mentions d target
  | field {name : String} {fields : List Field} {target : DescriptorId} {f : Field} (listed : f ∈ fields)
      (names : f.type.Names target) : Mentions (.struct name fields) target
  | function {name : String} {signature : CallSignature} {target : DescriptorId} (names : signature.Names target) :
      Mentions (.function name signature) target

mutual

theorem TypeExpr.mem_references {ρ : Type} (ty : TypeExpr ρ) (target : ρ) : target ∈ ty.references ↔ ty.Names target := by
  match ty with
  | .scalar _ | .object none =>
    simp only [references,List.not_mem_nil,false_iff]
    rintro ⟨⟩
  | .object (some other) =>
    rw [references,List.mem_singleton]
    constructor
    · rintro rfl; exact .object target
    · rintro ⟨⟩; rfl
  | .struct other =>
    rw [references,List.mem_singleton]
    constructor
    · rintro rfl; exact .struct target
    · rintro ⟨⟩; rfl
  | .block result params =>
    rw [references,List.mem_append,result.mem_references,TypeExpr.referencesAll_names params]
    constructor
    · rintro (inside | ⟨ty,among,inside⟩)
      · exact .result inside
      · exact .param among inside
    · rintro (_ | _ | inside | ⟨among,inside⟩)
      · exact .inl inside
      · exact .inr ⟨_,among,inside⟩

theorem TypeExpr.referencesAll_names {ρ : Type} (types : List (TypeExpr ρ)) (target : ρ) :
    target ∈ referencesAll types ↔ ∃ ty ∈ types, ty.Names target := by
  match types with
  | [] => simp [referencesAll]
  | ty :: rest => simp [referencesAll,ty.mem_references,TypeExpr.referencesAll_names rest]

end

theorem Signature.mem_references {ρ : Type} (sig : Signature ρ) (target : ρ) :
    target ∈ sig.references ↔ sig.Names target := by
  rw [references,List.mem_append,TypeExpr.mem_references,TypeExpr.referencesAll_names,Names]

theorem Property.mem_references (p : Property) (target : DescriptorId) : target ∈ p.references ↔
    (∃ m, (p.getter = some m ∨ p.setter = some m) ∧ m.signature.Names target) ∨ p.type.Names target := by
  have accessor (method : Option Method) : target ∈ (method.map (·.signature.references)).getD [] ↔
      ∃ m, method = some m ∧ m.signature.Names target := by
    cases method with
    | none => simp
    | some m => simp [Signature.mem_references]
  rw [references,List.mem_append,List.mem_append,accessor,accessor,TypeExpr.mem_references]
  simp only [or_and_right,exists_or]

theorem Members.mem_references (members : Members) (target : DescriptorId) : target ∈ members.references ↔
    target ∈ members.protocols ∨ (∃ m ∈ members.methods, m.signature.Names target) ∨
      ∃ p ∈ members.properties, (∃ m, (p.getter = some m ∨ p.setter = some m) ∧ m.signature.Names target) ∨
        p.type.Names target := by
  rw [references,List.mem_append,List.mem_append,List.mem_flatMap,List.mem_flatMap,or_assoc]
  simp only [Signature.mem_references,Property.mem_references]

-- What a descriptor's members mention, it mentions itself.
theorem Descriptor.mentions_members {d : Descriptor} {target : DescriptorId} (among : target ∈ d.members.references) :
    d.Mentions target := by
  rcases (Members.mem_references _ _).mp among with listed | ⟨m,listed,names⟩ | ⟨p,listed,⟨m,either,names⟩ | names⟩
  · exact .protocol listed
  · exact .method listed names
  · exact .accessor listed either names
  · exact .property listed names

theorem Descriptor.members_references {d : Descriptor} {target : DescriptorId} (among : target ∈ d.members.references) :
    target ∈ d.references := by
  cases d with
  | interface => exact List.mem_append_right _ among
  | protocol => exact among
  | struct | function => cases among

theorem Descriptor.mem_references (d : Descriptor) (target : DescriptorId) :
    target ∈ d.references ↔ d.Mentions target := by
  constructor
  · intro among
    cases d with
    | interface name base members =>
      rcases List.mem_append.mp among with direct | inherited
      · obtain rfl := Option.mem_toList.mp direct
        exact .base
      · exact mentions_members inherited
    | protocol name members => exact mentions_members among
    | struct name fields =>
      obtain ⟨f,listed,names⟩ := List.mem_flatMap.mp among
      exact .field listed ((TypeExpr.mem_references _ _).mp names)
    | function name signature => exact .function ((Signature.mem_references _ _).mp among)
  · intro mentions
    cases mentions with
    | base => exact List.mem_append_left _ (Option.mem_toList.mpr rfl)
    | protocol listed => exact members_references ((Members.mem_references _ _).mpr (.inl listed))
    | method listed names => exact members_references ((Members.mem_references _ _).mpr (.inr (.inl ⟨_,listed,names⟩)))
    | accessor listed either names =>
      exact members_references ((Members.mem_references _ _).mpr (.inr (.inr ⟨_,listed,.inl ⟨_,either,names⟩⟩)))
    | property listed names =>
      exact members_references ((Members.mem_references _ _).mpr (.inr (.inr ⟨_,listed,.inr names⟩)))
    | field listed names => exact List.mem_flatMap.mpr ⟨_,listed,(TypeExpr.mem_references _ _).mpr names⟩
    | function names => exact (Signature.mem_references _ _).mpr names

namespace Blob

-- From what is pending and known, with the places at which a descriptor is read, the first one in front,
-- and with what comes of it.
inductive Walk (blob : Blob) :
    List Nat → Table Nat Unit → List Nat → Except LoadError (Table Nat Unit) → Prop where
  | done {known : Table Nat Unit} : Walk blob [] known [] (.ok known)
  | pass {place : Nat} {rest visits : List Nat} {known : Table Nat Unit} {outcome : Except LoadError (Table Nat Unit)}
      (old : known.contains place = true) (others : Walk blob rest known visits outcome) :
      Walk blob (place :: rest) known visits outcome
  | fail {place : Nat} {rest : List Nat} {known : Table Nat Unit} {e : LoadError}
      (new : known.contains place = false) (fails : blob.readDescriptor place = .error e) :
      Walk blob (place :: rest) known [place] (.error e)
  | visit {place : Nat} {rest visits : List Nat} {known : Table Nat Unit} {d : Descriptor}
      {outcome : Except LoadError (Table Nat Unit)} (new : known.contains place = false)
      (read : blob.readDescriptor place = .ok d)
      (others : Walk blob ((d.references.map (·.offset)).reverse ++ rest) (known.put place ()) visits outcome) :
      Walk blob (place :: rest) known (place :: visits) outcome

variable {blob : Blob} {pending visits other : List Nat} {known : Table Nat Unit}
  {outcome outcome' : Except LoadError (Table Nat Unit)}

-- The walk asks for the bytes of the head itself, and reports what reading them would.
theorem readDescriptor_outside {place : Nat} (outside : ¬blob.InDescriptors place Layout.descriptorHeadSize) :
    blob.readDescriptor place = .error (.outOfBounds "descriptor" place) := by
  unfold readDescriptor require
  rw [if_neg outside]
  rfl

theorem reach_walk (blob : Blob) (pending : List Nat) (known : Table Nat Unit) :
    ∃ visits, Walk blob pending known visits (blob.reach pending known) := by
  fun_induction reach blob pending known with
  | case1 known => exact ⟨[],.done⟩
  | case2 known place rest old ih =>
    obtain ⟨visits,walk⟩ := ih
    exact ⟨visits,.pass old walk⟩
  | case3 known place rest old inside e fails => exact ⟨[place],.fail (Bool.eq_false_iff.mpr old) fails⟩
  | case4 known place rest old inside d read ih =>
    obtain ⟨visits,walk⟩ := ih
    exact ⟨place :: visits,.visit (Bool.eq_false_iff.mpr old) read walk⟩
  | case5 known place rest old outside =>
    exact ⟨[place],.fail (Bool.eq_false_iff.mpr old) (readDescriptor_outside outside)⟩

theorem Walk.unique (one : Walk blob pending known visits outcome) (two : Walk blob pending known other outcome') :
    other = visits ∧ outcome' = outcome := by
  induction one generalizing other with
  | done => cases two; exact ⟨rfl,rfl⟩
  | pass old _ ih =>
    cases two with
    | pass _ others => exact ih others
    | fail new | visit new => rw [old] at new; cases new
  | fail new fails =>
    cases two with
    | pass old => rw [new] at old; cases old
    | fail _ again => cases fails.symm.trans again; exact ⟨rfl,rfl⟩
    | visit _ read => cases fails.symm.trans read
  | visit new read _ ih =>
    cases two with
    | pass old => rw [new] at old; cases old
    | fail _ fails => cases read.symm.trans fails
    | visit _ again others =>
      cases read.symm.trans again
      obtain ⟨rfl,rfl⟩ := ih others
      exact ⟨rfl,rfl⟩

-- What is known is not read again.
theorem Walk.fresh (walk : Walk blob pending known visits outcome) : ∀ place ∈ visits, known.contains place = false := by
  induction walk with
  | done => simp
  | pass _ _ ih => exact ih
  | fail new => simpa using new
  | visit new _ _ ih =>
    intro place member
    rcases List.mem_cons.mp member with rfl | later
    · exact new
    · have unknown := ih place later
      rw [contains_put,Bool.or_eq_false_iff] at unknown
      exact unknown.2

theorem Walk.nodup (walk : Walk blob pending known visits outcome) : visits.Nodup := by
  induction walk with
  | done => exact .nil
  | pass _ _ ih => exact ih
  | fail => simp
  | visit _ _ others ih =>
    refine List.nodup_cons.mpr ⟨fun again => ?_,ih⟩
    have unknown := others.fresh _ again
    simp [contains_put] at unknown

-- All reads succeed but the last one of a walk that fails.
theorem Walk.reads (walk : Walk blob pending known visits outcome) : ∃ read failed, visits = read ++ failed ∧
    (∀ place ∈ read, ∃ d, blob.readDescriptor place = .ok d) ∧
    ((failed = [] ∧ ∃ found, outcome = .ok found) ∨
      ∃ place e, failed = [place] ∧ blob.readDescriptor place = .error e ∧ outcome = .error e) := by
  induction walk with
  | done => exact ⟨[],[],rfl,by simp,.inl ⟨rfl,_,rfl⟩⟩
  | pass _ _ ih => exact ih
  | @fail place _ _ e _ fails => exact ⟨[],[place],rfl,by simp,.inr ⟨place,e,rfl,fails,rfl⟩⟩
  | @visit place _ _ _ d _ _ one _ ih =>
    obtain ⟨read,failed,rfl,each,ends⟩ := ih
    refine ⟨place :: read,failed,rfl,?_,ends⟩
    rintro p (_ | ⟨_,later⟩)
    · exact ⟨d,one⟩
    · exact each p later

theorem Walk.found (walk : Walk blob pending known visits outcome) {found : Table Nat Unit} (ends : outcome = .ok found)
    (place : Nat) : found.contains place = true ↔ known.contains place = true ∨ place ∈ visits := by
  induction walk with
  | done => cases ends; simp
  | pass _ _ ih => exact ih ends
  | fail => cases ends
  | visit _ _ _ ih =>
    rw [ih ends,contains_put,Bool.or_eq_true,decide_eq_true_eq,List.mem_cons]
    tauto

-- Nothing is read but what was pending, and what is mentioned where that leads to.
theorem Walk.within (walk : Walk blob pending known visits outcome) {P : Nat → Prop} (given : ∀ place ∈ pending, P place)
    (closed : ∀ place d, P place → blob.readDescriptor place = .ok d → ∀ target ∈ d.references, P target.offset) :
    ∀ place ∈ visits, P place := by
  induction walk with
  | done => simp
  | pass _ _ ih => exact ih fun p member => given p (List.mem_cons_of_mem _ member)
  | fail => simpa using given _ List.mem_cons_self
  | @visit place rest _ _ d _ _ read _ ih =>
    have here := given place List.mem_cons_self
    have later := ih ?_
    · rintro p (_ | ⟨_,member⟩)
      · exact here
      · exact later p member
    · intro p member
      rcases List.mem_append.mp member with mentioned | waiting
      · obtain ⟨target,among,rfl⟩ := List.mem_map.mp (List.mem_reverse.mp mentioned)
        exact closed place d here read target among
      · exact given p (List.mem_cons_of_mem _ waiting)

theorem readDescriptor_inside {place : Nat} {d : Descriptor} (read : blob.readDescriptor place = .ok d) :
    place ∈ Finset.Ico blob.descriptors.start blob.descriptors.stop := by
  by_cases inside : blob.InDescriptors place Layout.descriptorHeadSize
  · obtain ⟨above,below⟩ := inside
    rw [Layout.descriptorHeadSize] at below
    exact Finset.mem_Ico.mpr ⟨above,by omega⟩
  · rw [readDescriptor_outside inside] at read
    cases read

-- Every descriptor begins at a byte of its own.
theorem read_length_le {read : List Nat} (distinct : read.Nodup) (each : ∀ place ∈ read, ∃ d, blob.readDescriptor place = .ok d) :
    read.length ≤ blob.descriptors.stop-blob.descriptors.start := by
  rw [← List.toFinset_card_of_nodup distinct,← Nat.card_Ico]
  apply Finset.card_le_card
  intro place member
  obtain ⟨_,one⟩ := each place (List.mem_toFinset.mp member)
  exact readDescriptor_inside one

end Blob

namespace Metadata

-- How a file is loaded, with the places at which a descriptor is read. What is wrong with the header or
-- the index shows before the first of them.
inductive Loading (bytes : Array UInt8) : List Nat → Except LoadError Metadata → Prop where
  | unopened {e : LoadError} (fails : Blob.ofBytes bytes = .error e) : Loading bytes [] (.error e)
  | unlisted {blob : Blob} {e : LoadError} (opened : Blob.ofBytes bytes = .ok blob)
      (fails : blob.readIndex none blob.indexCount (blob.index.start+4) = .error e) : Loading bytes [] (.error e)
  | walked {blob : Blob} {index : List (String × DescriptorId)} {visits : List Nat}
      {outcome : Except LoadError (Table Nat Unit)} (opened : Blob.ofBytes bytes = .ok blob)
      (listed : blob.readIndex none blob.indexCount (blob.index.start+4) = .ok index)
      (walk : blob.Walk (index.map (·.2.offset)).reverse .empty visits outcome) :
      Loading bytes visits (outcome.map fun known => ⟨Layout.version,blob,known⟩)

-- The places that the index leads to.
inductive Reachable (m : Metadata) : Nat → Prop where
  | indexed {i : Nat} (below : i < m.count) : Reachable m (m.blob.entryAt i).2.offset
  | mentioned {place : Nat} {target : DescriptorId} (reached : Reachable m place)
      (mentions : (m.blob.descriptorAt place).Mentions target) : Reachable m target.offset

variable {bytes : Array UInt8} {m : Metadata} {visits other : List Nat} {outcome outcome' : Except LoadError Metadata}

theorem ofBytes_loading (bytes : Array UInt8) : ∃ visits, Loading bytes visits (Metadata.ofBytes bytes) := by
  cases opened : Blob.ofBytes bytes with
  | error e =>
    have fails : Metadata.ofBytes bytes = .error e := by rw [Metadata.ofBytes,opened]; rfl
    exact ⟨[],fails ▸ .unopened opened⟩
  | ok blob =>
    cases listed : blob.readIndex none blob.indexCount (blob.index.start+4) with
    | error e =>
      have fails : Metadata.ofBytes bytes = .error e := by
        rw [Metadata.ofBytes,opened]
        change (blob.readIndex none blob.indexCount (blob.index.start+4) >>= _) = _
        rw [listed]
        rfl
      exact ⟨[],fails ▸ .unlisted opened listed⟩
    | ok index =>
      obtain ⟨visits,walk⟩ := blob.reach_walk (index.map (·.2.offset)).reverse .empty
      have same : Metadata.ofBytes bytes = (blob.reach (index.map (·.2.offset)).reverse .empty).map
          fun known => ⟨Layout.version,blob,known⟩ := by
        rw [Metadata.ofBytes,opened]
        change (blob.readIndex none blob.indexCount (blob.index.start+4) >>= _) = _
        rw [listed]
        change (blob.reach (index.map (·.2.offset)).reverse .empty >>= _) = _
        cases blob.reach (index.map (·.2.offset)).reverse .empty <;> rfl
      exact ⟨visits,same ▸ .walked opened listed walk⟩

theorem Loading.unique (one : Loading bytes visits outcome) (two : Loading bytes other outcome') :
    other = visits ∧ outcome' = outcome := by
  cases one with
  | unopened fails =>
    cases two with
    | unopened again => cases fails.symm.trans again; exact ⟨rfl,rfl⟩
    | unlisted opened | walked opened => cases fails.symm.trans opened
  | unlisted opened fails =>
    cases two with
    | unopened unopened => cases opened.symm.trans unopened
    | unlisted again fails' =>
      cases opened.symm.trans again
      cases fails.symm.trans fails'
      exact ⟨rfl,rfl⟩
    | walked again listed =>
      cases opened.symm.trans again
      cases fails.symm.trans listed
  | walked opened listed walk =>
    cases two with
    | unopened unopened => cases opened.symm.trans unopened
    | unlisted again fails =>
      cases opened.symm.trans again
      cases listed.symm.trans fails
    | walked again listed' walk' =>
      cases opened.symm.trans again
      cases listed.symm.trans listed'
      obtain ⟨rfl,rfl⟩ := walk.unique walk'
      exact ⟨rfl,rfl⟩

theorem Loading.walk (loading : Loading bytes visits (.ok m)) : ∃ index, Blob.ofBytes bytes = .ok m.blob ∧
    m.blob.readIndex none m.blob.indexCount (m.blob.index.start+4) = .ok index ∧
    m.blob.Walk (index.map (·.2.offset)).reverse .empty visits (.ok m.known) := by
  generalize ends : (Except.ok m : Except LoadError Metadata) = outcome at loading
  cases loading with
  | unopened | unlisted => cases ends
  | walked opened listed walk =>
    obtain ⟨known,rfl,rfl⟩ := Outcome.map_ok.mp ends.symm
    exact ⟨_,opened,listed,walk⟩

theorem Loading.bounded (loading : Loading bytes visits outcome) : visits.Nodup ∧ ∃ read failed, visits = read ++ failed ∧
    failed.length ≤ 1 ∧ ((∃ m, outcome = .ok m) → failed = []) ∧
    ∀ blob, Blob.ofBytes bytes = .ok blob → read.length ≤ blob.descriptors.stop-blob.descriptors.start ∧
      (∀ place ∈ read, ∃ d, blob.readDescriptor place = .ok d) ∧
      ∀ place ∈ failed, ∃ e, blob.readDescriptor place = .error e ∧ outcome = .error e := by
  cases loading with
  | unopened | unlisted => exact ⟨.nil,[],[],rfl,Nat.zero_le _,fun _ => rfl,fun _ _ => ⟨Nat.zero_le _,by simp,by simp⟩⟩
  | @walked _ index _ walked opened listed walk =>
    have distinct := walk.nodup
    obtain ⟨read,failed,rfl,each,ends⟩ := walk.reads
    have bound := Blob.read_length_le (List.nodup_append.mp distinct).1 each
    refine ⟨distinct,read,failed,rfl,?_,?_,?_⟩
    · rcases ends with ⟨rfl,_⟩ | ⟨place,e,rfl,_⟩ <;> simp
    · rintro ⟨m,succeeds⟩
      rcases ends with ⟨rfl,_⟩ | ⟨place,e,_,_,rfl⟩
      · rfl
      · cases succeeds
    · intro blob again
      cases opened.symm.trans again
      refine ⟨bound,each,fun place member => ?_⟩
      rcases ends with ⟨rfl,_⟩ | ⟨p,e,rfl,fails,rfl⟩
      · cases member
      · cases List.mem_singleton.mp member
        exact ⟨e,fails,rfl⟩

-- In an accepted file the places that were read, the known ones and those that the index leads to are the same.
theorem Loading.reaches (loading : Loading bytes visits (.ok m)) (loaded : Metadata.ofBytes bytes = .ok m) (place : Nat) :
    (m.known.contains place = true ↔ place ∈ visits) ∧ (place ∈ visits ↔ m.Reachable place) := by
  obtain ⟨index,_,listed,walk⟩ := loading.walk
  have known (p : Nat) : m.known.contains p = true ↔ p ∈ visits := by
    rw [walk.found rfl]
    simp [Table.contains,Table.get?,Table.empty]
  refine ⟨known place,?_,?_⟩
  · refine walk.within (P := m.Reachable) ?_ ?_ place
    · intro p member
      rw [List.mem_reverse,← (Blob.index_reads listed).2,List.map_map] at member
      obtain ⟨i,below,rfl⟩ := List.mem_map.mp member
      exact .indexed (List.mem_range.mp below)
    · intro p d reachable read target among
      obtain ⟨_,rfl⟩ := Blob.descriptor_reads read
      exact .mentioned reachable ((Descriptor.mem_references _ _).mp among)
  · intro reachable
    induction reachable with
    | indexed below =>
      apply (known _).mp
      rw [← descriptor_known]
      exact (entries_known loaded _ below).2
    | mentioned _ mentions ih =>
      obtain ⟨d,read,targets⟩ := known_explored loaded _ ((known _).mpr ih)
      obtain ⟨_,rfl⟩ := Blob.descriptor_reads read
      rcases targets _ ((Descriptor.mem_references _ _).mpr mentions) with seen | waiting
      · exact (known _).mp seen
      · cases waiting

-- Whatever the bytes are, there is one walk, and it ends. It reads no place twice, and no more places than the
-- descriptor section has bytes, but for one at which it fails.
theorem walk_reads_the_reachable_once (bytes : Array UInt8) : ∃ visits, Loading bytes visits (Metadata.ofBytes bytes) ∧
    (∀ other outcome, Loading bytes other outcome → other = visits ∧ outcome = Metadata.ofBytes bytes) ∧
    visits.Nodup ∧
    (∃ read failed, visits = read ++ failed ∧ failed.length ≤ 1 ∧ ((∃ m, Metadata.ofBytes bytes = .ok m) → failed = []) ∧
      ∀ blob, Blob.ofBytes bytes = .ok blob → read.length ≤ blob.descriptors.stop-blob.descriptors.start ∧
        (∀ place ∈ read, ∃ d, blob.readDescriptor place = .ok d) ∧
        ∀ place ∈ failed, ∃ e, blob.readDescriptor place = .error e ∧ Metadata.ofBytes bytes = .error e) ∧
    ∀ m, Metadata.ofBytes bytes = .ok m →
      (∀ place, m.known.contains place = true ↔ m.Reachable place) ∧ (∀ place, place ∈ visits ↔ m.Reachable place) ∧
      ∀ id, (m.descriptor? id).isSome = true ↔ m.Reachable id.offset := by
  obtain ⟨visits,loading⟩ := ofBytes_loading bytes
  obtain ⟨distinct,bounded⟩ := loading.bounded
  refine ⟨visits,loading,fun _ _ => loading.unique,distinct,bounded,fun m loaded => ?_⟩
  rw [loaded] at loading
  have reached := loading.reaches loaded
  refine ⟨fun place => (reached place).1.trans (reached place).2,fun place => (reached place).2,fun id => ?_⟩
  rw [descriptor_known]
  exact (reached id.offset).1.trans (reached id.offset).2

-- A function at 47 that answers a block, of a signature at 59 that answers a block of the same signature.
def endlessBlock : Array UInt8 :=
  #[0x4d,0x42,0x4d,0x44,1,0,0,0,32,0,0,0,3,0,0,0,35,0,0,0,47,0,0,0,18,0,0,0,65,0,0,0,
    1,0,0x50, 1,0,0,0,32,0,0,0,47,0,0,0, 4,0,0,0,32,0,0,0,59,0,0,0, 0,15,59,0,0,0]

-- A structure that contains itself is read once; a block that answers itself is given up.
theorem self_references_end :
    (∃ visits m, Metadata.ofBytes selfContained = .ok m ∧ Loading selfContained visits (.ok m) ∧ visits.Nodup ∧
      ∀ place, place ∈ visits ↔ m.Reachable place) ∧
    ∃ visits e, Metadata.ofBytes endlessBlock = .error e ∧ Loading endlessBlock visits (.error e) ∧ visits.Nodup := by
  have loaded : Metadata.ofBytes selfContained = .ok ⟨1,selfContainedBlob,⟨[(50,())]⟩⟩ := by cbv
  have refused : Metadata.ofBytes endlessBlock =
      .error (.invalidRecord "signature" 59 "block signatures nest too deeply") := by cbv
  constructor
  · obtain ⟨visits,loading,_,distinct,_,reaches⟩ := walk_reads_the_reachable_once selfContained
    rw [loaded] at loading
    exact ⟨visits,_,loaded,loading,distinct,(reaches _ loaded).2.1⟩
  · obtain ⟨visits,loading,_,distinct,_⟩ := walk_reads_the_reachable_once endlessBlock
    rw [refused] at loading
    exact ⟨visits,_,refused,loading,distinct⟩

end Metadata
end ObjectBridge
