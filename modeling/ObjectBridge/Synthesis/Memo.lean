import ObjectBridge.BridgeError
import ObjectBridge.Native.Heap
import ObjectBridge.Synthesis.Members

namespace ObjectBridge

-- A class that fails gives its place back, but what was finished on the way stays.
inductive Slot where
  | building
  | done (c : SynthesizedClass)
  deriving Inhabited

structure Memo where
  slots : Table Nat Slot
  built : Nat
  deriving Inhabited

inductive SynthesisState where
  | unresolved
  | synthesizing
  | synthesized
  deriving DecidableEq, Repr

namespace Memo

def empty : Memo := ⟨Table.empty, 0⟩

def state (memo : Memo) (id : DescriptorId) : SynthesisState :=
  match memo.slots.get? id.offset with
  | none => .unresolved
  | some .building => .synthesizing
  | some (.done _) => .synthesized

def cached? (memo : Memo) (id : DescriptorId) : Option SynthesizedClass :=
  match memo.slots.get? id.offset with
  | some (.done c) => some c
  | _ => none

def begin (memo : Memo) (id : DescriptorId) : Memo :=
  { memo with slots := memo.slots.put id.offset .building }

def finish (memo : Memo) (id : DescriptorId) (c : SynthesizedClass) : Memo :=
  ⟨memo.slots.put id.offset (.done c), memo.built + 1⟩

def abandon (memo : Memo) (id : DescriptorId) : Memo :=
  { memo with slots := memo.slots.erase id.offset }

end Memo

namespace Metadata

def stepName (m : Metadata) (id : DescriptorId) : String :=
  ((m.descriptor? id).map (·.name)).getD "<invalid>"

-- How many descriptors are not under construction.
def untouched (m : Metadata) (visiting : List DescriptorId) : Nat :=
  (m.known.keys.filter fun offset => (⟨offset⟩ : DescriptorId) ∉ visiting).length

end Metadata

namespace Synthesis

structure Source where
  metadata : Metadata
  natives : ClassTable

abbrev Outcome (α : Type) := Except BridgeError α × Memo

def cycle (m : Metadata) (visiting : List DescriptorId) (id : DescriptorId) : BridgeError :=
  .synthesis (m.stepName id)
    ("inheritance cycle " ++ " -> ".intercalate ((visiting ++ [id]).map m.stepName))

-- The native class of a described class; protocols have none.
def nativeOf (source : Source) (d : Descriptor) : Option ClassId :=
  match d.kind with
  | .interface => source.natives.named? d.name
  | _ => none

-- Superclass and protocols of a descriptor that has a class at all.
def parentsOf (d : Descriptor) : Except BridgeError (Option DescriptorId × List DescriptorId) :=
  match d with
  | .interface _ base members => .ok (base, members.protocols)
  | .protocol _ members => .ok (none, members.protocols)
  | .struct .. | .function .. =>
    .error (.synthesis d.name (d.kind.title ++ " descriptors have no class representation"))

private theorem length_filter_unvisited_le (visiting : List DescriptorId) (id : DescriptorId)
    (l : List Nat) :
    (l.filter fun o => (⟨o⟩ : DescriptorId) ∉ visiting ++ [id]).length
      ≤ (l.filter fun o => (⟨o⟩ : DescriptorId) ∉ visiting).length := by
  rw [← List.countP_eq_length_filter, ← List.countP_eq_length_filter]
  exact List.countP_mono_left fun o _ => by simp +contextual

theorem untouched_lt (m : Metadata) (visiting : List DescriptorId) (id : DescriptorId)
    (d : Descriptor) (known : m.descriptor? id = some d) (new : id ∉ visiting) :
    m.untouched (visiting ++ [id]) < m.untouched visiting := by
  have mem : id.offset ∈ m.known.keys := by
    have there : m.known.contains id.offset = true := by
      cases absent : m.known.contains id.offset with
      | true => rfl
      | false => simp [Metadata.descriptor?, absent] at known
    obtain ⟨_, found⟩ := Option.isSome_iff_exists.1 there
    obtain ⟨l₁, l₂, h, -⟩ := List.lookup_eq_some_iff.1 found
    simp [Table.keys, h]
  simp only [Metadata.untouched]
  generalize m.known.keys = keys at mem
  induction keys with
  | nil => cases mem
  | cons o rest ih =>
    have shrinks := length_filter_unvisited_le visiting id rest
    rcases List.mem_cons.1 mem with rfl | old
    · rw [List.filter_cons_of_neg (by simp), List.filter_cons_of_pos (by simpa using new)]
      exact Nat.lt_succ_of_le shrinks
    · by_cases h : (⟨o⟩ : DescriptorId) ∈ visiting
      · rw [List.filter_cons_of_neg (by simp [h]), List.filter_cons_of_neg (by simp [h])]
        exact ih old
      · by_cases h' : (⟨o⟩ : DescriptorId) = id
        · rw [List.filter_cons_of_neg (by simp [h']), List.filter_cons_of_pos (by simpa using h)]
          exact Nat.lt_succ_of_le shrinks
        · rw [List.filter_cons_of_pos (by simp [h, h']), List.filter_cons_of_pos (by simpa using h)]
          exact Nat.succ_lt_succ (ih old)

mutual

-- The class of a descriptor, built now unless it was before.
def synthesize (source : Source) (visiting : List DescriptorId) (id : DescriptorId) (memo : Memo) :
    Outcome SynthesizedClass :=
  if _busy : id ∈ visiting then (.error (cycle source.metadata visiting id), memo)
  else
    match memo.cached? id with
    | some c => (.ok c, memo)
    | none =>
      let memo := memo.begin id
      match _known : source.metadata.descriptor? id with
      | none => (.error (.synthesis id.text "no descriptor at this offset"), memo.abandon id)
      | some d =>
        match build source (visiting ++ [id]) id d memo with
        | (.ok c, memo) => (.ok c, memo.finish id c)
        | (.error e, memo) => (.error e, memo.abandon id)
  termination_by (source.metadata.untouched visiting, 0)
  decreasing_by
    apply Prod.Lex.left
    exact untouched_lt _ _ _ _ _known _busy

def build (source : Source) (visiting : List DescriptorId) (id : DescriptorId) (d : Descriptor)
    (memo : Memo) : Outcome SynthesizedClass :=
  match _parents : parentsOf d with
  | .error e => (.error e, memo)
  | .ok (base, protocols) =>
    match buildSuperclass source visiting d.name base memo with
    | (.error e, memo) => (.error e, memo)
    | (.ok parent, memo) =>
      match buildProtocols source visiting d.name protocols memo with
      | (.error e, memo) => (.error e, memo)
      | (.ok protocols, memo) =>
        (.ok (.assemble id d (nativeOf source d) parent protocols), memo)
  termination_by (source.metadata.untouched visiting, (parentsOf d).toOption.elim 0 (·.2.length) + 3)
  decreasing_by
    · apply Prod.Lex.right
      omega
    · apply Prod.Lex.right
      simp [_parents, Except.toOption]

-- The superclass has to be a class.
def buildSuperclass (source : Source) (visiting : List DescriptorId) (owner : String)
    (base : Option DescriptorId) (memo : Memo) : Outcome (Option SynthesizedClass) :=
  match base with
  | none => (.ok none, memo)
  | some id =>
    match synthesize source visiting id memo with
    | (.error e, memo) => (.error e, memo)
    | (.ok parent, memo) =>
      if parent.kind = .interface then (.ok (some parent), memo)
      else (.error (.synthesis owner ("superclass " ++ parent.name ++ " is not a class")), memo)
  termination_by (source.metadata.untouched visiting, 1)

-- Each one has to be a protocol.
def buildProtocols (source : Source) (visiting : List DescriptorId) (owner : String)
    (ids : List DescriptorId) (memo : Memo) : Outcome (List SynthesizedClass) :=
  match ids with
  | [] => (.ok [], memo)
  | id :: rest =>
    match synthesize source visiting id memo with
    | (.error e, memo) => (.error e, memo)
    | (.ok c, memo) =>
      if c.kind = .protocol then
        match buildProtocols source visiting owner rest memo with
        | (.error e, memo) => (.error e, memo)
        | (.ok others, memo) => (.ok (c :: others), memo)
      else (.error (.synthesis owner (c.name ++ " is not a protocol")), memo)
  termination_by (source.metadata.untouched visiting, ids.length + 1)

end

def classOf (source : Source) (id : DescriptorId) (memo : Memo) : Outcome SynthesizedClass :=
  synthesize source [] id memo

def classNamed (source : Source) (name : String) (memo : Memo) : Outcome SynthesizedClass :=
  match source.metadata.resolve? name with
  | some (id, _) => classOf source id memo
  | none => (.error (.notFound "metadata" name), memo)

def describedBy (m : Metadata) (name : String) : Option DescriptorId :=
  match m.resolve? name with
  | some (id, .interface ..) => some id
  | _ => none

-- The class of the nearest native class of an instance that is described; without one, the class
-- of the declared type.
def classOfInstance (source : Source) (heap : Heap) (a : Address)
    (declared : Option DescriptorId) (memo : Memo) : Outcome SynthesizedClass :=
  let chain := ((heap.classOf? a).map source.natives.chain).getD []
  match chain.findSome? fun (_, c) => describedBy source.metadata c.name with
  | some id => classOf source id memo
  | none =>
    match declared with
    | some id => classOf source id memo
    | none => (.error (.notFound "metadata" ("class of instance " ++ a.text)), memo)

end Synthesis

end ObjectBridge
