import Mathlib.Algebra.Group.Nat.Defs
import ObjectBridge.Proofs.Native.Heap

namespace ObjectBridge

inductive HeapAct where
  | allocate (cls : ClassId) (place : Option Address)
  | retain (a : Address)
  | release (a : Address)
  | releaseInstance (a : Address) (serial : Nat)

namespace HeapAct

def allocates : HeapAct → Bool
  | .allocate .. => true
  | _ => false

def perform (h : Heap) : HeapAct → Heap
  | .allocate cls place => (h.allocate cls place).2
  | .retain a => (h.retain a).2
  | .release a => (h.release a).heap
  | .releaseInstance a serial => (h.releaseInstance a serial).heap

-- The instance that the act retains, told by its serial.
def retains (h : Heap) : HeapAct → List Nat
  | .retain a => (h.serial? a).toList
  | _ => []

-- The instance that the act releases. Which one is meant does not depend on what becomes of it.
def releases (h : Heap) : HeapAct → List Nat
  | .release a => (h.serial? a).toList
  | .releaseInstance a serial => if h.serial? a = some serial then [serial] else []
  | _ => []

end HeapAct

-- Counts are kept in words of 32 bits.
def greatestCount : Nat := 4294967295

theorem Instance.count_le (i : Instance) : i.count ≤ greatestCount := Nat.le_of_lt_succ i.word.toNat_lt

theorem Instance.count_more {i : Instance} (room : i.count ≠ greatestCount) : i.retained.count = i.count+1 := by
  have below := Nat.lt_of_le_of_ne i.count_le room
  exact i.count_retained.trans (Nat.mod_eq_of_lt (Nat.succ_lt_succ below))

-- A retain must not find the greatest count.
def HeapAct.Permitted (h : Heap) : HeapAct → Prop
  | .retain a => ∀ i, h.get? a = some i → i.count ≠ greatestCount
  | _ => True

namespace Heap

variable {h : Heap} {a b : Address} {i : Instance}

theorem get?_retain (h : Heap) (a b : Address) :
    (h.retain a).2.get? b = (h.get? b).map fun i => if b = a then i.retained else i := by
  unfold retain
  cases found : h.get? a with
  | none => by_cases here : b = a <;> simp [here,found]
  | some i => by_cases here : b = a <;> simp [here,found,get?_update]

theorem allocate_lives {cls : ClassId} {place : Option Address} (found : (h.allocate cls place).2.get? b = some i) :
    (i.serial = h.nextSerial ∧ i.count = 1) ∨ h.get? b = some i := by
  rw [get?_allocate] at found
  split at found
  · cases found
    exact .inl ⟨rfl,rfl⟩
  · exact .inr found

-- Only its own address names an instance.
theorem Sound.count_serial? (sound : h.Sound) (found : h.get? b = some i) (a : Address) :
    (h.serial? a).toList.count i.serial = if b = a then 1 else 0 := by
  by_cases here : b = a
  · have serial : h.serial? a = some i.serial := serial?_eq.mpr ⟨i,here ▸ found,rfl⟩
    simp [here,serial]
  · rw [if_neg here]
    apply List.count_eq_zero_of_not_mem
    intro hit
    obtain ⟨j,there,same⟩ := serial?_eq.mp (Option.mem_toList.mp hit)
    exact here (sound.distinct b a i j found there same.symm)

-- Every instance keeps its place and its serial or is gone, and its count has moved with the hits.
structure Moves (h h' : Heap) (raised lowered : List Nat) : Prop where
  counter : h'.nextSerial = h.nextSerial
  live : ∀ n ∈ raised ++ lowered, ∃ a, h.serial? a = some n
  fate : ∀ a i, h.get? a = some i →
    (∃ j, h'.get? a = some j ∧ j.serial = i.serial ∧ 0 < j.count ∧
      j.count+lowered.count i.serial = i.count+raised.count i.serial) ∨
    (h'.get? a = none ∧ lowered.count i.serial = i.count+raised.count i.serial)
  vacant : ∀ a, h.get? a = none → h'.get? a = none

theorem Moves.back {h' : Heap} {raised lowered : List Nat} (moves : h.Moves h' raised lowered)
    (there : h'.get? b = some i) : ∃ j, h.get? b = some j ∧ i.serial = j.serial ∧ 0 < i.count ∧
      i.count+lowered.count j.serial = j.count+raised.count j.serial := by
  cases old : h.get? b with
  | none =>
    rw [moves.vacant b old] at there
    cases there
  | some j =>
    rcases moves.fate b j old with ⟨k,still,rest⟩ | ⟨gone,_⟩
    · cases there.symm.trans still
      exact ⟨j,rfl,rest⟩
    · rw [gone] at there
      cases there

end Heap

-- Beside the instances: every retain and every release that hit one, by its serial. Nothing that an act
-- does depends on these.
structure Population where
  heap : Heap
  retained : List Nat
  released : List Nat

namespace Population

def start : Population := ⟨.empty,[],[]⟩

def advance (p : Population) (act : HeapAct) : Population :=
  ⟨act.perform p.heap,p.retained ++ act.retains p.heap,p.released ++ act.releases p.heap⟩

-- The latest act stands first.
inductive Runs : List HeapAct → Population → Prop where
  | start : Runs [] start
  | step {acts : List HeapAct} {p : Population} (act : HeapAct) (before : Runs acts p)
      (permitted : act.Permitted p.heap) : Runs (act :: acts) (p.advance act)

-- The one reference that an instance is born with, and what was added and taken since.
def references (p : Population) (n : Nat) : Int := 1 + p.retained.count n - p.released.count n

structure Accounted (p : Population) : Prop where
  sound : p.heap.Sound
  known : ∀ n ∈ p.retained ++ p.released, n < p.heap.nextSerial
  counted : ∀ a i, p.heap.get? a = some i → i.count = p.references i.serial
  spent : ∀ n, 0 < n → n < p.heap.nextSerial → (∀ a, p.heap.serial? a ≠ some n) → p.references n = 0
  referred : ∀ a i, p.heap.get? a = some i → 0 < i.count

variable {p : Population} {acts : List HeapAct} {act : HeapAct} {a : Address} {i : Instance}

theorem start_accounted : start.Accounted where
  sound := Heap.empty_sound
  known := by simp [start]
  counted := by simp [start,Heap.get?,Heap.empty,Table.get?_empty]
  spent := by
    intro n positive below
    change n < 1 at below
    omega
  referred := by simp [start,Heap.get?,Heap.empty,Table.get?_empty]

-- The next serial was never hit.
theorem Accounted.references_next (accounted : p.Accounted) : p.references p.heap.nextSerial = 1 := by
  have never (hits : List Nat) (among : ∀ n ∈ hits, n ∈ p.retained ++ p.released) :
      hits.count p.heap.nextSerial = 0 := by
    apply List.count_eq_zero_of_not_mem
    intro hit
    exact Nat.lt_irrefl _ (accounted.known _ (among _ hit))
  have first := never p.retained fun _ => List.mem_append_left _
  have second := never p.released fun _ => List.mem_append_right _
  simp [references,first,second]

-- The newcomer lives at an address that was free.
theorem Accounted.allocate (accounted : p.Accounted) (cls : ClassId) (place : Option Address) :
    (p.advance (.allocate cls place)).Accounted := by
  have unhit := accounted.references_next
  obtain ⟨sound,known,counted,spent,referred⟩ := accounted
  have same (n : Nat) : (p.advance (.allocate cls place)).references n = p.references n := by
    simp [references,advance,HeapAct.retains,HeapAct.releases]
  constructor
  · exact Heap.allocate_sound sound cls place
  · intro n hit
    have old : n ∈ p.retained ++ p.released := by simpa [advance,HeapAct.retains,HeapAct.releases] using hit
    exact Nat.lt_succ_of_lt (known n old)
  · intro b j found
    rw [same]
    rcases Heap.allocate_lives found with ⟨serial,count⟩ | old
    · rw [serial,count,unhit]
      rfl
    · exact counted b j old
  · intro n positive below absent
    rw [same]
    change n < p.heap.nextSerial+1 at below
    change ∀ b, (p.heap.allocate cls place).2.serial? b ≠ some n at absent
    have free := (Heap.nextAddress_free sound place).1
    apply spent n positive
    · have newest := absent (p.heap.nextAddress place)
      rw [Heap.serial?_allocate,if_pos rfl] at newest
      have different : n ≠ p.heap.nextSerial := fun same => newest (same ▸ rfl)
      omega
    · intro b live
      apply absent b
      rw [Heap.serial?_allocate,if_neg,live]
      intro here
      rw [here,Heap.serial?,free] at live
      cases live
  · intro b j found
    rcases Heap.allocate_lives found with ⟨_,count⟩ | old
    · rw [count]
      decide
    · exact referred b j old

theorem Accounted.hit {after : Heap} {raised lowered : List Nat} (accounted : p.Accounted) (sound : after.Sound)
    (moves : p.heap.Moves after raised lowered) :
    Accounted ⟨after,p.retained ++ raised,p.released ++ lowered⟩ := by
  have counted := accounted.counted
  have moved (n : Nat) : references ⟨after,p.retained ++ raised,p.released ++ lowered⟩ n =
      p.references n+raised.count n-lowered.count n := by
    simp only [references,List.count_append]
    omega
  constructor
  · exact sound
  · intro n hit
    change n < after.nextSerial
    rw [moves.counter]
    have split : n ∈ p.retained ++ p.released ∨ n ∈ raised ++ lowered := by
      simp only [List.mem_append] at hit ⊢
      tauto
    rcases split with old | new
    · exact accounted.known n old
    · obtain ⟨b,living⟩ := moves.live n new
      obtain ⟨k,found,rfl⟩ := Heap.serial?_eq.mp living
      exact (accounted.sound.serials b k found).2
  · intro b j there
    obtain ⟨k,old,serial,_,count⟩ := moves.back there
    have first := counted b k old
    rw [moved,serial]
    omega
  · intro n positive below absent
    change n < after.nextSerial at below
    rw [moves.counter] at below
    rw [moved]
    by_cases lived : ∃ b, p.heap.serial? b = some n
    · obtain ⟨b,living⟩ := lived
      obtain ⟨k,found,rfl⟩ := Heap.serial?_eq.mp living
      rcases moves.fate b k found with ⟨l,still,serial,_⟩ | ⟨_,count⟩
      · exact absurd (Heap.serial?_eq.mpr ⟨l,still,serial⟩) (absent b)
      · have first := counted b k found
        omega
    · have unhit : n ∉ raised ++ lowered := fun hit => lived (moves.live n hit)
      rw [List.mem_append,not_or] at unhit
      have idle := accounted.spent n positive below fun b living => lived ⟨b,living⟩
      rw [List.count_eq_zero_of_not_mem unhit.1,List.count_eq_zero_of_not_mem unhit.2]
      omega
  · intro b j there
    obtain ⟨_,_,_,positive,_⟩ := moves.back there
    exact positive

theorem Accounted.retain_moves (accounted : p.Accounted) (permitted : (HeapAct.retain a).Permitted p.heap) :
    p.heap.Moves (p.heap.retain a).2 (p.heap.serial? a).toList [] := by
  constructor
  · exact (Heap.retain_keeps accounted.sound a).counter
  · intro n hit
    rw [List.append_nil,Option.mem_toList] at hit
    exact ⟨a,hit⟩
  · intro b i found
    have there := Heap.get?_retain p.heap a b
    rw [found,Option.map_some] at there
    have once := accounted.sound.count_serial? found a
    refine .inl ⟨_,there,?_⟩
    rw [List.count_nil,once]
    by_cases here : b = a
    · have more := Instance.count_more (permitted i (here ▸ found))
      rw [if_pos here,if_pos here]
      exact ⟨rfl,more ▸ Nat.succ_pos _,more⟩
    · rw [if_neg here,if_neg here]
      exact ⟨rfl,accounted.referred b i found,rfl⟩
  · intro b none
    rw [Heap.get?_retain,none]
    rfl

theorem Accounted.gives {after : Heap} {freed returned : List Nat} (accounted : p.Accounted)
    (gives : p.heap.Gives freed after returned) : Accounted ⟨after,p.retained ++ [],p.released ++ returned⟩ := by
  have shrinks := gives.shrinks
  refine accounted.hit gives.sound ⟨shrinks.counter,shrinks.live,?_,shrinks.vacant⟩
  intro b i found
  apply (shrinks.fate b i found).imp
  · intro ⟨j,there,serial,count,lives⟩
    exact ⟨j,there,serial,lives (accounted.referred b i found),count⟩
  · intro ⟨gone,count,_⟩
    exact ⟨gone,count⟩

theorem Accounted.advance (accounted : p.Accounted) (permitted : act.Permitted p.heap) : (p.advance act).Accounted := by
  cases act with
  | allocate cls place => exact accounted.allocate cls place
  | retain a =>
    have moves := accounted.retain_moves permitted
    exact accounted.hit (Heap.retain_keeps accounted.sound a).sound moves
  | release a =>
    have gives := Heap.release_gives accounted.sound a
    rw [Heap.loses_eq (accounted.referred a)] at gives
    exact accounted.gives gives
  | releaseInstance a serial =>
    have gives := Heap.releaseInstance_gives accounted.sound a serial
    rw [Heap.lowered_eq (accounted.referred a)] at gives
    exact accounted.gives gives

theorem Runs.accounted (runs : Runs acts p) : p.Accounted := by
  induction runs with
  | start => exact start_accounted
  | step act before permitted ih => exact ih.advance permitted

theorem Runs.counter (runs : Runs acts p) : p.heap.nextSerial = acts.countP HeapAct.allocates+1 := by
  induction runs with
  | start => rfl
  | @step acts p act before permitted ih =>
    have sound := before.accounted.sound
    rw [List.countP_cons,Nat.add_right_comm,← ih]
    cases act with
    | allocate cls place => rfl
    | retain a => exact (Heap.retain_keeps sound a).counter
    | release a => exact (Heap.release_gives sound a).shrinks.counter
    | releaseInstance a serial => exact (Heap.releaseInstance_gives sound a serial).shrinks.counter

theorem Accounted.present_iff (accounted : p.Accounted) {n : Nat} (positive : 0 < n) (below : n < p.heap.nextSerial) :
    0 ≤ p.references n ∧ ((∃ a, p.heap.serial? a = some n) ↔ 1 ≤ p.references n) := by
  by_cases lives : ∃ a, p.heap.serial? a = some n
  · obtain ⟨a,live⟩ := lives
    obtain ⟨i,found,rfl⟩ := Heap.serial?_eq.mp live
    have counted := accounted.counted a i found
    have referred := accounted.referred a i found
    refine ⟨by omega,fun _ => by omega,fun _ => ⟨a,live⟩⟩
  · have spent := accounted.spent n positive below fun a live => lives ⟨a,live⟩
    refine ⟨by omega,fun live => absurd live lives,fun some => by omega⟩

-- The instance at hand loses one reference, be it released by its serial or not.
theorem Accounted.lowers (accounted : p.Accounted) (act : HeapAct) (found : p.heap.get? a = some i)
    (lowers : act.perform p.heap = (p.heap.lower a i).heap) (kept : act.retains p.heap = [])
    (hit : act.releases p.heap = [i.serial]) :
    ((p.heap.lower a i).outcome = .destroyed ↔ (p.advance act).references i.serial = 0) ∧
    ((p.heap.lower a i).outcome = .destroyed → (p.advance act).heap.isLive a = false) := by
  have left : (p.advance act).references i.serial = p.references i.serial-1 := by
    simp only [references,Population.advance,kept,hit,List.append_nil,List.count_append,List.count_singleton_self]
    omega
  have counted := accounted.counted a i found
  rw [left,Population.advance,lowers]
  have referred := accounted.referred a i found
  rcases Heap.lower_cases p.heap a i with ⟨none,_⟩ | ⟨one,gone⟩ | ⟨n,more,_,stays⟩
  · omega
  · rw [gone]
    refine ⟨⟨fun _ => by omega,fun _ => rfl⟩,fun _ => ?_⟩
    exact congrArg Option.isSome (Table.get?_erase_self p.heap.objects a)
  · rw [stays]
    refine ⟨⟨nofun,fun none => ?_⟩,nofun⟩
    omega

theorem Accounted.release_ends (accounted : p.Accounted) (a : Address) :
    ((p.heap.release a).outcome = .destroyed ↔
      ∃ n, p.heap.serial? a = some n ∧ (p.advance (.release a)).references n = 0) ∧
    ((p.heap.release a).outcome = .destroyed → (p.advance (.release a)).heap.isLive a = false) := by
  cases found : p.heap.get? a with
  | none => simp [Heap.release,Heap.serial?,found]
  | some i =>
    have serial : p.heap.serial? a = some i.serial := Heap.serial?_eq.mpr ⟨i,found,rfl⟩
    have does : p.heap.release a = p.heap.lower a i := by rw [Heap.release,found]
    obtain ⟨ends,dead⟩ := accounted.lowers (.release a) found (congrArg Heap.Released.heap does) rfl
      (by simp [HeapAct.releases,serial])
    rw [does]
    refine ⟨?_,dead⟩
    simpa [serial] using ends

theorem Accounted.releaseInstance_ends (accounted : p.Accounted) (a : Address) (n : Nat) :
    ((p.heap.releaseInstance a n).outcome = .destroyed ↔
      p.heap.serial? a = some n ∧ (p.advance (.releaseInstance a n)).references n = 0) ∧
    ((p.heap.releaseInstance a n).outcome = .destroyed → (p.advance (.releaseInstance a n)).heap.isLive a = false) := by
  rcases Heap.releaseInstance_cases p.heap a n with ⟨i,found,rfl,does⟩ | ⟨other,does⟩
  · have serial : p.heap.serial? a = some i.serial := Heap.serial?_eq.mpr ⟨i,found,rfl⟩
    obtain ⟨ends,dead⟩ := accounted.lowers (.releaseInstance a i.serial) found (congrArg Heap.Released.heap does) rfl
      (by simp [HeapAct.releases,serial])
    rw [does]
    refine ⟨?_,dead⟩
    simpa [serial] using ends
  · simp [does,other]

theorem dead_untouched {h : Heap} (dead : h.isLive a = false) :
    h.retain a = (false,h) ∧ h.release a = ⟨.notLive,[],h⟩ := by
  have none : h.get? a = none := by simpa [Heap.isLive,Table.contains,Heap.get?] using dead
  simp [Heap.retain,Heap.release,none]

theorem stranger_untouched {h : Heap} {n : Nat} (other : h.serial? a ≠ some n) :
    h.releaseInstance a n = ⟨.notLive,[],h⟩ := by
  rcases Heap.releaseInstance_cases h a n with ⟨i,found,same,_⟩ | ⟨_,does⟩
  · exact absurd (Heap.serial?_eq.mpr ⟨i,found,same⟩) other
  · exact does

-- Serials are never given twice, counts say what was retained and not released, and only the release of
-- the last reference ends a life. Neither serials nor counts leave their words.
theorem instances_accounted (runs : Runs acts p) (few : acts.countP HeapAct.allocates < 2^64) :
    (∀ a i, p.heap.get? a = some i → 1 ≤ i.serial ∧ i.serial < p.heap.nextSerial ∧ i.serial < 2^64) ∧
    (∀ a b i j, p.heap.get? a = some i → p.heap.get? b = some j → i.serial = j.serial → a = b) ∧
    (∀ a i, p.heap.get? a = some i → i.count = p.references i.serial ∧ i.count ≤ greatestCount) ∧
    (∀ n, 1 ≤ n → n < p.heap.nextSerial →
      0 ≤ p.references n ∧ ((∃ a, p.heap.serial? a = some n) ↔ 1 ≤ p.references n)) ∧
    (∀ a, ((p.heap.release a).outcome = .destroyed ↔
        ∃ n, p.heap.serial? a = some n ∧ (p.advance (.release a)).references n = 0) ∧
      ((p.heap.release a).outcome = .destroyed → (p.advance (.release a)).heap.isLive a = false)) ∧
    (∀ a n, ((p.heap.releaseInstance a n).outcome = .destroyed ↔
        p.heap.serial? a = some n ∧ (p.advance (.releaseInstance a n)).references n = 0) ∧
      ((p.heap.releaseInstance a n).outcome = .destroyed → (p.advance (.releaseInstance a n)).heap.isLive a = false)) ∧
    (∀ a, p.heap.isLive a = false → p.heap.retain a = (false,p.heap) ∧ p.heap.release a = ⟨.notLive,[],p.heap⟩) ∧
    ∀ a n, p.heap.serial? a ≠ some n → p.heap.releaseInstance a n = ⟨.notLive,[],p.heap⟩ := by
  have accounted := runs.accounted
  refine ⟨?_,accounted.sound.distinct,?_,?_,accounted.release_ends,accounted.releaseInstance_ends,?_,?_⟩
  · intro a i found
    obtain ⟨positive,below⟩ := accounted.sound.serials a i found
    have counter := runs.counter
    exact ⟨positive,below,by omega⟩
  · intro a i found
    exact ⟨accounted.counted a i found,i.count_le⟩
  · intro n positive below
    exact accounted.present_iff positive below
  · intro a dead
    exact dead_untouched dead
  · intro a n other
    exact stranger_untouched other

-- An instance is retained and dies of its second release. Whoever remembers it by its serial can do
-- nothing to the next one at its address.
theorem newcomer_spared : ∃ p,
    Runs [.allocate ⟨0⟩ (some ⟨0x1000⟩),.release ⟨0x1000⟩,.releaseInstance ⟨0x1000⟩ 1,.retain ⟨0x1000⟩,.allocate ⟨0⟩ none] p ∧
    p.references 1 = 0 ∧ p.references 2 = 1 ∧ p.heap.serial? ⟨0x1000⟩ = some 2 ∧
    p.heap.releaseInstance ⟨0x1000⟩ 1 = ⟨.notLive,[],p.heap⟩ := by
  have retained : ∀ i, (Heap.empty.allocate ⟨0⟩ none).2.get? ⟨0x1000⟩ = some i → i.count ≠ greatestCount := by
    intro i found
    cases found
    decide
  have runs := Runs.start.step (.allocate ⟨0⟩ none) trivial |>.step (.retain ⟨0x1000⟩) retained
    |>.step (.releaseInstance ⟨0x1000⟩ 1) trivial |>.step (.release ⟨0x1000⟩) trivial
    |>.step (.allocate ⟨0⟩ (some ⟨0x1000⟩)) trivial
  obtain ⟨_,_,_,_,_,_,_,stranger⟩ := instances_accounted runs (by decide)
  exact ⟨_,runs,rfl,rfl,rfl,stranger ⟨0x1000⟩ 1 (by decide)⟩

end Population

end ObjectBridge
