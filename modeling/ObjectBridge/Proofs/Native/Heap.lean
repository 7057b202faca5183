import Mathlib.Data.List.Perm.Basic
import ObjectBridge.Native.Heap
import ObjectBridge.Proofs.Table

namespace ObjectBridge

instance : IsStrictTotalOrder Address (· < ·) where
  irrefl a := Nat.lt_irrefl a.value
  trans _ _ _ := Nat.lt_trans
  trichotomous a b := by
    intro notLess notMore
    have same : a.value = b.value := Nat.le_antisymm (Nat.not_lt.mp notMore) (Nat.not_lt.mp notLess)
    cases a; cases b; simp_all

namespace Instance

variable {i : Instance}

theorem count_retained (i : Instance) : i.retained.count = (i.count+1) % UInt32.size := UInt32.toNat_add i.word 1

theorem count_lowered (positive : 0 < i.count) : i.lowered.count = i.count-1 :=
  UInt32.toNat_sub_of_le i.word 1 (UInt32.le_iff_toNat_le.mpr positive)

-- What a release takes of an instance, told by its serial: one reference, unless the count has come
-- round to zero.
def loses (i : Instance) : List Nat := if i.count = 0 then [] else [i.serial]

theorem loses_counted (positive : 0 < i.count) : i.loses = [i.serial] := if_neg (Nat.ne_of_gt positive)

end Instance

namespace Heap

-- The handles that the variables of live instances keep.
def kept (h : Heap) : List Nat := h.objects.values.flatMap (·.keeps)

def without (h : Heap) (a : Address) : Heap := { h with objects := h.objects.erase a }

structure Sound (h : Heap) : Prop where
  sorted : h.objects.Sorted
  numbered : 0 < h.nextSerial
  serials : ∀ a i, h.get? a = some i → 0 < i.serial ∧ i.serial < h.nextSerial
  places : ∀ a i, h.get? a = some i → a.value < (freshAddress h.nextSerial).value
  distinct : ∀ a b i j, h.get? a = some i → h.get? b = some j → i.serial = j.serial → a = b

-- Every instance has lost one reference for each time that its serial was returned, and is gone
-- exactly if that was all it had. Other instances are untouched, also one that lives where another
-- lived before, and none is new.
structure Shrinks (h after : Heap) (returned : List Nat) : Prop where
  counter : after.nextSerial = h.nextSerial
  fate : ∀ a i, h.get? a = some i →
    (∃ j, after.get? a = some j ∧ j.serial = i.serial ∧ j.count+returned.count i.serial = i.count ∧
      (0 < i.count → 0 < j.count)) ∨
        (after.get? a = none ∧ returned.count i.serial = i.count ∧ 0 < i.count)
  vacant : ∀ a, h.get? a = none → after.get? a = none
  live : ∀ n ∈ returned, ∃ a, h.serial? a = some n

variable {h after : Heap} {a b : Address} {i j : Instance}

theorem serial?_eq {n : Nat} : h.serial? a = some n ↔ ∃ i, h.get? a = some i ∧ i.serial = n :=
  Option.map_eq_some_iff

-- A wrapper of an address without instance gets the serial zero, which no instance has.
theorem Sound.default_below (sound : h.Sound) (a : Address) : (h.serial? a).getD 0 < h.nextSerial := by
  cases live : h.serial? a with
  | none => exact sound.numbered
  | some n =>
    obtain ⟨i,found,rfl⟩ := serial?_eq.mp live
    exact (sound.serials a i found).2

theorem Sound.default_place {a b : Address} (sound : h.Sound) (live : h.serial? b = some ((h.serial? a).getD 0)) :
    b = a := by
  obtain ⟨j,there,same⟩ := serial?_eq.mp live
  cases current : h.serial? a with
  | none =>
    rw [current] at same
    have positive := (sound.serials b j there).1
    exact absurd same (Nat.ne_of_gt positive)
  | some n =>
    obtain ⟨i,found,serial⟩ := serial?_eq.mp current
    rw [current] at same
    exact sound.distinct b a j i there found (same.trans serial.symm)

theorem get?_update : (h.update a j).get? b = if b = a then some j else h.get? b :=
  Table.get?_put _ _ _ _

theorem get?_without : (h.without a).get? b = if b = a then none else h.get? b :=
  Table.get?_erase _ _ _

theorem empty_sound : Heap.empty.Sound where
  sorted := Table.empty_sorted
  numbered := by decide
  serials _ _ found := by cases found
  places _ _ found := by cases found
  distinct _ _ _ _ found := by cases found

theorem Sound.update (sound : h.Sound) (found : h.get? a = some i) (same : j.serial = i.serial) :
    (h.update a j).Sound := by
  have before : ∀ b k, (h.update a j).get? b = some k → ∃ k', h.get? b = some k' ∧ k'.serial = k.serial := by
    intro b k there
    rw [get?_update] at there
    split at there
    · rename_i here
      cases there
      exact ⟨i,here ▸ found,same.symm⟩
    · exact ⟨k,there,rfl⟩
  refine ⟨Table.put_sorted _ _ _ sound.sorted,sound.numbered,?_,?_,?_⟩
  · intro b k there
    obtain ⟨k',old,serial⟩ := before b k there
    exact serial ▸ sound.serials b k' old
  · intro b k there
    obtain ⟨k',old,_⟩ := before b k there
    exact sound.places b k' old
  · intro b c k l one two equal
    obtain ⟨k',oldOne,serialOne⟩ := before b k one
    obtain ⟨l',oldTwo,serialTwo⟩ := before c l two
    exact sound.distinct b c k' l' oldOne oldTwo (by rw [serialOne,serialTwo,equal])

theorem Sound.without (sound : h.Sound) (a : Address) : (h.without a).Sound := by
  have before : ∀ b k, (h.without a).get? b = some k → h.get? b = some k := by
    intro b k there
    rw [get?_without] at there
    split at there
    · cases there
    · exact there
  exact ⟨Table.erase_sorted _ _ sound.sorted,sound.numbered,
    fun b k there => sound.serials b k (before b k there),
    fun b k there => sound.places b k (before b k there),
    fun b c k l one two => sound.distinct b c k l (before b k one) (before c l two)⟩

theorem kept_perm {entries others : List (Address × Instance)} (perm : entries.Perm others) :
    ((entries.map (·.2)).flatMap (·.keeps)).Perm ((others.map (·.2)).flatMap (·.keeps)) :=
  (perm.map _).flatMap_right _

theorem Sound.kept_split (sound : h.Sound) (found : h.get? a = some i) :
    h.kept.Perm (i.keeps ++ (h.without a).kept) :=
  kept_perm (Table.perm_of_get? sound.sorted found)

theorem Sound.kept_update (sound : h.Sound) : (h.update a j).kept.Perm (j.keeps ++ (h.without a).kept) :=
  kept_perm (Table.perm_put a j sound.sorted)

theorem keptCount_eq (s : List Instance) :
    (s.map (·.keeps.length)).foldr (· + ·) 0 = (s.flatMap (·.keeps)).length := by
  induction s with
  | nil => rfl
  | cons i rest ih => simp [ih]

theorem lower_cases (h : Heap) (a : Address) (i : Instance) :
    (i.count = 0 ∧ h.lower a i = ⟨.notLive,[],h⟩) ∨
    (i.count = 1 ∧ h.lower a i = ⟨.destroyed,i.keeps,h.without a⟩) ∨
      ∃ n, i.count = n+2 ∧ i.lowered.count = n+1 ∧ h.lower a i = ⟨.released (n+1),[],h.update a i.lowered⟩ := by
  have less := Instance.count_lowered (i := i)
  unfold lower
  match count : i.count with
  | 0 => exact .inl ⟨rfl,rfl⟩
  | 1 => exact .inr (.inl ⟨rfl,rfl⟩)
  | n+2 =>
    rw [count] at less
    exact .inr (.inr ⟨n,rfl,less (Nat.succ_pos _),rfl⟩)

theorem lower_sound (sound : h.Sound) (found : h.get? a = some i) : (h.lower a i).heap.Sound := by
  rcases lower_cases h a i with ⟨_,stays⟩ | ⟨_,gone⟩ | ⟨n,_,_,left⟩
  · rw [stays]; exact sound
  · rw [gone]; exact sound.without a
  · rw [left]; exact sound.update found rfl

theorem lower_kept (sound : h.Sound) (found : h.get? a = some i) :
    h.kept.Perm ((h.lower a i).freed ++ (h.lower a i).heap.kept) := by
  rcases lower_cases h a i with ⟨_,stays⟩ | ⟨_,gone⟩ | ⟨n,_,_,left⟩
  · rw [stays]; exact .rfl
  · rw [gone]; exact sound.kept_split found
  · rw [left]
    have updated : (h.update a i.lowered).kept.Perm (i.keeps ++ (h.without a).kept) := sound.kept_update
    exact (sound.kept_split found).trans updated.symm

theorem Shrinks.refl (h : Heap) : Shrinks h h [] :=
  ⟨rfl,fun _ i found => .inl ⟨i,found,rfl,rfl,id⟩,fun _ none => none,fun _ member => nomatch member⟩

theorem lower_shrinks (sound : h.Sound) (found : h.get? a = some i) :
    Shrinks h (h.lower a i).heap i.loses := by
  have elsewhere : ∀ b k, h.get? b = some k → b ≠ a → [i.serial].count k.serial = 0 := by
    intro b k there away
    rw [List.count_eq_zero,List.mem_singleton]
    exact fun same => away (sound.distinct b a k i there found same)
  have live : ∀ n ∈ [i.serial], ∃ a, h.serial? a = some n := by
    intro n member
    exact ⟨a,serial?_eq.mpr ⟨i,found,(List.mem_singleton.mp member).symm⟩⟩
  rcases lower_cases h a i with ⟨none,stays⟩ | ⟨one,gone⟩ | ⟨n,more,less,left⟩
  · rw [stays,Instance.loses,if_pos none]
    exact .refl h
  · rw [gone,Instance.loses_counted (one ▸ Nat.one_pos)]
    refine ⟨rfl,?_,?_,live⟩
    · intro b k there
      by_cases here : b = a
      · subst here
        obtain rfl : i = k := Option.some.inj (found.symm.trans there)
        exact .inr ⟨by simp [get?_without],by simp [one]⟩
      · exact .inl ⟨k,by simp [get?_without,here,there],rfl,by rw [elsewhere b k there here,Nat.add_zero],id⟩
    · intro b none
      simp [get?_without,none]
  · rw [left,Instance.loses_counted (more ▸ Nat.succ_pos _)]
    refine ⟨rfl,?_,?_,live⟩
    · intro b k there
      by_cases here : b = a
      · subst here
        obtain rfl : i = k := Option.some.inj (found.symm.trans there)
        exact .inl ⟨i.lowered,by simp [get?_update],rfl,by simp [more,less]⟩
      · exact .inl ⟨k,by simp [get?_update,here,there],rfl,by rw [elsewhere b k there here,Nat.add_zero],id⟩
    · intro b none
      have away : b ≠ a := by rintro rfl; rw [found] at none; cases none
      simp [get?_update,away,none]

-- Serials that only came back after an instance died belong to others.
theorem Shrinks.trans {middle : Heap} {first later : List Nat} (sound : h.Sound)
    (one : Shrinks h middle first) (two : Shrinks middle after later) :
    Shrinks h after (first ++ later) := by
  have before : ∀ b k, middle.get? b = some k → ∃ k', h.get? b = some k' ∧ k'.serial = k.serial := by
    intro b k there
    cases old : h.get? b with
    | none => rw [one.vacant b old] at there; cases there
    | some k' =>
      rcases one.fate b k' old with ⟨l,same,serial,_⟩ | ⟨gone,_⟩
      · cases there.symm.trans same
        exact ⟨k',rfl,serial.symm⟩
      · rw [gone] at there; cases there
  refine ⟨two.counter.trans one.counter,?_,fun b none => two.vacant b (one.vacant b none),?_⟩
  · intro b k found
    rw [List.count_append]
    rcases one.fate b k found with ⟨l,there,serial,count,lives⟩ | ⟨gone,count,all⟩
    · rcases two.fate b l there with ⟨m,still,serial',count',lives'⟩ | ⟨gone,count',all⟩
      · rw [serial] at count' serial'
        exact .inl ⟨m,still,serial',by omega,fun positive => lives' (lives positive)⟩
      · rw [serial] at count'
        exact .inr ⟨gone,by omega,by omega⟩
    · refine .inr ⟨two.vacant b gone,?_⟩
      have absent : later.count k.serial = 0 := by
        rw [List.count_eq_zero]
        intro member
        obtain ⟨c,live⟩ := two.live _ member
        obtain ⟨l,there,same⟩ := serial?_eq.mp live
        obtain ⟨l',old,serial⟩ := before c l there
        have place := sound.distinct c b l' k old found (serial.trans same)
        rw [place,gone] at there
        cases there
      exact ⟨by omega,all⟩
  · intro n member
    rcases List.mem_append.mp member with early | late
    · exact one.live n early
    · obtain ⟨c,live⟩ := two.live n late
      obtain ⟨l,there,same⟩ := serial?_eq.mp live
      obtain ⟨l',old,serial⟩ := before c l there
      exact ⟨c,serial?_eq.mpr ⟨l',old,serial.trans same⟩⟩

theorem Shrinks.serial? (shrinks : Shrinks h after returned) (b : Address) :
    after.serial? b = none ∨ after.serial? b = h.serial? b := by
  cases old : h.get? b with
  | none => exact .inl (by simp [Heap.serial?,shrinks.vacant b old])
  | some k =>
    rcases shrinks.fate b k old with ⟨l,there,same,_⟩ | ⟨gone,_⟩
    · exact .inr (by simp [Heap.serial?,there,old,same])
    · exact .inl (by simp [Heap.serial?,gone])

theorem Shrinks.serial?_before (shrinks : Shrinks h after returned) (b : Address) {n : Nat}
    (live : after.serial? b = some n) : h.serial? b = some n := by
  rcases shrinks.serial? b with gone | same
  · cases gone.symm.trans live
  · exact same.symm.trans live

theorem Shrinks.before (shrinks : Shrinks h after returned) (there : after.get? a = some j) :
    ∃ i, h.get? a = some i ∧ j.serial = i.serial ∧ j.count ≤ i.count ∧ (0 < i.count → 0 < j.count) := by
  cases old : h.get? a with
  | none => rw [shrinks.vacant a old] at there; cases there
  | some i =>
    rcases shrinks.fate a i old with ⟨k,same,serial,count,lives⟩ | ⟨gone,_⟩
    · cases same.symm.trans there
      exact ⟨i,rfl,serial,by omega,lives⟩
    · cases gone.symm.trans there

theorem releaseInstance_cases (h : Heap) (a : Address) (serial : Nat) :
    (∃ i, h.get? a = some i ∧ i.serial = serial ∧ h.releaseInstance a serial = h.lower a i) ∨
      (h.serial? a ≠ some serial ∧ h.releaseInstance a serial = ⟨.notLive,[],h⟩) := by
  unfold releaseInstance
  cases found : h.get? a with
  | none => exact .inr ⟨by simp [Heap.serial?,found],rfl⟩
  | some i =>
    by_cases same : i.serial = serial
    · exact .inl ⟨i,rfl,same,by simp [same]⟩
    · exact .inr ⟨by simpa [Heap.serial?,found] using same,by simp [same]⟩

-- The serial that a release by serial has lowered, if any.
def lowered (h : Heap) (a : Address) (serial : Nat) : List Nat :=
  if (h.releaseInstance a serial).outcome = .notLive then [] else [serial]

theorem lowered_here (found : h.get? a = some i) : h.lowered a i.serial = i.loses := by
  have does : h.releaseInstance a i.serial = h.lower a i := by rw [releaseInstance,found]; exact if_pos rfl
  rw [lowered,does,Instance.loses]
  rcases lower_cases h a i with ⟨none,stays⟩ | ⟨one,gone⟩ | ⟨n,more,_,left⟩
  · simp [stays,none]
  · simp [gone,one]
  · simp [left,more]

theorem lowered_other {serial : Nat} (other : h.serial? a ≠ some serial) : h.lowered a serial = [] := by
  rcases releaseInstance_cases h a serial with ⟨i,found,same,_⟩ | ⟨_,does⟩
  · exact absurd (serial?_eq.mpr ⟨i,found,same⟩) other
  · rw [lowered,does]
    rfl

theorem mem_lowered {serial n : Nat} (member : n ∈ h.lowered a serial) : n = serial ∧ h.serial? a = some n := by
  by_cases live : h.serial? a = some serial
  · have here : n = serial := by
      unfold lowered at member
      split at member
      · cases member
      · exact List.mem_singleton.mp member
    exact ⟨here,here ▸ live⟩
  · rw [lowered_other live] at member
    cases member

-- What a release at an address takes.
def loses (h : Heap) (a : Address) : List Nat := ((h.get? a).map (·.loses)).getD []

theorem lowered_eq (counted : ∀ i, h.get? a = some i → 0 < i.count) (serial : Nat) :
    h.lowered a serial = if h.serial? a = some serial then [serial] else [] := by
  split
  · rename_i live
    obtain ⟨i,found,rfl⟩ := serial?_eq.mp live
    rw [lowered_here found,Instance.loses_counted (counted i found)]
  · rename_i other
    exact lowered_other other

theorem loses_eq (counted : ∀ i, h.get? a = some i → 0 < i.count) : h.loses a = (h.serial? a).toList := by
  unfold loses
  cases found : h.get? a with
  | none => simp [Heap.serial?,found]
  | some i => simp [Heap.serial?,found,Instance.loses_counted (counted i found)]

-- A release, by serial or not, as far as the rest of the heap is concerned.
structure Gives (h : Heap) (freed : List Nat) (after : Heap) (returned : List Nat) : Prop where
  sound : after.Sound
  kept : h.kept.Perm (freed ++ after.kept)
  shrinks : Shrinks h after returned

-- Everything that is there has references, apart from what is excepted.
def Counted (h : Heap) (except : Nat → Prop) : Prop := ∀ a i, h.get? a = some i → ¬except i.serial → 0 < i.count

theorem lower_gives (sound : h.Sound) (found : h.get? a = some i) :
    Gives h (h.lower a i).freed (h.lower a i).heap i.loses :=
  ⟨lower_sound sound found,lower_kept sound found,lower_shrinks sound found⟩

-- What has its references still has them among those that are left.
theorem Gives.counted {freed : List Nat} {except : Nat → Prop} (gives : Gives h freed after returned)
    (counted : h.Counted except) : after.Counted except := by
  intro a j there fair
  obtain ⟨i,before,same,_,lives⟩ := gives.shrinks.before there
  exact lives (counted a i before (same ▸ fair))

theorem Gives.nothing (sound : h.Sound) : Gives h [] h [] := ⟨sound,.rfl,.refl h⟩

theorem releaseInstance_gives (sound : h.Sound) (a : Address) (serial : Nat) :
    Gives h (h.releaseInstance a serial).freed (h.releaseInstance a serial).heap (h.lowered a serial) := by
  rcases releaseInstance_cases h a serial with ⟨i,found,rfl,does⟩ | ⟨other,does⟩
  · rw [does,lowered_here found]
    exact lower_gives sound found
  · rw [does,lowered_other other]
    exact .nothing sound

theorem release_gives (sound : h.Sound) (a : Address) :
    Gives h (h.release a).freed (h.release a).heap (h.loses a) := by
  unfold release loses
  cases found : h.get? a with
  | none => exact .nothing sound
  | some i => exact lower_gives sound found

-- Variables that are written over let go of handles, and the instance lives on.
theorem update_gives {freed : List Nat} (sound : h.Sound) (found : h.get? a = some i) (serial : j.serial = i.serial)
    (count : j.count = i.count) (keeps : i.keeps.Perm (freed ++ j.keeps)) : Gives h freed (h.update a j) [] where
  sound := sound.update found serial
  kept := by
    have updated : (h.update a j).kept.Perm (j.keeps ++ (h.without a).kept) := sound.kept_update
    have split := (sound.kept_split found).trans (keeps.append_right _)
    rw [List.append_assoc] at split
    exact split.trans (updated.symm.append_left freed)
  shrinks := by
    refine ⟨rfl,fun b k there => .inl ?_,fun b none => ?_,fun _ member => nomatch member⟩
    · by_cases here : b = a
      · subst here
        obtain rfl : i = k := Option.some.inj (found.symm.trans there)
        exact ⟨j,by rw [get?_update,if_pos rfl],serial,count,fun counted => count.symm ▸ counted⟩
      · exact ⟨k,by rw [get?_update,if_neg here,there],rfl,rfl,id⟩
    · have away : b ≠ a := by rintro rfl; rw [found] at none; cases none
      rw [get?_update,if_neg away,none]

theorem serial?_update (found : h.get? a = some i) (same : j.serial = i.serial) (b : Address) :
    (h.update a j).serial? b = h.serial? b := by
  by_cases here : b = a
  · subst here; simp [Heap.serial?,get?_update,found,same]
  · simp [Heap.serial?,get?_update,here]

theorem nextAddress_free (sound : h.Sound) (place : Option Address) :
    h.get? (h.nextAddress place) = none ∧
      (h.nextAddress place).value < (freshAddress (h.nextSerial+1)).value := by
  have fresh : h.get? (freshAddress h.nextSerial) = none ∧
      (freshAddress h.nextSerial).value < (freshAddress (h.nextSerial+1)).value := by
    refine ⟨?_,by simp only [freshAddress]; omega⟩
    cases found : h.get? (freshAddress h.nextSerial) with
    | none => rfl
    | some i => exact absurd (sound.places _ i found) (Nat.lt_irrefl _)
  unfold nextAddress
  split
  · rename_i a
    split
    · rename_i vacant
      obtain ⟨_,below,free⟩ := vacant
      refine ⟨?_,Nat.lt_trans below fresh.2⟩
      change h.objects.get? _ = none
      simpa [isLive,Table.contains] using free
    · exact fresh
  · exact fresh

theorem get?_allocate (cls : ClassId) (place : Option Address) (b : Address) :
    (h.allocate cls place).2.get? b =
      if b = h.nextAddress place then some ⟨cls,h.nextSerial,1,Table.empty,[]⟩ else h.get? b :=
  Table.get?_put _ _ _ _

theorem allocate_sound (sound : h.Sound) (cls : ClassId) (place : Option Address) :
    (h.allocate cls place).2.Sound := by
  obtain ⟨free,below⟩ := nextAddress_free sound place
  have cases : ∀ b k, (h.allocate cls place).2.get? b = some k →
      (b = h.nextAddress place ∧ k.serial = h.nextSerial) ∨ h.get? b = some k := by
    intro b k there
    rw [get?_allocate] at there
    split at there
    · rename_i here; cases there; exact .inl ⟨here,rfl⟩
    · exact .inr there
  refine ⟨Table.put_sorted _ _ _ sound.sorted,Nat.succ_pos _,?_,?_,?_⟩
  · intro b k there
    change 0 < k.serial ∧ k.serial < h.nextSerial+1
    rcases cases b k there with ⟨_,serial⟩ | old
    · have := sound.numbered; omega
    · have := sound.serials b k old; omega
  · intro b k there
    change b.value < (freshAddress (h.nextSerial+1)).value
    rcases cases b k there with ⟨rfl,_⟩ | old
    · exact below
    · have := sound.places b k old
      simp only [freshAddress] at this ⊢
      omega
  · intro b c k l one two same
    rcases cases b k one with ⟨rfl,serialOne⟩ | oldOne <;> rcases cases c l two with ⟨rfl,serialTwo⟩ | oldTwo
    · rfl
    · have := (sound.serials c l oldTwo).2; omega
    · have := (sound.serials b k oldOne).2; omega
    · exact sound.distinct b c k l oldOne oldTwo same

theorem allocate_kept (sound : h.Sound) (cls : ClassId) (place : Option Address) :
    (h.allocate cls place).2.kept.Perm h.kept := by
  have same := Table.erase_of_get?_none (nextAddress_free sound place).1
  have split := kept_perm (Table.perm_put (h.nextAddress place) ⟨cls,h.nextSerial,1,Table.empty,[]⟩ sound.sorted)
  rw [same] at split
  exact split

theorem serial?_allocate (cls : ClassId) (place : Option Address) (b : Address) :
    (h.allocate cls place).2.serial? b =
      if b = h.nextAddress place then some h.nextSerial else h.serial? b := by
  rw [Heap.serial?,get?_allocate]
  split <;> rfl

-- Neither retaining an instance nor handing its variables a wrapper tells it from what it was.
structure Keeps (h after : Heap) (taken : List Nat) : Prop where
  sound : after.Sound
  kept : after.kept.Perm (taken ++ h.kept)
  serial? : ∀ b, after.serial? b = h.serial? b
  counter : after.nextSerial = h.nextSerial

theorem update_keeps (sound : h.Sound) (found : h.get? a = some i) (same : j.serial = i.serial)
    (more : j.keeps = i.keeps ++ taken) : Keeps h (h.update a j) taken where
  sound := sound.update found same
  kept := by
    have updated : (h.update a j).kept.Perm (j.keeps ++ (h.without a).kept) := sound.kept_update
    rw [more] at updated
    have before := (sound.kept_split found).append_left taken
    refine (updated.trans ?_).trans before.symm
    rw [← List.append_assoc]
    exact List.perm_append_comm.append_right _
  serial? := serial?_update found same
  counter := rfl

theorem retain_keeps (sound : h.Sound) (a : Address) : Keeps h (h.retain a).2 [] := by
  unfold retain
  cases found : h.get? a with
  | none => exact ⟨sound,.rfl,fun _ => rfl,rfl⟩
  | some i => exact update_keeps sound found rfl (List.append_nil _).symm

theorem setVariable_keeps (sound : h.Sound) (a : Address) (name : String) (value : NativeValue) :
    Keeps h (h.setVariable a name value).2 [] := by
  unfold setVariable
  cases found : h.get? a with
  | none => exact ⟨sound,.rfl,fun _ => rfl,rfl⟩
  | some i => exact update_keeps sound found rfl (List.append_nil _).symm

theorem setVariable_sound (sound : h.Sound) (a : Address) (name : String) (value : NativeValue) :
    (h.setVariable a name value).2.Sound := (setVariable_keeps sound a name value).sound

end Heap
end ObjectBridge
