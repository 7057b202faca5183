import Mathlib.Order.RelClasses
import ObjectBridge.Table

namespace ObjectBridge.Table

variable {κ : Type} {α : Type u}

def Sorted [LT κ] (t : Table κ α) : Prop := t.entries.Pairwise fun x y => x.1 < y.1

theorem empty_sorted [LT κ] : (Table.empty : Table κ α).Sorted := .nil

section Keys
variable [DecidableEq κ]

theorem get?_empty (key : κ) : (empty : Table κ α).get? key = none := rfl

theorem get?_erase (t : Table κ α) (key other : κ) :
    (t.erase key).get? other = if other = key then none else t.get? other := by
  split
  · rename_i same; rw [same,get?_erase_self]
  · rename_i different; exact get?_erase_ne t different

theorem erase_of_get?_none {t : Table κ α} {key : κ} (absent : t.get? key = none) : t.erase key = t := by
  obtain ⟨entries⟩ := t
  simp only [erase,mk.injEq]
  rw [List.filter_eq_self]
  intro x member
  have other := List.lookup_eq_none_iff.mp absent x member
  simpa using Ne.symm (ne_of_beq_false (by simpa using other))

theorem erase_sorted [LT κ] (t : Table κ α) (key : κ) (sorted : t.Sorted) : (t.erase key).Sorted :=
  List.Pairwise.filter _ sorted

theorem mem_of_get? {t : Table κ α} {key : κ} {value : α} (found : t.get? key = some value) :
    (key,value) ∈ t.entries := by
  obtain ⟨before,behind,split,_⟩ := List.lookup_eq_some_iff.mp found
  rw [split]
  exact List.mem_append_right _ List.mem_cons_self

theorem mem_keys {t : Table κ α} {key : κ} : key ∈ t.keys ↔ ∃ value, t.get? key = some value := by
  rw [← Option.isSome_iff_exists,keys,get?,← not_iff_not,Option.not_isSome_iff_eq_none,List.lookup_eq_none_iff]
  simp only [List.mem_map,not_exists,not_and,bne_iff_ne]
  exact ⟨fun none x member same => none x member same.symm,fun none x member same => none x member same.symm⟩

end Keys

section Puts
variable [DecidableEq κ] [LT κ] [DecidableLT κ]

theorem get?_put (t : Table κ α) (key other : κ) (value : α) :
    (t.put key value).get? other = if other = key then some value else t.get? other := by
  split
  · rename_i same; rw [same,get?_put_self]
  · rename_i different; exact get?_put_ne t value different

private theorem get?_foldl {entries : List (κ × α)} (distinct : (entries.map (·.1)).Nodup) (t : Table κ α) (key : κ) :
    (entries.foldl (fun t entry => t.put entry.1 entry.2) t).get? key = (entries.lookup key).or (t.get? key) := by
  induction entries generalizing t with
  | nil => rfl
  | cons entry rest ih =>
    obtain ⟨fresh,others⟩ := List.nodup_cons.mp distinct
    rw [List.foldl_cons,ih others,get?_put,List.lookup_cons]
    split
    · rename_i same
      subst same
      have absent : rest.lookup entry.1 = none := by
        rw [List.lookup_eq_none_iff]
        intro other member
        apply bne_iff_ne.mpr
        intro same
        apply fresh
        exact List.mem_map.mpr ⟨other,member,same.symm⟩
      simp [absent]
    · rename_i different
      simp [beq_false_of_ne different]

-- Of the items with one key the last stands.
theorem get?_puts {β : Type v} (name : β → κ) (value : β → α) (items : List β) (t : Table κ α) (key : κ) :
    (items.foldl (fun t item => t.put (name item) (value item)) t).get? key =
      ((items.reverse.find? (name · = key)).map value).or (t.get? key) := by
  induction items generalizing t with
  | nil => rfl
  | cons item rest ih =>
    rw [List.foldl_cons,ih,get?_put,List.reverse_cons,List.find?_append,Option.map_or]
    by_cases here : name item = key
    · rw [if_pos here.symm,List.find?_cons_of_pos (by simpa using here),Option.or_assoc,Option.map_some,Option.some_or]
    · rw [if_neg fun same => here same.symm,List.find?_cons_of_neg (by simpa using here),List.find?_nil,Option.map_none,
        Option.or_none]

theorem get?_ofList {entries : List (κ × α)} {key : κ} {value : α} (distinct : (entries.map (·.1)).Nodup)
    (member : (key,value) ∈ entries) : (ofList entries).get? key = some value := by
  rw [ofList,get?_foldl distinct]
  obtain ⟨before,behind,rfl⟩ := List.append_of_mem member
  rw [List.map_append] at distinct
  have apart := (List.nodup_append.mp distinct).2.2
  have found : (before ++ (key,value) :: behind).lookup key = some value := by
    refine List.lookup_eq_some_iff.mpr ⟨before,behind,rfl,fun other earlier => ?_⟩
    exact bne_iff_ne.mpr (apart other.1 (List.mem_map_of_mem earlier) key List.mem_cons_self).symm
  rw [found]
  rfl

private theorem mem_insert {key : κ} {value : α} {entries : List (κ × α)} {x : κ × α}
    (member : x ∈ insertEntry key value entries) : x = (key,value) ∨ x ∈ entries := by
  induction entries with
  | nil => exact .inl (by simpa [insertEntry] using member)
  | cons entry rest ih =>
    rw [insertEntry] at member
    split at member
    · rcases List.mem_cons.mp member with new | old
      · exact .inl new
      · exact .inr (List.mem_cons_of_mem _ old)
    · split at member
      · rcases List.mem_cons.mp member with new | old
        · exact .inl new
        · exact .inr old
      · rcases List.mem_cons.mp member with first | later
        · exact .inr (first ▸ List.mem_cons_self)
        · exact (ih later).imp_right (List.mem_cons_of_mem _)

theorem erase_put (t : Table κ α) (key : κ) (value : α) : (t.put key value).erase key = t.erase key := by
  obtain ⟨entries⟩ := t
  simp only [put,erase,mk.injEq]
  induction entries with
  | nil => simp [insertEntry]
  | cons entry rest ih =>
    rw [insertEntry]
    split
    · rename_i same
      simp [same]
    · rename_i different
      split
      · simp
      · rw [List.filter_cons_of_pos (by simpa using Ne.symm different),
          List.filter_cons_of_pos (by simpa using Ne.symm different),ih]

end Puts

section Entries
variable [LT κ] [IsStrictTotalOrder κ (· < ·)]

theorem Sorted.keys_nodup {t : Table κ α} (sorted : t.Sorted) : t.keys.Nodup :=
  List.pairwise_map.mpr (sorted.imp ne_of_irrefl)

variable [DecidableEq κ]

private theorem filter_above {key : κ} {entries : List (κ × α)} (above : ∀ x ∈ entries, key < x.1) :
    entries.filter (·.1 ≠ key) = entries := by
  rw [List.filter_eq_self]
  intro x member
  simpa using (ne_of_irrefl (above x member)).symm

-- The entry of a key, and all the others.
theorem perm_of_get? {t : Table κ α} {key : κ} {value : α} (sorted : t.Sorted)
    (found : t.get? key = some value) : t.entries.Perm ((key,value) :: (t.erase key).entries) := by
  obtain ⟨entries⟩ := t
  change entries.Perm ((key,value) :: entries.filter (·.1 ≠ key))
  change entries.lookup key = some value at found
  change entries.Pairwise _ at sorted
  induction entries with
  | nil => cases found
  | cons entry rest ih =>
    obtain ⟨above,tail⟩ := List.pairwise_cons.mp sorted
    by_cases same : key = entry.1
    · obtain ⟨k,v⟩ := entry
      subst same
      simp only [List.lookup_cons,beq_self_eq_true,Option.some.injEq] at found
      subst found
      rw [List.filter_cons_of_neg (by simp),filter_above above]
    · rw [List.lookup_cons,beq_false_of_ne same] at found
      rw [List.filter_cons_of_pos (by simpa using Ne.symm same)]
      exact ((ih found tail).cons entry).trans (.swap _ _ _)

theorem get?_of_mem {t : Table κ α} {key : κ} {value : α} (sorted : t.Sorted) (member : (key,value) ∈ t.entries) :
    t.get? key = some value := by
  obtain ⟨before,behind,split⟩ := List.append_of_mem member
  refine List.lookup_eq_some_iff.mpr ⟨before,behind,split,fun other earlier => ?_⟩
  rw [Sorted,split] at sorted
  have less := (List.pairwise_append.mp sorted).2.2 other earlier _ List.mem_cons_self
  simpa using (ne_of_irrefl less).symm

variable [DecidableLT κ]

theorem put_sorted (t : Table κ α) (key : κ) (value : α) (sorted : t.Sorted) : (t.put key value).Sorted := by
  obtain ⟨entries⟩ := t
  change (insertEntry key value entries).Pairwise _
  change entries.Pairwise _ at sorted
  induction entries with
  | nil => simp [insertEntry]
  | cons entry rest ih =>
    obtain ⟨above,tail⟩ := List.pairwise_cons.mp sorted
    rw [insertEntry]
    split
    · rename_i same
      subst same
      exact List.pairwise_cons.mpr ⟨above,tail⟩
    · rename_i different
      split
      · rename_i below
        refine List.pairwise_cons.mpr ⟨?_,sorted⟩
        intro x member
        rcases List.mem_cons.mp member with rfl | old
        · exact below
        · exact trans_of (· < ·) below (above x old)
      · rename_i notBelow
        refine List.pairwise_cons.mpr ⟨?_,ih tail⟩
        intro x member
        rcases mem_insert member with rfl | old
        · rcases trichotomous_of (· < ·) key entry.1 with less | same | more
          · exact absurd less notBelow
          · exact absurd same different
          · exact more
        · exact above x old

theorem perm_put {t : Table κ α} (key : κ) (value : α) (sorted : t.Sorted) :
    (t.put key value).entries.Perm ((key,value) :: (t.erase key).entries) := by
  have split := perm_of_get? (put_sorted t key value sorted) (get?_put_self t key value)
  rwa [erase_put] at split

theorem puts_sorted {β : Type v} (name : β → κ) (value : β → α) (items : List β) {t : Table κ α} (sorted : t.Sorted) :
    (items.foldl (fun t item => t.put (name item) (value item)) t).Sorted := by
  induction items generalizing t with
  | nil => exact sorted
  | cons item rest ih => exact ih (put_sorted t _ _ sorted)

theorem get?_overlaying {t : Table κ α} (sorted : t.Sorted) (base : Table κ α) (key : κ) :
    (t.overlaying base).get? key = (t.get? key).or (base.get? key) :=
  get?_foldl sorted.keys_nodup base key

theorem overlaying_sorted (t : Table κ α) {base : Table κ α} (sorted : base.Sorted) : (t.overlaying base).Sorted :=
  puts_sorted (fun entry : κ × α => entry.1) (fun entry => entry.2) t.entries sorted

end Entries

end ObjectBridge.Table
