import ObjectBridge.Metadata.Reader
import ObjectBridge.Table

namespace ObjectBridge.Blob

-- The places of the descriptor section that have not been read.
def unread (blob : Blob) (known : Table Nat Unit) : Nat :=
  ((List.range' blob.descriptors.start (blob.descriptors.stop - blob.descriptors.start)).filter
    (!known.contains ·)).length

private theorem length_filter_lt {l : List Nat} {p q : Nat → Bool} {a : Nat} (mem : a ∈ l)
    (kept : p a = true) (dropped : q a = false) (sub : ∀ x, q x = true → p x = true) :
    (l.filter q).length < (l.filter p).length := by
  induction l with
  | nil => cases mem
  | cons b rest ih =>
    have tail : (rest.filter q).length ≤ (rest.filter p).length := by
      rw [← List.countP_eq_length_filter, ← List.countP_eq_length_filter]
      exact List.countP_mono_left fun x _ => sub x
    rcases List.mem_cons.1 mem with rfl | old
    · simp only [List.filter_cons, kept, dropped]
      simp
      omega
    · have := ih old
      by_cases hq : q b = true
      · simp [hq, sub b hq]
        omega
      · by_cases hp : p b = true
        · simp [hq, hp]
          omega
        · simp [hq, hp]
          omega

theorem unread_put_lt (blob : Blob) (known : Table Nat Unit) (place : Nat)
    (inside : blob.InDescriptors place Layout.descriptorHeadSize)
    (new : known.contains place = false) : blob.unread (known.put place ()) < blob.unread known := by
  apply length_filter_lt (a := place)
  · obtain ⟨h₁, h₂⟩ := inside
    simp only [Layout.descriptorHeadSize] at h₂
    rw [List.mem_range'_1]
    omega
  · simp [new]
  · simp [Table.contains, Table.get?_put_self]
  · intro x hx
    by_cases h : x = place
    · subst h; simp [new]
    · simpa [Table.contains, Table.get?_put_ne _ _ h] using hx

-- Reads what is pending, the last found first, and then what that refers to.
def reach (blob : Blob) (pending : List Nat) (known : Table Nat Unit) :
    Except LoadError (Table Nat Unit) :=
  match pending with
  | [] => .ok known
  | place :: rest =>
    if _old : known.contains place = true then blob.reach rest known
    else if _inside : blob.InDescriptors place Layout.descriptorHeadSize then
      match blob.readDescriptor place with
      | .error e => .error e
      | .ok d => blob.reach ((d.references.map (·.offset)).reverse ++ rest) (known.put place ())
    else .error (.outOfBounds "descriptor" place)
  termination_by (blob.unread known, pending.length)
  decreasing_by
    · apply Prod.Lex.right
      simp
    · apply Prod.Lex.left
      exact unread_put_lt _ _ _ _inside (by simpa using _old)

end ObjectBridge.Blob
