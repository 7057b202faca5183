namespace ObjectBridge

structure Table (κ : Type) (α : Type u) where
  entries : List (κ × α)
  deriving Inhabited

namespace Table

variable {κ : Type} {α : Type u} [DecidableEq κ]

def empty : Table κ α := ⟨[]⟩

def get? (t : Table κ α) (key : κ) : Option α := t.entries.lookup key

def contains (t : Table κ α) (key : κ) : Bool := (t.get? key).isSome

def keys (t : Table κ α) : List κ := t.entries.map (·.1)

def values (t : Table κ α) : List α := t.entries.map (·.2)

def size (t : Table κ α) : Nat := t.entries.length

def erase (t : Table κ α) (key : κ) : Table κ α := ⟨t.entries.filter (·.1 ≠ key)⟩

section Ordered

variable [LT κ] [DecidableLT κ]

def insertEntry (key : κ) (value : α) : List (κ × α) → List (κ × α)
  | [] => [(key, value)]
  | (k, v) :: rest =>
    if key = k then (key, value) :: rest
    else if key < k then (key, value) :: (k, v) :: rest
    else (k, v) :: insertEntry key value rest

def put (t : Table κ α) (key : κ) (value : α) : Table κ α := ⟨insertEntry key value t.entries⟩

-- Of equal keys the last entry counts.
def ofList (entries : List (κ × α)) : Table κ α :=
  entries.foldl (fun t entry => t.put entry.1 entry.2) empty

def overlaying (t base : Table κ α) : Table κ α :=
  t.entries.foldl (fun acc entry => acc.put entry.1 entry.2) base

theorem get?_put_self (t : Table κ α) (key : κ) (value : α) :
    (t.put key value).get? key = some value := by
  obtain ⟨entries⟩ := t
  simp only [put, get?]
  induction entries with
  | nil => simp [insertEntry]
  | cons entry rest ih => grind [insertEntry]

theorem get?_put_ne (t : Table κ α) {key other : κ} (value : α) (h : other ≠ key) :
    (t.put key value).get? other = t.get? other := by
  obtain ⟨entries⟩ := t
  simp only [put, get?]
  induction entries with
  | nil => grind [insertEntry]
  | cons entry rest ih => grind [insertEntry]

end Ordered

theorem get?_erase_self (t : Table κ α) (key : κ) : (t.erase key).get? key = none := by
  simp only [erase, get?, List.lookup_eq_none_iff]
  grind

theorem get?_erase_ne (t : Table κ α) {key other : κ} (h : other ≠ key) :
    (t.erase key).get? other = t.get? other := by
  obtain ⟨entries⟩ := t
  simp only [erase, get?]
  induction entries with
  | nil => rfl
  | cons entry rest ih => grind

end Table

end ObjectBridge
