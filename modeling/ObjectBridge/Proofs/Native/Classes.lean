import Mathlib.Logic.Relation
import Mathlib.Order.Defs.Unbundled
import ObjectBridge.Native.ClassTable

namespace ObjectBridge

namespace ClassTable

variable {t after : ClassTable} {c k : NativeClass} {id parent : ClassId} {name : String} {d : ClassDefinition}
  {α : Type} {pick : NativeClass → Option α} {found : Option α}

def rootId : ClassId := ⟨0⟩

def size (t : ClassTable) : Nat := t.newestFirst.length

def add (t : ClassTable) (c : NativeClass) : ClassTable := ⟨c :: t.newestFirst⟩

inductive Grown : ClassTable → Prop where
  | initial : Grown initial
  | add {t : ClassTable} {c : NativeClass} {parent : ClassId} (grown : Grown t) (fresh : t.named? c.name = none)
      (derives : c.superclass = some parent) (earlier : parent.index < t.size) : Grown (t.add c)

def Parent (t : ClassTable) (id parent : ClassId) : Prop := ∃ c, t.class? id = some c ∧ c.superclass = some parent

-- Going up from a class, what the first class has that has anything to offer.
inductive Nearest (t : ClassTable) (pick : NativeClass → Option α) : ClassId → Option α → Prop where
  | unknown {id : ClassId} (absent : t.class? id = none) : Nearest t pick id none
  | here {id : ClassId} {c : NativeClass} {a : α} (known : t.class? id = some c) (offers : pick c = some a) :
      Nearest t pick id (some a)
  | top {id : ClassId} {c : NativeClass} (known : t.class? id = some c) (passed : pick c = none)
      (orphan : c.superclass = none) : Nearest t pick id none
  | above {id parent : ClassId} {c : NativeClass} {found : Option α} (known : t.class? id = some c)
      (passed : pick c = none) (derives : c.superclass = some parent) (rest : Nearest t pick parent found) :
      Nearest t pick id found

theorem class?_add : (t.add c).class? id = if id.index = t.size then some c else t.class? id := rfl

theorem named?_add : (t.add c).named? name = if c.name = name then some ⟨t.size⟩ else t.named? name := rfl

-- Numbers are given without gaps.
theorem isSome_class? : (t.class? id).isSome = true ↔ id.index < t.size := by
  obtain ⟨classes⟩ := t
  induction classes with
  | nil => simp [class?,classIn?,size]
  | cons c older ih =>
    change ((add ⟨older⟩ c).class? id).isSome = true ↔ id.index < older.length+1
    rw [class?_add,Nat.lt_succ_iff_lt_or_eq,← show _ ↔ id.index < older.length from ih]
    split
    · rename_i last
      simp [show id.index = older.length from last]
    · rename_i earlier
      simp [show id.index ≠ older.length from earlier]

theorem class?_lt (known : t.class? id = some c) : id.index < t.size :=
  isSome_class?.mp (known ▸ rfl)

theorem named?_class (found : t.named? name = some id) : ∃ c, t.class? id = some c ∧ c.name = name := by
  obtain ⟨classes⟩ := t
  induction classes with
  | nil => cases found
  | cons c older ih =>
    change (add ⟨older⟩ c).named? name = some id at found
    change ∃ k, (add ⟨older⟩ c).class? id = some k ∧ k.name = name
    rw [named?_add] at found
    split at found
    · rename_i same
      cases found
      exact ⟨c,if_pos rfl,same⟩
    · obtain ⟨k,known,same⟩ := ih found
      exact ⟨k,by rw [class?_add,if_neg (Nat.ne_of_lt (class?_lt known)),known],same⟩

theorem named?_none (absent : t.named? name = none) : name ∉ t.newestFirst.map (·.name) := by
  obtain ⟨classes⟩ := t
  induction classes with
  | nil => simp
  | cons c older ih =>
    change (add ⟨older⟩ c).named? name = none at absent
    rw [named?_add] at absent
    split at absent
    · cases absent
    · rename_i different
      rw [List.map_cons,List.mem_cons,not_or]
      exact ⟨Ne.symm different,ih absent⟩

theorem chain_unknown (absent : t.class? id = none) : t.chain id = [] := by
  obtain ⟨classes⟩ := t
  induction classes with
  | nil => rfl
  | cons c older ih =>
    change (add ⟨older⟩ c).class? id = none at absent
    rw [class?_add] at absent
    split at absent
    · cases absent
    · rename_i earlier
      exact (if_neg earlier).trans (ih absent)

theorem not_last {younger : List NativeClass} (below : id.index < t.size) :
    id.index ≠ (younger ++ t.newestFirst).length := by
  rw [List.length_append]
  exact Nat.ne_of_lt (Nat.lt_of_lt_of_le below (Nat.le_add_left _ _))

section Later
variable (later : t.newestFirst <:+ after.newestFirst)
include later

theorem class?_later (known : (t.class? id).isSome = true) : after.class? id = t.class? id := by
  obtain ⟨classes⟩ := after
  obtain ⟨younger,rfl⟩ := later
  induction younger with
  | nil => rfl
  | cons k younger ih => exact (if_neg (not_last (isSome_class?.mp known))).trans ih

theorem chain_later (known : (t.class? id).isSome = true) : after.chain id = t.chain id := by
  obtain ⟨classes⟩ := after
  obtain ⟨younger,rfl⟩ := later
  induction younger with
  | nil => rfl
  | cons k younger ih => exact (if_neg (not_last (isSome_class?.mp known))).trans ih

end Later

namespace Grown

variable (grown : t.Grown)
include grown

theorem class?_root : t.class? rootId = some root := by
  induction grown with
  | initial => rfl
  | add grown fresh derives earlier ih =>
    rw [class?_add,if_neg,ih]
    exact Nat.ne_of_lt (Nat.zero_lt_of_lt earlier)

theorem named?_iff : t.named? name = some id ↔ t.name? id = some name := by
  refine ⟨fun found => Option.map_eq_some_iff.mpr (named?_class found),fun found => ?_⟩
  obtain ⟨c,known,rfl⟩ := Option.map_eq_some_iff.mp found
  clear found
  induction grown with
  | initial =>
    change (if id.index = 0 then some root else none) = some c at known
    split at known
    · rename_i first
      cases known
      exact congrArg some (congrArg ClassId.mk first.symm)
    · cases known
  | @add t k _ grown fresh derives earlier ih =>
    rw [class?_add] at known
    rw [named?_add]
    split at known
    · rename_i last
      cases known
      rw [if_pos rfl,← last]
    · have named := ih known
      rw [if_neg,named]
      intro same
      rw [same,named] at fresh
      cases fresh

theorem names_nodup : (t.newestFirst.map (·.name)).Nodup := by
  induction grown with
  | initial => decide
  | add grown fresh derives earlier ih => exact List.nodup_cons.mpr ⟨named?_none fresh,ih⟩

theorem parent_earlier (known : t.class? id = some c) (other : id ≠ rootId) :
    ∃ parent, c.superclass = some parent ∧ parent.index < id.index := by
  induction grown with
  | initial =>
    change (if id.index = 0 then some root else none) = some c at known
    split at known
    · rename_i first
      exact absurd (congrArg ClassId.mk first) other
    · cases known
  | add grown fresh derives earlier ih =>
    rw [class?_add] at known
    split at known
    · rename_i last
      cases known
      exact ⟨_,derives,last ▸ earlier⟩
    · exact ih known

theorem parent_descends (link : t.Parent id parent) : parent.index < id.index := by
  obtain ⟨c,known,derives⟩ := link
  by_cases first : id = rootId
  · subst first
    cases grown.class?_root.symm.trans known
    cases derives
  · obtain ⟨other,again,earlier⟩ := grown.parent_earlier known first
    cases derives.symm.trans again
    exact earlier

-- From class to class upwards, with the numbers of the classes as what decreases.
theorem climb {motive : ClassId → Prop} (unknown : ∀ id, t.class? id = none → motive id)
    (root : ∀ id, t.class? id = some root → id = rootId → motive id)
    (derived : ∀ id c parent, t.class? id = some c → c.superclass = some parent → (t.class? parent).isSome = true →
      motive parent → motive id) (id : ClassId) : motive id := by
  obtain ⟨index⟩ := id
  induction index using Nat.strongRecOn with
  | ind index ih =>
    cases known : t.class? ⟨index⟩ with
    | none => exact unknown _ known
    | some c =>
      by_cases first : (⟨index⟩ : ClassId) = rootId
      · exact root _ (first ▸ grown.class?_root) first
      · obtain ⟨parent,derives,earlier⟩ := grown.parent_earlier known first
        have there := isSome_class?.mpr (Nat.lt_trans earlier (class?_lt known))
        exact derived _ c parent known derives there (ih parent.index earlier)

theorem chain_root : t.chain rootId = [(rootId,root)] := by
  induction grown with
  | initial => rfl
  | add grown fresh derives earlier ih =>
    exact (if_neg (Nat.ne_of_lt (Nat.zero_lt_of_lt earlier))).trans ih

-- The table is built so that a chain needs no look at classes that came later; the links say the same.
theorem chain_derived (known : t.class? id = some c) (derives : c.superclass = some parent) :
    t.chain id = (id,c) :: t.chain parent := by
  induction grown with
  | initial =>
    change (if id.index = 0 then some root else none) = some c at known
    split at known <;> cases known
    cases derives
  | @add t k _ grown fresh later earlier ih =>
    have link : (t.add k).Parent id parent := ⟨c,known,derives⟩
    have descends := (Grown.add grown fresh later earlier).parent_descends link
    have suffix : t.newestFirst <:+ (t.add k).newestFirst := List.suffix_cons k _
    have bound : id.index < t.size+1 := class?_lt known
    have there : (t.class? parent).isSome = true :=
      isSome_class?.mpr (Nat.lt_of_lt_of_le descends (Nat.lt_succ_iff.mp bound))
    rw [chain_later suffix there]
    rw [class?_add] at known
    split at known
    · rename_i last
      cases known
      refine (if_pos last).trans ?_
      rw [derives]
      rfl
    · rename_i before
      exact (if_neg before).trans (ih known)

end Grown

theorem Nearest.unique {other : Option α} (one : t.Nearest pick id found) (again : t.Nearest pick id other) :
    found = other := by
  induction one generalizing other with
  | unknown absent => cases again <;> simp_all
  | here known offers => cases again <;> simp_all
  | top known passed orphan => cases again <;> simp_all
  | above known passed derives rest ih =>
    cases again with
    | unknown absent => cases known.symm.trans absent
    | here again offers =>
      cases known.symm.trans again
      cases passed.symm.trans offers
    | top again _ orphan =>
      cases known.symm.trans again
      cases derives.symm.trans orphan
    | above again _ other rest =>
      cases known.symm.trans again
      cases derives.symm.trans other
      exact ih rest

namespace Grown

variable (grown : t.Grown)
include grown

theorem nearest_chain (pick : NativeClass → Option α) (id : ClassId) :
    t.Nearest pick id ((t.chain id).findSome? fun (_,c) => pick c) := by
  induction id using grown.climb with
  | unknown id absent =>
    rw [chain_unknown absent]
    exact .unknown absent
  | root id known first =>
    subst first
    rw [grown.chain_root,List.findSome?_cons]
    dsimp only
    cases offers : pick root with
    | none => exact .top known offers rfl
    | some a => exact .here known offers
  | derived id c parent known derives _ ih =>
    rw [grown.chain_derived known derives,List.findSome?_cons]
    dsimp only
    cases offers : pick c with
    | none => exact .above known offers derives ih
    | some a => exact .here known offers

theorem nearest_iff : t.Nearest pick id found ↔ found = (t.chain id).findSome? fun (_,c) => pick c := by
  have walk := grown.nearest_chain pick id
  constructor
  · exact fun nearest => nearest.unique walk
  · rintro rfl
    exact walk

theorem chain_head (known : (t.class? id).isSome = true) : ∃ c rest, t.chain id = (id,c) :: rest := by
  induction id using grown.climb with
  | unknown id absent =>
    rw [absent] at known
    cases known
  | root id _ first =>
    subst first
    exact ⟨_,_,grown.chain_root⟩
  | derived id c parent here derives _ _ => exact ⟨_,_,grown.chain_derived here derives⟩

theorem isSubclass_derived {ancestor : ClassId} (known : t.class? id = some c) (derives : c.superclass = some parent)
    (there : (t.class? parent).isSome = true) :
    t.isSubclass id ancestor = true ↔ id = ancestor ∨ t.isSubclass parent ancestor = true := by
  obtain ⟨k,rest,head⟩ := grown.chain_head there
  simp only [isSubclass,grown.chain_derived known derives,head,List.any_cons,Bool.or_eq_true,decide_eq_true_eq]
  constructor
  · rintro (same | same | above)
    · exact .inl same
    · exact .inl same
    · exact .inr (.inr above)
  · rintro (same | same | above)
    · exact .inl same
    · exact .inr (.inr (.inl same))
    · exact .inr (.inr above)

theorem isSubclass_iff {ancestor : ClassId} :
    t.isSubclass id ancestor = true ↔ Relation.ReflTransGen t.Parent id ancestor := by
  induction id using grown.climb with
  | unknown id absent =>
    rw [Relation.ReflTransGen.cases_head_iff]
    simp [isSubclass,chain_unknown absent,Parent,absent]
  | root id known first =>
    subst first
    rw [Relation.ReflTransGen.cases_head_iff]
    simp [isSubclass,grown.chain_root,Parent,known,root]
  | derived id c parent known derives there ih =>
    have link : ∀ other, t.Parent id other ↔ other = parent := by simp [Parent,known,derives,eq_comm]
    rw [grown.isSubclass_derived known derives there,ih,Relation.ReflTransGen.cases_head_iff (a := id)]
    simp only [link,exists_eq_left]

theorem reaches_root (known : (t.class? id).isSome = true) : Relation.ReflTransGen t.Parent id rootId := by
  induction id using grown.climb with
  | unknown id absent =>
    rw [absent] at known
    cases known
  | root id _ first => exact first ▸ .refl
  | derived id c parent here derives there ih => exact .head ⟨c,here,derives⟩ (ih there)

theorem ancestor_earlier {ancestor : ClassId} (above : Relation.ReflTransGen t.Parent id ancestor) :
    id = ancestor ∨ ancestor.index < id.index := by
  induction above with
  | refl => exact .inl rfl
  | tail _ link ih =>
    have descends := grown.parent_descends link
    rcases ih with rfl | earlier
    · exact .inr descends
    · exact .inr (Nat.lt_trans descends earlier)

theorem isSubclass_order : IsPartialOrder ClassId fun id ancestor => t.isSubclass id ancestor = true where
  refl _ := grown.isSubclass_iff.mpr .refl
  trans _ _ _ one other := grown.isSubclass_iff.mpr ((grown.isSubclass_iff.mp one).trans (grown.isSubclass_iff.mp other))
  antisymm a b one other := by
    rcases grown.ancestor_earlier (grown.isSubclass_iff.mp one) with same | below
    · exact same
    rcases grown.ancestor_earlier (grown.isSubclass_iff.mp other) with same | above
    · exact same.symm
    · exact absurd (Nat.lt_trans below above) (Nat.lt_irrefl _)

end Grown

-- What comes of a definition that is offered to a table.
inductive Registration (t : ClassTable) (d : ClassDefinition) : Except CallError (ClassId × ClassTable) → Prop where
  | orphaned {superclass : String} (asks : d.superclass = some superclass) (absent : t.named? superclass = none) :
      Registration t d (.error (.unknownClass superclass))
  | taken {parent : ClassId} (stands : t.named? (d.superclass.getD rootName) = some parent)
      (taken : (t.named? d.name).isSome = true) : Registration t d (.error (.duplicateClass d.name))
  | accepted {parent : ClassId} (stands : t.named? (d.superclass.getD rootName) = some parent)
      (fresh : t.named? d.name = none) :
      Registration t d (.ok (⟨t.size⟩,t.add ⟨d.name,some parent,d.instanceMethods,d.classMethods⟩))

theorem Grown.registration (grown : t.Grown) (d : ClassDefinition) : t.Registration d (t.register d) := by
  have behind {parent : ClassId} (stands : t.named? (d.superclass.getD rootName) = some parent)
      (does : t.register d = if (t.named? d.name).isSome then .error (.duplicateClass d.name)
        else .ok (⟨t.size⟩,t.add ⟨d.name,some parent,d.instanceMethods,d.classMethods⟩)) :
      t.Registration d (t.register d) := by
    rw [does]
    split
    · rename_i taken
      exact .taken stands taken
    · rename_i fresh
      exact .accepted stands (by simpa using fresh)
  cases asks : d.superclass with
  | none =>
    have stands : t.named? rootName = some rootId :=
      grown.named?_iff.mpr (Option.map_eq_some_iff.mpr ⟨root,grown.class?_root,rfl⟩)
    refine behind (by rw [asks]; exact stands) ?_
    simp only [register,asks,stands]
    split <;> rfl
  | some superclass =>
    cases named : t.named? superclass with
    | none =>
      have does : t.register d = .error (.unknownClass superclass) := by
        simp only [register,asks,named]
        rfl
      rw [does]
      exact .orphaned asks named
    | some parent =>
      refine behind (by rw [asks]; exact named) ?_
      simp only [register,asks,named]
      split <;> rfl

theorem Registration.grown (registers : t.Registration d (.ok (id,after))) (grown : t.Grown) : after.Grown := by
  cases registers with
  | accepted stands fresh =>
    obtain ⟨_,known,_⟩ := named?_class stands
    exact .add grown fresh rfl (class?_lt known)

theorem Registration.later (registers : t.Registration d (.ok (id,after))) : t.newestFirst <:+ after.newestFirst := by
  cases registers with
  | accepted => exact List.suffix_cons _ _

end ClassTable
end ObjectBridge
