import ObjectBridge.Proofs.Bridge.Moves
import ObjectBridge.Proofs.Native.Classes
import ObjectBridge.Session.Steps

namespace ObjectBridge

open ClassTable

-- What there is to rely on in a table, however it came about.
structure ClassTable.Consistent (t : ClassTable) : Prop where
  distinct : (t.newestFirst.map (·.name)).Nodup
  inverse : ∀ name id, t.named? name = some id ↔ t.name? id = some name
  numbered : ∀ id, (t.class? id).isSome = true ↔ id.index < t.size
  rooted : t.class? rootId = some root
  superclasses : ∀ id c, t.class? id = some c → id ≠ rootId →
    ∃ parent, c.superclass = some parent ∧ parent.index < id.index
  chains : ∀ id, (t.class? id).isSome = true → Relation.ReflTransGen t.Parent id rootId
  inherits : ∀ id ancestor, t.isSubclass id ancestor = true ↔ Relation.ReflTransGen t.Parent id ancestor
  ordered : IsPartialOrder ClassId fun id ancestor => t.isSubclass id ancestor = true
  topped : ∀ id, (t.class? id).isSome = true → t.isSubclass id rootId = true

theorem ClassTable.Grown.consistent {t : ClassTable} (grown : t.Grown) : t.Consistent where
  distinct := grown.names_nodup
  inverse _ _ := grown.named?_iff
  numbered _ := isSome_class?
  rooted := grown.class?_root
  superclasses _ _ := grown.parent_earlier
  chains _ := grown.reaches_root
  inherits _ _ := grown.isSubclass_iff
  ordered := grown.isSubclass_order
  topped _ known := grown.isSubclass_iff.mpr (grown.reaches_root known)

namespace Act

variable {w : World Env} {d : ClassDefinition}

-- Either an error and the world as it was, or one class more and nothing else.
inductive Registers (w : World Env) (d : ClassDefinition) : Except StepError ClassId × World Env → Prop where
  | refused {e : CallError} (registration : w.bridge.natives.Registration d (.error e)) :
      Registers w d (.error (.bridge (.native e)),w)
  | accepted {id : ClassId} {natives : ClassTable} (registration : w.bridge.natives.Registration d (.ok (id,natives))) :
      Registers w d (.ok id,{ w with bridge := { w.bridge with natives := natives } })

theorem Registers.grown {answer : Except StepError ClassId} {after : World Env} (registers : Registers w d (answer,after))
    (grown : w.bridge.natives.Grown) :
    after.bridge.natives.Grown ∧ w.bridge.natives.newestFirst <:+ after.bridge.natives.newestFirst := by
  cases registers with
  | refused => exact ⟨grown,List.suffix_refl _⟩
  | accepted registration => exact ⟨registration.grown grown,registration.later⟩

end Act
end ObjectBridge
