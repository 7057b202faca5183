import ObjectBridge.Proofs.Bridge.Moves
import ObjectBridge.Proofs.Registry.Filing

namespace ObjectBridge

namespace Holdings

-- Only tracking looks at more of a wrapper than its number, so that only there it has to be one that
-- was made.
inductive Deed (s : Holdings) : Holdings → Prop where
  | retain (a : Address) : Deed s { s with heap := (s.heap.retain a).2 }
  | setVariable (a : Address) (name : String) (value : NativeValue) :
      Deed s { s with heap := (s.heap.setVariable a name value).2 }
  | releaseAddress (a : Address) : Deed s (s.releaseAddress a).2
  | releaseInstance (a : Address) (serial : Nat) : Deed s (s.releaseInstance a serial).2
  | cloneHandle (w : Wrapper) : Deed s (s.cloneHandle w)
  | drop (w : Wrapper) : Deed s (s.drop w)
  | wrapperFor (r : Nat) (a : Address) (cls : SynthesizedClass) (owning : Bool) :
      Deed s (s.wrapperFor r a cls owning).2
  | track {w : WrapperState} (made : s.state? w.wrapper.id = some w) (r : Nat) (a : Address) :
      Deed s (s.track r a w.wrapper).2
  | release (r : Nat) (w : Wrapper) : Deed s (s.release r w).2
  | keep (a : Address) (w : Wrapper) : Deed s (s.keep a w)
  | letGo {a : Address} {i : Instance} (found : s.heap.get? a = some i) {dropped left : List Nat}
      (split : i.keeps.Perm (dropped ++ left)) :
      Deed s (({ s with heap := s.heap.update a { i with keeps := left } } : Holdings).settle dropped)

variable {s t : Holdings}

theorem Deed.change (deed : Deed s t) : Change s t := by
  cases deed with
  | retain a => exact .retain a
  | setVariable a name value => exact .setVariable a name value
  | releaseAddress a => exact .releaseAddress a
  | releaseInstance a serial => exact .releaseInstance a serial
  | cloneHandle w => exact .cloneHandle w
  | drop w => exact .drop w
  | wrapperFor r a cls owning => exact .wrapperFor r a cls owning
  | track _ r a => exact .track r a _
  | release r w => exact .release r w
  | keep a w => exact .keep a w
  | letGo found split => exact .letGo found split

theorem Deed.filed (deed : Deed s t) (filed : s.Filed) : t.Filed := by
  cases deed with
  | retain | setVariable => exact filed.heap _
  | releaseAddress | releaseInstance => exact settle_filed (filed.heap _) _
  | cloneHandle w => exact cloneHandle_filed filed w
  | drop w => exact settle_filed filed _
  | wrapperFor r a cls owning => exact wrapperFor_filed filed a cls owning
  | track made r a => exact track_filed filed made a
  | release r w => exact release_filed filed w
  | keep a w =>
    rcases keep_cases s a w with drops | ⟨i,_,keeps⟩
    · exact drops ▸ settle_filed filed _
    · exact keeps ▸ filed.heap _
  | letGo => exact settle_filed (filed.heap _) _

end Holdings

namespace Bridge

inductive Act (b : Bridge) : Bridge → Prop where
  | aside {b' : Bridge} (move : Move b b') (same : b'.holdings = b.holdings) : Act b b'
  | allocate {cls : ClassId} {name : String} (known : b.natives.name? cls = some name) (place : Option Address) :
      Act b { b with holdings := { b.holdings with heap := (b.heap.allocate cls place).2 } }
  | deed {s : Holdings} (deed : Holdings.Deed b.holdings s) : Act b { b with holdings := s }
  | close : Act b b.close

def Lived (b : Bridge) : Prop :=
  ∃ metadata registries functions, Relation.ReflTransGen Act (opened metadata registries functions) b

variable {b b' : Bridge}

theorem Act.move (act : Act b b') : Move b b' := by
  cases act with
  | aside move => exact move
  | allocate known place => exact .allocate known place
  | deed deed => exact .change deed.change
  | close => exact .close

theorem Lived.reached (lived : b.Lived) : b.Reached := by
  obtain ⟨metadata,registries,functions,acts⟩ := lived
  exact ⟨metadata,registries,functions,acts.lift id fun _ _ => Act.move⟩

theorem close_filed (filed : b.holdings.Filed) : b.close.holdings.Filed where
  made := filed.made
  own r a id entry := by
    refine filed.own r a id ?_
    rw [Holdings.entryOf,close, Holdings.registry?,Holdings.close,Table.get?_erase] at entry
    split at entry
    · cases entry
    · exact entry

theorem Act.filed (act : Act b b') (filed : b.holdings.Filed) : b'.holdings.Filed := by
  cases act with
  | aside _ same => exact same ▸ filed
  | allocate => exact filed.heap _
  | deed deed => exact deed.filed filed
  | close => exact close_filed filed

theorem Lived.filed (lived : b.Lived) : b.holdings.Filed := by
  obtain ⟨metadata,registries,functions,acts⟩ := lived
  induction acts with
  | refl => exact Holdings.initial_filed _
  | tail _ act ih => exact act.filed ih

end Bridge
end ObjectBridge
