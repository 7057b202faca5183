import ObjectBridge.Proofs.Number.Rounding
import ObjectBridge.Proofs.Bridge.PlainValues

namespace ObjectBridge

-- What a script sees of a pointer.
def ScriptValue.ofPointer (address : UInt64) : ScriptValue :=
  if address = 0 then .null else .number (.ofInt address.toNat)

namespace Bridge

variable {address : UInt64} {n : NativeValue}

theorem u64_holds {k : Nat} : IntKind.u64.holds k ↔ k < 2^64 := by
  simp [IntKind.holds,IntKind.least,IntKind.greatest,IntKind.isSigned,IntKind.bits]
  omega

theorem pointerSlot_ok (b : Bridge) : b.slot (.ofPointer address) (.scalar .pointer) = .ok n ↔
    ∃ back : UInt64, back.toNat = Double.rounded address.toNat ∧ n = .pointer back := by
  unfold ScriptValue.ofPointer
  split
  · rename_i null
    subst null
    have none : Double.rounded (0 : UInt64).toNat = 0 := Double.rounded_small (by decide)
    rw [none,slot_scalar]
    constructor
    · intro converted
      cases converted
      exact ⟨0,rfl,rfl⟩
    · rintro ⟨back,zero,rfl⟩
      have : back = 0 := UInt64.toNat_inj.mp zero
      rw [this]
      rfl
  · have valued := Double.ofInt_rounded address.toNat_lt
    rw [slot_scalar]
    change ((ScriptValue.number _).toInteger "pointer" .u64).map _ = _ ↔ _
    rw [Outcome.map_ok]
    constructor
    · rintro ⟨⟨k,held⟩,read,rfl⟩
      have same : ((Double.rounded address.toNat : Int) : ℚ) = k :=
        ScriptValue.StandsFor.unique (.number (by exact_mod_cast valued)) ((toInteger_ok held).mp read)
      obtain rfl := Int.cast_injective same
      exact ⟨_,UInt64.toNat_ofNat_of_lt' (u64_holds.mp held),rfl⟩
    · rintro ⟨back,same,rfl⟩
      have held : IntKind.u64.holds (Double.rounded address.toNat) := u64_holds.mpr (same ▸ back.toNat_lt)
      refine ⟨⟨_,held⟩,(toInteger_ok held).mpr (.number (by exact_mod_cast valued)),?_⟩
      dsimp only
      rw [Int.toNat_natCast,← same,UInt64.ofNat_toNat]

end Bridge

namespace Effect

theorem pointer_to_scripting (b : Bridge) (address : UInt64) :
    toScripting (.pointer address) (.scalar .pointer) b = (.ok (.ofPointer address),b) := rfl

theorem pointers_come_back_rounded (b : Bridge) (address : UInt64) :
    ∃ s, toScripting (.pointer address) (.scalar .pointer) b = (.ok s,b) ∧
      (∀ n, (toNative s (.scalar .pointer) b).1 = .ok n ↔
        ∃ back : UInt64, back.toNat = Double.rounded address.toNat ∧ n = .pointer back) ∧
      (∀ k, Double.Exact k →
        ((address.toNat : Int)-Double.rounded address.toNat).natAbs ≤ ((address.toNat : Int)-k).natAbs) ∧
      ((toNative s (.scalar .pointer) b).1 = .ok (.pointer address) ↔ Double.Exact address.toNat) ∧
      ((∃ e, (toNative s (.scalar .pointer) b).1 = .error e) ↔ 2^64-1024 ≤ address.toNat) := by
  refine ⟨.ofPointer address,pointer_to_scripting b address,?_⟩
  simp only [toNative_fst]
  refine ⟨fun n => b.pointerSlot_ok,fun k => Double.rounded_nearest _,?_,?_⟩
  · rw [b.pointerSlot_ok,← Double.rounded_eq_iff]
    constructor
    · rintro ⟨back,same,own⟩
      cases own
      exact same.symm
    · intro same
      exact ⟨address,same.symm,rfl⟩
  · rw [← Double.rounded_overflows address.toNat_lt]
    constructor
    · rintro ⟨e,refused⟩
      by_contra below
      have back : (UInt64.ofNat (Double.rounded address.toNat)).toNat = Double.rounded address.toNat :=
        UInt64.toNat_ofNat_of_lt' (Nat.not_le.mp below)
      cases refused.symm.trans (b.pointerSlot_ok.mpr ⟨_,back,rfl⟩)
    · intro above
      cases converted : b.slot (.ofPointer address) (.scalar .pointer) with
      | error e => exact ⟨e,rfl⟩
      | ok n =>
        obtain ⟨back,same,_⟩ := b.pointerSlot_ok.mp converted
        exact absurd back.toNat_lt (Nat.not_lt.mpr (same ▸ above))

-- The pointer 2^53+1 comes back as its neighbour, and the last pointer of all does not come back. As whole numbers
-- of 64 bits they are kept, as every one is.
theorem wide_pointers_lost :
    (toScripting (.pointer 9007199254740993) (.scalar .pointer) default).1 = .ok (.ofPointer 9007199254740993) ∧
    (toNative (.ofPointer 9007199254740993) (.scalar .pointer) default).1 = .ok (.pointer 9007199254740992) ∧
    (toScripting (.pointer 18446744073709551615) (.scalar .pointer) default).1 = .ok (.ofPointer 18446744073709551615) ∧
    (∀ n, (toNative (.ofPointer 18446744073709551615) (.scalar .pointer) default).1 ≠ .ok n) ∧
    ∀ k held, ∃ s, (toScripting (.int .u64 k held) (.scalar (.int .u64)) default).1 = .ok s ∧
      (toNative s (.scalar (.int .u64)) default).1 = .ok (.int .u64 k held) := by
  simp only [toNative_fst,Bridge.pointerSlot_ok]
  refine ⟨rfl,⟨9007199254740992,by decide +kernel,rfl⟩,rfl,?_,?_⟩
  · intro n converted
    obtain ⟨back,same,_⟩ := (Bridge.pointerSlot_ok _).mp converted
    have above : Double.rounded (18446744073709551615 : UInt64).toNat = 2^64 := by decide +kernel
    exact absurd back.toNat_lt (by rw [same,above]; exact Nat.lt_irrefl _)
  · intro k held
    have converted := toScripting_ok (scripting_integer (b := default) .u64 held)
    exact ⟨_,congrArg Prod.fst converted,Bridge.integerSlot_ok.mpr ⟨k,held,ScriptValue.ofInt_stands held,rfl⟩⟩

end Effect
end ObjectBridge
