import ObjectBridge.Proofs.Number.Doubles
import ObjectBridge.Proofs.Bridge.Slots

namespace ObjectBridge

-- The number that a script's value stands for.
inductive ScriptValue.StandsFor : ScriptValue → ℚ → Prop where
  | number {x : Double} {q : ℚ} (valued : x.value? = some q) : StandsFor (.number x) q
  | big (n : Int) : StandsFor (.big n) n

theorem ScriptValue.StandsFor.unique {v : ScriptValue} {p q : ℚ} (one : v.StandsFor p) (other : v.StandsFor q) : p = q := by
  cases one with
  | number valued =>
    cases other with
    | number again => exact Option.some.inj (valued.symm.trans again)
  | big n =>
    cases other
    rfl

namespace Bridge

variable {b : Bridge} {v : ScriptValue} {kind : IntKind} {n : NativeValue} {expected : String} {k : Int}

theorem slot_scalar (b : Bridge) (v : ScriptValue) (s : Scalar) : b.slot v (.scalar s) = scalarSlot v s := by
  cases v <;> rfl

-- What is in range goes through as it is, and what is not is refused.
theorem ranged_ok {m : Int} {e : BridgeError} (held : kind.holds k) :
    ((if h : kind.holds m then .ok ⟨m,h⟩ else .error e) : Except BridgeError { n : Int // kind.holds n }) = .ok ⟨k,held⟩ ↔
      m = k := by
  split
  · simp
  · rename_i outside
    simp only [reduceCtorEq,false_iff]
    rintro rfl
    exact outside held

theorem toInteger_ok (held : kind.holds k) : v.toInteger expected kind = .ok ⟨k,held⟩ ↔ v.StandsFor k := by
  unfold ScriptValue.toInteger
  dsimp only
  cases v with
  | number x =>
    cases read : x.toInt? with
    | none =>
      simp only [read,reduceCtorEq,false_iff]
      intro stands
      cases stands with
      | number valued => cases read.symm.trans (Double.toInt?_eq_some.mpr valued)
    | some m =>
      simp only [read,ranged_ok]
      constructor
      · rintro rfl
        exact .number (Double.toInt?_eq_some.mp read)
      · intro stands
        exact_mod_cast (ScriptValue.StandsFor.number (Double.toInt?_eq_some.mp read)).unique stands
  | big m =>
    simp only [ranged_ok]
    constructor
    · rintro rfl
      exact .big m
    · intro stands
      exact_mod_cast (ScriptValue.StandsFor.big m).unique stands
  | _ =>
    simp only [reduceCtorEq,false_iff]
    intro stands
    cases stands

theorem integerSlot_ok : b.slot v (.scalar (.int kind)) = .ok n ↔
    ∃ (k : Int) (held : kind.holds k), v.StandsFor k ∧ n = .int kind k held := by
  rw [slot_scalar]
  change (v.toInteger kind.name kind).map _ = .ok n ↔ _
  rw [Outcome.map_ok]
  constructor
  · rintro ⟨⟨k,held⟩,read,rfl⟩
    exact ⟨k,held,(toInteger_ok held).mp read,rfl⟩
  · rintro ⟨k,held,stands,rfl⟩
    exact ⟨⟨k,held⟩,(toInteger_ok held).mpr stands,rfl⟩

theorem above_range {bound : Int} (above : kind.greatest < bound) (stands : v.StandsFor bound) :
    ¬∃ k : Int, (kind.least ≤ k ∧ k ≤ kind.greatest) ∧ v.StandsFor k := by
  intro inside
  obtain ⟨k,⟨_,below⟩,other⟩ := inside
  have same : bound = k := Int.cast_injective (stands.unique other)
  rw [← same] at below
  exact Int.not_le.mpr above below

end Bridge

namespace Effect

-- Neither bound is a matter of rounding: 2^63 and 2^64 are script numbers, and just too large.
theorem integers_convert_exactly (b : Bridge) (kind : IntKind) (v : ScriptValue) :
    (∀ n, (toNative v (.scalar (.int kind)) b).1 = .ok n ↔
      ∃ (k : Int) (held : kind.least ≤ k ∧ k ≤ kind.greatest), v.StandsFor k ∧ n = .int kind k held) ∧
    ((¬∃ k : Int, (kind.least ≤ k ∧ k ≤ kind.greatest) ∧ v.StandsFor k) →
      ∃ e, (toNative v (.scalar (.int kind)) b).1 = .error e) ∧
    (v.StandsFor (2^63) → ∃ e, (toNative v (.scalar (.int .i64)) b).1 = .error e) ∧
    (v.StandsFor (2^64) → ∃ e, (toNative v (.scalar (.int .u64)) b).1 = .error e) := by
  simp only [toNative_fst]
  have refused (kind : IntKind) (never : ¬∃ k : Int, (kind.least ≤ k ∧ k ≤ kind.greatest) ∧ v.StandsFor k) :
      ∃ e, b.slot v (.scalar (.int kind)) = .error e := by
    cases converted : b.slot v (.scalar (.int kind)) with
    | error e => exact ⟨e,rfl⟩
    | ok n =>
      obtain ⟨k,held,stands,_⟩ := Bridge.integerSlot_ok.mp converted
      exact absurd ⟨k,held,stands⟩ never
  refine ⟨fun n => Bridge.integerSlot_ok,refused kind,fun stands => refused .i64 ?_,fun stands => refused .u64 ?_⟩
  · exact Bridge.above_range (by decide : IntKind.i64.greatest < 2^63) (by exact_mod_cast stands)
  · exact Bridge.above_range (by decide : IntKind.u64.greatest < 2^64) (by exact_mod_cast stands)

-- The script's numbers 2^63, 2^64 and -0.
def tooWideForSigned : ScriptValue := .number ⟨0x43e0000000000000⟩

def tooWideForUnsigned : ScriptValue := .number ⟨0x43f0000000000000⟩

def negativeZero : ScriptValue := .number ⟨0x8000000000000000⟩

theorem wide_numbers_refused :
    (tooWideForSigned.StandsFor (2^63) ∧ ∃ e, (toNative tooWideForSigned (.scalar (.int .i64)) default).1 = .error e) ∧
    (tooWideForUnsigned.StandsFor (2^64) ∧ ∃ e, (toNative tooWideForUnsigned (.scalar (.int .u64)) default).1 = .error e) ∧
    (toNative negativeZero (.scalar (.int .i8)) default).1 = .ok (.int .i8 0 (by decide)) := by
  have signed : tooWideForSigned.StandsFor (2^63) := by
    refine .number (Eq.trans (Double.value?_ofNat false 1086 0 ?_ ?_) ?_)
    all_goals norm_num [Double.numberOf?,Dyadic.sign]
  have unsigned : tooWideForUnsigned.StandsFor (2^64) := by
    refine .number (Eq.trans (Double.value?_ofNat false 1087 0 ?_ ?_) ?_)
    all_goals norm_num [Double.numberOf?,Dyadic.sign]
  have zero : negativeZero.StandsFor ((0 : Int) : ℚ) := by
    refine .number (Eq.trans (Double.value?_ofNat true 0 0 ?_ ?_) ?_)
    all_goals norm_num [Double.numberOf?,Dyadic.sign]
  refine ⟨⟨signed,?_⟩,⟨unsigned,?_⟩,?_⟩
  · exact (integers_convert_exactly default .i64 tooWideForSigned).2.2.1 signed
  · exact (integers_convert_exactly default .i64 tooWideForUnsigned).2.2.2 unsigned
  · exact ((integers_convert_exactly default .i8 negativeZero).1 _).mpr ⟨0,by decide,zero,rfl⟩

end Effect
end ObjectBridge
