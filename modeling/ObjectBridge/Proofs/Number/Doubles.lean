import Mathlib.Algebra.Order.Field.Rat
import Mathlib.Tactic.FieldSimp
import Mathlib.Tactic.NormNum
import Mathlib.Tactic.Positivity
import Mathlib.Tactic.Ring
import ObjectBridge.Number.Binary

namespace ObjectBridge

def Dyadic.sign (negative : Bool) : Int := if negative then -1 else 1

namespace Double

-- The number that the parts of a pattern stand for. With all bits of the exponent set they stand for
-- none, and with none set the fraction alone counts, in units of the smallest number.
def numberOf? (negative : Bool) (biased fraction : Nat) : Option ℚ :=
  if biased = 2047 then none
  else if biased = 0 then some (Dyadic.sign negative * fraction * 2^(-1074 : ℤ))
  else some (Dyadic.sign negative * (2^52 + fraction) * 2^((biased : ℤ)-1075))

def value? (x : Double) : Option ℚ :=
  let bits := x.bits.toNat
  numberOf? (bits / 2^63 = 1) (bits / 2^52 % 2^11) (bits % 2^52)

end Double

namespace Dyadic

def value? : Dyadic → Option ℚ
  | .finite negative significand exponent => some (sign negative * significand * 2^exponent)
  | _ => none

theorem toInt?_whole (negative : Bool) (significand exponent : Nat) :
    (Dyadic.finite negative significand exponent).toInt? = some (sign negative * (significand * 2^exponent)) := by
  cases negative <;> simp [toInt?,sign]

theorem toInt?_shifted (negative : Bool) (significand places : Nat) :
    (Dyadic.finite negative significand (-places)).toInt? =
      if 2^places ∣ significand then some (sign negative * (significand / 2^places : Nat)) else none := by
  cases places with
  | zero => cases negative <;> simp [toInt?,sign]
  | succ places =>
    have below : ¬(0 ≤ -((places+1 : Nat) : Int)) := by omega
    unfold toInt?
    dsimp only
    rw [if_neg below,Int.neg_neg,Int.toNat_natCast,Nat.pow_eq]
    by_cases divides : 2^(places+1) ∣ significand
    · rw [if_pos divides,if_pos (Nat.mod_eq_zero_of_dvd divides)]
      cases negative <;> simp [sign]
    · rw [if_neg divides,if_neg fun zero => divides (Nat.dvd_of_mod_eq_zero zero)]
      rfl

-- A whole number of units, each of them `1 / 2 ^ places`.
theorem shifted_eq {s k : Int} {places : Nat} : (s : ℚ) * 2^(-places : ℤ) = k ↔ s = k * 2^places := by
  rw [zpow_neg,zpow_natCast,mul_inv_eq_iff_eq_mul₀ (by positivity)]
  exact_mod_cast Iff.rfl

theorem dvd_of_units {negative : Bool} {significand places : Nat} {k : Int}
    (units : sign negative * significand = k * 2^places) : 2^places ∣ significand := by
  have sizes := congrArg Int.natAbs units
  rw [Int.natAbs_mul,Int.natAbs_mul,Int.natAbs_pow] at sizes
  have unit : (sign negative).natAbs = 1 := by cases negative <;> rfl
  rw [unit,one_mul] at sizes
  exact ⟨k.natAbs,by simpa [mul_comm] using sizes⟩

theorem toInt?_eq_some {d : Dyadic} {k : Int} : d.toInt? = some k ↔ d.value? = some (k : ℚ) := by
  cases d with
  | nan | infinite => simp [toInt?,value?]
  | finite negative significand exponent =>
    obtain ⟨n,rfl | rfl⟩ := exponent.eq_nat_or_neg
    · rw [toInt?_whole,value?,Option.some_inj,Option.some_inj,zpow_natCast,mul_assoc]
      exact_mod_cast Iff.rfl
    · have units : (sign negative : ℚ) * significand = ((sign negative * significand : Int) : ℚ) := by push_cast; rfl
      rw [toInt?_shifted,value?,Option.some_inj,units,shifted_eq]
      split
      · rename_i divides
        obtain ⟨q,rfl⟩ := divides
        have positive : 0 < 2^n := by positivity
        rw [Option.some_inj,Nat.mul_div_cancel_left _ positive]
        push_cast
        constructor
        · rintro rfl; ring
        · intro same
          have : (2^n : Int) ≠ 0 := by positivity
          exact mul_right_cancel₀ this (by rw [← same]; ring)
      · rename_i indivisible
        exact iff_of_false (by simp) fun same => indivisible (dvd_of_units same)

end Dyadic

namespace Double

def pattern (negative : Bool) (biased fraction : Nat) : Nat := (if negative then 2^63 else 0) + biased*2^52 + fraction

theorem signBit_eq : BinaryFormat.double.signBit = 2^63 := by
  simp only [Nat.reducePow]
  rfl

theorem infinityBits_eq : BinaryFormat.double.infinityBits = 2047*2^52 := by
  simp only [Nat.reducePow,Nat.reduceMul]
  rfl

theorem leastExponent_eq : BinaryFormat.double.leastExponent = -1074 := rfl

theorem decode_pattern (negative : Bool) {biased fraction : Nat} (exponent : biased < 2^11) (rest : fraction < 2^52) :
    (BinaryFormat.double.decode (pattern negative biased fraction)).value? = numberOf? negative biased fraction := by
  have signed : (2^63 ≤ pattern negative biased fraction) = (negative = true) := by
    cases negative <;> simp [pattern] <;> omega
  have magnitude : pattern negative biased fraction % 2^63 = biased*2^52 + fraction := by
    cases negative <;> simp [pattern] <;> omega
  have high : (biased*2^52 + fraction) / 2^52 = biased := by omega
  have low : (biased*2^52 + fraction) % 2^52 = fraction := by omega
  unfold BinaryFormat.decode numberOf?
  simp only [BinaryFormat.signBit,BinaryFormat.infinityBits,BinaryFormat.leastExponent,
    BinaryFormat.bias,BinaryFormat.double,Nat.pow_eq,Nat.reduceAdd,Nat.reduceSub,signed,magnitude,high,low]
  by_cases special : biased = 2047
  · rw [if_pos special]
    split
    · rfl
    · rw [if_pos (by omega)]
      rfl
  · rw [if_neg special,if_neg (by omega),if_neg (by omega)]
    split
    · simp [Dyadic.value?]
    · rename_i normal
      have place : (1 : Int)-(2^10-1 : Nat)-52+(biased-1 : Nat) = biased-1075 := by omega
      rw [Nat.cast_ofNat,place]
      simp only [Dyadic.value?,Bool.decide_eq_true]
      norm_num

theorem toDyadic_value (x : Double) : x.toDyadic.value? = x.value? := by
  have bounded := x.bits.toNat_lt
  unfold toDyadic value?
  generalize x.bits.toNat = n at bounded
  have parts : n = pattern (n / 2^63 = 1) (n / 2^52 % 2^11) (n % 2^52) := by
    unfold pattern
    split <;> rename_i top <;> simp only [decide_eq_true_eq] at top <;> omega
  have decoded := decode_pattern (n / 2^63 = 1) (Nat.mod_lt (n / 2^52) (by decide)) (Nat.mod_lt n (by decide : 0 < 2^52))
  rwa [← parts] at decoded

-- Reading a number as an integer succeeds on those that are integers, and on them alone.
theorem toInt?_eq_some {x : Double} {k : Int} : x.toInt? = some k ↔ x.value? = some (k : ℚ) := by
  rw [toInt?,Dyadic.toInt?_eq_some,toDyadic_value]

-- An integer of up to 53 bits can be moved up until it fills the significand.
theorem log2_fills {m : Nat} (some : m ≠ 0) (small : m < 2^53) :
    m.log2 ≤ 52 ∧ 2^52 ≤ m*2^(52-m.log2) ∧ m*2^(52-m.log2) < 2^53 := by
  have bits : m.log2 ≤ 52 := by
    have := (Nat.log2_lt some).mpr small
    omega
  have least : 2^m.log2 ≤ m := Nat.log2_self_le some
  have most : m < 2^(m.log2+1) := Nat.lt_log2_self
  refine ⟨bits,?_,?_⟩
  · calc 2^52 = 2^m.log2*2^(52-m.log2) := by rw [← pow_add]; congr 1; omega
      _ ≤ m*2^(52-m.log2) := Nat.mul_le_mul_right _ least
  · calc m*2^(52-m.log2) < 2^(m.log2+1)*2^(52-m.log2) := Nat.mul_lt_mul_of_pos_right most (by positivity)
      _ = 2^53 := by rw [← pow_add]; congr 1; omega

theorem nearest_small {m : Nat} (some : m ≠ 0) (small : m < 2^53) :
    ∃ places ≤ 52, 2^52 ≤ m*2^places ∧ m*2^places < 2^53 ∧
      BinaryFormat.double.nearest m 0 = (1074-places)*2^52 + m*2^places := by
  obtain ⟨bits,lower,upper⟩ := log2_fills some small
  have last : max BinaryFormat.double.leastExponent (0+(m.log2 : Int)-(52 : Nat)) = (m.log2 : Int)-52 := by
    rw [leastExponent_eq]
    omega
  have shift : (0-((m.log2 : Int)-52)).toNat = 52-m.log2 := by omega
  have units : ((m.log2 : Int)-52-BinaryFormat.double.leastExponent).toNat = 1074-(52-m.log2) := by
    rw [leastExponent_eq]
    omega
  have fractionBits : BinaryFormat.double.fractionBits = 52 := rfl
  refine ⟨52-m.log2,Nat.sub_le _ _,lower,upper,?_⟩
  unfold BinaryFormat.nearest
  rw [if_neg some,fractionBits]
  dsimp only
  rw [last,if_pos (by omega),shift,units,infinityBits_eq]
  simp only [Nat.pow_eq,Nat.reducePow] at upper ⊢
  generalize m*2^(52-m.log2) = rounded at upper ⊢
  apply Nat.min_eq_right
  omega

-- The parts of the pattern nearest to an integer, which are those of the integer itself.
theorem nearest_exact {m : Nat} (some : m ≠ 0) (small : m ≤ 2^53) :
    ∃ biased fraction, 0 < biased ∧ biased < 2047 ∧ fraction < 2^52 ∧
      BinaryFormat.double.nearest m 0 = biased*2^52+fraction ∧ (2^52+fraction : ℚ)*2^((biased : ℤ)-1075) = m := by
  rcases Nat.lt_or_eq_of_le small with small | largest
  · obtain ⟨places,few,lower,upper,bits⟩ := nearest_small some small
    have significand : (2^52+(m*2^places-2^52 : Nat) : ℚ) = m*2^places := by
      exact_mod_cast Nat.add_sub_cancel' lower
    have exponent : ((1075-places : Nat) : ℤ)-1075 = -places := by omega
    refine ⟨1075-places,m*2^places-2^52,by omega,by omega,?_,?_,?_⟩
    · simp only [Nat.reducePow] at upper ⊢
      omega
    · rw [bits]
      simp only [Nat.reducePow] at lower ⊢
      omega
    · rw [significand,exponent,zpow_neg,zpow_natCast]
      field_simp
  · simp only [Nat.reducePow] at largest
    subst largest
    refine ⟨1076,0,by decide,by decide,by decide,?_,?_⟩
    · simp only [Nat.reducePow]
      rfl
    · norm_num

theorem value?_ofNat (negative : Bool) (biased fraction : Nat) (exponent : biased < 2^11) (rest : fraction < 2^52) :
    value? ⟨UInt64.ofNat (pattern negative biased fraction)⟩ = numberOf? negative biased fraction := by
  have bounded : pattern negative biased fraction < 2^64 := by
    unfold pattern
    simp only [Nat.reducePow] at exponent rest ⊢
    split <;> omega
  rw [← toDyadic_value,toDyadic,UInt64.toNat_ofNat_of_lt' bounded,decode_pattern negative exponent rest]

-- An integer of up to 53 bits is a number, and that number stands for it.
theorem ofInt_value {n : Int} (small : n.natAbs ≤ 2^53) : (ofInt n).value? = some (n : ℚ) := by
  rcases Nat.eq_zero_or_pos n.natAbs with none | some
  · obtain rfl := Int.natAbs_eq_zero.mp none
    have bits : ofInt 0 = ⟨UInt64.ofNat (pattern false 0 0)⟩ := rfl
    rw [bits,value?_ofNat false 0 0 (by decide) (by decide),numberOf?]
    simp
  · obtain ⟨biased,fraction,least,most,rest,bits,exact⟩ := nearest_exact (Nat.pos_iff_ne_zero.mp some) small
    have encoded : BinaryFormat.double.encode (.ofInt n) = pattern (n < 0) biased fraction := by
      rw [Dyadic.ofInt,BinaryFormat.encode,bits,pattern,signBit_eq,Nat.add_assoc]
    have signed : Dyadic.sign (n < 0) * n.natAbs = n := by
      unfold Dyadic.sign
      split <;> rename_i negative <;> simp only [decide_eq_true_eq] at negative <;> omega
    have product : (Dyadic.sign (n < 0) : ℚ) * n.natAbs = n := by rw [← Int.cast_natCast,← Int.cast_mul,signed]
    rw [ofInt,ofDyadic,encoded,value?_ofNat _ _ _ (by omega) rest,numberOf?,if_neg (by omega),if_neg (by omega),mul_assoc,
      exact,product]

end Double
end ObjectBridge
