import ObjectBridge.Proofs.Number.Doubles

namespace ObjectBridge

namespace BinaryFormat

-- What is cut off is at most a half, and so is what is added.
theorem shiftHalfEven_cases (n places : Nat) :
    (shiftHalfEven n places = n / 2^places ∧ 2*(n % 2^places) ≤ 2^places) ∨
      (shiftHalfEven n places = n / 2^places + 1 ∧ 2^places ≤ 2*(n % 2^places)) := by
  unfold shiftHalfEven
  simp only [Nat.pow_eq]
  split
  · rename_i up
    exact .inr ⟨rfl,by omega⟩
  · rename_i down
    exact .inl ⟨rfl,by omega⟩

end BinaryFormat

namespace Double

open BinaryFormat

-- The places of a whole number that a significand has no room for.
def surplus (m : Nat) : Nat := m.log2-52

def rounded (m : Nat) : Nat := shiftHalfEven m (surplus m) * 2^surplus m

def Exact (m : Nat) : Prop := ∃ significand places, significand < 2^53 ∧ m = significand*2^places

theorem surplus_zero {m : Nat} (small : m < 2^53) : surplus m = 0 := by
  rcases Nat.eq_zero_or_pos m with rfl | positive
  · simp [surplus]
  · have := (Nat.log2_lt (Nat.pos_iff_ne_zero.mp positive)).mpr small
    unfold surplus
    omega

theorem rounded_small {m : Nat} (small : m < 2^53) : rounded m = m := by
  rw [rounded,surplus_zero small,pow_zero,mul_one]
  rcases shiftHalfEven_cases m 0 with ⟨same,_⟩ | ⟨_,half⟩
  · simpa using same
  · rw [pow_zero,Nat.mod_one] at half
    cases half

-- What is left of a large number fills a significand.
theorem quotient_fills {m : Nat} (large : 2^53 ≤ m) :
    0 < surplus m ∧ m.log2 = 52+surplus m ∧ 2^52 ≤ m / 2^surplus m ∧ m / 2^surplus m < 2^53 := by
  have positive : m ≠ 0 := by omega
  have least : 2^m.log2 ≤ m := Nat.log2_self_le positive
  have most : m < 2^(m.log2+1) := Nat.lt_log2_self
  have bits : 53 ≤ m.log2 := (Nat.le_log2 positive).mpr large
  have split : m.log2 = 52+surplus m := by unfold surplus; omega
  refine ⟨by omega,split,?_,?_⟩
  · rw [Nat.le_div_iff_mul_le (by positivity),← pow_add,← split]
    exact least
  · rw [Nat.div_lt_iff_lt_mul (by positivity),← pow_add]
    calc m < 2^(m.log2+1) := most
      _ = 2^(53+surplus m) := by rw [split]; congr 1; omega

theorem shifted_bounds {m : Nat} (large : 2^53 ≤ m) :
    2^52 ≤ shiftHalfEven m (surplus m) ∧ shiftHalfEven m (surplus m) ≤ 2^53 := by
  obtain ⟨_,_,least,most⟩ := quotient_fills large
  rcases shiftHalfEven_cases m (surplus m) with ⟨same,_⟩ | ⟨next,_⟩ <;> omega

theorem rounded_exact (m : Nat) : Exact (rounded m) := by
  by_cases small : m < 2^53
  · rw [rounded_small small]
    exact ⟨m,0,small,by simp⟩
  · obtain ⟨_,most⟩ := shifted_bounds (Nat.not_lt.mp small)
    rcases Nat.lt_or_eq_of_le most with below | carried
    · exact ⟨_,surplus m,below,rfl⟩
    · refine ⟨1,53+surplus m,by decide,?_⟩
      rw [rounded,carried,one_mul,← pow_add]

-- Between neighbours that fill the significand there is no other number that fits it.
theorem exact_no_between {k q places : Nat} (exact : Exact k) (fills : 2^52 ≤ q) (above : q*2^places < k) :
    (q+1)*2^places ≤ k := by
  obtain ⟨s,e,fits,rfl⟩ := exact
  have higher : places ≤ e := by
    by_contra lower
    have half : 2^(e+1) ≤ 2^places := Nat.pow_le_pow_right (by decide) (by omega)
    have short : s*2^e < 2^52*2^places := calc
      s*2^e < 2^53*2^e := Nat.mul_lt_mul_of_pos_right fits (by positivity)
      _ = 2^52*2^(e+1) := by ring
      _ ≤ 2^52*2^places := Nat.mul_le_mul_left _ half
    exact absurd (short.trans_le (Nat.mul_le_mul_right _ fills)) (Nat.not_lt.mpr above.le)
  obtain ⟨d,rfl⟩ := Nat.exists_eq_add_of_le higher
  have units : s*2^(places+d) = s*2^d*2^places := by ring
  rw [units] at above ⊢
  exact Nat.mul_le_mul_right _ (Nat.lt_of_mul_lt_mul_right above)

theorem rounded_nearest (m : Nat) {k : Nat} (exact : Exact k) :
    ((m : Int)-rounded m).natAbs ≤ ((m : Int)-k).natAbs := by
  by_cases small : m < 2^53
  · rw [rounded_small small]
    simp
  · obtain ⟨_,_,fills,_⟩ := quotient_fills (Nat.not_lt.mp small)
    have parts := Nat.div_add_mod' m (2^surplus m)
    have rest : m % 2^surplus m < 2^surplus m := Nat.mod_lt _ (by positivity)
    have outside : k ≤ m / 2^surplus m * 2^surplus m ∨ (m / 2^surplus m + 1) * 2^surplus m ≤ k := by
      rcases Nat.lt_or_ge (m / 2^surplus m * 2^surplus m) k with above | below
      · exact .inr (exact_no_between exact fills above)
      · exact .inl below
    rw [Nat.add_mul,one_mul] at outside
    rcases shiftHalfEven_cases m (surplus m) with ⟨down,half⟩ | ⟨up,half⟩
    · rw [rounded,down]
      omega
    · rw [rounded,up,Nat.add_mul,one_mul]
      omega

theorem rounded_eq_iff (m : Nat) : rounded m = m ↔ Exact m := by
  constructor
  · intro same
    exact same ▸ rounded_exact m
  · intro exact
    have := rounded_nearest m exact
    omega

-- Numbers that lie nearer to 2^64 than to the last one below it go there, and so does the one in the middle.
theorem rounded_overflows {m : Nat} (word : m < 2^64) : 2^64 ≤ rounded m ↔ 2^64-1024 ≤ m := by
  by_cases small : m < 2^53
  · rw [rounded_small small]
    omega
  · obtain ⟨_,split,_⟩ := quotient_fills (Nat.not_lt.mp small)
    have bits : m.log2 < 64 := (Nat.log2_lt (by omega)).mpr word
    by_cases last : surplus m = 11
    · rw [rounded,last]
      unfold shiftHalfEven
      simp only [Nat.pow_eq,Nat.reducePow]
      split <;> omega
    · have below : rounded m ≤ 2^63 := calc
        rounded m ≤ 2^53*2^surplus m := Nat.mul_le_mul_right _ (shifted_bounds (Nat.not_lt.mp small)).2
        _ ≤ 2^53*2^10 := Nat.mul_le_mul_left _ (Nat.pow_le_pow_right (by decide) (by omega))
      have short : m < 2^63 := calc
        m < 2^(m.log2+1) := Nat.lt_log2_self
        _ ≤ 2^63 := Nat.pow_le_pow_right (by decide) (by omega)
      omega

-- A significand that was rounded up to the next power of two stands in the next exponent.
theorem value?_moved {significand places : Nat} (least : 2^52 ≤ significand) (most : significand ≤ 2^53)
    (finite : places+1076 < 2047) :
    value? ⟨UInt64.ofNat ((places+1074)*2^52+significand)⟩ = some ((significand*2^places : Nat) : ℚ) := by
  rcases Nat.lt_or_eq_of_le most with below | rfl
  · have bits : (places+1074)*2^52+significand = pattern false (places+1075) (significand-2^52) := by
      simp only [pattern,Nat.reducePow,Bool.false_eq_true,if_false] at least ⊢
      omega
    have whole : (2^52+(significand-2^52 : Nat) : ℚ) = significand := by exact_mod_cast Nat.add_sub_cancel' least
    have exponent : ((places+1075 : Nat) : ℤ)-1075 = places := by omega
    rw [bits,value?_ofNat _ _ _ (by omega) (by omega),numberOf?,if_neg (by omega),if_neg (by omega),exponent,whole]
    simp [Dyadic.sign]
  · have bits : (places+1074)*2^52+2^53 = pattern false (places+1076) 0 := by
      simp only [pattern,Nat.reducePow,Bool.false_eq_true,if_false]
      omega
    have exponent : ((places+1076 : Nat) : ℤ)-1075 = (places+1 : Nat) := by omega
    rw [bits,value?_ofNat _ _ _ (by omega) (by decide),numberOf?,if_neg (by omega),if_neg (by omega),exponent,
      zpow_natCast,Option.some_inj]
    push_cast [Dyadic.sign]
    ring

-- A machine word becomes the number that it is rounded to.
theorem ofInt_rounded {m : Nat} (word : m < 2^64) : (ofInt m).value? = some (rounded m : ℚ) := by
  by_cases small : m < 2^53
  · rw [rounded_small small]
    exact_mod_cast ofInt_value (n := m) (by simpa using small.le)
  · obtain ⟨positive,split,_⟩ := quotient_fills (Nat.not_lt.mp small)
    obtain ⟨least,most⟩ := shifted_bounds (Nat.not_lt.mp small)
    have bits : m.log2 < 64 := (Nat.log2_lt (by omega)).mpr word
    have nonzero : m ≠ 0 := by omega
    have last : max double.leastExponent (0+(m.log2 : Int)-(52 : Nat)) = (surplus m : Int) := by
      rw [leastExponent_eq]
      omega
    have units : ((surplus m : Int)-double.leastExponent).toNat = surplus m+1074 := by
      rw [leastExponent_eq]
      omega
    have fractionBits : double.fractionBits = 52 := rfl
    have near : double.nearest m 0 = (surplus m+1074)*2^52 + shiftHalfEven m (surplus m) := by
      unfold nearest
      rw [if_neg nonzero,fractionBits]
      dsimp only
      rw [last,if_neg (by omega),units,infinityBits_eq,Int.sub_zero,Int.toNat_natCast]
      apply Nat.min_eq_right
      simp only [Nat.pow_eq,Nat.reducePow] at most ⊢
      omega
    have encoded : double.encode (.ofInt m) = (surplus m+1074)*2^52 + shiftHalfEven m (surplus m) := by
      rw [Dyadic.ofInt,encode,if_neg (by simp),Int.natAbs_natCast,near,Nat.zero_add]
    rw [ofInt,ofDyadic,encoded,value?_moved least most (by omega),rounded]

end Double
end ObjectBridge
