import DocumentServer.Proofs.Doubles

namespace DocumentServer

namespace Double

def ofLow (negative : Bool) (low : Nat) : Double :=
  ⟨UInt64.ofNat ((if negative then signBit else 0) + low)⟩

section ofLow

variable {n : Bool} {p : Nat} (hp : p < signBit)

include hp

theorem toNat_ofLow : (ofLow n p).bits.toNat = (if n then signBit else 0) + p := by
  rw [ofLow, UInt64.toNat_ofNat']
  refine Nat.mod_eq_of_lt ?_
  simp only [signBit] at hp ⊢
  cases n <;> simp only [if_true, if_false, Bool.false_eq_true] <;> omega

theorem negative_ofLow : (ofLow n p).negative = n := by
  rw [negative, toNat_ofLow hp]
  cases n
  · rw [if_neg Bool.false_ne_true, Nat.zero_add]
    exact decide_eq_false (Nat.not_le.2 hp)
  · rw [if_pos rfl]
    exact decide_eq_true (Nat.le_add_right _ _)

theorem exponent_ofLow : (ofLow n p).exponent = p / leadingBit := by
  rw [exponent, toNat_ofLow hp]
  simp only [signBit, leadingBit] at hp ⊢
  cases n <;> simp only [if_true, if_false, Bool.false_eq_true] <;> omega

theorem fraction_ofLow : (ofLow n p).fraction = p % leadingBit := by
  rw [fraction, toNat_ofLow hp]
  simp only [signBit, leadingBit] at hp ⊢
  cases n <;> simp only [if_true, if_false, Bool.false_eq_true] <;> omega

end ofLow

theorem trunc_eq (d : Double) : d.trunc = ofLow d.negative (if d.exponent < 1023 then 0
    else d.exponent * leadingBit + (d.fraction - d.fraction % 2 ^ (1075 - d.exponent))) := by
  rw [trunc, ofLow, Nat.one_shiftLeft]
  by_cases he : d.exponent < 1023
  · rw [if_pos he, if_pos he, Nat.add_zero]
  · have hm := Nat.mod_le d.fraction (2 ^ (1075 - d.exponent))
    rw [if_neg he, if_neg he, low_eq, low]
    congr 2
    omega

theorem fields_trunc (d : Double) : d.trunc.negative = d.negative ∧
    d.trunc.exponent = (if d.exponent < 1023 then 0 else d.exponent) ∧
    d.trunc.fraction = if d.exponent < 1023 then 0
      else d.fraction - d.fraction % 2 ^ (1075 - d.exponent) := by
  have hm := Nat.sub_le d.fraction (d.fraction % 2 ^ (1075 - d.exponent))
  have hf := d.fraction_lt
  have he := d.exponent_lt
  have hlow : (if d.exponent < 1023 then 0 else d.exponent * leadingBit +
      (d.fraction - d.fraction % 2 ^ (1075 - d.exponent))) < signBit := by
    simp only [leadingBit, signBit] at hf ⊢
    split <;> omega
  rw [trunc_eq]
  refine ⟨negative_ofLow hlow, ?_, ?_⟩
  · rw [exponent_ofLow hlow]
    simp only [leadingBit] at hf ⊢
    split <;> omega
  · rw [fraction_ofLow hlow]
    simp only [leadingBit] at hf ⊢
    split <;> omega

/-- The exponent has a name here, so that the power is not computed where it is used. -/
theorem exists_unitsPerOne_eq : ∃ a, a = 1074 ∧ unitsPerOne = 2 ^ a := by
  refine ⟨1074, rfl, ?_⟩
  rw [unitsPerOne_eq (m := 0) (n := 1074) rfl, Nat.pow_zero, Nat.one_mul]

theorem unitsPerOne_dvd {n : Nat} (h : 1074 ≤ n) : unitsPerOne ∣ 2 ^ n := by
  obtain ⟨a, ha, hu⟩ := exists_unitsPerOne_eq
  rw [hu]
  exact Nat.pow_dvd_pow 2 (by omega)

theorem magnitude_trunc (d : Double) :
    d.trunc.magnitude = d.magnitude / unitsPerOne * unitsPerOne := by
  obtain ⟨-, he, hf⟩ := d.fields_trunc
  rw [magnitude, he, hf]
  by_cases hs : d.exponent < 1023
  · have hone : d.magnitude < one.magnitude := by
      refine magnitude_lt (.inl ?_)
      have ho : one.exponent = 1023 := by decide
      omega
    have hu : one.magnitude = unitsPerOne := by decide +kernel
    rw [if_pos hs, if_pos hs, if_pos rfl, Nat.div_eq_of_lt (hu ▸ hone), Nat.zero_mul]
  · have hz : d.exponent ≠ 0 := by omega
    rw [if_neg hs, if_neg hs, if_neg hz, magnitude, if_neg hz, Nat.shiftLeft_eq, Nat.shiftLeft_eq]
    by_cases hl : 1075 ≤ d.exponent
    · have hd := unitsPerOne_dvd (n := d.exponent - 1) (by omega)
      rw [Nat.div_mul_cancel (Nat.dvd_mul_left_of_dvd hd _), Nat.sub_eq_zero_of_le hl, Nat.pow_zero,
        Nat.mod_one, Nat.sub_zero]
    · obtain ⟨k, hk⟩ : ∃ k, k = 1075 - d.exponent := ⟨_, rfl⟩
      have hl : leadingBit = 2 ^ k * 2 ^ (52 - k) := by
        rw [← Nat.pow_add, Nat.add_sub_cancel' (by omega)]
        rfl
      rw [unitsPerOne_eq (m := k) (n := d.exponent - 1) (by omega), ← hk,
        Nat.mul_div_mul_right _ _ (Nat.two_pow_pos _), ← Nat.mul_assoc]
      congr 1
      have hdiv := Nat.div_add_mod (leadingBit + d.fraction) (2 ^ k)
      have hmod : (leadingBit + d.fraction) % 2 ^ k = d.fraction % 2 ^ k := by
        rw [hl, Nat.mul_add_mod]
      have hle := Nat.mod_le d.fraction (2 ^ k)
      rw [Nat.mul_comm, hmod] at hdiv
      omega

theorem units_trunc (d : Double) : d.trunc.units = d.truncated * unitsPerOne := by
  rw [units, magnitude_trunc, truncated, units, d.fields_trunc.1]
  cases d.negative
  · rw [if_neg Bool.false_ne_true, if_neg Bool.false_ne_true, ← Int.ofNat_tdiv, Int.natCast_mul]
  · rw [if_pos rfl, if_pos rfl, Int.neg_tdiv, ← Int.ofNat_tdiv, Int.natCast_mul, Int.neg_mul]

theorem isNaN_of_isFinite {d : Double} (h : d.isFinite = true) : d.isNaN = false := by
  have he : d.exponent ≠ 2047 := of_decide_eq_true h
  simp [isNaN, he]

theorem isFinite_trunc {d : Double} (h : d.isFinite = true) : d.trunc.isFinite = true := by
  have he : d.exponent ≠ 2047 := of_decide_eq_true h
  refine decide_eq_true ?_
  rw [d.fields_trunc.2.1]
  split <;> omega

theorem units_twoPow63 : twoPow63.units = 2 ^ 63 * (unitsPerOne : Int) := by decide +kernel

theorem units_minusTwoPow63 : minusTwoPow63.units = -2 ^ 63 * (unitsPerOne : Int) := by
  decide +kernel

theorem isBelow_iff {d e : Double} (hd : d.isNaN = false) (he : e.isNaN = false) :
    d.isBelow e = true ↔ d.units < e.units := by
  simp [isBelow, hd, he]

theorem isAtMost_iff {d e : Double} (hd : d.isNaN = false) (he : e.isNaN = false) :
    d.isAtMost e = true ↔ d.units ≤ e.units := by
  simp [isAtMost, hd, he]

theorem truncated_trunc (d : Double) : d.trunc.truncated = d.truncated := by
  have hp := NumberKey.unitsPerOne_pos
  rw [truncated, units_trunc, Int.mul_tdiv_cancel _ (Int.ne_of_gt hp)]

theorem castTo_bounds (d : Double) {least greatest : Int} (hl : least ≤ 0) (hr : 0 ≤ greatest) :
    least ≤ d.castTo least greatest ∧ d.castTo least greatest ≤ greatest := by
  rw [castTo]
  split <;> omega

theorem castTo_of_bounds {d : Double} {least greatest : Int} (hn : d.isNaN = false)
    (hl : least ≤ d.truncated) (hr : d.truncated ≤ greatest) :
    d.castTo least greatest = d.truncated := by
  rw [castTo, hn, if_neg Bool.false_ne_true]
  omega

theorem toInt_toInt64 (d : Double) : d.toInt64.toInt = d.castTo (-2 ^ 63) (2 ^ 63 - 1) := by
  have h0 : (-2 ^ 63 : Int) ≤ 0 ∧ (0 : Int) ≤ 2 ^ 63 - 1 := by decide
  obtain ⟨hl, hr⟩ := d.castTo_bounds h0.1 h0.2
  exact Int64.toInt_ofInt_of_le hl (Int.lt_of_le_sub_one hr)

theorem toInt_toInt32 (d : Double) : d.toInt32.toInt = d.castTo (-2 ^ 31) (2 ^ 31 - 1) := by
  have h0 : (-2 ^ 31 : Int) ≤ 0 ∧ (0 : Int) ≤ 2 ^ 31 - 1 := by decide
  obtain ⟨hl, hr⟩ := d.castTo_bounds h0.1 h0.2
  exact Int32.toInt_ofInt_of_le hl (Int.lt_of_le_sub_one hr)

section bounds

variable {d : Double} (hl : -2 ^ 63 * (unitsPerOne : Int) ≤ d.units)
  (hr : d.units < 2 ^ 63 * (unitsPerOne : Int))

include hl hr

theorem truncated_bounds : -2 ^ 63 ≤ d.truncated ∧ d.truncated < 2 ^ 63 := by
  have hp := NumberKey.unitsPerOne_pos
  refine ⟨Int.le_tdiv_of_mul_le hp hl, Int.not_le.1 fun hn => ?_⟩
  obtain hz | hz := Int.le_total 0 d.units
  · have hm := Int.mul_le_mul_of_nonneg_right hn (Int.le_of_lt hp)
    have hsum := Int.tmod_add_tdiv_mul d.units unitsPerOne
    have hrest := Int.tmod_nonneg (unitsPerOne : Int) hz
    rw [truncated] at hm
    omega
  · have hd := Int.tdiv_le_tdiv hp hz
    rw [Int.zero_tdiv] at hd
    exact absurd (Int.le_trans hn hd) (by decide)

theorem isFinite_of_bounds (hn : d.isNaN = false) : d.isFinite = true := by
  by_contra hf
  have hm := magnitude_eq_infinity hn (Bool.eq_false_of_not_eq_true hf)
  have hi : 2 ^ 63 * (unitsPerOne : Int) < infinity.magnitude := by decide +kernel
  rw [units] at hl hr
  rw [hm] at hl hr
  cases hd : d.negative <;> simp only [hd, if_true, if_false, Bool.false_eq_true] at hl hr <;> omega

end bounds

end Double

end DocumentServer
