import DocumentServer.Proofs.IntegerParts

namespace DocumentServer

namespace Double

def leadingBits (n : Nat) : Nat :=
  if n.log2 ≤ 52 then n <<< (52 - n.log2) else roundedQuotient n (n.log2 - 52)

theorem roundedQuotient_eq (n s : Nat) :
    roundedQuotient n s = n / 2 ^ s ∨ roundedQuotient n s = n / 2 ^ s + 1 := by
  rw [roundedQuotient, Nat.one_shiftLeft]
  split
  · exact .inr rfl
  · exact .inl rfl

theorem roundedQuotient_of_dvd {n s : Nat} (hs : s ≠ 0) (h : 2 ^ s ∣ n) :
    roundedQuotient n s = n / 2 ^ s := by
  have hr : n % 2 ^ s = 0 := Nat.mod_eq_zero_of_dvd h
  have hhalf : 0 < 2 ^ s / 2 := by
    obtain ⟨k, rfl⟩ := Nat.exists_eq_succ_of_ne_zero hs
    rw [Nat.pow_succ, Nat.mul_div_cancel _ Nat.two_pos]
    exact Nat.two_pow_pos k
  rw [roundedQuotient, Nat.one_shiftLeft]
  rw [hr, if_neg]
  simp only [Bool.or_eq_true, Bool.and_eq_true, decide_eq_true_eq]
  omega

theorem leadingBits_bounds {n : Nat} (h : n ≠ 0) :
    leadingBit ≤ leadingBits n ∧ leadingBits n ≤ 2 * leadingBit := by
  have hl := Nat.log2_self_le h
  have hr := Nat.lt_log2_self (n := n)
  rw [leadingBits]
  by_cases hk : n.log2 ≤ 52
  · rw [if_pos hk, Nat.shiftLeft_eq]
    have hle := Nat.mul_le_mul_right (2 ^ (52 - n.log2)) hl
    have hlt := Nat.mul_lt_mul_of_pos_right hr (Nat.two_pow_pos (52 - n.log2))
    rw [← Nat.pow_add] at hle hlt
    rw [Nat.add_sub_cancel' hk] at hle
    rw [show n.log2 + 1 + (52 - n.log2) = 53 by omega] at hlt
    simp only [leadingBit]
    omega
  · have hs := Nat.two_pow_pos (n.log2 - 52)
    have hq : 2 ^ 52 ≤ n / 2 ^ (n.log2 - 52) := by
      rw [Nat.le_div_iff_mul_le hs, ← Nat.pow_add, Nat.add_sub_cancel' (by omega)]
      exact hl
    have hq' : n / 2 ^ (n.log2 - 52) < 2 ^ 53 := by
      rw [Nat.div_lt_iff_lt_mul hs, ← Nat.pow_add, show 53 + (n.log2 - 52) = n.log2 + 1 by omega]
      exact hr
    have hround := roundedQuotient_eq n (n.log2 - 52)
    rw [if_neg hk]
    simp only [leadingBit]
    omega

/-- The size of the integer that a positive integer is rounded to. -/
def rounded (n : Nat) : Nat :=
  if n.log2 ≤ 52 then n else roundedQuotient n (n.log2 - 52) * 2 ^ (n.log2 - 52)

theorem leadingBits_mul (n : Nat) :
    leadingBits n * 2 ^ (n.log2 + 1022) = rounded n * unitsPerOne := by
  rw [leadingBits, rounded]
  by_cases hk : n.log2 ≤ 52
  · rw [if_pos hk, if_pos hk, Nat.shiftLeft_eq, Nat.mul_assoc,
      unitsPerOne_eq (m := 52 - n.log2) (n := n.log2 + 1022) (by omega)]
  · obtain ⟨a, ha, hu⟩ := exists_unitsPerOne_eq
    have he : n.log2 - 52 + a = n.log2 + 1022 := by omega
    rw [if_neg hk, if_neg hk, hu, Nat.mul_assoc, ← Nat.pow_add, he]

theorem ofInt_eq {i : Int} (h : i ≠ 0) : ofInt i = ofLow (i < 0)
    ((i.natAbs.log2 + 1022) * leadingBit + leadingBits i.natAbs) := by
  rw [ofInt, ofLow, leadingBits]
  dsimp only
  rw [if_neg (Int.natAbs_ne_zero.2 h)]
  congr 2
  by_cases hi : i < 0 <;> simp [hi, Nat.add_comm]

/-- A carry out of the significand goes into the exponent. -/
theorem magnitude_ofLow {n : Bool} {k lead : Nat} (hk : k ≤ 63) (hl : leadingBit ≤ lead)
    (hr : lead ≤ 2 * leadingBit) :
    (ofLow n ((k + 1022) * leadingBit + lead)).isFinite = true ∧
      (ofLow n ((k + 1022) * leadingBit + lead)).magnitude = lead * 2 ^ (k + 1022) := by
  have hp : (k + 1022) * leadingBit + lead < signBit := by
    simp only [leadingBit, signBit] at hr ⊢
    omega
  have he := exponent_ofLow (n := n) hp
  have hf := fraction_ofLow (n := n) hp
  obtain hlt | heq := Nat.lt_or_eq_of_le hr
  · have he' : ((k + 1022) * leadingBit + lead) / leadingBit = k + 1023 := by
      simp only [leadingBit] at hl hlt ⊢
      omega
    have hf' : ((k + 1022) * leadingBit + lead) % leadingBit = lead - leadingBit := by
      simp only [leadingBit] at hl hlt ⊢
      omega
    rw [he'] at he
    refine ⟨decide_eq_true (by omega), ?_⟩
    rw [magnitude, he, hf, hf', if_neg (by omega), Nat.shiftLeft_eq, Nat.add_sub_cancel' hl]
    rfl
  · have he' : ((k + 1022) * leadingBit + lead) / leadingBit = k + 1024 := by
      simp only [leadingBit] at heq ⊢
      omega
    have hf' : ((k + 1022) * leadingBit + lead) % leadingBit = 0 := by
      simp only [leadingBit] at heq ⊢
      omega
    rw [he'] at he
    refine ⟨decide_eq_true (by omega), ?_⟩
    rw [magnitude, he, hf, hf', if_neg (by omega), Nat.shiftLeft_eq, Nat.add_zero, heq,
      show k + 1024 - 1 = k + 1022 + 1 by omega, Nat.pow_succ, Nat.mul_comm (2 ^ _) 2,
      ← Nat.mul_assoc, Nat.mul_comm leadingBit 2]

theorem ofInt_spec {i : Int} (h : i.natAbs.log2 ≤ 63) : (ofInt i).isFinite = true ∧
    (ofInt i).units =
      (if i < 0 then -(rounded i.natAbs : Int) else rounded i.natAbs) * unitsPerOne := by
  by_cases h0 : i = 0
  · subst h0
    decide +kernel
  · obtain ⟨hl, hr⟩ := leadingBits_bounds (Int.natAbs_ne_zero.2 h0)
    have hp : (i.natAbs.log2 + 1022) * leadingBit + leadingBits i.natAbs < signBit := by
      simp only [leadingBit, signBit] at hr ⊢
      omega
    obtain ⟨hf, hm⟩ := magnitude_ofLow (n := decide (i < 0)) h hl hr
    rw [leadingBits_mul] at hm
    rw [ofInt_eq h0]
    refine ⟨hf, ?_⟩
    rw [units, negative_ofLow hp, hm, Int.natCast_mul]
    by_cases hi : i < 0
    · rw [if_pos (decide_eq_true hi), if_pos hi, Int.neg_mul]
    · rw [if_neg (by simpa using hi), if_neg hi]

theorem pow_dvd_of_magnitude {d : Double} {n : Nat} (hk : 52 < n.log2)
    (h : d.magnitude = n * unitsPerOne) : 2 ^ (n.log2 - 52) ∣ n := by
  have hn : n ≠ 0 := fun h0 => absurd hk (by rw [h0]; decide)
  obtain ⟨a, ha, hu⟩ := exists_unitsPerOne_eq
  have hf := d.fraction_lt
  rw [magnitude, hu] at h
  by_cases he : d.exponent = 0
  · have hone : 2 ^ 52 ≤ 2 ^ a := Nat.pow_le_pow_right Nat.two_pos (by omega)
    have hle := Nat.le_mul_of_pos_left (2 ^ a) (Nat.pos_of_ne_zero hn)
    rw [if_pos he] at h
    simp only [leadingBit] at hf
    omega
  · rw [if_neg he, Nat.shiftLeft_eq] at h
    have hlt : 2 ^ (n.log2 + a) < 2 ^ (53 + (d.exponent - 1)) := by
      rw [Nat.pow_add, Nat.pow_add]
      calc 2 ^ n.log2 * 2 ^ a ≤ n * 2 ^ a := Nat.mul_le_mul_right _ (Nat.log2_self_le hn)
        _ = (leadingBit + d.fraction) * 2 ^ (d.exponent - 1) := h.symm
        _ < 2 ^ 53 * 2 ^ (d.exponent - 1) := by
          refine Nat.mul_lt_mul_of_pos_right ?_ (Nat.two_pow_pos _)
          simp only [leadingBit] at hf ⊢
          omega
    have hle := (Nat.pow_lt_pow_iff_right Nat.one_lt_two).1 hlt
    obtain ⟨j, hj⟩ := Nat.exists_eq_add_of_le (show n.log2 - 52 + a ≤ d.exponent - 1 by omega)
    refine ⟨(leadingBit + d.fraction) * 2 ^ j, Nat.eq_of_mul_eq_mul_right (Nat.two_pow_pos a) ?_⟩
    rw [← h, hj, Nat.pow_add, Nat.pow_add]
    ring

theorem rounded_of_units {d : Double} {n : Nat} (h : d.magnitude = n * unitsPerOne) :
    rounded n = n := by
  rw [rounded]
  by_cases hk : n.log2 ≤ 52
  · rw [if_pos hk]
  · have hdvd := pow_dvd_of_magnitude (Nat.lt_of_not_le hk) h
    rw [if_neg hk, roundedQuotient_of_dvd (by omega) hdvd, Nat.div_mul_cancel hdvd]

theorem log2_natAbs_toInt (i : Int64) : i.toInt.natAbs.log2 ≤ 63 := by
  have hl := i.le_toInt
  have hr := i.toInt_lt
  by_cases h0 : i.toInt.natAbs = 0
  · rw [h0]
    decide
  · have := (Nat.log2_lt h0 (k := 64)).2 (by omega)
    omega

def nearest (i : Int64) : Int :=
  if i.toInt < 0 then -(rounded i.toInt.natAbs : Int) else rounded i.toInt.natAbs

theorem units_ofInt (i : Int64) : (ofInt i.toInt).units = nearest i * unitsPerOne :=
  (ofInt_spec (log2_natAbs_toInt i)).2

theorem isFinite_ofInt (i : Int64) : (ofInt i.toInt).isFinite = true :=
  (ofInt_spec (log2_natAbs_toInt i)).1

theorem truncated_ofInt (i : Int64) : (ofInt i.toInt).truncated = nearest i := by
  rw [truncated, units_ofInt, Int.mul_tdiv_cancel _ (Int.ne_of_gt NumberKey.unitsPerOne_pos)]

theorem nearest_of_rounded {i : Int64} (h : rounded i.toInt.natAbs = i.toInt.natAbs) :
    nearest i = i.toInt := by
  rw [nearest, h]
  split <;> omega

/-- If any double is equal to an integer, the nearest double is. -/
theorem nearest_of_units {d : Double} {i : Int64} (h : d.units = i.toInt * unitsPerOne) :
    nearest i = i.toInt := by
  refine nearest_of_rounded (rounded_of_units (d := d) ?_)
  have hn := congrArg Int.natAbs h
  rw [Int.natAbs_mul, Int.natAbs_natCast] at hn
  rw [← hn, units]
  cases d.negative
  · rw [if_neg Bool.false_ne_true, Int.natAbs_natCast]
  · rw [if_pos rfl, Int.natAbs_neg, Int.natAbs_natCast]

theorem nearest_toInt64 (n : Int32) : nearest n.toInt64 = n.toInt := by
  have ht := Int32.toInt_toInt64 n
  have hl := n.le_toInt
  have hr := n.toInt_lt
  rw [← ht]
  refine nearest_of_rounded ?_
  rw [rounded, if_pos]
  rw [ht]
  by_cases h0 : n.toInt.natAbs = 0
  · rw [h0]
    decide
  · have := (Nat.log2_lt h0 (k := 53)).2 (by omega)
    omega

end Double

end DocumentServer
