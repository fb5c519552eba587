import DocumentServer.Double.Operations
import DocumentServer.Proofs.ScalarOrder
import Mathlib

namespace DocumentServer

abbrev Extended : Type := WithBot (WithTop ℚ)

namespace Extended

def ofRat (q : ℚ) : Extended := WithBot.some (WithTop.some q)

theorem ofRat_inj {p q : ℚ} : ofRat p = ofRat q ↔ p = q :=
  WithBot.coe_inj.trans WithTop.coe_inj

theorem some_ofRat_inj {i j : Int} : some (ofRat i) = some (ofRat j) ↔ i = j := by
  rw [Option.some_inj, ofRat_inj, Int.cast_inj]

theorem bot_ne_ofRat (q : ℚ) : (⊥ : Extended) ≠ ofRat q := WithBot.bot_ne_coe

theorem top_ne_ofRat (q : ℚ) : (⊤ : Extended) ≠ ofRat q := fun h =>
  WithTop.top_ne_coe (WithBot.coe_inj.1 h)

end Extended

namespace Double

/-- The rational number that is given by the fields of a double. -/
def rational (d : Double) : ℚ :=
  (if d.negative then -1 else 1) *
    if d.exponent = 0 then (d.fraction : ℚ) / 2 ^ 52 * 2 ^ (-1022 : ℤ)
    else (1 + (d.fraction : ℚ) / 2 ^ 52) * 2 ^ ((d.exponent : ℤ) - 1023)

/-- The number that a double stands for. A NaN stands for none. -/
def real? (d : Double) : Option Extended :=
  if d.isNaN then none
  else if d.isFinite then some (.ofRat d.rational)
  else if d.negative then some ⊥ else some ⊤

/-- The unit is so small that it can be split at will. -/
theorem unitsPerOne_eq {m n : Nat} (h : m + n = 1074) : unitsPerOne = 2 ^ m * 2 ^ n := by
  have hs : 1 <<< (m + n) = 2 ^ m * 2 ^ n := by rw [Nat.one_shiftLeft, Nat.pow_add]
  rw [h] at hs
  exact hs

theorem unitsPerOne_cast : (unitsPerOne : ℚ) = 2 ^ 52 * 2 ^ 1022 := by
  rw [unitsPerOne_eq (m := 52) (n := 1022) rfl, Nat.cast_mul, Nat.cast_pow, Nat.cast_pow,
    Nat.cast_ofNat]

theorem exponent_lt (d : Double) : d.exponent < 2048 :=
  Nat.mod_lt _ (by decide)

theorem magnitude_cast (d : Double) :
    (d.magnitude : ℚ) =
      (if d.exponent = 0 then (d.fraction : ℚ) / 2 ^ 52 * 2 ^ (-1022 : ℤ)
        else (1 + (d.fraction : ℚ) / 2 ^ 52) * 2 ^ ((d.exponent : ℤ) - 1023)) * unitsPerOne := by
  rw [magnitude, unitsPerOne_cast]
  by_cases he : d.exponent = 0
  · rw [if_pos he, if_pos he, zpow_neg]
    field_simp
  · obtain ⟨k, hk⟩ := Nat.exists_eq_succ_of_ne_zero he
    have hz : (2 : ℚ) ^ ((d.exponent : ℤ) - 1023) = 2 ^ k / 2 ^ 1022 := by
      rw [hk, ← zpow_natCast, ← zpow_natCast, ← zpow_sub₀ two_ne_zero]
      congr 1
      push_cast
      ring
    have hl : ((leadingBit : Nat) : ℚ) = 2 ^ 52 := by norm_num [leadingBit]
    rw [if_neg he, if_neg he, hz, hk, Nat.succ_sub_one, Nat.shiftLeft_eq, Nat.cast_mul,
      Nat.cast_add, hl, Nat.cast_pow, Nat.cast_ofNat]
    field_simp

theorem units_cast (d : Double) : (d.units : ℚ) = d.rational * unitsPerOne := by
  rw [units, rational]
  cases d.negative
  · rw [if_neg Bool.false_ne_true, if_neg Bool.false_ne_true, Int.cast_natCast, magnitude_cast,
      one_mul]
  · rw [if_pos rfl, if_pos rfl, Int.cast_neg, Int.cast_natCast, magnitude_cast, mul_assoc,
      neg_one_mul]

theorem magnitude_lt {d e : Double} (h : d.exponent < e.exponent ∨
    d.exponent = e.exponent ∧ d.fraction < e.fraction) : d.magnitude < e.magnitude := by
  have hf := d.fraction_lt
  rw [magnitude, magnitude]
  obtain he | ⟨he, hl⟩ := h
  · rw [if_neg (Nat.ne_zero_of_lt he)]
    by_cases hd : d.exponent = 0
    · rw [if_pos hd]
      exact Nat.lt_of_lt_of_le hf (leadingBit_le_significand _ _)
    · rw [if_neg hd]
      exact significand_lt hf (by omega)
  · rw [he]
    by_cases hz : e.exponent = 0
    · rwa [if_pos hz, if_pos hz]
    · rw [if_neg hz, if_neg hz, Nat.shiftLeft_eq, Nat.shiftLeft_eq]
      exact Nat.mul_lt_mul_of_pos_right (Nat.add_lt_add_left hl _) (Nat.two_pow_pos _)

def low (d : Double) : Nat := d.exponent * leadingBit + d.fraction

theorem low_eq (d : Double) :
    d.bits.toNat = (if d.negative then signBit else 0) + d.low := by
  rw [bits_eq, low, Nat.add_assoc]

theorem magnitude_lt_iff {d e : Double} : d.magnitude < e.magnitude ↔ d.low < e.low := by
  have hf := d.fraction_lt
  have hg := e.fraction_lt
  have lt_of_low {d e : Double} (hd : d.fraction < leadingBit) (he : e.fraction < leadingBit)
      (h : d.low < e.low) : d.magnitude < e.magnitude := by
    refine magnitude_lt ?_
    simp only [low, leadingBit] at h hd he
    omega
  refine ⟨fun h => ?_, lt_of_low hf hg⟩
  by_contra hn
  obtain hl | hl := Nat.lt_or_eq_of_le (Nat.le_of_not_lt hn)
  · exact absurd (lt_of_low hg hf hl) (Nat.lt_asymm h)
  · have hm : d.magnitude = e.magnitude := by
      simp only [low, leadingBit] at hl hf hg
      have he : d.exponent = e.exponent := by omega
      have hx : d.fraction = e.fraction := by omega
      rw [magnitude, magnitude, he, hx]
    exact Nat.ne_of_lt h hm

def infinity : Double := ⟨0x7ff0000000000000⟩

theorem magnitude_lt_infinity {d : Double} (h : d.isFinite = true) :
    d.magnitude < infinity.magnitude := by
  refine magnitude_lt (.inl ?_)
  have hi : infinity.exponent = 2047 := by decide
  have hd := d.exponent_lt
  have hn : d.exponent ≠ 2047 := of_decide_eq_true h
  omega

theorem magnitude_eq_infinity {d : Double} (hn : d.isNaN = false) (h : d.isFinite = false) :
    d.magnitude = infinity.magnitude := by
  have he : d.exponent = 2047 := not_not.1 (of_decide_eq_false h)
  have hf : d.fraction = 0 := by simpa [isNaN, he] using hn
  rw [magnitude, he, hf]
  rfl

/-- The number that has a size in units. Sizes from that of an infinity on are infinite. -/
def scale (u : Int) : Extended :=
  if (infinity.magnitude : Int) ≤ u then ⊤
  else if u ≤ -(infinity.magnitude : Int) then ⊥
  else .ofRat (u / unitsPerOne)

theorem unitsPerOne_ne_zero : (unitsPerOne : ℚ) ≠ 0 := by
  rw [unitsPerOne_cast]
  positivity

theorem real?_eq_scale {d : Double} (hn : d.isNaN = false) : d.real? = some (scale d.units) := by
  rw [real?, hn, if_neg Bool.false_ne_true, scale]
  cases hf : d.isFinite with
  | true =>
    have hm := magnitude_lt_infinity hf
    have hr : d.rational = d.units / unitsPerOne := by
      rw [units_cast, mul_div_cancel_right₀ _ unitsPerOne_ne_zero]
    rw [if_pos rfl, hr, units]
    cases d.negative
    · rw [if_neg Bool.false_ne_true, if_neg (by omega), if_neg (by omega)]
    · rw [if_pos rfl, if_neg (by omega), if_neg (by omega)]
  | false =>
    have hm := magnitude_eq_infinity hn hf
    have hi : 0 < infinity.magnitude := by decide +kernel
    rw [if_neg Bool.false_ne_true, units, hm]
    cases d.negative
    · rw [if_neg Bool.false_ne_true, if_neg Bool.false_ne_true, if_pos (Int.le_refl _)]
    · rw [if_pos rfl, if_pos rfl, if_neg (by omega), if_pos (Int.le_refl _)]

theorem scale_strictMono :
    StrictMonoOn scale (Set.Icc (-(infinity.magnitude : Int)) infinity.magnitude) := by
  intro u hu w hw h
  have hl : -(infinity.magnitude : Int) < w := Int.lt_of_le_of_lt hu.1 h
  have hr : u < (infinity.magnitude : Int) := Int.lt_of_lt_of_le h hw.2
  rw [scale, scale, if_neg (Int.not_le.2 hr), if_neg (Int.not_le.2 hl)]
  by_cases hu : u ≤ -(infinity.magnitude : Int)
  · rw [if_pos hu]
    by_cases hw : (infinity.magnitude : Int) ≤ w
    · rw [if_pos hw]
      exact WithBot.bot_lt_coe _
    · rw [if_neg hw]
      exact WithBot.bot_lt_coe _
  · rw [if_neg hu]
    by_cases hw : (infinity.magnitude : Int) ≤ w
    · rw [if_pos hw]
      exact WithBot.coe_lt_coe.2 (WithTop.coe_lt_top _)
    · rw [if_neg hw]
      have hp : (0 : ℚ) < unitsPerOne := by
        rw [unitsPerOne_cast]
        positivity
      have hq : (u : ℚ) / unitsPerOne < w / unitsPerOne :=
        div_lt_div_of_pos_right (Int.cast_lt.2 h) hp
      exact WithBot.coe_lt_coe.2 (WithTop.coe_lt_coe.2 hq)

end Double

end DocumentServer
