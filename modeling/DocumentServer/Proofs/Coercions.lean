import DocumentServer.Proofs.NearestDoubles
import DocumentServer.Proofs.NumberOrder
import DocumentServer.Value.Number

namespace DocumentServer

namespace Double

theorem isWhole_iff {d : Double} :
    d.isWhole = true ↔ d.isFinite = true ∧ d.units = d.truncated * unitsPerOne := by
  rw [isWhole, Bool.and_eq_true, decide_eq_true_iff, units_trunc]

section whole

variable {d e : Double} {i : Int} (hd : d.isWhole = true) (he : e.isFinite = true)
  (hi : e.units = i * unitsPerOne)

include hd he hi

theorem isAtMost_whole : e.isAtMost d = true ↔ i ≤ d.truncated := by
  obtain ⟨hf, hu⟩ := isWhole_iff.1 hd
  rw [isAtMost_iff (isNaN_of_isFinite he) (isNaN_of_isFinite hf), hi, hu]
  exact Int.mul_le_mul_right NumberKey.unitsPerOne_pos

theorem whole_isAtMost : d.isAtMost e = true ↔ d.truncated ≤ i := by
  obtain ⟨hf, hu⟩ := isWhole_iff.1 hd
  rw [isAtMost_iff (isNaN_of_isFinite hf) (isNaN_of_isFinite he), hi, hu]
  exact Int.mul_le_mul_right NumberKey.unitsPerOne_pos

theorem whole_isBelow : d.isBelow e = true ↔ d.truncated < i := by
  obtain ⟨hf, hu⟩ := isWhole_iff.1 hd
  rw [isBelow_iff (isNaN_of_isFinite hf) (isNaN_of_isFinite he), hi, hu]
  exact Int.mul_lt_mul_right NumberKey.unitsPerOne_pos

end whole

theorem real?_eq_integer_iff {d : Double} {i : Int64} :
    d.real? = some (.ofRat i.toInt) ↔ d.isNaN = false ∧ d.units = i.toInt * unitsPerOne := by
  have hi : (Number.integer i).real? = some (.ofRat i.toInt) := rfl
  constructor
  · intro h
    have hn := Number.isNaN_of_real? (x := .double d) h
    have hc := Number.compare_units (x := .double d) (y := .integer i) h hi
    rw [compare_eq_iff_eq.2 rfl] at hc
    exact ⟨hn, compare_eq_iff_eq.1 hc⟩
  · rintro ⟨hn, hu⟩
    rw [real?_eq_scale hn, hu, ← hi, Number.real?_eq_scale rfl]
    rfl

theorem whole_iff {d : Double} {i : Int64} :
    d.isWhole = true ∧ d.truncated = i.toInt ↔ d.real? = some (.ofRat i.toInt) := by
  rw [real?_eq_integer_iff, isWhole_iff]
  have hp := NumberKey.unitsPerOne_pos
  constructor
  · rintro ⟨⟨hf, hu⟩, ht⟩
    exact ⟨isNaN_of_isFinite hf, by rw [hu, ht]⟩
  · rintro ⟨hn, hu⟩
    have ht : d.truncated = i.toInt := by
      rw [truncated, hu, Int.mul_tdiv_cancel _ (Int.ne_of_gt hp)]
    have hl := Int.mul_le_mul_of_nonneg_right i.le_toInt (Int.le_of_lt hp)
    have hr := Int.mul_lt_mul_of_pos_right i.toInt_lt hp
    rw [← hu] at hl hr
    exact ⟨⟨isFinite_of_bounds hl hr hn, by rw [ht, hu]⟩, ht⟩

def towardZero (q : ℚ) : Int := if 0 ≤ q then ⌊q⌋ else ⌈q⌉

theorem towardZero_intCast (i : Int) : towardZero i = i := by
  rw [towardZero, Int.floor_intCast, Int.ceil_intCast, ite_self]

theorem real?_cases (d : Double) :
    (d.isNaN = true ∧ d.real? = none) ∨
      (d.isFinite = true ∧ d.real? = some (.ofRat d.rational)) ∨
      (d.isNaN = false ∧ d.isFinite = false ∧ d.real? = some (if d.negative then ⊥ else ⊤)) := by
  rw [real?]
  cases hn : d.isNaN with
  | true => exact .inl ⟨rfl, rfl⟩
  | false =>
    cases hf : d.isFinite with
    | true => exact .inr (.inl ⟨rfl, rfl⟩)
    | false =>
      refine .inr (.inr ⟨rfl, rfl, ?_⟩)
      cases d.negative <;> rfl

theorem extreme_ne_ofRat (negative : Bool) (q : ℚ) :
    some (if negative then ⊥ else ⊤ : Extended) ≠ some (.ofRat q) := by
  intro h
  cases negative
  · exact Extended.top_ne_ofRat q (Option.some.inj h)
  · exact Extended.bot_ne_ofRat q (Option.some.inj h)

theorem rational_of_real? {d : Double} {q : ℚ} (h : d.real? = some (.ofRat q)) :
    d.isFinite = true ∧ d.rational = q := by
  obtain ⟨-, hr⟩ | ⟨hf, hr⟩ | ⟨-, -, hr⟩ := d.real?_cases
  · rw [hr] at h
    cases h
  · exact ⟨hf, Extended.ofRat_inj.1 (Option.some.inj (hr.symm.trans h))⟩
  · exact absurd (hr.symm.trans h) (extreme_ne_ofRat _ _)

theorem truncated_eq {d : Double} {q : ℚ} (h : d.real? = some (.ofRat q)) :
    d.truncated = towardZero q := by
  have hp : (0 : ℚ) < unitsPerOne := by
    rw [unitsPerOne_cast]
    positivity
  have hq : q = d.units / unitsPerOne := by
    rw [units_cast, (rational_of_real? h).2, mul_div_cancel_right₀ _ unitsPerOne_ne_zero]
  rw [truncated, towardZero, hq]
  by_cases hs : 0 ≤ d.units
  · have hz : (0 : ℚ) ≤ d.units / unitsPerOne := div_nonneg (Int.cast_nonneg hs) hp.le
    rw [if_pos hz, Rat.floor_intCast_div_natCast, Int.tdiv_eq_ediv_of_nonneg hs]
  · have hz : (d.units : ℚ) / unitsPerOne < 0 :=
      div_neg_of_neg_of_pos (Int.cast_lt_zero.2 (Int.not_le.1 hs)) hp
    have hneg : (-d.units).tdiv unitsPerOne = -d.units / unitsPerOne :=
      Int.tdiv_eq_ediv_of_nonneg (by omega)
    rw [if_neg (not_le.2 hz), Rat.ceil_intCast_div_natCast, ← hneg, Int.neg_tdiv, Int.neg_neg]

theorem truncated_infinite {d : Double} (hn : d.isNaN = false) (hf : d.isFinite = false) :
    if d.negative then d.truncated ≤ -2 ^ 63 else 2 ^ 63 - 1 ≤ d.truncated := by
  have hi : 2 ^ 63 ≤ (infinity.magnitude : Int).tdiv unitsPerOne := by decide +kernel
  rw [truncated, units, magnitude_eq_infinity hn hf]
  cases d.negative
  · rw [if_neg Bool.false_ne_true, if_neg Bool.false_ne_true]
    omega
  · rw [if_pos rfl, if_pos rfl, Int.neg_tdiv]
    omega

/-- The cast to a long integer rounds toward zero and saturates. -/
theorem toInt64_spec (d : Double) :
    (d.real? = none → d.toInt64 = 0) ∧
    (d.real? = some ⊥ → d.toInt64 = Int64.minValue) ∧
    (d.real? = some ⊤ → d.toInt64 = Int64.maxValue) ∧
    ∀ q : ℚ, d.real? = some (.ofRat q) →
      d.toInt64.toInt = max (-2 ^ 63) (min (towardZero q) (2 ^ 63 - 1)) := by
  have hmin : Int64.minValue.toInt = -2 ^ 63 := rfl
  have hmax : Int64.maxValue.toInt = 2 ^ 63 - 1 := rfl
  have saturates (h : d.isNaN = false) :
      d.toInt64.toInt = max (-2 ^ 63) (min d.truncated (2 ^ 63 - 1)) := by
    rw [toInt_toInt64, castTo, h, if_neg Bool.false_ne_true]
  have hbt : (⊥ : Extended) ≠ ⊤ := bot_ne_top
  obtain ⟨hn, hr⟩ | ⟨hf, hr⟩ | ⟨hn, hf, hr⟩ := d.real?_cases
  · refine ⟨fun _ => ?_, fun h => ?_, fun h => ?_, fun q h => ?_⟩
    · rw [toInt64, castTo, if_pos hn]
      rfl
    all_goals
      rw [hr] at h
      cases h
  · refine ⟨fun h => ?_, fun h => ?_, fun h => ?_, fun q h => ?_⟩
    · rw [hr] at h
      cases h
    · exact absurd (Option.some.inj (h.symm.trans hr)) (Extended.bot_ne_ofRat _)
    · exact absurd (Option.some.inj (h.symm.trans hr)) (Extended.top_ne_ofRat _)
    · rw [saturates (isNaN_of_isFinite hf), truncated_eq h]
  · have ht := truncated_infinite hn hf
    refine ⟨fun h => ?_, fun h => ?_, fun h => ?_, fun q h => ?_⟩
    · rw [hr] at h
      cases h
    · cases hs : d.negative with
      | false =>
        rw [hr, hs] at h
        exact absurd (Option.some.inj h).symm hbt
      | true =>
        rw [hs, if_pos rfl] at ht
        refine Int64.toInt_inj.1 ?_
        rw [saturates hn, hmin]
        omega
    · cases hs : d.negative with
      | false =>
        rw [hs, if_neg Bool.false_ne_true] at ht
        refine Int64.toInt_inj.1 ?_
        rw [saturates hn, hmax]
        omega
      | true =>
        rw [hr, hs] at h
        exact absurd (Option.some.inj h) hbt
    · exact absurd (hr.symm.trans h) (extreme_ne_ofRat _ _)

end Double

namespace Value

variable {τ : Type} {v w : Value τ}

theorem ok_of_whole_iff {β : Type} {toInt : β → Int} {x n : β} {l r : Int} {d : Double}
    {fault : NumberFault} (inj : ∀ {a b : β}, toInt a = toInt b → a = b)
    (hx : d.isNaN = false → l ≤ d.truncated → d.truncated < r → toInt x = d.truncated)
    (hl : l ≤ toInt n) (hr : toInt n < r) :
    (if d.isWhole = true ∧ l ≤ d.truncated ∧ d.truncated < r then .ok x else .error fault) =
      Except.ok n ↔ d.isWhole = true ∧ d.truncated = toInt n := by
  constructor
  · intro h
    split at h
    next hd =>
      obtain ⟨hw, hl, hr⟩ := hd
      have hn := Double.isNaN_of_isFinite (Double.isWhole_iff.1 hw).1
      rw [← Except.ok.inj h]
      exact ⟨hw, (hx hn hl hr).symm⟩
    next => cases h
  · rintro ⟨hw, ht⟩
    have hn := Double.isNaN_of_isFinite (Double.isWhole_iff.1 hw).1
    rw [← ht] at hl hr
    rw [if_pos ⟨hw, hl, hr⟩]
    exact congrArg Except.ok (inj ((hx hn hl hr).trans ht))

theorem toInt64_double (d : Double) : (Value.scalar (.double d) : Value τ).toInt64 =
    if d.isWhole = true ∧ -2 ^ 63 ≤ d.truncated ∧ d.truncated < 2 ^ 63 then .ok d.toInt64
    else .error (.lossy .int64) := by
  rw [toInt64]
  refine if_congr ?_ rfl rfl
  rw [Bool.and_eq_true, Bool.and_eq_true, and_assoc]
  refine and_congr_right fun hw => ?_
  rw [Double.isAtMost_whole hw (by decide) Double.units_minusTwoPow63,
    Double.whole_isBelow hw (by decide) Double.units_twoPow63]

theorem toInt32_double (d : Double) : (Value.scalar (.double d) : Value τ).toInt32 =
    if d.isWhole = true ∧ -2 ^ 31 ≤ d.truncated ∧ d.truncated < 2 ^ 31 then .ok d.toInt32
    else .error (.lossy .int32) := by
  have hl : (Double.ofInt Int32.minValue.toInt).units =
      (-2 ^ 31) * (Double.unitsPerOne : Int) := by decide +kernel
  have hr : (Double.ofInt Int32.maxValue.toInt).units =
      (2 ^ 31 - 1) * (Double.unitsPerOne : Int) := by decide +kernel
  rw [toInt32]
  refine if_congr ?_ rfl rfl
  rw [Bool.and_eq_true, Bool.and_eq_true, and_assoc]
  refine and_congr_right fun hw => ?_
  rw [Double.isAtMost_whole hw (by decide +kernel) hl,
    Double.whole_isAtMost hw (by decide +kernel) hr]
  exact and_congr_right fun _ => by omega

theorem numeric_cases (v : Value τ) :
    (∃ n, v = .scalar (.int32 n)) ∨ (∃ n, v = .scalar (.int64 n)) ∨ (∃ d, v = .scalar (.double d)) ∨
      (v.isNumeric = false ∧ v.real? = none ∧ v.toInt32 = .error .notNumeric ∧
        v.toInt64 = .error .notNumeric ∧ v.toDouble = .error .notNumeric ∧
        v.truncatedInt64 = .error .notNumeric) := by
  cases v with
  | document es | array vs | codeWithScope c es =>
    exact .inr (.inr (.inr ⟨rfl, rfl, rfl, rfl, rfl, rfl⟩))
  | scalar s =>
    cases s with
    | int32 n => exact .inl ⟨n, rfl⟩
    | int64 n => exact .inr (.inl ⟨n, rfl⟩)
    | double d => exact .inr (.inr (.inl ⟨d, rfl⟩))
    | _ => exact .inr (.inr (.inr ⟨rfl, rfl, rfl, rfl, rfl, rfl⟩))

theorem real?_int32 (n : Int32) :
    (Value.scalar (.int32 n) : Value τ).real? = some (.ofRat n.toInt) := by
  rw [← Int32.toInt_toInt64]
  rfl

theorem real?_int64 (n : Int64) :
    (Value.scalar (.int64 n) : Value τ).real? = some (.ofRat n.toInt) := rfl

theorem real?_double (d : Double) : (Value.scalar (.double d) : Value τ).real? = d.real? := rfl

theorem toInt64_eq_ok_iff {n : Int64} :
    v.toInt64 = .ok n ↔ v.real? = some (.ofRat n.toInt) := by
  obtain ⟨m, rfl⟩ | ⟨m, rfl⟩ | ⟨d, rfl⟩ | ⟨-, hr, -, hi, -⟩ := v.numeric_cases
  · rw [real?_int32, Extended.some_ofRat_inj, ← Int32.toInt_toInt64, Int64.toInt_inj]
    exact ⟨Except.ok.inj, congrArg Except.ok⟩
  · rw [real?_int64, Extended.some_ofRat_inj, Int64.toInt_inj]
    exact ⟨Except.ok.inj, congrArg Except.ok⟩
  · rw [real?_double, ← Double.whole_iff, toInt64_double]
    refine ok_of_whole_iff Int64.toInt_inj.1 (fun hn hl hr => ?_) n.le_toInt n.toInt_lt
    rw [Double.toInt_toInt64, Double.castTo_of_bounds hn hl (Int.le_sub_one_of_lt hr)]
  · rw [hr, hi]
    exact iff_of_false nofun nofun

theorem toInt32_eq_ok_iff {n : Int32} :
    v.toInt32 = .ok n ↔ v.real? = some (.ofRat n.toInt) := by
  have hl := n.le_toInt
  have hr := n.toInt_lt
  obtain ⟨m, rfl⟩ | ⟨m, rfl⟩ | ⟨d, rfl⟩ | ⟨-, hr, hi, -⟩ := v.numeric_cases
  · rw [real?_int32, Extended.some_ofRat_inj, Int32.toInt_inj]
    exact ⟨Except.ok.inj, congrArg Except.ok⟩
  · have hmin : Int32.minValue.toInt = -2 ^ 31 := rfl
    have hmax : Int32.maxValue.toInt = 2 ^ 31 - 1 := rfl
    rw [real?_int64, Extended.some_ofRat_inj, toInt32, hmin, hmax]
    constructor
    · intro h
      split at h
      next hm =>
        rw [← Except.ok.inj h, Int64.toInt_toInt32, Int.bmod_eq_of_le (by omega) (by omega)]
      next => cases h
    · intro h
      rw [if_pos (by omega)]
      refine congrArg Except.ok (Int32.toInt_inj.1 ?_)
      rw [Int64.toInt_toInt32, Int.bmod_eq_of_le (by omega) (by omega), h]
  · rw [real?_double, ← Int32.toInt_toInt64, ← Double.whole_iff, toInt32_double,
      Int32.toInt_toInt64]
    refine ok_of_whole_iff Int32.toInt_inj.1 (fun hn hl hr => ?_) hl hr
    rw [Double.toInt_toInt32, Double.castTo_of_bounds hn hl (Int.le_sub_one_of_lt hr)]
  · rw [hr, hi]
    exact iff_of_false nofun nofun

theorem real?_ofInt {n : Int64} (h : Double.nearest n = n.toInt) :
    (Double.ofInt n.toInt).real? = some (.ofRat n.toInt) := by
  rw [Double.real?_eq_integer_iff, Double.units_ofInt, h]
  exact ⟨Double.isNaN_of_isFinite (Double.isFinite_ofInt n), rfl⟩

theorem toDouble_int32 (n : Int32) :
    (Value.scalar (.int32 n) : Value τ).toDouble = .ok (.ofInt n.toInt) ∧
      (Double.ofInt n.toInt).real? = some (.ofRat n.toInt) := by
  refine ⟨rfl, ?_⟩
  have hn : Double.nearest n.toInt64 = n.toInt64.toInt := by
    rw [Double.nearest_toInt64, Int32.toInt_toInt64]
  have hr := real?_ofInt hn
  rwa [Int32.toInt_toInt64] at hr

/-- The test by a cast to 128 bits is a test for an equal double. -/
theorem toDouble_int64 (n : Int64) : (Value.scalar (.int64 n) : Value τ).toDouble =
    if Double.nearest n = n.toInt then .ok (.ofInt n.toInt) else .error (.lossy .double) := by
  have hl := n.le_toInt
  have hr := n.toInt_lt
  have hc : (Double.ofInt n.toInt).toInt128 =
      max (-0x80000000000000000000000000000000)
        (min (Double.nearest n) 0x7fffffffffffffffffffffffffffffff) := by
    rw [Double.toInt128, Double.castTo, Double.isNaN_of_isFinite (Double.isFinite_ofInt n),
      if_neg Bool.false_ne_true, Double.truncated_ofInt]
  rw [toDouble]
  refine if_congr ?_ rfl rfl
  rw [hc]
  omega

theorem real?_of_toDouble {d : Double} (h : v.toDouble = .ok d) : d.real? = v.real? := by
  obtain ⟨n, rfl⟩ | ⟨n, rfl⟩ | ⟨e, rfl⟩ | ⟨-, -, -, -, hd, -⟩ := v.numeric_cases
  · obtain ⟨hd, hr⟩ := toDouble_int32 (τ := τ) n
    rw [real?_int32, ← hr, ← Except.ok.inj (hd.symm.trans h)]
  · rw [toDouble_int64] at h
    split at h
    next hn => rw [real?_int64, ← real?_ofInt hn, ← Except.ok.inj h]
    next => cases h
  · rw [real?_double, ← Except.ok.inj h]
  · rw [hd] at h
    cases h

theorem exists_toDouble_iff :
    (∃ d, v.toDouble = .ok d) ↔ v.isNumeric = true ∧ ∃ d : Double, d.real? = v.real? := by
  obtain ⟨n, rfl⟩ | ⟨n, rfl⟩ | ⟨e, rfl⟩ | ⟨hv, -, -, -, hd, -⟩ := v.numeric_cases
  · obtain ⟨hd, hr⟩ := toDouble_int32 (τ := τ) n
    exact iff_of_true ⟨_, hd⟩ ⟨rfl, _, hr.trans (real?_int32 n).symm⟩
  · rw [toDouble_int64]
    constructor
    · rintro ⟨d, h⟩
      split at h
      next hn => exact ⟨rfl, _, (real?_ofInt hn).trans (real?_int64 n).symm⟩
      next => cases h
    · rintro ⟨-, d, hd⟩
      obtain ⟨-, hu⟩ := Double.real?_eq_integer_iff.1 (hd.trans (real?_int64 n))
      rw [if_pos (Double.nearest_of_units hu)]
      exact ⟨_, rfl⟩
  · exact iff_of_true ⟨e, rfl⟩ ⟨rfl, e, rfl⟩
  · rw [hd, hv]
    exact iff_of_false nofun nofun

theorem truncatedInt64_spec (hv : v.isNumeric = true) : ∃ n, v.truncatedInt64 = .ok n ∧
    (v.real? = none → n = 0) ∧ (v.real? = some ⊥ → n = Int64.minValue) ∧
    (v.real? = some ⊤ → n = Int64.maxValue) ∧
    ∀ q : ℚ, v.real? = some (.ofRat q) →
      n.toInt = max (-2 ^ 63) (min (Double.towardZero q) (2 ^ 63 - 1)) := by
  have integer (n : Int64) (q : ℚ) (h : some (Extended.ofRat n.toInt) = some (.ofRat q)) :
      n.toInt = max (-2 ^ 63) (min (Double.towardZero q) (2 ^ 63 - 1)) := by
    have hl := n.le_toInt
    have hr := n.toInt_lt
    rw [← Extended.ofRat_inj.1 (Option.some.inj h), Double.towardZero_intCast]
    omega
  obtain ⟨n, rfl⟩ | ⟨n, rfl⟩ | ⟨d, rfl⟩ | ⟨hn, -⟩ := v.numeric_cases
  · refine ⟨n.toInt64, rfl, nofun, fun h => ?_, fun h => ?_, integer n.toInt64⟩
    · exact absurd (Option.some.inj h).symm (Extended.bot_ne_ofRat _)
    · exact absurd (Option.some.inj h).symm (Extended.top_ne_ofRat _)
  · refine ⟨n, rfl, nofun, fun h => ?_, fun h => ?_, integer n⟩
    · exact absurd (Option.some.inj h).symm (Extended.bot_ne_ofRat _)
    · exact absurd (Option.some.inj h).symm (Extended.top_ne_ofRat _)
  · exact ⟨d.toInt64, rfl, d.toInt64_spec⟩
  · rw [hn] at hv
    cases hv

theorem truncatedInt64_of_toInt64 {n : Int64} (h : v.toInt64 = .ok n) :
    v.truncatedInt64 = .ok n := by
  obtain ⟨m, rfl⟩ | ⟨m, rfl⟩ | ⟨d, rfl⟩ | ⟨-, -, -, hi, -⟩ := v.numeric_cases
  · exact h
  · exact h
  · rw [toInt64_double] at h
    split at h
    next => exact h
    next => cases h
  · rw [hi] at h
    cases h

def coerce (target : NumberType) (v : Value τ) : Except NumberFault (Value τ) :=
  match target with
  | .int32 => v.toInt32.map fun n => .scalar (.int32 n)
  | .int64 => v.toInt64.map fun n => .scalar (.int64 n)
  | .double => v.toDouble.map fun d => .scalar (.double d)

def coerceAll (targets : List NumberType) (v : Value τ) : Except NumberFault (Value τ) :=
  targets.foldlM (fun w target => w.coerce target) v

theorem map_eq_ok {ε α β : Type} {f : α → β} {x : Except ε α} {b : β} (h : x.map f = .ok b) :
    ∃ a, x = .ok a ∧ b = f a := by
  cases x with
  | error e => cases h
  | ok a => exact ⟨a, rfl, (Except.ok.inj h).symm⟩

theorem eq_of_toDouble {e d : Double} (h : (Value.scalar (.double e) : Value τ).toDouble = .ok d) :
    d = e :=
  (Except.ok.inj h).symm

/-- A conversion that succeeds keeps the number; a NaN stays as it is. -/
theorem real?_of_coerce {target : NumberType} (h : v.coerce target = .ok w) :
    w.real? = v.real? ∧ (v.real? = none → w = v) := by
  cases target with
  | int32 =>
    obtain ⟨n, hn, rfl⟩ := map_eq_ok h
    rw [toInt32_eq_ok_iff] at hn
    rw [hn]
    exact ⟨real?_int32 n, nofun⟩
  | int64 =>
    obtain ⟨n, hn, rfl⟩ := map_eq_ok h
    rw [toInt64_eq_ok_iff] at hn
    rw [hn]
    exact ⟨real?_int64 n, nofun⟩
  | double =>
    obtain ⟨d, hd, rfl⟩ := map_eq_ok h
    refine ⟨real?_of_toDouble hd, fun hn => ?_⟩
    obtain ⟨n, rfl⟩ | ⟨n, rfl⟩ | ⟨e, rfl⟩ | ⟨-, -, -, -, he, -⟩ := v.numeric_cases
    · rw [real?_int32] at hn
      cases hn
    · rw [real?_int64] at hn
      cases hn
    · rw [eq_of_toDouble hd]
    · rw [he] at hd
      cases hd

theorem real?_of_coerceAll {targets : List NumberType} (h : v.coerceAll targets = .ok w) :
    w.real? = v.real? ∧ (v.real? = none → w = v) := by
  induction targets generalizing v with
  | nil =>
    rw [← Except.ok.inj h]
    exact ⟨rfl, fun _ => rfl⟩
  | cons target targets ih =>
    rw [coerceAll, List.foldlM_cons] at h
    cases hu : v.coerce target with
    | error e =>
      rw [hu] at h
      cases h
    | ok u =>
      rw [hu] at h
      obtain ⟨hur, hun⟩ := real?_of_coerce hu
      obtain ⟨hwr, hwn⟩ := ih h
      exact ⟨hwr.trans hur, fun hn => (hwn (hur.trans hn)).trans (hun hn)⟩

theorem exists_number?_of_real? {p : Extended} (h : v.real? = some p) :
    ∃ x, v.number? = some x ∧ x.real? = some p :=
  Option.bind_eq_some_iff.1 h

theorem cmp_of_real? {x y : Number} {p : Extended} (hx : x.real? = some p) (hy : y.real? = some p)
    (hs : Number.compareSigns y x = .eq) : y.cmp x = .eq := by
  rw [Number.cmp_eq (Number.isNaN_of_real? hy) (Number.isNaN_of_real? hx),
    Number.compare_units hy hx, compare_eq_iff_eq.2 rfl, hs]
  rfl

theorem cmp_integer {i : Int64} {p : Extended} (hv : v.real? = some p)
    (hi : (Number.integer i).real? = some p) :
    ∃ x, v.number? = some x ∧ (Number.integer i).cmp x = .eq := by
  obtain ⟨x, hx, hp⟩ := exists_number?_of_real? hv
  exact ⟨x, hx, cmp_of_real? hp hi rfl⟩

theorem cmp_double_self (d : Double) : (Number.double d).cmp (.double d) = .eq := by
  rw [Number.cmp, Number.compareDoubles]
  cases d.isNaN
  · exact compare_eq_iff_eq.2 rfl
  · exact (compare_uint64 d.bits d.bits).trans (compare_eq_iff_eq.2 rfl)

theorem cmp_of_coerce {target : NumberType} (h : v.coerce target = .ok w) :
    ∃ x y, v.number? = some x ∧ w.number? = some y ∧ y.cmp x = .eq := by
  cases target with
  | int32 =>
    obtain ⟨n, hn, rfl⟩ := map_eq_ok h
    obtain ⟨x, hx, hc⟩ := cmp_integer (toInt32_eq_ok_iff.1 hn) (real?_int32 (τ := τ) n)
    exact ⟨x, _, hx, rfl, hc⟩
  | int64 =>
    obtain ⟨n, hn, rfl⟩ := map_eq_ok h
    obtain ⟨x, hx, hc⟩ := cmp_integer (toInt64_eq_ok_iff.1 hn) (real?_int64 (τ := τ) n)
    exact ⟨x, _, hx, rfl, hc⟩
  | double =>
    obtain ⟨d, hd, rfl⟩ := map_eq_ok h
    have hr := real?_of_toDouble hd
    obtain ⟨n, rfl⟩ | ⟨n, rfl⟩ | ⟨e, rfl⟩ | ⟨-, -, -, -, he, -⟩ := v.numeric_cases
    · exact ⟨_, .double d, rfl, rfl, cmp_of_real? (real?_int32 (τ := τ) n)
        (hr.trans (real?_int32 n)) rfl⟩
    · exact ⟨_, .double d, rfl, rfl, cmp_of_real? (real?_int64 (τ := τ) n)
        (hr.trans (real?_int64 n)) rfl⟩
    · rw [eq_of_toDouble hd]
      exact ⟨_, _, rfl, rfl, cmp_double_self e⟩
    · rw [he] at hd
      cases hd

theorem fault_of_isNumeric {e : NumberFault} (hv : v.isNumeric = true) :
    (v.toInt32 = .error e → e = .lossy .int32) ∧ (v.toInt64 = .error e → e = .lossy .int64) ∧
      (v.toDouble = .error e → e = .lossy .double) := by
  have of_ite {β : Type} {p : Prop} [Decidable p] {x : β} {f : NumberFault}
      (h : (if p then .ok x else .error f) = Except.error e) : e = f := by
    split at h
    · cases h
    · exact (Except.error.inj h).symm
  obtain ⟨n, rfl⟩ | ⟨n, rfl⟩ | ⟨d, rfl⟩ | ⟨hn, -⟩ := v.numeric_cases
  · exact ⟨nofun, nofun, nofun⟩
  · exact ⟨of_ite, nofun, of_ite⟩
  · exact ⟨of_ite, of_ite, nofun⟩
  · rw [hn] at hv
    cases hv

/-- Conversions of numbers succeed exactly if they lose nothing. A number is taken as an integer if
it is an integer of the type, and as a double if some double is equal to it; the result is the same
number and compares equal to it, and no sequence of conversions changes the number, though the sign
of a zero can get lost on the way. A truncation rounds toward zero, stops at the ends of the range
and agrees with the conversion to a long integer. What is no number is refused. -/
theorem coercions_exact (v : Value τ) :
    (∀ n, v.toInt32 = .ok n ↔ v.real? = some (.ofRat n.toInt)) ∧
    (∀ n, v.toInt64 = .ok n ↔ v.real? = some (.ofRat n.toInt)) ∧
    (∀ d, v.toDouble = .ok d → d.real? = v.real?) ∧
    ((∃ d, v.toDouble = .ok d) ↔ v.isNumeric = true ∧ ∃ d : Double, d.real? = v.real?) ∧
    (∀ n, v = .scalar (.int32 n) → ∃ d, v.toDouble = .ok d) ∧
    (∀ d, v = .scalar (.double d) → v.toDouble = .ok d) ∧
    (v.isNumeric = true → ∃ n, v.truncatedInt64 = .ok n ∧
      (v.real? = none → n = 0) ∧ (v.real? = some ⊥ → n = Int64.minValue) ∧
      (v.real? = some ⊤ → n = Int64.maxValue) ∧
      ∀ q : ℚ, v.real? = some (.ofRat q) →
        n.toInt = max (-2 ^ 63) (min (Double.towardZero q) (2 ^ 63 - 1))) ∧
    (∀ n, v.toInt64 = .ok n → v.truncatedInt64 = .ok n) ∧
    (∀ target w, v.coerce target = .ok w →
      ∃ x y, v.number? = some x ∧ w.number? = some y ∧ y.cmp x = .eq) ∧
    (∀ targets w, v.coerceAll targets = .ok w →
      w.real? = v.real? ∧ (v.real? = none → w = v)) ∧
    (v.isNumeric = false → v.toInt32 = .error .notNumeric ∧ v.toInt64 = .error .notNumeric ∧
      v.toDouble = .error .notNumeric ∧ v.truncatedInt64 = .error .notNumeric) ∧
    (v.isNumeric = true → ∀ e, (v.toInt32 = .error e → e = .lossy .int32) ∧
      (v.toInt64 = .error e → e = .lossy .int64) ∧
      (v.toDouble = .error e → e = .lossy .double)) := by
  refine ⟨fun _ => toInt32_eq_ok_iff, fun _ => toInt64_eq_ok_iff, fun _ => real?_of_toDouble,
    exists_toDouble_iff, ?_, ?_, truncatedInt64_spec, fun _ => truncatedInt64_of_toInt64,
    fun _ _ => cmp_of_coerce, fun _ _ => real?_of_coerceAll, fun hv => ?_,
    fun hv _ => fault_of_isNumeric hv⟩
  · rintro n rfl
    exact ⟨_, (toDouble_int32 n).1⟩
  · rintro d rfl
    rfl
  · obtain ⟨n, rfl⟩ | ⟨n, rfl⟩ | ⟨d, rfl⟩ | ⟨-, -, h⟩ := v.numeric_cases
    · cases hv
    · cases hv
    · cases hv
    · exact h

example : (Value.scalar (.double ⟨0x8000000000000000⟩) : Value String).coerceAll [.int64, .double] =
    .ok (.scalar (.double .zero)) := rfl

end Value

end DocumentServer
