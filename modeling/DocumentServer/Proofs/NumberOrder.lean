import DocumentServer.Proofs.IntegerParts
import DocumentServer.Proofs.ValueOrder
import DocumentServer.Value.Comparison

namespace DocumentServer

theorem compare_congr {α β : Type} [LinearOrder α] [LinearOrder β] {a b : α} {c d : β}
    (hlt : a < b ↔ c < d) (hgt : b < a ↔ d < c) : compare a b = compare c d := by
  obtain h | h | h := lt_trichotomy a b
  · rw [compare_lt_iff_lt.2 h, compare_lt_iff_lt.2 (hlt.1 h)]
  · have hc : c = d := by
      refine le_antisymm (not_lt.1 fun hd => ?_) (not_lt.1 fun hd => ?_)
      · exact absurd h (ne_of_gt (hgt.2 hd))
      · exact absurd h (ne_of_lt (hlt.2 hd))
    rw [compare_eq_iff_eq.2 h, compare_eq_iff_eq.2 hc]
  · rw [compare_gt_iff_gt.2 h, compare_gt_iff_gt.2 (hgt.1 h)]

theorem compare_int64 (i j : Int64) : compare i j = compare i.toInt j.toInt := by
  change compareOfLessAndEq i j = compareOfLessAndEq i.toInt j.toInt
  simp only [compareOfLessAndEq, Int64.lt_iff_toInt_lt, Int64.toInt_inj]

theorem compare_uint64 (x y : UInt64) :
    compare x y = compare (x.toNat : Int) (y.toNat : Int) := by
  change compareOfLessAndEq x y = compareOfLessAndEq (x.toNat : Int) (y.toNat : Int)
  simp only [compareOfLessAndEq, UInt64.lt_iff_toNat_lt, UInt64.toNat_inj, Int.ofNat_lt,
    Int.ofNat_inj]

namespace Double

def isNegativeZero (d : Double) : Bool := d.isZero && d.negative

theorem place_eq (d : Double) :
    d.place = if d.negative then -1 - (d.low : Int) else d.low := by
  rw [place, low_eq]
  cases d.negative
  · rw [if_neg Bool.false_ne_true, if_neg Bool.false_ne_true, if_neg Bool.false_ne_true,
      Nat.zero_add]
  · rw [if_pos rfl, if_pos rfl, if_pos rfl, Nat.add_sub_cancel_left]

/-- The order of bit patterns is the order of sizes, but for the two zeros. -/
theorem compare_place (d e : Double) : compare d.place e.place =
    (compare d.units e.units).then (compare e.isNegativeZero d.isNegativeZero) := by
  have hde := magnitude_lt_iff (d := d) (e := e)
  have hed := magnitude_lt_iff (d := e) (e := d)
  have same (hm : d.magnitude = e.magnitude) : d.isZero = e.isZero := by
    rw [isZero, isZero, hm]
  rw [place_eq, place_eq, units, units, isNegativeZero, isNegativeZero]
  cases hd : d.negative <;> cases he : e.negative <;>
    simp only [if_true, if_false, Bool.false_eq_true, Bool.and_true, Bool.and_false]
  case false.false =>
    rw [compare_eq_iff_eq.2 rfl, Ordering.then_eq]
    exact compare_congr (by omega) (by omega)
  case true.true =>
    have hz : (compare (-(d.magnitude : Int)) (-(e.magnitude : Int))).then
        (compare e.isZero d.isZero) = compare (-(d.magnitude : Int)) (-(e.magnitude : Int)) := by
      cases hc : compare (-(d.magnitude : Int)) (-(e.magnitude : Int)) with
      | lt | gt => rfl
      | eq =>
        have hm : d.magnitude = e.magnitude := by
          have := compare_eq_iff_eq.1 hc
          omega
        rw [same hm]
        exact compare_eq_iff_eq.2 rfl
    rw [hz]
    exact compare_congr (by omega) (by omega)
  case true.false =>
    rw [compare_lt_iff_lt.2 (by omega)]
    by_cases hz : d.magnitude = 0 ∧ e.magnitude = 0
    · rw [hz.1, hz.2, isZero, hz.1]
      rfl
    · rw [compare_lt_iff_lt.2 (by omega)]
      rfl
  case false.true =>
    rw [compare_gt_iff_gt.2 (by omega)]
    by_cases hz : d.magnitude = 0 ∧ e.magnitude = 0
    · rw [hz.1, hz.2, isZero, hz.2]
      rfl
    · rw [compare_gt_iff_gt.2 (by omega)]
      rfl

end Double

namespace Number

def units : Number → Int
  | integer i => i.toInt * (Double.unitsPerOne : Int)
  | double d => d.units

def real? : Number → Option Extended
  | integer i => some (.ofRat i.toInt)
  | double d => d.real?

/-- The integer part and what is behind the point decide together as the whole size does. -/
theorem compare_parts {u c : Int} (hc : 0 < c) (i : Int) :
    (compare i (u.tdiv c)).then
      (if u.tdiv c * c < u then .lt else if u < u.tdiv c * c then .gt else .eq) =
    compare (i * c) u := by
  have hsum := Int.tmod_add_tdiv_mul u c
  have habove := Int.lt_tdiv_add_one_mul_self u hc
  have hbelow : (u.tdiv c - 1) * c < u := by
    have := Int.lt_tmod_of_pos u hc
    rw [Int.sub_mul]
    omega
  obtain h | h | h := lt_trichotomy i (u.tdiv c)
  · have hm : i * c ≤ (u.tdiv c - 1) * c := Int.mul_le_mul_of_nonneg_right (by omega) (by omega)
    rw [compare_lt_iff_lt.2 h, compare_lt_iff_lt.2 (by omega)]
    rfl
  · subst h
    rw [compare_eq_iff_eq.2 rfl]
    split
    · exact (compare_lt_iff_lt.2 ‹_›).symm
    · split
      · exact (compare_gt_iff_gt.2 ‹_›).symm
      · exact (compare_eq_iff_eq.2 (by omega)).symm
  · have hm : (u.tdiv c + 1) * c ≤ i * c := Int.mul_le_mul_of_nonneg_right (by omega) (by omega)
    rw [compare_gt_iff_gt.2 h, compare_gt_iff_gt.2 (by omega)]
    rfl

/-- A double that is no NaN is compared with an integer by size. -/
theorem compareMixed_eq {d : Double} (hn : d.isNaN = false) (i : Int64) :
    compareMixed i d = compare (integer i).units d.units := by
  have hp := NumberKey.unitsPerOne_pos
  rw [compareMixed, hn, if_neg Bool.false_ne_true]
  simp only [Double.isAtMost_iff (d := .twoPow63) (by decide) hn,
    Double.isBelow_iff (e := .minusTwoPow63) hn (by decide), Double.units_twoPow63,
    Double.units_minusTwoPow63]
  by_cases hbig : 2 ^ 63 * (Double.unitsPerOne : Int) ≤ d.units
  · have hi : i.toInt * (Double.unitsPerOne : Int) < 2 ^ 63 * (Double.unitsPerOne : Int) :=
      Int.mul_lt_mul_of_pos_right i.toInt_lt hp
    rw [if_pos hbig]
    exact (compare_lt_iff_lt.2 (Int.lt_of_lt_of_le hi hbig)).symm
  by_cases hsmall : d.units < -2 ^ 63 * (Double.unitsPerOne : Int)
  · have hi : -2 ^ 63 * (Double.unitsPerOne : Int) ≤ i.toInt * (Double.unitsPerOne : Int) :=
      Int.mul_le_mul_of_nonneg_right i.le_toInt (Int.le_of_lt hp)
    rw [if_neg hbig, if_pos hsmall]
    exact (compare_gt_iff_gt.2 (Int.lt_of_lt_of_le hsmall hi)).symm
  · have hl := Int.not_lt.1 hsmall
    have hr := Int.not_le.1 hbig
    have hw := Double.isNaN_of_isFinite (Double.isFinite_trunc (Double.isFinite_of_bounds hl hr hn))
    have ht : d.trunc.toInt64.toInt = d.units.tdiv (Double.unitsPerOne : Int) := by
      obtain ⟨htl, htr⟩ := Double.truncated_bounds hl hr
      rw [← Double.truncated_trunc] at htl htr
      rw [Double.toInt_toInt64, Double.castTo_of_bounds hw htl (Int.le_sub_one_of_lt htr),
        Double.truncated_trunc]
      rfl
    rw [if_neg hbig, if_neg hsmall, compare_int64, ht]
    simp only [Double.isBelow_iff hw hn, Double.isBelow_iff hn hw, Double.units_trunc]
    exact compare_parts hp i.toInt

theorem compareDoubles_eq {d e : Double} (hd : d.isNaN = false) (he : e.isNaN = false) :
    compareDoubles d e =
      (compare d.units e.units).then (compare e.isNegativeZero d.isNegativeZero) := by
  rw [compareDoubles, hd, he, Double.compare_place]

theorem integer_bounds (i : Int64) : -(Double.infinity.magnitude : Int) < (integer i).units ∧
    (integer i).units < Double.infinity.magnitude := by
  have hp := NumberKey.unitsPerOne_pos
  have hi : 2 ^ 63 * (Double.unitsPerOne : Int) < Double.infinity.magnitude := by decide +kernel
  have hl := Int.mul_le_mul_of_nonneg_right i.le_toInt (Int.le_of_lt hp)
  have hr := Int.mul_lt_mul_of_pos_right i.toInt_lt hp
  rw [units]
  omega

def isNaN : Number → Bool
  | integer _ => false
  | double d => d.isNaN

theorem units_mem {x : Number} (h : x.isNaN = false) :
    x.units ∈ Set.Icc (-(Double.infinity.magnitude : Int)) Double.infinity.magnitude := by
  cases x with
  | integer i =>
    obtain ⟨hl, hr⟩ := integer_bounds i
    exact ⟨Int.le_of_lt hl, Int.le_of_lt hr⟩
  | double d =>
    have hm : d.magnitude ≤ Double.infinity.magnitude := by
      cases hf : d.isFinite with
      | true => exact Nat.le_of_lt (Double.magnitude_lt_infinity hf)
      | false => exact Nat.le_of_eq (Double.magnitude_eq_infinity h hf)
    rw [units, Double.units]
    cases d.negative
    · exact ⟨by omega, Int.ofNat_le.2 hm⟩
    · exact ⟨Int.neg_le_neg (Int.ofNat_le.2 hm), by omega⟩

theorem real?_of_isNaN {x : Number} (h : x.isNaN = true) : x.real? = none := by
  cases x with
  | integer i => cases h
  | double d => exact if_pos h

theorem exists_of_real? {x : Number} (h : x.real? = none) :
    ∃ d, x = double d ∧ d.isNaN = true := by
  cases x with
  | integer i => cases h
  | double d =>
    refine ⟨d, rfl, ?_⟩
    cases hn : d.isNaN with
    | true => rfl
    | false =>
      rw [real?, Double.real?_eq_scale hn] at h
      cases h

theorem real?_eq_scale {x : Number} (h : x.isNaN = false) :
    x.real? = some (Double.scale x.units) := by
  cases x with
  | integer i =>
    obtain ⟨hl, hr⟩ := integer_bounds i
    have hq : (((integer i).units : Int) : ℚ) / Double.unitsPerOne = i.toInt := by
      rw [units, Int.cast_mul, Int.cast_natCast, mul_div_cancel_right₀ _ Double.unitsPerOne_ne_zero]
    rw [real?, Double.scale, if_neg (Int.not_le.2 hr), if_neg (Int.not_le.2 hl), hq]
  | double d => exact Double.real?_eq_scale h

theorem isNaN_of_real? {x : Number} {p : Extended} (h : x.real? = some p) :
    x.isNaN = false := by
  cases hn : x.isNaN with
  | false => rfl
  | true =>
    rw [real?_of_isNaN hn] at h
    cases h

theorem compare_units {x y : Number} {p q : Extended} (hx : x.real? = some p)
    (hy : y.real? = some q) : compare x.units y.units = compare p q := by
  have hxn := isNaN_of_real? hx
  have hyn := isNaN_of_real? hy
  rw [real?_eq_scale hxn] at hx
  rw [real?_eq_scale hyn] at hy
  rw [← Option.some.inj hx, ← Option.some.inj hy, ← cmp_eq_compare, ← cmp_eq_compare]
  exact (Double.scale_strictMono.cmp_map_eq (units_mem hxn) (units_mem hyn)).symm

theorem compare_integers (i j : Int64) :
    compare i j = compare (integer i).units (integer j).units := by
  have hp := NumberKey.unitsPerOne_pos
  rw [compare_int64]
  exact compare_congr (Int.mul_lt_mul_right hp).symm (Int.mul_lt_mul_right hp).symm

def compareSigns : Number → Number → Ordering
  | double d, double e => compare e.isNegativeZero d.isNegativeZero
  | integer _, _ | double _, integer _ => .eq

theorem cmp_eq {x y : Number} (hx : x.isNaN = false) (hy : y.isNaN = false) :
    x.cmp y = (compare x.units y.units).then (compareSigns x y) := by
  match x, y with
  | integer i, integer j => exact (compare_integers i j).trans Ordering.then_eq.symm
  | integer i, double d => exact (compareMixed_eq hy i).trans Ordering.then_eq.symm
  | double d, integer i =>
    have hs : (compareMixed i d).swap = compare (double d).units (integer i).units := by
      rw [compareMixed_eq hx i]
      exact Std.OrientedOrd.eq_swap.symm
    exact hs.trans Ordering.then_eq.symm
  | double d, double e => exact compareDoubles_eq hx hy

theorem cmp_of_isNaN {d : Double} {y : Number} (hd : d.isNaN = true) (hy : y.isNaN = false) :
    (double d).cmp y = .lt := by
  cases y with
  | integer i =>
    rw [cmp, compareMixed, if_pos hd]
    rfl
  | double e =>
    have he : e.isNaN = false := hy
    rw [cmp, compareDoubles, hd, he]

/-- The key that a number is sorted by. -/
def key : Number → NumberKey
  | integer i => .ofInt i.toInt
  | double d => .ofDouble d

theorem key_cmp_integers (i j : Int64) : (integer i).key.cmp (integer j).key = compare i j := by
  rw [key, key, NumberKey.cmp, NumberKey.ofInt, NumberKey.ofInt]
  exact Ordering.then_eq.trans (compare_integers i j).symm

theorem key_cmp_doubles (d e : Double) :
    (double d).key.cmp (double e).key = compareDoubles d e := by
  rw [key, key, NumberKey.cmp, NumberKey.ofDouble, NumberKey.ofDouble]
  cases hd : d.isNaN <;> cases he : e.isNaN
  case false.false =>
    rw [compareDoubles_eq hd he, if_neg Bool.false_ne_true, if_neg Bool.false_ne_true]
    have hz : compare (!(d.isZero && d.negative)) (!(e.isZero && e.negative)) =
        compare e.isNegativeZero d.isNegativeZero := by
      rw [Double.isNegativeZero, Double.isNegativeZero]
      cases d.isZero && d.negative <;> cases e.isZero && e.negative <;> rfl
    exact congrArg (compare d.units e.units).then hz
  case false.true | true.false =>
    rw [compareDoubles, hd, he]
    rfl
  case true.true =>
    rw [compareDoubles, hd, he, if_pos rfl, if_pos rfl]
    exact Ordering.then_eq.trans (compare_uint64 d.bits e.bits).symm

/-- The sign of a zero counts for an integer and a double in keys, but not more than their types. -/
theorem key_cmp_mixed (i : Int64) (d : Double) :
    ((integer i).key.cmp (double d).key).then .gt = (compareMixed i d).then .gt := by
  rw [key, key, NumberKey.cmp, NumberKey.ofInt, NumberKey.ofDouble]
  cases hd : d.isNaN with
  | true =>
    rw [compareMixed, hd]
    rfl
  | false =>
    rw [compareMixed_eq hd, if_neg Bool.false_ne_true]
    have hs : (compare true (!(d.isZero && d.negative))).then .gt = .gt := by
      cases d.isZero && d.negative <;> rfl
    have ht : (compare true true).then ((compare (integer i).units d.units).then
        (compare true (!(d.isZero && d.negative)))) =
        (compare (integer i).units d.units).then (compare true (!(d.isZero && d.negative))) := rfl
    exact (congrArg (Ordering.then · .gt) ht).trans ((Ordering.then_assoc ..).trans (by rw [hs]))

theorem key_cmp_mixed_swap (d : Double) (i : Int64) :
    ((double d).key.cmp (integer i).key).then .lt = (compareMixed i d).swap.then .lt := by
  have hs : (double d).key.cmp (integer i).key = ((integer i).key.cmp (double d).key).swap :=
    (Std.OrientedCmp.eq_swap : NumberKey.cmp (double d).key (integer i).key = _)
  have hm := congrArg Ordering.swap (key_cmp_mixed i d)
  rw [Ordering.swap_then, Ordering.swap_then] at hm
  rw [hs]
  exact hm

end Number

namespace Value

variable {τ : Type} {v : Value τ}

theorem number?_cases {x : Number} (h : v.number? = some x) :
    (∃ n, v = .scalar (.int32 n) ∧ x = .integer n.toInt64) ∨
      (∃ n, v = .scalar (.int64 n) ∧ x = .integer n) ∨
      ∃ d, v = .scalar (.double d) ∧ x = .double d := by
  cases v with
  | document es | array vs | codeWithScope c es => cases h
  | scalar s =>
    cases s with
    | int32 n => exact .inl ⟨n, rfl, (Option.some.inj h).symm⟩
    | int64 n => exact .inr (.inl ⟨n, rfl, (Option.some.inj h).symm⟩)
    | double d => exact .inr (.inr ⟨d, rfl, (Option.some.inj h).symm⟩)
    | _ => cases h

theorem exists_number? (h : v.isNumeric = true) : ∃ x, v.number? = some x := by
  cases v with
  | document es | array vs | codeWithScope c es => cases h
  | scalar s =>
    cases s with
    | int32 n | int64 n | double d => exact ⟨_, rfl⟩
    | _ => cases h

theorem number?_double {d : Double} (h : v.number? = some (.double d)) :
    v = .scalar (.double d) := by
  obtain ⟨n, rfl, hx⟩ | ⟨n, rfl, hx⟩ | ⟨e, rfl, hx⟩ := number?_cases h
  · cases hx
  · cases hx
  · rw [Number.double.inj hx]

theorem number?_scalar {v : Value String} {x : Number} (h : v.number? = some x) :
    ∃ s : Scalar String, v = .scalar s ∧ s.tag.rank = 3 ∧ s.sortKey = .number x.key ∧
      match x with
      | .integer _ => s.tag = .int32 ∨ s.tag = .int64
      | .double _ => s.tag = .double := by
  obtain ⟨n, rfl, rfl⟩ | ⟨n, rfl, rfl⟩ | ⟨d, rfl, rfl⟩ := number?_cases h
  · refine ⟨_, rfl, rfl, ?_, .inl rfl⟩
    rw [Number.key, Int32.toInt_toInt64]
    rfl
  · exact ⟨_, rfl, rfl, rfl, .inr rfl⟩
  · exact ⟨_, rfl, rfl, rfl, rfl⟩

/-- Numeric values are compared by their numbers and then by their types. -/
theorem cmp_numbers {a b : Value String} {x y : Number} (hx : a.number? = some x)
    (hy : b.number? = some y) : a.cmp b = (x.cmp y).then (compare a.tag.byte b.tag.byte) := by
  obtain ⟨s, rfl, hs, hsk, hst⟩ := number?_scalar hx
  obtain ⟨t, rfl, ht, htk, htt⟩ := number?_scalar hy
  have hk : (Value.scalar s).cmp (.scalar t) =
      (x.key.cmp y.key).then (compare s.tag.byte t.tag.byte) := by
    rw [cmp_scalar, Scalar.cmp, hs, ht, hsk, htk]
    rfl
  rw [hk, tag, tag]
  cases x with
  | integer i =>
    cases y with
    | integer j =>
      rw [Number.key_cmp_integers]
      rfl
    | double d =>
      have hb : compare s.tag.byte t.tag.byte = .gt := by
        obtain h | h := hst <;> rw [h, show t.tag = .double from htt] <;> rfl
      rw [hb]
      exact Number.key_cmp_mixed i d
  | double d =>
    cases y with
    | integer i =>
      have hb : compare s.tag.byte t.tag.byte = .lt := by
        obtain h | h := htt <;> rw [h, show s.tag = .double from hst] <;> rfl
      rw [hb]
      exact Number.key_cmp_mixed_swap d i
    | double e =>
      rw [Number.key_cmp_doubles]
      rfl

def real? (v : Value τ) : Option Extended := v.number?.bind Number.real?

def isNegativeZero : Value τ → Bool
  | .scalar (.double d) => d.isNegativeZero
  | _ => false

theorem tags_then_signs {a b : Value τ} {x y : Number} (hx : a.number? = some x)
    (hy : b.number? = some y) :
    (Number.compareSigns x y).then (compare a.tag.byte b.tag.byte) =
      (compare a.tag.byte b.tag.byte).then (compare b.isNegativeZero a.isNegativeZero) := by
  obtain ⟨m, rfl, rfl⟩ | ⟨m, rfl, rfl⟩ | ⟨d, rfl, rfl⟩ := number?_cases hx <;>
    obtain ⟨n, rfl, rfl⟩ | ⟨n, rfl, rfl⟩ | ⟨e, rfl, rfl⟩ := number?_cases hy
  case inr.inr.inr.inr => exact Ordering.then_eq
  all_goals rfl

/-- Numbers of all types are compared exactly: the machine operations put them in the order of the
numbers that they are, infinities beyond all others. Where these are equal, the types decide, and
for doubles the sign of a zero. Every NaN comes before all numbers, and these are in the order of
their bits. -/
theorem numbers_compared {a b : Value String} (ha : a.isNumeric = true) (hb : b.isNumeric = true) :
    (∃ x y, a.number? = some x ∧ b.number? = some y ∧
      a.cmp b = (x.cmp y).then (compare a.tag.byte b.tag.byte)) ∧
    (∀ p q, a.real? = some p → b.real? = some q →
      a.cmp b = (compare p q).then ((compare a.tag.byte b.tag.byte).then
        (compare b.isNegativeZero a.isNegativeZero))) ∧
    (∀ q, a.real? = none → b.real? = some q → a.cmp b = .lt ∧ b.cmp a = .gt) ∧
    (a.real? = none → b.real? = none → ∃ d e, a = .scalar (.double d) ∧ b = .scalar (.double e) ∧
      d.isNaN = true ∧ e.isNaN = true ∧ a.cmp b = compare d.bits e.bits) ∧
    Tag.double.byte < Tag.int32.byte ∧ Tag.int32.byte < Tag.int64.byte := by
  obtain ⟨x, hx⟩ := exists_number? ha
  obtain ⟨y, hy⟩ := exists_number? hb
  have hax : a.real? = x.real? := by rw [real?, hx]; rfl
  have hby : b.real? = y.real? := by rw [real?, hy]; rfl
  have hc := cmp_numbers hx hy
  refine ⟨⟨x, y, hx, hy, hc⟩, fun p q hp hq => ?_, fun q hp hq => ?_, fun hp hq => ?_, by decide,
    by decide⟩
  · rw [hax] at hp
    rw [hby] at hq
    rw [hc, Number.cmp_eq (Number.isNaN_of_real? hp) (Number.isNaN_of_real? hq),
      Number.compare_units hp hq, Ordering.then_assoc, tags_then_signs hx hy]
  · rw [hax] at hp
    rw [hby] at hq
    obtain ⟨d, rfl, hd⟩ := Number.exists_of_real? hp
    have hl : a.cmp b = .lt := by
      rw [hc, Number.cmp_of_isNaN hd (Number.isNaN_of_real? hq)]
      rfl
    exact ⟨hl, by rw [cmp_swap, hl]; rfl⟩
  · rw [hax] at hp
    rw [hby] at hq
    obtain ⟨d, rfl, hd⟩ := Number.exists_of_real? hp
    obtain ⟨e, rfl, he⟩ := Number.exists_of_real? hq
    have had := number?_double hx
    have hbe := number?_double hy
    refine ⟨d, e, had, hbe, hd, he, ?_⟩
    rw [hc, had, hbe, Number.cmp, Number.compareDoubles, hd, he]
    exact Ordering.then_eq

/-- An integer that no double is equal to lies above the double next to it. -/
theorem cmp_beyond_doubles :
    (Value.scalar (.int64 9007199254740993)).cmp (.scalar (.double ⟨0x4340000000000000⟩)) =
      .gt := by
  obtain ⟨⟨x, y, hx, hy, hc⟩, -⟩ := numbers_compared
    (a := .scalar (.int64 9007199254740993)) (b := .scalar (.double ⟨0x4340000000000000⟩)) rfl rfl
  rw [hc, ← Option.some.inj hx, ← Option.some.inj hy]
  decide +kernel

end Value

end DocumentServer
