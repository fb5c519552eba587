import DocumentServer.Proofs.Bytes
import DocumentServer.Value.Order

namespace DocumentServer

/-- Three results of one comparison, of a first value with a second, of the second with a third and
of the first with the third, that fit each other. -/
def Chain (p q r : Ordering) : Prop := p.isLE → q.isLE → r = p.then q

namespace Chain

variable {α : Type} {p q r p' q' r' : Ordering}

theorem of_transCmp (cmp : α → α → Ordering) [Std.TransCmp cmp] (a b c : α) :
    Chain (cmp a b) (cmp b c) (cmp a c) := by
  intro hab hbc
  cases h : cmp a b with
  | lt => exact Std.TransCmp.lt_of_lt_of_isLE h hbc
  | eq => exact Std.TransCmp.congr_left h
  | gt => rw [h] at hab; contradiction

theorem lex (h : Chain p q r) (h' : Chain p' q' r') :
    Chain (p.then p') (q.then q') (r.then r') := by
  intro hp hq
  cases p <;> cases q <;> cases p' <;> simp_all [Chain]

theorem lex_of_ne (h : Chain p q r) (hne : ¬(p = .eq ∧ q = .eq)) :
    Chain (p.then p') (q.then q') (r.then r') := by
  intro hp hq
  cases p <;> cases q <;> cases p' <;> simp_all [Chain]

theorem isLE (h : Chain p q r) (hp : p.isLE) (hq : q.isLE) : r.isLE := by
  rw [h hp hq]
  cases p <;> cases q <;> simp_all

end Chain

namespace Bytes

theorem compareFrom_eq (a b : ByteArray) (i n : Nat) (h : i + n = min a.size b.size) :
    compareFrom a b i n = compare (a.data.toList.drop i) (b.data.toList.drop i) := by
  have hla : a.data.toList.length = a.size := rfl
  have hlb : b.data.toList.length = b.size := rfl
  induction n generalizing i with
  | zero =>
    rw [compareFrom]
    by_cases hab : a.size ≤ b.size
    · have ha : a.data.toList.drop i = [] := List.drop_eq_nil_of_le (by omega)
      rw [ha]
      cases hb : b.data.toList.drop i with
      | nil =>
        have hs := List.drop_eq_nil_iff.1 hb
        exact Nat.compare_eq_eq.2 (by omega)
      | cons x xs =>
        have hs : i < b.data.toList.length := by
          by_contra hn
          rw [List.drop_eq_nil_of_le (by omega)] at hb
          cases hb
        exact Nat.compare_eq_lt.2 (by omega)
    · have hb : b.data.toList.drop i = [] := List.drop_eq_nil_of_le (by omega)
      have ha : a.data.toList.drop i ≠ [] := fun hn => by
        have hs := List.drop_eq_nil_iff.1 hn
        omega
      obtain ⟨x, xs, hx⟩ := List.exists_cons_of_ne_nil ha
      rw [hb, hx]
      exact Nat.compare_eq_gt.2 (by omega)
  | succ n ih =>
    have ha : i < a.size := by omega
    have hb : i < b.size := by omega
    have hla : i < a.data.toList.length := by omega
    have hlb : i < b.data.toList.length := by omega
    have hx : at0 a i = a.data.toList[i] := at0_of_lt ha
    have hy : at0 b i = b.data.toList[i] := at0_of_lt hb
    rw [compareFrom, ih (i + 1) (by omega), List.drop_eq_getElem_cons hla,
      List.drop_eq_getElem_cons hlb, List.compare_cons_cons, hx, hy]

theorem compareBytes_eq (a b : ByteArray) :
    compareBytes a b = compare a.data.toList b.data.toList := by
  rw [compareBytes, compareFrom_eq a b 0 _ (by omega), List.drop_zero, List.drop_zero]

instance : Std.TransCmp compareBytes where
  eq_swap {a b} := by
    rw [compareBytes_eq, compareBytes_eq]
    exact Std.OrientedOrd.eq_swap
  isLE_trans {a b c} := by
    rw [compareBytes_eq, compareBytes_eq, compareBytes_eq]
    exact Std.TransOrd.isLE_trans

instance : Std.LawfulEqCmp compareBytes where
  compare_self {a} := by
    rw [compareBytes_eq]
    exact Std.ReflOrd.compare_self
  eq_of_compare {a b} h := by
    rw [compareBytes_eq] at h
    exact ByteArray.ext (Array.toList_inj.1 (Std.LawfulEqOrd.eq_of_compare h))

end Bytes

namespace Double

theorem bits_eq (d : Double) :
    d.bits.toNat = (if d.negative then signBit else 0) + d.exponent * leadingBit + d.fraction := by
  have h := d.bits.toNat_lt
  by_cases hs : signBit ≤ d.bits.toNat
  · have hn : d.negative = true := decide_eq_true hs
    rw [hn, if_pos rfl]
    simp only [exponent, fraction, signBit, leadingBit] at hs ⊢
    omega
  · have hn : d.negative = false := decide_eq_false hs
    rw [hn, if_neg Bool.false_ne_true]
    simp only [exponent, fraction, signBit, leadingBit] at hs ⊢
    omega

theorem fraction_lt (d : Double) : d.fraction < leadingBit :=
  Nat.mod_lt _ (by decide)

theorem significand_lt {f g i j : Nat} (hf : f < leadingBit) (hij : i < j) :
    (leadingBit + f) <<< i < (leadingBit + g) <<< j := by
  obtain ⟨k, rfl⟩ := Nat.exists_eq_add_of_lt hij
  rw [Nat.shiftLeft_eq, Nat.shiftLeft_eq, Nat.add_assoc, Nat.pow_add, ← Nat.mul_assoc,
    Nat.mul_right_comm]
  refine Nat.mul_lt_mul_of_pos_right ?_ (Nat.two_pow_pos i)
  have hk : 2 ≤ 2 ^ (k + 1) := by
    rw [Nat.pow_succ]
    have := Nat.two_pow_pos k
    omega
  have hm := Nat.mul_le_mul_left (leadingBit + g) hk
  omega

theorem significand_injective {f g i j : Nat} (hf : f < leadingBit) (hg : g < leadingBit)
    (h : (leadingBit + f) <<< i = (leadingBit + g) <<< j) : i = j ∧ f = g := by
  obtain hij | rfl | hij := Nat.lt_trichotomy i j
  · exact absurd h (Nat.ne_of_lt (significand_lt hf hij))
  · rw [Nat.shiftLeft_eq, Nat.shiftLeft_eq] at h
    have he := Nat.eq_of_mul_eq_mul_right (Nat.two_pow_pos i) h
    exact ⟨rfl, by omega⟩
  · exact absurd h.symm (Nat.ne_of_lt (significand_lt hg hij))

theorem leadingBit_le_significand (f i : Nat) : leadingBit ≤ (leadingBit + f) <<< i := by
  rw [Nat.shiftLeft_eq]
  exact Nat.le_trans (Nat.le_add_right _ f) (Nat.le_mul_of_pos_right _ (Nat.two_pow_pos i))

theorem magnitude_injective {d e : Double} (h : d.magnitude = e.magnitude) :
    d.exponent = e.exponent ∧ d.fraction = e.fraction := by
  have hd := d.fraction_lt
  have he := e.fraction_lt
  have hld := leadingBit_le_significand d.fraction (d.exponent - 1)
  have hle := leadingBit_le_significand e.fraction (e.exponent - 1)
  simp only [magnitude] at h
  split at h <;> split at h
  · omega
  · omega
  · omega
  · obtain ⟨hi, hf⟩ := significand_injective hd he h
    exact ⟨by omega, hf⟩

theorem ext_fields {d e : Double} (hn : d.negative = e.negative)
    (h : d.exponent = e.exponent ∧ d.fraction = e.fraction) : d = e := by
  have hb : d.bits.toNat = e.bits.toNat := by rw [bits_eq, bits_eq, hn, h.1, h.2]
  cases d with
  | mk x =>
    cases e with
    | mk y => exact congrArg Double.mk (UInt64.toNat_inj.1 hb)

theorem units_injective {d e : Double} (h : d.units = e.units)
    (hz : (d.isZero && d.negative) = (e.isZero && e.negative)) : d = e := by
  simp only [units] at h
  simp only [isZero] at hz
  cases hd : d.negative <;> cases he : e.negative <;> simp only [hd, he, if_true, if_false,
    Bool.false_eq_true, Bool.and_true, Bool.and_false] at h hz
  · exact ext_fields (by rw [hd, he]) (magnitude_injective (by omega))
  · have := of_decide_eq_false hz.symm
    omega
  · have := of_decide_eq_false hz
    omega
  · exact ext_fields (by rw [hd, he]) (magnitude_injective (by omega))

end Double

namespace NumberKey

theorem ofDouble_injective {d e : Double} (h : ofDouble d = ofDouble e) : d = e := by
  simp only [ofDouble] at h
  split at h <;> split at h <;> injection h with h1 h2 h3
  · have hb : d.bits.toNat = e.bits.toNat := by omega
    cases d with
    | mk x =>
      cases e with
      | mk y => exact congrArg Double.mk (UInt64.toNat_inj.1 hb)
  · contradiction
  · contradiction
  · exact Double.units_injective h2 (Bool.not_inj h3)

theorem unitsPerOne_pos : (0 : Int) < (Double.unitsPerOne : Int) := by
  have hs (n : Nat) : 0 < 1 <<< n := by
    rw [Nat.shiftLeft_eq, Nat.one_mul]
    exact Nat.two_pow_pos n
  have h : 0 < Double.unitsPerOne := hs _
  omega

theorem ofInt_injective {i j : Int} (h : ofInt i = ofInt j) : i = j := by
  injection h with _ h _
  exact Int.eq_of_mul_eq_mul_right (Int.ne_of_gt unitsPerOne_pos) h

instance : Std.TransCmp cmp :=
  inferInstanceAs (Std.TransCmp (compareLex (compareOn isNumber)
    (compareLex (compareOn size) (compareOn isPositive))))

instance : Std.LawfulEqCmp cmp where
  compare_self {a} := Std.ReflCmp.compare_self
  eq_of_compare {a b} h := by
    simp only [cmp, Ordering.then_eq_eq, Std.LawfulEqCmp.compare_eq_iff_eq] at h
    obtain ⟨h1, h2, h3⟩ := h
    cases a
    cases b
    simp_all

end NumberKey

namespace SortKey

def shape : SortKey → Nat
  | single => 0
  | number _ => 1
  | integer _ => 2
  | texts _ _ => 3
  | bytes _ _ => 4
  | pointer _ _ => 5

inductive Alike : SortKey → SortKey → Prop
  | single : Alike single single
  | number (a b : NumberKey) : Alike (number a) (number b)
  | integer (a b : Int) : Alike (integer a) (integer b)
  | texts (a b c d : String) : Alike (texts a b) (texts c d)
  | bytes (a : ByteArray) (s : UInt8) (b : ByteArray) (t : UInt8) : Alike (bytes a s) (bytes b t)
  | pointer (a : String) (i : ByteArray) (b : String) (j : ByteArray) :
      Alike (pointer a i) (pointer b j)

variable {a b c : SortKey}

theorem alike_of_shape (h : a.shape = b.shape) : Alike a b := by
  cases a <;> cases b <;> first | constructor | simp [shape] at h

theorem cmp_swap (h : Alike a b) : a.cmp b = (b.cmp a).swap := by
  cases h with
  | single => rfl
  | number a b => exact (Std.OrientedCmp.eq_swap : NumberKey.cmp a b = _)
  | integer a b => exact Std.OrientedOrd.eq_swap
  | texts a b c d =>
    rw [cmp, cmp, Ordering.swap_then, ← Std.OrientedOrd.eq_swap, ← Std.OrientedOrd.eq_swap]
  | bytes a s b t =>
    rw [cmp, cmp, Ordering.swap_then, ← Std.OrientedCmp.eq_swap, ← Std.OrientedOrd.eq_swap]
  | pointer a i b j =>
    rw [cmp, cmp, Ordering.swap_then, ← Std.OrientedOrd.eq_swap, ← Std.OrientedCmp.eq_swap]

theorem cmp_chain (hab : Alike a b) (hbc : Alike b c) : Chain (a.cmp b) (b.cmp c) (a.cmp c) := by
  cases hab with
  | single => cases hbc; exact fun _ _ => rfl
  | number a b => cases hbc; exact .of_transCmp NumberKey.cmp _ _ _
  | integer a b => cases hbc; exact .of_transCmp compare _ _ _
  | texts a b c d => cases hbc; exact .lex (.of_transCmp compare _ _ _) (.of_transCmp compare _ _ _)
  | bytes a s b t =>
    cases hbc
    exact .lex (.of_transCmp Bytes.compareBytes _ _ _) (.of_transCmp compare _ _ _)
  | pointer a i b j =>
    cases hbc
    exact .lex (.of_transCmp compare _ _ _) (.of_transCmp Bytes.compareBytes _ _ _)

theorem cmp_eq_iff (h : Alike a b) : a.cmp b = .eq ↔ a = b := by
  cases h <;>
    simp only [cmp, Ordering.then_eq_eq, Std.LawfulEqCmp.compare_eq_iff_eq, number.injEq,
      integer.injEq, texts.injEq, bytes.injEq, pointer.injEq]

end SortKey

namespace Tag

theorem byte_injective {t u : Tag} (h : t.byte = u.byte) : t = u :=
  Option.some_injective _ (by rw [← ofByte?_byte t, ← ofByte?_byte u, h])

end Tag

theorem ObjectId.bytes_injective {i j : ObjectId} (h : i.bytes = j.bytes) : i = j := by
  cases i
  cases j
  cases h
  rfl

theorem Timestamp.raw_injective {t u : Timestamp} (h : t.raw = u.raw) : t = u := by
  cases t
  cases u
  cases h
  rfl

namespace Scalar

def shapeOfRank : Nat → Nat
  | 3 => 1
  | 4 | 12 | 14 => 3
  | 7 | 8 => 4
  | 9 | 10 | 11 => 2
  | 13 => 5
  | _ => 0

variable {a b c : Scalar String}

theorem shape_sortKey (a : Scalar String) : a.sortKey.shape = shapeOfRank a.tag.rank := by
  cases a <;> rfl

theorem sortKey_alike (h : a.tag.rank = b.tag.rank) : SortKey.Alike a.sortKey b.sortKey :=
  SortKey.alike_of_shape (by rw [shape_sortKey, shape_sortKey, h])

theorem eq_of_sortKey (ht : a.tag = b.tag) (hk : a.sortKey = b.sortKey) : a = b := by
  cases a <;> cases b <;> simp only [tag, reduceCtorEq] at ht <;>
    simp only [sortKey, SortKey.number.injEq, SortKey.integer.injEq, SortKey.texts.injEq,
      SortKey.bytes.injEq, SortKey.pointer.injEq, and_true] at hk
  case double.double d e => rw [NumberKey.ofDouble_injective hk]
  case int32.int32 m n => rw [Int32.toInt_inj.1 (NumberKey.ofInt_injective hk)]
  case int64.int64 m n => rw [Int64.toInt_inj.1 (NumberKey.ofInt_injective hk)]
  case string.string | javascript.javascript | symbol.symbol => rw [hk]
  case regex.regex | binary.binary => rw [hk.1, hk.2]
  case objectId.objectId i j => rw [ObjectId.bytes_injective hk]
  case dbPointer.dbPointer t i u j => rw [hk.1, ObjectId.bytes_injective hk.2]
  case boolean.boolean x y => cases x <;> cases y <;> first | rfl | contradiction
  case datetime.datetime m n => rw [Int64.toInt_inj.1 hk]
  case timestamp.timestamp t u =>
    rw [Timestamp.raw_injective (UInt64.toNat_inj.1 (Int.ofNat_inj.1 hk))]
  all_goals rfl

/-- The order of scalars: class, payload, tag. -/
def cmp (a b : Scalar String) : Ordering :=
  (compare a.tag.rank b.tag.rank).then
    ((a.sortKey.cmp b.sortKey).then (compare a.tag.byte b.tag.byte))

theorem cmp_swap (a b : Scalar String) : a.cmp b = (b.cmp a).swap := by
  rw [cmp, cmp, Ordering.swap_then, Ordering.swap_then, ← Std.OrientedOrd.eq_swap,
    ← Std.OrientedOrd.eq_swap]
  by_cases h : a.tag.rank = b.tag.rank
  · rw [SortKey.cmp_swap (sortKey_alike h)]
  · cases hr : compare a.tag.rank b.tag.rank with
    | lt | gt => rfl
    | eq => exact absurd (Nat.compare_eq_eq.1 hr) h

theorem cmp_chain (a b c : Scalar String) : Chain (a.cmp b) (b.cmp c) (a.cmp c) := by
  have hr : Chain (compare a.tag.rank b.tag.rank) (compare b.tag.rank c.tag.rank)
      (compare a.tag.rank c.tag.rank) := .of_transCmp compare _ _ _
  by_cases h : a.tag.rank = b.tag.rank ∧ b.tag.rank = c.tag.rank
  · exact hr.lex ((SortKey.cmp_chain (sortKey_alike h.1) (sortKey_alike h.2)).lex
      (.of_transCmp compare _ _ _))
  · exact hr.lex_of_ne (by rwa [Nat.compare_eq_eq, Nat.compare_eq_eq])

theorem cmp_eq_iff (a b : Scalar String) : a.cmp b = .eq ↔ a = b := by
  simp only [cmp, Ordering.then_eq_eq, Std.LawfulEqCmp.compare_eq_iff_eq]
  constructor
  · rintro ⟨hr, hk, hb⟩
    exact eq_of_sortKey (Tag.byte_injective hb) ((SortKey.cmp_eq_iff (sortKey_alike hr)).1 hk)
  · rintro rfl
    exact ⟨rfl, (SortKey.cmp_eq_iff (sortKey_alike rfl)).2 rfl, rfl⟩

end Scalar

end DocumentServer
