import DocumentServer.Bytes
import Mathlib

namespace DocumentServer.Bytes

variable {a b c : ByteArray} {i j k n : Nat}

theorem at0_of_lt (h : i < b.size) : at0 b i = b[i] := by
  rw [at0, dif_pos h]

theorem at0_append_left (h : i < a.size) : at0 (a ++ b) i = at0 a i := by
  have hi : i < (a ++ b).size := by rw [ByteArray.size_append]; omega
  rw [at0_of_lt hi, at0_of_lt h, ByteArray.getElem_append_left h]

theorem at0_append_right (a b : ByteArray) (i : Nat) : at0 (a ++ b) (a.size + i) = at0 b i := by
  by_cases h : i < b.size
  · have hi : a.size + i < (a ++ b).size := by rw [ByteArray.size_append]; omega
    rw [at0_of_lt hi, at0_of_lt h, ByteArray.getElem_append_right (by omega)]
    simp only [Nat.add_sub_cancel_left]
  · have hi : ¬a.size + i < (a ++ b).size := by rw [ByteArray.size_append]; omega
    rw [at0, at0, dif_neg h, dif_neg hi]

theorem at0_extract (h : i + n < j) (hj : j ≤ b.size) : at0 (b.extract i j) n = at0 b (i + n) := by
  have hn : n < (b.extract i j).size := by rw [ByteArray.size_extract]; omega
  rw [at0_of_lt hn, at0_of_lt (by omega : i + n < b.size), ByteArray.getElem_extract]

theorem size_extract_of_le (hj : j ≤ b.size) : (b.extract i j).size = j - i := by
  rw [ByteArray.size_extract, Nat.min_eq_left hj]

theorem size_extract_add (h : i + n ≤ b.size) : (b.extract i (i + n)).size = n := by
  rw [size_extract_of_le h, Nat.add_sub_cancel_left]

theorem extract_append_of_le (h : j ≤ a.size) : (a ++ b).extract i j = a.extract i j := by
  have hb : b.extract (i - a.size) 0 = ByteArray.empty :=
    ByteArray.extract_eq_empty_iff.2 (by omega)
  rw [ByteArray.extract_append, Nat.sub_eq_zero_of_le h, hb, ByteArray.append_empty]

theorem extract_append_extract_of_le (hi : i ≤ j) (hk : j ≤ k) :
    b.extract i j ++ b.extract j k = b.extract i k := by
  rw [ByteArray.extract_append_extract, Nat.min_eq_left hi, Nat.max_eq_right hk]

theorem extract_congr (ha : i + n ≤ a.size) (hb : j + n ≤ b.size)
    (h : ∀ k < n, at0 a (i + k) = at0 b (j + k)) : a.extract i (i + n) = b.extract j (j + n) := by
  apply ByteArray.ext_getElem
  · rw [size_extract_add ha, size_extract_add hb]
  · intro k hk hk'
    rw [size_extract_add ha] at hk
    rw [ByteArray.getElem_extract, ByteArray.getElem_extract, ← at0_of_lt, ← at0_of_lt, h k hk]

theorem exists_of_extract_eq_append {u v : ByteArray} (hi : i ≤ k) (hk : k ≤ b.size)
    (h : b.extract i k = u ++ v) :
    ∃ j, i ≤ j ∧ j ≤ k ∧ u = b.extract i j ∧ v = b.extract j k := by
  have hs : k - i = u.size + v.size := by
    rw [← size_extract_of_le hk, h, ByteArray.size_append]
  refine ⟨i + u.size, by omega, by omega, ?_, ?_⟩
  · have hu : (u ++ v).extract 0 u.size = u := ByteArray.extract_append_eq_left rfl
    rw [← h, ByteArray.extract_extract, Nat.add_zero, Nat.min_eq_left (by omega)] at hu
    exact hu.symm
  · have hv : (u ++ v).extract u.size (u.size + v.size) = v :=
      ByteArray.extract_append_eq_right rfl rfl
    rw [← h, ByteArray.extract_extract, ← hs, Nat.min_eq_left (by omega)] at hv
    rw [← hv]
    congr 1
    omega

theorem mem_data_iff {x : UInt8} : x ∈ b.data ↔ ∃ i < b.size, at0 b i = x := by
  rw [Array.mem_iff_getElem]
  constructor
  · rintro ⟨i, hi, h⟩
    exact ⟨i, hi, by rw [at0_of_lt hi]; exact h⟩
  · rintro ⟨i, hi, h⟩
    exact ⟨i, hi, by rw [at0_of_lt hi] at h; exact h⟩

theorem zero_notMem_extract_iff (hj : j ≤ b.size) :
    0 ∉ (b.extract i j).data ↔ ∀ m, i ≤ m → m < j → at0 b m ≠ 0 := by
  rw [mem_data_iff, size_extract_of_le hj]
  constructor
  · intro h m hi hm h0
    refine h ⟨m - i, by omega, ?_⟩
    rw [at0_extract (by omega) hj, Nat.add_sub_cancel' hi]
    exact h0
  · rintro h ⟨m, hm, h0⟩
    rw [at0_extract (by omega) hj] at h0
    exact h (i + m) (by omega) (by omega) h0

theorem foldl_eq_foldl_toList {β : Type} (f : β → UInt8 → β) (s : β) (b : ByteArray) :
    b.foldl f s = b.data.toList.foldl f s := by
  have hl (i j : Nat) (s : β) (h : i + j = b.size) :
      ByteArray.foldlM.loop (m := Id) f b b.size (Nat.le_refl _) i j s =
        (b.data.toList.drop j).foldl f s := by
    induction i generalizing j s with
    | zero =>
      have hj : b.data.toList.length ≤ j := by
        rw [Array.length_toList, ByteArray.size_data]
        omega
      rw [ByteArray.foldlM.loop, dif_neg (by omega), List.drop_of_length_le hj]
      rfl
    | succ i ih =>
      have hj : j < b.data.toList.length := by
        rw [Array.length_toList, ByteArray.size_data]
        omega
      rw [ByteArray.foldlM.loop, dif_pos (by omega), List.drop_eq_getElem_cons hj, List.foldl_cons]
      exact ih (j + 1) _ (by omega)
  rw [ByteArray.foldl, ByteArray.foldlM, dif_pos (Nat.le_refl _)]
  exact hl b.size 0 s rfl

theorem findZero?_eq_some_iff :
    findZero? b i n = some j ↔
      i ≤ j ∧ j < i + n ∧ at0 b j = 0 ∧ ∀ m, i ≤ m → m < j → at0 b m ≠ 0 := by
  induction n generalizing i with
  | zero => simp [findZero?]; omega
  | succ n ih =>
    rw [findZero?]
    split
    next h =>
      constructor
      · intro hj
        obtain rfl := Option.some.inj hj
        exact ⟨le_rfl, by omega, h, fun m hm hm' => by omega⟩
      · rintro ⟨hij, -, -, hm⟩
        by_contra hne
        have hlt : i ≠ j := fun e => hne (e ▸ rfl)
        exact hm i le_rfl (by omega) h
    next h =>
      rw [ih]
      constructor
      · rintro ⟨hij, hj, hz, hm⟩
        refine ⟨by omega, by omega, hz, fun m him hmj => ?_⟩
        rcases Nat.eq_or_lt_of_le him with rfl | him
        · exact h
        · exact hm m him hmj
      · rintro ⟨hij, hj, hz, hm⟩
        have hne : i ≠ j := fun e => h (e ▸ hz)
        exact ⟨by omega, by omega, hz, fun m him => hm m (by omega)⟩

theorem findZero?_eq_none_iff :
    findZero? b i n = none ↔ ∀ m, i ≤ m → m < i + n → at0 b m ≠ 0 := by
  induction n generalizing i with
  | zero => simp only [findZero?, true_iff]; omega
  | succ n ih =>
    rw [findZero?]
    split
    next h => simpa using ⟨i, le_rfl, by omega, h⟩
    next h =>
      rw [ih]
      refine ⟨fun hm m him hlt => ?_, fun hm m him hlt => hm m (by omega) (by omega)⟩
      rcases Nat.eq_or_lt_of_le him with rfl | him
      · exact h
      · exact hm m him (by omega)

theorem findZero?_extract (h : i + k + n ≤ j) (hj : j ≤ b.size) :
    (findZero? (b.extract i j) k n).map (i + ·) = findZero? b (i + k) n := by
  induction n generalizing k with
  | zero => rfl
  | succ n ih =>
    rw [findZero?, findZero?, at0_extract (by omega) hj]
    split
    · rfl
    · exact ih (by omega)

theorem hasZero_eq_false_iff : hasZero b = false ↔ 0 ∉ b.data := by
  rw [hasZero, Option.isSome_eq_false_iff, Option.isNone_iff_eq_none, findZero?_eq_none_iff,
    mem_data_iff]
  simp

theorem number_congr (h : ∀ k < n, at0 a (i + k) = at0 b (j + k)) :
    number a i n = number b j n := by
  induction n generalizing i j with
  | zero => rfl
  | succ n ih =>
    have h0 := h 0 (by omega)
    have hs : number a (i + 1) n = number b (j + 1) n := ih fun k hk => by
      have hk' := h (k + 1) (by omega)
      rwa [Nat.add_assoc, Nat.add_comm 1, Nat.add_assoc, Nat.add_comm 1]
    rw [number, number, hs]
    simp only [Nat.add_zero] at h0
    rw [h0]

theorem number_append_left (h : i + n ≤ a.size) : number (a ++ b) i n = number a i n :=
  number_congr fun _ hk => at0_append_left (by omega)

theorem number_append_right (a b : ByteArray) (i n : Nat) :
    number (a ++ b) (a.size + i) n = number b i n :=
  number_congr fun k _ => by rw [Nat.add_assoc]; exact at0_append_right a b (i + k)

theorem number_extract (h : i + k + n ≤ j) (hj : j ≤ b.size) :
    number (b.extract i j) k n = number b (i + k) n :=
  number_congr fun m hm => by rw [at0_extract (by omega) hj, Nat.add_assoc]

theorem number_lt (b : ByteArray) (i n : Nat) : number b i n < 256 ^ n := by
  induction n generalizing i with
  | zero => simp [number]
  | succ n ih =>
    have h := ih (i + 1)
    have hx := (at0 b i).toNat_lt
    rw [number, Nat.pow_succ]
    omega

theorem digits_eq_append (out : ByteArray) (n v : Nat) :
    digits out n v = out ++ digits ByteArray.empty n v := by
  induction n generalizing out v with
  | zero => simp [digits]
  | succ n ih =>
    rw [digits, ih, digits, ih (ByteArray.empty.push _), ← ByteArray.append_assoc]
    simp only [← ByteArray.append_toByteArray_singleton, ByteArray.empty_append]

theorem digits_succ (n v : Nat) :
    digits ByteArray.empty (n + 1) v =
      [UInt8.ofNat (v % 256)].toByteArray ++ digits ByteArray.empty n (v / 256) := by
  rw [digits, digits_eq_append, ← ByteArray.append_toByteArray_singleton, ByteArray.empty_append]

theorem at0_singleton (x : UInt8) : at0 [x].toByteArray 0 = x := rfl

theorem number_digits (n v : Nat) : number (digits ByteArray.empty n v) 0 n = v % 256 ^ n := by
  induction n generalizing v with
  | zero => simp [number, Nat.mod_one]
  | succ n ih =>
    have hr := number_append_right [UInt8.ofNat (v % 256)].toByteArray
      (digits ByteArray.empty n (v / 256)) 0 n
    have hl : at0 ([UInt8.ofNat (v % 256)].toByteArray ++ digits ByteArray.empty n (v / 256)) 0 =
        UInt8.ofNat (v % 256) := by
      rw [at0_append_left (by simp), at0_singleton]
    simp only [List.size_toByteArray, List.length_singleton, Nat.add_zero] at hr
    rw [digits_succ, number, hl, Nat.zero_add, hr, ih, Nat.pow_succ, Nat.mul_comm (256 ^ n),
      Nat.mod_mul, UInt8.toNat_ofNat']
    omega

theorem digits_number (h : i + n ≤ b.size) :
    digits ByteArray.empty n (number b i n) = b.extract i (i + n) := by
  induction n generalizing i with
  | zero => simp [digits]
  | succ n ih =>
    have hx := (at0 b i).toNat_lt
    have hm : number b i (n + 1) % 256 = (at0 b i).toNat := by rw [number]; omega
    have hd : number b i (n + 1) / 256 = number b (i + 1) n := by rw [number]; omega
    have hh : b.extract i (i + 1) = [at0 b i].toByteArray := by
      rw [ByteArray.extract_add_one (by omega), at0_of_lt (by omega)]
    rw [digits_succ, hm, hd, ih (by omega), UInt8.ofNat_toNat, ← hh,
      extract_append_extract_of_le (by omega) (by omega)]
    congr 1
    omega

theorem number_ofUInt32 (w : UInt32) : number (ofUInt32 w) 0 4 = w.toNat := by
  rw [ofUInt32, number_digits]
  exact Nat.mod_eq_of_lt w.toNat_lt

theorem number_ofUInt64 (w : UInt64) : number (ofUInt64 w) 0 8 = w.toNat := by
  rw [ofUInt64, number_digits]
  exact Nat.mod_eq_of_lt w.toNat_lt

theorem number_ofSize (h : n < 0x100000000) : number (ofSize n) 0 4 = n := by
  rw [ofSize, number_ofUInt32, UInt32.toNat_ofNat']
  exact Nat.mod_eq_of_lt h

theorem toNat_uint32 (b : ByteArray) (i : Nat) : (uint32 b i).toNat = number b i 4 := by
  rw [uint32, UInt32.toNat_ofNat']
  exact Nat.mod_eq_of_lt (number_lt b i 4)

theorem toNat_uint64 (b : ByteArray) (i : Nat) : (uint64 b i).toNat = number b i 8 := by
  rw [uint64, UInt64.toNat_ofNat']
  exact Nat.mod_eq_of_lt (number_lt b i 8)

theorem ofUInt32_uint32 (h : i + 4 ≤ b.size) : ofUInt32 (uint32 b i) = b.extract i (i + 4) := by
  rw [ofUInt32, toNat_uint32, digits_number h]

theorem ofInt32_int32 (h : i + 4 ≤ b.size) : ofInt32 (int32 b i) = b.extract i (i + 4) :=
  ofUInt32_uint32 h

theorem uint32_extract (h : i + k + 4 ≤ j) (hj : j ≤ b.size) :
    uint32 (b.extract i j) k = uint32 b (i + k) := by
  rw [uint32, uint32, number_extract h hj]

theorem uint64_extract (h : i + k + 8 ≤ j) (hj : j ≤ b.size) :
    uint64 (b.extract i j) k = uint64 b (i + k) := by
  rw [uint64, uint64, number_extract h hj]

theorem int32_extract (h : i + k + 4 ≤ j) (hj : j ≤ b.size) :
    int32 (b.extract i j) k = int32 b (i + k) := by
  rw [int32, int32, uint32_extract h hj]

theorem int64_extract (h : i + k + 8 ≤ j) (hj : j ≤ b.size) :
    int64 (b.extract i j) k = int64 b (i + k) := by
  rw [int64, int64, uint64_extract h hj]

theorem int32_append_left (h : i + 4 ≤ a.size) : int32 (a ++ b) i = int32 a i := by
  rw [int32, int32, uint32, uint32, number_append_left h]

theorem int32_append_right (h : a.size = i) : int32 (a ++ b) i = int32 b 0 := by
  subst h
  rw [int32, int32, uint32, uint32]
  congr 2
  exact number_append_right a b 0 4

theorem int32_ofInt32 (w : Int32) : int32 (ofInt32 w) 0 = w := by
  rw [int32, uint32, ofInt32, number_ofUInt32, UInt32.ofNat_toNat]
  rfl

theorem toInt_int32_ofSize (h : n < 0x80000000) : (int32 (ofSize n) 0).toInt = n := by
  have hn : (uint32 (ofSize n) 0).toNat = n := by
    rw [toNat_uint32, number_ofSize (by omega)]
  have ht : (int32 (ofSize n) 0).toInt = (uint32 (ofSize n) 0).toBitVec.toInt := rfl
  have hb : (uint32 (ofSize n) 0).toBitVec.toNat = (uint32 (ofSize n) 0).toNat := rfl
  rw [ht, BitVec.toInt_eq_toNat_cond, hb, hn]
  split <;> omega

theorem size_ofInt32 (w : Int32) : (ofInt32 w).size = 4 := size_ofUInt32 _

theorem ofSize_eq_ofInt32 {w : Int32} (h : w.toInt = n) : ofSize n = ofInt32 w := by
  have hb := w.toUInt32.toNat_lt
  have hw : w.toUInt32 = UInt32.ofNat n := by
    apply UInt32.toNat_inj.1
    rw [UInt32.toNat_ofNat']
    have ht : (w.toBitVec.toInt : Int) = n := h
    have hv : w.toUInt32.toNat = w.toBitVec.toNat := rfl
    rw [BitVec.toInt_eq_toNat_cond] at ht
    split at ht <;> omega
  rw [ofSize, ofInt32, hw]

end DocumentServer.Bytes
