import DocumentServer.Proofs.Bytes
import DocumentServer.Value.Basic

namespace DocumentServer.Grammar

def littleEndian : List UInt8 → Nat
  | [] => 0
  | x :: xs => x.toNat + 256 * littleEndian xs

def one (x : UInt8) : ByteArray := [x].toByteArray

/-- A word of a number of bytes. -/
def IsWord (size : Nat) (w : ByteArray) (n : Nat) : Prop :=
  w.size = size ∧ littleEndian w.data.toList = n

/-- A signed word of four bytes that is not negative. -/
def IsLength (w : ByteArray) (n : Nat) : Prop := IsWord 4 w n ∧ n < 0x80000000

def IsTerminated (w c : ByteArray) : Prop := 0 ∉ c.data ∧ w = c ++ one 0

def IsCString (w : ByteArray) (s : String) : Prop := IsTerminated w s.toUTF8

/-- Bytes and a zero behind the number of both. -/
def IsCounted (w c : ByteArray) : Prop := ∃ l, IsLength l (c.size + 1) ∧ w = l ++ c ++ one 0

def IsString (w : ByteArray) (s : String) : Prop := IsCounted w s.toUTF8

/-- The payloads that hold no elements. Signed numbers are two's complements. -/
inductive IsScalar : Tag → ByteArray → Scalar String → Prop
  | double {w d} (h : IsWord 8 w d.bits.toNat) : IsScalar .double w (.double d)
  | string {w s} (h : IsString w s) : IsScalar .string w (.string s)
  | binary {l c t} (h : IsLength l c.size) : IsScalar .binary (l ++ one t ++ c) (.binary t c)
  | undefined : IsScalar .undefined ByteArray.empty .undefined
  | objectId {o} : IsScalar .objectId o.bytes (.objectId o)
  | boolean {v} : IsScalar .boolean (one (if v then 1 else 0)) (.boolean v)
  | datetime {w m} (h : IsWord 8 w m.toUInt64.toNat) : IsScalar .datetime w (.datetime m)
  | null : IsScalar .null ByteArray.empty .null
  | regex {u w p o} (hp : IsCString u p) (ho : IsCString w o) :
      IsScalar .regex (u ++ w) (.regex p o)
  | dbPointer {w s o} (h : IsString w s) : IsScalar .dbPointer (w ++ o.bytes) (.dbPointer s o)
  | javascript {w s} (h : IsString w s) : IsScalar .javascript w (.javascript s)
  | symbol {w s} (h : IsString w s) : IsScalar .symbol w (.symbol s)
  | int32 {w n} (h : IsWord 4 w n.toUInt32.toNat) : IsScalar .int32 w (.int32 n)
  | timestamp {w t} (h : IsWord 8 w t.raw.toNat) : IsScalar .timestamp w (.timestamp t)
  | int64 {w n} (h : IsWord 8 w n.toUInt64.toNat) : IsScalar .int64 w (.int64 n)
  | minKey : IsScalar .minKey ByteArray.empty .minKey
  | maxKey : IsScalar .maxKey ByteArray.empty .maxKey

def others (k : String) (d : Document String) : Document String := d.filter fun e => e.1 ≠ k

/-- The document of a list of elements: a repeated key keeps its first place and takes its last
value. -/
def merged : List (String × Value String) → Document String
  | [] => []
  | (k, v) :: es => (k, (es.reverse.lookup k).getD v) :: others k (merged es)

mutual

/-- The payload of a tag, with at most some levels of containers in it. -/
inductive IsValue : Nat → Tag → ByteArray → Value String → Prop
  | scalar {n t w s} (h : IsScalar t w s) : IsValue n t w (.scalar s)
  | document {n w d} (h : IsDocument n w d) : IsValue (n + 1) .document w (.document d)
  | array {n w vs} (h : IsArray n w vs) : IsValue (n + 1) .array w (.array vs)
  | codeWithScope {n l u w c d} (hl : IsLength l (l ++ u ++ w).size) (hc : IsString u c)
      (hd : IsDocument n w d) : IsValue (n + 1) .codeWithScope (l ++ u ++ w) (.codeWithScope c d)

/-- Elements between the length of the whole and a zero. -/
inductive IsDocument : Nat → ByteArray → Document String → Prop
  | mk {n l u es} (hl : IsLength l (l ++ u ++ one 0).size) (h : IsElements n u es) :
      IsDocument n (l ++ u ++ one 0) (merged es)

inductive IsArray : Nat → ByteArray → List (Value String) → Prop
  | mk {n l u vs} (hl : IsLength l (l ++ u ++ one 0).size) (h : IsItems n u vs) :
      IsArray n (l ++ u ++ one 0) vs

/-- Elements one after the other: a tag, a key and a payload. -/
inductive IsElements : Nat → ByteArray → List (String × Value String) → Prop
  | nil {n} : IsElements n ByteArray.empty []
  | cons {n t key k w v u es} (hk : IsCString key k) (hv : IsValue n t w v)
      (h : IsElements n u es) : IsElements n (one t.byte ++ key ++ w ++ u) ((k, v) :: es)

/-- Elements whose keys do not matter, not even as texts. -/
inductive IsItems : Nat → ByteArray → List (Value String) → Prop
  | nil {n} : IsItems n ByteArray.empty []
  | cons {n t key c w v u vs} (hk : IsTerminated key c) (hv : IsValue n t w v)
      (h : IsItems n u vs) : IsItems n (one t.byte ++ key ++ w ++ u) (v :: vs)

end

theorem size_one (x : UInt8) : (one x).size = 1 := rfl

theorem extract_succ {b : ByteArray} {i : Nat} (h : i < b.size) :
    b.extract i (i + 1) = one (Bytes.at0 b i) := by
  rw [ByteArray.extract_add_one h, Bytes.at0_of_lt h]
  rfl

theorem one_inj {x y : UInt8} : one x = one y ↔ x = y := by
  rw [one, one, List.toByteArray_inj, List.singleton_inj]

theorem extract_eq_append_one_iff {b c : ByteArray} {x : UInt8} {i j : Nat} (hij : i ≤ j)
    (hj : j ≤ b.size) :
    b.extract i j = c ++ one x ↔
      ∃ m, i ≤ m ∧ m + 1 = j ∧ c = b.extract i m ∧ Bytes.at0 b m = x := by
  constructor
  · intro h
    obtain ⟨m, him, hmj, rfl, hx⟩ := Bytes.exists_of_extract_eq_append hij hj h
    have hs : j - m = 1 := by rw [← Bytes.size_extract_of_le hj, ← hx, size_one]
    obtain rfl : j = m + 1 := by omega
    rw [extract_succ hj, one_inj] at hx
    exact ⟨m, him, rfl, rfl, hx.symm⟩
  · rintro ⟨m, him, rfl, rfl, rfl⟩
    rw [← extract_succ hj, Bytes.extract_append_extract_of_le him (Nat.le_succ m)]

theorem littleEndian_extract {b : ByteArray} {i n : Nat} (h : i + n ≤ b.size) :
    littleEndian (b.extract i (i + n)).data.toList = Bytes.number b i n := by
  induction n generalizing i with
  | zero => simp [Bytes.number, littleEndian]
  | succ n ih =>
    have hs : b.extract i (i + (n + 1)) =
        one (Bytes.at0 b i) ++ b.extract (i + 1) (i + 1 + n) := by
      rw [← extract_succ (by omega), Bytes.extract_append_extract_of_le (by omega) (by omega)]
      congr 1
      omega
    rw [hs, ByteArray.toList_data_append, Bytes.number, ← ih (by omega)]
    rfl

variable {k j : String}

theorem insert_cons (e : String × Value String) (d : Document String) (k : String)
    (v : Value String) :
    Document.insert (e :: d) k v =
      if e.1 = k then (e.1, v) :: d else e :: Document.insert d k v := rfl

theorem others_cons (e : String × Value String) (d : Document String) (k : String) :
    others k (e :: d) = if e.1 = k then others k d else e :: others k d := by
  by_cases h : e.1 = k <;> simp [others, h]

theorem others_insert_self (d : Document String) (k : String) (v : Value String) :
    others k (Document.insert d k v) = others k d := by
  induction d with
  | nil => simp [Document.insert, others]
  | cons e d ih =>
    rw [insert_cons]
    split
    next h => simp only [others_cons, h, if_true]
    next h => simp only [others_cons, h, if_false, ih]

theorem others_insert_of_ne (d : Document String) (v : Value String) (h : k ≠ j) :
    others j (Document.insert d k v) = Document.insert (others j d) k v := by
  induction d with
  | nil => simp [Document.insert, others, h]
  | cons e d ih =>
    rw [insert_cons, others_cons]
    by_cases hk : e.1 = k
    · have hj : e.1 ≠ j := hk ▸ h
      simp only [hk, h, if_true, if_false, others_cons, insert_cons]
    · by_cases hj : e.1 = j
      · rw [if_neg hk, others_cons, if_pos hj, if_pos hj, ih]
      · rw [if_neg hk, others_cons, if_neg hj, if_neg hj, insert_cons, if_neg hk, ih]

theorem merged_concat (es : List (String × Value String)) (k : String) (v : Value String) :
    merged (es ++ [(k, v)]) = Document.insert (merged es) k v := by
  induction es with
  | nil => rfl
  | cons e es ih =>
    obtain ⟨j, w⟩ := e
    have hr : (es ++ [(k, v)]).reverse = (k, v) :: es.reverse := List.reverse_concat ..
    rw [List.cons_append, merged, merged, insert_cons, ih, hr, List.lookup_cons]
    by_cases h : j = k
    · subst h
      simp [others_insert_self]
    · have hb : (j == k) = false := beq_false_of_ne h
      simp [hb, h, others_insert_of_ne _ _ (Ne.symm h)]

theorem others_eq_self {d : Document String} (h : k ∉ d.map Prod.fst) : others k d = d := by
  refine List.filter_eq_self.2 fun e he => decide_eq_true fun hk => h ?_
  exact hk ▸ List.mem_map_of_mem he

theorem merged_eq_self {d : Document String} (h : (d.map Prod.fst).Nodup) : merged d = d := by
  induction d with
  | nil => rfl
  | cons e d ih =>
    obtain ⟨k, v⟩ := e
    obtain ⟨hk, hd⟩ := List.nodup_cons.1 h
    have hl : d.reverse.lookup k = none := by
      rw [List.lookup_eq_none_iff]
      intro e he
      refine bne_iff_ne.2 fun hke => hk ?_
      exact List.mem_map.2 ⟨e, List.mem_reverse.1 he, hke.symm⟩
    rw [merged, ih hd, others_eq_self hk, hl]
    rfl

end DocumentServer.Grammar
