import DocumentServer.Proofs.Layout
import DocumentServer.Proofs.Tree

namespace DocumentServer

open Passage

namespace Grammar

theorem isWord_iff {n v : Nat} {w : ByteArray} (h : w.size = n) :
    IsWord n w v ↔ Bytes.number w 0 n = v := by
  have hw := Decode.isWord_extract_iff (b := w) (i := 0) (n := n) (v := v) (by omega)
  rwa [Nat.zero_add, ← h, ByteArray.extract_zero_size, h] at hw

theorem isWord_ofUInt32 (x : UInt32) : IsWord 4 (Bytes.ofUInt32 x) x.toNat :=
  (isWord_iff (Bytes.size_ofUInt32 x)).2 (Bytes.number_ofUInt32 x)

theorem isWord_ofUInt64 (x : UInt64) : IsWord 8 (Bytes.ofUInt64 x) x.toNat :=
  (isWord_iff (Bytes.size_ofUInt64 x)).2 (Bytes.number_ofUInt64 x)

theorem isLength_ofSize {n : Nat} (h : n < 0x80000000) : IsLength (Bytes.ofSize n) n :=
  ⟨(isWord_iff (Bytes.size_ofSize n)).2 (Bytes.number_ofSize (by omega)), h⟩

theorem zero_notMem_toString (i : Nat) : 0 ∉ (toString i).toUTF8.data := by
  rw [zero_mem_toUTF8_iff]
  intro h
  have hc : '\x00' ∈ Nat.toDigits 10 i := by simpa using h
  exact absurd (Nat.isDigit_of_mem_toDigits (by decide) (by decide) hc) (by decide)

theorem isCString_cstring {s : String} (h : '\x00' ∉ s.toList) : IsCString (Layout.cstring s) s :=
  ⟨mt zero_mem_toUTF8_iff.1 h, rfl⟩

theorem isString_string {s : String} (h : (Layout.string s).size < 0x80000000) :
    IsString (Layout.string s) s := by
  rw [Layout.size_string] at h
  have hs : s.toUTF8.size = s.utf8ByteSize := rfl
  exact ⟨_, isLength_ofSize (by omega), rfl⟩

theorem exists_of_bind_eq_ok {ε α β : Type} {x : Except ε α} {f : α → Except ε β} {b : β}
    (h : x >>= f = .ok b) : ∃ a, x = .ok a ∧ f a = .ok b := by
  cases x with
  | error e => cases h
  | ok a => exact ⟨a, rfl, h⟩

theorem mapError_eq_ok_iff {ε δ α : Type} {f : ε → δ} {x : Except ε α} {a : α} :
    x.mapError f = .ok a ↔ x = .ok a := by
  cases x <;> simp [Except.mapError]

theorem eq_ok_of_toOption {ε α : Type} {x : Except ε α} {a : α} (h : x.toOption = some a) :
    x = .ok a := by
  cases x with
  | error e => cases h
  | ok b => exact congrArg Except.ok (Option.some.inj h)

theorem size_lt_of_append {a b : ByteArray} {n : Nat} (h : (a ++ b).size < n) :
    a.size < n ∧ b.size < n := by
  rw [ByteArray.size_append] at h
  omega

theorem isScalar_layout {s : Scalar String} (hs : firstStop? s.passages = none)
    (hw : s.layout.size < 0x80000000) : IsScalar s.tag s.layout s := by
  cases s with
  | double d => exact .double (isWord_ofUInt64 _)
  | string t => exact .string (isString_string hw)
  | binary t c => exact .binary (isLength_ofSize (size_lt_of_append hw).2)
  | undefined => exact .undefined
  | objectId o => exact .objectId
  | boolean v => exact .boolean
  | datetime m => exact .datetime (isWord_ofUInt64 _)
  | null => exact .null
  | regex p o =>
    obtain ⟨hp, ho⟩ := firstStop?_cons_eq_none.1 hs
    rw [firstStop?_singleton] at ho
    exact .regex (isCString_cstring (stop?_terminated_eq_none.1 hp))
      (isCString_cstring (stop?_terminated_eq_none.1 ho))
  | dbPointer t o => exact .dbPointer (isString_string (size_lt_of_append hw).1)
  | javascript t => exact .javascript (isString_string hw)
  | symbol t => exact .symbol (isString_string hw)
  | int32 n => exact .int32 (isWord_ofUInt32 _)
  | timestamp t => exact .timestamp (isWord_ofUInt64 _)
  | int64 n => exact .int64 (isWord_ofUInt64 _)
  | minKey => exact .minKey
  | maxKey => exact .maxKey

theorem isLength_framed {u : ByteArray} (h : (Layout.framed u).size < 0x80000000) :
    IsLength (Bytes.ofSize (u.size + minDocumentSize)) (Layout.framed u).size := by
  rw [Layout.size_framed] at h ⊢
  exact isLength_ofSize h

theorem spellsDocument_framed {n : Nat} {u : ByteArray} {es : List (String × Tree)}
    (h : (Layout.framed u).size < 0x80000000) (hu : SpellsElements n u es) :
    SpellsDocument n (Layout.framed u) es :=
  .mk (isLength_framed h) hu

theorem spellsArray_framed {n : Nat} {u : ByteArray} {xs : List (ByteArray × Tree)}
    (h : (Layout.framed u).size < 0x80000000) (hu : SpellsItems n u xs) :
    SpellsArray n (Layout.framed u) xs :=
  .mk (isLength_framed h) hu

theorem size_lt_of_framed {u : ByteArray} {n : Nat} (h : (Layout.framed u).size < n) :
    u.size < n := by
  rw [Layout.size_framed] at h
  omega

theorem spells_withScope {n : Nat} {c : String} {w : ByteArray} {es : List (String × Tree)}
    (h : (Layout.withScope c w).size < 0x80000000) (hw : SpellsDocument n w es) :
    Spells (n + 1) .codeWithScope (Layout.withScope c w) (.codeWithScope c es) := by
  have hl : IsLength (Bytes.ofSize ((Layout.string c ++ w).size + 4))
      (Layout.withScope c w).size := by
    rw [Layout.size_withScope] at h ⊢
    exact isLength_ofSize h
  rw [Layout.size_withScope, ByteArray.size_append] at h
  exact .codeWithScope hl (isString_string (by omega)) hw

mutual

/-- The bytes of a value spell its tree. -/
theorem spells_layout {n : Nat} (v : Value String) (hs : firstStop? v.passages = none)
    (hb : v.layout.size < 0x80000000) (hn : v.depth ≤ n) :
    Spells n v.tag v.layout (Tree.ofValue v) := by
  match v with
  | .scalar s =>
    rw [Value.passages] at hs
    rw [Value.layout] at hb ⊢
    rw [Tree.ofValue]
    exact .scalar (isScalar_layout hs hb)
  | .document es =>
    rw [Value.passages] at hs
    rw [Value.layout] at hb ⊢
    rw [Value.depth] at hn
    rw [Tree.ofValue]
    obtain ⟨m, rfl⟩ : ∃ m, n = m + 1 := ⟨n - 1, by omega⟩
    exact .document (spellsDocument_framed hb
      (spellsElements_layout es hs (size_lt_of_framed hb) (Nat.le_of_succ_le_succ hn)))
  | .array vs =>
    rw [Value.passages] at hs
    rw [Value.layout] at hb ⊢
    rw [Value.depth] at hn
    rw [Tree.ofValue]
    obtain ⟨m, rfl⟩ : ∃ m, n = m + 1 := ⟨n - 1, by omega⟩
    exact .array (spellsArray_framed hb
      (spellsItems_layout vs hs (size_lt_of_framed hb) (Nat.le_of_succ_le_succ hn)))
  | .codeWithScope c es =>
    rw [Value.passages, firstStop?_cons_eq_none] at hs
    rw [Value.layout] at hb ⊢
    rw [Value.depth] at hn
    rw [Tree.ofValue]
    obtain ⟨m, rfl⟩ : ∃ m, n = m + 1 := ⟨n - 1, by omega⟩
    have hf : (Layout.framed (Document.entriesLayout es)).size < 0x80000000 :=
      (size_lt_of_append hb).2
    exact spells_withScope hb (spellsDocument_framed hf
      (spellsElements_layout es hs.2 (size_lt_of_framed hf) (Nat.le_of_succ_le_succ hn)))

theorem spellsElements_layout {n : Nat} (es : List (String × Value String))
    (hs : firstStop? (Document.entryPassages es) = none)
    (hb : (Document.entriesLayout es).size < 0x80000000) (hn : Document.depth es ≤ n) :
    SpellsElements n (Document.entriesLayout es) (Tree.ofEntries es) := by
  match es with
  | [] =>
    rw [Document.entriesLayout, Tree.ofEntries]
    exact .nil
  | (k, v) :: es =>
    rw [Document.entryPassages, firstStop?_cons_eq_none, firstStop?_append_eq_none] at hs
    rw [Document.entriesLayout] at hb ⊢
    rw [Document.depth] at hn
    rw [Tree.ofEntries]
    have hv := (size_lt_of_append (size_lt_of_append hb).1).2
    exact .cons (isCString_cstring (stop?_terminated_eq_none.1 hs.1))
      (spells_layout v hs.2.1 hv (le_trans (le_max_left _ _) hn))
      (spellsElements_layout es hs.2.2 (size_lt_of_append hb).2 (le_trans (le_max_right _ _) hn))

theorem spellsItems_layout {n i : Nat} (vs : List (Value String))
    (hs : firstStop? (Value.itemPassages vs) = none)
    (hb : (Value.itemsLayout i vs).size < 0x80000000) (hn : Value.depthAll vs ≤ n) :
    SpellsItems n (Value.itemsLayout i vs) (Tree.ofItems i vs) := by
  match vs with
  | [] =>
    rw [Value.itemsLayout, Tree.ofItems]
    exact .nil
  | v :: vs =>
    rw [Value.itemPassages, firstStop?_append_eq_none] at hs
    rw [Value.itemsLayout] at hb ⊢
    rw [Value.depthAll] at hn
    rw [Tree.ofItems]
    have hv := (size_lt_of_append (size_lt_of_append hb).1).2
    exact .cons ⟨zero_notMem_toString i, rfl⟩
      (spells_layout v hs.1 hv (le_trans (le_max_left _ _) hn))
      (spellsItems_layout vs hs.2 (size_lt_of_append hb).2 (le_trans (le_max_right _ _) hn))

end

end Grammar

end DocumentServer
