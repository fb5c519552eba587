import DocumentServer.Proofs.RoundTrip
import DocumentServer.Proofs.Written

namespace DocumentServer

namespace Grammar

theorem littleEndian_inj {xs ys : List UInt8} (hl : xs.length = ys.length)
    (h : littleEndian xs = littleEndian ys) : xs = ys := by
  induction xs generalizing ys with
  | nil => exact (List.eq_nil_of_length_eq_zero hl.symm).symm
  | cons x xs ih =>
    cases ys with
    | nil => cases hl
    | cons y ys =>
      have hx := x.toNat_lt
      have hy := y.toNat_lt
      rw [littleEndian, littleEndian] at h
      rw [ih (Nat.succ.inj hl) (by omega), UInt8.toNat_inj.1 (by omega : x.toNat = y.toNat)]

theorem IsWord.eq {n v : Nat} {w w' : ByteArray} (h : IsWord n w v) (h' : IsWord n w' v) :
    w = w' := by
  have hs : w.data.toList.length = w'.data.toList.length := h.1.trans h'.1.symm
  exact ByteArray.ext (Array.toList_inj.1 (littleEndian_inj hs (h.2.trans h'.2.symm)))

theorem IsLength.eq_ofSize {l : ByteArray} {n : Nat} (h : IsLength l n) : l = Bytes.ofSize n :=
  h.1.eq (isLength_ofSize h.2).1

theorem IsCString.eq_cstring {w : ByteArray} {s : String} (h : IsCString w s) :
    w = Layout.cstring s :=
  h.2

theorem IsString.eq_string {w : ByteArray} {s : String} (h : IsString w s) :
    w = Layout.string s := by
  obtain ⟨l, hl, rfl⟩ := h
  rw [hl.eq_ofSize]
  rfl

theorem IsScalar.eq_layout {t : Tag} {w : ByteArray} {s : Scalar String} (h : IsScalar t w s) :
    w = s.layout := by
  cases h with
  | double h | datetime h | timestamp h | int64 h => exact h.eq (isWord_ofUInt64 _)
  | int32 h => exact h.eq (isWord_ofUInt32 _)
  | string h | javascript h | symbol h => exact h.eq_string
  | dbPointer h => rw [h.eq_string]; rfl
  | binary h => rw [h.eq_ofSize]; rfl
  | regex hp ho => rw [hp.eq_cstring, ho.eq_cstring]; rfl
  | boolean | undefined | objectId | null | minKey | maxKey => rfl

theorem IsScalar.tag {t : Tag} {w : ByteArray} {s : Scalar String} (h : IsScalar t w s) :
    s.tag = t := by
  cases h <;> rfl

theorem Spells.tag {n : Nat} {t : Tag} {w : ByteArray} {x : Tree} (h : Spells n t w x) :
    x.value.tag = t := by
  cases h with
  | scalar h => rw [Tree.value]; exact h.tag
  | document | array | codeWithScope => rw [Tree.value]; rfl

theorem framed_of_isLength {l u : ByteArray} (h : IsLength l (l ++ u ++ one 0).size) :
    Layout.framed u = l ++ u ++ one 0 := by
  have hs : (l ++ u ++ one 0).size = u.size + minDocumentSize := by
    rw [ByteArray.size_append, ByteArray.size_append, h.1.1, size_one, minDocumentSize]
    omega
  rw [Layout.framed, ← hs, ← h.eq_ofSize]

theorem withScope_of_isLength {l u w : ByteArray} {c : String}
    (h : IsLength l (l ++ u ++ w).size) (hu : IsString u c) :
    Layout.withScope c w = l ++ u ++ w := by
  have hs : (l ++ u ++ w).size = (u ++ w).size + 4 := by
    rw [ByteArray.append_assoc, ByteArray.size_append, h.1.1, Nat.add_comm]
  rw [Layout.withScope, ← hu.eq_string, ← hs, ← h.eq_ofSize]

mutual

theorem Spells.layout {n : Nat} {t : Tag} {w : ByteArray} {x : Tree} :
    Spells n t w x → x.Canonical → x.value.layout = w
  | .scalar h, _ => by rw [Tree.value, Value.layout, h.eq_layout]
  | .document h, hc => by
    rw [Tree.Canonical] at hc
    rw [Tree.value, Value.layout]
    exact h.layout hc
  | .array h, hc => by
    rw [Tree.Canonical] at hc
    rw [Tree.value, Value.layout]
    exact h.layout hc
  | .codeWithScope hl hs h, hc => by
    rw [Tree.Canonical] at hc
    have hw : Layout.framed _ = _ := h.layout hc
    rw [Tree.value, Value.layout, hw]
    exact withScope_of_isLength hl hs

theorem SpellsDocument.layout {n : Nat} {w : ByteArray} {es : List (String × Tree)} :
    SpellsDocument n w es → Tree.CanonicalElements es →
      Document.layout (merged (Tree.entries es)) = w
  | .mk hl h, hc => by
    rw [hc.merged, Document.layout, h.layout hc]
    exact framed_of_isLength hl

theorem SpellsArray.layout {n : Nat} {w : ByteArray} {xs : List (ByteArray × Tree)} :
    SpellsArray n w xs → Tree.CanonicalItems 0 xs →
      Layout.framed (Value.itemsLayout 0 (Tree.values xs)) = w
  | .mk hl h, hc => by
    rw [h.layout hc]
    exact framed_of_isLength hl

theorem SpellsElements.layout {n : Nat} {w : ByteArray} {es : List (String × Tree)} :
    SpellsElements n w es → Tree.CanonicalElements es →
      Document.entriesLayout (Tree.entries es) = w
  | .nil, _ => by rw [Tree.entries, Document.entriesLayout]
  | .cons hk hx h, hc => by
    rw [Tree.CanonicalElements] at hc
    rw [Tree.entries, Document.entriesLayout, ← hk.eq_cstring, hx.tag, hx.layout hc.2.1,
      h.layout hc.2.2]

theorem SpellsItems.layout {n i : Nat} {w : ByteArray} {xs : List (ByteArray × Tree)} :
    SpellsItems n w xs → Tree.CanonicalItems i xs → Value.itemsLayout i (Tree.values xs) = w
  | .nil, _ => by rw [Tree.values, Value.itemsLayout]
  | .cons hk hx h, hc => by
    rw [Tree.CanonicalItems] at hc
    obtain ⟨rfl, hxc, hc⟩ := hc
    rw [Tree.values, Value.itemsLayout, hx.tag, hx.layout hxc, h.layout hc, Layout.cstring, ← hk.2]

end

theorem IsCString.stop?_eq_none {w : ByteArray} {s : String} (h : IsCString w s)
    (part : CStringPart) : (Passage.terminated part s).stop? = none :=
  Passage.stop?_terminated_eq_none.2 (mt zero_mem_toUTF8_iff.2 h.1)

theorem IsString.stop?_eq_none {w : ByteArray} {s : String} (h : IsString w s) :
    (Passage.counted s).stop? = none := by
  obtain ⟨l, hl, -⟩ := h
  have hs : s.toUTF8.size + 1 < 0x80000000 := hl.2
  have hu : s.toUTF8.size = s.utf8ByteSize := rfl
  exact Passage.stop?_counted_eq_none.2 (by omega)

theorem IsScalar.stop?_eq_none {t : Tag} {w : ByteArray} {s : Scalar String}
    (h : IsScalar t w s) : ∀ p ∈ s.passages, p.stop? = none := by
  cases h with
  | string h | javascript h | symbol h | dbPointer h =>
    exact List.forall_mem_singleton.2 h.stop?_eq_none
  | regex hp ho =>
    exact List.forall_mem_cons.2
      ⟨hp.stop?_eq_none _, List.forall_mem_singleton.2 (ho.stop?_eq_none _)⟩
  | _ => exact nofun

mutual

theorem IsValue.stop?_eq_none {n : Nat} {t : Tag} {w : ByteArray} {v : Value String} :
    IsValue n t w v → ∀ p ∈ v.passages, p.stop? = none
  | .scalar h => by rw [Value.passages]; exact h.stop?_eq_none
  | .document h => by rw [Value.passages]; exact Document.writable_iff.1 h.writable
  | .array h => by rw [Value.passages]; exact h.stop?_eq_none
  | .codeWithScope _ hc h => by
    rw [Value.passages]
    exact List.forall_mem_cons.2 ⟨hc.stop?_eq_none, Document.writable_iff.1 h.writable⟩

theorem IsDocument.writable {n : Nat} {w : ByteArray} {d : Document String} :
    IsDocument n w d → d.Writable
  | .mk _ h => Document.writable_iff.2
      (Document.passes_iff.2 fun e he => h.passesEntry e (mem_of_mem_merged he))

theorem IsArray.stop?_eq_none {n : Nat} {w : ByteArray} {vs : List (Value String)} :
    IsArray n w vs → ∀ p ∈ Value.itemPassages vs, p.stop? = none
  | .mk _ h => h.stop?_eq_none

theorem IsElements.passesEntry {n : Nat} {w : ByteArray} {es : List (String × Value String)} :
    IsElements n w es → ∀ e ∈ es, Document.PassesEntry (fun p => p.stop? = none) e
  | .nil => fun _ he => nomatch he
  | .cons hk hv h =>
    List.forall_mem_cons.2 ⟨⟨hk.stop?_eq_none .key, hv.stop?_eq_none⟩, h.passesEntry⟩

theorem IsItems.stop?_eq_none {n : Nat} {w : ByteArray} {vs : List (Value String)} :
    IsItems n w vs → ∀ p ∈ Value.itemPassages vs, p.stop? = none
  | .nil => by rw [Value.itemPassages]; nofun
  | .cons _ hv h => by
    rw [Value.itemPassages]
    exact List.forall_mem_append.2 ⟨hv.stop?_eq_none, h.stop?_eq_none⟩

end

/-- Bytes are the encoding of the document that they stand for if their tree is canonical. -/
theorem SpellsDocument.encode_iff {n : Nat} {w : ByteArray} {es : List (String × Tree)}
    (h : SpellsDocument n w es) :
    Document.encode (merged (Tree.entries es)) = .ok w ↔
      w.size ≤ maxDocumentSize ∧ Tree.CanonicalElements es := by
  constructor
  · intro he
    obtain ⟨fs, hs, -, hc⟩ :=
      Document.spells_of_encode he h.isDocument.distinct h.isDocument.depth_le
    exact ⟨(Document.volume_of_encode he).2, h.unique rfl hs ▸ hc⟩
  · rintro ⟨hw, hc⟩
    have hl := h.layout hc
    refine Document.encode_eq_ok_iff.2 ⟨h.isDocument.writable, ?_, hl⟩
    rwa [← Document.size_layout, hl]

end Grammar

namespace Pool

open Grammar

/-- A decoded document can be encoded, unless it is too large, and is then decoded to itself. The
bytes that it was decoded from spell one tree, and come back if and only if that tree is canonical
and they are not too many. -/
theorem encode_decode (p : Pool) (strategy : Strategy) (region : Nat) {b : ByteArray} {i n : Nat}
    {e : Document Text} (h : (p.decode strategy region b i).1 = .ok (e, n)) :
    ((∃ w, e.plain.encode = .ok w) ∨
      ∃ size, maxDocumentSize < size ∧ e.plain.encode = .error (.error (.documentTooLarge size))) ∧
    (∃ es, SpellsDocument maxNesting (b.extract i (i + n)) es ∧
      (∀ fs, SpellsDocument maxNesting (b.extract i (i + n)) fs → fs = es) ∧
      merged (Tree.entries es) = e.plain ∧
      (e.plain.encode = .ok (b.extract i (i + n)) ↔
        n ≤ maxDocumentSize ∧ Tree.CanonicalElements es)) ∧
    ∀ w, e.plain.encode = .ok w → ∀ (q : Pool) (strategy' : Strategy) (region' : Nat) x,
      ∃ f, (q.decode strategy' region' (w ++ x) 0).1 = .ok (f, w.size) ∧ f.plain = e.plain ∧
        f.plain.encode = .ok w := by
  rw [decode_fst] at h
  obtain ⟨-, hn, -, hd⟩ := (Decode.documentAt_eq_ok_iff (faithful_keeper strategy region i)).1
    ⟨e, _, Prod.ext h rfl, rfl⟩
  refine ⟨?_, ?_, fun w hw q strategy' region' x => ?_⟩
  · rw [Document.encode_of_writable hd.writable]
    split
    next hs => exact .inr ⟨_, hs, rfl⟩
    next => exact .inl ⟨_, rfl⟩
  · obtain ⟨es, hs, he⟩ := hd.exists_spells
    refine ⟨es, hs, fun fs hf => hf.unique rfl hs, he, ?_⟩
    rw [← he, hs.encode_iff, Bytes.size_extract_add hn]
  · have hm := Document.isDocument_of_encode hw hd.distinct hd.depth_le
    obtain ⟨f, hf, hp⟩ := q.decode_of_isDocument strategy' region' hm x
    exact ⟨f, hf, hp, hp ▸ hw⟩

/-- A key that is there twice, the second time with an array whose only element has a letter for
its number. -/
def repeatedKey : ByteArray :=
  ⟨#[22, 0, 0, 0, 10, 97, 0, 4, 97, 0, 8, 0, 0, 0, 10, 97, 0, 0, 10, 98, 0, 0]⟩

def singleKey : ByteArray :=
  ⟨#[19, 0, 0, 0, 4, 97, 0, 8, 0, 0, 0, 10, 48, 0, 0, 10, 98, 0, 0]⟩

theorem encode_decode_repeatedKey :
    ∃ e f, ((empty .onlyLikely 0).decode .borrow 0 repeatedKey 0).1 = .ok (e, 22) ∧
      ((empty .onlyLikely 0).decode .borrow 0 (singleKey ++ one 1) 0).1 = .ok (f, 19) ∧
      f.plain = e.plain ∧
      (∃ es, SpellsDocument maxNesting repeatedKey es ∧ ¬Tree.CanonicalElements es) ∧
      ∃ es, SpellsDocument maxNesting singleKey es ∧ Tree.CanonicalElements es := by
  have hb : ((empty .onlyLikely 0).decode .borrow 0 repeatedKey 0).1.toOption.any
      (fun r => decide (r.2 = 22 ∧ r.1.plain.encode.toOption = some singleKey)) = true := by
    decide +kernel
  obtain ⟨⟨e, n⟩, h, hb⟩ := (Option.any_eq_true _ _).1 hb
  obtain ⟨rfl, he⟩ := of_decide_eq_true hb
  have h := eq_ok_of_toOption h
  have hw := eq_ok_of_toOption he
  obtain ⟨-, ⟨es, hs, -, -, hi⟩, hd⟩ := encode_decode (empty .onlyLikely 0) .borrow 0 h
  obtain ⟨f, hf, hp, hfw⟩ := hd singleKey hw (empty .onlyLikely 0) .borrow 0 (one 1)
  obtain ⟨-, ⟨fs, hfs, -, -, hj⟩, -⟩ := encode_decode (empty .onlyLikely 0) .borrow 0 hf
  have hr : repeatedKey.extract 0 (0 + 22) = repeatedKey := by decide +kernel
  have ht : (singleKey ++ one 1).extract 0 (0 + singleKey.size) = singleKey := by decide +kernel
  rw [hr] at hs hi
  rw [ht] at hfs hj
  refine ⟨e, f, h, hf, hp, ⟨es, hs, fun hc => ?_⟩, fs, hfs, (hj.1 hfw).2⟩
  have hm := hw.symm.trans (hi.2 ⟨by decide, hc⟩)
  exact absurd (Except.ok.inj hm) (by decide +kernel)

end Pool

end DocumentServer
