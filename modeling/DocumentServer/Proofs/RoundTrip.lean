import DocumentServer.Proofs.Derivation

namespace DocumentServer

open Grammar

namespace Document

variable {d : Document String} {b : ByteArray} {n : Nat}

/-- An encoding spells the tree of its document, with as many levels as the document is deep. -/
theorem spellsDocument_of_encode (h : d.encode = .ok b) (hn : d.depth ≤ n) :
    SpellsDocument n b (Tree.ofEntries d) := by
  obtain ⟨hs, hm, rfl⟩ := encode_eq_ok_iff.1 h
  rw [← size_layout, maxDocumentSize] at hm
  have hb : d.layout.size < 0x80000000 := by omega
  exact spellsDocument_framed hb (spellsElements_layout d hs (size_lt_of_framed hb) hn)

theorem spells_of_encode (h : d.encode = .ok b) (hd : d.Distinct) (hn : d.depth ≤ n) :
    ∃ es, SpellsDocument n b es ∧ Tree.entries es = d ∧ Tree.CanonicalElements es :=
  ⟨_, spellsDocument_of_encode h hn, Tree.entries_ofEntries hd, Tree.canonical_ofEntries hd⟩

theorem isDocument_of_encode (h : d.encode = .ok b) (hd : d.Distinct) (hn : d.depth ≤ n) :
    IsDocument n b d := by
  obtain ⟨es, hs, rfl, hc⟩ := spells_of_encode h hd hn
  exact hc.merged ▸ hs.isDocument

end Document

namespace Decode

variable {σ τ : Type} [HasContent τ] {k : Keeper σ τ} {d : Document String} {w x : ByteArray}
  {n : Nat}

theorem agrees_root {m : Nat} (h : n ≤ m) : Agrees (root k n w) (root k m w) :=
  agrees_entries (agrees_payload (agrees_level h)) _ _ _

theorem documentAt_append (h : IsDocument n w d) (x : ByteArray) (s : σ) :
    documentAt k (w ++ x) 0 s = root k maxNesting w 4 s := by
  have h5 := (isDocument_iff.1 h).1
  have hl := ((isDocument_iff_inserts h5).1 h).1
  have hn : 0 + w.size ≤ (w ++ x).size := by
    rw [ByteArray.size_append]
    omega
  have hx : (w ++ x).extract 0 (0 + w.size) = w :=
    ByteArray.extract_append_eq_left (Nat.zero_add _)
  have hi : (Bytes.int32 (w ++ x) 0).toInt = w.size := by
    rw [minDocumentSize] at h5
    rw [Bytes.int32_append_left (by omega)]
    exact (isLength_extract_iff (by omega)).1 hl
  rw [documentAt_of_length h5 hn hi, hx]

theorem documentAt_of_isDocument (hk : k.Faithful) (h : IsDocument maxNesting w d) (x : ByteArray)
    (s : σ) : ∃ e t, documentAt k (w ++ x) 0 s = (.ok (e, w.size), t) ∧ e.plain = d := by
  have h5 := (isDocument_iff.1 h).1
  have hl := ((isDocument_iff_inserts h5).1 h).1
  rw [documentAt_append h]
  exact (gives_root_iff hk maxNesting h5 hl).2 ⟨rfl, h⟩

/-- A document that is derivable with more levels only is too deep. -/
theorem documentAt_of_lt_depth (hk : k.Faithful) (h : IsDocument n w d)
    (hd : maxNesting < d.depth) (x : ByteArray) (s : σ) :
    (documentAt k (w ++ x) 0 s).1 = .error (.nestingTooDeep maxNesting) := by
  have h5 := (isDocument_iff.1 h).1
  have hl := ((isDocument_iff_inserts h5).1 h).1
  obtain ⟨e, t, he, rfl⟩ := (gives_root_iff hk n h5 hl (s := s)).2 ⟨rfl, h⟩
  rw [documentAt_append h]
  rcases agrees_root (k := k) (w := w) (Nat.le_of_lt (hd.trans_le h.depth_le)) 4 s with ha | ha
  · -- the levels would do after all, and so would the depth
    obtain ⟨-, hm⟩ := (gives_root_iff hk maxNesting h5 hl).1 ⟨e, t, ha.trans he, rfl⟩
    exact absurd hm.depth_le (Nat.not_le.2 hd)
  · exact ha

end Decode

namespace Pool

theorem decode_of_isDocument (p : Pool) (strategy : Strategy) (region : Nat) {w : ByteArray}
    {d : Document String} (h : IsDocument maxNesting w d) (x : ByteArray) :
    ∃ e, (p.decode strategy region (w ++ x) 0).1 = .ok (e, w.size) ∧ e.plain = d := by
  obtain ⟨e, t, he, hp⟩ := Decode.documentAt_of_isDocument (faithful_keeper strategy region 0) h x p
  exact ⟨e, by rw [decode_fst, he], hp⟩

/-- What is encoded is decoded to itself, with any bytes behind it, if it has at most a hundred
levels of containers, and is refused as too deep if it has more. -/
theorem decode_encode (p : Pool) (strategy : Strategy) (region : Nat) (x : ByteArray)
    {d : Document String} {b : ByteArray} (hd : d.Distinct) (h : d.encode = .ok b) :
    (d.depth ≤ 100 →
      ∃ e, (p.decode strategy region (b ++ x) 0).1 = .ok (e, b.size) ∧ e.plain = d) ∧
    (100 < d.depth →
      (p.decode strategy region (b ++ x) 0).1 = .error (.nestingTooDeep 100)) := by
  constructor
  · intro hn
    exact p.decode_of_isDocument strategy region (Document.isDocument_of_encode h hd hn) x
  · intro hn
    rw [decode_fst]
    exact Decode.documentAt_of_lt_depth (faithful_keeper strategy region 0)
      (Document.isDocument_of_encode h hd le_rfl) hn x p

def chain : Nat → Document String
  | 0 => []
  | n + 1 => [("inner", .document (chain n))]

theorem depth_chain (n : Nat) : (chain n).depth = n := by
  induction n with
  | zero => rw [chain, Document.depth]
  | succ n ih => simp only [chain, Document.depth, Value.depth, ih, Nat.max_zero]

theorem distinct_chain (n : Nat) : (chain n).Distinct := by
  induction n with
  | zero => exact Document.distinct_nil
  | succ n ih => simpa [chain, Document.Distinct, Value.Distinct, Document.keys] using ih

theorem stop?_chain (n : Nat) : (chain n).stop? = none := by
  induction n with
  | zero => rw [chain, Document.stop?, Document.entryPassages]; rfl
  | succ n ih =>
    rw [Document.stop?] at ih ⊢
    rw [chain, Document.entryPassages, Document.entryPassages, Value.passages, List.append_nil,
      Passage.firstStop?_cons_eq_none]
    exact ⟨by decide, ih⟩

theorem extent_chain (n : Nat) : (chain n).extent = 12 * n + 5 := by
  have h5 : "inner".utf8ByteSize = 5 := rfl
  induction n with
  | zero => rw [chain, Document.extent, Document.entriesExtent]
  | succ n ih =>
    rw [Document.extent] at ih ⊢
    rw [chain, Document.entriesExtent, Document.entriesExtent, Value.extent, h5]
    omega

theorem encode_chain {n : Nat} (h : 12 * n + 5 ≤ maxDocumentSize) :
    (chain n).encode = .ok (chain n).layout :=
  Document.encode_eq_ok_iff.2 ⟨stop?_chain n, extent_chain n ▸ h, rfl⟩

theorem decode_encode_chain :
    (∃ b e, (chain 100).encode = .ok b ∧
      ((empty .onlyLikely 0).decode .borrow 0 (b ++ one 1) 0).1 = .ok (e, b.size) ∧
      e.plain = chain 100) ∧
    ∃ b, (chain 101).encode = .ok b ∧
      ((empty .onlyLikely 0).decode .borrow 0 (b ++ one 1) 0).1 =
        .error (.nestingTooDeep 100) := by
  have hl := encode_chain (n := 100) (by decide)
  have hm := encode_chain (n := 101) (by decide)
  constructor
  · obtain ⟨e, he⟩ := (decode_encode (empty .onlyLikely 0) .borrow 0 (one 1) (distinct_chain 100)
      hl).1 (depth_chain 100).le
    exact ⟨_, e, hl, he⟩
  · have hd : 100 < (chain 101).depth := by rw [depth_chain]; exact Nat.lt_succ_self 100
    exact ⟨_, hm, (decode_encode (empty .onlyLikely 0) .borrow 0 (one 1) (distinct_chain 101)
      hm).2 hd⟩

end Pool

end DocumentServer
