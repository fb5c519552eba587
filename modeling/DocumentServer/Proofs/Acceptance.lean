import DocumentServer.Proofs.Recognition

namespace DocumentServer

namespace Decode

open Grammar

variable {σ τ : Type} [HasContent τ] {k : Keeper σ τ} {b w : ByteArray} {i n : Nat} {s : σ}

def root (k : Keeper σ τ) (levels : Nat) (w : ByteArray) : Read DecodeError σ (Document τ) :=
  entries k w (payload k w (level k w levels)) ⟨0, w.size⟩ (w.size - 4) .empty

theorem documentAt_of_length (h5 : minDocumentSize ≤ n) (hn : i + n ≤ b.size)
    (hl : (Bytes.int32 b i).toInt = n) :
    documentAt k b i s = root k maxNesting (b.extract i (i + n)) 4 s := by
  rw [minDocumentSize] at h5
  have h4 : ¬b.size - i < 4 := by omega
  have hm : ¬(n : Int) < minDocumentSize := by rw [minDocumentSize]; omega
  have ha : ¬n > b.size - i := by omega
  simp only [documentAt, root, h4, hl, hm, if_false, Int.toNat_natCast, ha,
    Bytes.size_extract_add hn]

theorem length_of_documentAt {a : Document τ × Nat} {t : σ}
    (h : documentAt k b i s = (.ok a, t)) :
    ∃ n, minDocumentSize ≤ n ∧ i + n ≤ b.size ∧ (Bytes.int32 b i).toInt = (n : Int) := by
  unfold documentAt at h
  dsimp only at h
  split at h
  next => cases h
  next h4 =>
    split at h
    next => cases h
    next hm =>
      split at h
      next => cases h
      next ha =>
        rw [minDocumentSize] at hm ⊢
        exact ⟨(Bytes.int32 b i).toInt.toNat, by omega, by omega, by omega⟩

theorem fills_root (hk : k.Faithful) (levels : Nat) (hw : 4 ≤ w.size) :
    Fills Document.plain w ⟨0, w.size⟩ 4 (root k levels w) (Inserts levels []) := by
  have hp := reads_payload hk (reads_level (b := w) hk levels)
  have h := fills_entries hk hp (r := ⟨0, w.size⟩) le_rfl (w.size - 4) hw le_rfl
    Document.Builder.indexed_empty
  rwa [Document.Builder.plain_build_empty] at h

theorem isDocument_iff_inserts (hw : minDocumentSize ≤ w.size) {d : Document String} :
    IsDocument n w d ↔
      IsLength (w.extract 0 4) w.size ∧ Inserts n [] (w.extract 4 w.size) d := by
  rw [minDocumentSize] at hw
  rw [isDocument_iff]
  constructor
  · rintro ⟨-, l, u, rfl, hl, hu⟩
    have h4 := hl.1.1
    have h0 : (l ++ u).extract 0 4 = l := ByteArray.extract_append_eq_left h4.symm
    have hr : (l ++ u).extract 4 (l ++ u).size = u :=
      ByteArray.extract_append_eq_right h4.symm ByteArray.size_append
    rw [h0, hr]
    exact ⟨hl, hu⟩
  · rintro ⟨hl, hu⟩
    have hs : w = w.extract 0 4 ++ w.extract 4 w.size := by
      rw [Bytes.extract_append_extract_of_le (by omega) (by omega), ByteArray.extract_zero_size]
    exact ⟨hw, _, _, hs, hl, hu⟩

theorem isLength_extract_iff (h : i + 4 ≤ b.size) :
    IsLength (b.extract i (i + 4)) n ↔ (Bytes.int32 b i).toInt = n := by
  rw [IsLength, isWord_extract_iff h, toInt_eq_natCast_iff, ← Bytes.toNat_uint32, Bytes.int32,
    UInt32.toUInt32_toInt32]

/-- With some levels, exactly the documents of at most so many levels are read. -/
theorem gives_root_iff (hk : k.Faithful) (levels : Nat) (h5 : minDocumentSize ≤ w.size)
    (hl : IsLength (w.extract 0 4) w.size) {d : Document String} {j : Nat} :
    Gives Document.plain (root k levels w) 4 s d j ↔ j = w.size ∧ IsDocument levels w d := by
  have hf := fills_root hk levels (Nat.le_of_succ_le h5)
  rw [hf s d j, isDocument_iff_inserts h5]
  exact and_congr_right fun _ => ⟨fun h => ⟨hl, h⟩, fun h => h.2⟩

theorem documentAt_eq_ok_iff (hk : k.Faithful) {d : Document String} :
    (∃ e t, documentAt k b i s = (.ok (e, n), t) ∧ e.plain = d) ↔
      minDocumentSize ≤ n ∧ i + n ≤ b.size ∧ IsLength (b.extract i (i + 4)) n ∧
        IsDocument maxNesting (b.extract i (i + n)) d := by
  have hw : ∀ {m}, minDocumentSize ≤ m →
      (b.extract i (i + m)).extract 0 4 = b.extract i (i + 4) := by
    intro m hm
    rw [minDocumentSize] at hm
    rw [ByteArray.extract_extract, Nat.add_zero, Nat.min_eq_left (by omega)]
  constructor
  · rintro ⟨e, t, h, rfl⟩
    obtain ⟨m, h5, hm, hi⟩ := length_of_documentAt h
    have hs := Bytes.size_extract_add hm
    have hl : IsLength (b.extract i (i + 4)) m := by
      rw [minDocumentSize] at h5
      exact (isLength_extract_iff (by omega)).2 hi
    rw [documentAt_of_length h5 hm hi] at h
    obtain ⟨hj, hd⟩ := (gives_root_iff hk maxNesting (by rwa [hs]) (by rwa [hw h5, hs])).1
      ⟨e, t, h, rfl⟩
    obtain rfl : n = m := hj.trans hs
    exact ⟨h5, hm, hl, hd⟩
  · rintro ⟨h5, hn, hl, hd⟩
    have hs := Bytes.size_extract_add hn
    obtain ⟨e, t, h, rfl⟩ := (gives_root_iff hk maxNesting (by rwa [hs]) (by rwa [hw h5, hs])
      (s := s)).2 ⟨rfl, hd⟩
    have hi : (Bytes.int32 b i).toInt = n := by
      rw [minDocumentSize] at h5
      exact (isLength_extract_iff (by omega)).1 hl
    rw [hs] at h
    exact ⟨e, t, by rw [documentAt_of_length h5 hn hi, h], rfl⟩

end Decode

namespace Pool

theorem content_intern (s : String) (p : Pool) : (p.intern s).1.content = s := by
  unfold intern
  split
  next cell _ =>
    by_cases h : p.isLive cell
    · rw [if_pos h]
    · rw [if_neg h]
      rfl
  next => rfl

theorem faithful_keeper (strategy : Strategy) (region base : Nat) :
    (keeper strategy region base).Faithful := by
  intro f p
  by_cases hb : strategy.borrows f.isKey
  · simp only [keeper, hb, if_true]
    rfl
  · by_cases ha : p.policy.accepts f.likely f.content.toUTF8
    · simp only [keeper, hb, fetch, ha, if_true]
      exact content_intern f.content p
    · simp only [keeper, hb, fetch, ha]
      rfl

theorem decode_fst (p : Pool) (strategy : Strategy) (region : Nat) (b : ByteArray) (i : Nat) :
    (p.decode strategy region b i).1 =
      (Decode.documentAt (keeper strategy region i) b i p).1 := by
  unfold decode
  split
  next h => rw [h]
  next h => rw [h]

/-- The decoder accepts the grammar: it gives a document and a length if and only if the length is
declared by the first word and covers bytes that are derivable, and then the document is the one
that the bytes stand for. -/
theorem decode_accepts_iff (p : Pool) (strategy : Strategy) (region : Nat) (b : ByteArray)
    (i n : Nat) (d : Document String) :
    (∃ e, (p.decode strategy region b i).1 = .ok (e, n) ∧ e.plain = d) ↔
      5 ≤ n ∧ i + n ≤ b.size ∧ Grammar.IsLength (b.extract i (i + 4)) n ∧
        Grammar.IsDocument 100 (b.extract i (i + n)) d := by
  have hk := faithful_keeper strategy region i
  refine Iff.trans ?_ (Decode.documentAt_eq_ok_iff hk (s := p))
  rw [decode_fst]
  constructor
  · rintro ⟨e, h, hd⟩
    exact ⟨e, _, Prod.ext h rfl, hd⟩
  · rintro ⟨e, t, h, hd⟩
    exact ⟨e, by rw [h], hd⟩

end Pool

end DocumentServer
