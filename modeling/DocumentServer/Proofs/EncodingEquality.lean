import DocumentServer.Proofs.RoundTrip
import DocumentServer.Proofs.ValueOrder

namespace DocumentServer.Document

open Grammar

/-- No two documents have the same encoding. The bytes spell one tree, with as many levels as the
deeper of the two needs, so the limit of the decoder plays no part. -/
theorem eq_of_encode {c d : Document String} {b : ByteArray} (hc : c.encode = .ok b)
    (hd : d.encode = .ok b) : c = d := by
  have hs := spellsDocument_of_encode hc (le_max_left c.depth d.depth)
  have ht := spellsDocument_of_encode hd (le_max_right c.depth d.depth)
  exact Tree.eq_of_ofEntries (hs.unique rfl ht)

theorem beq_iff_eq (c d : Document String) : (c == d) = true ↔ c = d := by
  rw [← cmp_eq_iff]
  exact decide_eq_true_iff

/-- Documents that can be written have the same encoding exactly if they are equal, and they are
equal exactly if they say the same: the same keys in the same order, and values of the same types
with the same payloads. -/
theorem encodings_eq_iff {c d : Document Text} {u v : ByteArray} (hu : c.plain.encode = .ok u)
    (hv : d.plain.encode = .ok v) :
    (u = v ↔ (c.plain == d.plain) = true) ∧ ((c.plain == d.plain) = true ↔ c.plain = d.plain) := by
  have hb := beq_iff_eq c.plain d.plain
  refine ⟨⟨?_, fun h => ?_⟩, hb⟩
  · rintro rfl
    exact hb.2 (eq_of_encode hu hv)
  · rw [hb.1 h] at hu
    exact Except.ok.inj (hu.symm.trans hv)

def buried (s : Storage) (x : Scalar Text) : Nat → Document Text
  | 0 => [(⟨"n", s⟩, .scalar x)]
  | n + 1 => [(⟨"inner", s⟩, .document (buried s x n))]

theorem stop?_buried (s : Storage) {x : Scalar Text} (hx : (Value.scalar x).plain.passages = [])
    (n : Nat) : (buried s x n).plain.stop? = none := by
  have hp : ∀ n, ∀ p ∈ entryPassages (buried s x n).plain, p.stop? = none := by
    intro n
    induction n with
    | zero =>
      have he : entryPassages (buried s x 0).plain =
          .terminated .key "n" :: ((Value.scalar x).plain.passages ++ []) := rfl
      rw [he, hx]
      decide
    | succ n ih =>
      have he : entryPassages (buried s x (n + 1)).plain =
          .terminated .key "inner" :: (entryPassages (buried s x n).plain ++ []) := rfl
      rw [he, List.append_nil]
      exact List.forall_mem_cons.2 ⟨by decide, ih⟩
  exact List.findSome?_eq_none_iff.2 (hp n)

theorem extent_buried (s : Storage) (x : Scalar Text) (n : Nat) :
    (buried s x n).plain.extent = (Value.scalar x).plain.extent + 8 + 12 * n := by
  have h1 : "n".utf8ByteSize = 1 := rfl
  have h5 : "inner".utf8ByteSize = 5 := rfl
  induction n with
  | zero =>
    have he : (buried s x 0).plain.extent =
        1 + ("n".utf8ByteSize + 1 + ((Value.scalar x).plain.extent + 0)) + 5 := rfl
    rw [he, h1]
    omega
  | succ n ih =>
    have he : (buried s x (n + 1)).plain.extent =
        1 + ("inner".utf8ByteSize + 1 + ((buried s x n).plain.extent + 0)) + 5 := rfl
    rw [he, ih, h5]
    omega

theorem encode_buried (s : Storage) {x : Scalar Text} (hx : (Value.scalar x).plain.passages = [])
    {n : Nat} (hn : (Value.scalar x).plain.extent + 8 + 12 * n ≤ maxDocumentSize) :
    ∃ u, (buried s x n).plain.encode = .ok u := by
  rw [← extent_buried s] at hn
  exact ⟨_, encode_eq_ok_iff.2 ⟨stop?_buried s hx n, hn, rfl⟩⟩

theorem encodings_eq_buried :
    100 < (buried (.view 0 4) (.int32 1) 101).depth ∧
      (∃ u v, (buried (.view 0 4) (.int32 1) 101).plain.encode = .ok u ∧
        (buried (.cell 1) (.int32 1) 101).plain.encode = .ok v ∧ u = v) ∧
      ∃ u v, (buried (.view 0 4) (.int32 1) 101).plain.encode = .ok u ∧
        (buried (.view 0 4) (.int64 1) 101).plain.encode = .ok v ∧ u ≠ v := by
  obtain ⟨u, hu⟩ := encode_buried (.view 0 4) (x := .int32 1) rfl (n := 101) (by decide)
  obtain ⟨v, hv⟩ := encode_buried (.cell 1) (x := .int32 1) rfl (n := 101) (by decide)
  obtain ⟨w, hw⟩ := encode_buried (.view 0 4) (x := .int64 1) rfl (n := 101) (by decide)
  refine ⟨by decide +kernel, ⟨u, v, hu, hv, ?_⟩, u, w, hu, hw, fun h => ?_⟩
  · exact (encodings_eq_iff hu hv).1.2 (by decide +kernel)
  · exact absurd ((encodings_eq_iff hu hw).1.1 h) (by decide +kernel)

end DocumentServer.Document
