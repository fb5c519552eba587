import DocumentServer.Proofs.RoundTrip
import DocumentServer.Proofs.Written

namespace DocumentServer.Document

open Grammar Passage

/-- What comes of writing a document after other bytes. The text that stops it first decides, before
its size does. A document that is neither stopped nor too large has its own encoding added, all
length words in it right, and after an error the buffer is what it was. -/
theorem encodeOnto_exact (b : ByteArray) (d : Document String) :
    match d.stop? with
    | some .overflow => ∃ c, encodeOnto b d = (.error .overflow, b ++ c)
    | some (.error e) => encodeOnto b d = (.error (.error e), b)
    | none =>
      if d.extent > maxDocumentSize then
        encodeOnto b d = (.error (.error (.documentTooLarge d.extent)), b)
      else
        ∃ c, d.encode = .ok c ∧ c.size = d.extent ∧
          SpellsDocument d.depth c (Tree.ofEntries d) ∧
          encodeOnto b d = (.ok d.extent, b ++ c) := by
  match hs : d.stop? with
  | some .overflow => exact encodeOnto_of_overflow hs b
  | some (.error e) => exact encodeOnto_of_error hs b
  | none =>
    have ho := encodeOnto_of_none hs b
    dsimp only
    split
    next hm => rw [ho, if_pos hm]
    next hm =>
      rw [if_neg hm] at ho
      have he : d.encode = .ok d.layout := encode_eq_ok_iff.2 ⟨hs, Nat.le_of_not_lt hm, rfl⟩
      exact ⟨_, he, size_layout d, spellsDocument_of_encode he le_rfl, ho⟩

-- the key inside the array is written first, and the text may hold its zero byte
example :
    stop? [("s", .scalar (.string "\x00")), ("a", .array [.document [("k\x00", .scalar .null)]]),
      ("\x00", .scalar .null)] = some (.error (.interiorNul .key "k\x00")) := rfl

def letters (n : Nat) : Document String :=
  [("s", .scalar (.string (String.ofList (List.replicate n 'a'))))]

theorem extent_letters (n : Nat) : (letters n).extent = n + 13 := by
  have hk : "s".utf8ByteSize = 1 := rfl
  have ha : 'a'.utf8Size = 1 := rfl
  simp only [letters, extent, entriesExtent, Value.extent, Scalar.extent, hk, ha,
    utf8ByteSize_ofList_replicate]
  omega

theorem entryPassages_letters (n : Nat) :
    entryPassages (letters n) =
      [.terminated .key "s", .counted (String.ofList (List.replicate n 'a'))] := by
  simp only [letters, entryPassages, Value.passages, Scalar.passages, List.append_nil]

theorem stop?_letters {n : Nat} (h : n % 0x100000000 = 0x7fffffff) :
    (letters n).stop? = some .overflow := by
  have hn : (String.ofList (List.replicate n 'a')).utf8ByteSize = n :=
    (utf8ByteSize_ofList_replicate 'a' n).trans (Nat.mul_one n)
  rw [stop?, entryPassages_letters]
  simp [firstStop?, Passage.stop?, hn, h]

/-- A text of one byte less than two gibibytes, in a document without a zero byte: it is too large,
but no error comes of it. -/
theorem encodeOnto_letters :
    (letters 0x7fffffff).extent = 2147483660 ∧ maxDocumentSize < 2147483660 ∧
      (∀ part text, .terminated part text ∈ entryPassages (letters 0x7fffffff) →
        '\x00' ∉ text.toList) ∧
      (encodeOnto ⟨#[0x70]⟩ (letters 0x7fffffff)).1 = .error .overflow := by
  refine ⟨extent_letters 0x7fffffff, by decide, fun part text h => ?_, ?_⟩
  · rw [entryPassages_letters, List.mem_cons] at h
    rcases h with h | h
    · cases h
      decide
    · cases List.mem_singleton.1 h
  · obtain ⟨c, hc⟩ := encodeOnto_of_overflow (stop?_letters (n := 0x7fffffff) (by decide)) ⟨#[0x70]⟩
    rw [hc]

end DocumentServer.Document
