import DocumentServer.Proofs.Builder

namespace DocumentServer.Document

variable {τ : Type} [HasContent τ]

theorem place?_eq_some_iff {d : Document τ} (h : (keys d).Nodup) {key : String} {i : Nat} :
    place? d key = some i ↔ (keys d)[i]? = some key := by
  rw [place?, List.findIdx?_eq_some_iff_getElem, List.getElem?_eq_some_iff]
  constructor
  · rintro ⟨hi, hk, -⟩
    exact ⟨hi, of_decide_eq_true hk⟩
  · rintro ⟨hi, rfl⟩
    refine ⟨hi, decide_eq_true rfl, fun j hj hk => hj.ne ?_⟩
    exact (h.getElem_inj_iff).1 (of_decide_eq_true hk)

theorem foldl_insert_eq_append (d es : Document τ) (h : (keys (d ++ es)).Nodup) :
    es.foldl (fun d e => insert d e.1 e.2) d = d ++ es := by
  induction es generalizing d with
  | nil => rw [List.foldl_nil, List.append_nil]
  | cons e es ih =>
    have hk : HasContent.content e.1 ∉ keys d := by
      rw [keys_append, List.nodup_append'] at h
      exact fun hm => h.2.2 hm List.mem_cons_self
    rw [List.append_cons] at h
    rw [List.foldl_cons, insert_of_notMem e.2 hk, ih _ h, ← List.append_cons]

namespace Builder

/-- What a builder starts from. A document that is taken up again has distinct keys, as every
document has that was built. -/
inductive Start (τ : Type) [HasContent τ] where
  | empty
  | withCapacity (room : Nat)
  | ofDocument (d : Document τ) (distinct : (keys d).Nodup)

def Start.builder : Start τ → Builder τ
  | .empty => .empty
  | .withCapacity room => .withCapacity room
  | .ofDocument d _ => .ofDocument d

def Start.document : Start τ → Document τ
  | .empty | .withCapacity _ => []
  | .ofDocument d _ => d

/-- A builder shows a list of entries: by their number, by their keys and by what is built. -/
structure Shows (b : Builder τ) (d : Document τ) : Prop where
  size_eq : b.size = d.length
  contains_iff : ∀ key, b.contains key = true ↔ key ∈ keys d
  build_eq : b.build = d
  distinct : (keys d).Nodup
  /-- There is an index from the seventeenth entry on. -/
  isSome_index : b.index.isSome = true ↔ 16 < d.length
  index_eq_some_iff : ∀ index, b.index = some index →
    ∀ (key : String) (i : Nat), index[key]? = some i ↔ (keys d)[i]? = some key

def Switched (b : Builder τ) : Prop := b.index.isSome = true ↔ scanLimit < b.entries.size

variable {b : Builder τ}

theorem Switched.push (h : b.Switched) (key : τ) (v : Value τ) : (b.push key v).Switched := by
  unfold Switched at h ⊢
  unfold Builder.push
  rw [Array.size_push]
  cases hi : b.index with
  | some index =>
    rw [hi] at h
    have hs := h.1 rfl
    exact iff_of_true rfl (hs.trans (Nat.lt_succ_self _))
  | none =>
    dsimp only
    split
    next hs => exact iff_of_true rfl hs
    next hs => exact iff_of_false nofun hs

omit [HasContent τ] in
theorem Switched.replace (h : b.Switched) (i : Nat) (v : Value τ) :
    (b.replace i v).Switched := by
  unfold Switched at h ⊢
  rwa [Builder.replace, Array.size_modify]

theorem Switched.insert (h : b.Switched) (key : τ) (v : Value τ) : (b.insert key v).Switched := by
  unfold Builder.insert
  split
  · exact h.replace _ v
  · exact h.push key v

theorem Switched.insertAll (h : b.Switched) (es : List (τ × Value τ)) :
    (b.insertAll es).Switched := by
  induction es generalizing b with
  | nil => exact h
  | cons e es ih => exact ih (h.insert e.1 e.2)

omit [HasContent τ] in
theorem switched_empty : (empty : Builder τ).Switched :=
  iff_of_false nofun (Nat.not_lt_zero _)

theorem Indexed.shows (h : b.Indexed) (hs : b.Switched) : b.Shows b.build where
  size_eq := Array.length_toList.symm
  contains_iff key := by
    rw [contains, position?_eq h, Option.isSome_iff_ne_none, Ne, place?_eq_none_iff, not_not]
  build_eq := rfl
  distinct := h.distinct
  isSome_index := by
    rw [build, Array.length_toList]
    exact hs
  index_eq_some_iff index hi key i := by
    rw [h.index_eq index hi, place?_eq_some_iff h.distinct]

theorem build_ofDocument {d : Document τ} (h : (keys d).Nodup) : (ofDocument d).build = d := by
  rw [ofDocument, build_insertAll indexed_empty]
  exact foldl_insert_eq_append [] d h

theorem Start.indexed (start : Start τ) : start.builder.Indexed := by
  cases start with
  | empty | withCapacity room => exact indexed_empty
  | ofDocument d _ => exact indexed_empty.insertAll d

theorem Start.switched (start : Start τ) : start.builder.Switched := by
  cases start with
  | empty | withCapacity room => exact switched_empty
  | ofDocument d _ => exact switched_empty.insertAll d

theorem Start.build_builder (start : Start τ) : start.builder.build = start.document := by
  cases start with
  | empty | withCapacity room => rfl
  | ofDocument d h => exact build_ofDocument h

/-- A builder shows the ordered map of all insertions: from any start and after any sequence of
insertions, before and after there is an index. What is built is itself a start from which the same
is built again. -/
theorem insertAll_shows (start : Start τ) (es : List (τ × Value τ)) :
    (start.builder.insertAll es).Shows
        (es.foldl (fun d e => Document.insert d e.1 e.2) start.document) ∧
      (ofDocument (start.builder.insertAll es).build).build =
        (start.builder.insertAll es).build := by
  have hi := start.indexed.insertAll es
  have hs := start.switched.insertAll es
  have hb : (start.builder.insertAll es).build =
      es.foldl (fun d e => Document.insert d e.1 e.2) start.document := by
    rw [build_insertAll start.indexed, start.build_builder]
  refine ⟨?_, build_ofDocument hi.distinct⟩
  rw [← hb]
  exact hi.shows hs

end Builder

end DocumentServer.Document
