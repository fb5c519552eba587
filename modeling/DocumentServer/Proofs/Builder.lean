import DocumentServer.Proofs.Grammar
import DocumentServer.Document.Builder

namespace DocumentServer.Document

variable {τ : Type} [HasContent τ]

def place? (d : Document τ) (key : String) : Option Nat := (keys d).findIdx? fun k => k = key

theorem keys_cons (e : τ × Value τ) (d : Document τ) :
    keys (e :: d) = HasContent.content e.1 :: keys d := rfl

theorem keys_append (d e : Document τ) : keys (d ++ e) = keys d ++ keys e := List.map_append

theorem keys_modify (d : Document τ) (i : Nat) (v : Value τ) :
    keys (d.modify i fun e => (e.1, v)) = keys d := by
  induction d generalizing i with
  | nil => rw [List.modify_nil]
  | cons e d ih =>
    cases i with
    | zero => rfl
    | succ i => rw [List.modify_succ_cons, keys_cons, ih, keys_cons]

theorem place?_cons (e : τ × Value τ) (d : Document τ) (key : String) :
    place? (e :: d) key =
      if HasContent.content e.1 = key then some 0 else (place? d key).map (· + 1) := by
  simp only [place?, keys_cons, List.findIdx?_cons, decide_eq_true_eq]

theorem place?_eq_none_iff (d : Document τ) (key : String) :
    place? d key = none ↔ key ∉ keys d := by
  simp only [place?, List.findIdx?_eq_none_iff, decide_eq_false_iff_not]
  exact ⟨fun h hk => h key hk rfl, fun h k hk e => h (e ▸ hk)⟩

theorem place?_append_singleton (d : Document τ) (e : τ × Value τ) (key : String)
    (h : HasContent.content e.1 ∉ keys d) :
    place? (d ++ [e]) key =
      if HasContent.content e.1 = key then some d.length else place? d key := by
  induction d with
  | nil => simp [place?, keys]
  | cons a d ih =>
    obtain ⟨ha, hd⟩ : HasContent.content e.1 ≠ HasContent.content a.1 ∧
        HasContent.content e.1 ∉ keys d := by simpa [keys_cons] using h
    rw [List.cons_append, place?_cons, ih hd, place?_cons]
    split <;> split <;> simp_all

theorem insert_of_place? {d : Document τ} {key : τ} {i : Nat} (v : Value τ)
    (h : place? d (HasContent.content key) = some i) :
    insert d key v = d.modify i fun e => (e.1, v) := by
  induction d generalizing i with
  | nil => cases h
  | cons e d ih =>
    rw [place?_cons] at h
    rw [insert]
    split at h
    next hk =>
      cases h
      rw [if_pos hk, List.modify_zero_cons]
    next hk =>
      obtain ⟨j, hj, rfl⟩ := Option.map_eq_some_iff.1 h
      rw [if_neg hk, ih hj, List.modify_succ_cons]

theorem insert_of_notMem {d : Document τ} {key : τ} (v : Value τ)
    (h : HasContent.content key ∉ keys d) : insert d key v = d ++ [(key, v)] := by
  induction d with
  | nil => rfl
  | cons e d ih =>
    obtain ⟨he, hd⟩ : HasContent.content key ≠ HasContent.content e.1 ∧
        HasContent.content key ∉ keys d := by simpa [keys_cons] using h
    rw [insert, if_neg (Ne.symm he), ih hd, List.cons_append]

theorem of_mem_insert {d : Document τ} {key : τ} {v : Value τ} {e : τ × Value τ}
    (h : e ∈ insert d key v) : e.2 = v ∨ e ∈ d := by
  induction d with
  | nil => exact .inl (by rw [List.mem_singleton.1 h])
  | cons a d ih =>
    rw [insert] at h
    split at h
    · rcases List.mem_cons.1 h with rfl | h
      · exact .inl rfl
      · exact .inr (List.mem_cons_of_mem _ h)
    · rcases List.mem_cons.1 h with rfl | h
      · exact .inr List.mem_cons_self
      · exact (ih h).imp_right (List.mem_cons_of_mem _)

theorem keys_insert_nodup {d : Document τ} (key : τ) (v : Value τ) (h : (keys d).Nodup) :
    (keys (insert d key v)).Nodup := by
  cases hp : place? d (HasContent.content key) with
  | some i => rwa [insert_of_place? v hp, keys_modify]
  | none =>
    have hk := (place?_eq_none_iff d _).1 hp
    rw [insert_of_notMem v hk, keys_append]
    exact List.Nodup.append h (List.nodup_singleton _) (by simpa [keys] using hk)

theorem plain_insert (d : Document τ) (key : τ) (v : Value τ) :
    plain (insert d key v) = insert (plain d) (HasContent.content key) v.plain := by
  induction d with
  | nil => rfl
  | cons e d ih =>
    obtain ⟨k, w⟩ := e
    have hc : plain ((k, w) :: d) = (HasContent.content k, w.plain) :: plain d := rfl
    have hk : HasContent.content (HasContent.content k) = HasContent.content k := rfl
    have hk' : HasContent.content (HasContent.content key) = HasContent.content key := rfl
    rw [hc, insert, insert, hk, hk']
    split
    · rfl
    · rw [← ih]
      rfl

namespace Builder

/-- The keys are distinct, and the index, once there is one, knows the place of each. -/
structure Indexed (b : Builder τ) : Prop where
  distinct : (keys b.build).Nodup
  index_eq : ∀ index, b.index = some index → ∀ key, index[key]? = place? b.build key

theorem indexed_empty : (empty : Builder τ).Indexed :=
  ⟨List.nodup_nil, fun _ h => nomatch h⟩

theorem plain_build_empty : (empty : Builder τ).build.plain = [] := by
  rw [plain]
  exact mapTexts.eq_1 _

theorem findIdx?_entries (b : Builder τ) (key : String) :
    (b.entries.findIdx? fun e => HasContent.content e.1 = key) = place? b.build key := by
  rw [place?, keys, List.findIdx?_map, build, ← List.findIdx?_toArray, Array.toArray_toList]
  rfl

theorem position?_eq {b : Builder τ} (h : b.Indexed) (key : String) :
    b.position? key = place? b.build key := by
  unfold position?
  split
  next index hi => exact h.index_eq index hi key
  next => exact findIdx?_entries b key

theorem Indexed.lt_size {b : Builder τ} (h : b.Indexed) {key : String} {i : Nat}
    (hi : b.position? key = some i) : i < b.entries.size := by
  rw [position?_eq h, place?, List.findIdx?_eq_some_iff_getElem] at hi
  obtain ⟨hi, -⟩ := hi
  rwa [keys, List.length_map, build, Array.length_toList] at hi

theorem getElem?_indexFrom (m : Std.HashMap String Nat) (i : Nat) {es : Document τ}
    (h : (keys es).Nodup) (key : String) :
    (indexFrom m i es)[key]? = ((place? es key).map (· + i)).or m[key]? := by
  induction es generalizing m i with
  | nil => simp [indexFrom, place?, keys]
  | cons e es ih =>
    obtain ⟨hk, hn⟩ := List.nodup_cons.1 h
    rw [indexFrom, ih _ _ hn, place?_cons, Std.HashMap.getElem?_insert]
    by_cases he : HasContent.content e.1 = key
    · have hp := (place?_eq_none_iff es key).2 (he ▸ hk)
      simp [he, hp]
    · have hf : (fun n => n + 1 + i) = fun n => n + (i + 1) := by funext n; omega
      simp [he, Function.comp_def, hf]

theorem build_push (b : Builder τ) (key : τ) (v : Value τ) :
    (b.push key v).build = b.build ++ [(key, v)] := Array.toList_push

omit [HasContent τ] in
theorem build_replace (b : Builder τ) (i : Nat) (v : Value τ) :
    (b.replace i v).build = b.build.modify i fun e => (e.1, v) := Array.toList_modify

variable {b : Builder τ}

/-- The index after a push is the one before, or one made from all entries, with the new key. -/
theorem index_push (h : b.Indexed) {key : τ} {v : Value τ} {index : Std.HashMap String Nat}
    (hi : (b.push key v).index = some index) :
    ∃ m : Std.HashMap String Nat, (∀ k, m[k]? = place? b.build k) ∧
      index = m.insert (HasContent.content key) b.build.length := by
  have hl : b.entries.size = b.build.length := Array.length_toList.symm
  simp only [push] at hi
  split at hi
  next m hm => exact ⟨m, h.index_eq m hm, by rw [← hl, ← Option.some.inj hi]⟩
  next =>
    split at hi
    next =>
      refine ⟨_, fun k => ?_, by rw [← hl, ← Option.some.inj hi]⟩
      refine (getElem?_indexFrom ∅ 0 h.distinct k).trans ?_
      simp
    next => cases hi

theorem Indexed.push (h : b.Indexed) {key : τ} (v : Value τ)
    (hk : HasContent.content key ∉ keys b.build) : (b.push key v).Indexed := by
  refine ⟨?_, fun index hi k => ?_⟩
  · rw [build_push, ← insert_of_notMem v hk]
    exact keys_insert_nodup key v h.distinct
  · obtain ⟨m, hm, rfl⟩ := index_push h hi
    rw [build_push, place?_append_singleton _ _ _ hk, Std.HashMap.getElem?_insert, hm]
    simp only [beq_iff_eq]

theorem Indexed.replace (h : b.Indexed) (i : Nat) (v : Value τ) : (b.replace i v).Indexed := by
  have hk : keys (b.replace i v).build = keys b.build := by rw [build_replace, keys_modify]
  refine ⟨hk ▸ h.distinct, fun index hi k => ?_⟩
  rw [place?, hk]
  exact h.index_eq index hi k

theorem Indexed.insert (h : b.Indexed) (key : τ) (v : Value τ) : (b.insert key v).Indexed := by
  rw [Builder.insert, position?_eq h]
  cases hp : place? b.build (HasContent.content key) with
  | some i => exact h.replace i v
  | none => exact h.push v ((place?_eq_none_iff _ _).1 hp)

/-- Inserting into a builder is inserting into the list that it builds. -/
theorem build_insert (h : b.Indexed) (key : τ) (v : Value τ) :
    (b.insert key v).build = Document.insert b.build key v := by
  rw [insert, position?_eq h]
  cases hp : place? b.build (HasContent.content key) with
  | some i => rw [insert_of_place? v hp, build_replace]
  | none => rw [insert_of_notMem v ((place?_eq_none_iff _ _).1 hp), build_push]

theorem Indexed.insertAll (h : b.Indexed) (es : List (τ × Value τ)) :
    (b.insertAll es).Indexed := by
  induction es generalizing b with
  | nil => exact h
  | cons e es ih => exact ih (h.insert e.1 e.2)

theorem build_insertAll (h : b.Indexed) (es : List (τ × Value τ)) :
    (b.insertAll es).build = es.foldl (fun d e => Document.insert d e.1 e.2) b.build := by
  induction es generalizing b with
  | nil => rfl
  | cons e es ih => rw [insertAll, ih (h.insert e.1 e.2), build_insert h, List.foldl_cons]

end Builder

end DocumentServer.Document
