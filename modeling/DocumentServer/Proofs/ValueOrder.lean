import DocumentServer.Proofs.ScalarOrder
import DocumentServer.Value.Hash

namespace DocumentServer

namespace Value

/-- Two values of one kind: scalars of one class, or containers of one type. -/
inductive Alike : Value String → Value String → Prop
  | scalar (a b : Scalar String) (h : a.tag.rank = b.tag.rank) : Alike (.scalar a) (.scalar b)
  | document (a b : Document String) : Alike (.document a) (.document b)
  | array (a b : List (Value String)) : Alike (.array a) (.array b)
  | codeWithScope (c d : String) (a b : Document String) :
      Alike (.codeWithScope c a) (.codeWithScope d b)

variable {a b c : Value String}

theorem rank_scalar (s : Scalar String) :
    s.tag.rank ≠ 5 ∧ s.tag.rank ≠ 6 ∧ s.tag.rank ≠ 15 := by
  cases s <;> simp [Scalar.tag, Tag.rank]

theorem alike_of_rank (h : a.tag.rank = b.tag.rank) : Alike a b := by
  cases a with
  | scalar s =>
    obtain ⟨hd, ha, hc⟩ := rank_scalar s
    cases b with
    | scalar t => exact .scalar s t h
    | document es => exact absurd h hd
    | array vs => exact absurd h ha
    | codeWithScope d es => exact absurd h hc
  | document es | array vs | codeWithScope d es =>
    cases b with
    | scalar t =>
      obtain ⟨hd, ha, hc⟩ := rank_scalar t
      first | exact absurd h.symm hd | exact absurd h.symm ha | exact absurd h.symm hc
    | document es | array vs | codeWithScope d es =>
      first | constructor | simp [tag, Tag.rank] at h

theorem cmp_scalar (a b : Scalar String) : Value.cmp (.scalar a) (.scalar b) = a.cmp b := by
  rw [Value.cmp, Scalar.cmp]

theorem cmp_eq_rank_then (a b : Value String) :
    a.cmp b = (compare a.tag.rank b.tag.rank).then (a.cmp b) := by
  cases a with
  | scalar s =>
    cases b with
    | scalar t =>
      simp only [cmp_scalar, Scalar.cmp, tag, ← Ordering.then_assoc, Ordering.then_self]
    | document es | array vs | codeWithScope d es => simp [Value.cmp]
  | document es | array vs | codeWithScope d es => cases b <;> simp [Value.cmp, tag]

theorem cmp_of_rank_ne (h : a.tag.rank ≠ b.tag.rank) :
    a.cmp b = compare a.tag.rank b.tag.rank := by
  rw [cmp_eq_rank_then]
  cases hr : compare a.tag.rank b.tag.rank with
  | lt | gt => rfl
  | eq => exact absurd (Nat.compare_eq_eq.1 hr) h

theorem rank_of_cmp_eq (h : a.cmp b = .eq) : a.tag.rank = b.tag.rank := by
  rw [cmp_eq_rank_then, Ordering.then_eq_eq] at h
  exact Nat.compare_eq_eq.1 h.1

end Value

mutual

theorem Value.cmp_swap (a b : Value String) : a.cmp b = (b.cmp a).swap := by
  by_cases hr : a.tag.rank = b.tag.rank
  · match a, b, Value.alike_of_rank hr with
    | _, _, .scalar a b _ => rw [Value.cmp_scalar, Value.cmp_scalar, Scalar.cmp_swap]
    | _, _, .document a b => rw [Value.cmp, Value.cmp, Document.cmp_swap a b]
    | _, _, .array a b => rw [Value.cmp, Value.cmp, Value.cmpAll_swap a b]
    | _, _, .codeWithScope c d a b =>
      rw [Value.cmp, Value.cmp, Ordering.swap_then, ← Std.OrientedOrd.eq_swap,
        Document.cmp_swap a b]
  · rw [Value.cmp_of_rank_ne hr, Value.cmp_of_rank_ne (Ne.symm hr)]
    exact Std.OrientedOrd.eq_swap

theorem Document.cmp_swap (a b : Document String) :
    Document.cmp a b = (Document.cmp b a).swap := by
  match a, b with
  | [], [] | [], _ :: _ | _ :: _, [] => simp [Document.cmp]
  | (k, v) :: es, (l, w) :: fs =>
    rw [Document.cmp, Document.cmp, Ordering.swap_then, Ordering.swap_then,
      ← Std.OrientedOrd.eq_swap, Value.cmp_swap v w, Document.cmp_swap es fs]

theorem Value.cmpAll_swap (a b : List (Value String)) :
    Value.cmpAll a b = (Value.cmpAll b a).swap := by
  match a, b with
  | [], [] | [], _ :: _ | _ :: _, [] => simp [Value.cmpAll]
  | v :: vs, w :: ws =>
    rw [Value.cmpAll, Value.cmpAll, Ordering.swap_then, Value.cmp_swap v w, Value.cmpAll_swap vs ws]

end

mutual

theorem Value.cmp_chain (a b c : Value String) : Chain (a.cmp b) (b.cmp c) (a.cmp c) := by
  have hr : Chain (compare a.tag.rank b.tag.rank) (compare b.tag.rank c.tag.rank)
      (compare a.tag.rank c.tag.rank) := .of_transCmp compare _ _ _
  by_cases h : a.tag.rank = b.tag.rank ∧ b.tag.rank = c.tag.rank
  · match a, b, c, Value.alike_of_rank h.1, Value.alike_of_rank h.2 with
    | _, _, _, .scalar a b _, .scalar _ c _ =>
      rw [Value.cmp_scalar, Value.cmp_scalar, Value.cmp_scalar]
      exact Scalar.cmp_chain a b c
    | _, _, _, .document a b, .document _ c =>
      rw [Value.cmp, Value.cmp, Value.cmp]
      exact Document.cmp_chain a b c
    | _, _, _, .array a b, .array _ c =>
      rw [Value.cmp, Value.cmp, Value.cmp]
      exact Value.cmpAll_chain a b c
    | _, _, _, .codeWithScope s t a b, .codeWithScope _ u _ c =>
      rw [Value.cmp, Value.cmp, Value.cmp]
      exact .lex (.of_transCmp compare s t u) (Document.cmp_chain a b c)
  · rw [Value.cmp_eq_rank_then a b, Value.cmp_eq_rank_then b c, Value.cmp_eq_rank_then a c]
    exact hr.lex_of_ne (by rwa [Nat.compare_eq_eq, Nat.compare_eq_eq])

theorem Document.cmp_chain (a b c : Document String) :
    Chain (Document.cmp a b) (Document.cmp b c) (Document.cmp a c) := by
  match a, b, c with
  | [], b, c => cases b <;> cases c <;> simp [Document.cmp, Chain]
  | _ :: _, [], c => simp [Document.cmp, Chain]
  | _ :: _, _ :: _, [] => simp [Document.cmp, Chain]
  | (k, v) :: es, (l, w) :: fs, (m, x) :: gs =>
    rw [Document.cmp, Document.cmp, Document.cmp]
    exact .lex (.of_transCmp compare k l m)
      (.lex (Value.cmp_chain v w x) (Document.cmp_chain es fs gs))

theorem Value.cmpAll_chain (a b c : List (Value String)) :
    Chain (Value.cmpAll a b) (Value.cmpAll b c) (Value.cmpAll a c) := by
  match a, b, c with
  | [], b, c => cases b <;> cases c <;> simp [Value.cmpAll, Chain]
  | _ :: _, [], c => simp [Value.cmpAll, Chain]
  | _ :: _, _ :: _, [] => simp [Value.cmpAll, Chain]
  | v :: vs, w :: ws, x :: xs =>
    rw [Value.cmpAll, Value.cmpAll, Value.cmpAll]
    exact .lex (Value.cmp_chain v w x) (Value.cmpAll_chain vs ws xs)

end

mutual

theorem Value.cmp_eq_iff (a b : Value String) : a.cmp b = .eq ↔ a = b := by
  by_cases hr : a.tag.rank = b.tag.rank
  · match a, b, Value.alike_of_rank hr with
    | _, _, .scalar a b _ => rw [Value.cmp_scalar, Scalar.cmp_eq_iff, Value.scalar.injEq]
    | _, _, .document a b => rw [Value.cmp, Document.cmp_eq_iff a b, Value.document.injEq]
    | _, _, .array a b => rw [Value.cmp, Value.cmpAll_eq_iff a b, Value.array.injEq]
    | _, _, .codeWithScope c d a b =>
      rw [Value.cmp, Ordering.then_eq_eq, Std.LawfulEqCmp.compare_eq_iff_eq,
        Document.cmp_eq_iff a b, Value.codeWithScope.injEq]
  · exact ⟨fun h => absurd (Value.rank_of_cmp_eq h) hr, fun h => absurd (by rw [h]) hr⟩

theorem Document.cmp_eq_iff (a b : Document String) : Document.cmp a b = .eq ↔ a = b := by
  match a, b with
  | [], [] | [], _ :: _ | _ :: _, [] => simp [Document.cmp]
  | (k, v) :: es, (l, w) :: fs =>
    rw [Document.cmp, Ordering.then_eq_eq, Ordering.then_eq_eq, Std.LawfulEqCmp.compare_eq_iff_eq,
      Value.cmp_eq_iff v w, Document.cmp_eq_iff es fs, List.cons.injEq, Prod.mk.injEq, and_assoc]

theorem Value.cmpAll_eq_iff (a b : List (Value String)) : Value.cmpAll a b = .eq ↔ a = b := by
  match a, b with
  | [], [] | [], _ :: _ | _ :: _, [] => simp [Value.cmpAll]
  | v :: vs, w :: ws =>
    rw [Value.cmpAll, Ordering.then_eq_eq, Value.cmp_eq_iff v w, Value.cmpAll_eq_iff vs ws,
      List.cons.injEq]

end

/-- Two comparisons of a pair are opposite, the order is transitive, and only the same compare
equal. -/
structure LawfulOrder {α : Type} (cmp : α → α → Ordering) : Prop where
  swap (a b : α) : cmp a b = (cmp b a).swap
  trans (a b c : α) : (cmp a b).isLE → (cmp b c).isLE → (cmp a c).isLE
  eq_iff (a b : α) : cmp a b = .eq ↔ a = b

theorem Value.lawfulOrder : LawfulOrder Value.cmp :=
  ⟨Value.cmp_swap, fun a b c => (Value.cmp_chain a b c).isLE, Value.cmp_eq_iff⟩

theorem Document.lawfulOrder : LawfulOrder Document.cmp :=
  ⟨Document.cmp_swap, fun a b c => (Document.cmp_chain a b c).isLE, Document.cmp_eq_iff⟩

theorem Value.lawfulOrder_all : LawfulOrder Value.cmpAll :=
  ⟨Value.cmpAll_swap, fun a b c => (Value.cmpAll_chain a b c).isLE, Value.cmpAll_eq_iff⟩

namespace Value

theorem beq_iff_eq (a b : Value String) : (a == b) = true ↔ a = b := by
  rw [← cmp_eq_iff]
  exact decide_eq_true_iff

theorem rank_bounds (v : Value String) :
    (v ≠ .scalar .minKey → 0 < v.tag.rank) ∧ (v ≠ .scalar .maxKey → v.tag.rank < 16) := by
  cases v with
  | scalar s => cases s <;> simp [tag, Scalar.tag, Tag.rank]
  | document es | array vs | codeWithScope c es => simp [tag, Tag.rank]

theorem minKey_lt {v : Value String} (h : v ≠ .scalar .minKey) :
    Value.cmp (.scalar .minKey) v = .lt := by
  have hv := (rank_bounds v).1 h
  have hm : Value.tag (τ := String) (.scalar .minKey) = .minKey := rfl
  rw [cmp_of_rank_ne (by rw [hm, Tag.rank]; omega), hm, Tag.rank]
  exact Nat.compare_eq_lt.2 hv

theorem lt_maxKey {v : Value String} (h : v ≠ .scalar .maxKey) :
    v.cmp (.scalar .maxKey) = .lt := by
  have hv := (rank_bounds v).2 h
  have hm : Value.tag (τ := String) (.scalar .maxKey) = .maxKey := rfl
  rw [cmp_of_rank_ne (by rw [hm, Tag.rank]; omega), hm, Tag.rank]
  exact Nat.compare_eq_lt.2 hv

theorem cmpAll_eq_compareLex (a b : List (Value String)) :
    Value.cmpAll a b = List.compareLex Value.cmp a b := by
  induction a generalizing b with
  | nil => cases b <;> simp [Value.cmpAll, List.compareLex]
  | cons v vs ih =>
    cases b with
    | nil => simp [Value.cmpAll, List.compareLex]
    | cons w ws => rw [Value.cmpAll, List.compareLex_cons_cons, ih]

end Value

theorem Document.cmp_eq_compareLex (a b : Document String) :
    Document.cmp a b =
      List.compareLex (fun e f => (compare e.1 f.1).then (e.2.cmp f.2)) a b := by
  induction a generalizing b with
  | nil => cases b <;> simp [Document.cmp, List.compareLex]
  | cons e es ih =>
    cases b with
    | nil => simp [Document.cmp, List.compareLex]
    | cons f fs => rw [Document.cmp, List.compareLex_cons_cons, ih, Ordering.then_assoc]

/-- Values, documents and arrays are totally ordered, whatever their depth; the least and the
greatest key bound every other value; equality is that of what is said, whether a text is owned or a
view; and equal values are hashed alike. Documents and arrays are ordered entry by entry and element
by element. -/
theorem value_order_lawful :
    LawfulOrder Value.cmp ∧ LawfulOrder Document.cmp ∧ LawfulOrder Value.cmpAll ∧
      (∀ v, v ≠ .scalar .minKey → Value.cmp (.scalar .minKey) v = .lt) ∧
      (∀ v, v ≠ .scalar .maxKey → Value.cmp v (.scalar .maxKey) = .lt) ∧
      (∀ a b : Value String, (a == b) = true ↔ a = b) ∧
      (∀ u v : Value Text, u.plain.cmp v.plain = .eq ↔ u.plain = v.plain) ∧
      (∀ c d : Document Text, Document.cmp c.plain d.plain = .eq ↔ c.plain = d.plain) ∧
      (∀ a b : Value String, (a == b) = true → a.feed = b.feed) ∧
      (∀ a b : Document String, Document.cmp a b = .eq →
        a.length = b.length ∧ Document.feed a = Document.feed b) ∧
      (∀ a b : List (Value String), Value.cmpAll a b = .eq →
        a.length = b.length ∧ Value.feedAll a = Value.feedAll b) ∧
      (∀ a b : Document String, Document.cmp a b =
        List.compareLex (fun e f => (compare e.1 f.1).then (e.2.cmp f.2)) a b) ∧
      ∀ a b : List (Value String), Value.cmpAll a b = List.compareLex Value.cmp a b := by
  refine ⟨Value.lawfulOrder, Document.lawfulOrder, Value.lawfulOrder_all,
    fun v => Value.minKey_lt, fun v => Value.lt_maxKey, Value.beq_iff_eq,
    fun u v => Value.cmp_eq_iff _ _, fun c d => Document.cmp_eq_iff _ _, ?_, ?_, ?_,
    Document.cmp_eq_compareLex, Value.cmpAll_eq_compareLex⟩
  · intro a b h
    rw [(Value.beq_iff_eq a b).1 h]
  · intro a b h
    rw [(Document.cmp_eq_iff a b).1 h]
    exact ⟨rfl, rfl⟩
  · intro a b h
    rw [(Value.cmpAll_eq_iff a b).1 h]
    exact ⟨rfl, rfl⟩

end DocumentServer
