import DocumentServer.Metrics.Basic
import Mathlib.Data.String.Basic

namespace DocumentServer.Labelled

variable {α : Type} {xs : Labelled α} {label l : String}

def Ordered (xs : Labelled α) : Prop := xs.Pairwise fun x y => x.1 < y.1

theorem mem_adjust {start : α} {f : α → α} {x : String × α} (h : x ∈ adjust start label f xs) :
    x.1 = label ∨ x ∈ xs := by
  induction xs with
  | nil =>
    rw [adjust, List.mem_singleton] at h
    exact .inl (congrArg Prod.fst h)
  | cons y xs ih =>
    obtain ⟨k, a⟩ := y
    rw [adjust] at h
    split at h
    next hk =>
      obtain rfl | h := List.mem_cons.1 h
      · exact .inl hk
      · exact .inr (List.mem_cons_of_mem _ h)
    next =>
      split at h
      next =>
        obtain rfl | h := List.mem_cons.1 h
        · exact .inl rfl
        · exact .inr h
      next =>
        obtain rfl | h := List.mem_cons.1 h
        · exact .inr List.mem_cons_self
        · exact (ih h).imp_right (List.mem_cons_of_mem _)

theorem Ordered.adjust (h : Ordered xs) (start : α) (label : String) (f : α → α) :
    Ordered (adjust start label f xs) := by
  induction xs with
  | nil => exact List.pairwise_singleton _ _
  | cons x xs ih =>
    obtain ⟨k, a⟩ := x
    obtain ⟨hx, hxs⟩ := List.pairwise_cons.1 h
    rw [Labelled.adjust]
    split
    next => exact List.pairwise_cons.2 ⟨hx, hxs⟩
    next hk =>
      split
      next hl =>
        refine List.pairwise_cons.2 ⟨fun y hy => ?_, h⟩
        obtain rfl | hy := List.mem_cons.1 hy
        · exact hl
        · exact hl.trans (hx y hy)
      next hl =>
        refine List.pairwise_cons.2 ⟨fun y hy => ?_, ih hxs⟩
        obtain hy | hy := mem_adjust hy
        · rw [hy]
          exact lt_of_le_of_ne (not_lt.1 hl) hk
        · exact hx y hy

theorem Ordered.lookup_eq_none {a : α} (h : Ordered ((l, a) :: xs)) (hl : label < l) :
    List.lookup label ((l, a) :: xs) = none := by
  rw [List.lookup_eq_none_iff]
  intro x hx
  refine bne_iff_ne.2 (ne_of_lt ?_)
  obtain rfl | hx := List.mem_cons.1 hx
  · exact hl
  · exact hl.trans ((List.pairwise_cons.1 h).1 x hx)

theorem lookup_cons (k : String) (a : α) (xs : Labelled α) (l : String) :
    List.lookup l ((k, a) :: xs) = if l = k then some a else List.lookup l xs := by
  by_cases h : l = k
  · simp [h]
  · simp [h, List.lookup_cons, beq_false_of_ne h]

theorem Ordered.lookup_adjust (h : Ordered xs) (start : α) (label : String) (f : α → α)
    (l : String) :
    (Labelled.adjust start label f xs).lookup l =
      if l = label then some (f ((xs.lookup label).getD start)) else xs.lookup l := by
  induction xs with
  | nil =>
    rw [Labelled.adjust, lookup_cons]
    rfl
  | cons x xs ih =>
    obtain ⟨k, a⟩ := x
    rw [Labelled.adjust]
    by_cases hk : k = label
    · subst hk
      rw [if_pos rfl, lookup_cons, lookup_cons, lookup_cons, if_pos rfl]
      split <;> rfl
    · rw [if_neg hk]
      by_cases hlt : label < k
      · rw [if_pos hlt, h.lookup_eq_none hlt, lookup_cons]
        rfl
      · rw [if_neg hlt, lookup_cons, lookup_cons, lookup_cons, ih (List.pairwise_cons.1 h).2,
          if_neg (Ne.symm hk)]
        by_cases hl : l = k
        · rw [if_pos hl, if_pos hl, if_neg (hl ▸ hk)]
        · rw [if_neg hl, if_neg hl]

theorem Ordered.total_count {xs : Labelled Nat} (h : Ordered xs) (label l : String) :
    total l (count label xs) = total l xs + [label].count l := by
  rw [total, count, h.lookup_adjust]
  by_cases hl : l = label
  · simp [hl, total]
  · simp [hl, Ne.symm hl, total]

/-- After counting some labels, the total of a label has grown by how often it was among them. -/
theorem Ordered.total_foldl_count {xs : Labelled Nat} (h : Ordered xs) (labels : List String)
    (l : String) :
    total l (labels.foldl (fun xs label => count label xs) xs) = total l xs + labels.count l := by
  induction labels generalizing xs with
  | nil => rfl
  | cons label labels ih =>
    have ho : Ordered (count label xs) := h.adjust 0 label (· + 1)
    rw [List.foldl_cons, ih ho, h.total_count, Nat.add_assoc, ← List.count_append]
    rfl

end DocumentServer.Labelled
