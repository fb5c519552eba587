import DocumentServer.Proofs.Acceptance

namespace DocumentServer

mutual

/-- The number of containers around the innermost payload of a value, itself included. -/
def Value.depth {τ : Type} : Value τ → Nat
  | .scalar _ => 0
  | .document es => Document.depth es + 1
  | .array vs => Value.depthAll vs + 1
  | .codeWithScope _ es => Document.depth es + 1

/-- The number of containers inside a document, one inside the other. -/
def Document.depth {τ : Type} : Document τ → Nat
  | [] => 0
  | (_, v) :: es => max v.depth (Document.depth es)

def Value.depthAll {τ : Type} : List (Value τ) → Nat
  | [] => 0
  | v :: vs => max v.depth (Value.depthAll vs)

end

theorem Document.depth_le_iff {τ : Type} {d : Document τ} {n : Nat} :
    depth d ≤ n ↔ ∀ e ∈ d, e.2.depth ≤ n := by
  induction d with
  | nil => simp [depth]
  | cons e d ih =>
    obtain ⟨k, v⟩ := e
    simp [depth, ih]

namespace Grammar

theorem mem_of_mem_merged {es : List (String × Value String)} {e : String × Value String}
    (h : e ∈ merged es) : e ∈ es := by
  induction es with
  | nil => exact h
  | cons a es ih =>
    obtain ⟨k, v⟩ := a
    rw [merged, List.mem_cons] at h
    rcases h with rfl | h
    · cases hl : es.reverse.lookup k with
      | none => exact List.mem_cons_self
      | some x =>
        obtain ⟨l, r, hr, -⟩ := List.lookup_eq_some_iff.1 hl
        have hm : (k, x) ∈ es.reverse := hr ▸ List.mem_append_right l List.mem_cons_self
        exact List.mem_cons_of_mem _ (List.mem_reverse.1 hm)
    · exact List.mem_cons_of_mem _ (ih (List.mem_of_mem_filter h))

mutual

theorem IsValue.depth_le {n : Nat} {t : Tag} {w : ByteArray} {v : Value String} :
    IsValue n t w v → v.depth ≤ n
  | .scalar _ => by rw [Value.depth]; exact Nat.zero_le _
  | .document h => by rw [Value.depth]; exact Nat.succ_le_succ h.depth_le
  | .array h => by rw [Value.depth]; exact Nat.succ_le_succ h.depth_le
  | .codeWithScope _ _ h => by rw [Value.depth]; exact Nat.succ_le_succ h.depth_le

theorem IsDocument.depth_le {n : Nat} {w : ByteArray} {d : Document String} :
    IsDocument n w d → Document.depth d ≤ n
  | .mk _ h => by
    have hd := Document.depth_le_iff.1 h.depth_le
    exact Document.depth_le_iff.2 fun e he => hd e (mem_of_mem_merged he)

theorem IsArray.depth_le {n : Nat} {w : ByteArray} {vs : List (Value String)} :
    IsArray n w vs → Value.depthAll vs ≤ n
  | .mk _ h => h.depth_le

theorem IsElements.depth_le {n : Nat} {w : ByteArray} {es : List (String × Value String)} :
    IsElements n w es → Document.depth es ≤ n
  | .nil => by rw [Document.depth]; exact Nat.zero_le _
  | .cons _ hv h => by rw [Document.depth]; exact max_le hv.depth_le h.depth_le

theorem IsItems.depth_le {n : Nat} {w : ByteArray} {vs : List (Value String)} :
    IsItems n w vs → Value.depthAll vs ≤ n
  | .nil => by rw [Value.depthAll]; exact Nat.zero_le _
  | .cons _ hv h => by rw [Value.depthAll]; exact max_le hv.depth_le h.depth_le

end

end Grammar

namespace Decode

variable {σ τ α β : Type} [HasContent τ] {k : Keeper σ τ} {b : ByteArray}

def Agrees (p q : Read DecodeError σ α) : Prop :=
  ∀ i s, p i s = q i s ∨ (p i s).1 = .error (.nestingTooDeep maxNesting)

theorem Agrees.refl (p : Read DecodeError σ α) : Agrees p p := fun _ _ => .inl rfl

theorem Agrees.bind {p p' : Read DecodeError σ α} {q q' : α → Read DecodeError σ β}
    (hp : Agrees p p') (hq : ∀ a, Agrees (q a) (q' a)) : Agrees (p >>= q) (p' >>= q') := by
  intro i s
  rw [Read.bind_apply, Read.bind_apply]
  rcases hp i s with h | h
  · rw [h]
    rcases p' i s with ⟨_ | ⟨a, j⟩, t⟩
    · exact .inl rfl
    · exact hq a j t
  · have hf : p i s = (.error (.nestingTooDeep maxNesting), (p i s).2) := Prod.ext h rfl
    rw [hf]
    exact .inr rfl

theorem Agrees.fail (p : Read DecodeError σ α) :
    Agrees (Read.fail (.nestingTooDeep maxNesting)) p := fun _ _ => .inr rfl

variable {payload payload' : Range → Tag → Read DecodeError σ (Value τ)}

theorem agrees_entries (h : ∀ r t, Agrees (payload r t) (payload' r t)) (r : Range) (fuel : Nat)
    (d : Document.Builder τ) :
    Agrees (entries k b payload r fuel d) (entries k b payload' r fuel d) := by
  induction fuel generalizing d with
  | zero => exact .refl _
  | succ fuel ih =>
    refine (Agrees.refl _).bind fun t => ?_
    cases t with
    | none => exact .refl _
    | some t =>
      refine (Agrees.refl _).bind fun name => (h r t).bind fun v => ?_
      exact (Agrees.refl _).bind fun _ => ih (d.insert name v)

omit [HasContent τ] in
theorem agrees_items (h : ∀ r t, Agrees (payload r t) (payload' r t)) (r : Range) (fuel : Nat)
    (vs : Array (Value τ)) :
    Agrees (items b payload r fuel vs) (items b payload' r fuel vs) := by
  induction fuel generalizing vs with
  | zero => exact .refl _
  | succ fuel ih =>
    refine (Agrees.refl _).bind fun t => ?_
    cases t with
    | none => exact .refl _
    | some t =>
      refine (Agrees.refl _).bind fun name => (h r t).bind fun v => ?_
      exact ih (vs.push v)

theorem agrees_nested {body body' : Range → Nat → Read DecodeError σ α}
    (h : ∀ q size, Agrees (body q size) (body' q size)) (r : Range) :
    Agrees (nested b r body) (nested b r body') := by
  refine (Agrees.refl _).bind fun x => ?_
  refine (Agrees.refl _).bind fun q => ?_
  exact (Agrees.refl _).bind fun i => h q (q.stop - i)

structure Level.Agrees (l m : Level σ τ) : Prop where
  document : ∀ r, Decode.Agrees (l.document r) (m.document r)
  array : ∀ r, Decode.Agrees (l.array r) (m.array r)

omit [HasContent τ] in
theorem agrees_payload {l m : Level σ τ} (h : l.Agrees m) (r : Range) (t : Tag) :
    Agrees (Decode.payload k b l r t) (Decode.payload k b m r t) := by
  cases t with
  | document => exact (h.document r).bind fun _ => .refl _
  | array => exact (h.array r).bind fun _ => .refl _
  | codeWithScope =>
    refine (Agrees.refl _).bind fun x => (Agrees.refl _).bind fun q => ?_
    exact (Agrees.refl _).bind fun code => (h.document q).bind fun scope => .refl _
  | _ => exact .refl _

/-- Fewer levels change nothing but that the nesting may be found too deep. -/
theorem agrees_level {n m : Nat} (h : n ≤ m) : (level k b n).Agrees (level k b m) := by
  induction n generalizing m with
  | zero => exact ⟨fun _ => .fail _, fun _ => .fail _⟩
  | succ n ih =>
    obtain ⟨m, rfl⟩ : ∃ l, m = l + 1 := ⟨m - 1, by omega⟩
    have hp := agrees_payload (k := k) (b := b) (ih (Nat.le_of_succ_le_succ h))
    exact ⟨agrees_nested fun q size => agrees_entries hp q size .empty,
      agrees_nested fun q size => agrees_items hp q size #[]⟩

end Decode

end DocumentServer
