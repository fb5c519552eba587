import DocumentServer.Proofs.Acceptance

namespace DocumentServer

mutual

/-- No document inside a value has a key twice. -/
def Value.Distinct {τ : Type} [HasContent τ] : Value τ → Prop
  | .scalar _ => True
  | .document es => Document.Distinct es
  | .array vs => Value.DistinctAll vs
  | .codeWithScope _ es => Document.Distinct es

/-- The keys of a document are distinct, and so are those of all documents inside. -/
def Document.Distinct {τ : Type} [HasContent τ] : Document τ → Prop
  | [] => True
  | (k, v) :: es =>
    HasContent.content k ∉ Document.keys es ∧ v.Distinct ∧ Document.Distinct es

def Value.DistinctAll {τ : Type} [HasContent τ] : List (Value τ) → Prop
  | [] => True
  | v :: vs => v.Distinct ∧ Value.DistinctAll vs

end

theorem Document.keys_nodup {τ : Type} [HasContent τ] {d : Document τ} (h : Document.Distinct d) :
    (keys d).Nodup := by
  induction d with
  | nil => exact List.nodup_nil
  | cons e d ih =>
    obtain ⟨k, v⟩ := e
    rw [Document.Distinct] at h
    exact List.nodup_cons.2 ⟨h.1, ih h.2.2⟩

namespace Document

variable {τ : Type} [HasContent τ] {d : Document τ}

theorem distinct_nil : Distinct ([] : Document τ) := by
  rw [Distinct]
  exact trivial

theorem distinct_iff :
    d.Distinct ↔ (keys d).Nodup ∧ ∀ e ∈ d, e.2.Distinct := by
  induction d with
  | nil => simp [Distinct, keys]
  | cons e d ih =>
    obtain ⟨k, v⟩ := e
    rw [Distinct, ih, keys_cons, List.nodup_cons, List.forall_mem_cons]
    tauto

theorem Distinct.insert (h : d.Distinct) {key : τ} {v : Value τ} (hv : v.Distinct) :
    (insert d key v).Distinct := by
  obtain ⟨hd, hm⟩ := distinct_iff.1 h
  refine distinct_iff.2 ⟨keys_insert_nodup key v hd, fun e he => ?_⟩
  rcases of_mem_insert he with rfl | he
  · exact hv
  · exact hm e he

theorem Distinct.foldl_insert (h : d.Distinct) {es : List (τ × Value τ)}
    (hes : ∀ e ∈ es, e.2.Distinct) :
    (es.foldl (fun d e => Document.insert d e.1 e.2) d).Distinct := by
  induction es generalizing d with
  | nil => exact h
  | cons e es ih =>
    obtain ⟨he, hes⟩ := List.forall_mem_cons.1 hes
    exact ih (h.insert he) hes

theorem distinct_ofPairs {es : List (τ × Value τ)} (h : ∀ e ∈ es, e.2.Distinct) :
    (ofPairs es).Distinct := by
  rw [ofPairs, Builder.build_insertAll Builder.indexed_empty]
  exact distinct_nil.foldl_insert h

end Document

namespace Grammar

mutual

theorem IsValue.distinct {n : Nat} {t : Tag} {w : ByteArray} {v : Value String} :
    IsValue n t w v → v.Distinct
  | .scalar _ => by rw [Value.Distinct]; exact trivial
  | .document h => by rw [Value.Distinct]; exact h.distinct
  | .array h => by rw [Value.Distinct]; exact h.distinct
  | .codeWithScope _ _ h => by rw [Value.Distinct]; exact h.distinct

theorem IsDocument.distinct {n : Nat} {w : ByteArray} {d : Document String} :
    IsDocument n w d → d.Distinct
  | .mk _ h => by
    rw [merged_eq_foldl]
    exact Document.distinct_nil.foldl_insert h.distinct

theorem IsArray.distinct {n : Nat} {w : ByteArray} {vs : List (Value String)} :
    IsArray n w vs → Value.DistinctAll vs
  | .mk _ h => h.distinct

theorem IsElements.distinct {n : Nat} {w : ByteArray} {es : List (String × Value String)} :
    IsElements n w es → ∀ e ∈ es, e.2.Distinct
  | .nil => fun _ he => nomatch he
  | .cons _ hv h => List.forall_mem_cons.2 ⟨hv.distinct, h.distinct⟩

theorem IsItems.distinct {n : Nat} {w : ByteArray} {vs : List (Value String)} :
    IsItems n w vs → Value.DistinctAll vs
  | .nil => by rw [Value.DistinctAll]; exact trivial
  | .cons _ hv h => by rw [Value.DistinctAll]; exact ⟨hv.distinct, h.distinct⟩

end

end Grammar

theorem Pool.distinct_of_decode {p : Pool} {strategy : Strategy} {region : Nat} {b : ByteArray}
    {i n : Nat} {e : Document Text} (h : (p.decode strategy region b i).1 = .ok (e, n)) :
    e.plain.Distinct := by
  rw [decode_fst] at h
  have hd := (Decode.documentAt_eq_ok_iff (faithful_keeper strategy region i)).1
    ⟨e, _, Prod.ext h rfl, rfl⟩
  exact hd.2.2.2.distinct

end DocumentServer
