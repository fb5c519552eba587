import DocumentServer.Codec.Encode
import DocumentServer.Proofs.Strategies
import DocumentServer.Proofs.ValueOrder

namespace DocumentServer

theorem perm_interchange {α : Type} (a b c d : List α) :
    (a ++ b ++ (c ++ d)).Perm (a ++ c ++ (b ++ d)) := by
  rw [List.append_assoc, List.append_assoc]
  exact (List.perm_append_comm_assoc b c d).append_left a

namespace Text

/-- What becomes of a text: it says what it said and is in a cell, in its own if it had one. -/
structure Detached (s t : Text) : Prop where
  content : t.content = s.content
  owned : t.isView = false
  kept : s.isView = false → t = s

/-- Texts `us` have come of `ts` by moving views into the cells from `n` up to `m`: the cells are
those from before, and a new one for each view. -/
structure Settled (n m : Nat) (ts us : List Text) : Prop where
  next : m = n + ts.countP isView
  cells : (us.filterMap cell?).Perm (ts.filterMap cell? ++ List.range' n (ts.countP isView))

variable {n m l : Nat} {ts us ts' us' : List Text}

theorem detach_of_owned {t : Text} (h : t.isView = false) (n : Nat) : t.detach n = (t, n) := by
  unfold isView at h
  unfold detach
  split at h
  next => cases h
  next => rfl

theorem detached_detach (t : Text) (n : Nat) : t.Detached (t.detach n).1 := by
  obtain ⟨s, _ | _⟩ := t
  · exact ⟨rfl, rfl, fun _ => rfl⟩
  · exact ⟨rfl, rfl, nofun⟩

theorem settled_detach (t : Text) (n : Nat) :
    Settled n (t.detach n).2 [t] [(t.detach n).1] := by
  obtain ⟨s, _ | _⟩ := t
  · exact ⟨rfl, .refl _⟩
  · exact ⟨rfl, .refl _⟩

theorem owned_of_detached (h : List.Forall₂ Detached ts us) : ∀ u ∈ us, u.isView = false := by
  induction h with
  | nil => simp
  | cons ht _ ih => exact List.forall_mem_cons.2 ⟨ht.owned, ih⟩

namespace Settled

theorem nil (n : Nat) : Settled n n [] [] := ⟨rfl, .refl _⟩

theorem append (h : Settled n m ts us) (h' : Settled m l ts' us') :
    Settled n l (ts ++ ts') (us ++ us') where
  next := by
    rw [h'.next, h.next, List.countP_append, Nat.add_assoc]
  cells := by
    have hr := h'.cells
    rw [h.next] at hr
    rw [List.filterMap_append, List.filterMap_append, List.countP_append, ← List.range'_append_1]
    exact (h.cells.append hr).trans (perm_interchange _ _ _ _)

theorem of_perm (h : Settled n m ts us) (ht : ts'.Perm ts) (hu : us'.Perm us) :
    Settled n m ts' us' where
  next := by rw [ht.countP_eq, h.next]
  cells := by
    rw [ht.countP_eq]
    exact (hu.filterMap _).trans (h.cells.trans ((ht.filterMap _).symm.append_right _))

end Settled

end Text

section Places

variable {τ : Type}

theorem Document.texts_cons_perm (k : τ) (v : Value τ) (es : Document τ) :
    (Document.texts ((k, v) :: es)).Perm (k :: (v.texts ++ Document.texts es)) :=
  .cons k (perm_interchange _ _ _ _)

theorem Value.texts_array_cons_perm (v : Value τ) (vs : List (Value τ)) :
    (Value.array (v :: vs)).texts.Perm (v.texts ++ (Value.array vs).texts) :=
  perm_interchange _ _ _ _

theorem Value.texts_codeWithScope_perm (c : τ) (es : Document τ) :
    (Value.codeWithScope c es).texts.Perm (c :: Document.texts es) := List.perm_middle

end Places

namespace Scalar

variable (s : Scalar Text) (n : Nat)

theorem related_detach : s.Related Text.Detached (s.detach n).1 := by
  cases s with
  | string t => exact .string (t.detached_detach n)
  | javascript t => exact .javascript (t.detached_detach n)
  | symbol t => exact .symbol (t.detached_detach n)
  | regex p o => exact .regex (p.detached_detach n) (o.detached_detach _)
  | dbPointer t o => exact .dbPointer (t.detached_detach n) o
  | double d => exact .bare (.double d)
  | binary t b => exact .bare (.binary t b)
  | undefined => exact .bare .undefined
  | objectId o => exact .bare (.objectId o)
  | boolean b => exact .bare (.boolean b)
  | datetime d => exact .bare (.datetime d)
  | null => exact .bare .null
  | int32 i => exact .bare (.int32 i)
  | timestamp t => exact .bare (.timestamp t)
  | int64 i => exact .bare (.int64 i)
  | minKey => exact .bare .minKey
  | maxKey => exact .bare .maxKey

theorem settled_detach : Text.Settled n (s.detach n).2 s.strings (s.detach n).1.strings := by
  cases s with
  | string t | javascript t | symbol t => exact t.settled_detach n
  | regex p o => exact (p.settled_detach n).append (o.settled_detach _)
  | dbPointer t o => exact t.settled_detach n
  | _ => exact .nil n

variable {s}

theorem detach_of_owned (h : ∀ t ∈ s.strings, t.isView = false) : s.detach n = (s, n) := by
  cases s with
  | string t | javascript t | symbol t | dbPointer t _ =>
    rw [detach, Text.detach_of_owned (h t (List.mem_singleton_self t))]
  | regex p o =>
    have hp : p.isView = false := h p List.mem_cons_self
    have ho : o.isView = false := h o (List.mem_cons_of_mem p (List.mem_singleton_self o))
    simp only [detach, Text.detach_of_owned hp, Text.detach_of_owned ho]
  | _ => rfl

end Scalar

mutual

theorem Value.related_detach (v : Value Text) (n : Nat) :
    v.Related Text.Detached Text.Detached (v.detach n).1 := by
  match v with
  | .scalar s => exact .scalar (s.related_detach n)
  | .document es => exact .document (Document.related_detach es n)
  | .array vs => exact .array (Value.related_detachAll vs n)
  | .codeWithScope c es =>
    exact .codeWithScope (c.detached_detach n) (Document.related_detach es _)

theorem Document.related_detach (es : List (Text × Value Text)) (n : Nat) :
    Document.Related Text.Detached Text.Detached es (Document.detach es n).1 := by
  match es with
  | [] => exact .nil
  | (k, v) :: es =>
    exact .cons (k.detached_detach n) (Value.related_detach v _) (Document.related_detach es _)

theorem Value.related_detachAll (vs : List (Value Text)) (n : Nat) :
    Value.RelatedAll Text.Detached Text.Detached vs (Value.detachAll vs n).1 := by
  match vs with
  | [] => exact .nil
  | v :: vs => exact .cons (Value.related_detach v n) (Value.related_detachAll vs _)

end

mutual

/-- The views move into cells of their own, one after the other. -/
theorem Value.settled_detach (v : Value Text) (n : Nat) :
    Text.Settled n (v.detach n).2 v.texts (v.detach n).1.texts := by
  match v with
  | .scalar s => exact s.settled_detach n
  | .document es => exact Document.settled_detach es n
  | .array vs => exact Value.settled_detachAll vs n
  | .codeWithScope c es =>
    exact ((c.settled_detach n).append (Document.settled_detach es _)).of_perm
      (Value.texts_codeWithScope_perm _ _) (Value.texts_codeWithScope_perm _ _)

theorem Document.settled_detach (es : List (Text × Value Text)) (n : Nat) :
    Text.Settled n (Document.detach es n).2 (Document.texts es)
      (Document.texts (Document.detach es n).1) := by
  match es with
  | [] => exact .nil n
  | (k, v) :: es =>
    exact ((k.settled_detach n).append
      ((Value.settled_detach v _).append (Document.settled_detach es _))).of_perm
      (Document.texts_cons_perm _ _ _) (Document.texts_cons_perm _ _ _)

theorem Value.settled_detachAll (vs : List (Value Text)) (n : Nat) :
    Text.Settled n (Value.detachAll vs n).2 (Value.array vs).texts
      (Value.array (Value.detachAll vs n).1).texts := by
  match vs with
  | [] => exact .nil n
  | v :: vs =>
    exact ((Value.settled_detach v n).append (Value.settled_detachAll vs _)).of_perm
      (Value.texts_array_cons_perm _ _) (Value.texts_array_cons_perm _ _)

end

mutual

theorem Value.detach_of_owned {v : Value Text} (h : ∀ t ∈ v.texts, t.isView = false) (n : Nat) :
    v.detach n = (v, n) := by
  match v with
  | .scalar s => rw [Value.detach, Scalar.detach_of_owned n h]
  | .document es => rw [Value.detach, Document.detach_of_owned h]
  | .array vs => rw [Value.detach, Value.detachAll_of_owned h]
  | .codeWithScope c es =>
    have hp := fun t ht => h t ((Value.texts_codeWithScope_perm c es).mem_iff.2 ht)
    obtain ⟨hc, he⟩ := List.forall_mem_cons.1 hp
    simp only [Value.detach, Text.detach_of_owned hc, Document.detach_of_owned he]

theorem Document.detach_of_owned {es : List (Text × Value Text)}
    (h : ∀ t ∈ Document.texts es, t.isView = false) (n : Nat) :
    Document.detach es n = (es, n) := by
  match es with
  | [] => rfl
  | (k, v) :: es =>
    have hp := fun t ht => h t ((Document.texts_cons_perm k v es).mem_iff.2 ht)
    obtain ⟨hk, hr⟩ := List.forall_mem_cons.1 hp
    obtain ⟨hv, he⟩ := List.forall_mem_append.1 hr
    simp only [Document.detach, Text.detach_of_owned hk, Value.detach_of_owned hv,
      Document.detach_of_owned he]

theorem Value.detachAll_of_owned {vs : List (Value Text)}
    (h : ∀ t ∈ (Value.array vs).texts, t.isView = false) (n : Nat) :
    Value.detachAll vs n = (vs, n) := by
  match vs with
  | [] => rfl
  | v :: vs =>
    have hp := fun t ht => h t ((Value.texts_array_cons_perm v vs).mem_iff.2 ht)
    obtain ⟨hv, hr⟩ := List.forall_mem_append.1 hp
    simp only [Value.detachAll, Value.detach_of_owned hv, Value.detachAll_of_owned hr]

end

section Owned

variable (v : Value Text) (d : Document Text) (vs : List (Value Text)) (n : Nat)

theorem Value.owned_detach : ∀ t ∈ (v.detach n).1.texts, t.isView = false := by
  have h := v.related_detach n
  exact List.forall_mem_append.2
    ⟨Text.owned_of_detached h.keys, Text.owned_of_detached h.strings⟩

theorem Document.owned_detach : ∀ t ∈ Document.texts (Document.detach d n).1, t.isView = false :=
  (Value.document d).owned_detach n

theorem Value.owned_detachAll :
    ∀ t ∈ (Value.array (Value.detachAll vs n).1).texts, t.isView = false :=
  (Value.array vs).owned_detach n

theorem Value.plain_detach : (v.detach n).1.plain = v.plain :=
  ((v.related_detach n).mapTexts (fun _ _ h => h.content.symm) fun _ _ h => h.content.symm).symm

theorem Document.plain_detach : Document.plain (Document.detach d n).1 = Document.plain d :=
  Value.document.inj ((Value.document d).plain_detach n)

theorem Document.keys_plain : Document.keys d.plain = Document.keys d := by
  induction d with
  | nil => rfl
  | cons e es ih => exact congrArg (e.1.content :: ·) ih

end Owned

/-- A value, a document or an array that is made owned has no view left, at any depth. Place by
place its texts say what they said, those that were owned are in their own cells, and each view has
a cell for itself. So it is equal to what it was, with its keys in the same order, and is written as
before or fails to be with the same error. To make it owned once more changes nothing and uses no
cell. -/
theorem detach_complete (n : Nat) :
    (∀ v : Value Text, ∃ w m, v.detach n = (w, m) ∧
      (∀ t ∈ w.texts, t.isView = false) ∧
      v.Related Text.Detached Text.Detached w ∧ Text.Settled n m v.texts w.texts ∧
      w.plain = v.plain ∧ (w.plain == v.plain) = true ∧
      (∀ b, w.plain.append b = v.plain.append b) ∧
      ∀ l, w.detach l = (w, l)) ∧
    (∀ d : Document Text, ∃ (e : Document Text) (m : Nat), Document.detach d n = (e, m) ∧
      (∀ t ∈ Document.texts e, t.isView = false) ∧
      Document.Related Text.Detached Text.Detached d e ∧ Text.Settled n m d.texts e.texts ∧
      e.plain = d.plain ∧ (e.plain == d.plain) = true ∧ Document.keys e = Document.keys d ∧
      e.plain.encode = d.plain.encode ∧
      (∀ b, Document.encodeOnto b e.plain = Document.encodeOnto b d.plain) ∧
      ∀ l, Document.detach e l = (e, l)) ∧
    ∀ vs : List (Value Text), ∃ ws m, Value.detachAll vs n = (ws, m) ∧
      (∀ t ∈ (Value.array ws).texts, t.isView = false) ∧
      Value.RelatedAll Text.Detached Text.Detached vs ws ∧
      Text.Settled n m (Value.array vs).texts (Value.array ws).texts ∧
      (Value.array ws).plain = (Value.array vs).plain ∧
      ((Value.array ws).plain == (Value.array vs).plain) = true ∧
      (∀ b, (Value.array ws).plain.append b = (Value.array vs).plain.append b) ∧
      ∀ l, Value.detachAll ws l = (ws, l) := by
  refine ⟨fun v => ?_, fun d => ?_, fun vs => ?_⟩
  · have hp := v.plain_detach n
    refine ⟨_, _, rfl, v.owned_detach n, v.related_detach n, v.settled_detach n, hp,
      (Value.beq_iff_eq _ _).2 hp, ?_, ?_⟩
    · intro b
      rw [hp]
    · exact Value.detach_of_owned (v.owned_detach n)
  · have hp := Document.plain_detach d n
    refine ⟨_, _, rfl, Document.owned_detach d n, Document.related_detach d n,
      Document.settled_detach d n, hp, decide_eq_true ((Document.cmp_eq_iff _ _).2 hp), ?_, ?_, ?_,
      ?_⟩
    · rw [← Document.keys_plain, hp, Document.keys_plain]
    · rw [hp]
    · intro b
      rw [hp]
    · exact Document.detach_of_owned (Document.owned_detach d n)
  · have hp := (Value.array vs).plain_detach n
    refine ⟨_, _, rfl, Value.owned_detachAll vs n, Value.related_detachAll vs n,
      Value.settled_detachAll vs n, hp, (Value.beq_iff_eq _ _).2 hp, ?_, ?_⟩
    · intro b
      exact congrArg (fun u : Value String => u.append b) hp
    · exact Value.detachAll_of_owned (Value.owned_detachAll vs n)

-- the pattern is a view, and its options and its key are not
example :
    Document.detach [(⟨"r", .cell 0⟩, .scalar (.regex ⟨"a*", .view 7 12⟩ ⟨"i", .cell 1⟩))] 5 =
      ([(⟨"r", .cell 0⟩, .scalar (.regex ⟨"a*", .cell 5⟩ ⟨"i", .cell 1⟩))], 6) := rfl

/-- What is decoded under any strategy and then made owned is what is decoded as a copy, in
whatever pool. -/
theorem Pool.detach_decode {p : Pool} {strategy : Strategy} {region size : Nat} {b : ByteArray}
    {i : Nat} {d : Document Text} (h : (p.decode strategy region b i).1 = .ok (d, size)) (r : Pool)
    (n : Nat) :
    ∃ c, (r.decode .copy region b i).1 = .ok (c, size) ∧
      Document.plain (Document.detach d n).1 = Document.plain c := by
  cases hn : (Decode.documentAt Keeper.noting b i ()).1 with
  | error e => cases h.symm.trans (decode_eq_error hn p strategy region)
  | ok a =>
    obtain ⟨d', hd, hr⟩ := decode_eq_ok hn p strategy region
    obtain ⟨c, hc, hs⟩ := decode_eq_ok hn r .copy region
    cases h.symm.trans hd
    refine ⟨c, hc, ?_⟩
    rw [Document.plain_detach, plain_of_related hr, plain_of_related hs]

end DocumentServer
