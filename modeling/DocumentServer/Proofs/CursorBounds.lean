import DocumentServer.Codec.Cursor
import DocumentServer.Proofs.Keepers

namespace DocumentServer

/-- Bounds inside of others. -/
def Range.Within (q r : Range) : Prop := r.start ≤ q.start ∧ q.stop ≤ r.stop

/-- An event of a cursor that stays inside the first `n` bytes: it is behind the length word and not
behind the end of its bounds, and all bounds are nested; every element takes two bytes at least. -/
def Event.Inside (n : Nat) : Event → Prop
  | .moved pos range around =>
    range.start + 4 ≤ pos ∧ pos ≤ range.stop ∧ range.stop ≤ n ∧
      (range :: around).IsChain Range.Within ∧ (range :: around).getLast? = some ⟨0, n⟩
  | .element first last => first + 2 ≤ last

namespace Cursor

open Read

variable {σ τ α β : Type} {n i j m : Nat} {r q : Range} {l : List Range} {s : σ}
  {t : List Event}

/-- A place inside bounds that are inside others, all of them in a document of `n` bytes. -/
def Placed (n i : Nat) (r : Range) (l : List Range) : Prop := (Event.moved i r l).Inside n

theorem Placed.move (h : Placed n i r l) (hij : i ≤ j) (hj : j ≤ r.stop) : Placed n j r l :=
  ⟨h.1.trans hij, hj, h.2.2⟩

theorem Placed.narrow (h : Placed n i r l) (hq : q.Within r) (hi : q.start + 4 ≤ j)
    (hj : j ≤ q.stop) : Placed n j q (r :: l) := by
  obtain ⟨-, -, hr, hc, he⟩ := h
  refine ⟨hi, hj, hq.2.trans hr, List.isChain_cons_cons.2 ⟨hq, hc⟩, ?_⟩
  rw [List.getLast?_cons_cons]
  exact he

/-- What the cursor and the decoder give at `i`: the same result, with the bounds as they were and
at a place no further back, or the same error. -/
inductive Agrees (n i : Nat) (r : Range) (l : List Range) :
    Except Halt (α × Nat) × Cursor σ → Except DecodeError (α × Nat) × σ → Prop
  | ok {a j s t} (hj : i ≤ j) (hp : Placed n j r l) (ht : ∀ e ∈ t, Event.Inside n e) :
      Agrees n i r l (.ok (a, j), ⟨r, l, s, t⟩) (.ok (a, j), s)
  | error {e c s} (ht : ∀ e ∈ Cursor.trail c, Event.Inside n e) :
      Agrees n i r l (.error (.error e), c) (.error e, s)

/-- A step of the cursor follows one of the decoder from a place on. -/
def Follows (n i : Nat) (r : Range) (l : List Range) (p : Step σ α) (q : Read DecodeError σ α) :
    Prop :=
  ∀ s t, (∀ e ∈ t, Event.Inside n e) → Agrees n i r l (p i ⟨r, l, s, t⟩) (q i s)

namespace Follows

variable {p : Step σ α} {q q' : Read DecodeError σ α} {f : α → Step σ β}
  {g : α → Read DecodeError σ β}

theorem pure (h : Placed n i r l) (a : α) :
    Follows n i r l (Pure.pure a : Step σ α) (Pure.pure a : Read DecodeError σ α) :=
  fun _ _ ht => .ok le_rfl h ht

theorem fail (e : DecodeError) :
    Follows n i r l (Read.fail (.error e) : Step σ α) (Read.fail e : Read DecodeError σ α) :=
  fun _ _ ht => .error ht

theorem congr (h : Follows n i r l p q) (hq : ∀ s, q i s = q' i s) : Follows n i r l p q' := by
  intro s t ht
  rw [← hq]
  exact h s t ht

theorem bind (hp : Follows n i r l p q)
    (hf : ∀ a j s u, q i s = (.ok (a, j), u) → i ≤ j → Placed n j r l →
      Follows n j r l (f a) (g a)) :
    Follows n i r l (p >>= f) (q >>= g) := by
  intro s t ht
  have hs := hp s t ht
  rw [bind_apply, bind_apply]
  generalize p i ⟨r, l, s, t⟩ = x at hs ⊢
  cases hq : q i s with
  | mk y u =>
    rw [hq] at hs
    cases hs with
    | @ok a j _ t' hj hp ht' =>
      have ha := hf a j s u hq hj hp u t' ht'
      dsimp only
      generalize f a j ⟨r, l, u, t'⟩ = x at ha ⊢
      generalize g a j u = y at ha ⊢
      cases ha with
      | ok hj' hp ht => exact .ok (hj.trans hj') hp ht
      | error ht => exact .error ht
    | error ht => exact .error ht

theorem map (hp : Follows n i r l p q) (f : α → β) :
    Follows n i r l (p >>= fun a => Pure.pure (f a)) (q >>= fun a => Pure.pure (f a)) :=
  hp.bind fun _ _ _ _ _ _ h => .pure h _

theorem offset_bind {f : Nat → Step σ α} (h : Follows n i r l (f i) q) :
    Follows n i r l (Read.offset >>= f) q := h

theorem at_offset {q : Nat → Read DecodeError σ α} (h : Follows n i r l p (q i)) :
    Follows n i r l p (Read.offset >>= q) := h

/-- The decoder has fuel for every byte that is left; what it does without any is what it does at
the end of the bounds. -/
theorem fuel {q : Nat → Read DecodeError σ α} {fuel : Nat} (hp : Placed n i r l)
    (hf : r.stop - i ≤ fuel) (h0 : ∀ s, q 1 r.stop s = q 0 r.stop s)
    (hq : ∀ fuel, r.stop - i ≤ fuel + 1 → Follows n i r l p (q (fuel + 1))) :
    Follows n i r l p (q fuel) := by
  cases fuel with
  | zero =>
    obtain rfl : i = r.stop := Nat.le_antisymm hp.2.1 (Nat.le_of_sub_eq_zero (Nat.le_zero.1 hf))
    exact (hq 0 (Nat.le_succ_of_le hf)).congr h0
  | succ fuel => exact hq fuel hf

theorem rounds_bind {f : Nat → Step σ α} (h : Follows n i r l (f ((r.stop - i) / 2 + 1)) q) :
    Follows n i r l (rounds >>= f) q := h

theorem endElement {first : Nat} (hi : first + 2 ≤ i) (h : Follows n i r l p q) :
    Follows n i r l (endElement first >>= fun _ => p) q := by
  intro s t ht
  exact h s _ (List.forall_mem_cons.2 ⟨hi, ht⟩)

end Follows

theorem sub_bind {m n : Nat} {f : Nat → Step σ α} (h : n ≤ m) : (sub m n >>= f) = f (m - n) := by
  rw [sub, if_pos h, Read.pure_bind]

theorem index_bind {b : ByteArray} {f : UInt8 → Step σ α} (h : i < b.size) :
    (index b i >>= f) = f (Bytes.at0 b i) := by
  rw [index, dif_pos h, Read.pure_bind, Bytes.at0_of_lt h]

theorem cut_bind {b : ByteArray} {f : ByteArray → Step σ α} (hi : i ≤ j) (hj : j ≤ b.size) :
    (cut b i j >>= f) = f (b.extract i j) := by
  rw [cut, if_pos ⟨hi, hj⟩, Read.pure_bind]

theorem overrun_apply (hr : r.start ≤ r.stop) (hj : r.start ≤ j) :
    (overrun j : Step σ α) i ⟨r, l, s, t⟩ =
      (.error (.error (Decode.overrun r j)), ⟨r, l, s, t⟩) := by
  have ho : (overrun j : Step σ α) i ⟨r, l, s, t⟩ =
      (sub r.stop r.start >>= fun declared => sub j r.start >>= fun consumed =>
        (fail (.error (.lengthMismatch declared consumed)) : Step σ α)) i ⟨r, l, s, t⟩ := rfl
  rw [ho, sub_bind hr, sub_bind hj]
  rfl

section Steps

variable {b : ByteArray}

theorem take_apply (b : ByteArray) (m i : Nat) (c : Cursor σ) :
    take b m i c = if i + m > c.range.stop then overrun (i + m) i c
      else (cut b i (i + m) >>= fun w => jump (i + m) >>= fun _ => Pure.pure w) i c := by
  change (if i + m > c.range.stop then _ else _ : Step σ ByteArray) i c = _
  split
  · rfl
  · rfl

theorem follows_take {f : ByteArray → Step σ α} {g : Nat → α} (hp : Placed n i r l)
    (hn : n ≤ b.size) (hf : i + m ≤ n → f (b.extract i (i + m)) = Pure.pure (g i)) :
    Follows n i r l (take b m >>= f) (Decode.advance r m >>= fun i => Pure.pure (g i)) := by
  have ⟨hi, his, hr, _⟩ := hp
  intro s t ht
  rw [bind_apply, bind_apply, take_apply, Decode.advance]
  by_cases h : i + m > r.stop
  · rw [if_pos h, if_pos h, overrun_apply (by omega) (by omega)]
    exact .error ht
  · have hp : Placed n (i + m) r l := hp.move (by omega) (by omega)
    rw [if_neg h, if_neg h, cut_bind (by omega) (by omega)]
    dsimp only [bind_apply, jump, pure_apply]
    rw [hf (by omega)]
    exact .ok (Nat.le_add_right i _) hp (List.forall_mem_cons.2 ⟨hp, ht⟩)

theorem follows_byte (hp : Placed n i r l) (hn : n ≤ b.size) :
    Follows n i r l (byte b : Step σ UInt8) (Decode.byte (b.extract 0 n) r) := by
  refine follows_take hp hn fun hi => ?_
  have hs : 0 < (b.extract i (i + 1)).size := by
    rw [Bytes.size_extract_add (hi.trans hn)]
    exact Nat.one_pos
  rw [index, dif_pos hs, ← Bytes.at0_of_lt hs, Bytes.at0_extract (by omega) (by omega),
    Bytes.at0_extract (by omega) hn, Nat.zero_add, Nat.add_zero]

theorem follows_int32 (hp : Placed n i r l) (hn : n ≤ b.size) :
    Follows n i r l (int32 b : Step σ Int32) (Decode.int32 (b.extract 0 n) r) := by
  refine follows_take hp hn fun hi => ?_
  rw [Bytes.int32_extract (by omega) (by omega), Bytes.int32_extract (by omega) hn, Nat.zero_add,
    Nat.add_zero]

theorem follows_int64 (hp : Placed n i r l) (hn : n ≤ b.size) :
    Follows n i r l (int64 b : Step σ Int64) (Decode.int64 (b.extract 0 n) r) := by
  refine follows_take hp hn fun hi => ?_
  rw [Bytes.int64_extract (by omega) (by omega), Bytes.int64_extract (by omega) hn, Nat.zero_add,
    Nat.add_zero]

theorem follows_uint64 (hp : Placed n i r l) (hn : n ≤ b.size) :
    Follows n i r l (uint64 b : Step σ UInt64) (Decode.uint64 (b.extract 0 n) r) := by
  refine follows_take hp hn fun hi => ?_
  rw [Bytes.uint64_extract (by omega) (by omega), Bytes.uint64_extract (by omega) hn, Nat.zero_add,
    Nat.add_zero]

theorem extract_document (hj : j ≤ n) : (b.extract 0 n).extract i j = b.extract i j := by
  rw [ByteArray.extract_extract, Nat.zero_add, Nat.zero_add, Nat.min_eq_left hj]

theorem follows_objectId (hp : Placed n i r l) (hn : n ≤ b.size) :
    Follows n i r l (objectId b : Step σ ObjectId) (Decode.objectId (b.extract 0 n) r) := by
  refine follows_take hp hn fun hi => ?_
  have hw : (b.extract i (i + 12)).extract 0 (0 + 12) = (b.extract 0 n).extract i (i + 12) := by
    rw [extract_document hi, ByteArray.extract_extract, Nat.zero_add, Nat.add_zero, Nat.min_self]
  rw [ObjectId.ofRegion, ObjectId.ofRegion, hw]

theorem follows_slice (hp : Placed n i r l) (hn : n ≤ b.size) (m : Nat) :
    Follows n i r l (take b m : Step σ ByteArray) (Decode.slice (b.extract 0 n) r m) := by
  have h := follows_take (σ := σ) (m := m) (f := Pure.pure)
    (g := fun i => (b.extract 0 n).extract i (i + m)) hp hn fun hi => by rw [extract_document hi]
  rwa [Read.bind_pure] at h

theorem follows_lengthWord (hp : Placed n i r l) (hn : n ≤ b.size) (least : Nat) :
    Follows n i r l (lengthWord b least : Step σ (Nat × Nat))
      (Decode.lengthWord (b.extract 0 n) r least) := by
  refine (follows_int32 hp hn).bind fun w j s t hw hj hp => ?_
  split
  · exact .fail _
  · exact .pure hp _

theorem follows_close (hp : Placed n i r l) :
    Follows n i r l (close : Step σ Unit) (Decode.close r) := by
  have ⟨hi, his, _⟩ := hp
  intro s t ht
  change Agrees n i r l ((if i ≠ r.stop then overrun i else Pure.pure () : Step σ Unit) i _)
    ((if i ≠ r.stop then Read.fail (Decode.overrun r i) else Pure.pure () : Read _ σ Unit) i s)
  by_cases h : i ≠ r.stop
  · rw [if_pos h, if_pos h, overrun_apply (by omega) (by omega)]
    exact .error ht
  · rw [if_neg h, if_neg h]
    exact .ok le_rfl hp ht

theorem follows_cstring (hp : Placed n i r l) (hn : n ≤ b.size) :
    Follows n i r l (cstring b : Step σ (Nat × ByteArray))
      (Decode.cstring (b.extract 0 n) r) := by
  have ⟨hi, his, hr, _⟩ := hp
  have hsize := Bytes.size_extract_of_le (i := i) (hr.trans hn)
  -- the zero in the rest of the bounds is that of the document
  have hz : (Bytes.findZero? (b.extract i r.stop) 0 (b.extract i r.stop).size).map (i + ·) =
      Bytes.findZero? (b.extract 0 n) i (r.stop - i) := by
    rw [Bytes.findZero?_extract (by omega) (hr.trans hn), hsize, Nat.add_zero]
    have hd := Bytes.findZero?_extract (b := b) (i := 0) (j := n) (k := i) (n := r.stop - i)
      (by omega) hn
    rw [Nat.zero_add] at hd
    rw [← hd]
    simp
  intro s t ht
  have hc : (cstring b : Step σ (Nat × ByteArray)) i ⟨r, l, s, t⟩ =
      (cut b i r.stop >>= fun rest => before b i (Bytes.findZero? rest 0 rest.size)) i
        ⟨r, l, s, t⟩ := rfl
  rw [hc, cut_bind his (hr.trans hn), Decode.cstring, ← hz]
  cases hm : Bytes.findZero? (b.extract i r.stop) 0 (b.extract i r.stop).size with
  | none => exact .error ht
  | some m =>
    obtain ⟨-, hmr, -⟩ := Bytes.findZero?_eq_some_iff.1 hm
    have hp : Placed n (i + m + 1) r l := hp.move (by omega) (by omega)
    dsimp only [Option.map_some]
    rw [before, cut_bind (by omega) (by omega), extract_document (by omega)]
    exact .ok (by omega) hp (List.forall_mem_cons.2 ⟨hp, ht⟩)

theorem follows_terminated (hp : Placed n i r l) (hn : n ≤ b.size) (hm : 1 ≤ m) :
    Follows n i r l (terminated b m : Step σ (Nat × ByteArray))
      (Decode.terminated (b.extract 0 n) r m) := by
  refine Follows.offset_bind ((follows_slice hp hn m).bind fun bytes j s t hw _ hp => ?_)
  obtain ⟨hr, rfl, rfl, -⟩ := Decode.slice_eq_ok.1 hw
  have ⟨_, _, hrn, _⟩ := hp
  have hb : (b.extract 0 n).size = n := by rw [Bytes.size_extract_of_le hn, Nat.sub_zero]
  have hs : ((b.extract 0 n).extract i (i + m)).size = m := Bytes.size_extract_add (by omega)
  have ht : 0 < (((b.extract 0 n).extract i (i + m)).extract (m - 1) m).size := by
    rw [Bytes.size_extract_of_le (by omega)]
    omega
  have hx : Bytes.at0 (((b.extract 0 n).extract i (i + m)).extract (m - 1) m) 0 =
      Bytes.at0 (b.extract 0 n) (i + m - 1) := by
    rw [Bytes.at0_extract (by omega) (by omega), Nat.add_zero,
      Bytes.at0_extract (by omega) (by omega), Nat.add_sub_assoc hm]
  rw [hs, sub_bind hm, cut_bind (by omega) (by omega), cut_bind (by omega) (by omega),
    index_bind ht, hx]
  apply Follows.at_offset
  split
  · rw [Nat.add_sub_cancel]
    exact .pure hp _
  · apply Follows.offset_bind
    rw [sub_bind (by omega)]
    exact .fail _

theorem follows_string (hp : Placed n i r l) (hn : n ≤ b.size) :
    Follows n i r l (string b : Step σ (Nat × ByteArray))
      (Decode.string (b.extract 0 n) r) := by
  refine (follows_lengthWord hp hn 1).bind fun x j s t hx _ hp => ?_
  exact follows_terminated hp hn (Decode.lengthWord_eq_ok.1 hx).2.2.1

theorem follows_nextTag (hp : Placed n i r l) (hn : n ≤ b.size) :
    Follows n i r l (nextTag? b : Step σ (Option Tag))
      (Decode.nextTag? (b.extract 0 n) r) := by
  refine (follows_byte hp hn).bind fun x j s t _ _ hp => ?_
  by_cases h0 : x = 0
  · simp only [h0, if_true]
    exact (follows_close hp).map _
  · simp only [h0, if_false]
    cases Tag.ofByte? x with
    | some tag => exact .pure hp _
    | none => exact .fail _

theorem follows_boolean (hp : Placed n i r l) (hn : n ≤ b.size) :
    Follows n i r l (boolean b : Step σ Bool) (Decode.boolean (b.extract 0 n) r) := by
  refine (follows_byte hp hn).bind fun x j s t _ _ hp => ?_
  split
  · exact .pure hp _
  · split
    · exact .pure hp _
    · exact .fail _

theorem follows_binary (hp : Placed n i r l) (hn : n ≤ b.size) :
    Follows n i r l (binary b : Step σ (Scalar τ)) (Decode.binary (b.extract 0 n) r) := by
  refine (follows_lengthWord hp hn 0).bind fun x j s t _ _ hp => ?_
  refine (follows_byte hp hn).bind fun subtype j s t _ _ hp => ?_
  exact (follows_slice hp hn x.2).map _

end Steps

section Texts

variable {b : ByteArray} {k : Keeper σ τ}

theorem follows_keeping {p : Read DecodeError σ α} (hp : Placed n i r l)
    (h : ∀ s a j t, p i s = (.ok (a, j), t) → i = j) : Follows n i r l (keeping p) p := by
  intro s t ht
  unfold keeping
  dsimp only
  cases hs : p i s with
  | mk x u =>
    cases x with
    | ok a =>
      obtain ⟨a, j⟩ := a
      obtain rfl := h s a j u hs
      exact .ok le_rfl hp ht
    | error e => exact .error ht

theorem eq_of_keep {isKey likely : Bool} {x : Nat × ByteArray} {a : τ} {u : σ}
    (h : Decode.keep k isKey likely x i s = (.ok (a, j), u)) : i = j := by
  unfold Decode.keep at h
  split at h
  next => cases h; rfl
  next => cases h

theorem follows_keep (hp : Placed n i r l) (isKey likely : Bool) (x : Nat × ByteArray) :
    Follows n i r l (keeping (Decode.keep k isKey likely x))
      (Decode.keep k isKey likely x) :=
  follows_keeping hp fun _ _ _ _ h => eq_of_keep h

theorem follows_key (hp : Placed n i r l) (hn : n ≤ b.size) :
    Follows n i r l (key b k) (Decode.key k (b.extract 0 n) r) :=
  (follows_cstring hp hn).bind fun x _ _ _ _ _ hp => follows_keep hp true _ x

theorem follows_text (hp : Placed n i r l) (hn : n ≤ b.size) :
    Follows n i r l (text b k) (Decode.text k (b.extract 0 n) r) :=
  (follows_string hp hn).bind fun x _ _ _ _ _ hp => follows_keep hp false _ x

theorem lt_of_cstring {x : Nat × ByteArray} {u : σ}
    (h : Decode.cstring b r i s = (.ok (x, j), u)) : i < j := by
  unfold Decode.cstring at h
  split at h
  next m hm =>
    cases h
    exact Nat.lt_succ_of_le (Bytes.findZero?_eq_some_iff.1 hm).1
  next => cases h

theorem lt_of_key {name : τ} {u : σ} (h : Decode.key k b r i s = (.ok (name, j), u)) : i < j := by
  obtain ⟨x, j', s', hx, h⟩ := bind_eq_ok.1 h
  obtain rfl := eq_of_keep h
  exact lt_of_cstring hx

theorem follows_regex (hp : Placed n i r l) (hn : n ≤ b.size) :
    Follows n i r l (regex b k) (Decode.regex k (b.extract 0 n) r) := by
  refine (follows_cstring hp hn).bind fun x j _ _ _ _ hp => ?_
  refine (follows_keep hp false false x).bind fun pattern j _ _ _ _ hp => ?_
  refine (follows_cstring hp hn).bind fun y j _ _ _ _ hp => ?_
  exact (follows_keep hp false true y).map _

theorem follows_dbPointer (hp : Placed n i r l) (hn : n ≤ b.size) :
    Follows n i r l (dbPointer b k) (Decode.dbPointer k (b.extract 0 n) r) :=
  (follows_text hp hn).bind fun _ _ _ _ _ _ hp => (follows_objectId hp hn).map _

end Texts

section Containers

variable [HasContent τ] {b : ByteArray} {k : Keeper σ τ} {payload : Tag → Step σ (Value τ)}
  {payload' : Range → Tag → Read DecodeError σ (Value τ)}

theorem follows_insert (hp : Placed n i r l) {d : Document.Builder τ} (hd : d.Indexed) (name : τ)
    (v : Value τ) :
    Follows n i r l (insert k d name v)
      (Decode.drop k (d.displaced name) >>= fun _ => Pure.pure (d.insert name v)) := by
  refine (follows_keeping hp fun s a j t h => ?_).bind fun _ j s t _ _ hp => ?_
  · cases h
    rfl
  · split
    next m hm =>
      rw [if_pos (hd.lt_size hm)]
      exact .pure hp _
    next => exact .pure hp _

theorem nextTag_bind_stop {f : Option Tag → Read DecodeError σ α} :
    (Decode.nextTag? b r >>= f) r.stop s = (.error (Decode.overrun r (r.stop + 1)), s) := by
  have ha : Decode.advance r 1 r.stop s = (.error (Decode.overrun r (r.stop + 1)), s) :=
    if_pos (Nat.lt_succ_self _)
  have hb : Decode.byte b r r.stop s = (.error (Decode.overrun r (r.stop + 1)), s) := by
    rw [Decode.byte, bind_apply, ha]
  have ht : Decode.nextTag? b r r.stop s = (.error (Decode.overrun r (r.stop + 1)), s) := by
    change (Decode.byte b r >>= _) r.stop s = _
    rw [bind_apply, hb]
  rw [bind_apply, ht]

omit [HasContent τ] in
theorem follows_element (hp : Placed n i r l) (hn : n ≤ b.size)
    (hv : ∀ t i, Placed n i r l → Follows n i r l (payload t) (payload' r t))
    {p : Option Tag → Step σ β} {q : Option Tag → Read DecodeError σ β} {key : Step σ α}
    {key' : Read DecodeError σ α} {rest : α → Value τ → Step σ β}
    {rest' : α → Value τ → Read DecodeError σ β} {a : β} (hp0 : p none = Pure.pure a)
    (hq0 : q none = Pure.pure a) (hps : ∀ t, p (some t) = key >>= fun a => payload t >>= rest a)
    (hqs : ∀ t, q (some t) = key' >>= fun a => payload' r t >>= rest' a)
    (hk : ∀ j, Placed n j r l → Follows n j r l key key')
    (hlt : ∀ j s a m u, key' j s = (.ok (a, m), u) → j < m)
    (hrest : ∀ a v m, i + 2 ≤ m → Placed n m r l → Follows n m r l (rest a v) (rest' a v)) :
    Follows n i r l (nextTag? b >>= p) (Decode.nextTag? (b.extract 0 n) r >>= q) := by
  refine (follows_nextTag hp hn).bind fun next j s t hnext _ hp => ?_
  cases next with
  | none =>
    rw [hp0, hq0]
    exact .pure hp a
  | some tag =>
    obtain ⟨-, -, rfl⟩ := Decode.of_nextTag_eq_some hnext
    rw [hps, hqs]
    refine (hk _ hp).bind fun name j s t hname _ hp => ?_
    have hij := hlt _ _ _ _ _ hname
    exact (hv tag j hp).bind fun v m s t _ hjm hp => hrest name v m (by omega) hp

/-- The loop goes round once for every element and once for the terminator, and every element takes
two bytes. -/
theorem follows_entries (hn : n ≤ b.size)
    (hv : ∀ t i, Placed n i r l → Follows n i r l (payload t) (payload' r t)) (rounds : Nat)
    (hp : Placed n i r l) (hr : r.stop - i < 2 * rounds) {fuel : Nat} (hf : r.stop - i ≤ fuel)
    {d : Document.Builder τ} (hd : d.Indexed) :
    Follows n i r l (entries b k payload rounds d)
      (Decode.entries k (b.extract 0 n) payload' r fuel d) := by
  induction rounds generalizing i fuel d with
  | zero => omega
  | succ rounds ih =>
    refine Follows.fuel (q := fun fuel => Decode.entries k (b.extract 0 n) payload' r fuel d) hp hf
      (fun s => nextTag_bind_stop) fun fuel hf => ?_
    apply Follows.offset_bind
    refine follows_element hp hn hv rfl rfl (fun _ => rfl) (fun _ => rfl)
      (fun _ hp => follows_key hp hn) (fun _ _ _ _ _ h => lt_of_key h) fun name v m him hp => ?_
    -- the decoder lets go of texts and inserts; the cursor looks up the place of the key between
    refine Follows.congr ((follows_insert hp hd name v).bind fun d' m' s t hd' _ hp => ?_)
      fun s => rfl
    cases hd'
    have hm := hp.2.1
    exact .endElement him (ih hp (by omega) (by omega) (hd.insert name v))

omit [HasContent τ] in
theorem follows_items (hn : n ≤ b.size)
    (hv : ∀ t i, Placed n i r l → Follows n i r l (payload t) (payload' r t)) (rounds : Nat)
    (hp : Placed n i r l) (hr : r.stop - i < 2 * rounds) {fuel : Nat} (hf : r.stop - i ≤ fuel)
    (vs : Array (Value τ)) :
    Follows n i r l (items b payload rounds vs)
      (Decode.items (b.extract 0 n) payload' r fuel vs) := by
  induction rounds generalizing i fuel vs with
  | zero => omega
  | succ rounds ih =>
    refine Follows.fuel (q := fun fuel => Decode.items (b.extract 0 n) payload' r fuel vs) hp hf
      (fun s => nextTag_bind_stop) fun fuel hf => ?_
    apply Follows.offset_bind
    refine follows_element hp hn hv rfl rfl (fun _ => rfl) (fun _ => rfl)
      (fun _ hp => follows_cstring hp hn) (fun _ _ _ _ _ h => lt_of_cstring h)
      fun name v m him hp => ?_
    have hm := hp.2.1
    exact .endElement him (ih hp (by omega) (by omega) (vs.push v))

theorem enter_apply (i m j : Nat) (c : Cursor σ) :
    enter i m j c = if i + m > c.range.stop then overrun (i + m) j c
      else (.ok (c.range, j), ⟨⟨i, i + m⟩, c.range :: c.around, c.kept,
        .moved j ⟨i, i + m⟩ (c.range :: c.around) ::
          .moved j ⟨i, c.range.stop⟩ (c.range :: c.around) :: c.trail⟩) := by
  change (if i + m > c.range.stop then _ else _ : Step σ Range) j c = _
  split
  · rfl
  · rfl

/-- What a length word covers is read inside of narrower bounds, and the bounds are restored. -/
theorem follows_inside (hp : Placed n i r l) (hn : n ≤ b.size) {least : Nat} (h4 : 4 ≤ least)
    {body : Step σ α} {body' : Range → Read DecodeError σ α}
    (hb : ∀ q, Placed n (i + 4) q (r :: l) → Follows n (i + 4) q (r :: l) body (body' q)) :
    Follows n i r l (inside b least body)
      (Decode.lengthWord (b.extract 0 n) r least >>= fun x =>
        Decode.enter r x.1 x.2 >>= body') := by
  have ⟨hi, _⟩ := hp
  refine (follows_lengthWord hp hn least).bind fun x j s t hx _ hp => ?_
  obtain ⟨i', m⟩ := x
  obtain ⟨-, -, hm, hi', rfl, -⟩ := Decode.lengthWord_eq_ok.1 hx
  obtain rfl : i' = i := hi'
  have ⟨_, his, _⟩ := hp
  intro s t ht
  dsimp only at hm ⊢
  rw [bind_apply, bind_apply, enter_apply, Decode.enter]
  by_cases h : i' + m > r.stop
  · rw [if_pos h, if_pos h, overrun_apply (by omega) (by omega)]
    exact .error ht
  · have hq : Placed n (i' + 4) ⟨i', i' + m⟩ (r :: l) :=
      hp.narrow ⟨by dsimp only; omega, by dsimp only; omega⟩ le_rfl (by dsimp only; omega)
    have hq' : Placed n (i' + 4) ⟨i', r.stop⟩ (r :: l) :=
      hp.narrow ⟨by dsimp only; omega, le_rfl⟩ le_rfl his
    rw [if_neg h, if_neg h]
    dsimp only [pure_apply]
    have hs := hb _ hq s _ (List.forall_mem_cons.2 ⟨hq, List.forall_mem_cons.2 ⟨hq', ht⟩⟩)
    rw [bind_apply]
    generalize body (i' + 4) _ = x at hs ⊢
    generalize body' _ (i' + 4) s = y at hs ⊢
    cases hs with
    | @ok a j s t hj hp' ht =>
      have ⟨_, hjq, _⟩ := hp'
      have hr : Placed n j r l := hp.move hj (by dsimp only at hjq; omega)
      have hr' : Placed n j ⟨r.start, i' + m⟩ (r :: l) :=
        hr.narrow ⟨le_rfl, by dsimp only; omega⟩ (by dsimp only; omega) hjq
      exact .ok hj hr (List.forall_mem_cons.2 ⟨hr, List.forall_mem_cons.2 ⟨hr', ht⟩⟩)
    | error ht => exact .error ht

omit [HasContent τ] in
theorem follows_codeWithScope (hp : Placed n i r l) (hn : n ≤ b.size)
    {document : Step σ (Document τ)} {document' : Range → Read DecodeError σ (Document τ)}
    (hd : ∀ i q l, Placed n i q l → Follows n i q l document (document' q)) :
    Follows n i r l (codeWithScope b k document)
      (Decode.codeWithScope k (b.extract 0 n) document' r) := by
  refine follows_inside hp hn (by decide) fun q hp => ?_
  refine (follows_text hp hn).bind fun code j _ _ _ _ hp => ?_
  refine (hd j q _ hp).bind fun scope j _ _ _ _ hp => ?_
  exact (follows_close hp).map _

structure FollowsLevel (n : Nat) (below : Level σ τ) (below' : Decode.Level σ τ) : Prop where
  document : ∀ i r l, Placed n i r l → Follows n i r l below.document (below'.document r)
  array : ∀ i r l, Placed n i r l → Follows n i r l below.array (below'.array r)

variable {below : Level σ τ} {below' : Decode.Level σ τ}

omit [HasContent τ] in
theorem follows_payload (hn : n ≤ b.size) (hb : FollowsLevel n below below') (tag : Tag)
    (hp : Placed n i r l) :
    Follows n i r l (Cursor.payload b k below tag)
      (Decode.payload k (b.extract 0 n) below' r tag) := by
  cases tag with
  | double => exact (follows_uint64 hp hn).map _
  | string | javascript | symbol => exact (follows_text hp hn).map _
  | document => exact (hb.document i r l hp).map _
  | array => exact (hb.array i r l hp).map _
  | binary => exact (follows_binary hp hn).map _
  | objectId => exact (follows_objectId hp hn).map _
  | boolean => exact (follows_boolean hp hn).map _
  | datetime => exact (follows_int64 hp hn).map _
  | regex => exact (follows_regex hp hn).map _
  | dbPointer => exact (follows_dbPointer hp hn).map _
  | codeWithScope => exact follows_codeWithScope hp hn hb.document
  | int32 => exact (follows_int32 hp hn).map _
  | timestamp => exact (follows_uint64 hp hn).map _
  | int64 => exact (follows_int64 hp hn).map _
  | undefined | null | minKey | maxKey => exact .pure hp _

theorem follows_documentBody (hn : n ≤ b.size) (hb : FollowsLevel n below below')
    (hp : Placed n i r l) :
    Follows n i r l (documentBody b k below)
      (Decode.entries k (b.extract 0 n) (Decode.payload k (b.extract 0 n) below') r (r.stop - i)
        .empty) :=
  .rounds_bind (follows_entries hn (fun t _ hp => follows_payload hn hb t hp) _ hp (by omega) le_rfl
    Document.Builder.indexed_empty)

omit [HasContent τ] in
theorem follows_arrayBody (hn : n ≤ b.size) (hb : FollowsLevel n below below')
    (hp : Placed n i r l) :
    Follows n i r l (arrayBody b k below)
      (Decode.items (b.extract 0 n) (Decode.payload k (b.extract 0 n) below') r (r.stop - i)
        #[]) :=
  .rounds_bind (follows_items hn (fun t _ hp => follows_payload hn hb t hp) _ hp (by omega) le_rfl
    #[])

theorem followsLevel_level (hn : n ≤ b.size) (levels : Nat) :
    FollowsLevel n (level b k levels) (Decode.level k (b.extract 0 n) levels) := by
  induction levels with
  | zero => exact ⟨fun _ _ _ _ => .fail _, fun _ _ _ _ => .fail _⟩
  | succ levels ih =>
    constructor
    · intro i r l hp
      exact follows_inside hp hn (by decide) fun q hp => follows_documentBody hn ih hp
    · intro i r l hp
      exact follows_inside hp hn (by decide) fun q hp => follows_arrayBody hn ih hp

theorem placed_start (h5 : 5 ≤ n) : Placed n 4 ⟨0, n⟩ [] :=
  ⟨le_rfl, Nat.le_of_succ_le h5, le_rfl, List.isChain_singleton _, rfl⟩

theorem decode_of_length (h5 : 5 ≤ n) (hn : n ≤ b.size) (hl : (Bytes.int32 b 0).toInt = n) (s : σ) :
    decode b k 0 (new s) =
      (documentBody b k (level b k maxNesting) >>= fun d => (Pure.pure (d, n) : Step σ _)) 4
        ⟨⟨0, n⟩, [], s, [.moved 4 ⟨0, n⟩ []]⟩ := by
  have h4 : ¬b.size < 4 := by omega
  have hi : Bytes.int32 (b.extract 0 4) 0 = Bytes.int32 b 0 := Bytes.int32_extract le_rfl (by omega)
  have hm : ¬(n : Int) < minDocumentSize := by rw [minDocumentSize]; omega
  rw [decode, if_neg h4, cut_bind (Nat.zero_le 4) (by omega), hi, hl, if_neg hm,
    Int.toNat_natCast, if_neg (by omega)]
  rfl

theorem decode_agrees (h5 : 5 ≤ n) (hn : n ≤ b.size) (hl : (Bytes.int32 b 0).toInt = n)
    (hk : k.Faithful) (s : σ) :
    (decode b k 0 (new s)).1.map Prod.fst =
        (Decode.documentAt k b 0 s).1.mapError Halt.error ∧
      ∀ e ∈ (decode b k 0 (new s)).2.trail, e.Inside n := by
  have hw : (b.extract 0 n).size = n := by rw [Bytes.size_extract_of_le hn, Nat.sub_zero]
  have hp := placed_start h5
  have hlevel : FollowsLevel n (level b k maxNesting)
      (Decode.level k (b.extract 0 n) maxNesting) := followsLevel_level hn maxNesting
  have hroot := follows_documentBody (k := k) hn hlevel hp s [.moved 4 ⟨0, n⟩ []]
    (List.forall_mem_singleton.2 hp)
  have hfills := Decode.fills_root hk maxNesting (w := b.extract 0 n) (by omega)
  rw [Decode.root, hw] at hfills
  rw [decode_of_length h5 hn hl, Decode.documentAt_of_length h5 (by rwa [Nat.zero_add]) hl,
    Nat.zero_add, Decode.root, hw, bind_apply]
  cases hx : Decode.entries k (b.extract 0 n) (Decode.payload k (b.extract 0 n)
    (Decode.level k (b.extract 0 n) maxNesting)) ⟨0, n⟩ (n - 4) .empty 4 s with
  | mk x u =>
    dsimp only at hroot
    rw [hx] at hroot
    generalize documentBody b k (level b k maxNesting) 4 _ = y at hroot ⊢
    cases hroot with
    | @ok d j _ t hj hp ht =>
      obtain ⟨rfl, -⟩ := (hfills s _ j).1 ⟨d, u, hx, rfl⟩
      exact ⟨rfl, ht⟩
    | error ht => exact ⟨rfl, ht⟩

end Containers

end Cursor

namespace Pool

variable {n : Nat} {b : ByteArray}

/-- Only the bytes of the declared length count. -/
theorem decode_append (h5 : 5 ≤ n) (hn : n ≤ b.size) (hl : (Bytes.int32 b 0).toInt = n) (p : Pool)
    (strategy : Strategy) (region : Nat) (x : ByteArray) :
    p.decode strategy region (b ++ x) 0 = p.decode strategy region (b.extract 0 n) 0 := by
  have hw : (b.extract 0 n).size = n := by rw [Bytes.size_extract_of_le hn, Nat.sub_zero]
  have hx : Bytes.int32 (b ++ x) 0 = Bytes.int32 b 0 := Bytes.int32_append_left (by omega)
  have hy : Bytes.int32 (b.extract 0 n) 0 = Bytes.int32 b 0 :=
    Bytes.int32_extract (by omega) hn
  have hd : Decode.documentAt (keeper strategy region 0) (b ++ x) 0 p =
      Decode.documentAt (keeper strategy region 0) (b.extract 0 n) 0 p := by
    rw [Decode.documentAt_of_length (b := b ++ x) h5 (by rw [ByteArray.size_append]; omega)
        (by rw [hx, hl]),
      Decode.documentAt_of_length (b := b.extract 0 n) h5 (by omega) (by rw [hy, hl]),
      Nat.zero_add, Bytes.extract_append_of_le hn, Cursor.extract_document le_rfl]
  rw [decode, decode, hd]

/-- On every region that declares a length in range, the cursor stops with no fault of its own and
gives what the decoder gives; on the way it is always inside of nested bounds in the declared
document, and every element takes two bytes at least. What is behind the document does not count. -/
theorem decode_stays_inside (h5 : 5 ≤ n) (hn : n ≤ b.size) (hl : (Bytes.int32 b 0).toInt = n)
    (p : Pool) (strategy : Strategy) (region : Nat) :
    let run := Cursor.decode b (keeper strategy region 0) 0 (.new p)
    run.1.map Prod.fst = (p.decode strategy region b 0).1.mapError Halt.error ∧
      (∀ e ∈ run.2.trail, e.Inside n) ∧
      ∀ x, p.decode strategy region (b ++ x) 0 = p.decode strategy region (b.extract 0 n) 0 := by
  obtain ⟨hr, ht⟩ := Cursor.decode_agrees h5 hn hl (faithful_keeper strategy region 0) p
  rw [← decode_fst] at hr
  exact ⟨hr, ht, decode_append h5 hn hl p strategy region⟩

theorem decode_stays_inside_overrun :
    let b : ByteArray := ⟨#[20, 0, 0, 0, 3, 97, 0, 12, 0, 0, 0, 2, 98, 0, 9, 0, 0, 0, 0, 0, 120,
      120, 120, 120, 120, 120, 0]⟩
    let p := empty .always 1
    let run := Cursor.decode b (keeper .copy 0 0) 0 (.new p)
    run.1.map Prod.fst = .error (.error (.lengthMismatch 12 20)) ∧
      (∀ e ∈ run.2.trail, e.Inside 20) ∧
      ∀ x, p.decode .copy 0 (b ++ x) 0 = p.decode .copy 0 (b.extract 0 20) 0 := by
  intro b p
  have h : (p.decode .copy 0 b 0).1 = .error (.lengthMismatch 12 20) := by cbv
  obtain ⟨hr, ht, hx⟩ := decode_stays_inside (n := 20) (b := b) (by decide) (by decide) (by decide)
    p .copy 0
  have hm : (p.decode .copy 0 b 0).1.mapError Halt.error =
      .error (.error (.lengthMismatch 12 20)) := by rw [h]; rfl
  exact ⟨hr.trans hm, ht, hx⟩

end Pool

end DocumentServer
