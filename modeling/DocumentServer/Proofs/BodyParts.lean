import DocumentServer.Proofs.BodyReading

namespace DocumentServer.Body.Source

open Read Grammar

variable {α : Type} {b : Source} {L : ByteArray → α → Prop} {i : Nat}

theorem advance_eq_ok {n a j : Nat} {s t : Pool} :
    b.advance n i s = (.ok (a, j), t) ↔ i + n ≤ b.bytes.size ∧ i = a ∧ i + n = j ∧ s = t := by
  unfold advance
  split
  next h => simpa [malformed, fail] using fun hn => absurd hn (Nat.not_le.2 h)
  next h => simp [Nat.le_of_not_lt h, and_assoc]

theorem advance_refuses {n : Nat} {s t : Pool} {e : MessageError} (hi : i ≤ b.bytes.size)
    (h : b.advance n i s = (.error e, t)) : Refusal b.opcode b.bytes.size e := by
  unfold advance at h
  split at h
  · exact malformed_refuses h hi
  · cases h

theorem Takes.word {n : Nat} {h : Nat → α} (hs : ∀ w a, L w a → w.size = n)
    (hL : ∀ i, i + n ≤ b.bytes.size → ∀ a, L (b.bytes.extract i (i + n)) a ↔ h i = a) :
    Takes b (b.advance n >>= fun i => Pure.pure (h i)) L := by
  refine ⟨fun {i} hi s a j => ?_, fun {i} hi {s e t} he => ?_⟩
  · constructor
    · rintro ⟨t, ha⟩
      obtain ⟨k, _, _, hk, ha⟩ := bind_eq_ok.1 ha
      obtain ⟨hn, rfl, rfl, rfl⟩ := advance_eq_ok.1 hk
      obtain ⟨rfl, rfl, -⟩ := pure_eq_ok.1 ha
      exact ⟨by omega, hn, (hL i hn _).2 rfl⟩
    · rintro ⟨hij, hj, hw⟩
      have hn := hs _ _ hw
      rw [Bytes.size_extract_of_le hj] at hn
      obtain rfl : j = i + n := by omega
      refine ⟨s, bind_eq_ok.2 ⟨i, i + n, s, advance_eq_ok.2 ⟨hj, rfl, rfl, rfl⟩, ?_⟩⟩
      exact pure_eq_ok.2 ⟨(hL i hj a).1 hw, rfl, rfl⟩
  · rcases bind_eq_error.1 he with he | ⟨_, _, _, _, he⟩
    · exact advance_refuses hi he
    · cases he

theorem takes_uint32 : Takes b b.uint32 fun w x => IsWord 4 w x.toNat :=
  .word (fun _ _ h => h.1) fun _ hi _ => Decode.isWord_uint32_iff hi

theorem takes_int32 : Takes b b.int32 fun w x => IsWord 4 w x.toUInt32.toNat :=
  .word (fun _ _ h => h.1) fun _ hi _ => Decode.isWord_int32_iff hi

theorem takes_int64 : Takes b b.int64 fun w x => IsWord 8 w x.toUInt64.toNat :=
  .word (fun _ _ h => h.1) fun _ hi _ => Decode.isWord_int64_iff hi

theorem exists_isWord_iff {w : ByteArray} :
    (∃ x : Int32, IsWord 4 w x.toUInt32.toNat) ↔ w.size = 4 := by
  refine ⟨fun ⟨x, h⟩ => h.1, fun h => ⟨Bytes.int32 w 0, ?_⟩⟩
  have hw := (Decode.isWord_int32_iff (b := w) (i := 0) (by omega)).2 rfl
  rwa [Nat.zero_add, ← h, ByteArray.extract_zero_size, h] at hw

theorem count_eq (fault : Int → BodyFault) (s : Pool) :
    b.count fault i s =
      if i + 4 ≤ b.bytes.size then
        if (Bytes.int32 b.bytes i).toInt < 0 then
          b.malformed (fault (Bytes.int32 b.bytes i).toInt) (i + 4) s
        else (.ok ((Bytes.int32 b.bytes i).toInt.toNat, i + 4), s)
      else b.malformed (.truncated i) i s := by
  by_cases h : i + 4 ≤ b.bytes.size
  · have ha : b.advance 4 i s = (.ok (i, i + 4), s) := advance_eq_ok.2 ⟨h, rfl, rfl, rfl⟩
    simp only [count, int32, bind_apply, ha, h, if_true, pure_apply]
    split <;> rfl
  · have ha : b.advance 4 i s = b.malformed (.truncated i) i s := by
      rw [advance, if_pos (Nat.lt_of_not_le h)]
    simp only [count, int32, bind_apply, ha, h, if_false, malformed, fail]

theorem takes_count {fault : Int → BodyFault} (hf : ∀ n, (fault n).Within b.bytes.size) :
    Takes b (b.count fault) IsLength := by
  refine ⟨fun {i} hi s n j => ?_, fun {i} hi {s e t} he => ?_⟩
  · rw [count_eq]
    constructor
    · rintro ⟨t, h⟩
      split at h
      next h4 =>
        split at h
        next => exact absurd h malformed_ne_ok
        next hn =>
          cases h
          refine ⟨by omega, h4, (Decode.isLength_extract_iff h4).2 ?_⟩
          omega
      next => exact absurd h malformed_ne_ok
    · rintro ⟨hij, hj, hl⟩
      have h4 := hl.1.1
      rw [Bytes.size_extract_of_le hj] at h4
      obtain rfl : j = i + 4 := by omega
      have hn := (Decode.isLength_extract_iff hj).1 hl
      rw [if_pos hj, hn, if_neg (by omega), Int.toNat_natCast]
      exact ⟨s, rfl⟩
  · rw [count_eq] at he
    split at he
    next =>
      split at he
      next => exact malformed_refuses he (hf _)
      next => cases he
    next => exact malformed_refuses he hi

theorem takes_space : Takes b b.space IsSpace := by
  have hz {i j : Nat} (hj : j ≤ b.bytes.size) :
      Bytes.findZero? b.bytes i (b.bytes.size - i) = some j ↔
        i ≤ j ∧ j < b.bytes.size ∧ Bytes.at0 b.bytes j = 0 ∧ 0 ∉ (b.bytes.extract i j).data := by
    rw [Bytes.findZero?_eq_some_iff, Bytes.zero_notMem_extract_iff hj]
    exact and_congr_right fun hij => and_congr_left fun _ => by omega
  refine ⟨fun {i} hi s n k => ?_, fun {i} hi {s e t} he => ?_⟩
  · constructor
    · rintro ⟨t, h⟩
      unfold space at h
      split at h
      next => exact absurd h malformed_ne_ok
      next j hj =>
        split at h
        next => exact absurd h malformed_ne_ok
        next x hx =>
          split at h
          next n' hn =>
            cases h
            obtain ⟨rfl, hp⟩ := Namespace.parse_eq_ok_iff.1 hn
            have hlt : j < b.bytes.size := by
              have hj := Bytes.findZero?_eq_some_iff.1 hj
              omega
            obtain ⟨hij, -, h0, hm⟩ := (hz hlt.le).1 hj
            have hu := Decode.fromUTF8?_eq_some_iff.1 hx
            exact ⟨by omega, hlt, ⟨hu ▸ hm, (extract_eq_append_one_iff (by omega) hlt).2
              ⟨j, hij, rfl, hu, h0⟩⟩, hp⟩
          next => cases h
    · rintro ⟨hik, hk, ⟨hm, hw⟩, hp⟩
      obtain ⟨j, hij, rfl, hu, h0⟩ := (extract_eq_append_one_iff hik hk).1 hw
      have hj : Bytes.findZero? b.bytes i (b.bytes.size - i) = some j :=
        (hz (by omega)).2 ⟨hij, by omega, h0, hu ▸ hm⟩
      have hx := Decode.fromUTF8?_eq_some_iff.2 hu
      have hn := Namespace.parse_eq_ok_iff.2 ⟨rfl, hp⟩
      exact ⟨s, by simp only [space, hj, hx, hn]⟩
  · unfold space at he
    split at he
    next => exact malformed_refuses he trivial
    next =>
      split at he
      next => exact malformed_refuses he trivial
      next =>
        split at he
        next => cases he
        next hn =>
          cases he
          rw [Namespace.error_of_parse hn]
          exact .invalidNamespace

theorem decode_eq_ok_iff (s : Pool) (strategy : Strategy) {c : ByteArray} {d : Document String}
    {n : Nat} :
    (∃ e t, s.decode strategy 0 c i = (.ok (e, n), t) ∧ Document.plain e = d) ↔
      i + n ≤ c.size ∧ IsDocument maxNesting (c.extract i (i + n)) d := by
  have hk := Pool.faithful_keeper strategy 0 i
  have hd := Decode.documentAt_eq_ok_iff hk (b := c) (i := i) (n := n) (s := s) (d := d)
  constructor
  · rintro ⟨e, t, h, hp⟩
    have hf := Pool.decode_fst s strategy 0 c i
    rw [h] at hf
    obtain ⟨-, hn, -, hw⟩ := hd.1 ⟨e, (Decode.documentAt _ c i s).2, Prod.ext hf.symm rfl, hp⟩
    exact ⟨hn, hw⟩
  · rintro ⟨hn, hw⟩
    have h5 := (Decode.isDocument_iff.1 hw).1
    have hl := ((Decode.isDocument_iff_inserts h5).1 hw).1
    rw [Bytes.size_extract_add hn, minDocumentSize] at h5
    rw [Bytes.size_extract_add hn, ByteArray.extract_extract, Nat.add_zero,
      Nat.min_eq_left (by omega)] at hl
    obtain ⟨e, t, h, hp⟩ := hd.2 ⟨h5, hn, hl, hw⟩
    exact ⟨e, t, by rw [Pool.decode, h], hp⟩

theorem takes_document : Takes b b.document (IsDocument maxNesting) := by
  refine ⟨fun {i} hi s d j => ?_, fun {i} hi {s e t} he => ?_⟩
  · constructor
    · rintro ⟨t, h⟩
      unfold document at h
      split at h
      next e n u hd =>
        cases h
        obtain ⟨hn, hw⟩ := (decode_eq_ok_iff _ _).1 ⟨e, _, hd, rfl⟩
        exact ⟨by omega, hn, hw⟩
      next => cases h
    · rintro ⟨hij, hj, hw⟩
      obtain ⟨n, rfl⟩ : ∃ n, j = i + n := ⟨j - i, by omega⟩
      obtain ⟨e, t, h, rfl⟩ := (decode_eq_ok_iff s b.strategy).2 ⟨hj, hw⟩
      exact ⟨t, by rw [document, h]⟩
  · unfold document at he
    split at he
    next => cases he
    next =>
      cases he
      exact .document

theorem size_of_isDocument {n : Nat} {w : ByteArray} {d : Document String}
    (h : IsDocument n w d) : 5 ≤ w.size :=
  (Decode.isDocument_iff.1 h).1

theorem document_moves {s t : Pool} {d : Document String} {j : Nat} (hi : i ≤ b.bytes.size)
    (h : b.document i s = (.ok (d, j), t)) : i + 5 ≤ j ∧ j ≤ b.bytes.size := by
  obtain ⟨hij, hj, hd⟩ := (takes_document.ok_iff hi s d j).1 ⟨t, h⟩
  have h5 := size_of_isDocument hd
  rw [Bytes.size_extract_of_le hj] at h5
  exact ⟨by omega, hj⟩

theorem documents_of_atEnd (n : Nat) (ds : Array (Document String)) (s : Pool)
    (h : b.bytes.size ≤ i) : b.documents n ds i s = (.ok (ds.toList, i), s) := by
  cases n with
  | zero => rfl
  | succ n => simp [documents, atEnd, offset, bind_apply, pure_apply, h]

theorem documents_of_not_atEnd (n : Nat) (ds : Array (Document String)) (s : Pool)
    (h : i < b.bytes.size) :
    b.documents (n + 1) ds i s = (b.document >>= fun d => b.documents n (ds.push d)) i s := by
  simp [documents, atEnd, offset, bind_apply, pure_apply, Nat.not_le.2 h]

theorem TakesRest.of_eq {p' : BodyRead α} (hp : TakesRest b i p' L) (h : ∀ s, p i s = p' i s) :
    TakesRest b i p L :=
  ⟨fun s c j => by rw [h, hp.ok_iff], fun he => hp.refuses ((h _).symm.trans he)⟩

theorem length_of_isDocuments {w : ByteArray} {ds : List (Document String)}
    (h : IsDocuments w ds) : 5 * ds.length ≤ w.size := by
  induction h with
  | nil => exact Nat.zero_le _
  | cons hd _ ih =>
    have h5 := size_of_isDocument hd
    rw [ByteArray.size_append, List.length_cons]
    omega

theorem eq_nil_of_isDocuments {ds : List (Document String)}
    (h : IsDocuments ByteArray.empty ds) : ds = [] := by
  have hl := length_of_isDocuments h
  rw [ByteArray.size_empty] at hl
  exact List.length_eq_zero_iff.1 (by omega)

theorem takesRest_documents_end (n : Nat) (ds : Array (Document String)) :
    TakesRest b b.bytes.size (b.documents n ds) fun w c =>
      ∃ es, c = ds.toList ++ es ∧ IsDocuments w es := by
  have hp : TakesRest b b.bytes.size (Pure.pure ds.toList : BodyRead (List (Document String)))
      fun _ c => c = ds.toList :=
    ⟨fun s c j => by simp [pure_apply, eq_comm, and_comm], fun h => nomatch h⟩
  refine (hp.of_eq fun s => documents_of_atEnd n ds s le_rfl).congr fun c => ?_
  rw [ByteArray.extract_same]
  constructor
  · rintro rfl
    exact ⟨[], (List.append_nil _).symm, .nil⟩
  · rintro ⟨es, rfl, h⟩
    rw [eq_nil_of_isDocuments h, List.append_nil]

theorem isDocuments_iff_of_ne {w : ByteArray} (hw : w.size ≠ 0) {ds : List (Document String)} :
    IsDocuments w ds ↔ ∃ d u v es,
      w = u ++ v ∧ IsDocument maxNesting u d ∧ ds = d :: es ∧ IsDocuments v es := by
  constructor
  · rintro (_ | ⟨hd, h⟩)
    · exact absurd rfl hw
    · exact ⟨_, _, _, _, rfl, hd, rfl, h⟩
  · rintro ⟨d, u, v, es, rfl, hd, rfl, h⟩
    exact .cons hd h

/-- The documents are taken up to the end of the body, if there are rounds for all of them. -/
theorem takesRest_documents (n : Nat) (ds : Array (Document String)) (hi : i ≤ b.bytes.size)
    (hn : b.bytes.size ≤ i + 5 * n) :
    TakesRest b i (b.documents n ds) fun w c => ∃ es, c = ds.toList ++ es ∧ IsDocuments w es := by
  induction n generalizing i ds with
  | zero =>
    obtain rfl : i = b.bytes.size := by omega
    exact takesRest_documents_end 0 ds
  | succ n ih =>
    by_cases he : i = b.bytes.size
    · subst he
      exact takesRest_documents_end (n + 1) ds
    · have hlt : i < b.bytes.size := by omega
      have hq : ∀ (d : Document String) j, i ≤ j → j ≤ b.bytes.size →
          IsDocument maxNesting (b.bytes.extract i j) d → TakesRest b j (b.documents n (ds.push d))
            fun w c => ∃ es, c = ds.toList ++ d :: es ∧ IsDocuments w es := by
        intro d j hij hj hd
        have h5 := size_of_isDocument hd
        rw [Bytes.size_extract_of_le hj] at h5
        have hr := ih (ds.push d) hj (by omega)
        simpa only [Array.toList_push, List.append_assoc, List.singleton_append] using hr
      refine ((takes_document.bind_rest hi hq).of_eq fun s =>
        documents_of_not_atEnd n ds s hlt).congr fun c => ?_
      have hw : (b.bytes.extract i b.bytes.size).size ≠ 0 := by
        rw [Bytes.size_extract_of_le le_rfl]
        omega
      constructor
      · rintro ⟨d, u, v, huv, hd, es, rfl, h⟩
        exact ⟨d :: es, rfl, huv ▸ .cons hd h⟩
      · rintro ⟨_, rfl, h⟩
        obtain ⟨d, u, v, es, huv, hd, rfl, hv⟩ := (isDocuments_iff_of_ne hw).1 h
        exact ⟨d, u, v, huv, hd, es, rfl, hv⟩

theorem documents_rounds {n m : Nat} (ds : Array (Document String)) (s : Pool)
    (hi : i ≤ b.bytes.size) (hn : b.bytes.size ≤ i + 5 * n) (hm : b.bytes.size ≤ i + 5 * m) :
    b.documents n ds i s = b.documents m ds i s := by
  induction n generalizing i m ds s with
  | zero => rw [documents_of_atEnd 0 ds s (by omega), documents_of_atEnd m ds s (by omega)]
  | succ n ih =>
    by_cases he : b.bytes.size ≤ i
    · rw [documents_of_atEnd _ ds s he, documents_of_atEnd _ ds s he]
    · obtain ⟨m, rfl⟩ : ∃ l, m = l + 1 := ⟨m - 1, by omega⟩
      rw [documents_of_not_atEnd n ds s (by omega), documents_of_not_atEnd m ds s (by omega),
        bind_apply, bind_apply]
      split
      next d j t hd =>
        obtain ⟨h5, hj⟩ := document_moves hi hd
        exact ih (ds.push d) t hj (by omega) (by omega)
      next => rfl

/-- Items are taken as many as they are counted, if lists of them stand one after the other. -/
theorem takes_times {p : BodyRead α} {M : ByteArray → List α → Prop} (hp : Takes b p L)
    (hnil : ∀ w, M w [] ↔ w = ByteArray.empty)
    (hcons : ∀ w a as, M w (a :: as) ↔ ∃ u v, w = u ++ v ∧ L u a ∧ M v as)
    (n : Nat) (out : Array α) :
    Takes b (Read.times p n out) fun w c =>
      ∃ as, c = out.toList ++ as ∧ as.length = n ∧ M w as := by
  induction n generalizing out with
  | zero =>
    refine (Takes.pure out.toList).congr fun w c => ?_
    constructor
    · rintro ⟨rfl, rfl⟩
      exact ⟨[], (List.append_nil _).symm, rfl, (hnil _).2 rfl⟩
    · rintro ⟨as, rfl, hn, h⟩
      obtain rfl := List.length_eq_zero_iff.1 hn
      exact ⟨(hnil _).1 h, List.append_nil _⟩
  | succ n ih =>
    refine (hp.bind fun a => ih (out.push a)).congr fun w c => ?_
    constructor
    · rintro ⟨a, u, v, rfl, ha, as, rfl, hn, h⟩
      exact ⟨a :: as, by simp, by rw [List.length_cons, hn], (hcons _ _ _).2 ⟨u, v, rfl, ha, h⟩⟩
    · rintro ⟨as, rfl, hn, h⟩
      cases as with
      | nil => cases hn
      | cons a as =>
        obtain ⟨u, v, rfl, ha, h⟩ := (hcons _ _ _).1 h
        exact ⟨a, u, v, rfl, ha, as, by simp, Nat.succ.inj hn, h⟩

theorem takes_int64s (n : Nat) (out : Array Int64) :
    Takes b (Read.times b.int64 n out) fun w c =>
      ∃ ns, c = out.toList ++ ns ∧ ns.length = n ∧ IsWords w ns := by
  refine takes_times takes_int64 (fun w => ⟨fun h => ?_, fun h => h ▸ .nil⟩)
    (fun w n ns => ⟨fun h => ?_, ?_⟩) n out
  · cases h
    rfl
  · cases h with
    | cons hn h => exact ⟨_, _, rfl, hn, h⟩
  · rintro ⟨u, v, rfl, hn, h⟩
    exact .cons hn h

theorem takes_counted_documents (n : Nat) (out : Array (Document String)) :
    Takes b (Read.times b.document n out) fun w c =>
      ∃ ds, c = out.toList ++ ds ∧ ds.length = n ∧ IsDocuments w ds :=
  takes_times takes_document (fun _ => isDocuments_nil_iff) (fun _ _ _ => isDocuments_cons_iff) n
    out

/-- A count of more words than there are stops at the first that is missing. -/
theorem int64s_truncated {n : Nat} (out : Array Int64) (s : Pool) (hi : i ≤ b.bytes.size)
    (hn : b.bytes.size < i + 8 * n) :
    Read.times b.int64 n out i s =
      (.error (.malformedBody b.opcode (.truncated (i + (b.bytes.size - i) / 8 * 8))), s) := by
  induction n generalizing i out with
  | zero => omega
  | succ n ih =>
    rw [Read.times, bind_apply]
    by_cases h8 : i + 8 ≤ b.bytes.size
    · have hx : b.int64 i s = (.ok (Bytes.int64 b.bytes i, i + 8), s) :=
        bind_eq_ok.2 ⟨i, i + 8, s, advance_eq_ok.2 ⟨h8, rfl, rfl, rfl⟩, rfl⟩
      rw [hx]
      dsimp only
      rw [ih _ h8 (by omega)]
      congr 4
      omega
    · have hx : b.int64 i s = (.error (.malformedBody b.opcode (.truncated i)), s) := by
        rw [int64, bind_apply, advance, if_pos (by omega)]
        rfl
      have h0 : (b.bytes.size - i) / 8 = 0 := by omega
      rw [hx, h0, Nat.zero_mul, Nat.add_zero]

end DocumentServer.Body.Source
