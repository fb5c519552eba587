import DocumentServer.Proofs.BodyParts

namespace DocumentServer

open Grammar Body Body.Source

namespace Request

variable {b : Source}

theorem takes_readUpdate : Takes b (readUpdate b) (IsBody .update) := by
  unfold readUpdate
  refine (takes_int32.bind fun _ => takes_space.bind fun space => takes_uint32.bind fun flags =>
    takes_document.bind fun selector => takes_document.bind fun change =>
      Takes.pure (Request.update ⟨space, hasBit flags 0, hasBit flags 1, selector, change⟩)).congr
    fun w m => ⟨?_, ?_⟩
  · rintro ⟨_, r, _, rfl, hr, space, u, _, rfl, hs, flags, f, _, rfl, hf, selector, v, _, rfl, hd,
      change, c, _, rfl, hc, rfl, rfl⟩
    have hds := IsDocuments.cons hd (isDocuments_singleton_iff.2 hc)
    simpa only [ByteArray.append_assoc, ByteArray.append_empty, hasBit] using
      IsBody.update hr.1 hs hf hds
  · rintro ⟨⟩
    next r u f v space selector change flags hr hs hf hds =>
      obtain ⟨x, hx⟩ := exists_isWord_iff.2 hr
      obtain ⟨v, c, rfl, hd, hc⟩ := isDocuments_cons_iff.1 hds
      exact ⟨x, r, u ++ (f ++ (v ++ c)), by simp only [ByteArray.append_assoc], hx, space, u, _,
        rfl, hs, flags, f, _, rfl, hf, selector, v, c, rfl, hd, change, c, ByteArray.empty,
        ByteArray.append_empty.symm, isDocuments_singleton_iff.1 hc, rfl, rfl⟩

theorem takes_readDelete : Takes b (readDelete b) (IsBody .delete) := by
  unfold readDelete
  refine (takes_int32.bind fun _ => takes_space.bind fun space => takes_uint32.bind fun flags =>
    takes_document.bind fun selector =>
      Takes.pure (Request.delete ⟨space, hasBit flags 0, selector⟩)).congr
    fun w m => ⟨?_, ?_⟩
  · rintro ⟨_, r, _, rfl, hr, space, u, _, rfl, hs, flags, f, _, rfl, hf, selector, v, _, rfl, hd,
      rfl, rfl⟩
    have hds := isDocuments_singleton_iff.2 hd
    simpa only [ByteArray.append_assoc, ByteArray.append_empty, hasBit] using
      IsBody.delete hr.1 hs hf hds
  · rintro ⟨⟩
    next r u f v space selector flags hr hs hf hds =>
      obtain ⟨x, hx⟩ := exists_isWord_iff.2 hr
      exact ⟨x, r, u ++ (f ++ v), by simp only [ByteArray.append_assoc], hx, space, u, _, rfl, hs,
        flags, f, v, rfl, hf, selector, v, ByteArray.empty, ByteArray.append_empty.symm,
        isDocuments_singleton_iff.1 hds, rfl, rfl⟩

theorem takes_readGetMore : Takes b (readGetMore b) (IsBody .getMore) := by
  unfold readGetMore
  refine (takes_int32.bind fun _ => takes_space.bind fun space => takes_int32.bind fun count =>
    takes_int64.bind fun cursor => Takes.pure (Request.getMore ⟨space, count, cursor⟩)).congr
    fun w m => ⟨?_, ?_⟩
  · rintro ⟨_, r, _, rfl, hr, space, u, _, rfl, hs, count, n, _, rfl, hn, cursor, c, _, rfl, hc,
      rfl, rfl⟩
    simpa only [ByteArray.append_assoc, ByteArray.append_empty] using IsBody.getMore hr.1 hs hn hc
  · rintro ⟨⟩
    next r u n c space count cursor hr hs hn hc =>
      obtain ⟨x, hx⟩ := exists_isWord_iff.2 hr
      exact ⟨x, r, u ++ (n ++ c), by simp only [ByteArray.append_assoc], hx, space, u, _, rfl, hs,
        count, n, c, rfl, hn, cursor, c, ByteArray.empty, ByteArray.append_empty.symm, hc, rfl,
        rfl⟩

theorem takes_readKillCursors : Takes b (readKillCursors b) (IsBody .killCursors) := by
  unfold readKillCursors
  have hc : Takes b (b.count .negativeCursorCount) IsLength := takes_count fun _ => trivial
  refine (takes_int32.bind fun _ => hc.bind fun n => (takes_int64s n #[]).bind fun ids =>
    Takes.pure (Request.killCursors ids)).congr
    fun w m => ⟨?_, ?_⟩
  · rintro ⟨_, r, _, rfl, hr, _, u, _, rfl, hn, _, v, _, rfl, ⟨ids, rfl, rfl, hw⟩, rfl, rfl⟩
    simpa only [ByteArray.append_assoc, ByteArray.append_empty] using
      IsBody.killCursors hr.1 hn hw
  · rintro ⟨⟩
    next r n v ids hr hn hw =>
      obtain ⟨x, hx⟩ := exists_isWord_iff.2 hr
      exact ⟨x, r, n ++ v, by simp only [ByteArray.append_assoc], hx, ids.length, n, v, rfl, hn,
        ids, v, ByteArray.empty, ByteArray.append_empty.symm, ⟨ids, rfl, rfl, hw⟩, rfl, rfl⟩

theorem takesRest_insert (space : Namespace) (flags : UInt32) (ds : List (Document String)) :
    TakesRest b b.bytes.size
      (b.whole (if ds.isEmpty then b.malformed .nothingToInsert
        else pure (Request.insert ⟨space, hasBit flags 0, ds⟩)))
      fun _ m => ds ≠ [] ∧ m = .insert ⟨space, hasBit flags 0, ds⟩ := by
  cases ds with
  | nil =>
    have hm : TakesRest b b.bytes.size (b.malformed .nothingToInsert : BodyRead Request)
        fun _ _ => False := .malformed trivial
    exact hm.congr fun m => by simp
  | cons d ds => exact (takesRest_pure le_rfl _).congr fun m => by simp [ByteArray.extract_same]

theorem takesRest_readInsert : TakesRest b 0 (b.whole (readInsert b)) (IsBody .insert) := by
  unfold readInsert
  simp only [whole_bind]
  refine (takes_uint32.bind_rest (Nat.zero_le _) fun flags _ _ hi _ => takes_space.bind_rest hi
    fun space _ _ hj _ => (takesRest_documents b.bytes.size #[] hj (by omega)).bind
      (takesRest_insert space flags)).congr fun m => ⟨?_, ?_⟩
  · rintro ⟨flags, f, _, hw, hf, space, u, w, rfl, hs, ds, ⟨_, rfl, hd⟩, hne, rfl⟩
    have h := IsBody.insert hf hs hd hne
    rwa [ByteArray.append_assoc, ← hw] at h
  · generalize b.bytes.extract 0 b.bytes.size = w
    rintro ⟨⟩
    next f u v space ds flags hf hs hd hne =>
      exact ⟨flags, f, u ++ v, ByteArray.append_assoc, hf, space, u, v, rfl, hs, ds,
        ⟨ds, rfl, hd⟩, hne, rfl⟩

theorem atEnd_bind {α : Type} {i : Nat} (q : Bool → BodyRead α) (s : Pool) :
    (b.atEnd >>= q) i s = q (decide (b.bytes.size ≤ i)) i s := rfl

theorem takesRest_projection {i : Nat} (hi : i ≤ b.bytes.size)
    (g : Option (Document String) → Request) :
    TakesRest b i
      (b.atEnd >>= fun e => b.whole
        (if e then pure none >>= fun o => pure (g o)
          else some <$> b.document >>= fun o => pure (g o)))
      fun w m => ∃ o : Option (Document String), m = g o ∧ IsDocuments w o.toList := by
  by_cases he : i = b.bytes.size
  · subst he
    refine ((takesRest_pure le_rfl (g none)).of_eq fun s => ?_).congr fun m => ?_
    · rw [atEnd_bind, decide_eq_true le_rfl]
      rfl
    · rw [ByteArray.extract_same]
      constructor
      · rintro ⟨-, rfl⟩
        exact ⟨none, rfl, .nil⟩
      · rintro ⟨o, rfl, h⟩
        have ho := eq_nil_of_isDocuments h
        rw [Option.toList_eq_nil_iff] at ho
        exact ⟨rfl, by rw [ho]⟩
  · have hd := (takes_document (b := b)).bind fun d => Takes.pure (g (some d))
    have hm : (some <$> b.document >>= fun o => pure (g o)) =
        b.document >>= fun d => pure (g (some d)) := Read.bind_assoc b.document _ _
    refine ((hd.rest hi).of_eq fun s => ?_).congr fun m => ?_
    · rw [atEnd_bind, decide_eq_false (by omega), if_neg Bool.false_ne_true, hm]
    · have hw : (b.bytes.extract i b.bytes.size).size ≠ 0 := by
        rw [Bytes.size_extract_of_le le_rfl]
        omega
      constructor
      · rintro ⟨d, u, v, huv, hd, rfl, rfl⟩
        rw [huv, ByteArray.append_empty]
        exact ⟨some d, rfl, isDocuments_singleton_iff.2 hd⟩
      · rintro ⟨o, rfl, h⟩
        cases o with
        | none => exact absurd (congrArg ByteArray.size (isDocuments_nil_iff.1 h)) hw
        | some d =>
          exact ⟨d, _, ByteArray.empty, ByteArray.append_empty.symm,
            isDocuments_singleton_iff.1 h, rfl, rfl⟩

theorem takesRest_readQuery : TakesRest b 0 (b.whole (readQuery b)) (IsBody .query) := by
  unfold readQuery
  simp only [whole_bind]
  refine (takes_uint32.bind_rest (Nat.zero_le _) fun options _ _ hi _ => takes_space.bind_rest hi
    fun space _ _ hj _ => takes_int32.bind_rest hj fun skip _ _ hk _ => takes_int32.bind_rest hk
      fun count _ _ hl _ => takes_document.bind_rest hl fun d _ _ hm _ => takesRest_projection hm
        fun o => .query ⟨space, ⟨options⟩, skip, count, d, o⟩).congr fun m => ⟨?_, ?_⟩
  · rintro ⟨options, o, _, hw, ho, space, u, _, rfl, hs, skip, k, _, rfl, hk, count, n, _, rfl, hn,
      d, v, c, rfl, hd, projection, rfl, hc⟩
    have h : IsBody .query _ (.query ⟨_, ⟨options⟩, _, _, _, _⟩) := .query ho hs hk hn (.cons hd hc)
    simpa only [ByteArray.append_assoc, ← hw] using h
  · generalize b.bytes.extract 0 b.bytes.size = w
    rintro ⟨⟩
    next o u k n w options space skip count d projection ho hs hk hn hds =>
      obtain ⟨v, c, rfl, hd, hc⟩ := isDocuments_cons_iff.1 hds
      exact ⟨options.bits, o, u ++ (k ++ (n ++ (v ++ c))), by simp only [ByteArray.append_assoc],
        ho, space, u, _, rfl, hs, skip, k, _, rfl, hk, count, n, _, rfl, hn, d, v, c, rfl, hd,
        projection, rfl, hc⟩

theorem takesRest_read (b : Source) : TakesRest b 0 (read b) (IsBody b.opcode) := by
  unfold read
  cases b.opcode with
  | query => exact takesRest_readQuery
  | insert => exact takesRest_readInsert
  | update => exact takes_readUpdate.rest (Nat.zero_le _)
  | delete => exact takes_readDelete.rest (Nat.zero_le _)
  | getMore => exact takes_readGetMore.rest (Nat.zero_le _)
  | killCursors => exact takes_readKillCursors.rest (Nat.zero_le _)
  | reply =>
    have hm : TakesRest b 0 (b.malformed .replyAsRequest : BodyRead Request) fun _ _ => False :=
      .malformed trivial
    exact hm.congr fun m => ⟨False.elim, fun h => by cases h⟩

theorem run_fst_eq_ok {α : Type} {step : BodyRead α} {p : Pool} {a : α} :
    (Body.run step p).1 = .ok a ↔ ∃ j t, step 0 p = (.ok (a, j), t) := by
  unfold Body.run
  rcases step 0 p with ⟨_ | ⟨c, j⟩, t⟩ <;> simp

theorem run_fst_eq_error {α : Type} {step : BodyRead α} {p : Pool} {e : MessageError} :
    (Body.run step p).1 = .error e ↔ ∃ t, step 0 p = (.error e, t) := by
  unfold Body.run
  rcases step 0 p with ⟨_ | ⟨c, j⟩, t⟩ <;> simp

variable {strategy : Strategy} {f : Frame} {p : Pool}

theorem parse_eq_ok_iff {m : Request} :
    (parse strategy f p).1 = .ok m ↔ IsBody f.opcode f.body m := by
  have hr := (takesRest_read ⟨f.opcode, f.body, strategy⟩).ok_iff p m
  dsimp only at hr
  rw [ByteArray.extract_zero_size] at hr
  unfold parse
  rw [run_fst_eq_ok]
  constructor
  · rintro ⟨j, h⟩
    exact ((hr j).1 h).2
  · exact fun h => ⟨f.body.size, (hr _).2 ⟨rfl, h⟩⟩

theorem refusal_of_parse {e : MessageError} (h : (parse strategy f p).1 = .error e) :
    Refusal f.opcode f.body.size e := by
  obtain ⟨t, h⟩ := run_fst_eq_error.1 h
  exact (takesRest_read ⟨f.opcode, f.body, strategy⟩).refuses h

theorem parse_of_reply (h : f.opcode = .reply) :
    (parse strategy f p).1 = .error (.malformedBody .reply .replyAsRequest) := by
  simp only [parse, Body.run, read, h]
  rfl

theorem readKillCursors_truncated {s : Pool} (h8 : 8 ≤ b.bytes.size)
    (hn : (b.bytes.size : Int) < 8 + 8 * (Bytes.int32 b.bytes 4).toInt) :
    readKillCursors b 0 s = (.error (.malformedBody b.opcode
      (.truncated (8 + (b.bytes.size - 8) / 8 * 8))), s) := by
  have hr : b.int32 0 s = (.ok (Bytes.int32 b.bytes 0, 4), s) :=
    Read.bind_eq_ok.2 ⟨0, 4, s, advance_eq_ok.2 ⟨by omega, rfl, rfl, rfl⟩, rfl⟩
  have hc : b.count .negativeCursorCount 4 s =
      (.ok ((Bytes.int32 b.bytes 4).toInt.toNat, 8), s) := by
    rw [count_eq, if_pos h8, if_neg (by omega)]
  simp only [readKillCursors, Read.bind_apply, hr, hc]
  rw [int64s_truncated #[] s h8 (by omega)]

/-- A count that is larger than the words there are is found out at the first missing word. -/
theorem parse_of_missing_cursors (ho : f.opcode = .killCursors) (h8 : 8 ≤ f.body.size)
    (hn : (f.body.size : Int) < 8 + 8 * (Bytes.int32 f.body 4).toInt) :
    (parse strategy f p).1 = .error (.malformedBody .killCursors
      (.truncated (8 + (f.body.size - 8) / 8 * 8))) := by
  have hk := readKillCursors_truncated (b := ⟨.killCursors, f.body, strategy⟩) (s := p) h8 hn
  simp only [parse, Body.run, read, ho, Read.bind_apply, hk]

/-- A frame is read as a request exactly if its body has the layout of its opcode, from the first
byte to the last, and as the request of that layout. Any other frame is refused for its body, its
namespace or a document of it, and the stream stays readable. The cursors that a count promises are
looked for as far as the body goes, a document ends where the body does or before, and it moves on
by five bytes at least, so more rounds than the body has room for change nothing. -/
theorem parse_accepts_layouts (strategy : Strategy) (f : Frame) (p : Pool) :
    (∀ m, (parse strategy f p).1 = .ok m ↔ IsBody f.opcode f.body m) ∧
      (f.opcode = .reply →
        (parse strategy f p).1 = .error (.malformedBody .reply .replyAsRequest)) ∧
      (∀ e, (parse strategy f p).1 = .error e →
        Refusal f.opcode f.body.size e ∧ e.isFatal = false) ∧
      (f.opcode = .killCursors → 8 ≤ f.body.size →
        (f.body.size : Int) < 8 + 8 * (Bytes.int32 f.body 4).toInt →
          (parse strategy f p).1 = .error (.malformedBody .killCursors
            (.truncated (8 + (f.body.size - 8) / 8 * 8)))) ∧
      (∀ i ≤ f.body.size, ∀ s d j t,
        (Source.mk f.opcode f.body strategy).document i s = (.ok (d, j), t) →
          i + 5 ≤ j ∧ j ≤ f.body.size) ∧
      ∀ i ≤ f.body.size, ∀ n m ds s, f.body.size ≤ i + 5 * n → f.body.size ≤ i + 5 * m →
        (Source.mk f.opcode f.body strategy).documents n ds i s =
          (Source.mk f.opcode f.body strategy).documents m ds i s :=
  ⟨fun _ => parse_eq_ok_iff, parse_of_reply,
    fun _ h => ⟨refusal_of_parse h, (refusal_of_parse h).not_isFatal⟩, parse_of_missing_cursors,
    fun _ hi _ _ _ _ h => document_moves hi h,
    fun _ hi _ _ ds s hn hm => documents_rounds ds s hi hn hm⟩

end Request

end DocumentServer
