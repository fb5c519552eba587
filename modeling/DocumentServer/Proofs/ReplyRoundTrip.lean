import DocumentServer.Proofs.RequestRoundTrip
import DocumentServer.Proofs.Written

namespace DocumentServer

namespace Grammar

/-- The body of a reply: four words, the last of them the number of the documents behind it. -/
inductive IsReply : ByteArray → Reply → Prop
  | intro {f c s n w flags cursorId startingFrom ds} (hf : IsWord 4 f flags.bits.toNat)
      (hc : IsWord 8 c cursorId.toUInt64.toNat) (hs : IsWord 4 s startingFrom.toUInt32.toNat)
      (hn : IsLength n ds.length) (hd : IsDocuments w ds) :
      IsReply (f ++ c ++ s ++ n ++ w) ⟨flags, cursorId, startingFrom, ds⟩

theorem IsReply.counted {b : ByteArray} {r : Reply} (h : IsReply b r) :
    (Bytes.int32 b 16).toInt = r.documents.length ∧
      ∃ u w, b = u ++ w ∧ u.size = 20 ∧ IsDocuments w r.documents := by
  cases h with
  | @intro f c s n w flags cursorId startingFrom ds hf hc hs hn hd =>
    have hw : (f ++ c ++ s).size = 16 := by
      rw [ByteArray.size_append, ByteArray.size_append, hf.1, hc.1, hs.1]
    have hu : (f ++ c ++ s ++ n).size = 20 := by rw [ByteArray.size_append, hw, hn.1.1]
    have h4 : n.extract 0 (0 + 4) = n := by
      rw [Nat.zero_add, ← hn.1.1, ByteArray.extract_zero_size]
    refine ⟨?_, _, w, rfl, hu, hd⟩
    rw [Bytes.int32_append_left hu.ge, Bytes.int32_append_right hw]
    exact (Decode.isLength_extract_iff hn.1.1.ge).1 (h4.symm ▸ hn)

end Grammar

namespace Reply

open Grammar Body Body.Source

theorem takesRest_read (b : Source) : TakesRest b 0 (read b) IsReply := by
  have hw : read b = b.whole (do
      let flags ← b.uint32
      let cursorId ← b.int64
      let startingFrom ← b.int32
      let n ← b.count .negativeDocumentCount
      let ds ← Read.times b.document n #[]
      return ⟨⟨flags⟩, cursorId, startingFrom, ds⟩) := by
    simp only [whole_bind]
    rfl
  rw [hw]
  have hc : Takes b (b.count .negativeDocumentCount) IsLength := takes_count fun _ => trivial
  refine ((takes_uint32.bind fun flags => takes_int64.bind fun cursorId => takes_int32.bind
    fun startingFrom => hc.bind fun n => (takes_counted_documents n #[]).bind fun ds =>
      Takes.pure (Reply.mk ⟨flags⟩ cursorId startingFrom ds)).congr fun w r => ⟨?_, ?_⟩).rest
        (Nat.zero_le _)
  · rintro ⟨flags, f, _, rfl, hf, cursorId, c, _, rfl, hc, startingFrom, s, _, rfl, hs, _, n, _,
      rfl, hn, _, w, _, rfl, ⟨ds, rfl, rfl, hd⟩, rfl, rfl⟩
    have h : IsReply _ ⟨⟨flags⟩, _, _, _⟩ := .intro hf hc hs hn hd
    simpa only [ByteArray.append_assoc, ByteArray.append_empty] using h
  · rintro ⟨⟩
    next f c s n w flags cursorId startingFrom ds hf hc hs hn hd =>
      exact ⟨flags.bits, f, c ++ (s ++ (n ++ w)), by simp only [ByteArray.append_assoc], hf,
        cursorId, c, _, rfl, hc, startingFrom, s, _, rfl, hs, ds.length, n, w, rfl, hn, ds, w,
        ByteArray.empty, ByteArray.append_empty.symm, ⟨ds, rfl, rfl, hd⟩, rfl, rfl⟩

variable {strategy : Strategy} {f : Frame} {p : Pool} {r : Reply}

theorem parse_eq_ok_iff : (parse strategy f p).1 = .ok r ↔ IsReply f.body r := by
  have hr := (takesRest_read ⟨.reply, f.body, strategy⟩).ok_iff p r
  dsimp only at hr
  rw [ByteArray.extract_zero_size] at hr
  unfold parse
  rw [Request.run_fst_eq_ok]
  constructor
  · rintro ⟨j, h⟩
    exact ((hr j).1 h).2
  · exact fun h => ⟨f.body.size, (hr _).2 ⟨rfl, h⟩⟩

theorem isReply_of_body {b : ByteArray} (h : r.body = .ok b) (hs : b.size ≤ maxMessageSize)
    (hd : ∀ d ∈ r.documents, d.Distinct) (hn : ∀ d ∈ r.documents, d.depth ≤ maxNesting) :
    IsReply b r := by
  obtain ⟨w, xs, rfl, hw, -⟩ := spellsDocuments_of_encodeAll h hd hn
  have hl := length_of_isDocuments hw.isDocuments
  have hm : r.documents.length < 0x80000000 := by
    rw [ByteArray.size_append, maxMessageSize] at hs
    omega
  exact .intro (isWord_ofUInt32 _) (isWord_ofUInt64 _) (isWord_ofUInt32 _) (isLength_ofSize hm)
    hw.isDocuments

theorem parse_of_encode {id responseTo : Int32} {b : ByteArray}
    (h : r.encode id responseTo = .ok b) (hd : ∀ d ∈ r.documents, d.Distinct)
    (hn : ∀ d ∈ r.documents, d.depth ≤ maxNesting) :
    ∃ f : Frame, f.encode = .ok b ∧ f.requestId = id ∧ f.responseTo = responseTo ∧
      f.opcode = .reply ∧ ∀ strategy p, (parse strategy f p).1 = .ok r := by
  obtain ⟨body, hb, hf⟩ := exists_of_bind_eq_ok h
  have hf := mapError_eq_ok_iff.1 hf
  refine ⟨_, hf, rfl, rfl, rfl, fun strategy p => parse_eq_ok_iff.2 ?_⟩
  exact isReply_of_body hb (Request.size_of_encode hf) hd hn

/-- The bytes of a reply are one frame with nothing behind it, under its id and in answer to the
message that it answers, and the frame is read as that reply. Whatever body is read as a reply, the
number that it declares is that of the documents, and there is nothing behind them. -/
theorem parse_encode_counted {id responseTo : Int32} {bytes : ByteArray}
    (hd : ∀ d ∈ r.documents, d.Distinct) (hn : ∀ d ∈ r.documents, d.depth ≤ 100)
    (h : r.encode id responseTo = .ok bytes) :
    (∃ f : Frame, (FrameStream.mk bytes).drain = ⟨[f], none, FrameStream.empty⟩ ∧
      f.requestId = id ∧ f.responseTo = responseTo ∧ f.opcode = .reply ∧
      f.length = bytes.size ∧ (Bytes.int32 bytes 0).toInt = bytes.size ∧
      ∀ strategy p, (parse strategy f p).1 = .ok r) ∧
    ∀ strategy (f : Frame) p s, (parse strategy f p).1 = .ok s →
      (Bytes.int32 f.body 16).toInt = s.documents.length ∧
      ∃ u w, f.body = u ++ w ∧ u.size = 20 ∧ IsDocuments w s.documents := by
  refine ⟨?_, fun strategy f p s hs => (parse_eq_ok_iff.1 hs).counted⟩
  obtain ⟨f, hf, hi, hr, ho, hp⟩ := parse_of_encode h hd hn
  obtain ⟨hl, hw⟩ := Frame.length_of_encode hf
  exact ⟨f, Frame.drain_of_encode hf, hi, hr, ho, hl, hw, hp⟩

def deepReply : Reply := ⟨⟨0xfffffff0⟩, -5, -1, [Pool.chain 100, [("n", .scalar (.int32 1))]]⟩

theorem parse_encode_deepReply :
    ∃ bytes f, deepReply.encode 7 (-9) = .ok bytes ∧
      (FrameStream.mk bytes).drain = ⟨[f], none, FrameStream.empty⟩ ∧
      (parse .borrow f (.empty .always 0)).1 = .ok deepReply ∧
      (Bytes.int32 f.body 16).toInt = 2 := by
  have hd : ∀ d ∈ deepReply.documents, d.Distinct := by
    refine List.forall_mem_cons.2 ⟨Pool.distinct_chain 100, List.forall_mem_singleton.2 ?_⟩
    simp [Document.Distinct, Value.Distinct, Document.keys]
  have hn : ∀ d ∈ deepReply.documents, d.depth ≤ 100 := by
    refine List.forall_mem_cons.2 ⟨(Pool.depth_chain 100).le, List.forall_mem_singleton.2 ?_⟩
    simp [Document.depth, Value.depth]
  have hc := Pool.encode_chain (n := 100) (by decide)
  obtain ⟨c, he⟩ : ∃ c, Document.encode [("n", .scalar (.int32 1))] = .ok c :=
    ⟨_, Document.encode_eq_ok_iff.2 ⟨by decide, by decide, rfl⟩⟩
  have hv : deepReply.volume = 1217 := by
    rw [volume, deepReply, List.map_cons, ← (Document.volume_of_encode hc).1,
      Document.size_layout, Pool.extent_chain]
    rfl
  obtain ⟨bytes, h⟩ := encode_of_forall (r := deepReply)
    (List.forall_mem_cons.2 ⟨⟨_, hc⟩, List.forall_mem_singleton.2 ⟨c, he⟩⟩)
    (by rw [hv]; decide) 7 (-9)
  obtain ⟨⟨f, hf, -, -, -, -, -, hp⟩, hc⟩ := parse_encode_counted hd hn h
  exact ⟨bytes, f, h, hf, hp _ _, (hc _ _ _ _ (hp .borrow (.empty .always 0))).1⟩

end Reply

end DocumentServer
