import DocumentServer.Proofs.Replies
import DocumentServer.Proofs.RequestRoundTrip

namespace DocumentServer

open Grammar

namespace Text.Quoted

theorem utf8ByteSize_ofString (s : String) :
    (ofString s).utf8ByteSize = (s.toList.map fun c => (escape '"' c).utf8ByteSize).sum + 2 := by
  have hf (cs : List Char) (t : String) :
      (cs.foldl (fun t c => t ++ escape '"' c) t).utf8ByteSize =
        t.utf8ByteSize + (cs.map fun c => (escape '"' c).utf8ByteSize).sum := by
    induction cs generalizing t with
    | nil => rfl
    | cons c cs ih =>
      rw [List.foldl_cons, ih, String.utf8ByteSize_append, List.map_cons, List.sum_cons]
      omega
  have hq : "\"".utf8ByteSize = 1 := rfl
  rw [ofString, String.utf8ByteSize_append, String.foldl_eq_foldl_toList, hf, hq]
  omega

theorem utf8ByteSize_codePoint_le (c : Char) : (codePoint c).utf8ByteSize ≤ 14 * c.utf8Size := by
  have hs : (codePoint c).utf8ByteSize = 4 + (Hex.ofNat c.toNat).utf8ByteSize := by
    have h3 : "\\u\x7b".utf8ByteSize = 3 := rfl
    have h1 : "\x7d".utf8ByteSize = 1 := rfl
    rw [codePoint, String.utf8ByteSize_append, String.utf8ByteSize_append, h3, h1]
    omega
  have hd {k : Nat} (hk : 0 < k) (hc : c.toNat < 16 ^ k) :
      (Hex.ofNat c.toNat).utf8ByteSize ≤ 4 * k := by
    have hl := (Nat.length_toDigits_le_iff (by decide) hk).2 hc
    have hb := utf8ByteSize_le (Hex.ofNat c.toNat)
    rw [Hex.ofNat, String.length_ofList] at hb
    exact hb.trans (Nat.mul_le_mul_left 4 hl)
  have h0 := c.utf8Size_pos
  by_cases h1 : c.utf8Size = 1
  · have hv := UInt32.le_iff_toNat_le.1 (Char.utf8Size_eq_one_iff.1 h1)
    have hn : c.toNat < 16 ^ 2 := Nat.lt_of_le_of_lt hv (by decide)
    have h2 := hd (by decide) hn
    omega
  · have hn : c.toNat < 16 ^ 6 := by
      rcases c.valid with hv | hv
      · exact Nat.lt_trans hv (by decide)
      · exact Nat.lt_trans hv.2 (by decide)
    have h6 := hd (by decide) hn
    omega

theorem utf8ByteSize_escape_le (quote c : Char) :
    (escape quote c).utf8ByteSize ≤ 14 * c.utf8Size := by
  have h1 := c.utf8Size_pos
  have hc : (codePoint c).utf8ByteSize ≤ 14 * c.utf8Size := utf8ByteSize_codePoint_le c
  unfold escape
  split
  · rw [String.utf8ByteSize_append, String.utf8ByteSize_singleton]
    have hb : "\\".utf8ByteSize = 1 := rfl
    omega
  · split
    all_goals try exact (by decide : (2 : Nat) ≤ 14).trans (Nat.le_mul_of_pos_right _ h1)
    split
    · exact hc
    · rw [String.utf8ByteSize_singleton]
      omega

theorem utf8ByteSize_ofString_le (s : String) :
    (ofString s).utf8ByteSize ≤ 14 * s.utf8ByteSize + 2 := by
  have hs (cs : List Char) : (cs.map fun c => (escape '"' c).utf8ByteSize).sum ≤
      14 * (String.ofList cs).utf8ByteSize := by
    induction cs with
    | nil => exact Nat.zero_le _
    | cons c cs ih =>
      have hc := utf8ByteSize_escape_le '"' c
      rw [String.utf8ByteSize_ofList] at ih ⊢
      rw [List.map_cons, List.sum_cons, String.utf8Len_cons]
      omega
  have h := hs s.toList
  rw [String.ofList_toList] at h
  rw [utf8ByteSize_ofString]
  omega

theorem utf8ByteSize_ofString_replicate (n : Nat) :
    (ofString (String.ofList (List.replicate n '\x00'))).utf8ByteSize = 2 * n + 2 := by
  have he : (escape '"' '\x00').utf8ByteSize = 2 := by decide +kernel
  rw [utf8ByteSize_ofString, String.toList_ofList, List.map_replicate, List.sum_replicate, he]
  simp [Nat.mul_comm]

end Text.Quoted

/-- What comes of the document of an error whose message is too long for it. -/
def WireError.tooLong (e : WireError) : Stop EncodeError :=
  if e.message.utf8ByteSize % 0x100000000 = 0x7fffffff then .overflow
  else .error (.documentTooLarge (e.message.utf8ByteSize + 40))

theorem WireError.encode_of_large {e : WireError}
    (h : maxDocumentSize < e.message.utf8ByteSize + 40) :
    e.replyDocument.encode = .error e.tooLong := by
  rw [Document.encode_eq, stop?_replyDocument, Passage.stop?, extent_replyDocument, tooLong]
  by_cases ho : e.message.utf8ByteSize % 0x100000000 = 0x7fffffff
  · rw [if_pos ho, if_pos ho]
  · rw [if_neg ho, if_neg ho]
    exact if_pos h

namespace Reply

variable {e : WireError} {id responseTo : Int32}

/-- Bytes are one frame with a reply in it, under an id and in answer to a message. -/
def Fills (r : Reply) (id responseTo : Int32) (b : ByteArray) : Prop :=
  ∃ body, r.body = .ok body ∧
    Frame.split? b = .ok (some (⟨id, responseTo, .reply, body⟩, ByteArray.empty))

theorem encode_failure_of_large (h : maxDocumentSize < e.message.utf8ByteSize + 40) :
    (failure e.replyDocument).encode id responseTo = .error (e.tooLong.map .encode) := by
  have hb : (failure e.replyDocument).body = .error (e.tooLong.map .encode) := by
    rw [body, failure, Body.encodeAll_cons, WireError.encode_of_large h]
  rw [encode, hb]
  rfl

end Reply

namespace Service

theorem utf8ByteSize_interiorNul (part : CStringPart) (text : String) :
    (notEncoded (.encode (.interiorNul part text))).message.utf8ByteSize =
      part.name.utf8ByteSize + (Text.Quoted.ofString text).utf8ByteSize + 70 := by
  have hn (e : MessageError) :
      (notEncoded e).message.utf8ByteSize = 24 + e.message.utf8ByteSize :=
    String.utf8ByteSize_append
  have hm (e : EncodeError) :
      (MessageError.encode e).message.utf8ByteSize = 14 + e.message.utf8ByteSize :=
    String.utf8ByteSize_append
  have he : (EncodeError.interiorNul part text).message.utf8ByteSize =
      part.name.utf8ByteSize + 32 + (Text.Quoted.ofString text).utf8ByteSize :=
    String.utf8ByteSize_append.trans (congrArg (· + _) String.utf8ByteSize_append)
  rw [hn, hm, he]
  omega

theorem tellable_of_interiorNul (part : CStringPart) {text : String}
    (h : text.utf8ByteSize ≤ 1024 * 1024) : Tellable (.encode (.interiorNul part text)) := by
  have hp : part.name.utf8ByteSize ≤ 13 := by cases part <;> decide +kernel
  have hq := Text.Quoted.utf8ByteSize_ofString_le text
  rw [Tellable, utf8ByteSize_interiorNul, maxDocumentSize]
  omega

/-- What cannot be told quotes a text of more than a megabyte. -/
theorem exists_of_not_tellable {r : Reply} {id responseTo : Int32} {e : MessageError}
    (hr : r.volume < 2 ^ 64) (he : r.encode id responseTo = .error (.error e))
    (ht : ¬Tellable e) :
    ∃ part text, e = .encode (.interiorNul part text) ∧ 1024 * 1024 < text.utf8ByteSize := by
  obtain ⟨d, hd, t, hd', hs⟩ | hs := Reply.error_of_encode he
  · cases t with
    | overflow => cases hs
    | error e' =>
      cases hs
      obtain hs | ⟨p, -, hp⟩ := Document.error_of_encode hd'
      · cases hs
        have hv := Reply.volume_le hd
        exact absurd (tellable_of_size (by omega) (.inr rfl)) ht
      · obtain ⟨part, text, -, rfl⟩ := Passage.eq_of_stop?_eq_error hp
        exact ⟨part, text, rfl, Nat.lt_of_not_le fun hl => ht (tellable_of_interiorNul part hl)⟩
  · cases hs
    exact absurd (tellable_of_size (by omega) (.inl rfl)) ht

variable {α ρ π : Type} {v : Service α ρ π} {f : Frame} {c : Connection} {s : ServiceState π}
  {r : Reply}

/-- A reply that cannot be sent, and whose error cannot be told, lets the error of the error out. -/
theorem dispatch_of_not_tellable (h : v.due f c.recordRequest s.pool s.processor = some r)
    {e : MessageError} (he : r.encode s.nextReplyId f.requestId = .error (.error e))
    (ht : ¬Tellable e) :
    (v.dispatch f c s).1 = .error ((notEncoded e).tooLong.map .encode) := by
  rw [dispatch_fst_of_due h, he]
  dsimp only
  rw [Reply.encode_failure_of_large (Nat.lt_of_not_le ht)]
  rfl

/-- Whatever the processor does, a query or a request for more gets the reply that is due to it as
one frame, if this can be sent. If the program breaks off on it, nothing comes out; one of its texts
takes two gigabytes. If there is an error and it can be told, the client is told. Otherwise there is
no answer and what comes of the error gets out; the error is about a zero byte in a text of more
than a megabyte. -/
theorem dispatch_of_canReply (hf : f.opcode.canReply = true) (v : Service α ρ π) (c : Connection)
    (s : ServiceState π) :
    ∃ r, v.due f c.recordRequest s.pool s.processor = some r ∧
      (∀ b, r.encode s.nextReplyId f.requestId = .ok b →
        (v.dispatch f c s).1 = .ok (some b) ∧ r.Fills s.nextReplyId f.requestId b) ∧
      (r.encode s.nextReplyId f.requestId = .error .overflow →
        (v.dispatch f c s).1 = .error .overflow ∧
          ∃ d ∈ r.documents, ∃ text, .counted text ∈ Document.entryPassages d ∧
            text.utf8ByteSize % 0x100000000 = 0x7fffffff) ∧
      ∀ e, r.encode s.nextReplyId f.requestId = .error (.error e) →
        (Tellable e → ∃ b, (v.dispatch f c s).1 = .ok (some b) ∧
          (Reply.failure (notEncoded e).replyDocument).Fills s.nextReplyId f.requestId b) ∧
        (¬Tellable e →
          (v.dispatch f c s).1 = .error ((notEncoded e).tooLong.map .encode) ∧
          (r.volume < 2 ^ 64 → ∃ part text, e = .encode (.interiorNul part text) ∧
            1024 * 1024 < text.utf8ByteSize)) := by
  obtain ⟨r, hr⟩ : ∃ r, v.due f c.recordRequest s.pool s.processor = some r := by
    rw [← Option.isSome_iff_exists, due_isSome, hf]
  have hd := dispatch_fst_of_due hr
  refine ⟨r, hr, fun b hb => ⟨?_, Reply.split?_of_encode hb⟩, fun ho => ⟨?_, ?_⟩, fun e he =>
    ⟨fun ht => ?_, fun ht =>
      ⟨dispatch_of_not_tellable hr he ht, fun hv => exists_of_not_tellable hv he ht⟩⟩⟩
  · rw [hd, hb]
  · rw [hd, ho]
  · obtain ⟨d, hm, hb⟩ := Reply.overflow_of_encode ho
    exact ⟨d, hm, Document.overflow_of_encode hb⟩
  · obtain ⟨b, hb⟩ := Reply.encode_failure ht s.nextReplyId f.requestId
    refine ⟨b, ?_, Reply.split?_of_encode hb⟩
    rw [hd, he]
    dsimp only
    rw [hb]
    rfl

def listFrame (n : Namespace) : Frame :=
  ⟨1, 0, .query, Bytes.ofUInt32 0 ++ Body.cstring n.display ++ Bytes.ofInt32 0 ++ Bytes.ofInt32 0 ++
    (Bytes.ofSize 5).push 0⟩

theorem parse_listFrame {n : Namespace} (hn : n.WellFormed)
    (hs : n.display.utf8ByteSize + 18 ≤ maxMessageSize) (strategy : Strategy) (p : Pool) :
    (Request.parse strategy (listFrame n) p).1 = .ok (.query ⟨n, .none, 0, 0, [], none⟩) := by
  have he : Document.encode [] = .ok ((Bytes.ofSize 5).push 0) :=
    eq_ok_of_toOption (by decide +kernel)
  have hm : (Request.query ⟨n, .none, 0, 0, [], none⟩).WellFormed := by
    refine ⟨fun h => ?_, fun h => ?_, List.forall_mem_singleton.2 (Nat.zero_le _)⟩
    · obtain rfl := Option.some.inj h
      exact hn
    · cases h
  refine Request.parse_of_body rfl ?_ ?_ (List.forall_mem_singleton.2 Document.distinct_nil) hm
    strategy p
  · rw [Request.body, Option.toList_none, Body.encodeAll_cons, he]
    rfl
  · have hd : n.display.toUTF8.size = n.display.utf8ByteSize := rfl
    simp only [listFrame, Body.cstring, ByteArray.size_append, ByteArray.size_push,
      Bytes.size_ofUInt32, Bytes.size_ofInt32, Bytes.size_ofSize, hd]
    omega

theorem due_listFrame {n : Namespace} (hn : n.WellFormed)
    (hs : n.display.utf8ByteSize + 18 ≤ maxMessageSize) (hc : n.isCommand = false)
    (v : Service α ρ π) (c : Connection) (p : Pool) (s : π) :
    v.due (listFrame n) c p s = some (replyOf
      (v.processor.query (context c n false) ⟨n, .none, 0, 0, [], none⟩ c s).1) := by
  rw [due, parse_listFrame hn hs]
  dsimp only
  rw [Query.isCommand, hc, if_neg Bool.false_ne_true]
  rfl

def zeros (n : Nat) : String := String.ofList (List.replicate n '\x00')

def findingZeros (n : Nat) : Service (Argument Empty) (Outcome Empty) Surroundings :=
  ⟨Builtin.registry,
    { Standalone.processor with
      query := fun _ _ c s => (.ok (.single [(zeros n, .scalar .null)]), c, s) },
    .copy, fun _ => .zero⟩

def caller : Connection := .fresh 1 (.v4 .localhost 5000)

def findFrame : Frame := listFrame ⟨"db", "c"⟩

theorem due_findFrame (n : Nat) :
    (findingZeros n).due findFrame caller.recordRequest Standalone.fresh.pool
        Standalone.fresh.processor =
      some (.single [(zeros n, .scalar .null)]) :=
  due_listFrame ⟨⟨by decide, by decide, by decide⟩, by decide, by decide⟩ (by decide +kernel)
    (by decide) _ _ _ _

theorem encode_zeros {n : Nat} (hn : n ≠ 0) (id responseTo : Int32) :
    (Reply.single [(zeros n, .scalar .null)]).encode id responseTo =
      .error (.error (.encode (.interiorNul .key (zeros n)))) := by
  have hz : '\x00' ∈ (zeros n).toList := by
    rw [zeros, String.toList_ofList]
    exact List.mem_replicate.2 ⟨hn, rfl⟩
  have hs : Document.stop? [(zeros n, .scalar .null)] =
      some (.error (.interiorNul .key (zeros n))) :=
    (Passage.firstStop?_singleton _).trans (if_pos hz)
  have hd : Document.encode [(zeros n, .scalar .null)] =
      .error (.error (.interiorNul .key (zeros n))) := by
    rw [Document.encode_eq, hs]
  rw [Reply.encode, Reply.body, Reply.single, Body.encodeAll_cons, hd]
  rfl

theorem utf8ByteSize_notEncoded_zeros (n : Nat) :
    (notEncoded (.encode (.interiorNul .key (zeros n)))).message.utf8ByteSize = 2 * n + 75 := by
  have hk : CStringPart.key.name.utf8ByteSize = 3 := rfl
  rw [utf8ByteSize_interiorNul, zeros, Text.Quoted.utf8ByteSize_ofString_replicate, hk]
  omega

theorem dispatch_threeZeros :
    ∃ b, ((findingZeros 3).dispatch findFrame caller Standalone.fresh).1 = .ok (some b) ∧
      (Reply.failure (notEncoded (.encode (.interiorNul .key (zeros 3)))).replyDocument).Fills
        1 1 b := by
  obtain ⟨r, hr, -, -, he⟩ :=
    dispatch_of_canReply (f := findFrame) rfl (findingZeros 3) caller Standalone.fresh
  obtain rfl := Option.some.inj ((due_findFrame 3).symm.trans hr)
  refine (he _ (encode_zeros (by decide) _ _)).1 ?_
  rw [Tellable, utf8ByteSize_notEncoded_zeros]
  decide

/-- For a key of nine millions of them nothing goes out, and the error is not one of the framing. -/
theorem dispatch_manyZeros :
    findFrame.opcode.canReply = true ∧
      ((findingZeros 9000000).dispatch findFrame caller Standalone.fresh).1 =
        .error (.error (.encode (.documentTooLarge 18000115))) ∧
      (MessageError.encode (.documentTooLarge 18000115)).isFatal = false := by
  refine ⟨rfl, ?_, rfl⟩
  rw [dispatch_of_not_tellable (due_findFrame _) (encode_zeros (by decide) _ _), WireError.tooLong,
    utf8ByteSize_notEncoded_zeros]
  · rfl
  · rw [Tellable, utf8ByteSize_notEncoded_zeros]
    decide

end Service

end DocumentServer
