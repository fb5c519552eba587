import DocumentServer.Proofs.FrameStream
import DocumentServer.Proofs.RequestAcceptance
import DocumentServer.Proofs.RequestSpelling
import DocumentServer.Proofs.RoundTrip

namespace DocumentServer

open Grammar

/-- A namespace that is read back as it was written. -/
structure Namespace.WellFormed (n : Namespace) : Prop where
  proper : n.Proper
  database : '\x00' ∉ n.database.toList
  collection : '\x00' ∉ n.collection.toList

namespace Request

def documents : Request → List (Document String)
  | query q => q.query :: q.projection.toList
  | insert m => m.documents
  | update m => [m.selector, m.update]
  | delete m => [m.selector]
  | getMore _ | killCursors _ => []

structure WellFormed (m : Request) : Prop where
  space : ∀ {n}, m.space? = some n → n.WellFormed
  inserts : ∀ {i}, m = .insert i → i.documents ≠ []
  shallow : ∀ d ∈ m.documents, d.depth ≤ maxNesting

end Request

namespace Grammar

theorem cstring_eq (s : String) : Body.cstring s = s.toUTF8 ++ one 0 := push_eq_append _ _

theorem isSpace_iff {w : ByteArray} {n : Namespace} :
    IsSpace w n ↔ n.WellFormed ∧ w = Body.cstring n.display := by
  have hz : 0 ∉ n.display.toUTF8.data ↔
      '\x00' ∉ n.database.toList ∧ '\x00' ∉ n.collection.toList := by
    rw [zero_mem_toUTF8_iff, Namespace.toList_display, List.mem_append, List.mem_cons]
    have hd : '\x00' ≠ '.' := by decide
    tauto
  rw [IsSpace, IsCString, IsTerminated, hz, cstring_eq]
  constructor
  · rintro ⟨⟨⟨hd, hc⟩, rfl⟩, hp⟩
    exact ⟨⟨hp, hd, hc⟩, rfl⟩
  · rintro ⟨⟨hp, hd, hc⟩, rfl⟩
    exact ⟨⟨⟨hd, hc⟩, rfl⟩, hp⟩

theorem IsDocuments.forall_isDocument {w : ByteArray} {ds : List (Document String)}
    (h : IsDocuments w ds) : ∀ d ∈ ds, ∃ u, IsDocument maxNesting u d := by
  induction h with
  | nil => exact nofun
  | cons hd _ ih => exact List.forall_mem_cons.2 ⟨⟨_, hd⟩, ih⟩

theorem IsBody.forall_isDocument {op : Opcode} {w : ByteArray} {m : Request} (h : IsBody op w m) :
    ∀ d ∈ m.documents, ∃ u, IsDocument maxNesting u d := by
  cases h with
  | query _ _ _ _ hd | insert _ _ hd _ | update _ _ _ hd | delete _ _ _ hd =>
    exact hd.forall_isDocument
  | getMore | killCursors => exact nofun

theorem IsBody.wellFormed {op : Opcode} {w : ByteArray} {m : Request} (h : IsBody op w m) :
    m.WellFormed := by
  have hd : ∀ d ∈ m.documents, d.depth ≤ maxNesting := by
    intro d hd
    obtain ⟨u, hu⟩ := h.forall_isDocument d hd
    exact hu.depth_le
  cases h with
  | query _ hs _ _ _ | update _ hs _ _ | delete _ hs _ _ | getMore _ hs _ _ =>
    exact ⟨fun h => Option.some.inj h ▸ (isSpace_iff.1 hs).1, nofun, hd⟩
  | insert _ hs _ hne =>
    exact ⟨fun h => Option.some.inj h ▸ (isSpace_iff.1 hs).1,
      fun h => Request.insert.inj h ▸ hne, hd⟩
  | killCursors => exact ⟨nofun, nofun, hd⟩

theorem spellsDocuments_of_encodeAll {out b : ByteArray} {ds : List (Document String)}
    (h : Body.encodeAll out ds = .ok b) (hd : ∀ d ∈ ds, d.Distinct)
    (hn : ∀ d ∈ ds, d.depth ≤ maxNesting) :
    ∃ w xs, b = out ++ w ∧ SpellsDocuments w xs ds ∧ ∀ es ∈ xs, Tree.CanonicalElements es := by
  induction ds generalizing out with
  | nil =>
    cases h
    exact ⟨ByteArray.empty, [], ByteArray.append_empty.symm, .nil, nofun⟩
  | cons d ds ih =>
    obtain ⟨hd, hds⟩ := List.forall_mem_cons.1 hd
    obtain ⟨hn, hns⟩ := List.forall_mem_cons.1 hn
    rw [Body.encodeAll_cons] at h
    split at h
    next c hc =>
      obtain ⟨w, xs, rfl, hw, hx⟩ := ih h hds hns
      obtain ⟨es, hs, he, hce⟩ := Document.spells_of_encode hc hd hn
      have hm := SpellsDocuments.cons hs hw
      rw [hce.merged, he] at hm
      exact ⟨c ++ w, es :: xs, ByteArray.append_assoc, hm, List.forall_mem_cons.2 ⟨hce, hx⟩⟩
    next => cases h

theorem exists_isWord_flagWord (first second : Bool) :
    ∃ x : UInt32, IsWord 4 (Request.flagWord first second) x.toNat ∧ x.toNat.testBit 0 = first ∧
      x.toNat.testBit 1 = second ∧ x.toNat < 4 ∧ (second = false → x.toNat < 2) :=
  ⟨_, isWord_ofUInt32 _, by cases first <;> cases second <;> decide⟩

theorem isWords_foldl (out : ByteArray) (ids : List Int64) :
    ∃ w, ids.foldl (fun out id => out ++ Bytes.ofInt64 id) out = out ++ w ∧ IsWords w ids ∧
      w.size = 8 * ids.length := by
  induction ids generalizing out with
  | nil => exact ⟨ByteArray.empty, ByteArray.append_empty.symm, .nil, rfl⟩
  | cons id ids ih =>
    obtain ⟨w, hw, hi, hs⟩ := ih (out ++ Bytes.ofInt64 id)
    refine ⟨Bytes.ofInt64 id ++ w, ?_, .cons (isWord_ofUInt64 _) hi, ?_⟩
    · rw [List.foldl_cons, hw, ByteArray.append_assoc]
    · have h8 : (Bytes.ofInt64 id).size = 8 := Bytes.size_ofUInt64 _
      rw [ByteArray.size_append, h8, hs, List.length_cons]
      omega

theorem spellsBody_of_body {m : Request} {b : ByteArray} (hb : m.body = .ok b)
    (hs : b.size ≤ maxMessageSize) (hd : ∀ d ∈ m.documents, d.Distinct) (hm : m.WellFormed) :
    ∃ x, SpellsBody m.opcode b x m ∧ x.Canonical m.opcode := by
  have hr : IsWord 4 Request.reserved (0 : UInt32).toNat := isWord_ofUInt32 0
  have hspace {n : Namespace} (h : m.space? = some n) : IsSpace (Body.cstring n.display) n :=
    isSpace_iff.2 ⟨hm.space h, rfl⟩
  cases m with
  | query q =>
    obtain ⟨w, xs, rfl, hw, hx⟩ := spellsDocuments_of_encodeAll hb hd hm.shallow
    exact ⟨_, .query (isWord_ofUInt32 _) (hspace rfl) (isWord_ofUInt32 _) (isWord_ofUInt32 _) hw,
      rfl, Nat.zero_lt_one, hx⟩
  | insert i =>
    obtain ⟨w, xs, rfl, hw, hx⟩ := spellsDocuments_of_encodeAll hb hd hm.shallow
    obtain ⟨y, hy, h0, -, -, h2⟩ := exists_isWord_flagWord i.continueOnError false
    have h := SpellsBody.insert hy (hspace rfl) hw (hm.inserts rfl)
    rw [h0] at h
    exact ⟨_, h, rfl, h2 rfl, hx⟩
  | update u =>
    obtain ⟨w, xs, rfl, hw, hx⟩ := spellsDocuments_of_encodeAll hb hd hm.shallow
    obtain ⟨y, hy, h0, h1, h4, -⟩ := exists_isWord_flagWord u.upsert u.multi
    have h := SpellsBody.update hr (hspace rfl) hy hw
    rw [h0, h1] at h
    exact ⟨_, h, rfl, h4, hx⟩
  | delete u =>
    obtain ⟨w, xs, rfl, hw, hx⟩ := spellsDocuments_of_encodeAll hb hd hm.shallow
    obtain ⟨y, hy, h0, -, -, h2⟩ := exists_isWord_flagWord u.single false
    have h := SpellsBody.delete hr (hspace rfl) hy hw
    rw [h0] at h
    exact ⟨_, h, rfl, h2 rfl, hx⟩
  | getMore g =>
    cases hb
    exact ⟨_, .getMore hr (hspace rfl) (isWord_ofUInt32 _) (isWord_ofUInt64 _), rfl,
      Nat.zero_lt_one, nofun⟩
  | killCursors ids =>
    obtain ⟨w, hw, hi, h8⟩ := isWords_foldl (Request.reserved ++ Bytes.ofSize ids.length) ids
    obtain rfl := hw.symm.trans (Except.ok.inj hb)
    have hl : ids.length < 0x80000000 := by
      rw [ByteArray.size_append, h8, maxMessageSize] at hs
      omega
    exact ⟨_, .killCursors hr (isLength_ofSize hl) hi, rfl, Nat.zero_lt_one, nofun⟩

end Grammar

namespace Request

theorem exists_body_of_encode {m : Request} {requestId : Int32} {bytes : ByteArray}
    (h : m.encode requestId = .ok bytes) :
    ∃ b, m.body = .ok b ∧ Frame.encode ⟨requestId, 0, m.opcode, b⟩ = .ok bytes := by
  obtain ⟨b, hb, hf⟩ := exists_of_bind_eq_ok h
  exact ⟨b, hb, mapError_eq_ok_iff.1 hf⟩

theorem size_of_encode {f : Frame} {bytes : ByteArray} (h : f.encode = .ok bytes) :
    f.body.size ≤ maxMessageSize := by
  have hm := (Frame.encode_eq_ok_iff.1 h).1
  rw [Frame.length] at hm
  exact (Nat.le_add_left _ _).trans hm

theorem parse_of_body {m : Request} {f : Frame} (ho : f.opcode = m.opcode)
    (hb : m.body = .ok f.body) (hs : f.body.size ≤ maxMessageSize)
    (hd : ∀ d ∈ m.documents, d.Distinct) (hm : m.WellFormed) (strategy : Strategy) (p : Pool) :
    (parse strategy f p).1 = .ok m := by
  obtain ⟨x, hx, -⟩ := spellsBody_of_body hb hs hd hm
  exact parse_eq_ok_iff.2 (ho ▸ hx.isBody)

/-- The bytes of a request are one frame with nothing behind it, under the id of the request and in
answer to none. The frame is read as the request that was written exactly if that is well formed. -/
theorem parse_encode_iff {m : Request} {requestId : Int32} {bytes : ByteArray}
    (hd : ∀ d ∈ m.documents, d.Distinct) (h : m.encode requestId = .ok bytes)
    (strategy : Strategy) (p : Pool) :
    ∃ f : Frame, (FrameStream.mk bytes).drain = ⟨[f], none, FrameStream.empty⟩ ∧
      Frame.split? bytes = .ok (some (f, ByteArray.empty)) ∧
      f.requestId = requestId ∧ f.responseTo = 0 ∧ f.opcode = m.opcode ∧
      f.length = bytes.size ∧ (Bytes.int32 bytes 0).toInt = bytes.size ∧
      ((parse strategy f p).1 = .ok m ↔ m.WellFormed) := by
  obtain ⟨b, hb, hf⟩ := exists_body_of_encode h
  obtain ⟨hl, hw⟩ := Frame.length_of_encode hf
  refine ⟨_, Frame.drain_of_encode hf, Frame.split?_of_encode hf, rfl, rfl, rfl, hl, hw, ?_⟩
  exact ⟨fun hp => (parse_eq_ok_iff.1 hp).wellFormed,
    fun hm => parse_of_body rfl hb (size_of_encode hf) hd hm strategy p⟩

def listing (database collection : String) : Request :=
  .query ⟨⟨database, collection⟩, .none, 0, 10, [("of", .scalar (.int32 7))], none⟩

theorem parse_encode_listing :
    (∃ bytes f, (listing "shop" "orders.old").encode 5 = .ok bytes ∧
      (FrameStream.mk bytes).drain = ⟨[f], none, FrameStream.empty⟩ ∧
      (parse .borrow f (.empty .onlyLikely 0)).1 = .ok (listing "shop" "orders.old")) ∧
    ∃ bytes f, (listing "shop.orders" "old").encode 5 = .ok bytes ∧
      (FrameStream.mk bytes).drain = ⟨[f], none, FrameStream.empty⟩ ∧
      (parse .borrow f (.empty .onlyLikely 0)).1 ≠ .ok (listing "shop.orders" "old") := by
  have hs {m : Request} (hm : (m.encode 5).toOption.isSome = true) :
      ∃ bytes, m.encode 5 = .ok bytes := by
    cases h : m.encode 5 with
    | error e => rw [h] at hm; cases hm
    | ok bytes => exact ⟨bytes, rfl⟩
  have hd (database collection : String) :
      ∀ d ∈ (listing database collection).documents, d.Distinct := by
    simp [listing, documents, Document.Distinct, Value.Distinct, Document.keys]
  constructor
  · obtain ⟨bytes, h⟩ := hs (m := listing "shop" "orders.old") (by decide +kernel)
    obtain ⟨f, hf, -, -, -, -, -, -, hp⟩ := parse_encode_iff (hd _ _) h .borrow
      (.empty .onlyLikely 0)
    refine ⟨bytes, f, h, hf, hp.2 ⟨fun h => ?_, fun h => ?_, ?_⟩⟩
    · obtain rfl := Option.some.inj h
      exact ⟨⟨by decide, by decide, by decide⟩, by decide, by decide⟩
    · cases h
    · simp [listing, documents, Document.depth, Value.depth]
  · obtain ⟨bytes, h⟩ := hs (m := listing "shop.orders" "old") (by decide +kernel)
    obtain ⟨f, hf, -, -, -, -, -, -, hp⟩ := parse_encode_iff (hd _ _) h .borrow
      (.empty .onlyLikely 0)
    exact ⟨bytes, f, h, hf, fun h => absurd ((hp.1 h).space rfl).proper.2.1 (by decide)⟩

end Request

end DocumentServer
