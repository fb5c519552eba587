import DocumentServer.Proofs.Canonical
import DocumentServer.Proofs.RequestRoundTrip

namespace DocumentServer

open Grammar

theorem Frame.bytes_inj {f g : Frame} (hf : f.length ≤ maxMessageSize)
    (hg : g.length ≤ maxMessageSize) (h : f.bytes = g.bytes) : f = g := by
  have hs {f : Frame} (hf : f.length ≤ maxMessageSize) :
      Frame.split? f.bytes = .ok (some (f, ByteArray.empty)) :=
    Frame.split?_eq_frame_iff.2 ⟨ByteArray.append_empty.symm, hf⟩
  have he := hs hf
  rw [h, hs hg] at he
  cases he
  rfl

namespace Body

theorem exists_encode_of_encodeAll {out b : ByteArray} {ds : List (Document String)}
    (h : encodeAll out ds = .ok b) : ∀ d ∈ ds, ∃ c, d.encode = .ok c := by
  induction ds generalizing out with
  | nil => exact nofun
  | cons d ds ih =>
    rw [encodeAll_cons] at h
    split at h
    next c hc => exact List.forall_mem_cons.2 ⟨⟨c, hc⟩, ih h⟩
    next => cases h

end Body

namespace Grammar

variable {op : Opcode} {w : ByteArray} {x : Spelling} {m : Request}

theorem SpellsDocuments.encodeAll {xs : List (List (String × Tree))} {ds : List (Document String)}
    (h : SpellsDocuments w xs ds) (hx : ∀ es ∈ xs, Tree.CanonicalElements es)
    (hd : ∀ d ∈ ds, ∃ c, d.encode = .ok c) (out : ByteArray) :
    Body.encodeAll out ds = .ok (out ++ w) := by
  induction h generalizing out with
  | nil => rw [Body.encodeAll, ByteArray.append_empty]
  | cons hs _ ih =>
    obtain ⟨hc, hx⟩ := List.forall_mem_cons.1 hx
    obtain ⟨⟨c, he⟩, hd⟩ := List.forall_mem_cons.1 hd
    obtain ⟨-, -, hl⟩ := Document.encode_eq_ok_iff.1 he
    rw [Body.encodeAll_cons, he, ← hl.symm.trans (hs.layout hc)]
    dsimp only
    rw [ih hx hd, hl.symm.trans (hs.layout hc), ByteArray.append_assoc]

theorem IsWords.eq {u : ByteArray} {ids : List Int64} (h : IsWords w ids) (h' : IsWords u ids) :
    w = u := by
  induction h generalizing u with
  | nil => cases h'; rfl
  | cons hn _ ih =>
    cases h' with
    | cons hn' h' => rw [hn.eq hn', ih h']

theorem eq_of_testBit {a b : Nat} (ha : a < 4) (hb : b < 4) (h0 : a.testBit 0 = b.testBit 0)
    (h1 : a.testBit 1 = b.testBit 1) : a = b := by
  have h : ∀ a < 4, ∀ b < 4, a.testBit 0 = b.testBit 0 → a.testBit 1 = b.testBit 1 → a = b := by
    decide
  exact h a ha b hb h0 h1

/-- A word of flags is written as it was if its other bits are zero. -/
theorem flagWord_of_isWord {f : ByteArray} {v : Nat} (h : IsWord 4 f v) (hv : v < 4) :
    Request.flagWord (v.testBit 0) (v.testBit 1) = f := by
  obtain ⟨y, hy, h0, h1, h4, -⟩ := exists_isWord_flagWord (v.testBit 0) (v.testBit 1)
  rw [eq_of_testBit h4 hv h0 h1] at hy
  exact hy.eq h

theorem flagWord_of_isWord_one {f : ByteArray} {v : Nat} (h : IsWord 4 f v) (hv : v < 2) :
    Request.flagWord (v.testBit 0) false = f := by
  have h1 : v.testBit 1 = false := Nat.testBit_lt_two_pow hv
  rw [← h1]
  exact flagWord_of_isWord h (by omega)

theorem SpellsBody.opcode (h : SpellsBody op w x m) : m.opcode = op := by
  cases h <;> rfl

theorem SpellsBody.body (h : SpellsBody op w x m) (hx : x.Canonical op)
    (hd : ∀ d ∈ m.documents, ∃ c, d.encode = .ok c) : m.body = .ok w := by
  obtain ⟨hr0, hf0, hc⟩ := hx
  have hr {r : ByteArray} (h : IsWord 4 r x.reserved.toNat) : Request.reserved = r := by
    rw [hr0] at h
    exact (isWord_ofUInt32 0).eq h
  cases h with
  | query ho hs hk hn hxs =>
    rw [ho.eq (isWord_ofUInt32 _), (isSpace_iff.1 hs).2, hk.eq (isWord_ofUInt32 _),
      hn.eq (isWord_ofUInt32 _)]
    exact hxs.encodeAll hc hd _
  | insert hf hs hxs _ =>
    rw [← flagWord_of_isWord_one hf hf0, (isSpace_iff.1 hs).2]
    exact hxs.encodeAll hc hd _
  | update hy hs hf hxs =>
    rw [← hr hy, ← flagWord_of_isWord hf hf0, (isSpace_iff.1 hs).2]
    exact hxs.encodeAll hc hd _
  | delete hy hs hf hxs =>
    rw [← hr hy, ← flagWord_of_isWord_one hf hf0, (isSpace_iff.1 hs).2]
    exact hxs.encodeAll hc hd _
  | getMore hy hs hn hi =>
    rw [← hr hy, (isSpace_iff.1 hs).2, hn.eq (isWord_ofUInt32 _), hi.eq (isWord_ofUInt64 _)]
    rfl
  | @killCursors _ _ _ ids _ hy hn hw =>
    obtain ⟨u, hu, hi, -⟩ := isWords_foldl (Request.reserved ++ Bytes.ofSize ids.length) ids
    rw [Request.body, hu, ← hr hy, hn.eq_ofSize, hi.eq hw]

theorem exists_encode_of_body {b : ByteArray} (h : m.body = .ok b) :
    ∀ d ∈ m.documents, ∃ c, d.encode = .ok c := by
  cases m with
  | query q | insert i | update u | delete u => exact Body.exists_encode_of_encodeAll h
  | getMore g | killCursors ids => exact nofun

theorem IsBody.writable (h : IsBody op w m) : ∀ d ∈ m.documents, d.Writable := by
  intro d hd
  obtain ⟨u, hu⟩ := h.forall_isDocument d hd
  exact hu.writable

theorem IsBody.distinct (h : IsBody op w m) : ∀ d ∈ m.documents, d.Distinct := by
  intro d hd
  obtain ⟨u, hu⟩ := h.forall_isDocument d hd
  exact hu.distinct

/-- What is written for a request that was read is what it was read from if the spelling of that is
canonical. -/
theorem SpellsBody.eq_iff {b : ByteArray} (h : SpellsBody op w x m) (hb : m.body = .ok b)
    (hs : b.size ≤ maxMessageSize) : b = w ↔ x.Canonical op := by
  constructor
  · rintro rfl
    obtain ⟨y, hy, hc⟩ := spellsBody_of_body hb hs h.isBody.distinct h.isBody.wellFormed
    rw [h.opcode] at hy hc
    exact h.unique hy rfl ▸ hc
  · intro hx
    have hw := h.body hx (exists_encode_of_body hb)
    exact Except.ok.inj (hb.symm.trans hw)

end Grammar

namespace Request

variable {m : Request}

theorem error_of_encode {requestId : Int32} {s : Stop MessageError}
    (hd : ∀ d ∈ m.documents, d.Writable) (h : m.encode requestId = .error s) :
    ∃ n, s = .error (.tooLarge n) ∨ s = .error (.encode (.documentTooLarge n)) := by
  have hb {s : Stop MessageError} (h : m.body = .error s) :
      ∃ n, s = .error (.encode (.documentTooLarge n)) := by
    cases m with
    | query q | insert i | update u | delete u =>
      obtain ⟨d, hm, t, ht, rfl⟩ := Body.error_of_encodeAll h
      obtain ⟨n, rfl⟩ := (hd d hm).error_of_encode ht
      exact ⟨n, rfl⟩
    | getMore g | killCursors ids => cases h
  cases hc : m.body with
  | error t =>
    rw [encode, hc] at h
    cases h
    obtain ⟨n, hn⟩ := hb hc
    exact ⟨n, .inr hn⟩
  | ok b =>
    rw [encode, hc] at h
    change (Frame.encode _).mapError _ = _ at h
    rw [Frame.encode] at h
    split at h <;> cases h
    exact ⟨_, .inl rfl⟩

/-- A request that was read from a frame can be written again under the id of the frame, unless it
is too large, and is then read as itself. The body of the frame has one spelling, and the bytes of
the frame come back if and only if it answered none and nothing is reserved, no flag lacks a meaning
and all documents are canonical in that spelling. -/
theorem encode_parse {b : ByteArray} {f : Frame} {strategy : Strategy} {p : Pool}
    (hf : Frame.split? b = .ok (some (f, ByteArray.empty)))
    (h : (parse strategy f p).1 = .ok m) :
    (∀ n, m.space? = some n → n.WellFormed) ∧
      (∀ id part text, m.encode id ≠ .error (.error (.encode (.interiorNul part text)))) ∧
      ∃ x, SpellsBody f.opcode f.body x m ∧
        (∀ y m', SpellsBody f.opcode f.body y m' → y = x) ∧
        ∀ c, m.encode f.requestId = .ok c →
          (∃ g, Frame.split? c = .ok (some (g, ByteArray.empty)) ∧
            ∀ strategy' q, (parse strategy' g q).1 = .ok m) ∧
          (c = b ↔ f.responseTo = 0 ∧ x.reserved = 0 ∧ x.flags.toNat < 2 ^ f.opcode.flagCount ∧
            ∀ es ∈ x.documents, Tree.CanonicalElements es) := by
  have hm := parse_eq_ok_iff.1 h
  obtain ⟨x, hx⟩ := hm.exists_spells
  refine ⟨fun n => hm.wellFormed.space, fun id part text he => ?_, x, hx,
    fun y m' hy => hy.unique hx rfl, fun c hc => ?_⟩
  · obtain ⟨n, hn | hn⟩ := error_of_encode hm.writable he <;> cases hn
  · obtain ⟨w, hw, he⟩ := exists_body_of_encode hc
    have hs := size_of_encode he
    refine ⟨⟨_, Frame.split?_of_encode he, fun strategy' q => parse_eq_ok_iff.2 ?_⟩, ?_⟩
    · obtain ⟨y, hy, -⟩ := spellsBody_of_body hw hs hm.distinct hm.wellFormed
      exact hy.isBody
    · obtain ⟨hl, rfl⟩ := Frame.encode_eq_ok_iff.1 he
      obtain ⟨rfl, hfl⟩ := Frame.split?_eq_frame_iff.1 hf
      have hi := hx.eq_iff hw hs
      rw [ByteArray.append_empty]
      constructor
      · intro hb
        have hg := Frame.bytes_inj hl hfl hb
        have hx := hi.1 (congrArg Frame.body hg)
        exact ⟨(congrArg Frame.responseTo hg).symm, hx.reserved, hx.flags, hx.documents⟩
      · rintro ⟨h0, hc⟩
        rw [hi.2 ⟨hc.1, hc.2.1, hc.2.2⟩, hx.opcode, ← h0]

def flaggedUpdate : ByteArray :=
  ⟨#[38, 0, 0, 0, 5, 0, 0, 0, 0, 0, 0, 0, 209, 7, 0, 0, 7, 0, 0, 0, 97, 46, 98, 0, 9, 0, 0, 0,
    5, 0, 0, 0, 0, 5, 0, 0, 0, 0]⟩

def plainUpdate : ByteArray :=
  ⟨#[38, 0, 0, 0, 5, 0, 0, 0, 0, 0, 0, 0, 209, 7, 0, 0, 0, 0, 0, 0, 97, 46, 98, 0, 1, 0, 0, 0,
    5, 0, 0, 0, 0, 5, 0, 0, 0, 0]⟩

theorem encode_parse_flaggedUpdate :
    ∃ f m, Frame.split? flaggedUpdate = .ok (some (f, ByteArray.empty)) ∧
      (parse .borrow f (.empty .onlyLikely 0)).1 = .ok m ∧ m.encode f.requestId = .ok plainUpdate ∧
      (∃ g, Frame.split? plainUpdate = .ok (some (g, ByteArray.empty)) ∧
        (parse .borrow g (.empty .onlyLikely 0)).1 = .ok m) ∧
      ∃ x, SpellsBody f.opcode f.body x m ∧
        ¬(f.responseTo = 0 ∧ x.reserved = 0 ∧ x.flags.toNat < 2 ^ f.opcode.flagCount ∧
          ∀ es ∈ x.documents, Tree.CanonicalElements es) := by
  let f : Frame := ⟨5, 0, .update, flaggedUpdate.extract 16 38⟩
  have hf : Frame.split? flaggedUpdate = .ok (some (f, ByteArray.empty)) := by
    rw [Frame.split?_eq_frame_iff]
    decide +kernel
  have hb : (parse .borrow f (.empty .onlyLikely 0)).1.toOption.any
      (fun m => decide ((m.encode f.requestId).toOption = some plainUpdate)) = true := by
    decide +kernel
  obtain ⟨m, hm, hb⟩ := (Option.any_eq_true _ _).1 hb
  have hm := eq_ok_of_toOption hm
  have hc := eq_ok_of_toOption (of_decide_eq_true hb)
  obtain ⟨-, -, x, hx, -, h⟩ := encode_parse hf hm
  obtain ⟨⟨g, hg, hp⟩, hi⟩ := h plainUpdate hc
  exact ⟨f, m, hf, hm, hc, ⟨g, hg, hp _ _⟩, x, hx, fun h => absurd (hi.2 h) (by decide +kernel)⟩

end Request

end DocumentServer
