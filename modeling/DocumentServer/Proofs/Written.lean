import DocumentServer.Proofs.Builder
import DocumentServer.Proofs.Derivation
import DocumentServer.Proofs.FrameStream
import DocumentServer.Server.Service

namespace DocumentServer

open Grammar

namespace Passage

def NulFree (p : Passage) : Prop := ∀ e, p.stop? ≠ some (.error e)

@[simp]
theorem nulFree_counted (text : String) : NulFree (.counted text) := by
  intro e h
  rw [stop?] at h
  split at h <;> cases h

@[simp]
theorem nulFree_terminated_iff {part : CStringPart} {text : String} :
    NulFree (.terminated part text) ↔ '\x00' ∉ text.toList := by
  simp [NulFree, stop?]

theorem eq_of_stop?_eq_error {p : Passage} {e : EncodeError} (h : p.stop? = some (.error e)) :
    ∃ part text, p = .terminated part text ∧ e = .interiorNul part text := by
  cases p with
  | terminated part text =>
    rw [stop?] at h
    split at h <;> cases h
    exact ⟨part, text, rfl, rfl⟩
  | counted text => exact absurd h (nulFree_counted text e)

theorem eq_of_stop?_eq_overflow {p : Passage} (h : p.stop? = some .overflow) :
    ∃ text, p = .counted text ∧ text.utf8ByteSize % 0x100000000 = 0x7fffffff := by
  cases p with
  | terminated part text =>
    rw [stop?] at h
    split at h <;> cases h
  | counted text =>
    rw [stop?] at h
    split at h
    next ht => exact ⟨text, rfl, ht⟩
    next => cases h

end Passage

namespace Document

variable {d : Document String} {P : Passage → Prop}

theorem mem_entryPassages {p : Passage} :
    p ∈ entryPassages d ↔ ∃ e ∈ d, p = .terminated .key e.1 ∨ p ∈ e.2.passages := by
  induction d with
  | nil => simp [entryPassages]
  | cons e d ih => simp [entryPassages, ih, or_assoc]

/-- All texts of a document have some property. -/
def Passes (P : Passage → Prop) (d : Document String) : Prop := ∀ p ∈ entryPassages d, P p

def PassesEntry (P : Passage → Prop) (e : String × Value String) : Prop :=
  P (.terminated .key e.1) ∧ ∀ p ∈ e.2.passages, P p

theorem passes_iff : Passes P d ↔ ∀ e ∈ d, PassesEntry P e := by
  constructor
  · intro h e he
    exact ⟨h _ (mem_entryPassages.2 ⟨e, he, .inl rfl⟩),
      fun p hp => h p (mem_entryPassages.2 ⟨e, he, .inr hp⟩)⟩
  · intro h p hp
    obtain ⟨e, he, rfl | hp⟩ := mem_entryPassages.1 hp
    · exact (h e he).1
    · exact (h e he).2 p hp

theorem passes_nil : Passes P [] := passes_iff.2 nofun

theorem Passes.insert (hd : d.Passes P) {k : String} {v : Value String}
    (he : PassesEntry P (k, v)) : (insert d k v).Passes P := by
  rw [passes_iff] at hd ⊢
  induction d with
  | nil => exact List.forall_mem_singleton.2 he
  | cons e d ih =>
    obtain ⟨h, hd⟩ := List.forall_mem_cons.1 hd
    rw [insert_cons]
    split
    · exact List.forall_mem_cons.2 ⟨⟨h.1, he.2⟩, hd⟩
    · exact List.forall_mem_cons.2 ⟨h, ih hd⟩

theorem Passes.foldl_insert {c : Document String} (hc : c.Passes P) (hd : d.Passes P) :
    (d.foldl (fun d e => Document.insert d e.1 e.2) c).Passes P := by
  rw [passes_iff] at hd
  induction d generalizing c with
  | nil => exact hc
  | cons e d ih =>
    obtain ⟨he, hd⟩ := List.forall_mem_cons.1 hd
    exact ih (hc.insert he) hd

theorem contains_iff {key : String} : contains d key = true ↔ key ∈ keys d := by
  simp [contains, get?, keys]

theorem withOk_eq (h : okField ∉ keys d) :
    d.withOk = insert (d.foldl (fun d e => Document.insert d e.1 e.2) []) okField
      (.scalar (.double .one)) := by
  have hb : (Builder.ofDocument d).build = d.foldl (fun d e => Document.insert d e.1 e.2) [] :=
    Builder.build_insertAll Builder.indexed_empty d
  have hi : (Builder.ofDocument d).Indexed := Builder.indexed_empty.insertAll d
  rw [withOk, if_neg (mt contains_iff.1 h), Builder.build_insert hi, hb]

theorem withOk_of_notMem (h : okField ∉ keys d) (hd : (keys d).Nodup) :
    d.withOk = d ++ [(okField, .scalar (.double .one))] := by
  have hm : d.foldl (fun d e => Document.insert d e.1 e.2) [] = d := by
    rw [← merged_eq_foldl]
    exact merged_eq_self hd
  rw [withOk_eq h, hm]
  exact insert_of_notMem _ h

theorem Passes.withOk (hd : d.Passes P) (ho : P (.terminated .key okField)) :
    d.withOk.Passes P := by
  by_cases h : okField ∈ keys d
  · rwa [Document.withOk, if_pos (contains_iff.2 h)]
  · rw [withOk_eq h]
    exact (passes_nil.foldl_insert hd).insert ⟨ho, nofun⟩

/-- No text stops the writing of a document, whatever its size. -/
def Writable (d : Document String) : Prop := d.stop? = none

instance : DecidablePred Writable := fun d => inferInstanceAs (Decidable (d.stop? = none))

def NulFree (d : Document String) : Prop := d.Passes Passage.NulFree

theorem writable_iff : d.Writable ↔ d.Passes fun p => p.stop? = none := List.findSome?_eq_none_iff

theorem Writable.nulFree (h : d.Writable) : d.NulFree := fun p hp e he => by
  rw [writable_iff.1 h p hp] at he
  cases he

/-- The number of bytes that a document takes, if it can be written. -/
def volume (d : Document String) : Nat := if d.stop? = none then d.extent else 0

theorem encode_of_writable (h : d.Writable) :
    d.encode = if d.extent > maxDocumentSize then .error (.error (.documentTooLarge d.extent))
      else .ok d.layout := by
  rw [encode_eq, h]

theorem Writable.error_of_encode (hd : d.Writable) {s : Stop EncodeError}
    (h : d.encode = .error s) : ∃ n, s = .error (.documentTooLarge n) := by
  rw [encode_of_writable hd] at h
  split at h <;> cases h
  exact ⟨_, rfl⟩

theorem volume_of_encode {b : ByteArray} (h : d.encode = .ok b) :
    b.size = d.volume ∧ b.size ≤ maxDocumentSize := by
  obtain ⟨hs, hm, rfl⟩ := encode_eq_ok_iff.1 h
  rw [volume, if_pos hs, size_layout]
  exact ⟨rfl, hm⟩

/-- What hinders the writing of a document is its size or one of its texts. -/
theorem error_of_encode {s : Stop EncodeError} (h : d.encode = .error s) :
    s = .error (.documentTooLarge d.volume) ∨ ∃ p ∈ entryPassages d, p.stop? = some s := by
  rw [encode_eq] at h
  cases hs : d.stop? with
  | none =>
    rw [hs] at h
    dsimp only at h
    split at h <;> cases h
    exact .inl (by rw [volume, if_pos hs])
  | some t =>
    rw [hs] at h
    cases h
    exact .inr (List.exists_of_findSome?_eq_some hs)

theorem NulFree.error_of_encode (hd : d.NulFree) {e : EncodeError}
    (h : d.encode = .error (.error e)) : e = .documentTooLarge d.volume := by
  obtain he | ⟨p, hp, he⟩ := Document.error_of_encode h
  · exact Stop.error.inj he
  · exact absurd he (hd p hp e)

/-- Where the program breaks off there is a text of two gigabytes. -/
theorem overflow_of_encode (h : d.encode = .error .overflow) :
    ∃ text, .counted text ∈ entryPassages d ∧ text.utf8ByteSize % 0x100000000 = 0x7fffffff := by
  obtain he | ⟨p, hp, ho⟩ := error_of_encode h
  · cases he
  · obtain ⟨text, rfl, ht⟩ := Passage.eq_of_stop?_eq_overflow ho
    exact ⟨text, hp, ht⟩

end Document

theorem utf8ByteSize_le (s : String) : s.utf8ByteSize ≤ 4 * s.length := by
  have hc (cs : List Char) : cs.utf8Encode.size ≤ 4 * cs.length := by
    induction cs with
    | nil => exact Nat.zero_le _
    | cons c cs ih =>
      have h4 := c.utf8Size_le_four
      rw [List.utf8Encode_cons, ByteArray.size_append, List.utf8Encode_singleton,
        List.size_toByteArray, String.length_utf8EncodeChar, List.length_cons]
      omega
  have hs := hc s.toList
  rwa [String.utf8Encode_toList, String.length_toList] at hs

theorem utf8ByteSize_ofList_replicate (c : Char) (n : Nat) :
    (String.ofList (List.replicate n c)).utf8ByteSize = n * c.utf8Size := by
  rw [String.utf8ByteSize_ofList]
  induction n with
  | zero => rw [Nat.zero_mul, List.replicate_zero, String.utf8Len_nil]
  | succ n ih => rw [List.replicate_succ, String.utf8Len_cons, ih, Nat.succ_mul]

namespace Text.Hex

theorem toList_encode (b : ByteArray) :
    (encode b).toList = b.data.toList.flatMap ofByte := by
  have hf (xs : List UInt8) (s : String) :
      (xs.foldl (fun s x => (s.push (digit (x.toNat / 16))).push (digit (x.toNat % 16)))
        s).toList = s.toList ++ xs.flatMap ofByte := by
    induction xs generalizing s with
    | nil => simp
    | cons x xs ih => rw [List.foldl_cons, ih]; simp [ofByte]
  rw [encode, Bytes.foldl_eq_foldl_toList, hf]
  simp

theorem length_encode (b : ByteArray) : (encode b).length = 2 * b.size := by
  have hl (xs : List UInt8) : (xs.flatMap ofByte).length = 2 * xs.length := by
    induction xs with
    | nil => rfl
    | cons x xs ih =>
      rw [List.flatMap_cons, List.length_append, ih, List.length_cons]
      simp only [ofByte, List.length_cons, List.length_nil]
      omega
  rw [← String.length_toList, toList_encode, hl, Array.length_toList, ByteArray.size_data]

end Text.Hex

namespace WireError

open Document

theorem entryPassages_replyDocument (e : WireError) :
    entryPassages e.replyDocument = [.terminated .key "code", .terminated .key "errmsg",
      .counted e.message, .terminated .key okField] := rfl

theorem nulFree_replyDocument (e : WireError) : e.replyDocument.NulFree := by
  have hk : '\x00' ∉ "code".toList ∧ '\x00' ∉ "errmsg".toList ∧ '\x00' ∉ okField.toList := by
    decide
  rw [NulFree, Passes, entryPassages_replyDocument]
  simpa using hk

/-- Only the message of an error can stop its document. -/
theorem stop?_replyDocument (e : WireError) :
    e.replyDocument.stop? = (Passage.counted e.message).stop? := by
  have h {part : CStringPart} {text : String} (ht : '\x00' ∉ text.toList) :
      (Passage.terminated part text).stop? = none := Passage.stop?_terminated_eq_none.2 ht
  rw [Document.stop?, entryPassages_replyDocument, Passage.firstStop?, List.findSome?_cons,
    h (by decide), List.findSome?_cons, h (by decide), List.findSome?_cons]
  cases (Passage.counted e.message).stop? with
  | some s => rfl
  | none => exact List.findSome?_singleton.trans (h (by decide))

theorem writable_replyDocument_iff {e : WireError} :
    e.replyDocument.Writable ↔ e.message.utf8ByteSize % 0x100000000 ≠ 0x7fffffff := by
  rw [Writable, stop?_replyDocument, Passage.stop?_counted_eq_none]

/-- The document of an error takes as many bytes as its message and forty more. -/
theorem extent_replyDocument (e : WireError) :
    e.replyDocument.extent = e.message.utf8ByteSize + 40 := by
  have h4 : "code".utf8ByteSize = 4 := rfl
  have h6 : "errmsg".utf8ByteSize = 6 := rfl
  have h2 : okField.utf8ByteSize = 2 := rfl
  simp only [replyDocument, extent, entriesExtent, Value.extent, Scalar.extent, h4, h6, h2]
  omega

theorem encode_replyDocument {e : WireError} (h : e.message.utf8ByteSize + 40 ≤ maxDocumentSize) :
    ∃ b, e.replyDocument.encode = .ok b := by
  have hm : maxDocumentSize = 16777216 := rfl
  have hw : e.replyDocument.Writable := writable_replyDocument_iff.2 (by omega)
  refine ⟨_, encode_eq_ok_iff.2 ⟨hw, ?_, rfl⟩⟩
  rwa [extent_replyDocument]

end WireError

namespace Body

theorem size_of_encodeAll {out b : ByteArray} {ds : List (Document String)}
    (h : encodeAll out ds = .ok b) : b.size = out.size + (ds.map Document.volume).sum := by
  induction ds generalizing out with
  | nil =>
    cases h
    rfl
  | cons d ds ih =>
    rw [encodeAll_cons] at h
    split at h
    next c hc =>
      rw [ih h, ByteArray.size_append, (Document.volume_of_encode hc).1, List.map_cons,
        List.sum_cons, Nat.add_assoc]
    next => cases h

theorem error_of_encodeAll {out : ByteArray} {ds : List (Document String)} {s : Stop MessageError}
    (h : encodeAll out ds = .error s) :
    ∃ d ∈ ds, ∃ t, d.encode = .error t ∧ s = t.map .encode := by
  induction ds generalizing out with
  | nil => cases h
  | cons d ds ih =>
    rw [encodeAll_cons] at h
    split at h
    next =>
      obtain ⟨c, hc, he⟩ := ih h
      exact ⟨c, List.mem_cons_of_mem _ hc, he⟩
    next t ht =>
      cases h
      exact ⟨d, List.mem_cons_self, t, ht, rfl⟩

theorem encodeAll_of_forall {ds : List (Document String)} (h : ∀ d ∈ ds, ∃ b, d.encode = .ok b)
    (out : ByteArray) : ∃ b, encodeAll out ds = .ok b := by
  cases he : encodeAll out ds with
  | ok b => exact ⟨b, rfl⟩
  | error s =>
    obtain ⟨d, hd, t, ht, -⟩ := error_of_encodeAll he
    obtain ⟨b, hb⟩ := h d hd
    rw [hb] at ht
    cases ht

end Body

namespace Reply

variable {r : Reply} {d : Document String} {id responseTo : Int32}

def volume (r : Reply) : Nat := (r.documents.map Document.volume).sum

theorem size_of_body {b : ByteArray} (h : r.body = .ok b) : b.size = r.volume + 20 := by
  have hs := Body.size_of_encodeAll h
  have h8 : (Bytes.ofInt64 r.cursorId).size = 8 := Bytes.size_ofUInt64 _
  rw [ByteArray.size_append, ByteArray.size_append, ByteArray.size_append, Bytes.size_ofUInt32,
    h8, Bytes.size_ofInt32, Bytes.size_ofSize] at hs
  rw [hs, volume]
  omega

theorem encode_of_forall (h : ∀ d ∈ r.documents, ∃ b, d.encode = .ok b)
    (hr : r.volume + 36 ≤ maxMessageSize) (id responseTo : Int32) :
    ∃ bytes, r.encode id responseTo = .ok bytes := by
  obtain ⟨c, hc⟩ : ∃ c, r.body = .ok c := Body.encodeAll_of_forall h _
  have hs := size_of_body hc
  refine ⟨Frame.bytes ⟨id, responseTo, .reply, c⟩, ?_⟩
  rw [encode, hc]
  refine mapError_eq_ok_iff.2 (Frame.encode_eq_ok_iff.2 ⟨?_, rfl⟩)
  rw [Frame.length, headerSize]
  dsimp only
  omega

theorem encode_of_documents (hr : r.documents = [d]) {b : ByteArray} (h : d.encode = .ok b)
    (id responseTo : Int32) : ∃ bytes, r.encode id responseTo = .ok bytes := by
  obtain ⟨hv, hm⟩ := Document.volume_of_encode h
  refine encode_of_forall (by rw [hr]; exact List.forall_mem_singleton.2 ⟨b, h⟩) ?_ id responseTo
  rw [volume, hr, List.map_singleton, List.sum_singleton, ← hv, maxMessageSize]
  rw [maxDocumentSize] at hm
  omega

/-- What keeps a reply from being sent is one of its documents, or the size of the whole. -/
theorem error_of_encode {s : Stop MessageError} (h : r.encode id responseTo = .error s) :
    (∃ d ∈ r.documents, ∃ t, d.encode = .error t ∧ s = t.map .encode) ∨
      s = .error (.tooLarge (r.volume + 36)) := by
  cases hb : r.body with
  | error t =>
    rw [encode, hb] at h
    cases h
    exact .inl (Body.error_of_encodeAll hb)
  | ok b =>
    have hs := size_of_body hb
    rw [encode, hb] at h
    change (Frame.encode _).mapError _ = _ at h
    rw [Frame.encode] at h
    split at h
    next =>
      cases h
      right
      rw [Frame.length, headerSize]
      exact congrArg (Stop.error ∘ MessageError.tooLarge) (by dsimp only; omega)
    next => cases h

theorem volume_le {d : Document String} (h : d ∈ r.documents) : d.volume ≤ r.volume :=
  List.single_le_sum (fun _ _ => Nat.zero_le _) _ (List.mem_map_of_mem h)

/-- What keeps a reply without zero bytes from being sent is a size, if it is told. -/
theorem size_of_error {e : MessageError} (hd : ∀ d ∈ r.documents, d.NulFree)
    (h : r.encode id responseTo = .error (.error e)) :
    ∃ n ≤ r.volume + 36, e = .tooLarge n ∨ e = .encode (.documentTooLarge n) := by
  obtain ⟨d, hm, t, ht, hs⟩ | hs := error_of_encode h
  · cases t with
    | overflow => cases hs
    | error e' =>
      cases hs
      have hv := volume_le hm
      exact ⟨d.volume, by omega, .inr (congrArg _ ((hd d hm).error_of_encode ht))⟩
  · cases hs
    exact ⟨_, le_refl _, .inl rfl⟩

theorem overflow_of_encode (h : r.encode id responseTo = .error .overflow) :
    ∃ d ∈ r.documents, d.encode = .error .overflow := by
  obtain ⟨d, hm, t, ht, hs⟩ | hs := error_of_encode h
  · cases t with
    | overflow => exact ⟨d, hm, ht⟩
    | error e => cases hs
  · cases hs

theorem split?_of_encode {bytes : ByteArray} (h : r.encode id responseTo = .ok bytes) :
    ∃ body, r.body = .ok body ∧
      Frame.split? bytes = .ok (some (⟨id, responseTo, .reply, body⟩, ByteArray.empty)) := by
  obtain ⟨b, hb, hf⟩ := exists_of_bind_eq_ok h
  exact ⟨b, hb, Frame.split?_of_encode (mapError_eq_ok_iff.1 hf)⟩

end Reply

namespace Service

theorem length_toString_le {n k : Nat} (hk : 0 < k) (h : n < 10 ^ k) : (toString n).length ≤ k :=
  (Nat.length_repr_le_iff hk).2 h

theorem length_interpolated {s t u : String} {n m : Nat} (hn : n < 10 ^ 20) (hm : m < 10 ^ 20) :
    (toString s ++ toString n ++ toString t ++ toString m ++ toString u).length ≤
      s.length + t.length + u.length + 40 := by
  have h1 := length_toString_le (by decide) hn
  have h2 := length_toString_le (by decide) hm
  rw [String.length_append, String.length_append, String.length_append, String.length_append]
  change s.length + (toString n).length + t.length + (toString m).length + u.length ≤ _
  omega

theorem length_notEncoded {n : Nat} {e : MessageError} (hn : n < 10 ^ 20)
    (he : e = .tooLarge n ∨ e = .encode (.documentTooLarge n)) :
    (notEncoded e).message.length ≤ 150 := by
  have hl : (notEncoded e).message.length = 24 + e.message.length := String.length_append ..
  have hm : e.message.length ≤ 120 := by
    rcases he with rfl | rfl
    · exact (length_interpolated hn (by decide)).trans (by decide)
    · have hc : (MessageError.encode (.documentTooLarge n)).message.length =
          14 + (EncodeError.documentTooLarge n).message.length := String.length_append ..
      have hd : (EncodeError.documentTooLarge n).message.length ≤ 100 :=
        (length_interpolated hn (by decide)).trans (by decide)
      omega
  omega

variable {π : Type} {r : Reply} {responseTo : Int32} {s : ServiceState π}

theorem nextReplyId_encodeReply :
    (encodeReply r responseTo s).2.nextReplyId = s.nextReplyId + 1 := by
  unfold encodeReply
  dsimp only
  split <;> rfl

theorem encodeReply_of_ok {b : ByteArray} (h : r.encode s.nextReplyId responseTo = .ok b) :
    (encodeReply r responseTo s).1 = .ok b := by
  unfold encodeReply
  dsimp only
  rw [h]

theorem encodeReply_of_overflow (h : r.encode s.nextReplyId responseTo = .error .overflow) :
    (encodeReply r responseTo s).1 = .error .overflow := by
  unfold encodeReply
  dsimp only
  rw [h]

theorem encodeReply_of_error {e : MessageError}
    (h : r.encode s.nextReplyId responseTo = .error (.error e)) :
    (encodeReply r responseTo s).1 =
      (Reply.failure (notEncoded e).replyDocument).encode s.nextReplyId responseTo := by
  unfold encodeReply
  dsimp only
  rw [h]

/-- No document that a processor gives has a zero byte where none can be written. -/
structure NulFree {α ρ π : Type} (v : Service α ρ π) : Prop where
  query {x q c s r} (h : (v.processor.query x q c s).1 = .ok r) : ∀ d ∈ r.documents, d.NulFree
  getMore {x q c s r} (h : (v.processor.getMore x q c s).1 = .ok r) : ∀ d ∈ r.documents, d.NulFree
  execute {command x a c s r d} (hc : command ∈ v.registry.commands)
    (h : (v.processor.execute command x a c s).1 = .ok r) (hd : command.result r = .ok d) :
    d.NulFree

end Service

end DocumentServer
