import DocumentServer.Proofs.Keepers
import DocumentServer.Proofs.Reached

namespace DocumentServer

namespace DecodeError

/-- The place that an error names. -/
def offset? : DecodeError → Option Nat
  | invalidLength i _ | invalidTag i _ | invalidUtf8 i | unterminated i | invalidPayload i _ =>
    some i
  | truncatedInput _ _ | lengthMismatch _ _ | nestingTooDeep _ => none

/-- What an error says of the bytes of a document is so. -/
def Holds (b : ByteArray) : DecodeError → Prop
  | truncatedInput _ _ => False
  | lengthMismatch declared consumed =>
    consumed ≠ declared ∧ ∃ levels c due i, Reached b levels c due i ∧
      c.range.start + declared = c.range.stop ∧
      (Bytes.int32 b c.range.start).toInt = declared ∧
      (declared < consumed ∧ Wants b due i (c.range.start + consumed) ∨
        consumed < declared ∧ Ends b due i (c.range.start + consumed))
  | invalidLength offset length =>
    ∃ levels c due least, Reached b levels c due offset ∧ due.least? = some least ∧
      offset + 4 ≤ c.range.stop ∧ (Bytes.int32 b offset).toInt = length ∧ length < least
  | invalidTag offset tag =>
    ∃ levels c, Reached b levels c .element offset ∧ offset < c.range.stop ∧
      Bytes.at0 b offset = tag ∧ tag ≠ 0 ∧ ∀ t : Tag, t.byte ≠ tag
  | unterminated offset =>
    ∃ levels c due, Reached b levels c due offset ∧ due.IsTerminated ∧
      ∀ i, offset ≤ i → i < c.range.stop → Bytes.at0 b i ≠ 0
  | invalidUtf8 offset =>
    ∃ levels c due i j bytes, Reached b levels c due i ∧ i ≤ j ∧ j ≤ c.range.stop ∧
      (due.IsTerminated ∧ offset = i ∧ Grammar.IsTerminated (b.extract i j) bytes ∨
        due.IsCounted ∧ offset = i + 4 ∧ Grammar.IsCounted (b.extract i j) bytes) ∧
      b.extract offset (offset + bytes.size) = bytes ∧ ∀ s : String, s.toUTF8 ≠ bytes
  | invalidPayload offset .stringNotTerminated =>
    ∃ levels c due i n, Reached b levels c due i ∧ due.IsCounted ∧
      (Bytes.int32 b i).toInt = (n : Nat) ∧ 1 ≤ n ∧ offset + 1 = i + 4 + n ∧
      offset < c.range.stop ∧ Bytes.at0 b offset ≠ 0
  | invalidPayload offset (.notBoolean x) =>
    ∃ levels c, Reached b levels c (.payload .boolean) offset ∧ offset < c.range.stop ∧
      Bytes.at0 b offset = x ∧ x ≠ 0 ∧ x ≠ 1
  | nestingTooDeep limit =>
    limit = 100 ∧ ∃ c due i kind, Reached b 100 c due i ∧ due.nested? = some kind

end DecodeError

namespace Read

variable {ε σ α β : Type} {P : ε → Prop} {p : Read ε σ α} {q : α → Read ε σ β} {i : Nat}

/-- From a place on, a step fails with no errors but those of a kind. -/
def FailsWith (P : ε → Prop) (p : Read ε σ α) (i : Nat) : Prop :=
  ∀ s e t, p i s = (.error e, t) → P e

namespace FailsWith

theorem pure (a : α) : FailsWith P (Pure.pure a : Read ε σ α) i :=
  fun _ _ _ h => by cases h

theorem fail {e : ε} (h : P e) : FailsWith P (Read.fail e : Read ε σ α) i := by
  intro _ _ _ he
  cases he
  exact h

theorem offset_bind {q : Nat → Read ε σ β} (h : FailsWith P (q i) i) :
    FailsWith P (Read.offset >>= q) i := h

theorem bind (hp : FailsWith P p i)
    (hq : ∀ a j s t, p i s = (.ok (a, j), t) → FailsWith P (q a) j) :
    FailsWith P (p >>= q) i := by
  intro s e u h
  rw [bind_apply] at h
  cases hs : p i s with
  | mk r t =>
    rw [hs] at h
    cases r with
    | error e' =>
      cases h
      exact hp s e u hs
    | ok a =>
      obtain ⟨a, j⟩ := a
      exact hq a j s t hs t e u h

theorem map {f : α → β} (hp : FailsWith P p i) :
    FailsWith P (p >>= fun a => Pure.pure (f a)) i :=
  hp.bind fun _ _ _ _ _ => .pure _

end FailsWith

end Read

namespace Decode

open Read Grammar DecodeError

variable {σ τ α : Type} {b : ByteArray} {r : Range} {levels n i j l : Nat} {c : Opened} {due : Due}
  {s t : σ}

theorem of_cstring_eq_ok (hi : i ≤ r.stop) (hr : r.stop ≤ b.size) {x : Nat × ByteArray}
    (h : cstring b r i s = (.ok (x, j), t)) :
    x.1 = i ∧ i ≤ j ∧ j ≤ r.stop ∧ Grammar.IsTerminated (b.extract i j) x.2 := by
  obtain ⟨hij, hj, hw⟩ := (reads_cstring r i hi hr s x.2 j).1 ⟨x, t, h, rfl⟩
  refine ⟨?_, hij, hj, hw⟩
  unfold cstring at h
  split at h
  next => cases h; rfl
  next => cases h

theorem of_string_eq_ok (hi : i ≤ r.stop) (hr : r.stop ≤ b.size) {x : Nat × ByteArray}
    (h : string b r i s = (.ok (x, j), t)) :
    x.1 = i + 4 ∧ i ≤ j ∧ j ≤ r.stop ∧ Grammar.IsCounted (b.extract i j) x.2 := by
  obtain ⟨hij, hj, hw⟩ := (reads_string r i hi hr s x.2 j).1 ⟨x, t, h, rfl⟩
  refine ⟨?_, hij, hj, hw⟩
  obtain ⟨⟨_, n⟩, _, _, hl, h⟩ := bind_eq_ok.1 h
  obtain ⟨-, -, -, -, rfl, rfl⟩ := lengthWord_eq_ok.1 hl
  obtain ⟨_, _, _, hs, h⟩ := bind_eq_ok.1 h
  obtain ⟨-, rfl, rfl, rfl⟩ := slice_eq_ok.1 hs
  obtain ⟨_, _, _, ho, h⟩ := bind_eq_ok.1 h
  obtain ⟨rfl, rfl, rfl⟩ := offset_eq_ok.1 ho
  split at h
  next =>
    obtain ⟨rfl, -, -⟩ := pure_eq_ok.1 h
    exact Nat.add_sub_cancel ..
  next => exact (fail_ne_ok h).elim

section Steps

theorem holds_overrun (h : Reached b levels c due i)
    (hj : c.range.stop < j ∧ Wants b due i j ∨ j < c.range.stop ∧ Ends b due i j) (hij : i ≤ j) :
    (overrun c.range j).Holds b := by
  obtain ⟨hs, hi, -⟩ := h.within
  have hc : c.range.start + (j - c.range.start) = j := by omega
  refine ⟨by omega, levels, c, due, i, h, by omega, h.declared, ?_⟩
  rw [hc]
  exact hj.imp (fun hj => ⟨by omega, hj.2⟩) fun hj => ⟨by omega, hj.2⟩

theorem holds_of_wants (h : Reached b levels c due i) (ht : Wants b due i j)
    (hj : c.range.stop < j) : (overrun c.range j).Holds b :=
  holds_overrun h (.inl ⟨hj, ht⟩) (h.within.2.1.trans hj.le)

theorem fails_advance (h : Reached b levels c due i) (ht : Wants b due i (j + n)) :
    FailsWith (Holds b) (advance c.range n : Read DecodeError σ Nat) j := by
  intro s e t he
  unfold advance at he
  split at he
  next hn =>
    cases he
    exact holds_of_wants h ht hn
  next => cases he

theorem fails_word (h : Reached b levels c due i) (ht : Wants b due i (j + n)) {f : Nat → α} :
    FailsWith (Holds b) (advance c.range n >>= fun i => (pure (f i) : Read DecodeError σ α)) j :=
  (fails_advance h ht).map

theorem fails_enter (h : Reached b levels c due i) (ht : Wants b due i (i + n)) :
    FailsWith (Holds b) (enter c.range i n : Read DecodeError σ Range) j := by
  unfold enter
  split
  next hn => exact .fail (holds_of_wants h ht hn)
  next => exact .pure _

theorem fails_close (h : Reached b levels c due i) (he : Ends b due i j) (hij : i ≤ j)
    (hj : j ≤ c.range.stop) :
    FailsWith (Holds b) (close c.range : Read DecodeError σ Unit) j := by
  apply FailsWith.offset_bind
  split
  next hne => exact .fail (holds_overrun h (.inr ⟨lt_of_le_of_ne hj hne, he⟩) hij)
  next => exact .pure _

theorem fails_lengthWord (h : Reached b levels c due i) {least : Nat}
    (hd : due.least? = some least) :
    FailsWith (Holds b) (lengthWord b c.range least : Read DecodeError σ (Nat × Nat)) i := by
  refine FailsWith.offset_bind ((fails_word h (.word hd)).bind fun w j s t hw => ?_)
  obtain ⟨hi, rfl, -, -⟩ := word_eq_ok.1 hw
  split
  next hn => exact .fail ⟨levels, c, due, least, h, hd, hi, rfl, hn⟩
  next => exact .pure _

theorem fails_cstring (h : Reached b levels c due i) (hd : due.IsTerminated) :
    FailsWith (Holds b) (cstring b c.range : Read DecodeError σ (Nat × ByteArray)) i := by
  intro s e t he
  obtain ⟨-, hi, -⟩ := h.within
  unfold cstring at he
  split at he
  next => cases he
  next hz =>
    cases he
    refine ⟨levels, c, due, h, hd, fun j hij hj => ?_⟩
    exact Bytes.findZero?_eq_none_iff.1 hz j hij (by omega)

theorem fails_string (h : Reached b levels c due i) (hd : due.IsCounted) :
    FailsWith (Holds b) (string b c.range : Read DecodeError σ (Nat × ByteArray)) i := by
  refine (fails_lengthWord h hd).bind fun x j s t hx => ?_
  obtain ⟨hi, hn, h1, -, rfl, -⟩ := lengthWord_eq_ok.1 hx
  refine (fails_word h (.counted hd hn h1)).bind fun bytes j s t hb => ?_
  obtain ⟨hj, -, rfl, -⟩ := slice_eq_ok.1 hb
  apply FailsWith.offset_bind
  split
  next => exact .pure _
  next hz =>
    exact .fail ⟨levels, c, due, i, x.2, h, hd, hn, h1, by omega, by omega, hz⟩

theorem fails_nextTag (h : Reached b levels c .element i) :
    FailsWith (Holds b) (nextTag? b c.range : Read DecodeError σ (Option Tag)) i := by
  refine FailsWith.offset_bind ((fails_word h .tag).bind fun x j s t hx => ?_)
  obtain ⟨hi, rfl, rfl, -⟩ := word_eq_ok.1 hx
  split
  next h0 => exact (fails_close h (.terminator h0) (Nat.le_succ i) hi).map
  next h0 =>
    split
    next => exact .pure _
    next ht => exact .fail ⟨levels, c, h, hi, rfl, h0, ofByte?_eq_none ht⟩

theorem fails_boolean (h : Reached b levels c (.payload .boolean) i) :
    FailsWith (Holds b) (boolean b c.range : Read DecodeError σ Bool) i := by
  refine FailsWith.offset_bind ((fails_word h (.payload rfl)).bind fun x j s t hx => ?_)
  obtain ⟨hi, rfl, -, -⟩ := word_eq_ok.1 hx
  split
  next => exact .pure _
  next h0 =>
    split
    next => exact .pure _
    next h1 => exact .fail ⟨levels, c, h, hi, rfl, h0, h1⟩

theorem fails_binary (h : Reached b levels c (.payload .binary) i) :
    FailsWith (Holds b) (binary b c.range : Read DecodeError σ (Scalar τ)) i := by
  refine (fails_lengthWord h rfl).bind fun x j s t hx => ?_
  obtain ⟨-, hn, -, -, rfl, -⟩ := lengthWord_eq_ok.1 hx
  refine (fails_word h .subtype).bind fun subtype j s t hb => ?_
  obtain ⟨-, -, rfl, -⟩ := word_eq_ok.1 hb
  exact (fails_word h (.binary hn)).map

end Steps

section Texts

variable {k : Keeper σ τ}

theorem Stands.extract_eq {x : Nat × ByteArray} (h : Stands b x) :
    b.extract x.1 (x.1 + x.2.size) = x.2 := by
  obtain ⟨hs, hx⟩ := h
  obtain ⟨m, -, hm, hc, -⟩ := (extract_eq_append_one_iff (by omega) (by omega)).1 hx
  obtain rfl : m = x.1 + x.2.size := by omega
  exact hc.symm

theorem fails_keep {isKey likely : Bool} {x : Nat × ByteArray}
    (hx : (∀ s : String, s.toUTF8 ≠ x.2) → (invalidUtf8 x.1).Holds b) :
    FailsWith (Holds b) (keep k isKey likely x) j := by
  intro s e t he
  unfold keep at he
  split at he
  next => cases he
  next hn =>
    cases he
    refine hx fun s hs => ?_
    rw [fromUTF8?_eq_some_iff.2 hs] at hn
    cases hn

theorem fails_terminated (h : Reached b levels c due i) (hd : due.IsTerminated) (isKey : Bool)
    (likely : Nat × ByteArray → Bool) :
    FailsWith (Holds b) (cstring b c.range >>= fun x => keep k isKey (likely x) x) i := by
  obtain ⟨-, hi, hr⟩ := h.within
  refine (fails_cstring h hd).bind fun x j s t hx => fails_keep fun hn => ?_
  obtain ⟨hx1, hij, hj, hw⟩ := of_cstring_eq_ok hi hr hx
  exact ⟨levels, c, due, i, j, x.2, h, hij, hj, .inl ⟨hd, hx1, hw⟩,
    (stands_of_cstring hr hx).extract_eq, hn⟩

theorem fails_text (h : Reached b levels c due i) (hd : due.IsCounted) :
    FailsWith (Holds b) (text k b c.range) i := by
  obtain ⟨-, hi, hr⟩ := h.within
  refine (fails_string h hd).bind fun x j s t hx => fails_keep fun hn => ?_
  obtain ⟨hx1, hij, hj, hw⟩ := of_string_eq_ok hi hr hx
  exact ⟨levels, c, due, i, j, x.2, h, hij, hj, .inr ⟨hd, hx1, hw⟩,
    (stands_of_string hr hx).extract_eq, hn⟩

theorem fails_key {t : Tag} (h : Reached b levels c (.key t) i) :
    FailsWith (Holds b) (key k b c.range) i :=
  fails_terminated h trivial true fun x => x.2.size ≤ likelyKeySize

end Texts

section Containers

variable [HasContent τ] {k : Keeper σ τ} {m : Nat} {β γ : Type}
  {payload : Range → Tag → Read DecodeError σ (Value τ)}

theorem of_reads {f : α → γ} {p : Range → Read DecodeError σ α} {L : ByteArray → γ → Prop}
    {a : α} (h : Reached b levels c due i) (hp : Reads f b p L)
    (ha : p c.range i s = (.ok (a, j), t)) :
    i ≤ j ∧ j ≤ c.range.stop ∧ L (b.extract i j) (f a) := by
  obtain ⟨-, hi, hr⟩ := h.within
  exact (hp c.range i hi hr s (f a) j).1 ⟨a, t, ha, rfl⟩

theorem fails_regex (hk : k.Faithful) (h : Reached b levels c (.payload .regex) i) :
    FailsWith (Holds b) (regex k b c.range) i := by
  rw [regex_eq]
  refine (fails_terminated h trivial false fun _ => false).bind fun p j s t hp => ?_
  obtain ⟨hij, hj, hw⟩ := of_reads h (reads_cstring.keep hk false fun _ => false) hp
  exact (fails_terminated (h.options hij hj hw) trivial false fun _ => true).map

theorem fails_dbPointer (hk : k.Faithful) (h : Reached b levels c (.payload .dbPointer) i) :
    FailsWith (Holds b) (dbPointer k b c.range) i := by
  refine (fails_text h rfl).bind fun space j s t hs => ?_
  obtain ⟨hij, -, hw⟩ := of_reads h (reads_text hk) hs
  exact (fails_word h (.pointer hij hw)).map

/-- Readers of payloads that fail truly at places inside a container. -/
def FailsTruly (b : ByteArray) (levels : Nat) (c : Opened)
    (payload : Range → Tag → Read DecodeError σ (Value τ)) : Prop :=
  ∀ t i, Reached b levels c (.payload t) i → FailsWith (Holds b) (payload c.range t) i

theorem fails_element (hm : levels + m = 100) (hr : ReadsValues b m payload)
    (hp : FailsTruly b levels c payload) (h : Reached b levels c .element i)
    {q : Option Tag → Read DecodeError σ β} {key : Read DecodeError σ α}
    {rest : α → Value τ → Read DecodeError σ β} {a : β} (h0 : q none = pure a)
    (hq : ∀ t, q (some t) = key >>= fun a => payload c.range t >>= rest a)
    (hk : ∀ t j, Reached b levels c (.key t) j → FailsWith (Holds b) key j)
    (hv : ∀ t j a l s u, Reached b levels c (.key t) j → key j s = (.ok (a, l), u) →
      j ≤ l ∧ Reached b levels c (.payload t) l)
    (hrest : ∀ a v l, i < l → Reached b levels c .element l → FailsWith (Holds b) (rest a v) l) :
    FailsWith (Holds b) (nextTag? b c.range >>= q) i := by
  refine (fails_nextTag h).bind fun next j s t hn => ?_
  cases next with
  | none =>
    rw [h0]
    exact .pure _
  | some tag =>
    obtain ⟨hi, ht, rfl⟩ := of_nextTag_eq_some hn
    have hkey := h.tag hi ht
    rw [hq]
    refine (hk tag _ hkey).bind fun name j s t hname => ?_
    obtain ⟨hij, hvalue⟩ := hv tag _ name j s t hkey hname
    refine (hp tag j hvalue).bind fun v l s t hl => ?_
    obtain ⟨hjl, hl, hw⟩ := of_reads hvalue (hr tag) hl
    exact hrest name v l (by omega) (hvalue.payload hm hjl hl hw)

theorem fails_entries (hk : k.Faithful) (hm : levels + m = 100) (hr : ReadsValues b m payload)
    (hp : FailsTruly b levels c payload) (fuel : Nat) (h : Reached b levels c .element i)
    (hf : c.range.stop - i ≤ fuel) (d : Document.Builder τ) :
    FailsWith (Holds b) (entries k b payload c.range fuel d) i := by
  induction fuel generalizing i d with
  | zero => exact FailsWith.offset_bind (.fail (holds_of_wants h .tag (by omega)))
  | succ fuel ih =>
    refine fails_element hm hr hp h rfl (fun _ => rfl) (fun _ _ hkey => fails_key hkey) ?_ ?_
    · intro t j name l s u hkey hname
      obtain ⟨hjl, hl, hw⟩ := of_reads hkey (reads_key hk) hname
      exact ⟨hjl, hkey.key hjl hl hw fun _ => ⟨_, rfl⟩⟩
    · intro name v l hil hl
      have hrest := ih hl (by omega) (d.insert name v)
      exact fun s => hrest (k.drop _ s)

theorem fails_items (hc : c.kind ≠ .document) (hm : levels + m = 100) (hr : ReadsValues b m payload)
    (hp : FailsTruly b levels c payload) (fuel : Nat) (h : Reached b levels c .element i)
    (hf : c.range.stop - i ≤ fuel) (vs : Array (Value τ)) :
    FailsWith (Holds b) (items b payload c.range fuel vs) i := by
  induction fuel generalizing i vs with
  | zero => exact FailsWith.offset_bind (.fail (holds_of_wants h .tag (by omega)))
  | succ fuel ih =>
    refine fails_element hm hr hp h rfl (fun _ => rfl) (fun _ _ hkey => fails_cstring hkey trivial)
      ?_ ?_
    · intro t j name l s u hkey hname
      obtain ⟨hjl, hl, hw⟩ := of_reads hkey reads_cstring hname
      exact ⟨hjl, hkey.key hjl hl hw fun hd => (hc hd).elim⟩
    · intro name v l hil hl
      exact ih hl (by omega) (vs.push v)

theorem least?_of_nested? {kind : Container} (hd : due.nested? = some kind) :
    due.least? = some 5 := by
  cases due with
  | payload t =>
    cases t with
    | document | array => rfl
    | _ => cases hd
  | scope => rfl
  | element | key t | options | code | ending => cases hd

theorem fails_nested {f : Range → Nat → Read DecodeError σ α} {kind : Container}
    (h : Reached b levels c due i) (hd : due.nested? = some kind) (hm : levels < 100)
    (hb : ∀ q : Range, Reached b (levels + 1) ⟨kind, q⟩ .element (i + 4) →
      FailsWith (Holds b) (f q (q.stop - (i + 4))) (i + 4)) :
    FailsWith (Holds b) (nested b c.range f) i := by
  refine (fails_lengthWord h (least?_of_nested? hd)).bind fun x j s t hx => ?_
  obtain ⟨i', n⟩ := x
  obtain ⟨-, hl, h5, hi, rfl, -⟩ := lengthWord_eq_ok.1 hx
  obtain rfl : i' = i := hi
  have ht := Wants.covered (least?_of_nested? hd) le_rfl hl h5
  refine (fails_enter h ht).bind fun q j s t hq => ?_
  obtain ⟨hn, rfl, rfl, -⟩ := enter_eq_ok.1 hq
  exact FailsWith.offset_bind (hb _ (h.nested hd hm hl h5 hn))

theorem fails_codeWithScope (hk : k.Faithful) (hm : levels + m = 100)
    {document : Range → Read DecodeError σ (Document τ)}
    (h : Reached b levels c (.payload .codeWithScope) i)
    (hr : Reads Document.plain b document fun w d => ∃ n, m = n + 1 ∧ Grammar.IsDocument n w d)
    (hd : ∀ (c : Opened) i, Reached b levels c .scope i →
      FailsWith (Holds b) (document c.range) i) :
    FailsWith (Holds b) (codeWithScope k b document c.range) i := by
  refine (fails_lengthWord h rfl).bind fun x j s t hx => ?_
  obtain ⟨i', n⟩ := x
  obtain ⟨-, hl, h14, hi, rfl, -⟩ := lengthWord_eq_ok.1 hx
  obtain rfl : i' = i := hi
  refine (fails_enter h (.covered rfl (by decide) hl h14)).bind fun q j s t hq => ?_
  obtain ⟨hn, rfl, rfl, -⟩ := enter_eq_ok.1 hq
  have hcode := h.codeWithScope hl h14 hn
  refine (fails_text hcode rfl).bind fun code j s t hc => ?_
  obtain ⟨hij, hj, hw⟩ := of_reads hcode (reads_text hk) hc
  have hscope := hcode.code hij hj hw
  refine (hd _ j hscope).bind fun scope l s t hs => ?_
  obtain ⟨hjl, hl, n, rfl, hw⟩ := of_reads hscope hr hs
  exact (fails_close (hscope.scope hm hjl hl hw) .ending le_rfl hl).map

/-- Readers of containers that fail truly while some levels are open. -/
structure FailsInside (b : ByteArray) (levels : Nat) (below : Level σ τ) : Prop where
  document : ∀ c due i, Reached b levels c due i → due.nested? = some .document →
    FailsWith (Holds b) (below.document c.range) i
  array : ∀ c due i, Reached b levels c due i → due.nested? = some .array →
    FailsWith (Holds b) (below.array c.range) i

theorem fails_payload (hk : k.Faithful) (hm : levels + m = 100) {below : Level σ τ}
    (hr : ReadsContainers b m below) (hf : FailsInside b levels below) (c : Opened) :
    FailsTruly b levels c (Decode.payload k b below) := by
  intro t i h
  cases t with
  | double | objectId | datetime | int32 | timestamp | int64 =>
    exact (fails_word h (.payload rfl)).map
  | string | javascript | symbol => exact (fails_text h rfl).map
  | document => exact (hf.document c _ i h rfl).map
  | array => exact (hf.array c _ i h rfl).map
  | binary => exact (fails_binary h).map
  | boolean => exact (fails_boolean h).map
  | regex => exact (fails_regex hk h).map
  | dbPointer => exact (fails_dbPointer hk h).map
  | codeWithScope =>
    exact fails_codeWithScope hk hm h hr.document fun c i h => hf.document c _ i h rfl
  | undefined | null | minKey | maxKey => exact .pure _

theorem fails_level (hk : k.Faithful) (hm : levels + m = 100) :
    FailsInside b levels (level k b m) := by
  induction m generalizing levels with
  | zero =>
    obtain rfl : levels = 100 := hm
    exact ⟨fun c due i h hd => .fail ⟨rfl, c, due, i, _, h, hd⟩,
      fun c due i h hd => .fail ⟨rfl, c, due, i, _, h, hd⟩⟩
  | succ m ih =>
    have hm' : levels + 1 + m = 100 := by omega
    have hp c := fails_payload hk hm' (reads_level hk m) (ih hm') c
    have hr := reads_payload hk (reads_level (b := b) hk m)
    constructor
    · intro c due i h hd
      exact fails_nested (f := fun q size => entries k b _ q size .empty) h hd (by omega)
        fun q hq => fails_entries hk hm' hr (hp _) _ hq le_rfl .empty
    · intro c due i h hd
      exact fails_nested (f := fun q size => items b _ q size #[]) h hd (by omega)
        fun q hq => fails_items (by simp) hm' hr (hp _) _ hq le_rfl #[]

theorem fails_root (hk : k.Faithful) (hl : (Bytes.int32 b 0).toInt = b.size) (h5 : 5 ≤ b.size) :
    FailsWith (Holds b) (root k maxNesting b) 4 := by
  have hr : ReadsContainers b maxNesting (level k b maxNesting) := reads_level hk maxNesting
  have hf : FailsInside b 0 (level k b maxNesting) := fails_level hk rfl
  exact fails_entries hk rfl (reads_payload hk hr) (fails_payload hk rfl hr hf _) _
    (.root hl h5 le_rfl) le_rfl .empty

end Containers

end Decode

namespace DecodeError

open Grammar

variable {b : ByteArray} {i : Nat} {e : DecodeError}

theorem four_le_of_isCounted {w c : ByteArray} (h : IsCounted w c) : 4 ≤ w.size := by
  obtain ⟨l, hl, rfl⟩ := h
  rw [ByteArray.size_append, ByteArray.size_append, hl.1.1]
  omega

theorem offset_le_size (h : e.Holds b) (hi : e.offset? = some i) : i ≤ b.size := by
  cases e with
  | truncatedInput needed available | lengthMismatch declared consumed | nestingTooDeep limit =>
    cases hi
  | invalidLength offset length =>
    cases hi
    obtain ⟨_, _, _, _, h, -⟩ := h
    exact h.le_size
  | invalidTag offset tag =>
    cases hi
    obtain ⟨_, _, h, -⟩ := h
    exact h.le_size
  | unterminated offset =>
    cases hi
    obtain ⟨_, _, _, h, -⟩ := h
    exact h.le_size
  | invalidUtf8 offset =>
    cases hi
    obtain ⟨_, c, _, i, j, bytes, h, hij, hj, hw, -⟩ := h
    have hr := h.within.2.2
    rcases hw with ⟨-, rfl, -⟩ | ⟨-, rfl, hw⟩
    · omega
    · have hs := four_le_of_isCounted hw
      rw [Bytes.size_extract_of_le (hj.trans hr)] at hs
      omega
  | invalidPayload offset fault =>
    cases hi
    cases fault with
    | stringNotTerminated =>
      obtain ⟨_, _, _, _, _, h, -, -, -, -, hlt, -⟩ := h
      exact hlt.le.trans h.within.2.2
    | notBoolean x =>
      obtain ⟨_, _, h, -⟩ := h
      exact h.le_size

end DecodeError

namespace Pool

variable {p : Pool} {strategy : Strategy} {region i n : Nat} {b : ByteArray} {e : DecodeError}

/-- Whatever the strategy, an error of the decoder on a region that declares a length in range says
what is so of the bytes of that length, at a place among them. -/
theorem decode_error_holds (h5 : 5 ≤ n) (hn : i + n ≤ b.size) (hl : (Bytes.int32 b i).toInt = n)
    (h : (p.decode strategy region b i).1 = .error e) :
    e.Holds (b.extract i (i + n)) ∧ ∀ j, e.offset? = some j → j ≤ n := by
  have hs := Bytes.size_extract_add hn
  have hl' : (Bytes.int32 (b.extract i (i + n)) 0).toInt = (b.extract i (i + n)).size := by
    rw [Bytes.int32_extract (by omega) hn, hs, Nat.add_zero, hl]
  rw [decode_fst, Decode.documentAt_of_length h5 hn hl] at h
  have he : e.Holds (b.extract i (i + n)) :=
    Decode.fails_root (faithful_keeper strategy region i) hl' (by rwa [hs]) p e _ (Prod.ext h rfl)
  refine ⟨he, fun j hj => ?_⟩
  rw [← hs]
  exact DecodeError.offset_le_size he hj

theorem decode_error_holds_unterminated :
    let b : ByteArray := ⟨#[9, 16, 0, 0, 0, 3, 97, 0, 8, 0, 0, 0, 16, 98, 98, 98, 0, 9]⟩
    ((empty .always 1).decode .copy 0 b 1).1 = .error (.unterminated 12) ∧
      (DecodeError.unterminated 12).Holds (b.extract 1 17) ∧ 12 ≤ 16 := by
  intro b
  have h : ((empty .always 1).decode .copy 0 b 1).1 = .error (.unterminated 12) := by cbv
  obtain ⟨he, ho⟩ := decode_error_holds (n := 16) (by decide) (by decide) (by decide) h
  exact ⟨h, he, ho 12 rfl⟩

end Pool

end DocumentServer
