import DocumentServer.Message.Body
import DocumentServer.Proofs.Grammar

namespace DocumentServer

open Grammar

namespace Layout

def cstring (s : String) : ByteArray := s.toUTF8 ++ one 0

def string (s : String) : ByteArray := Bytes.ofSize (s.utf8ByteSize + 1) ++ s.toUTF8 ++ one 0

def framed (elements : ByteArray) : ByteArray :=
  Bytes.ofSize (elements.size + minDocumentSize) ++ elements ++ one 0

def withScope (code : String) (scope : ByteArray) : ByteArray :=
  Bytes.ofSize ((string code ++ scope).size + 4) ++ string code ++ scope

end Layout

open Layout

def Scalar.layout : Scalar String → ByteArray
  | double d => Bytes.ofUInt64 d.bits
  | string t | javascript t | symbol t => Layout.string t
  | binary s b => Bytes.ofSize b.size ++ one s ++ b
  | objectId o => o.bytes
  | boolean b => one (if b then 1 else 0)
  | datetime m => Bytes.ofInt64 m
  | regex p o => cstring p ++ cstring o
  | dbPointer s o => Layout.string s ++ o.bytes
  | int32 n => Bytes.ofInt32 n
  | timestamp t => Bytes.ofUInt64 t.raw
  | int64 n => Bytes.ofInt64 n
  | undefined | null | minKey | maxKey => ByteArray.empty

mutual

/-- The bytes of a value, whether they can be written or not. -/
def Value.layout : Value String → ByteArray
  | .scalar s => s.layout
  | .document es => framed (Document.entriesLayout es)
  | .array vs => framed (Value.itemsLayout 0 vs)
  | .codeWithScope c es => withScope c (framed (Document.entriesLayout es))

def Document.entriesLayout : List (String × Value String) → ByteArray
  | [] => ByteArray.empty
  | (k, v) :: es => one v.tag.byte ++ cstring k ++ v.layout ++ Document.entriesLayout es

def Value.itemsLayout (i : Nat) : List (Value String) → ByteArray
  | [] => ByteArray.empty
  | v :: vs => one v.tag.byte ++ cstring (toString i) ++ v.layout ++ Value.itemsLayout (i + 1) vs

end

def Document.layout (d : Document String) : ByteArray := framed (entriesLayout d)

/-- A text in a document, by the way in which it is written. -/
inductive Passage where
  /-- Up to a zero byte. -/
  | terminated (part : CStringPart) (text : String)
  /-- Behind its length. -/
  | counted (text : String)

namespace Passage

/-- What a text stops the writing with. -/
def stop? : Passage → Option (Stop EncodeError)
  | terminated part text =>
    if '\x00' ∈ text.toList then some (.error (.interiorNul part text)) else none
  | counted text => if text.utf8ByteSize % 0x100000000 = 0x7fffffff then some .overflow else none

/-- What the first text stops the writing with that does so at all. -/
def firstStop? (ps : List Passage) : Option (Stop EncodeError) := ps.findSome? stop?

@[simp]
theorem firstStop?_singleton (p : Passage) : firstStop? [p] = p.stop? := List.findSome?_singleton

theorem firstStop?_append (ps qs : List Passage) :
    firstStop? (ps ++ qs) = (firstStop? ps).or (firstStop? qs) := List.findSome?_append

theorem firstStop?_append_eq_none {ps qs : List Passage} :
    firstStop? (ps ++ qs) = none ↔ firstStop? ps = none ∧ firstStop? qs = none := by
  rw [firstStop?_append, Option.or_eq_none_iff]

theorem firstStop?_cons_eq_none {p : Passage} {ps : List Passage} :
    firstStop? (p :: ps) = none ↔ p.stop? = none ∧ firstStop? ps = none := by
  rw [← List.singleton_append, firstStop?_append_eq_none, firstStop?_singleton]

theorem stop?_terminated_eq_none {part : CStringPart} {text : String} :
    (terminated part text).stop? = none ↔ '\x00' ∉ text.toList := by
  simp [stop?]

theorem stop?_counted_eq_none {text : String} :
    (counted text).stop? = none ↔ text.utf8ByteSize % 0x100000000 ≠ 0x7fffffff := by
  simp [stop?]

end Passage

open Passage

namespace Scalar

def passages : Scalar String → List Passage
  | string t | javascript t | symbol t => [.counted t]
  | regex p o => [.terminated .regexPattern p, .terminated .regexOptions o]
  | dbPointer s _ => [.counted s]
  | _ => []

def extent : Scalar String → Nat
  | string t | javascript t | symbol t => t.utf8ByteSize + 5
  | binary _ b => b.size + 5
  | objectId _ => 12
  | boolean _ => 1
  | regex p o => p.utf8ByteSize + 1 + (o.utf8ByteSize + 1)
  | dbPointer s _ => s.utf8ByteSize + 5 + 12
  | int32 _ => 4
  | double _ | datetime _ | timestamp _ | int64 _ => 8
  | undefined | null | minKey | maxKey => 0

end Scalar

mutual

def Value.passages : Value String → List Passage
  | .scalar s => s.passages
  | .document es => Document.entryPassages es
  | .array vs => Value.itemPassages vs
  | .codeWithScope c es => .counted c :: Document.entryPassages es

def Document.entryPassages : List (String × Value String) → List Passage
  | [] => []
  | (k, v) :: es => .terminated .key k :: (v.passages ++ Document.entryPassages es)

def Value.itemPassages : List (Value String) → List Passage
  | [] => []
  | v :: vs => v.passages ++ Value.itemPassages vs

end

mutual

def Value.extent : Value String → Nat
  | .scalar s => s.extent
  | .document es => Document.entriesExtent es + 5
  | .array vs => Value.itemsExtent 0 vs + 5
  | .codeWithScope c es => c.utf8ByteSize + 5 + (Document.entriesExtent es + 5) + 4

def Document.entriesExtent : List (String × Value String) → Nat
  | [] => 0
  | (k, v) :: es => 1 + (k.utf8ByteSize + 1 + (v.extent + Document.entriesExtent es))

def Value.itemsExtent (i : Nat) : List (Value String) → Nat
  | [] => 0
  | v :: vs =>
    1 + ((toString i).utf8ByteSize + (1 + (v.extent + Value.itemsExtent (i + 1) vs)))

end

namespace Document

/-- What stops the writing of a document, its size apart. -/
def stop? (d : Document String) : Option (Stop EncodeError) := firstStop? (entryPassages d)

def extent (d : Document String) : Nat := entriesExtent d + 5

end Document

namespace Layout

theorem size_cstring (s : String) : (cstring s).size = s.utf8ByteSize + 1 :=
  ByteArray.size_append

theorem size_string (s : String) : (string s).size = s.utf8ByteSize + 5 := by
  have hs : s.toUTF8.size = s.utf8ByteSize := rfl
  rw [string, ByteArray.size_append, ByteArray.size_append, Bytes.size_ofSize, size_one, hs]
  omega

theorem size_framed (u : ByteArray) : (framed u).size = u.size + 5 := by
  rw [framed, ByteArray.size_append, ByteArray.size_append, Bytes.size_ofSize, size_one]
  omega

theorem size_withScope (c : String) (w : ByteArray) :
    (withScope c w).size = (string c ++ w).size + 4 := by
  rw [withScope, ByteArray.append_assoc, ByteArray.size_append, Bytes.size_ofSize, Nat.add_comm]

end Layout

theorem Scalar.size_layout (s : Scalar String) : s.layout.size = s.extent := by
  cases s with
  | double _ | datetime _ | timestamp _ | int64 _ => exact Bytes.size_ofUInt64 _
  | int32 _ => exact Bytes.size_ofInt32 _
  | string t | javascript t | symbol t => exact size_string t
  | objectId o => exact o.size_eq
  | boolean v => exact size_one _
  | binary t b =>
    rw [layout, extent, ByteArray.size_append, ByteArray.size_append, Bytes.size_ofSize, size_one]
    omega
  | regex u o => rw [layout, extent, ByteArray.size_append, size_cstring, size_cstring]
  | dbPointer t o => rw [layout, extent, ByteArray.size_append, size_string, o.size_eq]
  | undefined | null | minKey | maxKey => rfl

mutual

theorem Value.size_layout (v : Value String) : v.layout.size = v.extent := by
  match v with
  | .scalar s => rw [Value.layout, Value.extent, s.size_layout]
  | .document es => rw [Value.layout, Value.extent, size_framed, Document.size_entriesLayout]
  | .array vs => rw [Value.layout, Value.extent, size_framed, Value.size_itemsLayout]
  | .codeWithScope c es =>
    rw [Value.layout, Value.extent, size_withScope, ByteArray.size_append, size_string, size_framed,
      Document.size_entriesLayout]

theorem Document.size_entriesLayout (es : List (String × Value String)) :
    (Document.entriesLayout es).size = Document.entriesExtent es := by
  match es with
  | [] => rw [Document.entriesLayout, Document.entriesExtent, ByteArray.size_empty]
  | (k, v) :: es =>
    rw [Document.entriesLayout, Document.entriesExtent, ByteArray.size_append,
      ByteArray.size_append, ByteArray.size_append, size_one, size_cstring, v.size_layout,
      Document.size_entriesLayout es]
    omega

theorem Value.size_itemsLayout (i : Nat) (vs : List (Value String)) :
    (Value.itemsLayout i vs).size = Value.itemsExtent i vs := by
  match vs with
  | [] => rw [Value.itemsLayout, Value.itemsExtent, ByteArray.size_empty]
  | v :: vs =>
    rw [Value.itemsLayout, Value.itemsExtent, ByteArray.size_append, ByteArray.size_append,
      ByteArray.size_append, size_one, size_cstring, v.size_layout,
      Value.size_itemsLayout (i + 1) vs]
    omega

end

theorem Document.size_layout (d : Document String) : d.layout.size = d.extent := by
  rw [layout, size_framed, size_entriesLayout, extent]

namespace Grammar

theorem push_eq_append (b : ByteArray) (x : UInt8) : b.push x = b ++ one x :=
  ByteArray.append_toByteArray_singleton.symm

theorem zero_ne_or {x y : UInt8} (h : y ≠ 0) : 0 ≠ x ||| y :=
  fun he => h (UInt8.or_eq_zero_iff.1 he.symm).2

theorem zero_mem_utf8EncodeChar_iff {c : Char} : 0 ∈ String.utf8EncodeChar c ↔ c = '\x00' := by
  rcases c.utf8Size_eq with h | h | h | h
  · rw [String.utf8EncodeChar_eq_singleton h, List.mem_singleton]
    have hv : c.val.toNat ≤ 127 := UInt32.le_iff_toNat_le.1 (Char.utf8Size_eq_one_iff.1 h)
    constructor
    · intro h0
      have hc : c.val.toNat % 256 = 0 := by
        rw [← UInt32.toNat_toUInt8, ← h0]
        rfl
      rw [Nat.mod_eq_of_lt (by omega)] at hc
      exact Char.ext (UInt32.toNat_inj.1 hc)
    · rintro rfl
      rfl
  -- longer codes have their highest bits set
  all_goals
    have hc : c ≠ '\x00' := by
      rintro rfl
      cases h
  · simp [String.utf8EncodeChar_eq_cons_cons h, hc, zero_ne_or]
  · simp [String.utf8EncodeChar_eq_cons_cons_cons h, hc, zero_ne_or]
  · simp [String.utf8EncodeChar_eq_cons_cons_cons_cons h, hc, zero_ne_or]

theorem zero_mem_toUTF8_iff {s : String} : 0 ∈ s.toUTF8.data ↔ '\x00' ∈ s.toList := by
  have hs : s.toUTF8 = s.toList.utf8Encode := String.utf8Encode_toList.symm
  rw [hs]
  simp [List.utf8Encode, zero_mem_utf8EncodeChar_iff]

end Grammar

theorem Bytes.copySlice_between {w x : ByteArray} (hw : w.size = 4) (hx : x.size = 4)
    (b c : ByteArray) : w.copySlice 0 (b ++ x ++ c) b.size 4 = b ++ w ++ c := by
  have hb : (b ++ x ++ c).extract 0 b.size = b := by
    rw [ByteArray.append_assoc]
    exact ByteArray.extract_append_eq_left rfl
  have hc : (b ++ x ++ c).extract (b.size + 4) (b ++ x ++ c).size = c := by
    apply ByteArray.extract_append_eq_right
    · rw [ByteArray.size_append, hx]
    · rw [ByteArray.size_append]
  have h4 : w.extract 0 4 = w := by
    rw [← hw]
    exact ByteArray.extract_zero_size
  rw [ByteArray.copySlice_eq_append, Nat.zero_add, h4, ByteArray.size_data, ByteArray.size_data,
    hw, Nat.sub_zero, Nat.min_self, hb, hc]

namespace Appending

variable {p q : Appending Unit} {ps qs : List Passage} {b c u : ByteArray} {s : Stop EncodeError}

theorem measured_of_ok (h : p (b ++ Bytes.ofSize 0) = (.ok (), b ++ Bytes.ofSize 0 ++ c)) :
    measured p b = (.ok (c.size + 4), b ++ (Bytes.ofSize (c.size + 4) ++ c)) := by
  have hs : (b ++ Bytes.ofSize 0 ++ c).size - b.size = c.size + 4 := by
    rw [ByteArray.size_append, ByteArray.size_append, Bytes.size_ofSize]
    omega
  simp only [measured, bind_apply, reserve, h, patch, hs]
  rw [Bytes.copySlice_between (Bytes.size_ofSize _) (Bytes.size_ofSize _), ByteArray.append_assoc]

theorem measured_of_error (h : p (b ++ Bytes.ofSize 0) = (.error s, c)) :
    measured p b = (.error s, c) := by
  simp only [measured, bind_apply, reserve, h]

theorem framed_of_ok (h : p (b ++ Bytes.ofSize 0) = (.ok (), b ++ Bytes.ofSize 0 ++ c)) :
    framed p b = (.ok (c.size + 5), b ++ Layout.framed c) := by
  have hp : (do p; byte 0) (b ++ Bytes.ofSize 0) =
      (.ok (), b ++ Bytes.ofSize 0 ++ (c ++ one 0)) := by
    simp only [bind_apply, h, byte, push_eq_append, ByteArray.append_assoc]
  have hs : (c ++ one 0).size = c.size + 1 := ByteArray.size_append
  rw [framed, measured_of_ok hp, hs, Layout.framed, minDocumentSize, ByteArray.append_assoc]

theorem framed_of_error (h : p (b ++ Bytes.ofSize 0) = (.error s, c)) :
    framed p b = (.error s, c) := by
  have hp : (do p; byte 0) (b ++ Bytes.ofSize 0) = (.error s, c) := by simp only [bind_apply, h]
  rw [framed, measured_of_error hp]

theorem discard_apply {α : Type} (x : Appending α) (b : ByteArray) :
    discard x b =
      match x b with
      | (.ok _, c) => (.ok (), c)
      | (.error s, c) => (.error s, c) := rfl

/-- What some steps do to a buffer: the first of the texts that stops them decides, and if there is
none, they add the bytes `u`. -/
structure Adds (p : Appending Unit) (ps : List Passage) (u : ByteArray) : Prop where
  through (h : firstStop? ps = none) (b : ByteArray) : p b = (.ok (), b ++ u)
  stopped {s : Stop EncodeError} (h : firstStop? ps = some s) (b : ByteArray) :
    ∃ c, p b = (.error s, b ++ c)

namespace Adds

theorem of_through (hs : firstStop? ps = none) (hp : ∀ b, p b = (.ok (), b ++ u)) :
    Adds p ps u where
  through _ := hp
  stopped h := by
    rw [hs] at h
    cases h

theorem of_stopped (hs : firstStop? ps = some s) (hp : ∀ b, p b = (.error s, b)) :
    Adds p ps u where
  through h := by
    rw [hs] at h
    cases h
  stopped h b := by
    rw [hs] at h
    cases h
    exact ⟨ByteArray.empty, by rw [hp, ByteArray.append_empty]⟩

theorem bytes (u : ByteArray) : Adds (bytes u) [] u := of_through rfl fun _ => rfl

theorem byte (x : UInt8) : Adds (byte x) [] (one x) :=
  of_through rfl fun b => congrArg _ (push_eq_append b x)

theorem nothing : Adds (pure ()) [] ByteArray.empty :=
  of_through rfl fun b => by
    rw [ByteArray.append_empty]
    rfl

theorem seq {w : ByteArray} (hp : Adds p ps u) (hq : Adds q qs w) :
    Adds (do p; q) (ps ++ qs) (u ++ w) where
  through h b := by
    rw [firstStop?_append_eq_none] at h
    rw [bind_apply, hp.through h.1, ← ByteArray.append_assoc]
    exact hq.through h.2 _
  stopped {s} h b := by
    rw [firstStop?_append] at h
    cases hs : firstStop? ps with
    | none =>
      rw [hs, Option.none_or] at h
      obtain ⟨d, hd⟩ := hq.stopped h (b ++ u)
      exact ⟨u ++ d, by rw [bind_apply, hp.through hs, ← ByteArray.append_assoc]; exact hd⟩
    | some t =>
      rw [hs, Option.some_or, Option.some_inj] at h
      obtain ⟨c, hc⟩ := hp.stopped hs b
      exact ⟨c, by rw [bind_apply, hc, h]⟩

theorem cstring (part : CStringPart) (text : String) :
    Adds (cstring part text) [.terminated part text] (Layout.cstring text) := by
  have hz : Bytes.hasZero text.toUTF8 = false ↔ '\x00' ∉ text.toList := by
    rw [Bytes.hasZero_eq_false_iff, zero_mem_toUTF8_iff]
  by_cases h : '\x00' ∈ text.toList
  · have hb : Bytes.hasZero text.toUTF8 = true := by simpa [h] using hz
    refine of_stopped (s := .error (.interiorNul part text)) (by simp [stop?, h]) fun b => ?_
    rw [Appending.cstring, if_pos hb]
    rfl
  · have hb : ¬Bytes.hasZero text.toUTF8 = true := by simpa [h] using hz
    refine of_through (by simp [stop?, h]) fun b => ?_
    rw [Appending.cstring, if_neg hb, Layout.cstring, ← ByteArray.append_assoc, ← push_eq_append]
    rfl

theorem string (text : String) : Adds (string text) [.counted text] (Layout.string text) := by
  by_cases h : text.utf8ByteSize % 0x100000000 = 0x7fffffff
  · refine of_stopped (s := .overflow) (by simp [stop?, h]) fun b => ?_
    rw [Appending.string, if_pos h]
    rfl
  · refine of_through (by simp [stop?, h]) fun b => ?_
    rw [Appending.string, if_neg h, Layout.string, ← ByteArray.append_assoc,
      ← ByteArray.append_assoc, ← push_eq_append]
    rfl

/-- The length word counts what the steps add and itself. -/
theorem measured (hp : Adds p ps u) :
    Adds (discard (measured p)) ps (Bytes.ofSize (u.size + 4) ++ u) where
  through h b := by
    rw [discard_apply, measured_of_ok (hp.through h _)]
  stopped h b := by
    obtain ⟨c, hc⟩ := hp.stopped h (b ++ Bytes.ofSize 0)
    exact ⟨Bytes.ofSize 0 ++ c, by
      rw [discard_apply, measured_of_error hc, ByteArray.append_assoc]⟩

theorem framed (hp : Adds p ps u) : Adds (discard (framed p)) ps (Layout.framed u) where
  through h b := by
    rw [discard_apply, framed_of_ok (hp.through h _)]
  stopped h b := by
    obtain ⟨c, hc⟩ := hp.stopped h (b ++ Bytes.ofSize 0)
    exact ⟨Bytes.ofSize 0 ++ c, by
      rw [discard_apply, framed_of_error hc, ByteArray.append_assoc]⟩

theorem withScope (hp : Adds p ps u) (code : String) :
    Adds (withScope code p) (.counted code :: ps) (Layout.withScope code (Layout.framed u)) := by
  have h := ((string code).seq hp.framed).measured
  rwa [← ByteArray.append_assoc] at h

theorem scalar (s : Scalar String) : Adds s.append s.passages s.layout := by
  cases s with
  | double _ | datetime _ | timestamp _ | int64 _ | int32 _ | objectId _ => exact bytes _
  | string t | javascript t | symbol t => exact string t
  | boolean v => exact byte _
  | binary t b =>
    have h := (bytes (Bytes.ofSize b.size)).seq ((byte t).seq (bytes b))
    rwa [← ByteArray.append_assoc] at h
  | regex u o => exact (cstring .regexPattern u).seq (cstring .regexOptions o)
  | dbPointer t o => exact (string t).seq (bytes o.bytes)
  | undefined | null | minKey | maxKey => exact nothing

mutual

theorem value (v : Value String) : Adds v.append v.passages v.layout := by
  match v with
  | .scalar s =>
    rw [Value.append, Value.passages, Value.layout]
    exact scalar s
  | .document es =>
    rw [Value.append, Value.passages, Value.layout]
    exact (entries es).framed
  | .array vs =>
    rw [Value.append, Value.passages, Value.layout]
    exact (items 0 vs).framed
  | .codeWithScope c es =>
    rw [Value.append, Value.passages, Value.layout]
    exact (entries es).withScope c

theorem entries (es : List (String × Value String)) :
    Adds (Document.appendEntries es) (Document.entryPassages es) (Document.entriesLayout es) := by
  match es with
  | [] =>
    rw [Document.appendEntries, Document.entryPassages, Document.entriesLayout]
    exact nothing
  | (k, v) :: es =>
    rw [Document.appendEntries, Document.entryPassages, Document.entriesLayout,
      ByteArray.append_assoc, ByteArray.append_assoc]
    exact (byte v.tag.byte).seq ((cstring .key k).seq ((value v).seq (entries es)))

theorem items (i : Nat) (vs : List (Value String)) :
    Adds (Value.appendItems i vs) (Value.itemPassages vs) (Value.itemsLayout i vs) := by
  match vs with
  | [] =>
    rw [Value.appendItems, Value.itemPassages, Value.itemsLayout]
    exact nothing
  | v :: vs =>
    rw [Value.appendItems, Value.itemPassages, Value.itemsLayout, Layout.cstring,
      ByteArray.append_assoc, ByteArray.append_assoc, ByteArray.append_assoc]
    exact (byte v.tag.byte).seq ((bytes (toString i).toUTF8).seq
      ((byte 0).seq ((value v).seq (items (i + 1) vs))))

end

end Adds

end Appending

namespace Document

variable {d : Document String}

theorem encodeOnto_of_none (h : d.stop? = none) (b : ByteArray) :
    encodeOnto b d =
      if d.extent > maxDocumentSize then (.error (.error (.documentTooLarge d.extent)), b)
      else (.ok d.extent, b ++ d.layout) := by
  have hp := Appending.framed_of_ok ((Appending.Adds.entries d).through h (b ++ Bytes.ofSize 0))
  have hb (c : ByteArray) : (b ++ c).extract 0 b.size = b := ByteArray.extract_append_eq_left rfl
  rw [size_entriesLayout] at hp
  rw [encodeOnto, hp, extent]
  dsimp only
  rw [hb, layout]

theorem encodeOnto_of_error {e : EncodeError} (h : d.stop? = some (.error e)) (b : ByteArray) :
    encodeOnto b d = (.error (.error e), b) := by
  obtain ⟨c, hc⟩ := (Appending.Adds.entries d).stopped h (b ++ Bytes.ofSize 0)
  rw [encodeOnto, Appending.framed_of_error hc]
  dsimp only
  rw [ByteArray.append_assoc]
  exact congrArg _ (ByteArray.extract_append_eq_left rfl)

/-- What was written before a break-off stays in the buffer. -/
theorem encodeOnto_of_overflow (h : d.stop? = some .overflow) (b : ByteArray) :
    ∃ c, encodeOnto b d = (.error .overflow, b ++ c) := by
  obtain ⟨c, hc⟩ := (Appending.Adds.entries d).stopped h (b ++ Bytes.ofSize 0)
  refine ⟨Bytes.ofSize 0 ++ c, ?_⟩
  rw [encodeOnto, Appending.framed_of_error hc, ByteArray.append_assoc]

/-- The text that stops a document first decides what comes of it, before its size does. -/
theorem encode_eq (d : Document String) :
    d.encode = match d.stop? with
      | some s => .error s
      | none =>
        if d.extent > maxDocumentSize then .error (.error (.documentTooLarge d.extent))
        else .ok d.layout := by
  match h : d.stop? with
  | none =>
    rw [encode, encodeOnto_of_none h, ByteArray.empty_append]
    by_cases hs : d.extent > maxDocumentSize
    · rw [if_pos hs, if_pos hs]
    · rw [if_neg hs, if_neg hs]
  | some (.error e) => rw [encode, encodeOnto_of_error h]
  | some .overflow =>
    obtain ⟨c, hc⟩ := encodeOnto_of_overflow h ByteArray.empty
    rw [encode, hc]

theorem encode_eq_ok_iff {b : ByteArray} :
    d.encode = .ok b ↔ d.stop? = none ∧ d.extent ≤ maxDocumentSize ∧ d.layout = b := by
  rw [encode_eq]
  cases d.stop? with
  | some s => simp
  | none =>
    dsimp only
    split
    next h => simp [Nat.not_le.2 h]
    next h => simp [Nat.not_lt.1 h]

theorem encodeOnto_of_ok {w : ByteArray} (h : d.encode = .ok w) (b : ByteArray) :
    encodeOnto b d = (.ok w.size, b ++ w) := by
  obtain ⟨hs, hm, rfl⟩ := encode_eq_ok_iff.1 h
  rw [encodeOnto_of_none hs, if_neg (Nat.not_lt.2 hm), size_layout]

theorem encodeOnto_fst_of_error {s : Stop EncodeError} (h : d.encode = .error s) (b : ByteArray) :
    (encodeOnto b d).1 = .error s := by
  rw [encode_eq] at h
  match hs : d.stop? with
  | none =>
    rw [hs] at h
    rw [encodeOnto_of_none hs]
    dsimp only at h
    split at h
    next hm =>
      cases h
      rw [if_pos hm]
    next => cases h
  | some (.error e) =>
    rw [hs] at h
    cases h
    rw [encodeOnto_of_error hs]
  | some .overflow =>
    rw [hs] at h
    cases h
    obtain ⟨c, hc⟩ := encodeOnto_of_overflow hs b
    rw [hc]

end Document

theorem Body.encodeAll_cons (out : ByteArray) (d : Document String) (ds : List (Document String)) :
    encodeAll out (d :: ds) = match d.encode with
      | .ok b => encodeAll (out ++ b) ds
      | .error s => .error (s.map .encode) := by
  rw [encodeAll]
  cases h : d.encode with
  | ok b => rw [Document.encodeOnto_of_ok h]
  | error s =>
    have hs := Document.encodeOnto_fst_of_error h out
    split
    next he => rw [he] at hs; cases hs
    next he => rw [he] at hs; cases hs; rfl

end DocumentServer
