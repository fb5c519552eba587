import DocumentServer.Message.Frame
import DocumentServer.Proofs.Bytes

namespace DocumentServer

variable {b x : ByteArray}

namespace Opcode

theorem number_of_ofNumber? {n : Int} {op : Opcode} (h : ofNumber? n = some op) :
    (op.number : Int) = n := by
  simpa using List.find?_some h

theorem number_lt (op : Opcode) : op.number < 0x80000000 := by
  cases op <;> decide

end Opcode

namespace Frame

def bytes (f : Frame) : ByteArray := f.header ++ f.body

theorem size_header (f : Frame) : f.header.size = headerSize := by
  simp only [header, ByteArray.size_append, Bytes.size_ofSize, Bytes.size_ofInt32, headerSize]

theorem size_bytes (f : Frame) : f.bytes.size = f.length := by
  rw [bytes, ByteArray.size_append, size_header, length]

theorem header_words (f : Frame) (hf : f.length < 0x80000000) (rest : ByteArray) :
    (Bytes.int32 (f.header ++ rest) 0).toInt = f.length ∧
      Bytes.int32 (f.header ++ rest) 4 = f.requestId ∧
      Bytes.int32 (f.header ++ rest) 8 = f.responseTo ∧
      (Bytes.int32 (f.header ++ rest) 12).toInt = f.opcode.number := by
  have h4 := Bytes.size_ofSize f.length
  have h8 : (Bytes.ofSize f.length ++ Bytes.ofInt32 f.requestId).size = 8 := by
    rw [ByteArray.size_append, h4, Bytes.size_ofInt32]
  have h12 : (Bytes.ofSize f.length ++ Bytes.ofInt32 f.requestId ++
      Bytes.ofInt32 f.responseTo).size = 12 := by
    rw [ByteArray.size_append, h8, Bytes.size_ofInt32]
  have h16 : f.header.size = 16 := size_header f
  have hl (i : Nat) (hi : i + 4 ≤ 16) :
      Bytes.int32 (f.header ++ rest) i = Bytes.int32 f.header i :=
    Bytes.int32_append_left (by omega)
  rw [hl 0 (by decide), hl 4 (by decide), hl 8 (by decide), hl 12 (by decide), header]
  refine ⟨?_, ?_, ?_, ?_⟩
  · rw [Bytes.int32_append_left (by omega), Bytes.int32_append_left (by omega),
      Bytes.int32_append_left (by omega), Bytes.toInt_int32_ofSize hf]
  · rw [Bytes.int32_append_left (by omega), Bytes.int32_append_left (by omega),
      Bytes.int32_append_right h4, Bytes.int32_ofInt32]
  · rw [Bytes.int32_append_left (by omega), Bytes.int32_append_right h8, Bytes.int32_ofInt32]
  · rw [Bytes.int32_append_right h12, Bytes.toInt_int32_ofSize f.opcode.number_lt]

def BadLength (n : Int) : Prop := n < headerSize ∨ n > maxMessageSize

instance (n : Int) : Decidable (BadLength n) := inferInstanceAs (Decidable (_ ∨ _))

/-- What can be said of a buffer: it is too short for a verdict, its length or its opcode is not one
of a frame, or there is a frame at its front. -/
inductive Verdict (b : ByteArray) : Except MessageError (Option (Frame × ByteArray)) → Prop
  | noLength (hs : b.size < 4) : Verdict b (.ok none)
  | badLength (hs : 4 ≤ b.size) (hl : BadLength (Bytes.int32 b 0).toInt) :
      Verdict b (.error (.invalidLength (Bytes.int32 b 0).toInt))
  | noOpcode (hs : b.size < headerSize) (hl : ¬BadLength (Bytes.int32 b 0).toInt) :
      Verdict b (.ok none)
  | badOpcode (hs : headerSize ≤ b.size) (hl : ¬BadLength (Bytes.int32 b 0).toInt)
      (ho : Opcode.ofNumber? (Bytes.int32 b 12).toInt = none) :
      Verdict b (.error (.unknownOpcode (Bytes.int32 b 12).toInt))
  | incomplete (hs : (b.size : Int) < (Bytes.int32 b 0).toInt) : Verdict b (.ok none)
  | frame (op : Opcode) (hs : (Bytes.int32 b 0).toInt ≤ b.size)
      (hl : ¬BadLength (Bytes.int32 b 0).toInt)
      (ho : Opcode.ofNumber? (Bytes.int32 b 12).toInt = some op) :
      Verdict b (.ok (some (⟨Bytes.int32 b 4, Bytes.int32 b 8, op,
        b.extract headerSize (Bytes.int32 b 0).toInt.toNat⟩,
        b.extract (Bytes.int32 b 0).toInt.toNat b.size)))

theorem split?_of_badLength (hs : 4 ≤ b.size) (hl : BadLength (Bytes.int32 b 0).toInt) :
    split? b = .error (.invalidLength (Bytes.int32 b 0).toInt) := by
  rw [split?, if_neg (by omega)]
  exact if_pos hl

theorem split?_of_header (hs : headerSize ≤ b.size) (hl : ¬BadLength (Bytes.int32 b 0).toInt) :
    split? b = match Opcode.ofNumber? (Bytes.int32 b 12).toInt with
      | none => .error (.unknownOpcode (Bytes.int32 b 12).toInt)
      | some op =>
        if b.size < (Bytes.int32 b 0).toInt.toNat then .ok none
        else .ok (some (⟨Bytes.int32 b 4, Bytes.int32 b 8, op,
          b.extract headerSize (Bytes.int32 b 0).toInt.toNat⟩,
          b.extract (Bytes.int32 b 0).toInt.toNat b.size)) := by
  have h4 : ¬b.size < 4 := by simp only [headerSize] at hs; omega
  rw [split?, if_neg h4]
  exact (if_neg hl).trans (if_neg (by omega))

theorem verdict_split? (b : ByteArray) : Verdict b (split? b) := by
  by_cases h4 : b.size < 4
  · rw [split?, if_pos h4]
    exact .noLength h4
  by_cases hl : BadLength (Bytes.int32 b 0).toInt
  · rw [split?_of_badLength (by omega) hl]
    exact .badLength (by omega) hl
  by_cases h16 : b.size < headerSize
  · have he : split? b = .ok none := by
      rw [split?, if_neg h4]
      exact (if_neg hl).trans (if_pos h16)
    rw [he]
    exact .noOpcode h16 hl
  rw [split?_of_header (by omega) hl]
  cases ho : Opcode.ofNumber? (Bytes.int32 b 12).toInt with
  | none => exact .badOpcode (by omega) hl ho
  | some op =>
    dsimp only
    split
    · exact .incomplete (by omega)
    · exact .frame op (by omega) hl ho

theorem split?_eq_frame_iff {f : Frame} {rest : ByteArray} :
    split? b = .ok (some (f, rest)) ↔ b = f.bytes ++ rest ∧ f.length ≤ maxMessageSize := by
  constructor
  · intro h
    have hv := verdict_split? b
    rw [h] at hv
    cases hv with
    | frame op hs hl ho =>
      simp only [BadLength, headerSize, maxMessageSize] at hl
      have hn : ((Bytes.int32 b 0).toInt.toNat : Int) = (Bytes.int32 b 0).toInt := by omega
      have hb : (b.extract headerSize (Bytes.int32 b 0).toInt.toNat).size + headerSize =
          (Bytes.int32 b 0).toInt.toNat := by
        rw [Bytes.size_extract_of_le (by omega), headerSize]
        omega
      refine ⟨?_, by simp only [length, maxMessageSize]; omega⟩
      have hw : Bytes.ofSize (headerSize +
          (b.extract headerSize (Bytes.int32 b 0).toInt.toNat).size) = b.extract 0 4 := by
        rw [Nat.add_comm, hb, Bytes.ofSize_eq_ofInt32 hn.symm, Bytes.ofInt32_int32 (by omega)]
      simp only [bytes, header, length, hw]
      rw [Bytes.ofInt32_int32 (by omega), Bytes.ofInt32_int32 (by omega),
        Bytes.ofSize_eq_ofInt32 (Opcode.number_of_ofNumber? ho).symm,
        Bytes.ofInt32_int32 (by omega), headerSize,
        Bytes.extract_append_extract_of_le (by omega) (by omega),
        Bytes.extract_append_extract_of_le (by omega) (by omega),
        Bytes.extract_append_extract_of_le (by omega) (by omega),
        Bytes.extract_append_extract_of_le (by omega) (by omega),
        Bytes.extract_append_extract_of_le (by omega) (by omega), ByteArray.extract_zero_size]
  · rintro ⟨rfl, hf⟩
    have hle : headerSize ≤ f.length := Nat.le_add_right _ _
    simp only [maxMessageSize] at hf
    have hm : f.length < 0x80000000 := by omega
    have ha : f.bytes ++ rest = f.header ++ (f.body ++ rest) := by
      rw [bytes, ByteArray.append_assoc]
    obtain ⟨h0, h4, h8, h12⟩ := header_words f hm (f.body ++ rest)
    rw [← ha] at h0 h4 h8 h12
    have hs : (f.bytes ++ rest).size = f.length + rest.size := by
      rw [ByteArray.size_append, size_bytes]
    have hbody : (f.bytes ++ rest).extract headerSize f.length = f.body := by
      rw [Bytes.extract_append_of_le (by rw [size_bytes]), bytes]
      exact ByteArray.extract_append_eq_right (size_header f).symm (by rw [size_header, length])
    have hrest : (f.bytes ++ rest).extract f.length (f.bytes ++ rest).size = rest :=
      ByteArray.extract_append_eq_right (size_bytes f).symm (by rw [hs, size_bytes])
    have hgood : ¬BadLength (f.length : Int) := by
      simp only [BadLength, maxMessageSize]
      omega
    have hv := verdict_split? (f.bytes ++ rest)
    generalize split? (f.bytes ++ rest) = r at hv ⊢
    cases hv with
    | noLength hs' => simp only [headerSize] at hle; omega
    | badLength _ hl => exact absurd (h0 ▸ hl) hgood
    | noOpcode hs' => omega
    | badOpcode _ _ ho => rw [h12, Opcode.ofNumber?_number] at ho; cases ho
    | incomplete hs' => omega
    | frame op _ _ ho =>
      rw [h12, Opcode.ofNumber?_number] at ho
      cases ho
      rw [h0, Int.toNat_natCast, h4, h8, hbody, hrest]

/-- A verdict on the bytes at hand stands when more bytes arrive. -/
theorem split?_append_frame {f : Frame} {rest : ByteArray} (h : split? b = .ok (some (f, rest)))
    (x : ByteArray) : split? (b ++ x) = .ok (some (f, rest ++ x)) := by
  obtain ⟨hb, hf⟩ := split?_eq_frame_iff.1 h
  exact split?_eq_frame_iff.2 ⟨by rw [hb, ByteArray.append_assoc], hf⟩

theorem split?_append_error {e : MessageError} (h : split? b = .error e) (x : ByteArray) :
    split? (b ++ x) = .error e := by
  have hs : (b ++ x).size = b.size + x.size := ByteArray.size_append
  have hv := verdict_split? b
  rw [h] at hv
  cases hv with
  | badLength h4 hl =>
    have h0 : Bytes.int32 (b ++ x) 0 = Bytes.int32 b 0 := Bytes.int32_append_left (by omega)
    rw [← h0] at hl ⊢
    exact split?_of_badLength (by omega) hl
  | badOpcode h16 hl ho =>
    simp only [headerSize] at h16
    have h0 : Bytes.int32 (b ++ x) 0 = Bytes.int32 b 0 := Bytes.int32_append_left (by omega)
    have h12 : Bytes.int32 (b ++ x) 12 = Bytes.int32 b 12 := Bytes.int32_append_left (by omega)
    rw [← h0] at hl
    rw [split?_of_header (by simp only [headerSize]; omega) hl, h12, ho]

end Frame

namespace FrameStream

inductive Action where
  | extend (bytes : ByteArray)
  | next

def fed : List Action → ByteArray
  | [] => ByteArray.empty
  | .extend b :: as => b ++ fed as
  | .next :: as => fed as

def run (s : FrameStream) : List Action → List Frame × FrameStream
  | [] => ([], s)
  | .extend b :: as => run (s.extend b) as
  | .next :: as =>
    match s.next with
    | (.ok (some f), t) => (f :: (run t as).1, (run t as).2)
    | (_, t) => run t as

def joined : List Frame → ByteArray
  | [] => ByteArray.empty
  | f :: fs => f.bytes ++ joined fs

variable {s t : FrameStream} {f : Frame} {e : MessageError}

theorem next_frame_iff :
    s.next = (.ok (some f), t) ↔ Frame.split? s.buffer = .ok (some (f, t.buffer)) := by
  cases t with
  | mk rest =>
    rw [next]
    split <;> simp_all

theorem next_error_iff : s.next.1 = .error e ↔ Frame.split? s.buffer = .error e := by
  rw [next]
  split <;> simp_all

theorem buffer_of_next (h : s.next = (.ok (some f), t)) : s.buffer = f.bytes ++ t.buffer :=
  (Frame.split?_eq_frame_iff.1 (next_frame_iff.1 h)).1

theorem next_of_not_frame (h : ∀ f, s.next.1 ≠ .ok (some f)) : s.next.2 = s := by
  rw [next] at h ⊢
  split <;> simp_all

theorem next_extend_of_frame (h : s.next = (.ok (some f), t)) (x : ByteArray) :
    (s.extend x).next = (.ok (some f), t.extend x) :=
  next_frame_iff.2 (Frame.split?_append_frame (next_frame_iff.1 h) x)

theorem next_extend_of_error (h : s.next.1 = .error e) (x : ByteArray) :
    (s.extend x).next = (.error e, s.extend x) := by
  have hx : (s.extend x).next.1 = .error e :=
    next_error_iff.2 (Frame.split?_append_error (next_error_iff.1 h) x)
  exact Prod.ext hx (next_of_not_frame (by rw [hx]; simp))

theorem size_of_next (h : s.next = (.ok (some f), t)) : t.buffer.size < s.buffer.size := by
  rw [buffer_of_next h, ByteArray.size_append, Frame.size_bytes, Frame.length, headerSize]
  omega

theorem next_cases (s : FrameStream) :
    (∃ f t, s.next = (.ok (some f), t)) ∨ ∀ f, s.next.1 ≠ .ok (some f) := by
  by_cases h : ∃ f, s.next.1 = .ok (some f)
  · obtain ⟨f, hf⟩ := h
    exact .inl ⟨f, s.next.2, Prod.ext hf rfl⟩
  · exact .inr fun f hf => h ⟨f, hf⟩

theorem run_next_of_frame (h : s.next = (.ok (some f), t)) (as : List Action) :
    s.run (.next :: as) = (f :: (t.run as).1, (t.run as).2) := by
  rw [run, h]

theorem run_next_of_not_frame (h : ∀ f, s.next.1 ≠ .ok (some f)) (as : List Action) :
    s.run (.next :: as) = s.run as := by
  have ht := next_of_not_frame h
  rw [run]
  split
  next f t hn => exact absurd (by rw [hn]) (h f)
  next r t _ hn => rw [← ht, hn]

/-- What a stream comes to when frames are taken from it until there is none: the frames, the error
that stands in front of the rest if there is one, and the rest. -/
structure Outcome where
  frames : List Frame
  error? : Option MessageError
  rest : FrameStream

namespace Outcome

def after (fs : List Frame) (o : Outcome) : Outcome := { o with frames := fs ++ o.frames }

def verdict (o : Outcome) : Except MessageError (Option Frame) :=
  match o.error? with
  | none => .ok none
  | some e => .error e

end Outcome

/-- Takes frames from a stream until there is none. -/
def drain (s : FrameStream) : Outcome :=
  match _ : s.next with
  | (.ok (some f), t) => t.drain.after [f]
  | (.ok none, t) => ⟨[], none, t⟩
  | (.error e, t) => ⟨[], some e, t⟩
termination_by s.buffer.size
decreasing_by exact size_of_next (by assumption)

theorem drain_of_frame (h : s.next = (.ok (some f), t)) : s.drain = t.drain.after [f] := by
  rw [drain]
  split <;> simp_all

theorem drain_joined {fs : List Frame} (hf : ∀ f ∈ fs, f.length ≤ maxMessageSize) (x : ByteArray) :
    (FrameStream.mk (joined fs ++ x)).drain = (FrameStream.mk x).drain.after fs := by
  induction fs with
  | nil =>
    rw [joined, ByteArray.empty_append]
    rfl
  | cons f fs ih =>
    obtain ⟨hf, hfs⟩ := List.forall_mem_cons.1 hf
    have hn : (FrameStream.mk (joined (f :: fs) ++ x)).next = (.ok (some f), ⟨joined fs ++ x⟩) := by
      rw [next_frame_iff, Frame.split?_eq_frame_iff, joined, ByteArray.append_assoc]
      exact ⟨rfl, hf⟩
    rw [drain_of_frame hn, ih hfs]
    rfl

theorem drain_of_none (h : s.next = (.ok none, t)) : s.drain = ⟨[], none, t⟩ := by
  rw [drain]
  split <;> simp_all

theorem drain_of_error (h : s.next = (.error e, t)) : s.drain = ⟨[], some e, t⟩ := by
  rw [drain]
  split <;> simp_all

theorem drain_empty : empty.drain = ⟨[], none, empty⟩ := drain_of_none rfl

theorem drain_of_not_frame (h : ∀ f, s.next.1 ≠ .ok (some f)) :
    s.drain.frames = [] ∧ s.drain.rest = s ∧ s.next.1 = s.drain.verdict := by
  have ht := next_of_not_frame h
  rw [drain]
  split
  next f t hn => exact absurd (by rw [hn]) (h f)
  next t hn => exact ⟨rfl, by rw [← ht, hn], by rw [hn]; rfl⟩
  next e t hn => exact ⟨rfl, by rw [← ht, hn], by rw [hn]; rfl⟩

/-- Draining a stream is asking for frames until none is there. -/
theorem exists_run_eq_drain (s : FrameStream) :
    (∃ n, s.run (List.replicate n .next) = (s.drain.frames, s.drain.rest)) ∧
      s.drain.rest.next = (s.drain.verdict, s.drain.rest) := by
  induction hn : s.buffer.size using Nat.strong_induction_on generalizing s with
  | _ n ih =>
    obtain ⟨f, t, h⟩ | h := s.next_cases
    · obtain ⟨⟨m, hm⟩, hv⟩ := ih t.buffer.size (hn ▸ size_of_next h) t rfl
      rw [drain_of_frame h]
      exact ⟨⟨m + 1, by rw [List.replicate_succ, run_next_of_frame h, hm]; rfl⟩, hv⟩
    · obtain ⟨hf, hr, hv⟩ := drain_of_not_frame h
      rw [hf, hr]
      exact ⟨⟨0, rfl⟩, Prod.ext hv (next_of_not_frame h)⟩

/-- Taking what is complete and waiting for more comes to the same as waiting first. -/
theorem drain_extend (s : FrameStream) (x : ByteArray) :
    (s.extend x).drain = (s.drain.rest.extend x).drain.after s.drain.frames := by
  induction hn : s.buffer.size using Nat.strong_induction_on generalizing s with
  | _ n ih =>
    obtain ⟨f, t, h⟩ | h := s.next_cases
    · rw [drain_of_frame (next_extend_of_frame h x), drain_of_frame h,
        ih t.buffer.size (hn ▸ size_of_next h) t rfl]
      rfl
    · obtain ⟨hf, hr, -⟩ := drain_of_not_frame h
      rw [hf, hr]
      rfl

theorem drain_rest (s : FrameStream) :
    s.drain.rest.drain = ⟨[], s.drain.error?, s.drain.rest⟩ := by
  have hv := (exists_run_eq_drain s).2
  unfold Outcome.verdict at hv
  split at hv
  next he => rw [drain_of_none hv, he]
  next he => rw [drain_of_error hv, he]

theorem drain_extend_of_error (h : s.drain.error? = some e) (x : ByteArray) :
    (s.extend x).drain = ⟨s.drain.frames, some e, s.drain.rest.extend x⟩ := by
  have hv := (exists_run_eq_drain s).2
  rw [Outcome.verdict, h] at hv
  rw [drain_extend, drain_of_error (next_extend_of_error (congrArg Prod.fst hv) x), Outcome.after,
    List.append_nil]

theorem drain_extend_fed (s : FrameStream) (as : List Action) :
    (s.extend (fed as)).drain = (s.run as).2.drain.after (s.run as).1 := by
  induction as generalizing s with
  | nil => simp [fed, run, extend, Outcome.after]
  | cons a as ih =>
    cases a with
    | extend b =>
      have hx : s.extend (fed (.extend b :: as)) = (s.extend b).extend (fed as) := by
        rw [extend, extend, extend, fed, ByteArray.append_assoc]
      rw [hx, ih, run]
    | next =>
      obtain ⟨f, t, h⟩ | h := s.next_cases
      · rw [fed, drain_of_frame (next_extend_of_frame h _), ih, run_next_of_frame h]
        rfl
      · rw [fed, ih, run_next_of_not_frame h]

theorem joined_run (s : FrameStream) (as : List Action) :
    joined (s.run as).1 ++ (s.run as).2.buffer = s.buffer ++ fed as := by
  induction as generalizing s with
  | nil => simp [fed, run, joined]
  | cons a as ih =>
    cases a with
    | extend b => rw [fed, run, ih, extend, ByteArray.append_assoc]
    | next =>
      obtain ⟨f, t, h⟩ | h := s.next_cases
      · rw [fed, run_next_of_frame h, joined, ByteArray.append_assoc, ih, buffer_of_next h,
          ByteArray.append_assoc]
      · rw [fed, run_next_of_not_frame h, ih]

theorem run_of_error (h : s.next.1 = .error e) (as : List Action) :
    s.run as = ([], s.extend (fed as)) := by
  induction as generalizing s with
  | nil => simp [fed, run, extend]
  | cons a as ih =>
    cases a with
    | extend b =>
      rw [run, ih (congrArg Prod.fst (next_extend_of_error h b)), fed, extend, extend, extend,
        ByteArray.append_assoc]
    | next => rw [run_next_of_not_frame (by rw [h]; simp), ih h, fed]

theorem error_of_next (h : s.next.1 = .error e) :
    (∃ n, e = .invalidLength n) ∨ ∃ n, e = .unknownOpcode n := by
  have hv := Frame.verdict_split? s.buffer
  rw [next_error_iff.1 h] at hv
  cases hv with
  | badLength _ _ => exact .inl ⟨_, rfl⟩
  | badOpcode _ _ _ => exact .inr ⟨_, rfl⟩

theorem isFatal_of_drain (h : s.drain.error? = some e) : e.isFatal = true := by
  have hv := (exists_run_eq_drain s).2
  rw [Outcome.verdict, h] at hv
  obtain ⟨n, rfl⟩ | ⟨n, rfl⟩ := error_of_next (congrArg Prod.fst hv) <;> rfl

/-- Let bytes arrive in any chunks and frames be asked for at any times. Taking the rest of the
frames at the end gives, after the frames already taken, the frames, the verdict and the rest that
the whole stream gives at once, and every byte is in a frame or left over. A call that gives no frame
leaves the stream as it was; after a failure there are no frames, and the failure stays the same. -/
theorem framing_independent_of_chunks (as : List Action) :
    (empty.extend (fed as)).drain = (empty.run as).2.drain.after (empty.run as).1 ∧
      joined (empty.run as).1 ++ (empty.run as).2.buffer = fed as ∧
      (∀ s : FrameStream, (∃ n, s.run (List.replicate n .next) = (s.drain.frames, s.drain.rest)) ∧
        s.drain.rest.next = (s.drain.verdict, s.drain.rest)) ∧
      (∀ s : FrameStream, (∀ f, s.next.1 ≠ .ok (some f)) → s.next.2 = s) ∧
      ∀ (s : FrameStream) (e : MessageError), s.next.1 = .error e →
        ((∃ n, e = .invalidLength n) ∨ ∃ n, e = .unknownOpcode n) ∧ e.isFatal = true ∧
          ∀ bs, s.run bs = ([], s.extend (fed bs)) ∧
            (s.extend (fed bs)).next = (.error e, s.extend (fed bs)) := by
  refine ⟨drain_extend_fed empty as, ?_, exists_run_eq_drain, fun s => next_of_not_frame,
    fun s e h => ⟨error_of_next h, ?_, fun bs => ⟨run_of_error h bs, next_extend_of_error h _⟩⟩⟩
  · have h := joined_run empty as
    rwa [empty, ByteArray.empty_append] at h
  · obtain ⟨n, rfl⟩ | ⟨n, rfl⟩ := error_of_next h <;> rfl

end FrameStream

namespace Frame

theorem encode_eq_ok_iff {f : Frame} {b : ByteArray} :
    f.encode = .ok b ↔ f.length ≤ maxMessageSize ∧ b = f.bytes := by
  rw [encode, bytes]
  split
  next h => simpa using fun hl => absurd hl (Nat.not_le.2 h)
  next h => simp [Nat.le_of_not_lt h, eq_comm]

theorem split?_of_encode {f : Frame} {b : ByteArray} (h : f.encode = .ok b) :
    split? b = .ok (some (f, ByteArray.empty)) := by
  obtain ⟨hf, rfl⟩ := encode_eq_ok_iff.1 h
  exact split?_eq_frame_iff.2 ⟨ByteArray.append_empty.symm, hf⟩

theorem drain_of_encode {f : Frame} {b : ByteArray} (h : f.encode = .ok b) :
    (FrameStream.mk b).drain = ⟨[f], none, FrameStream.empty⟩ := by
  obtain ⟨hf, rfl⟩ := encode_eq_ok_iff.1 h
  have hd := FrameStream.drain_joined (List.forall_mem_singleton.2 hf) ByteArray.empty
  rw [FrameStream.joined, FrameStream.joined, ByteArray.append_empty, ByteArray.append_empty] at hd
  exact hd.trans (congrArg (FrameStream.Outcome.after [f]) FrameStream.drain_empty)

theorem length_of_encode {f : Frame} {b : ByteArray} (h : f.encode = .ok b) :
    f.length = b.size ∧ (Bytes.int32 b 0).toInt = b.size := by
  obtain ⟨hf, rfl⟩ := encode_eq_ok_iff.1 h
  rw [maxMessageSize] at hf
  obtain ⟨h0, -⟩ := header_words f (by omega) f.body
  exact ⟨(size_bytes f).symm, by rw [size_bytes]; exact h0⟩

end Frame

end DocumentServer
