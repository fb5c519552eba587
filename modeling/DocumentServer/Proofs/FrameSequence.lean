import DocumentServer.Proofs.FrameStream

namespace DocumentServer

namespace Frame

variable {f : Frame} {b : ByteArray}

theorem encode_eq_error_iff {e : MessageError} :
    f.encode = .error e ↔ maxMessageSize < f.length ∧ e = .tooLarge f.length := by
  rw [encode]
  split
  next h => simp [Nat.lt_of_not_le (Nat.not_le.2 h), eq_comm]
  next h => simpa using fun hl => absurd hl h

theorem encode_iff_split? :
    f.encode = .ok b ↔ ∀ x, split? (b ++ x) = .ok (some (f, x)) := by
  rw [encode_eq_ok_iff]
  constructor
  · rintro ⟨hf, rfl⟩ x
    exact split?_eq_frame_iff.2 ⟨rfl, hf⟩
  · intro h
    obtain ⟨hb, hf⟩ := split?_eq_frame_iff.1 (h ByteArray.empty)
    exact ⟨hf, (ByteArray.append_left_inj _).1 hb⟩

theorem encode_of_split? {rest : ByteArray} (h : split? b = .ok (some (f, rest))) :
    (∃ c, f.encode = .ok c ∧ b = c ++ rest) ∧
      (Bytes.int32 b 0).toInt = headerSize + f.body.size := by
  obtain ⟨rfl, hf⟩ := split?_eq_frame_iff.1 h
  refine ⟨⟨f.bytes, encode_eq_ok_iff.2 ⟨hf, rfl⟩, rfl⟩, ?_⟩
  rw [maxMessageSize] at hf
  obtain ⟨h0, -⟩ := header_words f (by omega) (f.body ++ rest)
  rw [bytes, ByteArray.append_assoc, h0, length]
  rfl

theorem exists_length_iff {n : Nat} :
    (∃ f b, encode f = .ok b ∧ f.length = n) ↔ headerSize ≤ n ∧ n ≤ maxMessageSize := by
  constructor
  · rintro ⟨f, b, h, rfl⟩
    exact ⟨Nat.le_add_right _ _, (encode_eq_ok_iff.1 h).1⟩
  · rintro ⟨hl, hn⟩
    let f : Frame := ⟨0, 0, .reply, ⟨Array.replicate (n - headerSize) 0⟩⟩
    have hf : f.length = n := by
      have hb : f.body.size = n - headerSize := Array.size_replicate
      rw [length, hb, Nat.add_sub_cancel' hl]
    exact ⟨f, f.bytes, encode_eq_ok_iff.2 ⟨hf ▸ hn, rfl⟩, hf⟩

/-- The length in front of a buffer is refused exactly if no frame that can be written has it. -/
theorem split?_invalidLength_iff (h4 : 4 ≤ b.size) :
    split? b = .error (.invalidLength (Bytes.int32 b 0).toInt) ↔
      ∀ f c, encode f = .ok c → (f.length : Int) ≠ (Bytes.int32 b 0).toInt := by
  have hbad : split? b = .error (.invalidLength (Bytes.int32 b 0).toInt) ↔
      BadLength (Bytes.int32 b 0).toInt := by
    refine ⟨fun h => ?_, split?_of_badLength h4⟩
    have hv := verdict_split? b
    rw [h] at hv
    cases hv with
    | badLength _ hl => exact hl
  rw [hbad]
  constructor
  · rintro hl f c hc hn
    obtain ⟨h, h'⟩ := exists_length_iff.1 ⟨f, c, hc, rfl⟩
    rw [BadLength, ← hn] at hl
    omega
  · intro h
    by_contra hl
    rw [BadLength] at hl
    obtain ⟨f, c, hc, hn⟩ := (exists_length_iff (n := (Bytes.int32 b 0).toInt.toNat)).2
      (by omega)
    exact h f c hc (by omega)

end Frame

namespace FrameStream

def encodeAll : List Frame → Except MessageError ByteArray
  | [] => .ok ByteArray.empty
  | f :: fs => do
    let b ← f.encode
    return b ++ (← encodeAll fs)

theorem encodeAll_of_length {fs : List Frame} (h : ∀ f ∈ fs, f.length ≤ maxMessageSize) :
    encodeAll fs = .ok (joined fs) := by
  induction fs with
  | nil => rfl
  | cons f fs ih =>
    obtain ⟨hf, hfs⟩ := List.forall_mem_cons.1 h
    rw [encodeAll, Frame.encode_eq_ok_iff.2 ⟨hf, rfl⟩, ih hfs]
    rfl

theorem length_of_run {s : FrameStream} {as : List Action} {f : Frame} (h : f ∈ (s.run as).1) :
    f.length ≤ maxMessageSize := by
  induction as generalizing s with
  | nil => cases h
  | cons a as ih =>
    cases a with
    | extend b => exact ih h
    | next =>
      obtain ⟨g, t, hn⟩ | hn := s.next_cases
      · rw [run_next_of_frame hn] at h
        rcases List.mem_cons.1 h with rfl | h
        · exact (Frame.split?_eq_frame_iff.1 (next_frame_iff.1 hn)).2
        · exact ih h
      · rw [run_next_of_not_frame hn] at h
        exact ih h

theorem fed_replicate_next (n : Nat) : fed (List.replicate n .next) = ByteArray.empty := by
  induction n with
  | zero => rfl
  | succ n ih => rw [List.replicate_succ, fed, ih]

/-- Frames that are not too long are written, and cutting the bytes gives the same frames with
nothing left over. Whatever frames are cut off a buffer, writing them again and adding what is left
over gives the buffer. A frame that is cut off can be written and carries the length of its header
and body; the bytes of a frame are those that it is cut off from; a frame is not written exactly if
it is too long; and a length is refused exactly if no frame that is written has it. -/
theorem frames_inverse :
    (∀ fs : List Frame, (∀ f ∈ fs, f.length ≤ maxMessageSize) →
      ∃ b, encodeAll fs = .ok b ∧ (FrameStream.mk b).drain = ⟨fs, none, empty⟩) ∧
    (∀ (b : ByteArray) (n : Nat),
      ∃ c, encodeAll ((FrameStream.mk b).run (List.replicate n .next)).1 = .ok c ∧
        c ++ ((FrameStream.mk b).run (List.replicate n .next)).2.buffer = b) ∧
    (∀ (f : Frame) (b rest : ByteArray), Frame.split? b = .ok (some (f, rest)) →
      (∃ c, f.encode = .ok c ∧ b = c ++ rest) ∧
        (Bytes.int32 b 0).toInt = headerSize + f.body.size) ∧
    (∀ (f : Frame) (b : ByteArray), f.encode = .ok b ↔
      ∀ x, Frame.split? (b ++ x) = .ok (some (f, x))) ∧
    (∀ (f : Frame) (e : MessageError), f.encode = .error e ↔
      maxMessageSize < f.length ∧ e = .tooLarge f.length) ∧
    ∀ b : ByteArray, 4 ≤ b.size →
      (Frame.split? b = .error (.invalidLength (Bytes.int32 b 0).toInt) ↔
        ∀ f c, Frame.encode f = .ok c → (f.length : Int) ≠ (Bytes.int32 b 0).toInt) := by
  refine ⟨fun fs h => ⟨joined fs, encodeAll_of_length h, ?_⟩, fun b n => ?_,
    fun f b rest => Frame.encode_of_split?, fun f b => Frame.encode_iff_split?,
    fun f e => Frame.encode_eq_error_iff, fun b => Frame.split?_invalidLength_iff⟩
  · have hd := drain_joined h ByteArray.empty
    rw [ByteArray.append_empty] at hd
    rw [hd]
    change empty.drain.after fs = _
    rw [drain_empty, Outcome.after, List.append_nil]
  · refine ⟨_, encodeAll_of_length fun f => length_of_run, ?_⟩
    rw [joined_run, fed_replicate_next, ByteArray.append_empty]

end FrameStream

end DocumentServer
