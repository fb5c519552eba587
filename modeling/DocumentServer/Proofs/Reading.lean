import DocumentServer.Codec.Decode
import DocumentServer.Proofs.Grammar

namespace DocumentServer

namespace Read

variable {ε σ α β : Type} {p : Read ε σ α} {q : α → Read ε σ β} {a c : α} {d : β} {i j k : Nat}
  {s t u : σ}

theorem pure_eq_ok : (pure a : Read ε σ α) i s = (.ok (c, j), t) ↔ a = c ∧ i = j ∧ s = t := by
  simp [pure_apply, and_assoc]

theorem bind_eq_ok :
    (p >>= q) i s = (.ok (d, k), u) ↔
      ∃ a j t, p i s = (.ok (a, j), t) ∧ q a j t = (.ok (d, k), u) := by
  rw [bind_apply]
  rcases p i s with ⟨_ | ⟨a, j⟩, t⟩ <;> simp

theorem bind_assoc {γ : Type} (p : Read ε σ α) (q : α → Read ε σ β) (h : β → Read ε σ γ) :
    p >>= q >>= h = p >>= fun a => q a >>= h := by
  funext i s
  simp only [bind_apply]
  rcases p i s with ⟨_ | ⟨a, j⟩, t⟩ <;> rfl

theorem pure_bind (a : α) (q : α → Read ε σ β) : (pure a >>= q) = q a := rfl

theorem bind_pure (p : Read ε σ α) : (p >>= Pure.pure) = p := by
  funext i s
  rw [bind_apply]
  rcases p i s with ⟨_ | ⟨a, j⟩, t⟩ <;> rfl

theorem offset_eq_ok {n : Nat} :
    (offset : Read ε σ Nat) i s = (.ok (n, j), t) ↔ i = n ∧ i = j ∧ s = t := pure_eq_ok

theorem fail_ne_ok {e : ε} : ¬(fail e : Read ε σ α) i s = (.ok (a, j), t) := by simp [fail]

end Read

namespace Decode

open Read Grammar

variable {σ τ α β γ δ ε : Type} {b : ByteArray} {f : α → γ} {g : β → δ}

/-- A step succeeds at `i` with a result that is `c` up to `f`, and ends at `j`. -/
def Gives (f : α → γ) (p : Read DecodeError σ α) (i : Nat) (s : σ) (c : γ) (j : Nat) : Prop :=
  ∃ a t, p i s = (.ok (a, j), t) ∧ f a = c

/-- From any place of any range on, a step takes the words of a language that fit in. -/
def Reads (f : α → γ) (b : ByteArray) (p : Range → Read DecodeError σ α)
    (L : ByteArray → γ → Prop) : Prop :=
  ∀ r i, i ≤ r.stop → r.stop ≤ b.size → ∀ s c j,
    Gives f (p r) i s c j ↔ i ≤ j ∧ j ≤ r.stop ∧ L (b.extract i j) c

/-- A step takes all bytes from `i` to the end of a range, if they are in a language. -/
def Fills (f : α → γ) (b : ByteArray) (r : Range) (i : Nat) (p : Read DecodeError σ α)
    (L : ByteArray → γ → Prop) : Prop :=
  ∀ s c j, Gives f p i s c j ↔ j = r.stop ∧ L (b.extract i r.stop) c

variable {p : Range → Read DecodeError σ α} {q : α → Range → Read DecodeError σ β}
  {L L' : ByteArray → γ → Prop} {M : γ → ByteArray → δ → Prop}

theorem Reads.congr (hp : Reads f b p L) (h : ∀ w c, L w c ↔ L' w c) : Reads f b p L' :=
  fun r i hi hr s c j => by rw [hp r i hi hr, h]

theorem Fills.congr {r : Range} {i : Nat} {p : Read DecodeError σ α} (hp : Fills f b r i p L)
    (h : ∀ w c, L w c ↔ L' w c) : Fills f b r i p L' :=
  fun s c j => by rw [hp, h]

theorem extract_eq_empty_iff {i j : Nat} (hij : i ≤ j) (hj : j ≤ b.size) :
    b.extract i j = ByteArray.empty ↔ i = j := by
  rw [ByteArray.extract_eq_empty_iff, Nat.min_eq_left hj]
  exact ⟨fun h => Nat.le_antisymm hij h, fun h => h ▸ le_rfl⟩

theorem Reads.pure (a : α) :
    Reads (σ := σ) f b (fun _ => Pure.pure a) fun w c => w = ByteArray.empty ∧ c = f a := by
  intro r i hi hr s c j
  constructor
  · rintro ⟨a', t, h, rfl⟩
    obtain ⟨rfl, rfl, rfl⟩ := pure_eq_ok.1 h
    exact ⟨le_rfl, hi, ByteArray.extract_same, rfl⟩
  · rintro ⟨hij, hj, hw, rfl⟩
    obtain rfl := (extract_eq_empty_iff hij (by omega)).1 hw
    exact ⟨a, s, rfl, rfl⟩

theorem Reads.fail (e : DecodeError) :
    Reads (σ := σ) f b (fun _ => Read.fail e) fun _ _ => False := by
  intro r i hi hr s c j
  exact ⟨fun ⟨_, _, h, _⟩ => (fail_ne_ok h).elim, fun ⟨_, _, h⟩ => h.elim⟩

theorem Reads.bind (hp : Reads f b p L)
    (hq : ∀ a w, L w (f a) → Reads g b (q a) (M (f a))) :
    Reads g b (fun r => p r >>= fun a => q a r) fun w d =>
      ∃ c u v, w = u ++ v ∧ L u c ∧ M c v d := by
  intro r i hi hr s d k
  constructor
  · rintro ⟨d', t', h, rfl⟩
    obtain ⟨a, j, t, ha, hd⟩ := bind_eq_ok.1 h
    obtain ⟨hij, hj, hL⟩ := (hp r i hi hr s (f a) j).1 ⟨a, t, ha, rfl⟩
    obtain ⟨hjk, hk, hM⟩ := (hq a _ hL r j hj hr t (g d') k).1 ⟨d', t', hd, rfl⟩
    exact ⟨hij.trans hjk, hk, f a, _, _, (Bytes.extract_append_extract_of_le hij hjk).symm, hL, hM⟩
  · rintro ⟨hik, hk, c, u, v, hw, hL, hM⟩
    obtain ⟨j, hij, hjk, rfl, rfl⟩ := Bytes.exists_of_extract_eq_append hik (hk.trans hr) hw
    obtain ⟨a, t, ha, rfl⟩ := (hp r i hi hr s c j).2 ⟨hij, hjk.trans hk, hL⟩
    obtain ⟨d', t', hd, rfl⟩ := (hq a _ hL r j (hjk.trans hk) hr t d k).2 ⟨hjk, hk, hM⟩
    exact ⟨d', t', bind_eq_ok.2 ⟨a, j, t, ha, hd⟩, rfl⟩

theorem Reads.map {m : γ → δ} {h : α → β} (hp : Reads f b p L) (hm : ∀ a, g (h a) = m (f a)) :
    Reads g b (fun r => p r >>= fun a => Pure.pure (h a)) fun w d => ∃ c, L w c ∧ d = m c := by
  refine (hp.bind (M := fun c w d => w = ByteArray.empty ∧ d = m c) fun a _ _ => ?_).congr
    fun w d => ⟨?_, ?_⟩
  · exact (Reads.pure (h a)).congr fun w d => by rw [hm]
  · rintro ⟨c, u, v, rfl, hL, rfl, rfl⟩
    exact ⟨c, by rwa [ByteArray.append_empty], rfl⟩
  · rintro ⟨c, hL, rfl⟩
    exact ⟨c, w, ByteArray.empty, ByteArray.append_empty.symm, hL, rfl, rfl⟩

theorem Fills.bind {r : Range} {i : Nat} {q : α → Read DecodeError σ β} (hi : i ≤ r.stop)
    (hr : r.stop ≤ b.size) (hp : Reads f b p L)
    (hq : ∀ a j, i ≤ j → j ≤ r.stop → L (b.extract i j) (f a) → Fills g b r j (q a) (M (f a))) :
    Fills g b r i (p r >>= q) fun w d => ∃ c u v, w = u ++ v ∧ L u c ∧ M c v d := by
  intro s d k
  constructor
  · rintro ⟨d', t', h, rfl⟩
    obtain ⟨a, j, t, ha, hd⟩ := bind_eq_ok.1 h
    obtain ⟨hij, hj, hL⟩ := (hp r i hi hr s (f a) j).1 ⟨a, t, ha, rfl⟩
    obtain ⟨rfl, hM⟩ := (hq a j hij hj hL t (g d') k).1 ⟨d', t', hd, rfl⟩
    exact ⟨rfl, f a, _, _, (Bytes.extract_append_extract_of_le hij hj).symm, hL, hM⟩
  · rintro ⟨rfl, c, u, v, hw, hL, hM⟩
    obtain ⟨j, hij, hj, rfl, rfl⟩ := Bytes.exists_of_extract_eq_append hi hr hw
    obtain ⟨a, t, ha, rfl⟩ := (hp r i hi hr s c j).2 ⟨hij, hj, hL⟩
    obtain ⟨d', t', hd, rfl⟩ := (hq a j hij hj hL t d r.stop).2 ⟨rfl, hM⟩
    exact ⟨d', t', bind_eq_ok.2 ⟨a, j, t, ha, hd⟩, rfl⟩

theorem Reads.offset_bind {q : Nat → Range → Read DecodeError σ β} {M : ByteArray → δ → Prop}
    (hq : ∀ i, Reads g b (q i) M) : Reads g b (fun r => Read.offset >>= fun i => q i r) M :=
  fun r i hi hr => hq i r i hi hr

theorem advance_eq_ok {r : Range} {n i a j : Nat} {s t : σ} :
    advance r n i s = (.ok (a, j), t) ↔ i + n ≤ r.stop ∧ i = a ∧ i + n = j ∧ s = t := by
  unfold advance
  split
  next h => simp [h]
  next h => simp [Nat.le_of_not_lt h, and_assoc]

theorem word_eq_ok {r : Range} {n i j : Nat} {h : Nat → α} {a : α} {s t : σ} :
    (advance r n >>= fun i => (Pure.pure (h i) : Read DecodeError σ α)) i s = (.ok (a, j), t) ↔
      i + n ≤ r.stop ∧ h i = a ∧ i + n = j ∧ s = t := by
  rw [bind_eq_ok]
  constructor
  · rintro ⟨i', k, u, hi, ha⟩
    obtain ⟨hn, rfl, rfl, rfl⟩ := advance_eq_ok.1 hi
    exact ⟨hn, pure_eq_ok.1 ha⟩
  · rintro ⟨hn, ha⟩
    exact ⟨i, i + n, s, advance_eq_ok.2 ⟨hn, rfl, rfl, rfl⟩, pure_eq_ok.2 ha⟩

theorem Reads.word {n : Nat} {h : Nat → α} {L : ByteArray → α → Prop}
    (hs : ∀ w a, L w a → w.size = n)
    (hL : ∀ i, i + n ≤ b.size → ∀ a, L (b.extract i (i + n)) a ↔ h i = a) :
    Reads (σ := σ) id b (fun r => advance r n >>= fun i => Pure.pure (h i)) L := by
  intro r i hi hr s a j
  constructor
  · rintro ⟨a', t, ha, rfl⟩
    obtain ⟨hn, rfl, rfl, rfl⟩ := word_eq_ok.1 ha
    exact ⟨by omega, hn, (hL i (hn.trans hr) _).2 rfl⟩
  · rintro ⟨hij, hj, hw⟩
    have hn := hs _ _ hw
    rw [Bytes.size_extract_of_le (hj.trans hr)] at hn
    obtain rfl : j = i + n := by omega
    have ha := (hL i (hj.trans hr) a).1 hw
    exact ⟨a, s, word_eq_ok.2 ⟨hj, ha, rfl, rfl⟩, rfl⟩

theorem reads_byte : Reads (σ := σ) id b (byte b) fun w x => w = one x :=
  Reads.word (fun w x h => by rw [h]; rfl) fun i hi x => by rw [extract_succ hi, one_inj]

theorem isWord_extract_iff {i n v : Nat} (h : i + n ≤ b.size) :
    IsWord n (b.extract i (i + n)) v ↔ Bytes.number b i n = v := by
  rw [IsWord, littleEndian_extract h]
  exact and_iff_right (Bytes.size_extract_add h)

theorem isWord_uint32_iff {i : Nat} {x : UInt32} (h : i + 4 ≤ b.size) :
    IsWord 4 (b.extract i (i + 4)) x.toNat ↔ Bytes.uint32 b i = x := by
  rw [isWord_extract_iff h, ← Bytes.toNat_uint32, UInt32.toNat_inj]

theorem isWord_uint64_iff {i : Nat} {x : UInt64} (h : i + 8 ≤ b.size) :
    IsWord 8 (b.extract i (i + 8)) x.toNat ↔ Bytes.uint64 b i = x := by
  rw [isWord_extract_iff h, ← Bytes.toNat_uint64, UInt64.toNat_inj]

theorem isWord_int32_iff {i : Nat} {x : Int32} (h : i + 4 ≤ b.size) :
    IsWord 4 (b.extract i (i + 4)) x.toUInt32.toNat ↔ Bytes.int32 b i = x := by
  rw [isWord_uint32_iff h]
  exact ⟨fun h => by rw [Bytes.int32, h, Int32.toInt32_toUInt32], fun h => by
    rw [← h, Bytes.int32, UInt32.toUInt32_toInt32]⟩

theorem isWord_int64_iff {i : Nat} {x : Int64} (h : i + 8 ≤ b.size) :
    IsWord 8 (b.extract i (i + 8)) x.toUInt64.toNat ↔ Bytes.int64 b i = x := by
  rw [isWord_uint64_iff h]
  exact ⟨fun h => by rw [Bytes.int64, h, Int64.toInt64_toUInt64], fun h => by
    rw [← h, Bytes.int64, UInt64.toUInt64_toInt64]⟩

theorem reads_uint64 : Reads (σ := σ) id b (uint64 b) fun w x => IsWord 8 w x.toNat :=
  Reads.word (fun _ _ h => h.1) fun _ hi _ => isWord_uint64_iff hi

theorem reads_int64 : Reads (σ := σ) id b (int64 b) fun w x => IsWord 8 w x.toUInt64.toNat :=
  Reads.word (fun _ _ h => h.1) fun _ hi _ => isWord_int64_iff hi

theorem reads_int32 : Reads (σ := σ) id b (int32 b) fun w x => IsWord 4 w x.toUInt32.toNat :=
  Reads.word (fun _ _ h => h.1) fun _ hi _ => isWord_int32_iff hi

theorem reads_slice (n : Nat) :
    Reads (σ := σ) id b (fun r => slice b r n) fun w c => w = c ∧ c.size = n :=
  Reads.word (fun w c h => by rw [h.1, h.2]) fun i hi c => by
    constructor
    · exact fun h => h.1
    · rintro rfl
      exact ⟨rfl, Bytes.size_extract_add hi⟩

theorem reads_objectId : Reads (σ := σ) id b (objectId b) fun w o => w = o.bytes :=
  Reads.word (fun w o h => by rw [h, o.size_eq]) fun i hi o => by
    rw [ObjectId.ofRegion, dif_pos (Bytes.size_extract_add hi)]
    exact ⟨fun h => by cases o; cases h; rfl, fun h => h ▸ rfl⟩

theorem toInt_eq_natCast_iff {w : Int32} {n : Nat} :
    w.toInt = n ↔ w.toUInt32.toNat = n ∧ n < 0x80000000 := by
  have hb := w.toUInt32.toNat_lt
  have hv : w.toUInt32.toNat = w.toBitVec.toNat := rfl
  have ht : w.toInt = w.toBitVec.toInt := rfl
  rw [ht, BitVec.toInt_eq_toNat_cond, ← hv]
  split <;> omega

theorem reads_lengthWord (least : Nat) :
    Reads (σ := σ) Prod.snd b (fun r => lengthWord b r least) fun w n =>
      IsLength w n ∧ least ≤ n := by
  refine Reads.offset_bind fun i => (reads_int32.bind
    (M := fun (x : Int32) w (n : Nat) => w = ByteArray.empty ∧ x.toInt = n ∧ least ≤ n)
    fun x _ _ => ?_).congr fun w n => ⟨?_, ?_⟩
  · change Reads Prod.snd b _ fun w (n : Nat) => w = ByteArray.empty ∧ x.toInt = n ∧ least ≤ n
    by_cases h : x.toInt < least
    · simp only [h, if_true]
      exact (Reads.fail _).congr fun w n => ⟨False.elim, fun ⟨_, hn, hl⟩ => by omega⟩
    · simp only [h, if_false]
      refine (Reads.pure _).congr fun w n => and_congr_right fun _ => ?_
      constructor
      · rintro rfl
        exact ⟨by dsimp only; omega, by dsimp only; omega⟩
      · rintro ⟨hn, -⟩
        dsimp only
        omega
  · rintro ⟨x, u, v, rfl, ⟨hs, hx⟩, rfl, hn, hl⟩
    obtain ⟨hn, hb⟩ := toInt_eq_natCast_iff.1 hn
    exact ⟨⟨⟨by rwa [ByteArray.append_empty], by rwa [ByteArray.append_empty, hx]⟩, hb⟩, hl⟩
  · rintro ⟨⟨⟨hs, hn⟩, hb⟩, hl⟩
    have hu : (UInt32.ofNat n).toInt32.toUInt32.toNat = n := by
      rw [UInt32.toUInt32_toInt32, UInt32.toNat_ofNat']
      exact Nat.mod_eq_of_lt (by omega)
    refine ⟨(UInt32.ofNat n).toInt32, w, ByteArray.empty, ByteArray.append_empty.symm,
      ⟨hs, by rw [hn]; exact hu.symm⟩, rfl, toInt_eq_natCast_iff.2 ⟨hu, hb⟩, hl⟩

theorem lengthWord_eq_ok {r : Range} {least i j : Nat} {x : Nat × Nat} {s t : σ} :
    lengthWord b r least i s = (.ok (x, j), t) ↔
      i + 4 ≤ r.stop ∧ (Bytes.int32 b i).toInt = x.2 ∧ least ≤ x.2 ∧ x.1 = i ∧ i + 4 = j ∧
        s = t := by
  have hl : lengthWord b r least i s = (int32 b r >>= fun w =>
      if w.toInt < least then fail (.invalidLength i w.toInt)
      else (Pure.pure (i, w.toInt.toNat) : Read DecodeError σ (Nat × Nat))) i s := rfl
  rw [hl, bind_eq_ok]
  constructor
  · rintro ⟨w, k, u, hw, h⟩
    obtain ⟨hi, rfl, rfl, rfl⟩ := word_eq_ok.1 hw
    split at h
    next => exact (fail_ne_ok h).elim
    next hn =>
      obtain ⟨rfl, rfl, rfl⟩ := pure_eq_ok.1 h
      exact ⟨hi, by dsimp only; omega, by dsimp only; omega, rfl, rfl, rfl⟩
  · rintro ⟨hi, hx, hm, rfl, rfl, rfl⟩
    refine ⟨_, _, s, word_eq_ok.2 ⟨hi, rfl, rfl, rfl⟩, ?_⟩
    rw [if_neg (by omega), hx]
    rfl

theorem reads_cstring : Reads (σ := σ) Prod.snd b (cstring b) IsTerminated := by
  intro r i hi hr s c j
  have hc : Gives Prod.snd (cstring (σ := σ) b r) i s c j ↔
      ∃ m, Bytes.findZero? b i (r.stop - i) = some m ∧ j = m + 1 ∧ c = b.extract i m := by
    unfold Gives cstring
    split
    next m h => simp [h, @eq_comm _ c, @eq_comm _ j, and_comm]
    next h => simp [h]
  rw [hc]
  constructor
  · rintro ⟨m, hm, rfl, rfl⟩
    obtain ⟨him, hmr, hz, hn⟩ := Bytes.findZero?_eq_some_iff.1 hm
    exact ⟨by omega, by omega, (Bytes.zero_notMem_extract_iff (by omega)).2 hn,
      (extract_eq_append_one_iff (by omega) (by omega)).2 ⟨m, him, rfl, rfl, hz⟩⟩
  · rintro ⟨hij, hj, hz, hw⟩
    obtain ⟨m, him, rfl, rfl, h0⟩ := (extract_eq_append_one_iff hij (hj.trans hr)).1 hw
    have hn := (Bytes.zero_notMem_extract_iff (by omega)).1 hz
    exact ⟨m, Bytes.findZero?_eq_some_iff.2 ⟨him, by omega, h0, hn⟩, rfl, rfl⟩

theorem slice_eq_ok {r : Range} {n i j : Nat} {c : ByteArray} {s t : σ} :
    slice b r n i s = (.ok (c, j), t) ↔
      i + n ≤ r.stop ∧ b.extract i (i + n) = c ∧ i + n = j ∧ s = t := word_eq_ok

def terminated (b : ByteArray) (r : Range) (n : Nat) : Read DecodeError σ (Nat × ByteArray) := do
  let bytes ← slice b r n
  let j ← offset
  if Bytes.at0 b (j - 1) = 0 then return (j - n, bytes.extract 0 (n - 1))
  else fail (.invalidPayload (j - 1) .stringNotTerminated)

theorem gives_terminated_iff {r : Range} {m i j : Nat} {c : ByteArray} {s : σ} :
    Gives Prod.snd (terminated b r (m + 1)) i s c j ↔
      i + m < r.stop ∧ i + m + 1 = j ∧ Bytes.at0 b (i + m) = 0 ∧ b.extract i (i + m) = c := by
  have he : (b.extract i (i + (m + 1))).extract 0 (m + 1 - 1) = b.extract i (i + m) := by
    rw [ByteArray.extract_extract]
    congr 1
    omega
  constructor
  · rintro ⟨a, t, h, rfl⟩
    obtain ⟨_, _, _, hw, ht⟩ := bind_eq_ok.1 h
    obtain ⟨hr, rfl, rfl, rfl⟩ := slice_eq_ok.1 hw
    obtain ⟨_, _, _, ho, ha⟩ := bind_eq_ok.1 ht
    obtain ⟨rfl, rfl, rfl⟩ := offset_eq_ok.1 ho
    split at ha
    next hz =>
      obtain ⟨rfl, rfl, rfl⟩ := pure_eq_ok.1 ha
      exact ⟨hr, rfl, hz, he.symm⟩
    next => exact (fail_ne_ok ha).elim
  · rintro ⟨hr, rfl, hz, rfl⟩
    refine ⟨(i + (m + 1) - (m + 1), (b.extract i (i + (m + 1))).extract 0 (m + 1 - 1)), s,
      bind_eq_ok.2 ⟨_, _, s, slice_eq_ok.2 ⟨hr, rfl, rfl, rfl⟩, ?_⟩, he⟩
    refine bind_eq_ok.2 ⟨_, _, s, rfl, ?_⟩
    rw [if_pos (show Bytes.at0 b (i + (m + 1) - 1) = 0 from hz)]
    rfl

theorem reads_terminated (m : Nat) :
    Reads (σ := σ) Prod.snd b (fun r => terminated b r (m + 1)) fun w c =>
      w = c ++ one 0 ∧ c.size = m := by
  intro r i hi hr s c j
  rw [gives_terminated_iff]
  constructor
  · rintro ⟨hm, rfl, hz, rfl⟩
    exact ⟨by omega, hm, (extract_eq_append_one_iff (by omega) (by omega)).2
      ⟨i + m, by omega, rfl, rfl, hz⟩, Bytes.size_extract_add (by omega)⟩
  · rintro ⟨hij, hj, hw, hs⟩
    obtain ⟨l, hil, rfl, rfl, hz⟩ := (extract_eq_append_one_iff hij (hj.trans hr)).1 hw
    rw [Bytes.size_extract_of_le (by omega)] at hs
    obtain rfl : l = i + m := by omega
    exact ⟨hj, rfl, hz, rfl⟩

theorem reads_string : Reads (σ := σ) Prod.snd b (string b) IsCounted := by
  refine ((reads_lengthWord 1).bind (q := fun x r => terminated b r x.2)
    (M := fun (n : Nat) w (c : ByteArray) => w = c ++ one 0 ∧ c.size + 1 = n)
    fun x _ h => ?_).congr fun w c => ⟨?_, ?_⟩
  · obtain ⟨i, n⟩ := x
    obtain ⟨m, rfl⟩ : ∃ m, n = m + 1 := ⟨n - 1, (Nat.sub_add_cancel h.2).symm⟩
    exact (reads_terminated m).congr fun w c => and_congr_right fun _ => Nat.succ_inj.symm
  · rintro ⟨n, u, v, rfl, ⟨hl, hn⟩, rfl, rfl⟩
    exact ⟨u, hl, ByteArray.append_assoc.symm⟩
  · rintro ⟨l, hl, rfl⟩
    exact ⟨c.size + 1, l, c ++ one 0, ByteArray.append_assoc, ⟨hl, by omega⟩, rfl, rfl⟩

theorem enter_eq_ok {r q : Range} {n i j k : Nat} {s t : σ} :
    enter r i n j s = (.ok (q, k), t) ↔ i + n ≤ r.stop ∧ ⟨i, i + n⟩ = q ∧ j = k ∧ s = t := by
  unfold enter
  split
  next h => simp [fail, h]
  next h => simp [pure_apply, Nat.le_of_not_lt h, and_assoc]

theorem Reads.within {least : Nat} (body : Range → Read DecodeError σ α)
    {E : ByteArray → γ → Prop} (hl : 4 ≤ least)
    (hbody : ∀ q i, i ≤ q.stop → q.stop ≤ b.size → Fills f b q i (body q) E) :
    Reads f b (fun r => lengthWord b r least >>= fun x => enter r x.1 x.2 >>= body) fun w c =>
      least ≤ w.size ∧ ∃ l u, w = l ++ u ∧ IsLength l w.size ∧ E u c := by
  intro r i hi hr s c k
  constructor
  · rintro ⟨c', t', hc, rfl⟩
    obtain ⟨⟨i', n⟩, j, t, hx, he⟩ := bind_eq_ok.1 hc
    obtain ⟨hij, hj, hn, hm⟩ := (reads_lengthWord least r i hi hr s n j).1 ⟨_, t, hx, rfl⟩
    obtain rfl : i' = i := (lengthWord_eq_ok.1 hx).2.2.2.1
    have hs := hn.1.1
    rw [Bytes.size_extract_of_le (hj.trans hr)] at hs
    obtain ⟨q, _, _, hq, hb⟩ := bind_eq_ok.1 he
    obtain ⟨hin, rfl, rfl, rfl⟩ := enter_eq_ok.1 hq
    obtain ⟨rfl, hE⟩ := (hbody ⟨i', i' + n⟩ j (by dsimp only; omega) (by dsimp only; omega)
      t (f c') k).1 ⟨c', t', hb, rfl⟩
    have hw : (b.extract i' (i' + n)).size = n := Bytes.size_extract_add (hin.trans hr)
    have hjn : j ≤ i' + n := by omega
    refine ⟨hij.trans hjn, hin, hw.symm ▸ hm, b.extract i' j, b.extract j (i' + n),
      (Bytes.extract_append_extract_of_le hij hjn).symm, hw.symm ▸ hn, hE⟩
  · rintro ⟨hik, hk, hm, l, u, hw, hn, hE⟩
    obtain ⟨j, hij, hjk, rfl, rfl⟩ := Bytes.exists_of_extract_eq_append hik (hk.trans hr) hw
    rw [Bytes.size_extract_of_le (hk.trans hr)] at hn hm
    obtain ⟨⟨i', n⟩, t, hx, rfl⟩ :=
      (reads_lengthWord least r i hi hr s (k - i) j).2 ⟨hij, hjk.trans hk, hn, hm⟩
    obtain rfl : i' = i := (lengthWord_eq_ok.1 hx).2.2.2.1
    have hq : i' + (k - i') = k := by omega
    obtain ⟨c', t', hc, rfl⟩ :=
      (hbody ⟨i', i' + (k - i')⟩ j (by dsimp only; omega) (by dsimp only; omega) t c k).2
        ⟨hq.symm, by rwa [hq]⟩
    exact ⟨c', t', bind_eq_ok.2 ⟨_, j, t, hx, bind_eq_ok.2
      ⟨_, j, t, enter_eq_ok.2 ⟨by dsimp only; omega, rfl, rfl, rfl⟩, hc⟩⟩, rfl⟩

theorem fills_close {r : Range} {i : Nat} {a : α} (hi : i ≤ r.stop) (hr : r.stop ≤ b.size) :
    Fills (σ := σ) f b r i (do close r; return a) fun w c => w = ByteArray.empty ∧ c = f a := by
  intro s c j
  dsimp only
  rw [extract_eq_empty_iff hi hr]
  constructor
  · rintro ⟨a', t, h, rfl⟩
    obtain ⟨_, _, _, hc, h⟩ := bind_eq_ok.1 h
    obtain ⟨_, _, _, ho, hc⟩ := bind_eq_ok.1 hc
    obtain ⟨rfl, rfl, rfl⟩ := offset_eq_ok.1 ho
    split at hc
    next => exact (fail_ne_ok hc).elim
    next he =>
      obtain ⟨-, rfl, rfl⟩ := pure_eq_ok.1 hc
      obtain ⟨rfl, rfl, rfl⟩ := pure_eq_ok.1 h
      have hi := not_not.1 he
      exact ⟨hi, hi, rfl⟩
  · rintro ⟨rfl, rfl, rfl⟩
    refine ⟨a, s, bind_eq_ok.2 ⟨(), _, s, ?_, rfl⟩, rfl⟩
    exact bind_eq_ok.2 ⟨_, _, s, rfl, by rw [if_neg (not_not.2 rfl)]; rfl⟩

theorem Fills.offset_bind {r : Range} {i : Nat} {q : Nat → Read DecodeError σ β}
    {M : ByteArray → δ → Prop} (hq : Fills g b r i (q i) M) :
    Fills g b r i (Read.offset >>= q) M := hq

theorem Fills.fail {r : Range} {i : Nat} (e : DecodeError) :
    Fills (σ := σ) f b r i (Read.fail e) fun _ _ => False :=
  fun _ _ _ => ⟨fun ⟨_, _, h, _⟩ => (fail_ne_ok h).elim, fun h => h.2.elim⟩

theorem ofByte?_eq_none {x : UInt8} (h : Tag.ofByte? x = none) (t : Tag) : t.byte ≠ x := by
  rintro rfl
  cases h.symm.trans (Tag.ofByte?_byte t)

theorem byte_ne_zero (t : Tag) : t.byte ≠ 0 := by
  cases t <;> decide

theorem of_nextTag_eq_some {r : Range} {i j : Nat} {s t : σ} {tag : Tag}
    (h : nextTag? b r i s = (.ok (some tag, j), t)) :
    i < r.stop ∧ Bytes.at0 b i = tag.byte ∧ i + 1 = j := by
  obtain ⟨_, _, _, ho, h⟩ := bind_eq_ok.1 h
  obtain ⟨rfl, rfl, rfl⟩ := offset_eq_ok.1 ho
  obtain ⟨x, _, _, hx, h⟩ := bind_eq_ok.1 h
  obtain ⟨hi, rfl, rfl, rfl⟩ := word_eq_ok.1 hx
  split at h
  next =>
    obtain ⟨_, _, _, -, h⟩ := bind_eq_ok.1 h
    cases (pure_eq_ok.1 h).1
  next =>
    cases ht : Tag.ofByte? (Bytes.at0 b i) with
    | some tag' =>
      rw [ht] at h
      obtain ⟨hs, rfl, -⟩ := pure_eq_ok.1 h
      cases hs
      exact ⟨hi, (Tag.byte_of_ofByte? ht).symm, rfl⟩
    | none =>
      rw [ht] at h
      exact (fail_ne_ok h).elim

/-- The end of a range is told from a tag by the first byte. -/
theorem fills_nextTag {r : Range} {i : Nat} {q : Option Tag → Read DecodeError σ β}
    {E : Tag → ByteArray → δ → Prop} {a : β} (hi : i ≤ r.stop) (hr : r.stop ≤ b.size)
    (h0 : q none = Pure.pure a)
    (hq : ∀ t, i < r.stop → Fills g b r (i + 1) (q (some t)) (E t)) :
    Fills g b r i (nextTag? b r >>= q) fun w d =>
      (w = one 0 ∧ d = g a) ∨ ∃ t u, w = one (Tag.byte t) ++ u ∧ E t u d := by
  rw [nextTag?, bind_assoc]
  apply Fills.offset_bind
  rw [bind_assoc]
  refine (Fills.bind hi hr reads_byte (M := fun x u d =>
    (x = 0 ∧ u = ByteArray.empty ∧ d = g a) ∨ ∃ t, Tag.byte t = x ∧ E t u d)
    fun x j hij hj hx => ?_).congr fun w d => ⟨?_, ?_⟩
  · have hs : (b.extract i j).size = 1 := by rw [hx]; rfl
    rw [Bytes.size_extract_of_le (hj.trans hr)] at hs
    obtain rfl : j = i + 1 := by omega
    change Fills g b r (i + 1) _ fun u d =>
      (x = 0 ∧ u = ByteArray.empty ∧ d = g a) ∨ ∃ t, Tag.byte t = x ∧ E t u d
    by_cases h : x = 0
    · subst h
      rw [if_pos rfl, bind_assoc, pure_bind, h0]
      refine (fills_close hj hr).congr fun u d => ⟨fun h => .inl ⟨rfl, h⟩, ?_⟩
      rintro (⟨-, h⟩ | ⟨t, ht, -⟩)
      · exact h
      · exact (byte_ne_zero t ht).elim
    · rw [if_neg h]
      cases ht : Tag.ofByte? x with
      | some t =>
        refine (hq t hj).congr fun u d => ⟨fun hE => .inr ⟨t, Tag.byte_of_ofByte? ht, hE⟩, ?_⟩
        rintro (⟨hx, -⟩ | ⟨t', rfl, hE⟩)
        · exact (h hx).elim
        · rw [Tag.ofByte?_byte] at ht
          exact Option.some.inj ht ▸ hE
      | none =>
        refine (Fills.fail _).congr fun u d => ⟨False.elim, ?_⟩
        rintro (⟨hx, -⟩ | ⟨t, hx, -⟩)
        · exact h hx
        · exact ofByte?_eq_none ht t hx
  · rintro ⟨x, u, v, rfl, rfl, ⟨rfl, rfl, rfl⟩ | ⟨t, rfl, hE⟩⟩
    · exact .inl ⟨ByteArray.append_empty, rfl⟩
    · exact .inr ⟨t, v, rfl, hE⟩
  · rintro (⟨rfl, rfl⟩ | ⟨t, u, rfl, hE⟩)
    · exact ⟨0, one 0, ByteArray.empty, ByteArray.append_empty.symm, rfl, .inl ⟨rfl, rfl, rfl⟩⟩
    · exact ⟨t.byte, one t.byte, u, rfl, rfl, .inr ⟨t, rfl, hE⟩⟩

end Decode

end DocumentServer
