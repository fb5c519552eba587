import DocumentServer.Proofs.Acceptance
import DocumentServer.Proofs.Related

namespace DocumentServer

namespace Read

variable {ε σ τ α β γ δ : Type}

/-- Two outcomes of steps: the same error, or related results at the same place. -/
inductive Matches (A : α → β → Prop) : Except ε (α × Nat) → Except ε (β × Nat) → Prop
  | ok {a b} (i : Nat) (h : A a b) : Matches A (.ok (a, i)) (.ok (b, i))
  | error (e : ε) : Matches A (.error e) (.error e)

/-- Steps that match from every place on, each in a state of its own. -/
def Parallel (A : α → β → Prop) (p : Read ε σ α) (q : Read ε τ β) : Prop :=
  ∀ i s t, Matches A (p i s).1 (q i t).1

namespace Parallel

variable {A : α → β → Prop} {B : γ → δ → Prop} {p : Read ε σ α} {q : Read ε τ β} {a : α} {b : β}

theorem pure (h : A a b) : Parallel A (Pure.pure a : Read ε σ α) (Pure.pure b : Read ε τ β) :=
  fun i _ _ => .ok i h

theorem fail (A : α → β → Prop) (e : ε) :
    Parallel A (Read.fail e : Read ε σ α) (Read.fail e : Read ε τ β) :=
  fun _ _ _ => .error e

theorem bind {f : α → Read ε σ γ} {g : β → Read ε τ δ} (h : Parallel A p q)
    (hf : ∀ a b, A a b → Parallel B (f a) (g b)) : Parallel B (p >>= f) (q >>= g) := by
  intro i s t
  have hm := h i s t
  rw [bind_apply, bind_apply]
  revert hm
  rcases p i s with ⟨x, s'⟩
  rcases q i t with ⟨y, t'⟩
  intro hm
  cases hm with
  | ok j ha => exact hf _ _ ha j s' t'
  | error e => exact .error e

theorem map {f : α → γ} {g : β → δ} (h : Parallel A p q) (hf : ∀ a b, A a b → B (f a) (g b)) :
    Parallel B (p >>= fun a => Pure.pure (f a)) (q >>= fun b => Pure.pure (g b)) :=
  h.bind fun a b hab => .pure (hf a b hab)

theorem before {q : Read ε τ α} {f : α → Read ε σ γ} {g : α → Read ε τ δ} (h : Parallel Eq p q)
    (hf : ∀ a, Parallel B (f a) (g a)) : Parallel B (p >>= f) (q >>= g) := by
  apply h.bind
  rintro a _ rfl
  exact hf a

theorem of_ok {P : α → Prop} (h : Parallel A p q)
    (hp : ∀ {i s a j t}, p i s = (.ok (a, j), t) → P a) :
    Parallel (fun a b => A a b ∧ P a) p q := by
  intro i s t
  have hm := h i s t
  rcases hs : p i s with ⟨x, s'⟩
  rw [hs] at hm
  generalize (q i t).1 = y at hm
  cases hm with
  | ok j ha => exact .ok j ⟨ha, hp hs⟩
  | error e => exact .error e

theorem offset : Parallel Eq (Read.offset : Read ε σ Nat) (Read.offset : Read ε τ Nat) :=
  fun i _ _ => .ok i rfl

end Parallel

/-- A step in two readings that looks at no state: whatever the states are, both leave them as they
are and end in the same way. -/
def Quiet (p : Read ε σ α) (q : Read ε τ α) : Prop :=
  ∀ i, ∃ x, (∀ s, p i s = (x, s)) ∧ ∀ t, q i t = (x, t)

namespace Quiet

variable {p : Read ε σ α} {q : Read ε τ α} {f : α → Read ε σ γ} {g : α → Read ε τ γ}

theorem pure (a : α) : Quiet (Pure.pure a : Read ε σ α) (Pure.pure a : Read ε τ α) :=
  fun i => ⟨.ok (a, i), fun _ => rfl, fun _ => rfl⟩

theorem fail (e : ε) : Quiet (Read.fail e : Read ε σ α) (Read.fail e : Read ε τ α) :=
  fun _ => ⟨.error e, fun _ => rfl, fun _ => rfl⟩

theorem offset : Quiet (Read.offset : Read ε σ Nat) (Read.offset : Read ε τ Nat) :=
  fun i => ⟨.ok (i, i), fun _ => rfl, fun _ => rfl⟩

theorem bind (h : Quiet p q) (hf : ∀ a, Quiet (f a) (g a)) : Quiet (p >>= f) (q >>= g) := by
  intro i
  obtain ⟨x, hp, hq⟩ := h i
  cases x with
  | error e => exact ⟨.error e, fun s => by rw [bind_apply, hp], fun t => by rw [bind_apply, hq]⟩
  | ok a =>
    obtain ⟨y, hy, hz⟩ := hf a.1 a.2
    refine ⟨y, fun s => ?_, fun t => ?_⟩
    · rw [bind_apply, hp]
      exact hy s
    · rw [bind_apply, hq]
      exact hz t

theorem parallel (h : Quiet p q) : Parallel Eq p q := by
  intro i s t
  obtain ⟨x, hp, hq⟩ := h i
  rw [hp, hq]
  cases x with
  | error e => exact .error e
  | ok a => exact .ok a.2 rfl

end Quiet

end Read

def Found.StandsIn (b : ByteArray) (f : Found) : Prop :=
  f.offset + f.content.utf8ByteSize < b.size ∧
    b.extract f.offset (f.offset + f.content.utf8ByteSize + 1) =
      f.content.toUTF8 ++ Grammar.one 0

/-- Keepers that give related texts for what stands in a region. -/
structure Keeper.Related {σ σ' τ τ' : Type} [HasContent τ] [HasContent τ'] (b : ByteArray)
    (K S : τ → τ' → Prop) (k : Keeper σ τ) (l : Keeper σ' τ') : Prop where
  key : ∀ f s t, f.StandsIn b → f.isKey = true → K (k.keep f s).1 (l.keep f t).1
  string : ∀ f s t, f.StandsIn b → f.isKey = false → S (k.keep f s).1 (l.keep f t).1
  content : ∀ x y, K x y → HasContent.content x = HasContent.content y

namespace Decode

open Read Grammar

variable {σ σ' τ τ' α β : Type} {b : ByteArray} {r : Range} {i j n : Nat} {s t : σ}

section Steps

variable (b : ByteArray) (r : Range)

theorem quiet_advance (n : Nat) :
    Quiet (advance r n : Read DecodeError σ Nat) (advance r n : Read DecodeError σ' Nat) := by
  intro i
  unfold advance
  split
  · exact ⟨_, fun _ => rfl, fun _ => rfl⟩
  · exact ⟨_, fun _ => rfl, fun _ => rfl⟩

theorem quiet_enter (i n : Nat) :
    Quiet (enter r i n : Read DecodeError σ Range) (enter r i n : Read DecodeError σ' Range) := by
  unfold enter
  split
  · exact .fail _
  · exact .pure _

theorem quiet_close :
    Quiet (close r : Read DecodeError σ Unit) (close r : Read DecodeError σ' Unit) := by
  apply Quiet.offset.bind
  intro i
  split
  · exact .fail _
  · exact .pure _

theorem quiet_byte :
    Quiet (byte b r : Read DecodeError σ UInt8) (byte b r : Read DecodeError σ' UInt8) :=
  (quiet_advance r 1).bind fun _ => .pure _

theorem quiet_int32 :
    Quiet (int32 b r : Read DecodeError σ Int32) (int32 b r : Read DecodeError σ' Int32) :=
  (quiet_advance r 4).bind fun _ => .pure _

theorem quiet_int64 :
    Quiet (int64 b r : Read DecodeError σ Int64) (int64 b r : Read DecodeError σ' Int64) :=
  (quiet_advance r 8).bind fun _ => .pure _

theorem quiet_uint64 :
    Quiet (uint64 b r : Read DecodeError σ UInt64) (uint64 b r : Read DecodeError σ' UInt64) :=
  (quiet_advance r 8).bind fun _ => .pure _

theorem quiet_slice (n : Nat) :
    Quiet (slice b r n : Read DecodeError σ ByteArray)
      (slice b r n : Read DecodeError σ' ByteArray) :=
  (quiet_advance r n).bind fun _ => .pure _

theorem quiet_objectId :
    Quiet (objectId b r : Read DecodeError σ ObjectId)
      (objectId b r : Read DecodeError σ' ObjectId) :=
  (quiet_advance r 12).bind fun _ => .pure _

theorem quiet_lengthWord (least : Nat) :
    Quiet (lengthWord b r least : Read DecodeError σ (Nat × Nat))
      (lengthWord b r least : Read DecodeError σ' (Nat × Nat)) := by
  apply Quiet.offset.bind
  intro i
  apply (quiet_int32 b r).bind
  intro n
  split
  · exact .fail _
  · exact .pure _

theorem quiet_cstring :
    Quiet (cstring b r : Read DecodeError σ (Nat × ByteArray))
      (cstring b r : Read DecodeError σ' (Nat × ByteArray)) := by
  intro i
  unfold cstring
  split
  · exact ⟨_, fun _ => rfl, fun _ => rfl⟩
  · exact ⟨_, fun _ => rfl, fun _ => rfl⟩

theorem quiet_string :
    Quiet (string b r : Read DecodeError σ (Nat × ByteArray))
      (string b r : Read DecodeError σ' (Nat × ByteArray)) := by
  apply (quiet_lengthWord b r 1).bind
  intro x
  apply (quiet_slice b r x.2).bind
  intro bytes
  apply Quiet.offset.bind
  intro j
  split
  · exact .pure _
  · exact .fail _

theorem quiet_nextTag :
    Quiet (nextTag? b r : Read DecodeError σ (Option Tag))
      (nextTag? b r : Read DecodeError σ' (Option Tag)) := by
  apply Quiet.offset.bind
  intro i
  apply (quiet_byte b r).bind
  intro x
  split
  · exact (quiet_close r).bind fun _ => .pure _
  · split
    · exact .pure _
    · exact .fail _

theorem quiet_boolean :
    Quiet (boolean b r : Read DecodeError σ Bool) (boolean b r : Read DecodeError σ' Bool) := by
  apply Quiet.offset.bind
  intro i
  apply (quiet_byte b r).bind
  intro x
  split
  · exact .pure _
  · split
    · exact .pure _
    · exact .fail _

theorem parallel_binary (S : τ → τ' → Prop) :
    Parallel (Scalar.Related S) (binary b r : Read DecodeError σ (Scalar τ))
      (binary b r : Read DecodeError σ' (Scalar τ')) := by
  apply (quiet_lengthWord b r 0).parallel.before
  intro x
  apply (quiet_byte b r).parallel.before
  intro subtype
  apply (quiet_slice b r x.2).parallel.before
  intro bytes
  exact .pure (.bare (.binary subtype bytes))

end Steps

def Stands (b : ByteArray) (x : Nat × ByteArray) : Prop :=
  x.1 + x.2.size < b.size ∧ b.extract x.1 (x.1 + x.2.size + 1) = x.2 ++ one 0

theorem stands_extract (hij : i ≤ j) (hj : j < b.size) (h0 : Bytes.at0 b j = 0) :
    Stands b (i, b.extract i j) := by
  have hs : i + (b.extract i j).size = j := by
    rw [Bytes.size_extract_of_le hj.le]
    omega
  refine ⟨by rw [hs]; exact hj, ?_⟩
  rw [hs]
  exact (extract_eq_append_one_iff (by omega) hj).2 ⟨j, hij, rfl, rfl, h0⟩

theorem stands_of_cstring (hr : r.stop ≤ b.size) {x : Nat × ByteArray}
    (h : cstring b r i s = (.ok (x, j), t)) : Stands b x := by
  unfold cstring at h
  split at h
  next m hm =>
    cases h
    obtain ⟨him, hmr, hz, -⟩ := Bytes.findZero?_eq_some_iff.1 hm
    exact stands_extract him (by omega) hz
  next => cases h

theorem stands_of_string (hr : r.stop ≤ b.size) {x : Nat × ByteArray}
    (h : string b r i s = (.ok (x, j), t)) : Stands b x := by
  obtain ⟨⟨_, n⟩, k, _, hl, h⟩ := bind_eq_ok.1 h
  have hn : 1 ≤ n := (lengthWord_eq_ok.1 hl).2.2.1
  obtain ⟨_, _, _, hw, h⟩ := bind_eq_ok.1 h
  obtain ⟨hk, rfl, rfl, rfl⟩ := slice_eq_ok.1 hw
  obtain ⟨_, _, _, ho, h⟩ := bind_eq_ok.1 h
  obtain ⟨rfl, rfl, rfl⟩ := offset_eq_ok.1 ho
  split at h
  next hz =>
    obtain ⟨rfl, -, -⟩ := pure_eq_ok.1 h
    have hx : (b.extract k (k + n)).extract 0 (n - 1) = b.extract k (k + n - 1) := by
      rw [ByteArray.extract_extract]
      congr 1
      omega
    rw [hx, Nat.add_sub_cancel]
    exact stands_extract (by omega) (by omega) hz
  next => exact (fail_ne_ok h).elim

section Keepers

variable [HasContent τ] [HasContent τ'] {K S : τ → τ' → Prop} {k : Keeper σ τ} {l : Keeper σ' τ'}

omit [HasContent τ] [HasContent τ'] in
theorem parallel_keep {A : τ → τ' → Prop} {isKey likely : Bool} {x : Nat × ByteArray}
    (h : ∀ f s t, f.StandsIn b → f.isKey = isKey → A (k.keep f s).1 (l.keep f t).1)
    (hx : Stands b x) : Parallel A (keep k isKey likely x) (keep l isKey likely x) := by
  intro i s t
  unfold keep
  split
  next content hc =>
    rw [Stands, ← fromUTF8?_eq_some_iff.1 hc] at hx
    exact .ok i (h ⟨x.1, content, isKey, likely⟩ s t hx rfl)
  next => exact .error _

theorem parallel_key (h : Keeper.Related b K S k l) (hr : r.stop ≤ b.size) :
    Parallel K (key k b r) (key l b r) := by
  apply ((quiet_cstring b r).parallel.of_ok (stands_of_cstring hr)).bind
  rintro x _ ⟨rfl, hx⟩
  exact parallel_keep h.key hx

theorem parallel_text (h : Keeper.Related b K S k l) (hr : r.stop ≤ b.size) :
    Parallel S (text k b r) (text l b r) := by
  apply ((quiet_string b r).parallel.of_ok (stands_of_string hr)).bind
  rintro x _ ⟨rfl, hx⟩
  exact parallel_keep h.string hx

theorem parallel_regex (h : Keeper.Related b K S k l) (hr : r.stop ≤ b.size) :
    Parallel (Scalar.Related S) (regex k b r) (regex l b r) := by
  have hc : Parallel (fun x y => x = y ∧ Stands b x) (cstring b r : Read DecodeError σ _)
      (cstring b r : Read DecodeError σ' _) :=
    (quiet_cstring b r).parallel.of_ok (stands_of_cstring hr)
  apply hc.bind
  rintro x _ ⟨rfl, hx⟩
  apply (parallel_keep h.string hx).bind
  intro p q hp
  apply hc.bind
  rintro y _ ⟨rfl, hy⟩
  exact (parallel_keep h.string hy).map fun _ _ ho => .regex hp ho

theorem parallel_dbPointer (h : Keeper.Related b K S k l) (hr : r.stop ≤ b.size) :
    Parallel (Scalar.Related S) (dbPointer k b r) (dbPointer l b r) := by
  apply (parallel_text h hr).bind
  intro x y hxy
  exact (quiet_objectId b r).parallel.before fun o => .pure (.dbPointer hxy o)

omit [HasContent τ] [HasContent τ'] in
theorem parallel_drop (ts : List τ) (us : List τ') : Parallel Eq (drop k ts) (drop l us) :=
  fun i _ _ => .ok i rfl

variable {p : Range → Tag → Read DecodeError σ (Value τ)}
  {q : Range → Tag → Read DecodeError σ' (Value τ')}

theorem parallel_entries (h : Keeper.Related b K S k l) (hr : r.stop ≤ b.size)
    (hp : ∀ tag, Parallel (Value.Related K S) (p r tag) (q r tag)) (fuel : Nat)
    {c : Document.Builder τ} {d : Document.Builder τ'} (hc : c.Related K S d) :
    Parallel (Document.Related K S) (entries k b p r fuel c) (entries l b q r fuel d) := by
  induction fuel generalizing c d with
  | zero => exact Parallel.offset.before fun i => .fail _ _
  | succ fuel ih =>
    apply (quiet_nextTag b r).parallel.before
    intro tag
    cases tag with
    | none => exact .pure hc.build
    | some tag =>
      apply (parallel_key h hr).bind
      intro name other hn
      apply (hp tag).bind
      intro v w hv
      apply (parallel_drop _ _).before
      intro _
      exact ih (hc.insert h.content hn hv)

omit [HasContent τ] [HasContent τ'] in
theorem parallel_items (hp : ∀ tag, Parallel (Value.Related K S) (p r tag) (q r tag)) (fuel : Nat)
    {vs : Array (Value τ)} {ws : Array (Value τ')}
    (hv : Value.RelatedAll K S vs.toList ws.toList) :
    Parallel (Value.RelatedAll K S) (items b p r fuel vs) (items b q r fuel ws) := by
  induction fuel generalizing vs ws with
  | zero => exact Parallel.offset.before fun i => .fail _ _
  | succ fuel ih =>
    apply (quiet_nextTag b r).parallel.before
    intro tag
    cases tag with
    | none => exact .pure hv
    | some tag =>
      apply (quiet_cstring b r).parallel.before
      intro _
      apply (hp tag).bind
      intro v w hw
      apply ih
      rw [Array.toList_push, Array.toList_push]
      exact hv.push hw

omit [HasContent τ] [HasContent τ'] in
theorem parallel_enter_within (hr : r.stop ≤ b.size) (i n : Nat) :
    Parallel (fun x y : Range => x = y ∧ x.stop ≤ b.size)
      (enter r i n : Read DecodeError σ Range) (enter r i n : Read DecodeError σ' Range) := by
  apply (quiet_enter r i n).parallel.of_ok
  intro i' s x j t h
  obtain ⟨hn, rfl, -, -⟩ := enter_eq_ok.1 h
  exact hn.trans hr

omit [HasContent τ] [HasContent τ'] in
theorem parallel_nested {A : α → β → Prop} {f : Range → Nat → Read DecodeError σ α}
    {g : Range → Nat → Read DecodeError σ' β} (hr : r.stop ≤ b.size)
    (h : ∀ x n, x.stop ≤ b.size → Parallel A (f x n) (g x n)) :
    Parallel A (nested b r f) (nested b r g) := by
  apply (quiet_lengthWord b r minDocumentSize).parallel.before
  intro x
  apply (parallel_enter_within hr x.1 x.2).bind
  rintro inner _ ⟨rfl, hi⟩
  apply Parallel.offset.before
  intro j
  exact h inner _ hi

variable {f : Range → Read DecodeError σ (Document τ)}
  {g : Range → Read DecodeError σ' (Document τ')}

theorem parallel_codeWithScope (h : Keeper.Related b K S k l) (hr : r.stop ≤ b.size)
    (hd : ∀ x : Range, x.stop ≤ b.size → Parallel (Document.Related K S) (f x) (g x)) :
    Parallel (Value.Related K S) (codeWithScope k b f r) (codeWithScope l b g r) := by
  apply (quiet_lengthWord b r minCodeWithScopeSize).parallel.before
  intro x
  apply (parallel_enter_within hr x.1 x.2).bind
  rintro inner _ ⟨rfl, hi⟩
  apply (parallel_text h hi).bind
  intro c c' hc
  apply (hd inner hi).bind
  intro d e he
  exact (quiet_close inner).parallel.before fun _ => .pure (.codeWithScope hc he)

structure Level.Related (b : ByteArray) (K S : τ → τ' → Prop) (x : Level σ τ) (y : Level σ' τ') :
    Prop where
  document : ∀ r : Range, r.stop ≤ b.size →
    Parallel (Document.Related K S) (x.document r) (y.document r)
  array : ∀ r : Range, r.stop ≤ b.size →
    Parallel (Value.RelatedAll K S) (x.array r) (y.array r)

theorem parallel_payload (h : Keeper.Related b K S k l) {x : Level σ τ} {y : Level σ' τ'}
    (hx : x.Related b K S y) (hr : r.stop ≤ b.size) (tag : Tag) :
    Parallel (Value.Related K S) (payload k b x r tag) (payload l b y r tag) := by
  cases tag with
  | double =>
    exact (quiet_uint64 b r).parallel.before fun n => .pure (.scalar (.bare (.double ⟨n⟩)))
  | string => exact (parallel_text h hr).map fun _ _ ht => .scalar (.string ht)
  | document => exact (hx.document r hr).map fun _ _ hd => .document hd
  | array => exact (hx.array r hr).map fun _ _ hv => .array hv
  | binary => exact (parallel_binary b r S).map fun _ _ hs => .scalar hs
  | undefined => exact .pure (.scalar (.bare .undefined))
  | objectId =>
    exact (quiet_objectId b r).parallel.before fun o => .pure (.scalar (.bare (.objectId o)))
  | boolean =>
    exact (quiet_boolean b r).parallel.before fun c => .pure (.scalar (.bare (.boolean c)))
  | datetime =>
    exact (quiet_int64 b r).parallel.before fun n => .pure (.scalar (.bare (.datetime n)))
  | null => exact .pure (.scalar (.bare .null))
  | regex => exact (parallel_regex h hr).map fun _ _ hs => .scalar hs
  | dbPointer => exact (parallel_dbPointer h hr).map fun _ _ hs => .scalar hs
  | javascript => exact (parallel_text h hr).map fun _ _ ht => .scalar (.javascript ht)
  | symbol => exact (parallel_text h hr).map fun _ _ ht => .scalar (.symbol ht)
  | codeWithScope => exact parallel_codeWithScope h hr hx.document
  | int32 => exact (quiet_int32 b r).parallel.before fun n => .pure (.scalar (.bare (.int32 n)))
  | timestamp =>
    exact (quiet_uint64 b r).parallel.before fun n => .pure (.scalar (.bare (.timestamp ⟨n⟩)))
  | int64 => exact (quiet_int64 b r).parallel.before fun n => .pure (.scalar (.bare (.int64 n)))
  | minKey => exact .pure (.scalar (.bare .minKey))
  | maxKey => exact .pure (.scalar (.bare .maxKey))

theorem related_level (h : Keeper.Related b K S k l) (n : Nat) :
    (level k b n).Related b K S (level l b n) := by
  induction n with
  | zero => exact ⟨fun _ _ => .fail _ _, fun _ _ => .fail _ _⟩
  | succ n ih =>
    have hp {r : Range} (hr : r.stop ≤ b.size) := parallel_payload h ih hr
    refine ⟨fun r hr => parallel_nested hr fun x n hx => ?_,
      fun r hr => parallel_nested hr fun x n hx => ?_⟩
    · exact parallel_entries h hx (hp hx) n Document.Builder.related_empty
    · exact parallel_items (hp hx) n .nil

theorem parallel_root (h : Keeper.Related b K S k l) (levels : Nat) :
    Parallel (Document.Related K S) (root k levels b) (root l levels b) :=
  parallel_entries h le_rfl (parallel_payload h (related_level h levels) le_rfl) _
    Document.Builder.related_empty

/-- Keepers that agree on the texts of every region give the same error, or related documents of the
same length. -/
theorem documentAt_cases {K S : ByteArray → τ → τ' → Prop}
    (h : ∀ w, Keeper.Related w (K w) (S w) k l) (hk : k.Faithful) (b : ByteArray) (i : Nat) (s : σ)
    (t : σ') :
    (∃ e, (documentAt k b i s).1 = .error e ∧ (documentAt l b i t).1 = .error e) ∨
      ∃ d e n, (documentAt k b i s).1 = .ok (d, n) ∧ (documentAt l b i t).1 = .ok (e, n) ∧
        Document.Related (K (b.extract i (i + n))) (S (b.extract i (i + n))) d e := by
  by_cases hl : ∃ n : Nat, minDocumentSize ≤ n ∧ i + n ≤ b.size ∧ (Bytes.int32 b i).toInt = n
  · obtain ⟨n, h5, hn, hl⟩ := hl
    have hs := Bytes.size_extract_add hn
    rw [documentAt_of_length h5 hn hl, documentAt_of_length h5 hn hl]
    have hm := parallel_root (h (b.extract i (i + n))) maxNesting 4 s t
    have hf := fills_root hk maxNesting (w := b.extract i (i + n)) (by
      rw [hs]
      exact Nat.le_of_succ_le h5)
    generalize hx : (root k maxNesting (b.extract i (i + n)) 4 s) = x at hm ⊢
    generalize (root l maxNesting (b.extract i (i + n)) 4 t).1 = y at hm ⊢
    obtain ⟨x, s'⟩ := x
    cases hm with
    | @ok d e j hd =>
      obtain ⟨rfl, -⟩ := (hf s _ j).1 ⟨d, s', hx, rfl⟩
      dsimp only at hd ⊢
      rw [hs]
      exact .inr ⟨d, e, n, rfl, rfl, hd⟩
    | error e => exact .inl ⟨e, rfl, rfl⟩
  · left
    unfold documentAt
    by_cases h4 : b.size - i < 4
    · simp [h4]
    · by_cases hm : (Bytes.int32 b i).toInt < minDocumentSize
      · simp [h4, hm]
      · by_cases ha : (Bytes.int32 b i).toInt.toNat > b.size - i
        · simp only [h4, hm, ha, if_true, if_false]
          exact ⟨_, rfl, rfl⟩
        · rw [minDocumentSize] at hm hl
          exact absurd ⟨(Bytes.int32 b i).toInt.toNat, by omega, by omega, by omega⟩ hl

end Keepers

end Decode

end DocumentServer
