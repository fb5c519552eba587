import DocumentServer.Proofs.Handles
import DocumentServer.Proofs.Keepers

namespace DocumentServer

section Handles

-- Which texts are interned, by whether they are keys, whether they are likely to recur and what
-- they say.
variable (pools : Bool → Bool → String → Bool)

def Handle.ofKey (t : Text) : Handle :=
  ⟨t, pools true (t.content.utf8ByteSize ≤ Decode.likelyKeySize) t.content⟩

def Handle.ofString (t : Text) : Handle := ⟨t, pools false false t.content⟩

def Scalar.handles : Scalar Text → Multiset Handle
  | .string t | .javascript t | .symbol t | .dbPointer t _ => {Handle.ofString pools t}
  | .regex p o => {Handle.ofString pools p} + {⟨o, pools false true o.content⟩}
  | _ => 0

mutual

def Value.handles : Value Text → Multiset Handle
  | .scalar s => s.handles pools
  | .document es => Document.handles es
  | .array vs => Value.handlesAll vs
  | .codeWithScope c es => {Handle.ofString pools c} + Document.handles es

def Document.handles : List (Text × Value Text) → Multiset Handle
  | [] => 0
  | (k, v) :: es => {Handle.ofKey pools k} + v.handles + Document.handles es

def Value.handlesAll : List (Value Text) → Multiset Handle
  | [] => 0
  | v :: vs => v.handles + Value.handlesAll vs

end

variable {pools}

@[simp] theorem Handle.text_ofKey (t : Text) : (Handle.ofKey pools t).text = t := rfl

@[simp] theorem Handle.text_ofString (t : Text) : (Handle.ofString pools t).text = t := rfl

theorem Scalar.map_text_handles (s : Scalar Text) :
    (s.handles pools).map Handle.text = ↑s.strings := by
  cases s <;> rfl

mutual

theorem Value.map_text_handles (v : Value Text) :
    (v.handles pools).map Handle.text = ↑(v.keys ++ v.strings) := by
  cases v with
  | scalar s => exact s.map_text_handles
  | document es => exact Document.map_text_handles es
  | array vs => exact Value.map_text_handlesAll vs
  | codeWithScope c es =>
    rw [Value.handles, Multiset.map_add, Document.map_text_handles es, Multiset.map_singleton,
      Handle.text_ofString, Multiset.singleton_add, Multiset.cons_coe, Value.keys, Value.strings]
    exact Multiset.coe_eq_coe.2 List.perm_middle.symm

theorem Document.map_text_handles (d : List (Text × Value Text)) :
    (Document.handles pools d).map Handle.text = ↑(Document.allKeys d ++ Document.strings d) := by
  cases d with
  | nil => rfl
  | cons e es =>
    rw [Document.handles, Multiset.map_add, Multiset.map_add, Multiset.map_singleton,
      Value.map_text_handles e.2, Document.map_text_handles es, Document.allKeys, Document.strings]
    simp only [Handle.text_ofKey, List.cons_append, ← Multiset.cons_coe, ← Multiset.coe_add,
      ← Multiset.singleton_add]
    abel

theorem Value.map_text_handlesAll (vs : List (Value Text)) :
    (Value.handlesAll pools vs).map Handle.text = ↑(Value.keysAll vs ++ Value.stringsAll vs) := by
  cases vs with
  | nil => rfl
  | cons v vs =>
    rw [Value.handlesAll, Multiset.map_add, Value.map_text_handles v, Value.map_text_handlesAll vs,
      Value.keysAll, Value.stringsAll]
    simp only [← Multiset.coe_add]
    exact add_add_add_comm _ _ _ _

end

mutual

theorem Value.ofKey_mem_handles {k : Text} (v : Value Text) (hk : k ∈ v.keys) :
    Handle.ofKey pools k ∈ v.handles pools := by
  cases v with
  | scalar s => cases hk
  | document es => exact Document.ofKey_mem_handles es hk
  | array vs => exact Value.ofKey_mem_handlesAll vs hk
  | codeWithScope c es => exact Multiset.mem_add.2 (.inr (Document.ofKey_mem_handles es hk))

theorem Document.ofKey_mem_handles {k : Text} (d : List (Text × Value Text))
    (hk : k ∈ Document.allKeys d) : Handle.ofKey pools k ∈ Document.handles pools d := by
  cases d with
  | nil => cases hk
  | cons e es =>
    rw [Document.allKeys, List.mem_cons, List.mem_append] at hk
    rw [Document.handles, Multiset.mem_add, Multiset.mem_add, Multiset.mem_singleton]
    rcases hk with rfl | hk | hk
    · exact .inl (.inl rfl)
    · exact .inl (.inr (Value.ofKey_mem_handles e.2 hk))
    · exact .inr (Document.ofKey_mem_handles es hk)

theorem Value.ofKey_mem_handlesAll {k : Text} (vs : List (Value Text))
    (hk : k ∈ Value.keysAll vs) : Handle.ofKey pools k ∈ Value.handlesAll pools vs := by
  cases vs with
  | nil => cases hk
  | cons v vs =>
    rw [Value.keysAll, List.mem_append] at hk
    rw [Value.handlesAll, Multiset.mem_add]
    exact hk.imp (Value.ofKey_mem_handles v) (Value.ofKey_mem_handlesAll vs)

end

namespace Document

theorem handles_append (d e : Document Text) :
    handles pools (d ++ e) = handles pools d + handles pools e := by
  induction d with
  | nil => rw [List.nil_append, handles, zero_add]
  | cons x d ih => rw [List.cons_append, handles, handles, ih, add_assoc _ (handles pools d)]

theorem handles_modify {d : Document Text} {i : Nat} {e : Text × Value Text} (h : d[i]? = some e)
    (v : Value Text) :
    e.2.handles pools + handles pools (d.modify i fun e => (e.1, v)) =
      v.handles pools + handles pools d := by
  induction d generalizing i with
  | nil => cases h
  | cons x d ih =>
    cases i with
    | zero =>
      obtain rfl : x = e := Option.some.inj h
      rw [List.modify_zero_cons, handles, handles]
      abel
    | succ i =>
      rw [List.modify_succ_cons, handles, handles, add_left_comm, ih h, add_left_comm]

theorem getElem?_of_place? {d : Document Text} {key : String} {i : Nat}
    (h : place? d key = some i) : ∃ e, d[i]? = some e := by
  obtain ⟨hi, -⟩ := List.findIdx?_eq_some_iff_getElem.1 h
  rw [keys, List.length_map] at hi
  exact ⟨d[i], List.getElem?_eq_getElem hi⟩

/-- What is displaced by an insertion is all that goes. -/
theorem Builder.Indexed.handles_insert {b : Builder Text} (h : b.Indexed) (key : Text)
    (v : Value Text) :
    ∃ gs : Multiset Handle, gs.map Handle.text = ↑(b.displaced key) ∧
      v.handles pools + ({Handle.ofKey pools key} + handles pools b.build) =
        gs + handles pools (b.insert key v).build := by
  rw [Builder.build_insert h, Builder.displaced, Builder.position?_eq h]
  cases hp : place? b.build (HasContent.content key) with
  | none =>
    refine ⟨0, rfl, ?_⟩
    rw [insert_of_notMem v ((place?_eq_none_iff _ _).1 hp), handles_append, handles, handles]
    abel
  | some i =>
    obtain ⟨e, he⟩ := getElem?_of_place? hp
    have hb : b.entries[i]? = some e := by
      rw [← Array.getElem?_toList]
      exact he
    refine ⟨{Handle.ofKey pools key} + e.2.handles pools, ?_, ?_⟩
    · simp only [hb]
      rw [Multiset.map_add, e.2.map_text_handles]
      rfl
    · rw [insert_of_place? v hp, add_assoc, handles_modify he]
      abel

end Document

theorem Value.handlesAll_append (vs ws : List (Value Text)) :
    Value.handlesAll pools (vs ++ ws) = Value.handlesAll pools vs + Value.handlesAll pools ws := by
  induction vs with
  | nil => rw [List.nil_append, Value.handlesAll, zero_add]
  | cons v vs ih => rw [List.cons_append, Value.handlesAll, Value.handlesAll, ih, add_assoc]

end Handles

namespace Read

variable {ε σ σ' α α' β β' : Type}

/-- Two outcomes of steps and what is booked: the results with what they hold, or two errors. -/
inductive Settles (I : σ → σ' → Multiset Handle → Prop) (post : α → Multiset Handle)
    (hs : Multiset Handle) : Except ε (α × Nat) × σ → Except ε (α' × Nat) × σ' → Prop
  | ok {a b s t} (i : Nat) (h : I s t (post a + hs)) :
    Settles I post hs (.ok (a, i), s) (.ok (b, i), t)
  | error {e e' s t} (gs : Multiset Handle) (h : I s t (gs + hs)) :
    Settles I post hs (.error e, s) (.error e', t)

/-- Steps that trade the handles `pre` for those of the result, whatever else is held. -/
def Moves (I : σ → σ' → Multiset Handle → Prop) (pre : Multiset Handle) (p : Read ε σ α)
    (q : Read ε σ' α') (post : α → Multiset Handle) : Prop :=
  ∀ i s t hs, I s t (pre + hs) → Settles I post hs (p i s) (q i t)

namespace Moves

variable {I : σ → σ' → Multiset Handle → Prop} {own rest pre : Multiset Handle} {p : Read ε σ α}
  {q : Read ε σ' α'} {mid : α → Multiset Handle} {post : β → Multiset Handle}
  {f : α → Read ε σ β} {g : α' → Read ε σ' β'}

theorem pure {a : α} (b : α') (h : mid a = pre) : Moves I pre (Pure.pure a : Read ε σ α)
    (Pure.pure b : Read ε σ' α') mid := by
  intro i s t hs hI
  rw [← h] at hI
  exact .ok i hI

theorem fail (e e' : ε) :
    Moves I pre (Read.fail e : Read ε σ α) (Read.fail e' : Read ε σ' α') mid :=
  fun _ _ _ _ hI => .error pre hI

theorem bind (h : Moves I own p q mid) (hf : ∀ a b, Moves I (mid a + rest) (f a) (g b) post) :
    Moves I (own + rest) (p >>= f) (q >>= g) post := by
  intro i s t hs hI
  rw [add_assoc] at hI
  have hm := h i s t _ hI
  rw [bind_apply, bind_apply]
  revert hm
  generalize p i s = x
  generalize q i t = y
  intro hm
  cases hm with
  | ok j hI =>
    rw [← add_assoc] at hI
    exact hf _ _ j _ _ hs hI
  | error gs hI =>
    rw [← add_assoc] at hI
    exact .error _ hI

theorem gain (h : Moves I 0 p q mid) (hf : ∀ a b, Moves I (mid a + rest) (f a) (g b) post) :
    Moves I rest (p >>= f) (q >>= g) post := by
  rw [← zero_add rest]
  exact h.bind hf

theorem before {p : Read ε σ α} {q : Read ε σ' α} {g : α → Read ε σ' β'} (h : Quiet p q)
    (hf : ∀ a, Moves I pre (f a) (g a) post) : Moves I pre (p >>= f) (q >>= g) post := by
  intro i s t hs hI
  obtain ⟨x, hp, hq⟩ := h i
  rw [bind_apply, bind_apply, hp, hq]
  cases x with
  | error e => exact .error pre hI
  | ok a => exact hf a.1 a.2 s t hs hI

theorem map {f : α → β} {g : α' → β'} (h : Moves I pre p q mid) (hf : ∀ a, post (f a) = mid a) :
    Moves I pre (p >>= fun a => Pure.pure (f a)) (q >>= fun b => Pure.pure (g b)) post := by
  rw [← add_zero pre]
  exact h.bind fun a b => .pure _ (by rw [hf, add_zero])

end Moves

end Read

/-- A keeper whose texts are booked: what is kept is held from then on, until it is dropped. -/
structure Keeper.Booked {σ σ' τ : Type} (I : σ → σ' → Multiset Handle → Prop)
    (pools : Bool → Bool → String → Bool) (k : Keeper σ Text) (l : Keeper σ' τ) : Prop where
  faithful : k.Faithful
  keep : ∀ f s t hs, I s t hs →
    I (k.keep f s).2 (l.keep f t).2 ({⟨(k.keep f s).1, pools f.isKey f.likely f.content⟩} + hs)
  drop : ∀ ts us gs s t hs, gs.map Handle.text = ↑ts → I s t (gs + hs) →
    I (k.drop ts s) (l.drop us t) hs

namespace Decode

open Read

variable {σ σ' τ α β : Type} {I : σ → σ' → Multiset Handle → Prop}
  {pools : Bool → Bool → String → Bool} {k : Keeper σ Text} {l : Keeper σ' τ} {b : ByteArray} {r : Range}

theorem moves_keep (h : Keeper.Booked I pools k l) {isKey likely : Bool} {x : Nat × ByteArray}
    {post : Text → Multiset Handle}
    (hp : ∀ t : Text, t.content.toUTF8 = x.2 → post t = {⟨t, pools isKey likely t.content⟩}) :
    Moves I 0 (keep k isKey likely x) (keep l isKey likely x) post := by
  intro i s t hs hI
  rw [zero_add] at hI
  unfold keep
  split
  next content hc =>
    have hf : ((k.keep ⟨x.1, content, isKey, likely⟩ s).1).content = content := h.faithful _ s
    refine .ok i ?_
    rw [hp _ ((congrArg String.toUTF8 hf).trans (fromUTF8?_eq_some_iff.1 hc)), hf]
    exact h.keep _ s t hs hI
  next => exact .error 0 (by rwa [zero_add])

theorem moves_key (h : Keeper.Booked I pools k l) :
    Moves I 0 (key k b r) (key l b r) fun t => {Handle.ofKey pools t} := by
  apply Moves.before (quiet_cstring b r)
  intro x
  apply moves_keep h
  intro t ht
  rw [Handle.ofKey, ← ht]
  rfl

theorem moves_text (h : Keeper.Booked I pools k l) :
    Moves I 0 (text k b r) (text l b r) fun t => {Handle.ofString pools t} :=
  Moves.before (quiet_string b r) fun _ => moves_keep h fun _ _ => rfl

theorem moves_regex (h : Keeper.Booked I pools k l) :
    Moves I 0 (regex k b r) (regex l b r) (Scalar.handles pools) := by
  have hk (likely : Bool) (x : Nat × ByteArray) : Moves I 0 (keep k false likely x)
      (keep l false likely x) fun t => {⟨t, pools false likely t.content⟩} :=
    moves_keep h fun _ _ => rfl
  apply Moves.before (quiet_cstring b r)
  intro x
  apply (hk false x).gain
  intro p q
  apply Moves.before (quiet_cstring b r)
  intro y
  apply (hk true y).gain
  intro o u
  apply Moves.pure
  rw [Scalar.handles, Handle.ofString]
  abel

theorem moves_dbPointer (h : Keeper.Booked I pools k l) :
    Moves I 0 (dbPointer k b r) (dbPointer l b r) (Scalar.handles pools) := by
  apply (moves_text h).gain
  intro t u
  apply Moves.before (quiet_objectId b r)
  intro o
  exact .pure _ (add_zero _).symm

theorem moves_binary :
    Moves I 0 (binary b r) (binary b r : Read DecodeError σ' (Scalar τ))
      (Scalar.handles pools) := by
  apply Moves.before (quiet_lengthWord b r 0)
  intro x
  apply Moves.before (quiet_byte b r)
  intro subtype
  apply Moves.before (quiet_slice b r x.2)
  intro bytes
  exact .pure _ rfl

theorem moves_drop (h : Keeper.Booked I pools k l) {gs : Multiset Handle} {ts : List Text}
    (hg : gs.map Handle.text = ↑ts) (us : List τ) :
    Moves I gs (drop k ts) (drop l us) fun _ => 0 := by
  intro i s t hs hI
  refine .ok i ?_
  rw [zero_add]
  exact h.drop ts us gs s t hs hg hI

variable [HasContent τ] {p : Range → Tag → Read DecodeError σ (Value Text)}
  {q : Range → Tag → Read DecodeError σ' (Value τ)}

theorem moves_entries (h : Keeper.Booked I pools k l)
    (hp : ∀ tag, Moves I 0 (p r tag) (q r tag) (Value.handles pools)) (fuel : Nat)
    {c : Document.Builder Text} (hc : c.Indexed) (d : Document.Builder τ) :
    Moves I (Document.handles pools c.build) (entries k b p r fuel c) (entries l b q r fuel d)
      (Document.handles pools) := by
  induction fuel generalizing c d with
  | zero => exact Moves.before .offset fun i => .fail _ _
  | succ fuel ih =>
    apply Moves.before (quiet_nextTag b r)
    intro tag
    cases tag with
    | none => exact .pure _ rfl
    | some tag =>
      apply (moves_key h).gain
      intro name other
      apply (hp tag).gain
      intro v w
      -- what the insertion displaces is dropped, and the builder holds the rest
      obtain ⟨gs, hg, he⟩ := hc.handles_insert name v
      rw [he]
      apply (moves_drop h hg _).bind
      intro _ _
      rw [zero_add]
      exact ih (hc.insert name v) _

omit [HasContent τ] in
theorem moves_items (hp : ∀ tag, Moves I 0 (p r tag) (q r tag) (Value.handles pools)) (fuel : Nat)
    (vs : Array (Value Text)) (ws : Array (Value τ)) :
    Moves I (Value.handlesAll pools vs.toList) (items b p r fuel vs) (items b q r fuel ws)
      (Value.handlesAll pools) := by
  induction fuel generalizing vs ws with
  | zero => exact Moves.before .offset fun i => .fail _ _
  | succ fuel ih =>
    apply Moves.before (quiet_nextTag b r)
    intro tag
    cases tag with
    | none => exact .pure _ rfl
    | some tag =>
      apply Moves.before (quiet_cstring b r)
      intro _
      apply (hp tag).gain
      intro v w
      have hv := ih (vs.push v) (ws.push w)
      rw [Array.toList_push, Value.handlesAll_append, add_comm, Value.handlesAll,
        Value.handlesAll, add_zero] at hv
      exact hv

omit [HasContent τ] in
theorem moves_nested {post : α → Multiset Handle} {f : Range → Nat → Read DecodeError σ α}
    {g : Range → Nat → Read DecodeError σ' β} (h : ∀ x n, Moves I 0 (f x n) (g x n) post) :
    Moves I 0 (nested b r f) (nested b r g) post := by
  apply Moves.before (quiet_lengthWord b r minDocumentSize)
  intro x
  apply Moves.before (quiet_enter r x.1 x.2)
  intro inner
  apply Moves.before .offset
  intro j
  exact h inner _

variable {f : Range → Read DecodeError σ (Document Text)}
  {g : Range → Read DecodeError σ' (Document τ)}

omit [HasContent τ] in
theorem moves_codeWithScope (h : Keeper.Booked I pools k l)
    (hd : ∀ x : Range, Moves I 0 (f x) (g x) (Document.handles pools)) :
    Moves I 0 (codeWithScope k b f r) (codeWithScope l b g r) (Value.handles pools) := by
  apply Moves.before (quiet_lengthWord b r minCodeWithScopeSize)
  intro x
  apply Moves.before (quiet_enter r x.1 x.2)
  intro inner
  apply (moves_text h).gain
  intro c c'
  apply (hd inner).gain
  intro d e
  apply Moves.before (quiet_close inner)
  intro _
  apply Moves.pure
  rw [Value.handles]
  abel

structure Level.Books (I : σ → σ' → Multiset Handle → Prop)
    (pools : Bool → Bool → String → Bool) (x : Level σ Text) (y : Level σ' τ) : Prop where
  document : ∀ r, Moves I 0 (x.document r) (y.document r) (Document.handles pools)
  array : ∀ r, Moves I 0 (x.array r) (y.array r) (Value.handlesAll pools)

omit [HasContent τ] in
theorem moves_payload (h : Keeper.Booked I pools k l) {x : Level σ Text} {y : Level σ' τ}
    (hx : x.Books I pools y) (tag : Tag) :
    Moves I 0 (payload k b x r tag) (payload l b y r tag) (Value.handles pools) := by
  cases tag with
  | double => exact .before (quiet_uint64 b r) fun _ => .pure _ rfl
  | string => exact (moves_text h).map fun _ => rfl
  | document => exact (hx.document r).map fun _ => rfl
  | array => exact (hx.array r).map fun _ => rfl
  | binary => exact moves_binary.map fun _ => rfl
  | undefined => exact .pure _ rfl
  | objectId => exact .before (quiet_objectId b r) fun _ => .pure _ rfl
  | boolean => exact .before (quiet_boolean b r) fun _ => .pure _ rfl
  | datetime => exact .before (quiet_int64 b r) fun _ => .pure _ rfl
  | null => exact .pure _ rfl
  | regex => exact (moves_regex h).map fun _ => rfl
  | dbPointer => exact (moves_dbPointer h).map fun _ => rfl
  | javascript => exact (moves_text h).map fun _ => rfl
  | symbol => exact (moves_text h).map fun _ => rfl
  | codeWithScope => exact moves_codeWithScope h hx.document
  | int32 => exact .before (quiet_int32 b r) fun _ => .pure _ rfl
  | timestamp => exact .before (quiet_uint64 b r) fun _ => .pure _ rfl
  | int64 => exact .before (quiet_int64 b r) fun _ => .pure _ rfl
  | minKey => exact .pure _ rfl
  | maxKey => exact .pure _ rfl

theorem books_level (h : Keeper.Booked I pools k l) (n : Nat) :
    (level k b n).Books I pools (level l b n) := by
  induction n with
  | zero => exact ⟨fun _ => .fail _ _, fun _ => .fail _ _⟩
  | succ n ih =>
    have hd (r : Range) : Moves I 0
        (nested b r fun q size => entries k b (payload k b (level k b n)) q size .empty)
        (nested b r fun q size => entries l b (payload l b (level l b n)) q size .empty)
        (Document.handles pools) :=
      moves_nested fun x size =>
        moves_entries h (moves_payload h ih) size Document.Builder.indexed_empty _
    have ha (r : Range) : Moves I 0
        (nested b r fun q size => items b (payload k b (level k b n)) q size #[])
        (nested b r fun q size => items b (payload l b (level l b n)) q size #[])
        (Value.handlesAll pools) :=
      moves_nested fun x size => moves_items (moves_payload h ih) size #[] #[]
    exact ⟨hd, ha⟩

/-- A decoded document holds its texts and nothing else. -/
theorem settles_documentAt (h : Keeper.Booked I pools k l) (b : ByteArray) (i : Nat) {s : σ}
    {t : σ'} {hs : Multiset Handle} (hI : I s t hs) :
    Settles I (Document.handles pools) hs (documentAt k b i s) (documentAt l b i t) := by
  rw [← zero_add hs] at hI
  unfold documentAt
  dsimp only
  split
  · exact .error 0 hI
  · split
    · exact .error 0 hI
    · split
      · exact .error 0 hI
      · exact moves_entries h (moves_payload h (books_level h maxNesting)) _
          Document.Builder.indexed_empty _ 4 s t hs hI

end Decode

end DocumentServer
