import DocumentServer.Codec.Pool
import DocumentServer.Proofs.Builder
import DocumentServer.Proofs.Reading

namespace DocumentServer

namespace Grammar

theorem merged_eq_foldl (es : List (String × Value String)) :
    merged es = es.foldl (fun d e => Document.insert d e.1 e.2) [] := by
  induction es using List.reverseRecOn with
  | nil => rfl
  | append_singleton es e ih => rw [merged_concat, ih, List.foldl_concat]

end Grammar

/-- A keeper whose texts say what was met. -/
def Keeper.Faithful {σ τ : Type} [HasContent τ] (k : Keeper σ τ) : Prop :=
  ∀ f s, HasContent.content (k.keep f s).1 = f.content

namespace Decode

open Grammar

variable {σ τ : Type} [HasContent τ] {k : Keeper σ τ} {b : ByteArray}

theorem reads_boolean :
    Reads (σ := σ) id b (boolean b) fun w v => w = one (if v then 1 else 0) := by
  refine Reads.offset_bind fun i => (reads_byte.bind
    (M := fun x w v => w = ByteArray.empty ∧ x = if v then 1 else 0) fun x _ _ => ?_).congr
      fun w v => ⟨?_, ?_⟩
  · change Reads id b _ fun w (v : Bool) => w = ByteArray.empty ∧ x = if v then 1 else 0
    by_cases h0 : x = 0
    · simp only [h0, if_true]
      exact (Reads.pure false).congr fun w v => by cases v <;> simp
    · by_cases h1 : x = 1
      · simp only [h1, if_true]
        exact (Reads.pure true).congr fun w v => by cases v <;> simp
      · simp only [h0, h1, if_false]
        exact (Reads.fail _).congr fun w v => by cases v <;> simp [h0, h1]
  · rintro ⟨x, u, v, rfl, rfl, rfl, rfl⟩
    exact ByteArray.append_empty
  · rintro rfl
    exact ⟨_, _, ByteArray.empty, ByteArray.append_empty.symm, rfl, rfl, rfl⟩

theorem reads_binary :
    Reads (σ := σ) (Scalar.mapTexts (HasContent.content (τ := τ))) b (binary b)
      (IsScalar .binary) := by
  refine ((reads_lengthWord 0).bind (M := fun (n : Nat) w s =>
    ∃ t u v, w = u ++ v ∧ u = one t ∧ ∃ c, (v = c ∧ c.size = n) ∧ s = Scalar.binary t c)
      fun a w h => ?_).congr fun w s => ⟨?_, ?_⟩
  · refine reads_byte.bind fun x _ _ => ?_
    exact (reads_slice a.2).map fun c => rfl
  · rintro ⟨n, l, v, rfl, ⟨hl, hn⟩, t, u, c, rfl, rfl, c, ⟨rfl, rfl⟩, rfl⟩
    rw [← ByteArray.append_assoc]
    exact .binary hl
  · rintro ⟨⟩
    next l c t h =>
      exact ⟨c.size, l, one t ++ c, ByteArray.append_assoc, ⟨h, Nat.zero_le _⟩, t, one t, c, rfl,
        rfl, c, ⟨rfl, rfl⟩, rfl⟩

theorem fromUTF8?_eq_some_iff {c : ByteArray} {s : String} :
    String.fromUTF8? c = some s ↔ s.toUTF8 = c := by
  unfold String.fromUTF8?
  split
  next h =>
    constructor
    · intro e
      rw [← Option.some.inj e]
      rfl
    · rintro rfl
      rfl
  next h => exact ⟨fun e => (nomatch e), fun e => (h (e ▸ s.isValidUTF8)).elim⟩

theorem reads_keep (hk : k.Faithful) (isKey likely : Bool) (found : Nat × ByteArray) :
    Reads HasContent.content b (fun _ => keep k isKey likely found) fun w s =>
      w = ByteArray.empty ∧ s.toUTF8 = found.2 := by
  intro r i hi hr s c j
  have hg : Gives HasContent.content (keep k isKey likely found) i s c j ↔
      i = j ∧ String.fromUTF8? found.2 = some c := by
    unfold Gives keep
    split
    next content h =>
      rw [h]
      constructor
      · rintro ⟨a, t, h, rfl⟩
        obtain ⟨⟨rfl, rfl⟩, rfl⟩ : (_ = a ∧ i = j) ∧ _ = t := by simpa using h
        exact ⟨rfl, by rw [hk]⟩
      · rintro ⟨rfl, hc⟩
        exact ⟨_, _, rfl, by rw [hk]; exact Option.some.inj hc⟩
    next h => simp [h]
  rw [hg, fromUTF8?_eq_some_iff]
  constructor
  · rintro ⟨rfl, h⟩
    exact ⟨le_rfl, hi, ByteArray.extract_same, h⟩
  · rintro ⟨hij, hj, hw, h⟩
    exact ⟨(extract_eq_empty_iff hij (hj.trans hr)).1 hw, h⟩

theorem Reads.keep (hk : k.Faithful) {p : Range → Read DecodeError σ (Nat × ByteArray)}
    {L : ByteArray → ByteArray → Prop} (hp : Reads Prod.snd b p L) (isKey : Bool)
    (likely : Nat × ByteArray → Bool) :
    Reads HasContent.content b
      (fun r => p r >>= fun found => Decode.keep k isKey (likely found) found) fun w s =>
        L w s.toUTF8 := by
  refine (hp.bind (M := fun c w (s : String) => w = ByteArray.empty ∧ s.toUTF8 = c)
    fun a _ _ => reads_keep hk isKey (likely a) a).congr fun w s => ⟨?_, fun h => ?_⟩
  · rintro ⟨c, u, v, rfl, hL, rfl, rfl⟩
    rwa [ByteArray.append_empty]
  · exact ⟨_, w, ByteArray.empty, ByteArray.append_empty.symm, h, rfl, rfl⟩

theorem reads_text (hk : k.Faithful) : Reads HasContent.content b (text k b) IsString :=
  reads_string.keep hk false fun _ => false

theorem reads_key (hk : k.Faithful) : Reads HasContent.content b (key k b) IsCString :=
  reads_cstring.keep hk true fun found => found.2.size ≤ likelyKeySize

omit [HasContent τ] in
theorem regex_eq (k : Keeper σ τ) (b : ByteArray) (r : Range) :
    regex k b r = ((cstring b r >>= fun found => keep k false false found) >>= fun pattern =>
      (cstring b r >>= fun found => keep k false true found) >>= fun options =>
        return .regex pattern options) := by
  simp only [regex, Read.bind_assoc]

theorem reads_regex (hk : k.Faithful) :
    Reads (Scalar.mapTexts HasContent.content) b (regex k b) (IsScalar .regex) := by
  rw [funext (regex_eq k b)]
  refine ((reads_cstring.keep hk false fun _ => false).bind (M := fun (p : String) w s =>
    ∃ o, IsCString w o ∧ s = Scalar.regex p o) fun a _ _ => ?_).congr fun w s => ⟨?_, ?_⟩
  · exact (reads_cstring.keep hk false fun _ => true).map fun o => rfl
  · rintro ⟨p, u, v, rfl, hp, o, ho, rfl⟩
    exact .regex hp ho
  · rintro ⟨⟩
    next u w p o hp ho => exact ⟨p, u, w, rfl, hp, o, ho, rfl⟩

theorem reads_dbPointer (hk : k.Faithful) :
    Reads (Scalar.mapTexts HasContent.content) b (dbPointer k b) (IsScalar .dbPointer) := by
  refine ((reads_text hk).bind (M := fun (c : String) w s =>
    ∃ o : ObjectId, w = o.bytes ∧ s = Scalar.dbPointer c o) fun a _ _ => ?_).congr
      fun w s => ⟨?_, ?_⟩
  · exact reads_objectId.map fun o => rfl
  · rintro ⟨c, u, v, rfl, hc, o, rfl, rfl⟩
    exact .dbPointer hc
  · rintro ⟨⟩
    next w c o h => exact ⟨c, w, o.bytes, rfl, h, o, rfl, rfl⟩

variable {n : Nat} {payload : Range → Tag → Read DecodeError σ (Value τ)}

def ReadsValues (b : ByteArray) (n : Nat)
    (payload : Range → Tag → Read DecodeError σ (Value τ)) : Prop :=
  ∀ t, Reads Value.plain b (fun r => payload r t) (IsValue n t)

theorem append_one_ne_empty (v : ByteArray) (x : UInt8) : v ++ one x ≠ ByteArray.empty := by
  intro h
  have hs : (v ++ one x).size = 0 := by rw [h]; rfl
  rw [ByteArray.size_append, size_one] at hs
  omega

/-- Elements and a terminator, with the elements inserted into a document. -/
def Inserts (n : Nat) (d : Document String) (w : ByteArray) (c : Document String) : Prop :=
  ∃ u es, w = u ++ one 0 ∧ IsElements n u es ∧ c = es.foldl (fun d e => d.insert e.1 e.2) d

theorem inserts_iff {d c : Document String} {w : ByteArray} :
    Inserts n d w c ↔ (w = one 0 ∧ c = d) ∨ ∃ t w', w = one (Tag.byte t) ++ w' ∧
      ∃ name u v, w' = u ++ v ∧ IsCString u name ∧
        ∃ x u v', v = u ++ v' ∧ IsValue n t u x ∧ Inserts n (d.insert name x) v' c := by
  constructor
  · rintro ⟨u, es, rfl, h, rfl⟩
    cases h with
    | nil => exact .inl ⟨ByteArray.empty_append, rfl⟩
    | @cons _ t key name x' x u es hk hx h =>
      refine .inr ⟨t, key ++ (x' ++ (u ++ one 0)), ?_, name, key, _, rfl, hk, x, x', _, rfl, hx, u,
        es, rfl, h, rfl⟩
      simp only [ByteArray.append_assoc]
  · rintro (⟨rfl, rfl⟩ | ⟨t, _, rfl, name, key, _, rfl, hk, x, x', _, rfl, hx, u, es, rfl, h, rfl⟩)
    · exact ⟨ByteArray.empty, [], ByteArray.empty_append.symm, .nil, rfl⟩
    · refine ⟨one t.byte ++ key ++ x' ++ u, (name, x) :: es, ?_, .cons hk hx h, rfl⟩
      simp only [ByteArray.append_assoc]

theorem fills_end {α γ : Type} {f : α → γ} {r : Range} {e : Nat → DecodeError}
    {L : ByteArray → γ → Prop} (hL : ∀ c, ¬L ByteArray.empty c) :
    Fills (σ := σ) f b r r.stop (do Read.fail (e (← Read.offset))) L := by
  refine Fills.offset_bind fun s c j => ⟨fun ⟨_, _, h, _⟩ => (Read.fail_ne_ok h).elim, ?_⟩
  rintro ⟨-, h⟩
  rw [ByteArray.extract_same] at h
  exact (hL c h).elim

/-- The loop over a document inserts the elements up to the terminator one by one. -/
theorem fills_entries (hk : k.Faithful) (hp : ReadsValues b n payload) {r : Range}
    (hr : r.stop ≤ b.size) (fuel : Nat) {i : Nat} (hi : i ≤ r.stop) (hf : r.stop - i ≤ fuel)
    {d : Document.Builder τ} (hd : d.Indexed) :
    Fills Document.plain b r i (entries k b payload r fuel d) (Inserts n d.build.plain) := by
  -- the fuel bounds the bytes left, and every element takes its tag at least
  induction fuel generalizing i d with
  | zero =>
    obtain rfl : i = r.stop := by omega
    refine fills_end fun c h => ?_
    obtain ⟨u, es, hw, -⟩ := h
    exact append_one_ne_empty u 0 hw.symm
  | succ fuel ih =>
    refine Fills.congr (fills_nextTag (a := d.build) hi hr rfl fun t hlt => ?_)
      fun w c => inserts_iff.symm
    refine Fills.bind hlt hr (reads_key hk) fun name j hj hjr _ => ?_
    refine Fills.bind hjr hr (hp t) fun x m hm hmr _ => ?_
    have h := ih (i := m) hmr (by omega) (hd.insert name x)
    rw [Document.Builder.build_insert hd, Document.plain_insert] at h
    exact fun s => h (k.drop _ s)

omit [HasContent τ] in
theorem mapTextsAll_append {ρ : Type} (f : τ → ρ) (vs ws : List (Value τ)) :
    Value.mapTextsAll f (vs ++ ws) = Value.mapTextsAll f vs ++ Value.mapTextsAll f ws := by
  induction vs with
  | nil => rfl
  | cons v vs ih =>
    rw [List.cons_append, Value.mapTextsAll, ih, Value.mapTextsAll, List.cons_append]

def Appends (n : Nat) (vs : List (Value String)) (w : ByteArray) (c : List (Value String)) : Prop :=
  ∃ u ws, w = u ++ one 0 ∧ IsItems n u ws ∧ c = vs ++ ws

theorem appends_iff {vs c : List (Value String)} {w : ByteArray} :
    Appends n vs w c ↔ (w = one 0 ∧ c = vs) ∨ ∃ t w', w = one (Tag.byte t) ++ w' ∧
      ∃ name u v, w' = u ++ v ∧ IsTerminated u name ∧
        ∃ x u v', v = u ++ v' ∧ IsValue n t u x ∧ Appends n (vs ++ [x]) v' c := by
  constructor
  · rintro ⟨u, ws, rfl, h, rfl⟩
    cases h with
    | nil => exact .inl ⟨ByteArray.empty_append, List.append_nil vs⟩
    | @cons _ t key name x' x u ws hk hx h =>
      refine .inr ⟨t, key ++ (x' ++ (u ++ one 0)), ?_, name, key, _, rfl, hk, x, x', _, rfl, hx, u,
        ws, rfl, h, ?_⟩
      · simp only [ByteArray.append_assoc]
      · rw [List.append_assoc, List.singleton_append]
  · rintro (⟨rfl, rfl⟩ | ⟨t, _, rfl, name, key, _, rfl, hk, x, x', _, rfl, hx, u, ws, rfl, h, rfl⟩)
    · exact ⟨ByteArray.empty, [], ByteArray.empty_append.symm, .nil, (List.append_nil c).symm⟩
    · refine ⟨one t.byte ++ key ++ x' ++ u, x :: ws, ?_, .cons hk hx h, ?_⟩
      · simp only [ByteArray.append_assoc]
      · rw [List.append_assoc, List.singleton_append]

theorem fills_items (hp : ReadsValues b n payload) {r : Range} (hr : r.stop ≤ b.size) (fuel : Nat)
    {i : Nat} (hi : i ≤ r.stop) (hf : r.stop - i ≤ fuel) (vs : Array (Value τ)) :
    Fills (Value.mapTextsAll HasContent.content) b r i (items b payload r fuel vs)
      (Appends n (Value.mapTextsAll HasContent.content vs.toList)) := by
  induction fuel generalizing i vs with
  | zero =>
    obtain rfl : i = r.stop := by omega
    refine fills_end fun c h => ?_
    obtain ⟨u, ws, hw, -⟩ := h
    exact append_one_ne_empty u 0 hw.symm
  | succ fuel ih =>
    refine Fills.congr (fills_nextTag (a := vs.toList) hi hr rfl fun t hlt => ?_)
      fun w c => appends_iff.symm
    refine Fills.bind hlt hr reads_cstring fun name j hj hjr _ => ?_
    refine Fills.bind hjr hr (hp t) fun x m hm hmr _ => ?_
    have h := ih (i := m) hmr (by omega) (vs.push x)
    rwa [Array.toList_push, mapTextsAll_append] at h

theorem reads_nested {α γ : Type} {f : α → γ} {E : ByteArray → γ → Prop}
    (body : Range → Nat → Read DecodeError σ α)
    (hbody : ∀ q i, i ≤ q.stop → q.stop ≤ b.size → Fills f b q i (body q (q.stop - i)) E) :
    Reads f b (fun r => nested b r body) fun w c =>
      minDocumentSize ≤ w.size ∧ ∃ l u, w = l ++ u ∧ IsLength l w.size ∧ E u c :=
  Reads.within (fun q => do body q (q.stop - (← Read.offset))) (by decide)
    fun q i hi hq => Fills.offset_bind (hbody q i hi hq)

theorem isDocument_iff {w : ByteArray} {d : Document String} :
    IsDocument n w d ↔
      minDocumentSize ≤ w.size ∧ ∃ l u, w = l ++ u ∧ IsLength l w.size ∧ Inserts n [] u d := by
  constructor
  · rintro ⟨hl, h⟩
    next l u es =>
      refine ⟨?_, l, u ++ one 0, ByteArray.append_assoc, hl, u, es, rfl, h, merged_eq_foldl es⟩
      rw [ByteArray.size_append, ByteArray.size_append, hl.1.1, size_one, minDocumentSize]
      omega
  · rintro ⟨-, l, _, rfl, hl, u, es, rfl, h, rfl⟩
    rw [← merged_eq_foldl, ← ByteArray.append_assoc]
    exact .mk (by rwa [ByteArray.append_assoc]) h

theorem isArray_iff {w : ByteArray} {vs : List (Value String)} :
    IsArray n w vs ↔
      minDocumentSize ≤ w.size ∧ ∃ l u, w = l ++ u ∧ IsLength l w.size ∧ Appends n [] u vs := by
  constructor
  · rintro ⟨hl, h⟩
    next l u =>
      refine ⟨?_, l, u ++ one 0, ByteArray.append_assoc, hl, u, vs, rfl, h, rfl⟩
      rw [ByteArray.size_append, ByteArray.size_append, hl.1.1, size_one, minDocumentSize]
      omega
  · rintro ⟨-, l, _, rfl, hl, u, ws, rfl, h, rfl⟩
    rw [← ByteArray.append_assoc]
    exact .mk (by rwa [ByteArray.append_assoc]) h

/-- Readers of containers, with some levels left for what is inside and for themselves. -/
structure ReadsContainers (b : ByteArray) (n : Nat) (l : Level σ τ) : Prop where
  document : Reads Document.plain b l.document fun w d => ∃ m, n = m + 1 ∧ IsDocument m w d
  array : Reads (Value.mapTextsAll HasContent.content) b l.array fun w vs =>
    ∃ m, n = m + 1 ∧ IsArray m w vs

theorem plain_scalar (s : Scalar τ) :
    Value.plain (.scalar s) = .scalar (s.mapTexts HasContent.content) := by
  rw [Value.plain, Value.mapTexts]

def containers : List Tag := [.document, .array, .codeWithScope]

theorem isValue_iff_of_notMem {t : Tag} (ht : t ∉ containers) {w : ByteArray} {v : Value String} :
    IsValue n t w v ↔ ∃ s, IsScalar t w s ∧ v = .scalar s := by
  constructor
  · intro h
    cases h with
    | scalar h => exact ⟨_, h, rfl⟩
    | document h | array h | codeWithScope hl hs h => exact (ht (by decide)).elim
  · rintro ⟨s, h, rfl⟩
    exact .scalar h

theorem Reads.scalar {α γ : Type} {f : α → γ} {p : Range → Read DecodeError σ α}
    {L : ByteArray → γ → Prop} {g : α → Scalar τ} {h : γ → Scalar String} {t : Tag}
    (hp : Reads f b p L) (hg : ∀ a, (g a).mapTexts HasContent.content = h (f a))
    (ht : t ∉ containers) (hc : ∀ w c, L w c → IsScalar t w (h c))
    (hs : ∀ w s, IsScalar t w s → ∃ c, L w c ∧ s = h c) :
    Reads Value.plain b (fun r => p r >>= fun a => Pure.pure (.scalar (g a))) (IsValue n t) := by
  refine (hp.map (m := fun c => Value.scalar (h c)) fun a => ?_).congr fun w v => ?_
  · rw [plain_scalar, hg]
  · rw [isValue_iff_of_notMem ht]
    constructor
    · rintro ⟨c, hw, rfl⟩
      exact ⟨h c, hc w c hw, rfl⟩
    · rintro ⟨s, h, rfl⟩
      obtain ⟨c, hw, rfl⟩ := hs w s h
      exact ⟨c, hw, rfl⟩

theorem reads_constant {s : Scalar τ} {c : Scalar String} {t : Tag}
    (hm : s.mapTexts HasContent.content = c) (ht : t ∉ containers)
    (hc : IsScalar t ByteArray.empty c)
    (hs : ∀ w x, IsScalar t w x → w = ByteArray.empty ∧ x = c) :
    Reads (σ := σ) Value.plain b (fun _ => Pure.pure (.scalar s)) (IsValue n t) := by
  refine (Reads.pure _).congr fun w v => ?_
  rw [isValue_iff_of_notMem ht, plain_scalar, hm]
  constructor
  · rintro ⟨rfl, rfl⟩
    exact ⟨c, hc, rfl⟩
  · rintro ⟨x, hx, rfl⟩
    obtain ⟨rfl, rfl⟩ := hs w x hx
    exact ⟨rfl, rfl⟩

theorem reads_codeWithScope (hk : k.Faithful) {document : Range → Read DecodeError σ (Document τ)}
    (hdoc : Reads Document.plain b document fun w d => ∃ m, n = m + 1 ∧ IsDocument m w d) :
    Reads Value.plain b (codeWithScope k b document) (IsValue n .codeWithScope) := by
  refine (Reads.within (fun q => do
      let code ← text k b q
      let scope ← document q
      close q
      return Value.codeWithScope code scope)
    (E := fun w v => ∃ c u u', w = u ++ u' ∧ IsString u c ∧ ∃ d u v', u' = u ++ v' ∧
      (∃ m, n = m + 1 ∧ IsDocument m u d) ∧ v' = ByteArray.empty ∧ v = Value.codeWithScope c d)
    (show 4 ≤ minCodeWithScopeSize by decide) fun q i hi hq => ?_).congr fun w v => ⟨?_, ?_⟩
  · refine Fills.bind hi hq (reads_text hk) fun code j hj hjq _ => ?_
    refine Fills.bind hjq hq hdoc fun scope m hm hmq _ => ?_
    refine (fills_close (a := Value.codeWithScope code scope) hmq hq).congr fun w v => ?_
    rw [Value.plain, Value.mapTexts]
    rfl
  · rintro ⟨-, l, _, rfl, hl, c, u, _, rfl, hc, d, w, _, rfl, ⟨m, rfl, hd⟩, rfl, rfl⟩
    rw [ByteArray.append_empty, ← ByteArray.append_assoc] at hl ⊢
    exact .codeWithScope hl hc hd
  · intro h
    cases h with
    | scalar h => cases h
    | @codeWithScope m l u w c d hl hc hd =>
      refine ⟨?_, l, u ++ w, ByteArray.append_assoc, hl, c, u, w, rfl, hc, d, w, ByteArray.empty,
        ByteArray.append_empty.symm, ⟨m, rfl, hd⟩, rfl, rfl⟩
      obtain ⟨l', hl', rfl⟩ := hc
      have hw := (isDocument_iff.1 hd).1
      simp only [ByteArray.size_append, size_one, hl.1.1, hl'.1.1]
      simp only [minDocumentSize, minCodeWithScopeSize] at *
      omega

theorem reads_payload (hk : k.Faithful) {l : Level σ τ} (hl : ReadsContainers b n l) :
    ReadsValues b n (Decode.payload k b l) := by
  intro t
  cases t with
  | double =>
    exact reads_uint64.scalar (h := fun x => .double ⟨x⟩) (fun _ => rfl) (by decide)
      (fun _ _ h => .double h) (by rintro _ _ ⟨⟩; exact ⟨_, ‹_›, rfl⟩)
  | string =>
    exact (reads_text hk).scalar (h := .string) (fun _ => rfl) (by decide)
      (fun _ _ h => .string h) (by rintro _ _ ⟨⟩; exact ⟨_, ‹_›, rfl⟩)
  | document =>
    refine (hl.document.map (m := Value.document) fun d => ?_).congr fun w v => ⟨?_, ?_⟩
    · rw [Value.plain, Value.mapTexts, Document.plain]
    · rintro ⟨d, ⟨m, rfl, hd⟩, rfl⟩
      exact .document hd
    · intro h
      cases h with
      | scalar h => cases h
      | document h => exact ⟨_, ⟨_, rfl, h⟩, rfl⟩
  | array =>
    refine (hl.array.map (m := Value.array) fun d => ?_).congr fun w v => ⟨?_, ?_⟩
    · rw [Value.plain, Value.mapTexts]
    · rintro ⟨d, ⟨m, rfl, hd⟩, rfl⟩
      exact .array hd
    · intro h
      cases h with
      | scalar h => cases h
      | array h => exact ⟨_, ⟨_, rfl, h⟩, rfl⟩
  | binary =>
    exact reads_binary.scalar (h := id) (fun _ => rfl) (by decide)
      (fun _ _ h => h) fun _ s h => ⟨s, h, rfl⟩
  | undefined =>
    exact reads_constant (c := .undefined) rfl (by decide) .undefined
      (by rintro _ _ ⟨⟩; exact ⟨rfl, rfl⟩)
  | objectId =>
    exact reads_objectId.scalar (h := .objectId) (fun _ => rfl) (by decide)
      (fun _ _ h => h ▸ .objectId) (by rintro _ _ ⟨⟩; exact ⟨_, rfl, rfl⟩)
  | boolean =>
    exact reads_boolean.scalar (h := .boolean) (fun _ => rfl) (by decide)
      (fun _ _ h => h ▸ .boolean) (by rintro _ _ ⟨⟩; exact ⟨_, rfl, rfl⟩)
  | datetime =>
    exact reads_int64.scalar (h := .datetime) (fun _ => rfl) (by decide)
      (fun _ _ h => .datetime h) (by rintro _ _ ⟨⟩; exact ⟨_, ‹_›, rfl⟩)
  | null =>
    exact reads_constant (c := .null) rfl (by decide) .null
      (by rintro _ _ ⟨⟩; exact ⟨rfl, rfl⟩)
  | regex =>
    exact (reads_regex hk).scalar (h := id) (fun _ => rfl) (by decide)
      (fun _ _ h => h) fun _ s h => ⟨s, h, rfl⟩
  | dbPointer =>
    exact (reads_dbPointer hk).scalar (h := id) (fun _ => rfl) (by decide)
      (fun _ _ h => h) fun _ s h => ⟨s, h, rfl⟩
  | javascript =>
    exact (reads_text hk).scalar (h := .javascript) (fun _ => rfl) (by decide)
      (fun _ _ h => .javascript h) (by rintro _ _ ⟨⟩; exact ⟨_, ‹_›, rfl⟩)
  | symbol =>
    exact (reads_text hk).scalar (h := .symbol) (fun _ => rfl) (by decide)
      (fun _ _ h => .symbol h) (by rintro _ _ ⟨⟩; exact ⟨_, ‹_›, rfl⟩)
  | codeWithScope => exact reads_codeWithScope hk hl.document
  | int32 =>
    exact reads_int32.scalar (h := .int32) (fun _ => rfl) (by decide)
      (fun _ _ h => .int32 h) (by rintro _ _ ⟨⟩; exact ⟨_, ‹_›, rfl⟩)
  | timestamp =>
    exact reads_uint64.scalar (h := fun x => .timestamp ⟨x⟩) (fun _ => rfl) (by decide)
      (fun _ _ h => .timestamp h) (by rintro _ _ ⟨⟩; exact ⟨_, ‹_›, rfl⟩)
  | int64 =>
    exact reads_int64.scalar (h := .int64) (fun _ => rfl) (by decide)
      (fun _ _ h => .int64 h) (by rintro _ _ ⟨⟩; exact ⟨_, ‹_›, rfl⟩)
  | minKey =>
    exact reads_constant (c := .minKey) rfl (by decide) .minKey
      (by rintro _ _ ⟨⟩; exact ⟨rfl, rfl⟩)
  | maxKey =>
    exact reads_constant (c := .maxKey) rfl (by decide) .maxKey
      (by rintro _ _ ⟨⟩; exact ⟨rfl, rfl⟩)

/-- With `n` levels left, the container readers read containers of at most `n` levels. -/
theorem reads_level (hk : k.Faithful) (n : Nat) : ReadsContainers b n (level k b n) := by
  induction n with
  | zero =>
    constructor
    · exact (Reads.fail _).congr fun w d => ⟨False.elim, fun ⟨m, h, _⟩ => by omega⟩
    · exact (Reads.fail _).congr fun w d => ⟨False.elim, fun ⟨m, h, _⟩ => by omega⟩
  | succ n ih =>
    have hp := reads_payload hk ih
    constructor
    · have hd := reads_nested (fun q size => entries k b (payload k b (level k b n)) q size
        .empty) fun q i hi hq => fills_entries hk hp hq _ hi le_rfl Document.Builder.indexed_empty
      refine hd.congr fun w d => ?_
      rw [Document.Builder.plain_build_empty, ← isDocument_iff]
      exact ⟨fun h => ⟨n, rfl, h⟩, fun ⟨m, h, hm⟩ => Nat.succ.inj h ▸ hm⟩
    · have ha := reads_nested (fun q size => items b (payload k b (level k b n)) q size #[])
        fun q i hi hq => fills_items hp hq _ hi le_rfl #[]
      refine ha.congr fun w vs => ?_
      rw [Value.mapTextsAll, ← isArray_iff]
      exact ⟨fun h => ⟨n, rfl, h⟩, fun ⟨m, h, hm⟩ => Nat.succ.inj h ▸ hm⟩

end Decode

end DocumentServer
