import DocumentServer.Proofs.DistinctKeys
import DocumentServer.Proofs.Nesting

namespace DocumentServer

open Grammar

inductive Tree where
  | scalar (s : Scalar String)
  | document (elements : List (String × Tree))
  | array (items : List (ByteArray × Tree))
  | codeWithScope (code : String) (scope : List (String × Tree))

namespace Tree

mutual

def value : Tree → Value String
  | .scalar s => .scalar s
  | .document es => .document (merged (entries es))
  | .array xs => .array (values xs)
  | .codeWithScope c es => .codeWithScope c (merged (entries es))

def entries : List (String × Tree) → List (String × Value String)
  | [] => []
  | (k, x) :: es => (k, x.value) :: entries es

def values : List (ByteArray × Tree) → List (Value String)
  | [] => []
  | (_, x) :: xs => x.value :: values xs

end

theorem keys_entries (es : List (String × Tree)) :
    (entries es).map Prod.fst = es.map Prod.fst := by
  induction es with
  | nil => rw [entries]; rfl
  | cons e es ih => rw [entries, List.map_cons, List.map_cons, ih]

mutual

/-- No document inside a tree has a key twice, and the elements of every array are numbered from
zero on. -/
def Canonical : Tree → Prop
  | .scalar _ => True
  | .document es => CanonicalElements es
  | .array xs => CanonicalItems 0 xs
  | .codeWithScope _ es => CanonicalElements es

def CanonicalElements : List (String × Tree) → Prop
  | [] => True
  | (k, x) :: es => k ∉ es.map Prod.fst ∧ x.Canonical ∧ CanonicalElements es

def CanonicalItems (i : Nat) : List (ByteArray × Tree) → Prop
  | [] => True
  | (key, x) :: xs => key = (toString i).toUTF8 ∧ x.Canonical ∧ CanonicalItems (i + 1) xs

end

theorem CanonicalElements.nodup {es : List (String × Tree)} (h : CanonicalElements es) :
    (es.map Prod.fst).Nodup := by
  induction es with
  | nil => exact List.nodup_nil
  | cons e es ih =>
    rw [CanonicalElements] at h
    exact List.nodup_cons.2 ⟨h.1, ih h.2.2⟩

theorem CanonicalElements.merged {es : List (String × Tree)} (h : CanonicalElements es) :
    merged (entries es) = entries es :=
  merged_eq_self (by rw [keys_entries]; exact h.nodup)

mutual

/-- The tree of a value as it is written: the entries in order, the elements of arrays numbered. -/
def ofValue : Value String → Tree
  | .scalar s => .scalar s
  | .document es => .document (ofEntries es)
  | .array vs => .array (ofItems 0 vs)
  | .codeWithScope c es => .codeWithScope c (ofEntries es)

def ofEntries : List (String × Value String) → List (String × Tree)
  | [] => []
  | (k, v) :: es => (k, ofValue v) :: ofEntries es

def ofItems (i : Nat) : List (Value String) → List (ByteArray × Tree)
  | [] => []
  | v :: vs => ((toString i).toUTF8, ofValue v) :: ofItems (i + 1) vs

end

mutual

theorem eq_of_ofValue {v w : Value String} (h : ofValue v = ofValue w) : v = w := by
  match v, w with
  | .scalar s, .scalar t =>
    rw [ofValue, ofValue] at h
    rw [Tree.scalar.inj h]
  | .document es, .document fs =>
    rw [ofValue, ofValue] at h
    rw [eq_of_ofEntries (Tree.document.inj h)]
  | .array vs, .array ws =>
    rw [ofValue, ofValue] at h
    rw [eq_of_ofItems (Tree.array.inj h)]
  | .codeWithScope c es, .codeWithScope d fs =>
    rw [ofValue, ofValue] at h
    obtain ⟨rfl, he⟩ := Tree.codeWithScope.inj h
    rw [eq_of_ofEntries he]
  | .scalar _, .document _ | .scalar _, .array _ | .scalar _, .codeWithScope _ _
  | .document _, .scalar _ | .document _, .array _ | .document _, .codeWithScope _ _
  | .array _, .scalar _ | .array _, .document _ | .array _, .codeWithScope _ _
  | .codeWithScope _ _, .scalar _ | .codeWithScope _ _, .document _
  | .codeWithScope _ _, .array _ =>
    rw [ofValue, ofValue] at h
    cases h

theorem eq_of_ofEntries {es fs : List (String × Value String)} (h : ofEntries es = ofEntries fs) :
    es = fs := by
  match es, fs with
  | [], [] => rfl
  | [], _ :: _ | _ :: _, [] =>
    rw [ofEntries, ofEntries] at h
    cases h
  | (k, v) :: es, (l, w) :: fs =>
    rw [ofEntries, ofEntries] at h
    obtain ⟨he, hr⟩ := List.cons.inj h
    obtain ⟨rfl, hv⟩ := Prod.mk.inj he
    rw [eq_of_ofValue hv, eq_of_ofEntries hr]

theorem eq_of_ofItems {i : Nat} {vs ws : List (Value String)} (h : ofItems i vs = ofItems i ws) :
    vs = ws := by
  match vs, ws with
  | [], [] => rfl
  | [], _ :: _ | _ :: _, [] =>
    rw [ofItems, ofItems] at h
    cases h
  | v :: vs, w :: ws =>
    rw [ofItems, ofItems] at h
    obtain ⟨hv, hr⟩ := List.cons.inj h
    rw [eq_of_ofValue (Prod.mk.inj hv).2, eq_of_ofItems hr]

end

theorem keys_ofEntries (es : List (String × Value String)) :
    (ofEntries es).map Prod.fst = Document.keys es := by
  induction es with
  | nil => rw [ofEntries]; rfl
  | cons e es ih => rw [ofEntries, List.map_cons, ih]; rfl

mutual

theorem canonical_ofValue {v : Value String} (h : v.Distinct) : (ofValue v).Canonical := by
  match v with
  | .scalar s =>
    rw [ofValue, Canonical]
    exact trivial
  | .document es | .codeWithScope _ es =>
    rw [Value.Distinct] at h
    rw [ofValue, Canonical]
    exact canonical_ofEntries h
  | .array vs =>
    rw [Value.Distinct] at h
    rw [ofValue, Canonical]
    exact canonical_ofItems 0 h

theorem canonical_ofEntries {es : List (String × Value String)} (h : Document.Distinct es) :
    CanonicalElements (ofEntries es) := by
  match es with
  | [] =>
    rw [ofEntries, CanonicalElements]
    exact trivial
  | (k, v) :: es =>
    rw [Document.Distinct] at h
    rw [ofEntries, CanonicalElements, keys_ofEntries]
    exact ⟨h.1, canonical_ofValue h.2.1, canonical_ofEntries h.2.2⟩

theorem canonical_ofItems (i : Nat) {vs : List (Value String)} (h : Value.DistinctAll vs) :
    CanonicalItems i (ofItems i vs) := by
  match vs with
  | [] =>
    rw [ofItems, CanonicalItems]
    exact trivial
  | v :: vs =>
    rw [Value.DistinctAll] at h
    rw [ofItems, CanonicalItems]
    exact ⟨rfl, canonical_ofValue h.1, canonical_ofItems (i + 1) h.2⟩

end

mutual

theorem value_ofValue {v : Value String} (h : v.Distinct) : (ofValue v).value = v := by
  match v with
  | .scalar s => rw [ofValue, value]
  | .document es | .codeWithScope _ es =>
    rw [Value.Distinct] at h
    rw [ofValue, value, (canonical_ofEntries h).merged, entries_ofEntries h]
  | .array vs =>
    rw [Value.Distinct] at h
    rw [ofValue, value, values_ofItems 0 h]

theorem entries_ofEntries {es : List (String × Value String)} (h : Document.Distinct es) :
    entries (ofEntries es) = es := by
  match es with
  | [] => rw [ofEntries, entries]
  | (k, v) :: es =>
    rw [Document.Distinct] at h
    rw [ofEntries, entries, value_ofValue h.2.1, entries_ofEntries h.2.2]

theorem values_ofItems (i : Nat) {vs : List (Value String)} (h : Value.DistinctAll vs) :
    values (ofItems i vs) = vs := by
  match vs with
  | [] => rw [ofItems, values]
  | v :: vs =>
    rw [Value.DistinctAll] at h
    rw [ofItems, values, value_ofValue h.1, values_ofItems (i + 1) h.2]

end

end Tree

namespace Grammar

mutual

/-- The payload of a tag as a tree, with at most some levels of containers in it. -/
inductive Spells : Nat → Tag → ByteArray → Tree → Prop
  | scalar {n t w s} (h : IsScalar t w s) : Spells n t w (.scalar s)
  | document {n w es} (h : SpellsDocument n w es) : Spells (n + 1) .document w (.document es)
  | array {n w xs} (h : SpellsArray n w xs) : Spells (n + 1) .array w (.array xs)
  | codeWithScope {n l u w c es} (hl : IsLength l (l ++ u ++ w).size) (hc : IsString u c)
      (h : SpellsDocument n w es) :
      Spells (n + 1) .codeWithScope (l ++ u ++ w) (.codeWithScope c es)

inductive SpellsDocument : Nat → ByteArray → List (String × Tree) → Prop
  | mk {n l u es} (hl : IsLength l (l ++ u ++ one 0).size) (h : SpellsElements n u es) :
      SpellsDocument n (l ++ u ++ one 0) es

inductive SpellsArray : Nat → ByteArray → List (ByteArray × Tree) → Prop
  | mk {n l u xs} (hl : IsLength l (l ++ u ++ one 0).size) (h : SpellsItems n u xs) :
      SpellsArray n (l ++ u ++ one 0) xs

inductive SpellsElements : Nat → ByteArray → List (String × Tree) → Prop
  | nil {n} : SpellsElements n ByteArray.empty []
  | cons {n t key k w x u es} (hk : IsCString key k) (hx : Spells n t w x)
      (h : SpellsElements n u es) : SpellsElements n (one t.byte ++ key ++ w ++ u) ((k, x) :: es)

inductive SpellsItems : Nat → ByteArray → List (ByteArray × Tree) → Prop
  | nil {n} : SpellsItems n ByteArray.empty []
  | cons {n t key c w x u xs} (hk : IsTerminated key c) (hx : Spells n t w x)
      (h : SpellsItems n u xs) : SpellsItems n (one t.byte ++ key ++ w ++ u) ((c, x) :: xs)

end

mutual

theorem Spells.isValue {n : Nat} {t : Tag} {w : ByteArray} {x : Tree} :
    Spells n t w x → IsValue n t w x.value
  | .scalar h => by rw [Tree.value]; exact .scalar h
  | .document h => by rw [Tree.value]; exact .document h.isDocument
  | .array h => by rw [Tree.value]; exact .array h.isArray
  | .codeWithScope hl hc h => by rw [Tree.value]; exact .codeWithScope hl hc h.isDocument

theorem SpellsDocument.isDocument {n : Nat} {w : ByteArray} {es : List (String × Tree)} :
    SpellsDocument n w es → IsDocument n w (merged (Tree.entries es))
  | .mk hl h => .mk hl h.isElements

theorem SpellsArray.isArray {n : Nat} {w : ByteArray} {xs : List (ByteArray × Tree)} :
    SpellsArray n w xs → IsArray n w (Tree.values xs)
  | .mk hl h => .mk hl h.isItems

theorem SpellsElements.isElements {n : Nat} {w : ByteArray} {es : List (String × Tree)} :
    SpellsElements n w es → IsElements n w (Tree.entries es)
  | .nil => by rw [Tree.entries]; exact .nil
  | .cons hk hx h => by rw [Tree.entries]; exact .cons hk hx.isValue h.isElements

theorem SpellsItems.isItems {n : Nat} {w : ByteArray} {xs : List (ByteArray × Tree)} :
    SpellsItems n w xs → IsItems n w (Tree.values xs)
  | .nil => by rw [Tree.values]; exact .nil
  | .cons hk hx h => by rw [Tree.values]; exact .cons hk hx.isValue h.isItems

end

mutual

theorem IsValue.exists_spells {n : Nat} {t : Tag} {w : ByteArray} {v : Value String} :
    IsValue n t w v → ∃ x, Spells n t w x ∧ x.value = v
  | .scalar h => ⟨_, .scalar h, by rw [Tree.value]⟩
  | .document h =>
    have ⟨es, hs, he⟩ := h.exists_spells
    ⟨_, .document hs, by rw [Tree.value, he]⟩
  | .array h =>
    have ⟨xs, hs, hx⟩ := h.exists_spells
    ⟨_, .array hs, by rw [Tree.value, hx]⟩
  | .codeWithScope hl hc h =>
    have ⟨es, hs, he⟩ := h.exists_spells
    ⟨_, .codeWithScope hl hc hs, by rw [Tree.value, he]⟩

theorem IsDocument.exists_spells {n : Nat} {w : ByteArray} {d : Document String} :
    IsDocument n w d → ∃ es, SpellsDocument n w es ∧ merged (Tree.entries es) = d
  | .mk hl h =>
    have ⟨es, hs, he⟩ := h.exists_spells
    ⟨es, .mk hl hs, by rw [he]⟩

theorem IsArray.exists_spells {n : Nat} {w : ByteArray} {vs : List (Value String)} :
    IsArray n w vs → ∃ xs, SpellsArray n w xs ∧ Tree.values xs = vs
  | .mk hl h =>
    have ⟨xs, hs, hx⟩ := h.exists_spells
    ⟨xs, .mk hl hs, hx⟩

theorem IsElements.exists_spells {n : Nat} {w : ByteArray} {es : List (String × Value String)} :
    IsElements n w es → ∃ xs, SpellsElements n w xs ∧ Tree.entries xs = es
  | .nil => ⟨[], .nil, by rw [Tree.entries]⟩
  | .cons hk hv h =>
    have ⟨x, hx, hxv⟩ := hv.exists_spells
    have ⟨xs, hs, he⟩ := h.exists_spells
    ⟨_, .cons hk hx hs, by rw [Tree.entries, hxv, he]⟩

theorem IsItems.exists_spells {n : Nat} {w : ByteArray} {vs : List (Value String)} :
    IsItems n w vs → ∃ xs, SpellsItems n w xs ∧ Tree.values xs = vs
  | .nil => ⟨[], .nil, by rw [Tree.values]⟩
  | .cons hk hv h =>
    have ⟨x, hx, hxv⟩ := hv.exists_spells
    have ⟨xs, hs, he⟩ := h.exists_spells
    ⟨_, .cons hk hx hs, by rw [Tree.values, hxv, he]⟩

end

end Grammar

namespace Decode

variable {α γ : Type} {f : α → γ} {L : ByteArray → γ → Prop} {w w' u u' : ByteArray} {c c' : γ}

/-- No word of a language that is read is the beginning of another, and none is read in two
ways. -/
theorem Reads.unambiguous {p : ByteArray → Range → Read DecodeError Unit α}
    (hp : ∀ b, Reads f b (p b) L) (h : L w c) (h' : L w' c') (hw : w ++ u = w' ++ u') :
    w = w' ∧ c = c' ∧ u = u' := by
  have hg {w u : ByteArray} {c : γ} (h : L w c) :
      Gives f (p (w ++ u) ⟨0, (w ++ u).size⟩) 0 () c w.size := by
    have hs : w.size ≤ (w ++ u).size := by
      rw [ByteArray.size_append]
      exact Nat.le_add_right _ _
    have hx : (w ++ u).extract 0 w.size = w := ByteArray.extract_append_eq_left rfl
    exact (hp (w ++ u) _ 0 (Nat.zero_le _) le_rfl () c w.size).2 ⟨Nat.zero_le _, hs, hx.symm ▸ h⟩
  obtain ⟨a, t, ha, rfl⟩ := hg (u := u) h
  obtain ⟨a', t', ha', rfl⟩ := hg (u := u') h'
  rw [← hw, ha] at ha'
  obtain ⟨rfl, hs⟩ : a = a' ∧ w.size = w'.size := by simpa using congrArg Prod.fst ha'
  obtain ⟨rfl, rfl⟩ := (ByteArray.append_eq_append_iff_of_size_eq_left hs).1 hw
  exact ⟨rfl, rfl, rfl⟩

end Decode

theorem Keeper.faithful_plain : Keeper.plain.Faithful := fun _ _ => rfl

namespace Grammar

open Decode

variable {n : Nat} {t : Tag} {w w' u u' : ByteArray}

theorem IsWord.unambiguous {v v' : Nat} (h : IsWord n w v) (h' : IsWord n w' v')
    (hw : w ++ u = w' ++ u') : w = w' ∧ v = v' ∧ u = u' := by
  obtain ⟨rfl, rfl⟩ :=
    (ByteArray.append_eq_append_iff_of_size_eq_left (h.1.trans h'.1.symm)).1 hw
  exact ⟨rfl, h.2.symm.trans h'.2, rfl⟩

theorem IsTerminated.unambiguous {c c' : ByteArray} (h : IsTerminated w c)
    (h' : IsTerminated w' c') (hw : w ++ u = w' ++ u') : w = w' ∧ c = c' ∧ u = u' :=
  Reads.unambiguous (fun _ => reads_cstring) h h' hw

theorem IsString.unambiguous {s s' : String} (h : IsString w s) (h' : IsString w' s')
    (hw : w ++ u = w' ++ u') : w = w' ∧ s = s' ∧ u = u' :=
  Reads.unambiguous (f := HasContent.content) (fun _ => reads_text Keeper.faithful_plain) h h' hw

theorem IsCString.unambiguous {s s' : String} (h : IsCString w s) (h' : IsCString w' s')
    (hw : w ++ u = w' ++ u') : w = w' ∧ s = s' ∧ u = u' :=
  Reads.unambiguous (f := HasContent.content) (fun _ => reads_key Keeper.faithful_plain) h h' hw

theorem IsValue.unambiguous {v v' : Value String} (h : IsValue n t w v) (h' : IsValue n t w' v')
    (hw : w ++ u = w' ++ u') : w = w' ∧ v = v' ∧ u = u' :=
  Reads.unambiguous
    (fun _ => reads_payload Keeper.faithful_plain (reads_level Keeper.faithful_plain n) t) h h' hw

theorem IsScalar.unique {s s' : Scalar String} (h : IsScalar t w s) (h' : IsScalar t w s') :
    s = s' := by
  have hv := IsValue.unambiguous (.scalar (n := 0) h) (.scalar h') (rfl : w ++ w = w ++ w)
  exact Value.scalar.inj hv.2.1

theorem append_eq_of_isLength {l l' : ByteArray} {a a' : Nat} (hl : IsLength l a)
    (hl' : IsLength l' a') (h : l ++ u ++ w = l' ++ u' ++ w') : u ++ w = u' ++ w' := by
  rw [ByteArray.append_assoc, ByteArray.append_assoc] at h
  exact (hl.1.unambiguous hl'.1 h).2.2

theorem eq_of_isLength {l l' : ByteArray} {a a' : Nat} (hl : IsLength l a) (hl' : IsLength l' a')
    (h : l ++ u ++ one 0 = l' ++ u' ++ one 0) : u = u' :=
  (ByteArray.append_left_inj _).1 (append_eq_of_isLength hl hl' h)

theorem element_ne_empty (t : Tag) (key w u : ByteArray) :
    ByteArray.empty ≠ one t.byte ++ key ++ w ++ u := by
  intro h
  have hs := congrArg ByteArray.size h
  simp only [ByteArray.size_append, size_one, ByteArray.size_empty] at hs
  omega

theorem byte_injective : Function.Injective Tag.byte := by
  intro t t' h
  have ht := Tag.ofByte?_byte t
  rw [h, Tag.ofByte?_byte] at ht
  exact (Option.some.inj ht).symm

theorem element_eq {t' : Tag} {key key' : ByteArray}
    (h : one t.byte ++ key ++ w ++ u = one t'.byte ++ key' ++ w' ++ u') :
    t = t' ∧ key ++ (w ++ u) = key' ++ (w' ++ u') := by
  simp only [ByteArray.append_assoc] at h
  obtain ⟨ht, hk⟩ := (ByteArray.append_eq_append_iff_of_size_eq_left (size_one _)).1 h
  exact ⟨byte_injective (one_inj.1 ht), hk⟩

mutual

/-- Bytes spell one tree. -/
theorem Spells.unique {n : Nat} {t : Tag} {w : ByteArray} {x : Tree} :
    Spells n t w x → ∀ {w' x'}, w = w' → Spells n t w' x' → x = x'
  | .scalar h, w', x', hw, h' => by
    cases h' with
    | scalar h' =>
      subst hw
      rw [h.unique h']
    | document | array | codeWithScope => cases h
  | .document h, w', x', hw, h' => by
    cases h' with
    | scalar h' => cases h'
    | document h' => rw [h.unique hw h']
  | .array h, w', x', hw, h' => by
    cases h' with
    | scalar h' => cases h'
    | array h' => rw [h.unique hw h']
  | .codeWithScope hl hc h, w', x', hw, h' => by
    cases h' with
    | scalar h' => cases h'
    | codeWithScope hl' hc' h' =>
      obtain ⟨rfl, rfl, hr⟩ := hc.unambiguous hc' (append_eq_of_isLength hl hl' hw)
      rw [h.unique hr h']
termination_by structural h => h

theorem SpellsDocument.unique {n : Nat} {w : ByteArray} {es : List (String × Tree)} :
    SpellsDocument n w es → ∀ {w' es'}, w = w' → SpellsDocument n w' es' → es = es'
  | .mk hl h, w', es', hw, h' => by
    cases h' with
    | mk hl' h' => exact h.unique (eq_of_isLength hl hl' hw) h'
termination_by structural h => h

theorem SpellsArray.unique {n : Nat} {w : ByteArray} {xs : List (ByteArray × Tree)} :
    SpellsArray n w xs → ∀ {w' xs'}, w = w' → SpellsArray n w' xs' → xs = xs'
  | .mk hl h, w', xs', hw, h' => by
    cases h' with
    | mk hl' h' => exact h.unique (eq_of_isLength hl hl' hw) h'
termination_by structural h => h

theorem SpellsElements.unique {n : Nat} {w : ByteArray} {es : List (String × Tree)} :
    SpellsElements n w es → ∀ {w' es'}, w = w' → SpellsElements n w' es' → es = es'
  | .nil, w', es', hw, h' => by
    cases h' with
    | nil => rfl
    | cons => exact (element_ne_empty _ _ _ _ hw).elim
  | .cons hk hx h, w', es', hw, h' => by
    cases h' with
    | nil => exact (element_ne_empty _ _ _ _ hw.symm).elim
    | cons hk' hx' h' =>
      obtain ⟨rfl, hr⟩ := element_eq hw
      obtain ⟨rfl, rfl, hr⟩ := hk.unambiguous hk' hr
      obtain ⟨rfl, -, hr⟩ := hx.isValue.unambiguous hx'.isValue hr
      rw [hx.unique rfl hx', h.unique hr h']
termination_by structural h => h

theorem SpellsItems.unique {n : Nat} {w : ByteArray} {xs : List (ByteArray × Tree)} :
    SpellsItems n w xs → ∀ {w' xs'}, w = w' → SpellsItems n w' xs' → xs = xs'
  | .nil, w', xs', hw, h' => by
    cases h' with
    | nil => rfl
    | cons => exact (element_ne_empty _ _ _ _ hw).elim
  | .cons hk hx h, w', xs', hw, h' => by
    cases h' with
    | nil => exact (element_ne_empty _ _ _ _ hw.symm).elim
    | cons hk' hx' h' =>
      obtain ⟨rfl, hr⟩ := element_eq hw
      obtain ⟨rfl, rfl, hr⟩ := hk.unambiguous hk' hr
      obtain ⟨rfl, -, hr⟩ := hx.isValue.unambiguous hx'.isValue hr
      rw [hx.unique rfl hx', h.unique hr h']
termination_by structural h => h

end

end Grammar

end DocumentServer
