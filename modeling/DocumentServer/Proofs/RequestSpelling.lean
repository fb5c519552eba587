import DocumentServer.Proofs.RequestLayout
import DocumentServer.Proofs.Tree

namespace DocumentServer

/-- What a body holds and its request does not. A word that the layout lacks is zero. -/
structure Spelling where
  reserved : UInt32
  flags : UInt32
  documents : List (List (String × Tree))

/-- How many of the lowest bits of its word of flags have a meaning. -/
def Opcode.flagCount : Opcode → Nat
  | .insert | .delete => 1
  | .update => 2
  | .query | .getMore | .killCursors | .reply => 0

/-- Nothing is reserved, no flag lacks a meaning, and the documents are canonical. -/
structure Spelling.Canonical (op : Opcode) (x : Spelling) : Prop where
  reserved : x.reserved = 0
  flags : x.flags.toNat < 2 ^ op.flagCount
  documents : ∀ es ∈ x.documents, Tree.CanonicalElements es

namespace Grammar

inductive SpellsDocuments :
    ByteArray → List (List (String × Tree)) → List (Document String) → Prop
  | nil : SpellsDocuments ByteArray.empty [] []
  | cons {w u es xs ds} (hd : SpellsDocument maxNesting w es) (h : SpellsDocuments u xs ds) :
      SpellsDocuments (w ++ u) (es :: xs) (merged (Tree.entries es) :: ds)

/-- The body of an opcode, with its spelling. -/
inductive SpellsBody : Opcode → ByteArray → Spelling → Request → Prop
  | query {o u k n w options space skip count d projection xs}
      (ho : IsWord 4 o options.bits.toNat) (hs : IsSpace u space)
      (hk : IsWord 4 k skip.toUInt32.toNat) (hn : IsWord 4 n count.toUInt32.toNat)
      (hd : SpellsDocuments w xs (d :: projection.toList)) :
      SpellsBody .query (o ++ u ++ k ++ n ++ w) ⟨0, 0, xs⟩
        (.query ⟨space, options, skip, count, d, projection⟩)
  | insert {f u w space ds xs} {x : UInt32} (hf : IsWord 4 f x.toNat) (hs : IsSpace u space)
      (hd : SpellsDocuments w xs ds) (hne : ds ≠ []) :
      SpellsBody .insert (f ++ u ++ w) ⟨0, x, xs⟩ (.insert ⟨space, x.toNat.testBit 0, ds⟩)
  | update {r u f w space selector change xs} {y x : UInt32} (hr : IsWord 4 r y.toNat)
      (hs : IsSpace u space) (hf : IsWord 4 f x.toNat)
      (hd : SpellsDocuments w xs [selector, change]) :
      SpellsBody .update (r ++ u ++ f ++ w) ⟨y, x, xs⟩
        (.update ⟨space, x.toNat.testBit 0, x.toNat.testBit 1, selector, change⟩)
  | delete {r u f w space selector xs} {y x : UInt32} (hr : IsWord 4 r y.toNat)
      (hs : IsSpace u space) (hf : IsWord 4 f x.toNat) (hd : SpellsDocuments w xs [selector]) :
      SpellsBody .delete (r ++ u ++ f ++ w) ⟨y, x, xs⟩
        (.delete ⟨space, x.toNat.testBit 0, selector⟩)
  | getMore {r u n c space count cursor} {y : UInt32} (hr : IsWord 4 r y.toNat)
      (hs : IsSpace u space) (hn : IsWord 4 n count.toUInt32.toNat)
      (hc : IsWord 8 c cursor.toUInt64.toNat) :
      SpellsBody .getMore (r ++ u ++ n ++ c) ⟨y, 0, []⟩ (.getMore ⟨space, count, cursor⟩)
  | killCursors {r n w ids} {y : UInt32} (hr : IsWord 4 r y.toNat)
      (hn : IsLength n ids.length) (hw : IsWords w ids) :
      SpellsBody .killCursors (r ++ n ++ w) ⟨y, 0, []⟩ (.killCursors ids)

variable {op : Opcode} {w w' : ByteArray} {x x' : Spelling} {m m' : Request}
  {xs xs' : List (List (String × Tree))} {ds ds' : List (Document String)}

theorem SpellsDocuments.isDocuments (h : SpellsDocuments w xs ds) : IsDocuments w ds := by
  induction h with
  | nil => exact .nil
  | cons hd _ ih => exact .cons hd.isDocument ih

theorem IsDocuments.exists_spells (h : IsDocuments w ds) : ∃ xs, SpellsDocuments w xs ds := by
  induction h with
  | nil => exact ⟨[], .nil⟩
  | cons hd _ ih =>
    obtain ⟨es, hs, rfl⟩ := hd.exists_spells
    obtain ⟨xs, hx⟩ := ih
    exact ⟨es :: xs, .cons hs hx⟩

theorem IsDocument.unambiguous {n : Nat} {u u' : ByteArray} {d d' : Document String}
    (h : IsDocument n w d) (h' : IsDocument n w' d') (hw : w ++ u = w' ++ u') :
    w = w' ∧ u = u' := by
  obtain ⟨rfl, -, rfl⟩ := IsValue.unambiguous (.document h) (.document h') hw
  exact ⟨rfl, rfl⟩

theorem SpellsDocument.append_ne_empty {n : Nat} {es : List (String × Tree)} (u : ByteArray)
    (h : SpellsDocument n w es) : ByteArray.empty ≠ w ++ u := by
  intro he
  obtain ⟨hl, -⟩ := h
  have hs := congrArg ByteArray.size he
  rw [ByteArray.size_append, ByteArray.size_append, size_one, ByteArray.size_empty] at hs
  omega

theorem SpellsDocuments.unique (h : SpellsDocuments w xs ds) (h' : SpellsDocuments w' xs' ds')
    (hw : w = w') : xs = xs' := by
  induction h generalizing w' xs' ds' with
  | nil =>
    cases h' with
    | nil => rfl
    | cons hd' _ => exact (hd'.append_ne_empty _ hw).elim
  | cons hd h ih =>
    cases h' with
    | nil => exact (hd.append_ne_empty _ hw.symm).elim
    | cons hd' h' =>
      obtain ⟨rfl, rfl⟩ := hd.isDocument.unambiguous hd'.isDocument hw
      rw [hd.unique rfl hd', ih h' rfl]

theorem exists_uint32 {r : ByteArray} (h : r.size = 4) : ∃ y : UInt32, IsWord 4 r y.toNat := by
  have hw := (Decode.isWord_uint32_iff (b := r) (i := 0) (by omega)).2 rfl
  rw [Nat.zero_add, ← h, ByteArray.extract_zero_size, h] at hw
  exact ⟨_, hw⟩

theorem SpellsBody.isBody (h : SpellsBody op w x m) : IsBody op w m := by
  cases h with
  | query ho hs hk hn hd => exact .query ho hs hk hn hd.isDocuments
  | insert hf hs hd hne => exact .insert hf hs hd.isDocuments hne
  | update hr hs hf hd => exact .update hr.1 hs hf hd.isDocuments
  | delete hr hs hf hd => exact .delete hr.1 hs hf hd.isDocuments
  | getMore hr hs hn hc => exact .getMore hr.1 hs hn hc
  | killCursors hr hn hw => exact .killCursors hr.1 hn hw

theorem IsBody.exists_spells (h : IsBody op w m) : ∃ x, SpellsBody op w x m := by
  cases h with
  | query ho hs hk hn hd =>
    obtain ⟨xs, hx⟩ := hd.exists_spells
    exact ⟨_, .query ho hs hk hn hx⟩
  | insert hf hs hd hne =>
    obtain ⟨xs, hx⟩ := hd.exists_spells
    exact ⟨_, .insert hf hs hx hne⟩
  | update hr hs hf hd =>
    obtain ⟨xs, hx⟩ := hd.exists_spells
    obtain ⟨y, hy⟩ := exists_uint32 hr
    exact ⟨_, .update hy hs hf hx⟩
  | delete hr hs hf hd =>
    obtain ⟨xs, hx⟩ := hd.exists_spells
    obtain ⟨y, hy⟩ := exists_uint32 hr
    exact ⟨_, .delete hy hs hf hx⟩
  | getMore hr hs hn hc =>
    obtain ⟨y, hy⟩ := exists_uint32 hr
    exact ⟨_, .getMore hy hs hn hc⟩
  | killCursors hr hn hw =>
    obtain ⟨y, hy⟩ := exists_uint32 hr
    exact ⟨_, .killCursors hy hn hw⟩

theorem IsSpace.unambiguous {u u' : ByteArray} {n n' : Namespace} (h : IsSpace w n)
    (h' : IsSpace w' n') (hw : w ++ u = w' ++ u') : w = w' ∧ u = u' :=
  have ⟨hs, _, hu⟩ := h.1.unambiguous h'.1 hw
  ⟨hs, hu⟩

theorem SpellsBody.unique (h : SpellsBody op w x m) (h' : SpellsBody op w' x' m') (hw : w = w') :
    x = x' := by
  cases h with
  | query ho hs hk hn hd =>
    cases h' with
    | query ho' hs' hk' hn' hd' =>
      simp only [ByteArray.append_assoc] at hw
      obtain ⟨-, -, hw⟩ := ho.unambiguous ho' hw
      obtain ⟨-, hw⟩ := hs.unambiguous hs' hw
      obtain ⟨-, -, hw⟩ := hk.unambiguous hk' hw
      obtain ⟨-, -, hw⟩ := hn.unambiguous hn' hw
      rw [hd.unique hd' hw]
  | insert hf hs hd _ =>
    cases h' with
    | insert hf' hs' hd' _ =>
      simp only [ByteArray.append_assoc] at hw
      obtain ⟨-, hx, hw⟩ := hf.unambiguous hf' hw
      obtain ⟨-, hw⟩ := hs.unambiguous hs' hw
      rw [UInt32.toNat_inj.1 hx, hd.unique hd' hw]
  | update hr hs hf hd | delete hr hs hf hd =>
    cases h'
    next hr' hs' hf' hd' =>
      simp only [ByteArray.append_assoc] at hw
      obtain ⟨-, hy, hw⟩ := hr.unambiguous hr' hw
      obtain ⟨-, hw⟩ := hs.unambiguous hs' hw
      obtain ⟨-, hx, hw⟩ := hf.unambiguous hf' hw
      rw [UInt32.toNat_inj.1 hy, UInt32.toNat_inj.1 hx, hd.unique hd' hw]
  | getMore hr hs hn hc =>
    cases h' with
    | getMore hr' _ _ _ =>
      simp only [ByteArray.append_assoc] at hw
      rw [UInt32.toNat_inj.1 (hr.unambiguous hr' hw).2.1]
  | killCursors hr hn _ =>
    cases h' with
    | killCursors hr' _ _ =>
      simp only [ByteArray.append_assoc] at hw
      rw [UInt32.toNat_inj.1 (hr.unambiguous hr' hw).2.1]

end Grammar

end DocumentServer
