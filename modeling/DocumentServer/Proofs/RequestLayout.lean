import DocumentServer.Message.Request
import DocumentServer.Proofs.Grammar

namespace DocumentServer

namespace Namespace

/-- The two parts of a namespace are there, and only the second may hold a dot. -/
def Proper (n : Namespace) : Prop :=
  n.database ≠ "" ∧ '.' ∉ n.database.toList ∧ n.collection ≠ ""

theorem splitDot_eq_some_iff {cs ds es : List Char} :
    splitDot cs = some (ds, es) ↔ cs = ds ++ '.' :: es ∧ '.' ∉ ds := by
  induction cs generalizing ds with
  | nil => simp [splitDot]
  | cons c cs ih =>
    by_cases hc : c = '.'
    · subst hc
      cases ds with
      | nil => simp [splitDot, eq_comm]
      | cons d ds =>
        simp only [splitDot, Option.some.injEq, Prod.mk.injEq, List.cons_append, List.cons.injEq,
          List.mem_cons, not_or, reduceCtorEq, false_and, false_iff]
        exact fun ⟨⟨h, _⟩, hd, _⟩ => hd h
    · have hs : splitDot (c :: cs) = (splitDot cs).map fun p => (c :: p.1, p.2) := by
        rw [splitDot]
        exact fun h => hc h
      rw [hs, Option.map_eq_some_iff]
      constructor
      · rintro ⟨⟨ds', es'⟩, h, he⟩
        cases he
        obtain ⟨rfl, hd⟩ := ih.1 h
        exact ⟨rfl, by simp [hd, Ne.symm hc]⟩
      · rintro ⟨h, hd⟩
        cases ds with
        | nil => exact absurd (List.cons.inj h).1 hc
        | cons d ds =>
          obtain ⟨rfl, rfl⟩ := List.cons.inj h
          exact ⟨(ds, es), ih.2 ⟨rfl, fun h => hd (List.mem_cons_of_mem _ h)⟩, rfl⟩

theorem toList_ne_nil {s : String} : s ≠ "" ↔ s.toList ≠ [] := by
  rw [Ne, Ne, String.toList_eq_nil_iff]

theorem toList_display (n : Namespace) :
    n.display.toList = n.database.toList ++ '.' :: n.collection.toList := by
  simp [display]

theorem parse_eq_ok_iff {s : String} {n : Namespace} :
    parse s = .ok n ↔ s = n.display ∧ n.Proper := by
  unfold parse
  constructor
  · intro h
    split at h
    next d ds c cs hs =>
      cases h
      obtain ⟨hl, hd⟩ := splitDot_eq_some_iff.1 hs
      refine ⟨String.toList_injective ?_, ?_, ?_, ?_⟩
      · rw [toList_display, hl, String.toList_ofList, String.toList_ofList]
      · simp
      · rwa [String.toList_ofList]
      · simp
    next => cases h
  · rintro ⟨rfl, hd, hp, hc⟩
    rw [toList_ne_nil] at hd hc
    obtain ⟨d, ds, hd'⟩ := List.exists_cons_of_ne_nil hd
    obtain ⟨c, cs, hc'⟩ := List.exists_cons_of_ne_nil hc
    have hs : splitDot n.display.toList = some (d :: ds, c :: cs) := by
      rw [toList_display, hd', hc']
      exact splitDot_eq_some_iff.2 ⟨rfl, hd' ▸ hp⟩
    rw [hs]
    simp only [← hd', ← hc', String.ofList_toList]

theorem error_of_parse {s : String} {e : MessageError} (h : parse s = .error e) :
    e = .invalidNamespace s := by
  unfold parse at h
  split at h <;> cases h
  rfl

end Namespace

namespace Grammar

/-- A namespace up to a zero. -/
def IsSpace (w : ByteArray) (n : Namespace) : Prop := IsCString w n.display ∧ n.Proper

inductive IsDocuments : ByteArray → List (Document String) → Prop
  | nil : IsDocuments ByteArray.empty []
  | cons {w u d ds} (hd : IsDocument maxNesting w d) (h : IsDocuments u ds) :
      IsDocuments (w ++ u) (d :: ds)

theorem isDocuments_nil_iff {w : ByteArray} : IsDocuments w [] ↔ w = ByteArray.empty :=
  ⟨fun h => by cases h; rfl, fun h => h ▸ .nil⟩

theorem isDocuments_cons_iff {w : ByteArray} {d : Document String} {ds : List (Document String)} :
    IsDocuments w (d :: ds) ↔
      ∃ u v, w = u ++ v ∧ IsDocument maxNesting u d ∧ IsDocuments v ds := by
  constructor
  · rintro (_ | ⟨hd, h⟩)
    exact ⟨_, _, rfl, hd, h⟩
  · rintro ⟨u, v, rfl, hd, h⟩
    exact .cons hd h

theorem isDocuments_singleton_iff {w : ByteArray} {d : Document String} :
    IsDocuments w [d] ↔ IsDocument maxNesting w d := by
  rw [isDocuments_cons_iff]
  constructor
  · rintro ⟨u, v, rfl, hd, h⟩
    rwa [isDocuments_nil_iff.1 h, ByteArray.append_empty]
  · exact fun h => ⟨w, ByteArray.empty, ByteArray.append_empty.symm, h, .nil⟩

inductive IsWords : ByteArray → List Int64 → Prop
  | nil : IsWords ByteArray.empty []
  | cons {w u n ns} (hn : IsWord 8 w n.toUInt64.toNat) (h : IsWords u ns) :
      IsWords (w ++ u) (n :: ns)

/-- The body of an opcode. Words that are reserved may hold anything; of a word of flags the lowest
bits count. -/
inductive IsBody : Opcode → ByteArray → Request → Prop
  | query {o u k n w options space skip count d projection} (ho : IsWord 4 o options.bits.toNat)
      (hs : IsSpace u space) (hk : IsWord 4 k skip.toUInt32.toNat)
      (hn : IsWord 4 n count.toUInt32.toNat) (hd : IsDocuments w (d :: projection.toList)) :
      IsBody .query (o ++ u ++ k ++ n ++ w) (.query ⟨space, options, skip, count, d, projection⟩)
  | insert {f u w space ds} {x : UInt32} (hf : IsWord 4 f x.toNat) (hs : IsSpace u space)
      (hd : IsDocuments w ds) (hne : ds ≠ []) :
      IsBody .insert (f ++ u ++ w) (.insert ⟨space, x.toNat.testBit 0, ds⟩)
  | update {r u f w space selector change} {x : UInt32} (hr : r.size = 4) (hs : IsSpace u space)
      (hf : IsWord 4 f x.toNat) (hd : IsDocuments w [selector, change]) :
      IsBody .update (r ++ u ++ f ++ w)
        (.update ⟨space, x.toNat.testBit 0, x.toNat.testBit 1, selector, change⟩)
  | delete {r u f w space selector} {x : UInt32} (hr : r.size = 4) (hs : IsSpace u space)
      (hf : IsWord 4 f x.toNat) (hd : IsDocuments w [selector]) :
      IsBody .delete (r ++ u ++ f ++ w) (.delete ⟨space, x.toNat.testBit 0, selector⟩)
  | getMore {r u n c space count cursor} (hr : r.size = 4) (hs : IsSpace u space)
      (hn : IsWord 4 n count.toUInt32.toNat) (hc : IsWord 8 c cursor.toUInt64.toNat) :
      IsBody .getMore (r ++ u ++ n ++ c) (.getMore ⟨space, count, cursor⟩)
  | killCursors {r n w ids} (hr : r.size = 4) (hn : IsLength n ids.length) (hw : IsWords w ids) :
      IsBody .killCursors (r ++ n ++ w) (.killCursors ids)

end Grammar

end DocumentServer
