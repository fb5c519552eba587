import DocumentServer.Proofs.Acceptance
import Mathlib.Data.Multiset.Filter
import Mathlib.Data.Multiset.Count

namespace DocumentServer

theorem Text.cell?_eq_some_iff {t : Text} {c : Nat} : t.cell? = some c ↔ t.storage = .cell c := by
  unfold Text.cell?
  split <;> simp_all

/-- A text that someone holds, and whether it was interned. -/
structure Handle where
  text : Text
  interned : Bool

namespace Handle

def cells (hs : Multiset Handle) : Multiset Nat := hs.filterMap fun h => h.text.cell?

theorem mem_cells {hs : Multiset Handle} {c : Nat} :
    c ∈ cells hs ↔ ∃ h ∈ hs, h.text.cell? = some c := Multiset.mem_filterMap _ _

theorem cells_add (gs hs : Multiset Handle) : cells (gs + hs) = cells gs + cells hs :=
  Multiset.filterMap_add _ gs hs

@[simp] theorem cells_cons_cell (s : String) (c : Nat) (interned : Bool) (hs : Multiset Handle) :
    cells (⟨⟨s, .cell c⟩, interned⟩ ::ₘ hs) = c ::ₘ cells hs :=
  Multiset.filterMap_cons_some _ _ _ rfl

theorem cells_cons_view {t : Text} (ht : t.cell? = none) (interned : Bool) (hs : Multiset Handle) :
    cells (⟨t, interned⟩ ::ₘ hs) = cells hs := Multiset.filterMap_cons_none _ _ ht

theorem cells_of_texts {ts : List Text} {gs : Multiset Handle} (h : gs.map text = ↑ts) :
    cells gs = ↑(ts.filterMap Text.cell?) := by
  rw [← Multiset.filterMap_coe, ← h, Multiset.filterMap_map]
  rfl

end Handle

namespace Pool

/-- The counts of cells are those of a multiset, which has the cells that are counted at all. -/
def Tallies (m : Std.HashMap Nat Nat) (cs : Multiset Nat) : Prop :=
  ∀ c, m[c]? = if c ∈ cs then some (cs.count c) else none

namespace Tallies

variable {p : Pool} {m : Std.HashMap Nat Nat} {cs : Multiset Nat} {c : Nat}

theorem contains_iff (h : Tallies m cs) (c : Nat) : m.contains c = true ↔ c ∈ cs := by
  rw [Std.HashMap.contains_eq_isSome_getElem?, h c]
  split <;> simp_all

theorem getD_eq (h : Tallies m cs) (c : Nat) : m.getD c 0 = cs.count c := by
  rw [Std.HashMap.getD_eq_getD_getElem?, h c]
  split
  next => rfl
  next hc => rw [Multiset.count_eq_zero_of_notMem hc, Option.getD_none]

theorem hold (h : Tallies p.holders cs) (c : Nat) : Tallies (p.hold c).holders (c ::ₘ cs) := by
  intro a
  rw [Pool.hold, Std.HashMap.getElem?_insert, h.getD_eq, h a]
  by_cases hc : c = a
  · subst hc
    simp
  · simp [hc, Ne.symm hc]

theorem letGo (h : Tallies p.holders (c ::ₘ cs)) : Tallies (p.letGo c).holders cs := by
  intro a
  have ha := h a
  have hn : p.holders.getD c 0 = cs.count c + 1 := by rw [h.getD_eq, Multiset.count_cons_self]
  simp only [Pool.letGo, hn]
  by_cases hc : c = a
  · subst hc
    split
    next hl => simp [Multiset.count_eq_zero.1 (Nat.le_zero.1 (Nat.le_of_succ_le_succ hl))]
    next hl =>
      have hm : c ∈ cs := Multiset.count_pos.1 (by omega)
      simp [hm]
  · have hne : a ≠ c := Ne.symm hc
    simp only [Multiset.mem_cons, hne, false_or, Multiset.count_cons_of_ne hne] at ha
    split <;> simp [Std.HashMap.getElem?_erase, Std.HashMap.getElem?_insert, hc, ha]

theorem release {ts : List Text} (h : Tallies p.holders (↑(ts.filterMap Text.cell?) + cs)) :
    Tallies (p.release ts).holders cs := by
  unfold Pool.release
  generalize ts.filterMap Text.cell? = ds at h ⊢
  induction ds generalizing p with
  | nil => simpa using h
  | cons d ds ih =>
    rw [← Multiset.cons_coe, Multiset.cons_add] at h
    exact ih h.letGo

end Tallies

theorem exists_release (ts : List Text) (p : Pool) :
    ∃ m, p.release ts = { p with holders := m } := by
  unfold release
  generalize ts.filterMap Text.cell? = cs
  induction cs generalizing p with
  | nil => exact ⟨p.holders, rfl⟩
  | cons c cs ih => exact ih (p.letGo c)

/-- Some handles as the entries of a pool see them. -/
structure Entered (p : Pool) (hs : Multiset Handle) : Prop where
  used : ∀ c ∈ Handle.cells hs, c < p.nextCell
  entries_used : ∀ (s : String) (c : Nat), p.cells[s]? = some c → c < p.nextCell
  /-- A cell says one thing, to those who hold it and in the table. -/
  named : ∃ word : Nat → String,
    (∀ h ∈ hs, ∀ c, h.text.cell? = some c → word c = h.text.content) ∧
      ∀ (s : String) (c : Nat), p.cells[s]? = some c → word c = s
  canonical : ∀ h ∈ hs, h.interned = true →
    ∃ c, h.text.cell? = some c ∧ p.cells[h.text.content]? = some c

/-- The handles are all that is held of a pool. -/
structure Holds (p : Pool) (hs : Multiset Handle) : Prop extends Entered p hs where
  tallied : Tallies p.holders (Handle.cells hs)

variable {p q : Pool} {gs hs : Multiset Handle} {s : String} {c : Nat}

namespace Entered

theorem mono (h : Entered p hs) (hg : gs ≤ hs) : Entered p gs where
  used c hc := h.used c (Multiset.mem_of_le (Multiset.filterMap_le_filterMap _ hg) hc)
  entries_used := h.entries_used
  named := by
    obtain ⟨word, hh, ht⟩ := h.named
    exact ⟨word, fun g hm => hh g (Multiset.mem_of_le hg hm), ht⟩
  canonical g hm := h.canonical g (Multiset.mem_of_le hg hm)

theorem congr (h : Entered p hs) (hc : q.cells = p.cells) (hn : q.nextCell = p.nextCell) :
    Entered q hs where
  used := hn ▸ h.used
  entries_used := by
    rw [hc, hn]
    exact h.entries_used
  named := by
    rw [hc]
    exact h.named
  canonical := by
    rw [hc]
    exact h.canonical

theorem view {t : Text} (h : Entered p hs) (ht : t.cell? = none) :
    Entered p (⟨t, false⟩ ::ₘ hs) where
  used := by
    rw [Handle.cells_cons_view ht]
    exact h.used
  entries_used := h.entries_used
  named := by
    obtain ⟨word, hh, hw⟩ := h.named
    exact ⟨word, by simpa [ht] using hh, hw⟩
  canonical := by simpa using h.canonical

theorem share (h : Entered p hs) (hc : p.cells[s]? = some c) :
    Entered p (⟨⟨s, .cell c⟩, true⟩ ::ₘ hs) where
  used := by simpa using ⟨h.entries_used s c hc, h.used⟩
  entries_used := h.entries_used
  named := by
    obtain ⟨word, hh, hw⟩ := h.named
    exact ⟨word, by simpa [Text.cell?] using ⟨hw s c hc, hh⟩, hw⟩
  canonical := by simpa [Text.cell?] using ⟨hc, h.canonical⟩

theorem allocate (h : Entered p hs) (s : String) (hn : q.nextCell = p.nextCell + 1)
    (hc : q.cells = p.cells) : Entered q (⟨⟨s, .cell p.nextCell⟩, false⟩ ::ₘ hs) where
  used := by
    have hu := fun c hc => (h.used c hc).trans (Nat.lt_succ_self _)
    simpa [hn] using hu
  entries_used t c ht := by
    rw [hc] at ht
    rw [hn]
    exact (h.entries_used t c ht).trans (Nat.lt_succ_self _)
  named := by
    obtain ⟨word, hh, hw⟩ := h.named
    -- all cells that have a name are below the next one
    refine ⟨Function.update word p.nextCell s, ?_, fun t c ht => ?_⟩
    · rintro g hg c hc
      rcases Multiset.mem_cons.1 hg with rfl | hg
      · obtain rfl : p.nextCell = c := Option.some.inj hc
        exact Function.update_self ..
      · have hlt := h.used c (Handle.mem_cells.2 ⟨g, hg, hc⟩)
        rw [Function.update_of_ne hlt.ne]
        exact hh g hg c hc
    · rw [hc] at ht
      rw [Function.update_of_ne (h.entries_used t c ht).ne]
      exact hw t c ht
  canonical := by
    rw [hc]
    simpa using h.canonical

/-- A handle enters the table, where no handle stands for the same string. -/
theorem enter (h : Entered p (⟨⟨s, .cell c⟩, false⟩ ::ₘ hs))
    (hs' : ∀ a : Nat, p.cells[s]? = some a → a ∉ Handle.cells hs) (hn : q.nextCell = p.nextCell)
    (hq : q.cells = p.cells.insert s c) : Entered q (⟨⟨s, .cell c⟩, true⟩ ::ₘ hs) where
  used := by simpa [hn] using h.used
  entries_used t a ha := by
    rw [hq, Std.HashMap.getElem?_insert] at ha
    rw [hn]
    split at ha
    next =>
      cases ha
      exact h.used c (Handle.mem_cells.2 ⟨_, Multiset.mem_cons_self _ _, rfl⟩)
    next => exact h.entries_used t a ha
  named := by
    obtain ⟨word, hh, hw⟩ := h.named
    refine ⟨word, ?_, fun t a ha => ?_⟩
    · simpa using hh
    · rw [hq, Std.HashMap.getElem?_insert] at ha
      split at ha
      next ht =>
        cases ha
        exact (hh _ (Multiset.mem_cons_self _ _) c rfl).trans (beq_iff_eq.1 ht)
      next => exact hw t a ha
  canonical g hg hi := by
    rw [hq]
    rcases Multiset.mem_cons.1 hg with rfl | hm
    · exact ⟨c, rfl, Std.HashMap.getElem?_insert_self⟩
    · obtain ⟨a, ha, ht⟩ := h.canonical g (Multiset.mem_cons_of_mem hm) hi
      refine ⟨a, ha, ?_⟩
      -- a handle that says the same would hold the cell of the entry that is replaced
      have hne : s ≠ g.text.content := by
        rintro rfl
        exact hs' a ht (Handle.mem_cells.2 ⟨g, hm, ha⟩)
      rwa [Std.HashMap.getElem?_insert, if_neg (by simpa using hne)]

end Entered

theorem getElem?_sweep {s : String} {c : Nat} :
    p.sweep.cells[s]? = some c ↔ p.cells[s]? = some c ∧ p.isLive c = true := by
  simp [Pool.sweep, Std.HashMap.getElem?_filter]

namespace Holds

theorem empty (policy : PoolPolicy) (interval : Nat) : Holds (Pool.empty policy interval) 0 where
  used c hc := by simp [Handle.cells] at hc
  entries_used s c h := by simp [Pool.empty] at h
  named := ⟨fun _ => "", by simp, by simp [Pool.empty]⟩
  canonical h hh := by simp at hh
  tallied c := by simp [Pool.empty, Handle.cells]

theorem isLive_iff (h : Holds p hs) (c : Nat) : p.isLive c = true ↔ c ∈ Handle.cells hs :=
  h.tallied.contains_iff c

theorem view {t : Text} (h : Holds p hs) (ht : t.cell? = none) : Holds p (⟨t, false⟩ ::ₘ hs) where
  toEntered := h.toEntered.view ht
  tallied := by simpa [Handle.cells, ht] using h.tallied

theorem sweep (h : Holds p hs) : Holds p.sweep hs where
  used := h.used
  entries_used s c hc := h.entries_used s c (getElem?_sweep.1 hc).1
  named := by
    obtain ⟨word, hh, hw⟩ := h.named
    exact ⟨word, hh, fun s c hc => hw s c (getElem?_sweep.1 hc).1⟩
  canonical g hg hi := by
    obtain ⟨c, hc, ht⟩ := h.canonical g hg hi
    exact ⟨c, hc, getElem?_sweep.2 ⟨ht, (h.isLive_iff c).2 (Handle.mem_cells.2 ⟨g, hg, hc⟩)⟩⟩
  tallied := h.tallied

theorem allocate (h : Holds p hs) (s : String) :
    Holds (p.allocate s).2 (⟨(p.allocate s).1, false⟩ ::ₘ hs) where
  toEntered := h.toEntered.allocate s rfl rfl
  tallied := by
    rw [Pool.allocate, Handle.cells_cons_cell]
    exact Tallies.hold (p := { p with nextCell := p.nextCell + 1 }) h.tallied p.nextCell

theorem enter (h : Holds p hs) (hs' : ∀ c : Nat, p.cells[s]? = some c → p.isLive c = false) :
    Holds (p.enter s).2 (⟨(p.enter s).1, true⟩ ::ₘ hs) := by
  have ha := h.allocate s
  have hd : ∀ c : Nat, p.cells[s]? = some c → c ∉ Handle.cells hs := by
    intro c hc hm
    exact Bool.false_ne_true ((hs' c hc).symm.trans ((h.isLive_iff c).2 hm))
  have hq : Holds
      { (p.allocate s).2 with
        cells := p.cells.insert s p.nextCell
        insertions := p.insertions + 1 }
      (⟨⟨s, .cell p.nextCell⟩, true⟩ ::ₘ hs) :=
    { toEntered := ha.toEntered.enter hd rfl rfl
      tallied := by
        rw [Handle.cells_cons_cell, ← Handle.cells_cons_cell s p.nextCell false]
        exact ha.tallied }
  unfold Pool.enter
  dsimp only
  split
  · exact hq.sweep
  · exact hq

theorem intern (h : Holds p hs) (s : String) :
    Holds (p.intern s).2 (⟨(p.intern s).1, true⟩ ::ₘ hs) := by
  unfold Pool.intern
  split
  next c hc =>
    by_cases hl : p.isLive c = true
    · rw [if_pos hl]
      exact
        { toEntered := (h.toEntered.share hc).congr rfl rfl
          tallied := by
            rw [Handle.cells_cons_cell]
            exact h.tallied.hold c }
    · rw [if_neg hl]
      refine h.enter fun a ha => ?_
      obtain rfl : c = a := Option.some.inj (hc.symm.trans ha)
      exact Bool.eq_false_of_not_eq_true hl
  next hc => exact h.enter fun a ha => by simp [hc] at ha

theorem fetch (h : Holds p hs) (likely : Bool) (s : String) :
    Holds (p.fetch likely s).2 (⟨(p.fetch likely s).1, p.policy.accepts likely s.toUTF8⟩ ::ₘ hs) := by
  unfold Pool.fetch
  split
  next ha =>
    rw [ha]
    exact h.intern s
  next ha =>
    rw [Bool.eq_false_of_not_eq_true ha]
    exact h.allocate s

theorem release {ts : List Text} (h : Holds p (gs + hs)) (hg : gs.map Handle.text = ↑ts) :
    Holds (p.release ts) hs := by
  obtain ⟨m, hm⟩ := exists_release ts p
  have he := h.toEntered.mono (Multiset.le_add_left hs gs)
  refine { toEntered := he.congr (by rw [hm]) (by rw [hm]), tallied := Tallies.release ?_ }
  rw [← Handle.cells_of_texts hg, ← Handle.cells_add]
  exact h.tallied

theorem restore (h : Holds p hs) (hq : Holds q (gs + hs)) : Holds (p.restore q) hs where
  toEntered := (hq.toEntered.mono (Multiset.le_add_left hs gs)).congr rfl rfl
  tallied := h.tallied

end Holds

end Pool

end DocumentServer
