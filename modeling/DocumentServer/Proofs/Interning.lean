import DocumentServer.Proofs.Ledger
import Mathlib.Algebra.BigOperators.Group.Multiset.Basic

namespace DocumentServer

/-- Whether a text goes into a pool with a policy when it is decoded under a strategy. -/
def Strategy.pools (strategy : Strategy) (policy : PoolPolicy) (isKey likely : Bool)
    (content : String) : Bool :=
  !strategy.borrows isKey && policy.accepts likely content.toUTF8

/-- A short key goes into the pool unless keys are borrowed or the policy rejects it. -/
theorem Strategy.interned_ofKey {strategy : Strategy} {policy : PoolPolicy} {k : Text}
    (hs : strategy ≠ .borrow) (hp : policy.accepts true k.content.toUTF8 = true)
    (hk : k.content.utf8ByteSize ≤ 32) :
    (Handle.ofKey (strategy.pools policy) k).interned = true := by
  have hl : decide (k.content.utf8ByteSize ≤ Decode.likelyKeySize) = true := decide_eq_true hk
  rw [Handle.ofKey, hl]
  cases strategy with
  | borrow => exact absurd rfl hs
  | copy | borrowValues => exact hp

/-- Notes the texts in the order in which they are met, those that are dropped later included. -/
def Keeper.listing : Keeper (List Found) String :=
  ⟨fun f fs => (f.content, fs ++ [f]), fun _ fs => fs⟩

def Decode.met (b : ByteArray) (i : Nat) : List Found := (documentAt Keeper.listing b i []).2

namespace Pool

variable {p before : Pool} {hs : Multiset Handle} {strategy : Strategy} {region base : Nat}
  {f : Found} {s t : String} {cell : Nat}

theorem policy_intern (s : String) (p : Pool) : (p.intern s).2.policy = p.policy := by
  have he : (p.enter s).2.policy = p.policy := by
    unfold enter
    dsimp only
    split <;> rfl
  unfold intern
  split
  · split
    · rfl
    · exact he
  · exact he

theorem policy_fetch (likely : Bool) (s : String) (p : Pool) :
    (p.fetch likely s).2.policy = p.policy := by
  unfold fetch
  split
  · exact policy_intern s p
  · rfl

theorem policy_keep (f : Found) (p : Pool) :
    ((keeper strategy region base).keep f p).2.policy = p.policy := by
  unfold keeper
  dsimp only
  split
  · rfl
  · exact policy_fetch f.likely f.content p

theorem getElem?_enter (h : (p.enter s).2.cells[t]? = some cell) :
    p.cells[t]? = some cell ∨ s = t := by
  have hi : (p.cells.insert s p.nextCell)[t]? = some cell := by
    unfold enter at h
    dsimp only at h
    split at h
    · exact (getElem?_sweep.1 h).1
    · exact h
  rw [Std.HashMap.getElem?_insert] at hi
  split at hi
  next ht => exact .inr (beq_iff_eq.1 ht)
  next => exact .inl hi

theorem getElem?_intern (h : (p.intern s).2.cells[t]? = some cell) :
    p.cells[t]? = some cell ∨ s = t := by
  unfold intern at h
  split at h
  · split at h
    · exact .inl h
    · exact getElem?_enter h
  · exact getElem?_enter h

theorem cells_fetch {likely : Bool} (h : p.policy.accepts likely s.toUTF8 = false) :
    (p.fetch likely s).2.cells = p.cells := by
  rw [fetch, h]
  rfl

theorem cells_keep (h : strategy.pools p.policy f.isKey f.likely f.content = false) :
    ((keeper strategy region base).keep f p).2.cells = p.cells := by
  unfold keeper
  dsimp only
  split
  next => rfl
  next hb =>
    rw [Strategy.pools, Bool.eq_false_of_not_eq_true hb] at h
    exact cells_fetch h

theorem getElem?_keep (h : ((keeper strategy region base).keep f p).2.cells[t]? = some cell) :
    p.cells[t]? = some cell ∨
      strategy.pools p.policy f.isKey f.likely f.content = true ∧ f.content = t := by
  cases hp : strategy.pools p.policy f.isKey f.likely f.content with
  | false =>
    rw [cells_keep hp] at h
    exact .inl h
  | true =>
    obtain ⟨hb, ha⟩ := Bool.and_eq_true_iff.1 hp
    have hb' : strategy.borrows f.isKey = false := by simpa using hb
    simp only [keeper, fetch, hb', ha, if_true] at h
    exact (getElem?_intern h).imp_right fun ht => ⟨rfl, ht⟩

theorem Holds.keep (h : Holds p hs) (f : Found) :
    Holds ((keeper strategy region base).keep f p).2
      ({⟨((keeper strategy region base).keep f p).1,
        strategy.pools p.policy f.isKey f.likely f.content⟩} + hs) := by
  rw [Multiset.singleton_add]
  by_cases hb : strategy.borrows f.isKey = true
  · simp only [keeper, hb, Strategy.pools, if_true, Bool.not_true, Bool.false_and]
    exact h.view rfl
  · simp only [keeper, hb, Strategy.pools, Bool.not_false, Bool.true_and]
    exact h.fetch f.likely f.content

theorem Holds.sameStorage (h : Holds p hs) {x y : Handle} (hx : x ∈ hs) (hy : y ∈ hs)
    (hi : x.interned = true) (hj : y.interned = true) (he : x.text.content = y.text.content) :
    x.text.sameStorage y.text = true := by
  obtain ⟨c, hc, ht⟩ := h.canonical x hx hi
  obtain ⟨d, hd, hu⟩ := h.canonical y hy hj
  obtain rfl : c = d := Option.some.inj (ht.symm.trans (he ▸ hu))
  simp [Text.sameStorage, Text.cell?_eq_some_iff.1 hc, Text.cell?_eq_some_iff.1 hd, he]

/-- A pool in the middle of a decoding that began with another: what is held, and where its entries
come from. -/
structure Accounted (strategy : Strategy) (before p : Pool) (met : List Found)
    (hs : Multiset Handle) : Prop where
  holds : p.Holds hs
  policy_eq : p.policy = before.policy
  entries : ∀ (t : String) (cell : Nat), p.cells[t]? = some cell →
    before.cells[t]? = some cell ∨
      ∃ f ∈ met, strategy.pools before.policy f.isKey f.likely f.content = true ∧ f.content = t

theorem Accounted.refl (strategy : Strategy) (h : Holds p hs) : Accounted strategy p p [] hs :=
  ⟨h, rfl, fun _ _ => .inl⟩

theorem booked_keeper (strategy : Strategy) (region base : Nat) (before : Pool) :
    Keeper.Booked (Accounted strategy before) (strategy.pools before.policy)
      (keeper strategy region base) .listing where
  faithful := faithful_keeper strategy region base
  keep f p met hs h :=
    { holds := h.policy_eq ▸ h.holds.keep f
      policy_eq := (policy_keep f p).trans h.policy_eq
      entries := fun t cell hc => by
        rcases getElem?_keep hc with hc | ⟨hp, ht⟩
        · refine (h.entries t cell hc).imp_right ?_
          rintro ⟨g, hg, hgt⟩
          exact ⟨g, List.mem_append_left _ hg, hgt⟩
        · exact .inr ⟨f, List.mem_append_right _ List.mem_cons_self, h.policy_eq ▸ hp, ht⟩ }
  drop ts _ gs p met hs hg h := by
    have hr := h.holds.release hg
    obtain ⟨m, hm⟩ := exists_release ts p
    change Accounted strategy before (p.release ts) met hs
    rw [hm] at hr ⊢
    exact ⟨hr, h.policy_eq, h.entries⟩

/-- After a decoding the texts of the document are held, or nothing more than before. -/
theorem Holds.decode (h : Holds p hs) (strategy : Strategy) (region : Nat) (b : ByteArray)
    (i : Nat) :
    (∃ d n, (p.decode strategy region b i).1 = .ok (d, n) ∧
      Accounted strategy p (p.decode strategy region b i).2 (Decode.met b i)
        (Document.handles (strategy.pools p.policy) d + hs)) ∨
      ∃ e, (p.decode strategy region b i).1 = .error e ∧
        Accounted strategy p (p.decode strategy region b i).2 (Decode.met b i) hs := by
  have hd := Decode.settles_documentAt (booked_keeper strategy region i p) b i
    (Accounted.refl strategy h)
  unfold Pool.decode Decode.met
  revert hd
  generalize Decode.documentAt (keeper strategy region i) b i p = x
  generalize Decode.documentAt Keeper.listing b i [] = y
  intro hd
  cases hd with
  | ok n hd => exact .inl ⟨_, n, rfl, hd⟩
  | error gs he =>
    exact .inr ⟨_, rfl, h.restore he.holds, he.policy_eq, he.entries⟩

end Pool

inductive Holding where
  | string (text : Text) (interned : Bool)
  | document (strategy : Strategy) (document : Document Text)

namespace Holding

def texts : Holding → List Text
  | string t _ => [t]
  | document _ d => d.texts

def handles (policy : PoolPolicy) : Holding → Multiset Handle
  | string t interned => {⟨t, interned⟩}
  | document strategy d => Document.handles (strategy.pools policy) d

theorem map_text_handles (policy : PoolPolicy) (h : Holding) :
    (h.handles policy).map Handle.text = ↑h.texts := by
  cases h with
  | string t interned => rfl
  | document strategy d => exact Document.map_text_handles d

end Holding

/-- What is done with a pool. Dropping lets go of what is held at a place, the last comer first. -/
inductive Pool.Action where
  | intern (s : String)
  | fetch (likely : Bool) (s : String)
  | decode (strategy : Strategy) (region : Nat) (b : ByteArray) (i : Nat)
  | drop (place : Nat)
  | purge

structure Pool.Client where
  pool : Pool
  held : List Holding

namespace Pool.Client

def handles (c : Client) : Multiset Handle := (c.held.map (Holding.handles c.pool.policy)).sum

def step (c : Client) : Action → Client
  | .intern s =>
    let (t, p) := c.pool.intern s
    ⟨p, .string t true :: c.held⟩
  | .fetch likely s =>
    let (t, p) := c.pool.fetch likely s
    ⟨p, .string t (c.pool.policy.accepts likely s.toUTF8) :: c.held⟩
  | .decode strategy region b i =>
    match c.pool.decode strategy region b i with
    | (.ok (d, _), p) => ⟨p, .document strategy d :: c.held⟩
    | (.error _, p) => ⟨p, c.held⟩
  | .drop place =>
    match c.held[place]? with
    | some h => ⟨c.pool.release h.texts, c.held.eraseIdx place⟩
    | none => c
  | .purge => ⟨c.pool.purge.2, c.held⟩

def run (c : Client) (actions : List Action) : Client := actions.foldl step c

structure Sound (policy : PoolPolicy) (c : Client) : Prop where
  policy_eq : c.pool.policy = policy
  holds : c.pool.Holds c.handles

variable {policy : PoolPolicy} {c : Client}

theorem sound_empty (policy : PoolPolicy) (interval : Nat) :
    Sound policy ⟨Pool.empty policy interval, []⟩ := ⟨rfl, .empty policy interval⟩

theorem Sound.push {p : Pool} {h : Holding} (hc : p.policy = policy)
    (hh : p.Holds (h.handles policy + (c.held.map (Holding.handles policy)).sum)) :
    Sound policy ⟨p, h :: c.held⟩ := by
  refine ⟨hc, ?_⟩
  rw [handles, List.map_cons, List.sum_cons, hc]
  exact hh

theorem Sound.step (hc : Sound policy c) (a : Action) : Sound policy (c.step a) := by
  obtain ⟨hp, hh⟩ := hc
  subst hp
  cases a with
  | intern s => exact .push (policy_intern s c.pool) (hh.intern s)
  | fetch likely s => exact .push (policy_fetch likely s c.pool) (hh.fetch likely s)
  | decode strategy region b i =>
    have hd := hh.decode strategy region b i
    rw [Client.step]
    revert hd
    generalize c.pool.decode strategy region b i = x
    obtain ⟨x, p⟩ := x
    rintro (⟨d, n, rfl, ha⟩ | ⟨e, rfl, ha⟩)
    · exact .push ha.policy_eq ha.holds
    · refine ⟨ha.policy_eq, ?_⟩
      rw [handles, ha.policy_eq]
      exact ha.holds
  | drop place =>
    rw [Client.step]
    cases hg : c.held[place]? with
    | none => exact ⟨rfl, hh⟩
    | some h =>
      obtain ⟨hl, rfl⟩ := List.getElem?_eq_some_iff.1 hg
      have he := ((List.getElem_cons_eraseIdx_perm hl).map (Holding.handles c.pool.policy)).sum_eq
      rw [List.map_cons, List.sum_cons] at he
      rw [handles, ← he] at hh
      obtain ⟨m, hm⟩ := exists_release c.held[place].texts c.pool
      have hr := hh.release (Holding.map_text_handles _ _)
      dsimp only
      rw [hm] at hr ⊢
      exact ⟨rfl, hr⟩
  | purge => exact ⟨rfl, hh.sweep⟩

theorem Sound.run (hc : Sound policy c) (actions : List Action) : Sound policy (c.run actions) := by
  induction actions generalizing c with
  | nil => exact hc
  | cons a actions ih => exact ih (hc.step a)

theorem mem_handles {h : Holding} (hh : h ∈ c.held) {g : Handle}
    (hg : g ∈ h.handles c.pool.policy) : g ∈ c.handles :=
  Multiset.mem_of_le (List.le_sum_of_mem (List.mem_map_of_mem hh)) hg

/-- Interned strings are canonical as long as they are held. -/
structure Canonical (policy : PoolPolicy) (c : Client) : Prop where
  /-- What is interned and held has an entry, which leads to its very cell. -/
  entered : ∀ h ∈ c.handles, h.interned = true → ∃ cell, h.text.storage = .cell cell ∧
    c.pool.cells[h.text.content]? = some cell ∧ c.pool.isLive cell = true
  shared : ∀ g ∈ c.handles, ∀ h ∈ c.handles, g.interned = true → h.interned = true →
    g.text.content = h.text.content → g.text.sameStorage h.text = true
  /-- A cell says the same to all who hold it. -/
  agree : ∀ g ∈ c.handles, ∀ h ∈ c.handles, ∀ cell, g.text.storage = .cell cell →
    h.text.storage = .cell cell → g.text.content = h.text.content
  interned : ∀ s, (c.pool.intern s).1.content = s ∧
    ∀ h ∈ c.handles, h.interned = true → h.text.content = s →
      (c.pool.intern s).1.sameStorage h.text = true
  keys : ∀ strategy d strategy' d', .document strategy d ∈ c.held →
    .document strategy' d' ∈ c.held → strategy ≠ .borrow → strategy' ≠ .borrow →
    ∀ k ∈ Document.allKeys d, ∀ k' ∈ Document.allKeys d', k.content = k'.content →
      k.content.utf8ByteSize ≤ 32 → policy.accepts true k.content.toUTF8 = true →
        k.sameStorage k' = true
  rejected : ∀ likely s, policy.accepts likely s.toUTF8 = false →
    (c.pool.fetch likely s).2.cells = c.pool.cells
  /-- A text of which a decoding makes a new entry was met and neither kept as a view nor
  rejected. -/
  met : ∀ strategy region b i s cell,
    (c.pool.decode strategy region b i).2.cells[s]? = some cell →
      c.pool.cells[s]? = some cell ∨ ∃ f ∈ Decode.met b i, strategy.borrows f.isKey = false ∧
        policy.accepts f.likely f.content.toUTF8 = true ∧ f.content = s

theorem Sound.canonical (hc : Sound policy c) : Canonical policy c := by
  obtain ⟨rfl, hh⟩ := hc
  exact
    { entered := fun h hm hi => by
        obtain ⟨cell, hc, ht⟩ := hh.canonical h hm hi
        have hl := (hh.isLive_iff cell).2 (Handle.mem_cells.2 ⟨h, hm, hc⟩)
        exact ⟨cell, Text.cell?_eq_some_iff.1 hc, ht, hl⟩
      shared := fun g hg h hm => hh.sameStorage hg hm
      agree := fun g hg h hm cell hgc hc => by
        obtain ⟨word, hw, -⟩ := hh.named
        exact (hw g hg cell (Text.cell?_eq_some_iff.2 hgc)).symm.trans
          (hw h hm cell (Text.cell?_eq_some_iff.2 hc))
      interned := fun s => by
        refine ⟨content_intern s c.pool, fun h hm hi he => ?_⟩
        exact (hh.intern s).sameStorage (Multiset.mem_cons_self _ _) (Multiset.mem_cons_of_mem hm)
          rfl hi ((content_intern s c.pool).trans he.symm)
      keys := fun strategy d strategy' d' hd hd' hs hs' k hk k' hk' he hl hp =>
        hh.sameStorage (mem_handles hd (Document.ofKey_mem_handles d hk))
          (mem_handles hd' (Document.ofKey_mem_handles d' hk'))
          (Strategy.interned_ofKey hs hp hl) (Strategy.interned_ofKey hs' (he ▸ hp) (he ▸ hl)) he
      rejected := fun likely s => cells_fetch
      met := fun strategy region b i s cell hc => by
        have he : c.pool.cells[s]? = some cell ∨ ∃ f ∈ Decode.met b i,
            strategy.pools c.pool.policy f.isKey f.likely f.content = true ∧ f.content = s := by
          obtain ⟨_, _, -, ha⟩ | ⟨_, -, ha⟩ := hh.decode strategy region b i
          · exact ha.entries s cell hc
          · exact ha.entries s cell hc
        simpa [Strategy.pools, and_assoc] using he }

/-- In every run of a pool, interned strings are canonical as long as they are held. Two of the
policies that have a name accept every short key. -/
theorem canonical_run (policy : PoolPolicy) (interval : Nat) (actions : List Action) :
    Canonical policy (run ⟨Pool.empty policy interval, []⟩ actions) ∧
      (policy = .always ∨ policy = .onlyLikely → ∀ key, policy.accepts true key = true) := by
  refine ⟨((sound_empty policy interval).run actions).canonical, ?_⟩
  rintro (rfl | rfl) key <;> rfl

/-- A string that nobody holds any more comes back in another cell, which two documents share. -/
example :
    let b : ByteArray := ⟨#[12, 0, 0, 0, 16, 97, 0, 1, 0, 0, 0, 0]⟩
    (run ⟨Pool.empty .onlyLikely 4, []⟩
      [.intern "a", .drop 0, .decode .copy 0 b 0, .decode .borrowValues 1 b 0]).handles =
      {⟨⟨"a", .cell 2⟩, true⟩, ⟨⟨"a", .cell 2⟩, true⟩} := by
  cbv

end Pool.Client

end DocumentServer
