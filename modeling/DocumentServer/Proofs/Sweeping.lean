import DocumentServer.Proofs.Interning

namespace DocumentServer.Pool

variable {p : Pool} {s t : String} {cell : Nat}

/-- What is done with single strings of a pool. -/
inductive Use where
  | intern (s : String)
  | fetch (likely : Bool) (s : String)
  | drop (place : Nat)
  | purge

def Use.action : Use → Action
  | .intern s => .intern s
  | .fetch likely s => .fetch likely s
  | .drop place => .drop place
  | .purge => .purge

def Use.wanted? (policy : PoolPolicy) : Use → Option String
  | .intern s => some s
  | .fetch likely s => if policy.accepts likely s.toUTF8 then some s else none
  | .drop _ | .purge => none

namespace Client

def use (c : Client) (u : Use) : Client := c.step u.action

/-- Whether someone holds a string in a cell. -/
def holds (c : Client) (cell : Nat) : Bool :=
  c.held.any fun h => h.texts.any fun t => t.cell? = some cell

/-- Whether the pool has an entry of a string that someone holds. -/
def shows (c : Client) (s : String) : Bool := (c.pool.cells[s]?).any c.holds

/-- The string that is entered: a new one, or one that takes the place of a dead one. -/
def entered? (c : Client) (u : Use) : Option String :=
  (u.wanted? c.pool.policy).filter fun s => !c.shows s

def placed (c : Client) (u : Use) (s : String) : Option Nat :=
  if c.entered? u = some s then some c.pool.nextCell else c.pool.cells[s]?

end Client

/-- A client of a pool, and what can be counted without looking into the pool's own counter: the
strings that were entered, the entries that the latest sweep left, and the strings that were entered
since then. -/
structure Watched where
  client : Client
  entered : Nat
  left : Nat
  since : Nat

namespace Watched

/-- Purging sweeps, and so does every `k`-th string that is entered. -/
def sweeps (k : Nat) (w : Watched) (u : Use) : Bool :=
  match u with
  | .purge => true
  | u => (w.client.entered? u).isSome && (w.entered + 1) % k = 0

def use (k : Nat) (w : Watched) (u : Use) : Watched :=
  let c := w.client.use u
  let n := (w.client.entered? u).toList.length
  if w.sweeps k u then ⟨c, w.entered + n, c.pool.size, 0⟩
  else ⟨c, w.entered + n, w.left, w.since + n⟩

def start (policy : PoolPolicy) (interval : Nat) : Watched :=
  ⟨⟨Pool.empty policy interval, []⟩, 0, 0, 0⟩

def run (k : Nat) (w : Watched) (us : List Use) : Watched := us.foldl (use k) w

end Watched

def finds (p : Pool) (s : String) : Bool := (p.cells[s]?).any p.isLive

theorem intern_of_finds (h : p.finds s = true) :
    ∃ cell, p.intern s = (⟨s, .cell cell⟩, p.hold cell) := by
  unfold finds at h
  unfold intern
  cases hc : p.cells[s]? with
  | none => rw [hc] at h; cases h
  | some cell =>
    rw [hc] at h
    exact ⟨cell, if_pos h⟩

theorem intern_of_not_finds (h : p.finds s = false) : p.intern s = p.enter s := by
  unfold finds at h
  unfold intern
  cases hc : p.cells[s]? with
  | none => rfl
  | some cell =>
    rw [hc] at h
    exact if_neg (Bool.eq_false_iff.1 h)

def withEntry (s : String) (p : Pool) : Pool :=
  { (p.allocate s).2 with
    cells := p.cells.insert s p.nextCell
    insertions := p.insertions + 1 }

theorem enter_snd (s : String) (p : Pool) : (p.enter s).2 =
    if (p.insertions + 1) % p.interval = 0 then (p.withEntry s).sweep else p.withEntry s := rfl

theorem getElem?_enter_iff : (p.enter s).2.cells[t]? = some cell ↔
    (p.cells.insert s p.nextCell)[t]? = some cell ∧
      ((p.insertions + 1) % p.interval = 0 → (p.enter s).2.isLive cell = true) := by
  rw [enter_snd]
  split
  next hk =>
    rw [getElem?_sweep]
    exact and_congr_right' ⟨fun h _ => h, fun h => h hk⟩
  next hk => exact ⟨fun h => ⟨h, fun h' => absurd h' hk⟩, And.left⟩

theorem size_sweep_le (p : Pool) : p.sweep.size ≤ p.size := Std.HashMap.size_filter_le_size

theorem size_withEntry_le (s : String) (p : Pool) : (p.withEntry s).size ≤ p.size + 1 :=
  Std.HashMap.size_insert_le

theorem purge_fst (p : Pool) :
    p.purge.1 = (p.cells.toList.filter fun e => !p.isLive e.2).length := by
  have hs : p.sweep.size = (p.cells.toList.filter fun e => p.isLive e.2).length := by
    rw [size, ← Std.HashMap.length_toList]
    exact Std.HashMap.toList_filter.length_eq
  have hp := List.length_eq_length_filter_add (l := p.cells.toList) fun e => p.isLive e.2
  rw [Std.HashMap.length_toList] at hp
  rw [purge, hs, size]
  omega

theorem Holds.intern_eq {hs : Multiset Handle} (h : Holds p hs) (s : String) :
    ∃ cell, (p.intern s).1 = ⟨s, .cell cell⟩ ∧ (p.intern s).2.cells[s]? = some cell := by
  obtain ⟨cell, hl, he⟩ := (h.intern s).canonical _ (Multiset.mem_cons_self _ _) rfl
  have hs := content_intern s p
  revert hl he hs
  generalize p.intern s = x
  obtain ⟨⟨content, storage⟩, q⟩ := x
  rintro hl he rfl
  exact ⟨cell, congrArg _ (Text.cell?_eq_some_iff.1 hl), he⟩

namespace Client

variable {policy : PoolPolicy} {c : Client} {u : Use}

theorem map_text_handles (c : Client) :
    c.handles.map Handle.text = ↑(c.held.flatMap Holding.texts) := by
  unfold handles
  induction c.held with
  | nil => rfl
  | cons h hs ih =>
    rw [List.map_cons, List.sum_cons, Multiset.map_add, ih, Holding.map_text_handles,
      List.flatMap_cons, Multiset.coe_add]

/-- The pool takes for alive what someone holds. -/
theorem Sound.isLive_eq (hc : Sound policy c) (cell : Nat) : c.pool.isLive cell = c.holds cell := by
  rw [Bool.eq_iff_iff, hc.holds.isLive_iff, Handle.cells_of_texts c.map_text_handles]
  simp only [Multiset.mem_coe, List.mem_filterMap, List.mem_flatMap, Client.holds, List.any_eq_true,
    decide_eq_true_eq]
  constructor
  · rintro ⟨t, ⟨h, hm, ht⟩, he⟩
    exact ⟨h, hm, t, ht, he⟩
  · rintro ⟨h, hm, t, ht, he⟩
    exact ⟨t, ⟨h, hm, ht⟩, he⟩

theorem Sound.finds_eq (hc : Sound policy c) (s : String) : c.pool.finds s = c.shows s := by
  have h : c.pool.isLive = c.holds := funext hc.isLive_eq
  rw [finds, h]
  rfl

theorem Sound.use (hc : Sound policy c) (u : Use) : Sound policy (c.use u) := hc.step u.action

/-- All that can become of the pool: a string is entered, or the pool is swept, or nothing changes
but who holds what and which cell is the next. -/
inductive Turns (c : Client) (u : Use) : Pool → Prop
  | enters {s : String} (hs : c.entered? u = some s) : Turns c u (c.pool.enter s).2
  | sweeps (hu : u = .purge) : Turns c u c.pool.sweep
  | stays {q : Pool} (hs : c.entered? u = none) (hu : u ≠ .purge) (hc : q.cells = c.pool.cells)
      (hn : q.insertions = c.pool.insertions) (hi : q.interval = c.pool.interval) : Turns c u q

theorem Sound.turns (hc : Sound policy c) (u : Use) : Turns c u (c.use u).pool := by
  -- a string that is wanted is entered or found
  have hw {s : String} (hu : u.wanted? c.pool.policy = some s) (hp : u ≠ .purge)
      (hq : (c.use u).pool = (c.pool.intern s).2) : Turns c u (c.use u).pool := by
    have he : c.entered? u = if c.shows s then none else some s := by
      rw [entered?, hu]
      cases hs : c.shows s <;> simp [Option.filter, hs]
    rw [hq]
    cases hf : c.pool.finds s with
    | true =>
      rw [← hc.finds_eq, hf, if_pos rfl] at he
      obtain ⟨cell, hi⟩ := intern_of_finds hf
      rw [hi]
      exact .stays he hp rfl rfl rfl
    | false =>
      rw [← hc.finds_eq, hf, if_neg Bool.false_ne_true] at he
      rw [intern_of_not_finds hf]
      exact .enters he
  cases u with
  | intern s => exact hw rfl (by simp) rfl
  | fetch likely s =>
    by_cases ha : c.pool.policy.accepts likely s.toUTF8 = true
    · exact hw (if_pos ha) (by simp) (congrArg Prod.snd (if_pos ha))
    · have hn : (Use.fetch likely s).wanted? c.pool.policy = none := if_neg ha
      have hq : (c.use (.fetch likely s)).pool = (c.pool.allocate s).2 :=
        congrArg Prod.snd (if_neg ha)
      rw [hq]
      exact .stays (by rw [entered?, hn, Option.filter_none]) (by simp) rfl rfl rfl
  | drop place =>
    cases hg : c.held[place]? with
    | none =>
      have hq : (c.use (.drop place)).pool = c.pool := by
        simp [Client.use, Use.action, Client.step, hg]
      rw [hq]
      exact .stays rfl (by simp) rfl rfl rfl
    | some h =>
      have hq : (c.use (.drop place)).pool = c.pool.release h.texts := by
        simp [Client.use, Use.action, Client.step, hg]
      obtain ⟨m, hm⟩ := exists_release h.texts c.pool
      rw [hq, hm]
      exact .stays rfl (by simp) rfl rfl rfl
  | purge => exact .sweeps rfl

theorem Turns.interval_eq {q : Pool} (h : Turns c u q) : q.interval = c.pool.interval := by
  cases h with
  | enters hs =>
    rw [enter_snd]
    split <;> rfl
  | sweeps hu => rfl
  | stays hs hu hc hn hi => exact hi

theorem Turns.insertions_eq {q : Pool} (h : Turns c u q) :
    q.insertions = c.pool.insertions + (c.entered? u).toList.length := by
  cases h with
  | enters hs =>
    rw [enter_snd, hs]
    split <;> rfl
  | sweeps hu =>
    subst hu
    rfl
  | stays hs hu hc hn hi =>
    rw [hn, hs]
    rfl

theorem Turns.size_le {q : Pool} (h : Turns c u q) :
    q.size ≤ c.pool.size + (c.entered? u).toList.length := by
  cases h with
  | @enters s hs =>
    rw [enter_snd, hs]
    split
    · exact (size_sweep_le _).trans (size_withEntry_le s c.pool)
    · exact size_withEntry_le s c.pool
  | sweeps hu => exact (size_sweep_le c.pool).trans (Nat.le_add_right _ _)
  | stays hs hu hc hn hi =>
    rw [size, hc]
    exact Nat.le_add_right _ _

theorem Sound.asked (hc : Sound policy c) {s : String} (hs : u.wanted? policy = some s) :
    ∃ cell, (c.use u).held.head? = some (.string ⟨s, .cell cell⟩ true) ∧
      (c.use u).pool.cells[s]? = some cell := by
  obtain ⟨cell, ht, he⟩ := hc.holds.intern_eq s
  obtain ⟨hp, -⟩ := hc
  subst hp
  cases u with
  | intern s' =>
    obtain rfl : s' = s := Option.some.inj hs
    exact ⟨cell, congrArg (fun t => some (Holding.string t true)) ht, he⟩
  | fetch likely s' =>
    rw [Use.wanted?] at hs
    split at hs
    next ha =>
      obtain rfl : s' = s := Option.some.inj hs
      have hf : c.pool.fetch likely s' = c.pool.intern s' := if_pos ha
      refine ⟨cell, ?_, ?_⟩ <;>
        simp only [Client.use, Use.action, Client.step, hf, ha, ht, he, List.head?_cons]
    next => cases hs
  | drop place => cases hs
  | purge => cases hs

end Client

namespace Watched

variable {policy : PoolPolicy} {k : Nat} {w : Watched} {u : Use}

theorem sweeps_of_entered (h : w.client.entered? u = some s) :
    w.sweeps k u = true ↔ (w.entered + 1) % k = 0 := by
  cases u with
  | purge => cases h
  | intern | fetch | drop => simp [sweeps, h]

theorem sweeps_of_not_entered (h : w.client.entered? u = none) (hu : u ≠ .purge) :
    w.sweeps k u = false := by
  cases u with
  | purge => exact absurd rfl hu
  | intern | fetch | drop => simp [sweeps, h]

theorem client_use (k : Nat) (w : Watched) (u : Use) :
    (w.use k u).client = w.client.use u := by
  unfold use
  dsimp only
  split <;> rfl

theorem client_run (k : Nat) (w : Watched) (us : List Use) :
    (w.run k us).client = w.client.run (us.map Use.action) := by
  induction us generalizing w with
  | nil => rfl
  | cons u us ih => exact (ih (w.use k u)).trans (by rw [client_use]; rfl)

/-- What is counted agrees with the pool. -/
structure Tracks (policy : PoolPolicy) (k : Nat) (w : Watched) : Prop where
  sound : Client.Sound policy w.client
  interval_eq : w.client.pool.interval = k
  insertions_eq : w.client.pool.insertions = w.entered
  size_le : w.client.pool.size ≤ w.left + w.since
  /-- Not equal, because purging does not set the pool's own counter back. -/
  since_le : w.since ≤ w.entered % k

theorem tracks_start (policy : PoolPolicy) (interval : Nat) :
    Tracks policy (max interval 1) (start policy interval) where
  sound := Client.sound_empty policy interval
  interval_eq := rfl
  insertions_eq := rfl
  size_le := Nat.le_of_eq Std.HashMap.size_empty
  since_le := Nat.zero_le _

/-- As long as nothing is swept, the strings that were entered since stay behind the counter. -/
theorem since_add_le (h0 : 0 < k) (hw : w.since ≤ w.entered % k) (hk : w.sweeps k u = false) :
    w.since + (w.client.entered? u).toList.length ≤
      (w.entered + (w.client.entered? u).toList.length) % k := by
  cases hs : w.client.entered? u with
  | none => exact hw
  | some s =>
    have hn : (w.entered + 1) % k ≠ 0 := fun h =>
      Bool.false_ne_true (hk.symm.trans ((sweeps_of_entered hs).2 h))
    have he : (w.entered % k + 1) % k = (w.entered + 1) % k := Nat.mod_add_mod _ _ _
    have hm : w.entered % k + 1 ≤ k := Nat.mod_lt w.entered h0
    rcases hm.lt_or_eq with hl | hl
    · rw [Nat.mod_eq_of_lt hl] at he
      exact (Nat.succ_le_succ hw).trans_eq he
    · rw [hl, Nat.mod_self] at he
      exact absurd he.symm hn

theorem Tracks.use (hw : Tracks policy k w) (u : Use) : Tracks policy k (w.use k u) := by
  have ht := hw.sound.turns u
  have hi : (w.client.use u).pool.interval = k := ht.interval_eq.trans hw.interval_eq
  have hn := ht.insertions_eq
  rw [hw.insertions_eq] at hn
  have h0 : 0 < k := hw.interval_eq ▸ w.client.pool.interval_pos
  unfold Watched.use
  dsimp only
  split
  next =>
    exact
      { sound := hw.sound.use u
        interval_eq := hi
        insertions_eq := hn
        size_le := Nat.le_refl _
        since_le := Nat.zero_le _ }
  next hk =>
    exact
      { sound := hw.sound.use u
        interval_eq := hi
        insertions_eq := hn
        size_le := by
          rw [← Nat.add_assoc]
          exact ht.size_le.trans (Nat.add_le_add_right hw.size_le _)
        since_le := since_add_le h0 hw.since_le (Bool.eq_false_of_not_eq_true hk) }

theorem Tracks.run (hw : Tracks policy k w) (us : List Use) : Tracks policy k (w.run k us) := by
  induction us generalizing w with
  | nil => exact hw
  | cons u us ih => exact ih (hw.use u)

theorem Tracks.getElem?_use (hw : Tracks policy k w) (u : Use) (t : String) (cell : Nat) :
    (w.client.use u).pool.cells[t]? = some cell ↔ w.client.placed u t = some cell ∧
      (w.sweeps k u = true → (w.client.use u).holds cell = true) := by
  rw [← (hw.sound.use u).isLive_eq]
  have ht := hw.sound.turns u
  generalize (w.client.use u).pool = q at ht ⊢
  cases ht with
  | @enters s hs =>
    rw [sweeps_of_entered hs, getElem?_enter_iff, hw.insertions_eq, hw.interval_eq,
      Std.HashMap.getElem?_insert, Client.placed, hs]
    simp
  | sweeps hu =>
    subst hu
    rw [getElem?_sweep]
    exact and_congr_right' ⟨fun h _ => h, fun h => h rfl⟩
  | stays hs hu hc hn hi =>
    rw [sweeps_of_not_entered hs hu, hc, Client.placed, hs]
    simp

/-- Purging tells how many entries it removes, and every sweep removes the entries of strings that
nobody holds and no others. -/
structure Exact (policy : PoolPolicy) (k : Nat) (w : Watched) : Prop where
  purged : ∀ (t : String) (cell : Nat), w.client.pool.purge.2.cells[t]? = some cell ↔
    w.client.pool.cells[t]? = some cell ∧ w.client.holds cell = true
  removed : w.client.pool.purge.1 =
    (w.client.pool.cells.toList.filter fun e => !w.client.holds e.2).length
  entries : ∀ (u : Use) (t : String) (cell : Nat),
    (w.use k u).client.pool.cells[t]? = some cell ↔ w.client.placed u t = some cell ∧
      (w.sweeps k u = true → (w.use k u).client.holds cell = true)
  /-- A string that was just interned is in the pool, whether that made the pool sweep or not. -/
  asked : ∀ (u : Use) (s : String), u.wanted? policy = some s → ∃ cell,
    (w.use k u).client.held.head? = some (.string ⟨s, .cell cell⟩ true) ∧
      (w.use k u).client.pool.cells[s]? = some cell
  size_le : w.client.pool.size ≤ w.left + w.since
  since_lt : w.since < k

theorem Tracks.exact (hw : Tracks policy k w) : Exact policy k w := by
  have hl : w.client.pool.isLive = w.client.holds := funext hw.sound.isLive_eq
  exact
    { purged := fun t cell => by
        rw [← hl]
        exact getElem?_sweep
      removed := by
        rw [← hl]
        exact purge_fst w.client.pool
      entries := fun u t cell => by
        rw [client_use]
        exact hw.getElem?_use u t cell
      asked := fun u s hs => by
        rw [client_use]
        exact hw.sound.asked hs
      size_le := hw.size_le
      since_lt := hw.since_le.trans_lt
        (Nat.mod_lt _ (hw.interval_eq ▸ w.client.pool.interval_pos)) }

/-- In every run of a pool, sweeping is exact and what is dead and not yet swept is bounded. -/
theorem sweeping_exact (policy : PoolPolicy) (interval : Nat) (us : List Use) :
    let w := (start policy interval).run (max interval 1) us
    w.client = Client.run ⟨Pool.empty policy interval, []⟩ (us.map Use.action) ∧
      Exact policy (max interval 1) w :=
  ⟨client_run _ _ us, ((tracks_start policy interval).run us).exact⟩

/-- The second string that is entered sweeps, though it is the first one since the purge. -/
example :
    let w := (start .onlyLikely 2).run 2 [.intern "a", .purge, .drop 0]
    w.since = 0 ∧ w.sweeps 2 (.intern "b") = true := by
  cbv

end Watched

end DocumentServer.Pool
