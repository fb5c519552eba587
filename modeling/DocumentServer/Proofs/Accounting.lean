import DocumentServer.Proofs.ServerRuns

namespace DocumentServer

namespace Server

variable {α ρ π : Type} {v : Service α ρ π} {w : Server π} {task : Nat} {xs : List Visit}

theorem perm_of_lookup {β : Type} {k : Nat} {b : β} {ys : List (Nat × β)}
    (hn : (ys.map Prod.fst).Nodup) (h : ys.lookup k = some b) :
    ys.Perm ((k, b) :: ys.filter fun y => y.1 ≠ k) := by
  induction ys with
  | nil => cases h
  | cons y ys ih =>
    obtain ⟨hy, hn⟩ := List.nodup_cons.1 hn
    rw [List.lookup_cons] at h
    by_cases hk : y.1 = k
    · obtain ⟨i, c⟩ := y
      obtain rfl : i = k := hk
      rw [beq_self_eq_true] at h
      obtain rfl : c = b := Option.some.inj h
      have hf : ys.filter (fun y => y.1 ≠ i) = ys := by
        refine List.filter_eq_self.2 fun z hz => decide_eq_true fun he => hy ?_
        exact List.mem_map.2 ⟨z, hz, he⟩
      rw [List.filter_cons_of_neg (by simp), hf]
    · rw [beq_false_of_ne (Ne.symm hk)] at h
      rw [List.filter_cons_of_pos (by simp [hk])]
      exact ((ih hn h).cons y).trans (List.Perm.swap ..)

theorem mem_of_lookup {β : Type} {k : Nat} {b : β} {ys : List (Nat × β)}
    (hn : (ys.map Prod.fst).Nodup) (h : ys.lookup k = some b) : (k, b) ∈ ys :=
  (perm_of_lookup hn h).mem_iff.2 List.mem_cons_self

theorem length_of_lookup {β : Type} {k : Nat} {b : β} {ys : List (Nat × β)}
    (hn : (ys.map Prod.fst).Nodup) (h : ys.lookup k = some b) :
    ys.length = (ys.filter fun y => y.1 ≠ k).length + 1 :=
  (perm_of_lookup hn h).length_eq

theorem count_of_lookup {β : Type} {k : Nat} {b : β} {ys : List (Nat × β)}
    (hn : (ys.map Prod.fst).Nodup) (h : ys.lookup k = some b) (n : Nat) :
    (ys.map Prod.fst).count n =
      ((ys.filter fun y => y.1 ≠ k).map Prod.fst).count n + if k == n then 1 else 0 := by
  rw [((perm_of_lookup hn h).map Prod.fst).count_eq n, List.map_cons, List.count_cons]

/-- Every task that was taken waits, is under way, has broken off or has ended, and what the server
counts are these tasks. -/
structure Counted (w : Server π) (limit : Nat) (taken : List (Nat × SocketAddress))
    (broken : List Nat) (ended : List (Nat × Ending)) : Prop where
  limited : w.limit = limit
  numbered : taken.map Prod.fst = List.range w.nextTask
  placed : (taken.map Prod.fst).Perm
    (w.waiting.map Prod.fst ++ w.tasks.map Prod.fst ++ broken ++ ended.map Prod.fst)
  active : w.stats.active = w.waiting.length + w.tasks.length + broken.length
  bounded : w.stats.active ≤ limit
  connections : w.stats.connections = taken.length
  errors : w.stats.errors = ended.countP fun x => x.2.isError

/-- What is on record about the connections of the tasks of each kind. -/
structure Recorded (w : Server π) (xs : List Visit) (broken : List Nat)
    (ended : List (Nat × Ending)) : Prop where
  waiting : ∀ x ∈ w.waiting, Visit.ofTask x.1 xs = []
  underWay : ∀ x ∈ w.tasks, ∃ c d, x.2.channel.connection = some d ∧ d.identity = c.identity ∧
    c.id = x.1 ∧ Visit.ofTask x.1 xs = [.opened c]
  stuck : ∀ n ∈ broken, ∃ c, c.id = n ∧ Visit.ofTask n xs = [.opened c]
  finished : ∀ x ∈ ended, ∃ c d, d.identity = c.identity ∧ c.id = x.1 ∧
    Visit.ofTask x.1 xs = [.opened c, .closed d]
  known : ∀ x ∈ xs, x.connection.id < w.nextTask

/-- What is registered are the connections of the tasks that are under way and of those that have
broken off. -/
structure Registered (w : Server π) (xs : List Visit) (broken : List Nat) : Prop where
  ids : (w.connections.map Connection.id).Perm (w.tasks.map Prod.fst ++ broken)
  /-- A task and the register hold the same connection. -/
  shared : ∀ x ∈ w.tasks, ∀ d, x.2.channel.connection = some d → d ∈ w.connections
  held : ∀ d ∈ w.connections, ∃ c, d.identity = c.identity ∧ Visit.ofTask d.id xs = [.opened c]

structure Audited (w : Server π) (limit : Nat) (xs : List Visit)
    (taken : List (Nat × SocketAddress)) (broken : List Nat) (ended : List (Nat × Ending)) :
    Prop where
  counted : w.Counted limit taken broken ended
  recorded : w.Recorded xs broken ended
  registered : w.Registered xs broken

section audit

variable {limit : Nat} {taken : List (Nat × SocketAddress)} {broken : List Nat}
  {ended : List (Nat × Ending)}

theorem audited_start (limit : Nat) (s : ServiceState π) :
    (start limit s).Audited limit [] [] [] [] where
  counted := ⟨rfl, rfl, .refl _, rfl, Nat.zero_le _, rfl, rfl⟩
  recorded := ⟨List.forall_mem_nil _, List.forall_mem_nil _, List.forall_mem_nil _,
    List.forall_mem_nil _, List.forall_mem_nil _⟩
  registered := ⟨.refl _, List.forall_mem_nil _, List.forall_mem_nil _⟩

namespace Counted

variable (h : w.Counted limit taken broken ended)

include h

theorem nodup :
    (w.waiting.map Prod.fst ++ w.tasks.map Prod.fst ++ broken ++ ended.map Prod.fst).Nodup := by
  rw [← h.placed.nodup_iff, h.numbered]
  exact List.nodup_range

theorem nodup_waiting : (w.waiting.map Prod.fst).Nodup :=
  h.nodup.of_append_left.of_append_left.of_append_left

theorem nodup_tasks : (w.tasks.map Prod.fst).Nodup :=
  h.nodup.of_append_left.of_append_left.of_append_right

/-- No task is in two places. -/
theorem count_le (n : Nat) : (w.waiting.map Prod.fst).count n + (w.tasks.map Prod.fst).count n +
    broken.count n + (ended.map Prod.fst).count n ≤ 1 := by
  have hn := List.nodup_iff_count_le_one.1 h.nodup n
  rwa [List.count_append, List.count_append, List.count_append] at hn

theorem lt_nextTask {n : Nat}
    (hn : n ∈ w.waiting.map Prod.fst ++ w.tasks.map Prod.fst ++ broken ++ ended.map Prod.fst) :
    n < w.nextTask := by
  rw [← h.placed.mem_iff, h.numbered] at hn
  exact List.mem_range.1 hn

end Counted

theorem ne_of_count_eq_zero {β : Type} {k : Nat} {ys : List (Nat × β)}
    (h : (ys.map Prod.fst).count k = 0) : ∀ y ∈ ys, y.1 ≠ k :=
  fun _ hy he => List.count_eq_zero.1 h (he ▸ List.mem_map_of_mem hy)

namespace Counted

variable (h : w.Counted limit taken broken ended)

include h

/-- A task that waits is nowhere else. -/
theorem ne_of_waiting {address : SocketAddress} (hl : w.waiting.lookup task = some address) :
    (∀ x ∈ w.tasks, x.1 ≠ task) ∧ (∀ n ∈ broken, n ≠ task) ∧ ∀ x ∈ ended, x.1 ≠ task := by
  have hc := count_of_lookup h.nodup_waiting hl task
  rw [beq_self_eq_true, if_pos rfl] at hc
  have hone := h.count_le task
  have hb : broken.count task = 0 := by omega
  exact ⟨ne_of_count_eq_zero (by omega), fun n hn he => List.count_eq_zero.1 hb (he ▸ hn),
    ne_of_count_eq_zero (by omega)⟩

theorem ne_of_underWay {t : Task} (hl : w.tasks.lookup task = some t) :
    (∀ x ∈ w.waiting, x.1 ≠ task) ∧ (∀ n ∈ broken, n ≠ task) ∧ ∀ x ∈ ended, x.1 ≠ task := by
  have hc := count_of_lookup h.nodup_tasks hl task
  rw [beq_self_eq_true, if_pos rfl] at hc
  have hone := h.count_le task
  have hb : broken.count task = 0 := by omega
  exact ⟨ne_of_count_eq_zero (by omega), fun n hn he => List.count_eq_zero.1 hb (he ▸ hn),
    ne_of_count_eq_zero (by omega)⟩

theorem withPeer (hw : w.stats.active < w.limit) (address : SocketAddress) :
    (w.withPeer address).Counted limit (taken ++ [(w.nextTask, address)]) broken ended where
  limited := h.limited
  numbered := by simp [Server.withPeer, h.numbered, List.range_succ]
  placed := by
    have hp := h.placed
    rw [List.perm_iff_count] at hp ⊢
    intro n
    have hn := hp n
    simp only [Server.withPeer, measure, List.map_append, List.count_append, List.map_cons,
      List.map_nil] at hn ⊢
    omega
  active := by
    have ha := h.active
    simp only [Server.withPeer, measure, List.length_append, List.length_singleton]
    omega
  bounded := h.limited ▸ hw
  connections := by simp [Server.withPeer, h.connections]
  errors := h.errors

theorem withTask {address : SocketAddress} (hl : w.waiting.lookup task = some address) (t : Task)
    (c : Connection) (s : ServiceState π) :
    (w.withTask task t c s).Counted limit taken broken ended where
  limited := h.limited
  numbered := h.numbered
  placed := by
    have hp := h.placed
    rw [List.perm_iff_count] at hp ⊢
    intro n
    have hn := hp n
    have hc := count_of_lookup h.nodup_waiting hl n
    simp only [Server.withTask, List.map_append, List.count_append, List.map_cons, List.map_nil,
      List.count_cons, List.count_nil] at hn ⊢
    omega
  active := by
    have ha := h.active
    have hw := length_of_lookup h.nodup_waiting hl
    simp only [Server.withTask, List.length_append, List.length_singleton]
    omega
  bounded := h.bounded
  connections := h.connections
  errors := h.errors

theorem withoutTask {t : Task} (hl : w.tasks.lookup task = some t) (c : Connection)
    (ending : Ending) (s : ServiceState π) :
    (w.withoutTask task c ending s).Counted limit taken broken (ended ++ [(task, ending)]) where
  limited := h.limited
  numbered := h.numbered
  placed := by
    have hp := h.placed
    rw [List.perm_iff_count] at hp ⊢
    intro n
    have hn := hp n
    have hc := count_of_lookup h.nodup_tasks hl n
    simp only [Server.withoutTask, List.map_append, List.count_append, List.map_cons,
      List.map_nil, List.count_cons, List.count_nil] at hn ⊢
    omega
  active := by
    have ha := h.active
    have ht := length_of_lookup h.nodup_tasks hl
    simp only [Server.withoutTask]
    omega
  bounded := (Nat.sub_le _ _).trans h.bounded
  connections := h.connections
  errors := by simp [Server.withoutTask, h.errors, List.countP_append, List.countP_cons]

theorem abandon {t : Task} (hl : w.tasks.lookup task = some t) :
    (w.abandon task).Counted limit taken (broken ++ [task]) ended where
  limited := h.limited
  numbered := h.numbered
  placed := by
    have hp := h.placed
    rw [List.perm_iff_count] at hp ⊢
    intro n
    have hn := hp n
    have hc := count_of_lookup h.nodup_tasks hl n
    simp only [Server.abandon, List.count_append, List.count_cons, List.count_nil] at hn ⊢
    omega
  active := by
    have ha := h.active
    have ht := length_of_lookup h.nodup_tasks hl
    simp only [Server.abandon, List.length_append, List.length_singleton]
    omega
  bounded := h.bounded
  connections := h.connections
  errors := h.errors

theorem putRun (task : Nat) (t : Task) (r : Link.Run π) :
    (w.putRun task t r).Counted limit taken broken ended where
  limited := h.limited
  numbered := h.numbered
  placed := by
    rw [keys_putRun]
    exact h.placed
  active := by
    have hl := congrArg List.length (keys_putRun w task t r)
    rw [List.length_map, List.length_map] at hl
    rw [hl]
    exact h.active
  bounded := h.bounded
  connections := h.connections
  errors := h.errors

/-- Every task that was taken and has not ended holds its place. -/
theorem active_eq_countP :
    w.stats.active = taken.countP fun x => decide (x.1 ∉ ended.map Prod.fst) := by
  have hn := List.nodup_append.1 h.nodup
  have hp := h.placed.countP_eq fun n => decide (n ∉ ended.map Prod.fst)
  have hlive : (w.waiting.map Prod.fst ++ w.tasks.map Prod.fst ++ broken).countP
      (fun n => decide (n ∉ ended.map Prod.fst)) = w.stats.active := by
    have hall : ∀ n ∈ w.waiting.map Prod.fst ++ w.tasks.map Prod.fst ++ broken,
        decide (n ∉ ended.map Prod.fst) = true :=
      fun n hl => decide_eq_true fun he => hn.2.2 n hl n he rfl
    rw [List.countP_eq_length.2 hall, List.length_append, List.length_append, List.length_map,
      List.length_map, h.active]
  have hover : (ended.map Prod.fst).countP (fun n => decide (n ∉ ended.map Prod.fst)) = 0 :=
    List.countP_eq_zero.2 fun n he hd => of_decide_eq_true hd he
  rw [List.countP_append, hlive, hover, List.countP_map] at hp
  exact hp.symm

theorem active_add_length : w.stats.active + ended.length = taken.length := by
  have hl := h.placed.length_eq
  simp only [List.length_append, List.length_map] at hl
  rw [h.active, hl]

/-- A peer is turned away only if every place is taken, and then nothing happens. -/
theorem accept_eq_none_iff (address : SocketAddress) :
    (w.accept address).1 = none ↔ w.stats.active = limit := by
  have hb := h.bounded
  by_cases hl : w.stats.active < w.limit
  · rw [accept_of_lt hl]
    rw [h.limited] at hl
    exact iff_of_false (Option.some_ne_none _) (Nat.ne_of_lt hl)
  · rw [accept_of_le (Nat.le_of_not_lt hl)]
    rw [h.limited] at hl
    exact iff_of_true rfl (Nat.le_antisymm hb (Nat.le_of_not_lt hl))

end Counted

namespace Recorded

variable (h : w.Recorded xs broken ended)

include h

/-- The connection of a task has its number. -/
theorem id_of_mem {x : Nat × Task} (hx : x ∈ w.tasks) {d : Connection}
    (hd : x.2.channel.connection = some d) : d.id = x.1 := by
  obtain ⟨c, d', hd', hi, hc, -⟩ := h.underWay x hx
  obtain rfl : d = d' := Option.some.inj (hd.symm.trans hd')
  exact (congrArg Prod.fst hi).trans hc

theorem withPeer (address : SocketAddress) : (w.withPeer address).Recorded xs broken ended where
  waiting x hx := by
    obtain hx | hx := List.mem_append.1 hx
    · exact h.waiting x hx
    · rw [List.mem_singleton.1 hx]
      refine List.filter_eq_nil_iff.2 fun y hy he => ?_
      exact Nat.ne_of_lt (h.known y hy) (of_decide_eq_true he)
  underWay := h.underWay
  stuck := h.stuck
  finished := h.finished
  known x hx := Nat.lt_succ_of_lt (h.known x hx)

theorem withTask (hn : w.Counted limit taken broken ended) {address : SocketAddress}
    (hl : w.waiting.lookup task = some address) {c : Connection} (hc : c.id = task) {t : Task}
    (ht : t.channel.connection = some c) (s : ServiceState π) :
    (w.withTask task t c s).Recorded (xs ++ [.opened c]) broken ended := by
  obtain ⟨hu, hb, he⟩ := hn.ne_of_waiting hl
  have hm := mem_of_lookup hn.nodup_waiting hl
  have hx : (Visit.opened c).connection.id = task := hc
  constructor
  case waiting =>
    intro x hw
    obtain ⟨hw, hne⟩ := List.mem_filter.1 hw
    rw [Visit.ofTask_append_of_ne hx (of_decide_eq_true hne)]
    exact h.waiting x hw
  case underWay =>
    intro x hw
    obtain hw | hw := List.mem_append.1 hw
    · rw [Visit.ofTask_append_of_ne hx (hu x hw)]
      exact h.underWay x hw
    · rw [List.mem_singleton.1 hw]
      refine ⟨c, c, ht, rfl, hc, ?_⟩
      rw [Visit.ofTask_append_self hx, h.waiting _ hm]
      rfl
  case stuck =>
    intro n hn
    rw [Visit.ofTask_append_of_ne hx (hb n hn)]
    exact h.stuck n hn
  case finished =>
    intro x hw
    rw [Visit.ofTask_append_of_ne hx (he x hw)]
    exact h.finished x hw
  case known =>
    intro x hw
    obtain hw | hw := List.mem_append.1 hw
    · exact h.known x hw
    · rw [List.mem_singleton.1 hw, hx]
      exact hn.lt_nextTask (List.mem_append_left _ (List.mem_append_left _
        (List.mem_append_left _ (List.mem_map_of_mem hm))))

theorem withoutTask (hn : w.Counted limit taken broken ended) {t : Task}
    (hl : w.tasks.lookup task = some t) {d : Connection} (hd : t.channel.connection = some d)
    (ending : Ending) (s : ServiceState π) :
    (w.withoutTask task d ending s).Recorded (xs ++ [.closed d]) broken
      (ended ++ [(task, ending)]) := by
  obtain ⟨hw, hb, he⟩ := hn.ne_of_underWay hl
  have hm := mem_of_lookup hn.nodup_tasks hl
  have hx : (Visit.closed d).connection.id = task := h.id_of_mem hm hd
  constructor
  case waiting =>
    intro x hx'
    rw [Visit.ofTask_append_of_ne hx (hw x hx')]
    exact h.waiting x hx'
  case underWay =>
    intro x hx'
    obtain ⟨hx', hne⟩ := List.mem_filter.1 hx'
    rw [Visit.ofTask_append_of_ne hx (of_decide_eq_true hne)]
    exact h.underWay x hx'
  case stuck =>
    intro n hn
    rw [Visit.ofTask_append_of_ne hx (hb n hn)]
    exact h.stuck n hn
  case finished =>
    intro x hx'
    obtain hx' | hx' := List.mem_append.1 hx'
    · rw [Visit.ofTask_append_of_ne hx (he x hx')]
      exact h.finished x hx'
    · obtain ⟨c, d', hd', hi, hc, ho⟩ := h.underWay _ hm
      obtain rfl : d = d' := Option.some.inj (hd.symm.trans hd')
      rw [List.mem_singleton.1 hx']
      refine ⟨c, d, hi, hc, ?_⟩
      rw [Visit.ofTask_append_self hx, ho]
      rfl
  case known =>
    intro x hx'
    obtain hx' | hx' := List.mem_append.1 hx'
    · exact h.known x hx'
    · rw [List.mem_singleton.1 hx', hx]
      exact hn.lt_nextTask (List.mem_append_left _ (List.mem_append_left _
        (List.mem_append_right _ (List.mem_map_of_mem hm))))

theorem abandon {t : Task} (hm : (task, t) ∈ w.tasks) :
    (w.abandon task).Recorded xs (broken ++ [task]) ended where
  waiting := h.waiting
  underWay x hx := h.underWay x (List.mem_filter.1 hx).1
  stuck n hn := by
    obtain hn | hn := List.mem_append.1 hn
    · exact h.stuck n hn
    · obtain ⟨c, -, -, -, hc, ho⟩ := h.underWay _ hm
      rw [List.mem_singleton.1 hn]
      exact ⟨c, hc, ho⟩
  finished := h.finished
  known := h.known

theorem putRun {t : Task} {c : Connection} {r : Link.Run π} (hm : (task, t) ∈ w.tasks)
    (hc : t.channel.connection = some c) (hr : r.link.connection.identity = c.identity) :
    (w.putRun task t r).Recorded xs broken ended where
  waiting := h.waiting
  underWay x hx := by
    obtain ⟨y, hy, rfl⟩ := List.mem_map.1 hx
    by_cases hn : y.1 = task
    · rw [if_pos hn]
      obtain ⟨c', d, hd, hi, hc', ho⟩ := h.underWay _ hm
      obtain rfl : c = d := Option.some.inj (hc.symm.trans hd)
      exact ⟨c', _, rfl, hr.trans hi, hc', ho⟩
    · rw [if_neg hn]
      exact h.underWay y hy
  stuck := h.stuck
  finished := h.finished
  known := h.known

end Recorded

namespace Registered

variable (h : w.Registered xs broken)

include h

theorem withTask (hn : w.Counted limit taken broken ended) (hr : w.Recorded xs broken ended)
    {address : SocketAddress} (hl : w.waiting.lookup task = some address) {c : Connection}
    (hc : c.id = task) {t : Task} (ht : t.channel.connection = some c) (s : ServiceState π) :
    (w.withTask task t c s).Registered (xs ++ [.opened c]) broken := by
  obtain ⟨hu, hb, -⟩ := hn.ne_of_waiting hl
  have hx : (Visit.opened c).connection.id = task := hc
  -- nothing is registered under the number yet
  have hne : ∀ d ∈ w.connections, d.id ≠ task := by
    intro d hd he
    have hi := h.ids.mem_iff.1 (List.mem_map_of_mem hd)
    rw [he] at hi
    obtain hi | hi := List.mem_append.1 hi
    · obtain ⟨x, hx, hxt⟩ := List.mem_map.1 hi
      exact hu x hx hxt
    · exact hb task hi rfl
  have hnew : (w.connections.filter fun d => d.id ≠ task) = w.connections :=
    List.filter_eq_self.2 fun d hd => decide_eq_true (hne d hd)
  unfold Server.withTask
  rw [hnew]
  constructor
  case ids =>
    have hi := h.ids
    rw [List.perm_iff_count] at hi ⊢
    intro n
    have hn := hi n
    simp only [List.map_append, List.count_append, List.map_cons, List.map_nil, hc] at hn ⊢
    omega
  case shared =>
    intro x hx d hd
    obtain hx | hx := List.mem_append.1 hx
    · exact List.mem_append_left _ (h.shared x hx d hd)
    · rw [List.mem_singleton.1 hx] at hd
      obtain rfl : c = d := Option.some.inj (ht.symm.trans hd)
      exact List.mem_append_right _ List.mem_cons_self
  case held =>
    intro d hd
    obtain hd | hd := List.mem_append.1 hd
    · rw [Visit.ofTask_append_of_ne hx (hne d hd)]
      exact h.held d hd
    · have hm := mem_of_lookup hn.nodup_waiting hl
      rw [List.mem_singleton.1 hd, hc, Visit.ofTask_append_self hx, hr.waiting _ hm]
      exact ⟨c, rfl, rfl⟩

theorem withoutTask (hn : w.Counted limit taken broken ended) (hr : w.Recorded xs broken ended)
    {t : Task} (hl : w.tasks.lookup task = some t) {d : Connection}
    (hd : t.channel.connection = some d) (ending : Ending) (s : ServiceState π) :
    (w.withoutTask task d ending s).Registered (xs ++ [.closed d]) broken := by
  obtain ⟨-, hb, -⟩ := hn.ne_of_underWay hl
  have hx : (Visit.closed d).connection.id = task :=
    hr.id_of_mem (mem_of_lookup hn.nodup_tasks hl) hd
  have hdt : d.id = task := hx
  unfold Server.withoutTask
  rw [hdt]
  constructor
  case ids =>
    have hi := h.ids.filter fun n => n ≠ task
    have hbroken : broken.filter (fun n => n ≠ task) = broken :=
      List.filter_eq_self.2 fun n hn => decide_eq_true (hb n hn)
    rw [List.filter_append, hbroken, List.filter_map, List.filter_map] at hi
    exact hi
  case shared =>
    intro x hx d' hd'
    obtain ⟨hx, hne⟩ := List.mem_filter.1 hx
    refine List.mem_filter.2 ⟨h.shared x hx d' hd', decide_eq_true ?_⟩
    rw [hr.id_of_mem hx hd']
    exact of_decide_eq_true hne
  case held =>
    intro d' hd'
    obtain ⟨hd', hne⟩ := List.mem_filter.1 hd'
    rw [Visit.ofTask_append_of_ne hx (of_decide_eq_true hne)]
    exact h.held d' hd'

theorem abandon (hn : (w.tasks.map Prod.fst).Nodup) {t : Task}
    (hl : w.tasks.lookup task = some t) : (w.abandon task).Registered xs (broken ++ [task]) where
  ids := by
    have hi := h.ids
    rw [List.perm_iff_count] at hi ⊢
    intro n
    have hin := hi n
    have hc := count_of_lookup hn hl n
    simp only [Server.abandon, List.count_append, List.count_cons, List.count_nil] at hin ⊢
    omega
  shared x hx := h.shared x (List.mem_filter.1 hx).1
  held := h.held

theorem putRun (hr : w.Recorded xs broken ended) {t : Task} {c : Connection} {r : Link.Run π}
    (hm : (task, t) ∈ w.tasks) (hc : t.channel.connection = some c)
    (hi : r.link.connection.identity = c.identity) : (w.putRun task t r).Registered xs broken := by
  have hrc : r.link.connection.id = c.id := congrArg Prod.fst hi
  constructor
  case ids =>
    rw [keys_putRun, ids_putRun]
    exact h.ids
  case shared =>
    intro x hx d hd
    obtain ⟨y, hy, rfl⟩ := List.mem_map.1 hx
    by_cases hn : y.1 = task
    · rw [if_pos hn] at hd
      obtain rfl : r.link.connection = d := Option.some.inj hd
      exact List.mem_map.2 ⟨c, h.shared _ hm c hc, if_pos hrc.symm⟩
    · rw [if_neg hn] at hd
      have hne : d.id ≠ r.link.connection.id := by
        rw [hr.id_of_mem hy hd, hrc, hr.id_of_mem hm hc]
        exact hn
      exact List.mem_map.2 ⟨d, h.shared y hy d hd, if_neg hne⟩
  case held =>
    intro d hd
    obtain ⟨d', hd', rfl⟩ := List.mem_map.1 hd
    by_cases hn : d'.id = r.link.connection.id
    · rw [if_pos hn]
      obtain ⟨c', hi', ho⟩ := h.held c (h.shared _ hm c hc)
      exact ⟨c', hi.trans hi', hrc ▸ ho⟩
    · rw [if_neg hn]
      exact h.held d' hd'

end Registered

namespace Audited

variable (h : w.Audited limit xs taken broken ended)

include h

theorem accept (address : SocketAddress) :
    Audited (w.accept address).2 limit xs (taken ++ Event.taken w (.peer address)) broken ended := by
  rw [Event.taken]
  by_cases hl : w.stats.active < w.limit
  · rw [accept_of_lt hl]
    exact ⟨h.counted.withPeer hl address, h.recorded.withPeer address,
      ⟨h.registered.ids, h.registered.shared, h.registered.held⟩⟩
  · rw [accept_of_le (Nat.le_of_not_lt hl), Option.map_none, Option.toList_none, List.append_nil]
    exact h

theorem begin (v : Service α ρ π) (task : Nat) :
    ∃ ys, (w.beside xs).begin v.visited task = (w.begin v task).beside ys ∧
      Audited (w.begin v task) limit ys taken broken ended := by
  cases hl : w.waiting.lookup task with
  | none =>
    have hb : (w.beside xs).waiting.lookup task = none := hl
    rw [begin_of_none hl, begin_of_none hb]
    exact ⟨xs, rfl, h⟩
  | some address =>
    obtain ⟨c, s, hc, hs, hv⟩ := begin_of_lookup v xs hl
    rw [hs] at hv ⊢
    exact ⟨_, hv, h.counted.withTask hl _ _ _, h.recorded.withTask h.counted hl hc rfl _,
      h.registered.withTask h.counted h.recorded hl hc rfl _⟩

theorem finish (v : Service α ρ π) (task : Nat) (ending : Ending) :
    ∃ ys, (w.beside xs).finish v.visited task ending = (w.finish v task ending).beside ys ∧
      Audited (w.finish v task ending) limit ys taken broken
        (ended ++ Event.ended v w (.ends task ending)) := by
  rw [Event.ended]
  cases hl : w.tasks.lookup task with
  | none =>
    have hb : (w.beside xs).tasks.lookup task = none := hl
    rw [finish_of_none hl, finish_of_none hb, Option.map_none, Option.toList_none, List.append_nil]
    exact ⟨xs, rfl, h⟩
  | some t =>
    obtain ⟨-, d, hd, -⟩ := h.recorded.underWay _ (mem_of_lookup h.counted.nodup_tasks hl)
    obtain ⟨s, hs, hv⟩ := finish_of_connection v xs hl hd ending
    rw [hs] at hv ⊢
    exact ⟨_, hv, h.counted.withoutTask hl _ _ _, h.recorded.withoutTask h.counted hl hd _ _,
      h.registered.withoutTask h.counted h.recorded hl hd _ _⟩

/-- A loop that goes on has the connection that it had. -/
theorem putRun {t : Task} {c : Connection} {r : Link.Run π} (hm : (task, t) ∈ w.tasks)
    (hc : t.channel.connection = some c) (hr : r.link.connection.identity = c.identity) :
    (w.putRun task t r).Audited limit xs taken broken ended :=
  ⟨h.counted.putRun task t r, h.recorded.putRun hm hc hr, h.registered.putRun h.recorded hm hc hr⟩

/-- A task that breaks off leaves its place taken and its connection open. -/
theorem abandon {t : Task} (hl : w.tasks.lookup task = some t) :
    (w.abandon task).Audited limit xs taken (broken ++ [task]) ended :=
  ⟨h.counted.abandon hl, h.recorded.abandon (mem_of_lookup h.counted.nodup_tasks hl),
    h.registered.abandon h.counted.nodup_tasks hl⟩

theorem chunk (hv : v.Stable fun c _ => c.identity) (task : Nat) (bytes : ByteArray) :
    ∃ ys, ((w.beside xs).receive v.visited task bytes).2 =
        (w.receive v task bytes).2.beside ys ∧
      Audited (w.receive v task bytes).2 limit ys taken
        (broken ++ Event.broken v w (.chunk task bytes))
        (ended ++ Event.ended v w (.chunk task bytes)) := by
  rw [Event.broken, Event.ended]
  cases hl : w.tasks.lookup task with
  | none =>
    have hb : (w.beside xs).tasks.lookup task = none := hl
    rw [receive_of_none hl, receive_of_none hb, stopsAt?_of_none hl]
    refine ⟨xs, rfl, ?_⟩
    dsimp only
    rwa [List.append_nil, List.append_nil]
  | some t =>
    have hm := mem_of_lookup h.counted.nodup_tasks hl
    obtain ⟨-, d, hd, -⟩ := h.recorded.underWay _ hm
    generalize hr : Link.receive v bytes ⟨d, t.stream⟩ w.state = r
    have hput : (w.putRun task t r).Audited limit xs taken broken ended := by
      refine h.putRun hm hd ?_
      rw [← hr]
      exact Link.identity_serve hv _ _ _
    -- the same with the record
    have hb : (w.beside xs).tasks.lookup task = some t := hl
    have hq : Link.receive v.visited bytes ⟨d, t.stream⟩ (w.beside xs).state = r.beside xs := by
      rw [← hr]
      exact Link.serve_visited _ _ _ _
    have hl' : (w.putRun task t r).tasks.lookup task = some (putLink t r.link) :=
      lookup_map_replace task _ hl
    rw [stopsAt?_of_lookup hl hd hr, receive_of_lookup hl hd hr, receive_of_lookup hb hd hq]
    dsimp only
    rw [conclude, conclude, Link.Run.beside]
    match r.error with
    | none =>
      refine ⟨xs, rfl, ?_⟩
      dsimp only
      rwa [List.append_nil, List.append_nil]
    | some (.error e) =>
      have hf := hput.finish v task (.failed (.message e))
      rw [Event.ended, hl', ← List.append_nil broken] at hf
      exact hf
    | some .overflow =>
      have ha := hput.abandon hl'
      rw [← List.append_nil ended] at ha
      exact ⟨xs, rfl, ha⟩

/-- Whatever happens, the record goes on with it. -/
theorem step (hv : v.Stable fun c _ => c.identity) (e : Event) :
    ∃ ys, Server.step v.visited (w.beside xs) e = (Server.step v w e).beside ys ∧
      Audited (Server.step v w e) limit ys (taken ++ e.taken w) (broken ++ e.broken v w)
        (ended ++ e.ended v w) := by
  cases e with
  | peer address =>
    have ha := h.accept address
    rw [← List.append_nil ended, ← List.append_nil broken] at ha
    exact ⟨xs, congrArg Prod.snd (accept_beside address w xs), ha⟩
  | begins task =>
    have hb := h.begin v task
    rw [← List.append_nil taken, ← List.append_nil ended, ← List.append_nil broken] at hb
    exact hb
  | chunk task bytes =>
    have hc := h.chunk hv task bytes
    rw [← List.append_nil taken] at hc
    exact hc
  | ends task ending =>
    have hf := h.finish v task ending
    rw [← List.append_nil taken, ← List.append_nil broken] at hf
    exact hf

theorem run (hv : v.Stable fun c _ => c.identity) (events : List Event) :
    ∃ ys, Server.run v.visited events (w.beside xs) = (Server.run v events w).beside ys ∧
      Audited (Server.run v events w) limit ys (taken ++ Server.taken v events w)
        (broken ++ Server.broken v events w) (ended ++ Server.ended v events w) := by
  induction events generalizing w xs taken broken ended with
  | nil =>
    exact ⟨xs, rfl, by simpa [Server.run, Server.taken, Server.broken, Server.ended] using h⟩
  | cons e es ih =>
    obtain ⟨ys, hs, ha⟩ := h.step hv e
    rw [Server.run, List.foldl_cons, hs, Server.taken, Server.broken, Server.ended,
      ← List.append_assoc, ← List.append_assoc, ← List.append_assoc]
    exact ih ha

theorem nodup_connections : (w.connections.map Connection.id).Nodup := by
  rw [h.registered.ids.nodup_iff]
  have hn := h.counted.nodup.of_append_left
  rw [List.append_assoc] at hn
  exact hn.of_append_right

theorem mem_connections {n : Nat} {c : Connection} (hn : Visit.ofTask n xs = [.opened c]) :
    n ∈ w.connections.map Connection.id := by
  have hc := List.mem_filter.1 (hn ▸ List.mem_cons_self : Visit.opened c ∈ Visit.ofTask n xs)
  have hlt := h.recorded.known _ hc.1
  rw [of_decide_eq_true hc.2, ← List.mem_range, ← h.counted.numbered,
    h.counted.placed.mem_iff] at hlt
  rw [h.registered.ids.mem_iff]
  obtain hl | he := List.mem_append.1 hlt
  · rw [List.append_assoc] at hl
    obtain hw | ht := List.mem_append.1 hl
    · obtain ⟨x, hx, rfl⟩ := List.mem_map.1 hw
      rw [h.recorded.waiting x hx] at hn
      cases hn
    · exact ht
  · obtain ⟨x, hx, rfl⟩ := List.mem_map.1 he
    obtain ⟨c', d, -, -, ho⟩ := h.recorded.finished x hx
    rw [ho] at hn
    cases hn

end Audited

/-- What a server has counted and holds, in terms of the peers that were taken, the tasks that ended
and the connections that were opened and closed. -/
structure Accounted (w : Server π) (limit : Nat) (xs : List Visit)
    (taken : List (Nat × SocketAddress)) (ended : List (Nat × Ending)) : Prop where
  takenOnce : (taken.map Prod.fst).Nodup
  endedOnce : (ended.map Prod.fst).Nodup
  ended_taken : ∀ x ∈ ended, x.1 ∈ taken.map Prod.fst
  active : w.stats.active = taken.countP fun x => decide (x.1 ∉ ended.map Prod.fst)
  bounded : w.stats.active ≤ limit
  connections : w.stats.connections = taken.length
  errors : w.stats.errors = ended.countP fun x => x.2.isError
  visit_taken : ∀ x ∈ xs, x.connection.id ∈ taken.map Prod.fst
  /-- A task that has not ended has opened at most one connection and has closed none. -/
  unfinished : ∀ x ∈ taken, x.1 ∉ ended.map Prod.fst →
    Visit.ofTask x.1 xs = [] ∨ ∃ c, c.id = x.1 ∧ Visit.ofTask x.1 xs = [.opened c]
  /-- A task that has ended has opened one connection, and then closed it. -/
  finished : ∀ x ∈ ended, ∃ c d, c.id = x.1 ∧ d.identity = c.identity ∧
    Visit.ofTask x.1 xs = [.opened c, .closed d]
  shared : ∀ x ∈ w.tasks, ∀ d, x.2.channel.connection = some d → d ∈ w.connections
  /-- The connections that are registered are open. -/
  held : ∀ d ∈ w.connections, ∃ c, d.identity = c.identity ∧ Visit.ofTask d.id xs = [.opened c]
  heldOnce : (w.connections.map Connection.id).Nodup
  opened_held : ∀ n c, Visit.ofTask n xs = [.opened c] → n ∈ w.connections.map Connection.id

theorem Audited.accounted (h : w.Audited limit xs taken broken ended) :
    w.Accounted limit xs taken ended where
  takenOnce := h.counted.numbered ▸ List.nodup_range
  endedOnce := h.counted.nodup.of_append_right
  ended_taken x hx := h.counted.placed.mem_iff.2 (List.mem_append_right _ (List.mem_map_of_mem hx))
  active := h.counted.active_eq_countP
  bounded := h.counted.bounded
  connections := h.counted.connections
  errors := h.counted.errors
  visit_taken x hx := by
    rw [h.counted.numbered]
    exact List.mem_range.2 (h.recorded.known x hx)
  unfinished x hx hn := by
    have hp := h.counted.placed.mem_iff.1 (List.mem_map_of_mem (f := Prod.fst) hx)
    rw [List.mem_append, List.mem_append, List.mem_append] at hp
    obtain ((hw | ht) | hb) | he := hp
    · obtain ⟨y, hy, hyx⟩ := List.mem_map.1 hw
      exact .inl (hyx ▸ h.recorded.waiting y hy)
    · obtain ⟨y, hy, hyx⟩ := List.mem_map.1 ht
      obtain ⟨c, d, -, -, hc, ho⟩ := h.recorded.underWay y hy
      exact .inr ⟨c, hc.trans hyx, hyx ▸ ho⟩
    · exact .inr (h.recorded.stuck x.1 hb)
    · exact absurd he hn
  finished x hx := by
    obtain ⟨c, d, hi, hc, ho⟩ := h.recorded.finished x hx
    exact ⟨c, d, hc, hi, ho⟩
  shared := h.registered.shared
  held := h.registered.held
  heldOnce := h.nodup_connections
  opened_held _ _ := h.mem_connections

/-- When every task has ended, no place is taken and no connection is registered. -/
theorem Audited.idle (h : w.Audited limit xs taken broken ended)
    (he : ∀ x ∈ taken, x.1 ∈ ended.map Prod.fst) : w.stats.active = 0 ∧ w.connections = [] := by
  have ha : w.stats.active = 0 := by
    rw [h.counted.active_eq_countP]
    exact List.countP_eq_zero.2 fun x hx hn => of_decide_eq_true hn (he x hx)
  have hl := h.registered.ids.length_eq
  rw [List.length_map, List.length_append, List.length_map] at hl
  have hw := h.counted.active
  exact ⟨ha, List.eq_nil_of_length_eq_zero (by omega)⟩

end audit

/-- The connections of a server that starts idle are accounted for, in whatever order peers come,
tasks begin, bytes arrive and tasks end, as long as requests do not exchange connections. Every
event moves the count of active connections by what it takes and what it ends, so that the count
never falls below nothing. A peer is turned away, without effect, only if there is no place for it.
Nothing is registered when every task has ended, and stopping the server ends them all but those
that have broken off. A channel has at most one connection, which it closes once. -/
theorem connections_accounted (hv : v.Stable fun c _ => c.identity) (limit : Nat)
    (s : ServiceState π) (events : List Event) :
    let idle : Server π := start limit s
    let w := run v events idle
    (∃ xs, run v.visited events (idle.beside []) = w.beside xs ∧
      w.Accounted limit xs (taken v events idle) (ended v events idle)) ∧
    (∀ e : Event, (step v w e).stats.active + (e.ended v w).length =
      w.stats.active + (e.taken w).length) ∧
    (∀ address, ((w.accept address).1 = none ↔ w.stats.active = limit) ∧
      ((w.accept address).1 = none → (w.accept address).2 = w)) ∧
    ((∀ x ∈ taken v events idle, x.1 ∈ (ended v events idle).map Prod.fst) →
      w.stats.active = 0 ∧ w.connections = []) ∧
    (run v (events ++ w.stopping v) idle = w.shutDown v ∧
      (∀ x ∈ ended v (w.stopping v) w, x.2 = .failed .shuttingDown) ∧
      ∀ x ∈ taken v (events ++ w.stopping v) idle,
        x.1 ∈ (ended v (events ++ w.stopping v) idle).map Prod.fst ∨
          x.1 ∈ broken v events idle) ∧
    (∀ ending : Ending, ending.isError = true ↔ ∃ e, ending = .failed e ∧ e ≠ .shuttingDown) ∧
    ∀ (h : Channel) (p : π),
      (∀ id, h.isActive = true →
        h.activate v.processor id p = (.error .connectionAlreadyActive, h, p)) ∧
      (h.deactivate v.processor p).1.deactivate v.processor (h.deactivate v.processor p).2 =
        h.deactivate v.processor p := by
  intro idle w
  have start_run (events : List Event) : ∃ xs,
      run v.visited events (idle.beside []) = (run v events idle).beside xs ∧
        (run v events idle).Audited limit xs (taken v events idle) (broken v events idle)
          (ended v events idle) :=
    (audited_start limit s).run hv events
  obtain ⟨xs, hr, ha⟩ := start_run events
  refine ⟨⟨xs, hr, ha.accounted⟩, fun e => ?_,
    fun address => ⟨ha.counted.accept_eq_none_iff address, accept_of_none⟩, ha.idle, ⟨?_, ?_, ?_⟩,
    fun _ => Ending.isError_iff, fun h p => ⟨fun id hi => Channel.activate_of_isActive hi id, ?_⟩⟩
  · obtain ⟨ys, -, hs⟩ := ha.step hv e
    have hw : w.stats.active + (ended v events idle).length = _ := ha.counted.active_add_length
    have hs : (step v w e).stats.active + (ended v events idle ++ e.ended v w).length =
        (taken v events idle ++ e.taken w).length := hs.counted.active_add_length
    rw [List.length_append, List.length_append] at hs
    omega
  · rw [run_append]
    exact run_stopping v w
  · exact ending_of_stopping v w
  · obtain ⟨ys, -, hs⟩ := start_run (events ++ w.stopping v)
    have hw : run v (events ++ w.stopping v) idle = w.shutDown v := by
      rw [run_append]
      exact run_stopping v w
    have hb : broken v (events ++ w.stopping v) idle = broken v events idle := by
      rw [broken_append, broken_stopping, List.append_nil]
    obtain ⟨hwait, htask⟩ := lists_shutDown v w
    intro x hx
    have hp := hs.counted.placed.mem_iff.1 (List.mem_map_of_mem (f := Prod.fst) hx)
    rw [hw, hwait, htask, hb] at hp
    exact (List.mem_append.1 hp).symm
  · exact Channel.deactivate_of_not_isActive Channel.isActive_deactivate

def contested : List Event :=
  [.peer (.v4 .localhost 5000), .peer (.v4 .localhost 5001), .begins 0,
    .chunk 0 (Bytes.ofSize 3 ++ Bytes.ofSize 4), .peer (.v4 .localhost 5002), .begins 1,
    .ends 1 .closed]

theorem accounted_contested :
    let idle := start 1 Standalone.fresh
    let w := run (Standalone.service .borrow) contested idle
    taken (Standalone.service .borrow) contested idle =
        [(0, .v4 .localhost 5000), (1, .v4 .localhost 5002)] ∧
      ended (Standalone.service .borrow) contested idle =
        [(0, .failed (.message (.invalidLength 3))), (1, .closed)] ∧
      w.stats.connections = 2 ∧ w.stats.errors = 1 ∧ w.stats.active = 0 ∧ w.connections = [] := by
  have hall := connections_accounted (v := Standalone.service .borrow)
    (Standalone.stable_connection (fun _ _ => rfl) _ _ _) 1 Standalone.fresh contested
  dsimp only at hall ⊢
  obtain ⟨⟨xs, -, ha⟩, -, -, hi, -⟩ := hall
  have ht : taken (Standalone.service .borrow) contested (start 1 Standalone.fresh) =
      [(0, .v4 .localhost 5000), (1, .v4 .localhost 5002)] := by decide +kernel
  have he : ended (Standalone.service .borrow) contested (start 1 Standalone.fresh) =
      [(0, .failed (.message (.invalidLength 3))), (1, .closed)] := by decide +kernel
  have hc := ha.connections
  have hf := ha.errors
  rw [ht] at hc hi
  rw [he] at hf hi
  exact ⟨ht, he, hc, hf, hi (by decide)⟩

end Server

end DocumentServer
