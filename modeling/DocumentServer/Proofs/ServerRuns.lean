import DocumentServer.Proofs.Observed
import DocumentServer.Proofs.Serving

namespace DocumentServer

variable {α ρ π τ : Type}

def Observer.mute : Observer α ρ τ := ⟨fun _ t => t, fun _ t => t⟩

theorem Observer.notes_mute (calls : List (Call α ρ)) (e? : Option WireError) (t : τ) :
    (mute : Observer α ρ τ).notes calls e? t = t := by
  have hc : calls.foldl (fun t _ => t) t = t := by
    induction calls with
    | nil => rfl
    | cons c calls ih => exact ih
  cases e? <;> exact hc

inductive Visit where
  | opened (c : Connection)
  | closed (c : Connection)
  deriving DecidableEq

namespace Visit

def connection : Visit → Connection
  | opened c | closed c => c

def ofTask (task : Nat) (xs : List Visit) : List Visit :=
  xs.filter fun x => x.connection.id = task

variable {task n : Nat} {x : Visit}

theorem ofTask_append_self (h : x.connection.id = task) (xs : List Visit) :
    ofTask task (xs ++ [x]) = ofTask task xs ++ [x] := by
  simp [ofTask, h]

theorem ofTask_append_of_ne (h : x.connection.id = task) (hn : n ≠ task) (xs : List Visit) :
    ofTask n (xs ++ [x]) = ofTask n xs := by
  simp [ofTask, h, Ne.symm hn]

end Visit

/-- The same processor with a record of the connections that it opens and closes. -/
def Processor.visited (p : Processor α ρ π) : Processor α ρ (π × List Visit) :=
  { p.observed .mute with
    openConnection := fun c s =>
      ((p.openConnection c s.1).1, ((p.openConnection c s.1).2,
        s.2 ++ [.opened { (p.openConnection c s.1).1 with id := c.id }]))
    closeConnection := fun c s => (p.closeConnection c s.1, s.2 ++ [.closed c]) }

def Service.visited (v : Service α ρ π) : Service α ρ (π × List Visit) :=
  ⟨v.registry, v.processor.visited, v.strategy, v.seconds⟩

/-- What stays of a connection as long as it is open. -/
def Connection.identity (c : Connection) : Nat × SocketAddress := (c.id, c.address)

variable {v : Service α ρ π}

theorem Service.dispatch_visited (f : Frame) (c : Connection) (s : ServiceState π)
    (xs : List Visit) : v.visited.dispatch f c (s.beside xs) =
      ((v.dispatch f c s).1, (v.dispatch f c s).2.1, (v.dispatch f c s).2.2.beside xs) := by
  have h : (v.observed .mute).dispatch f c (s.beside xs) = _ := observes_dispatch f xs
  rw [Observer.notes_mute] at h
  exact h

namespace Link

def Run.beside (r : Run π) (t : τ) : Run (π × τ) :=
  ⟨r.replies, r.frames, r.error, r.link, r.state.beside t⟩

theorem serve_visited (n : Nat) (k : Link) (s : ServiceState π) (xs : List Visit) :
    serve v.visited n k (s.beside xs) = (serve v n k s).beside xs := by
  induction n generalizing k s with
  | zero => rfl
  | succ n ih =>
    rw [serve, serve]
    rcases k.stream.next with ⟨e | _ | f, stream⟩
    · rfl
    · rfl
    · dsimp only
      rw [Service.dispatch_visited]
      rcases v.dispatch f k.connection s with ⟨e | reply, c, s'⟩
      · rfl
      · dsimp only
        rw [ih]
        rfl

theorem identity_serve (hv : v.Stable fun c _ => c.identity) (n : Nat) (k : Link)
    (s : ServiceState π) : (serve v n k s).link.connection.identity = k.connection.identity := by
  induction n generalizing k s with
  | zero => rfl
  | succ n ih =>
    rw [serve]
    rcases k.stream.next with ⟨e | _ | f, stream⟩
    · rfl
    · rfl
    · dsimp only
      have hd : (v.dispatch f k.connection s).2.1.identity = k.connection.identity := by
        rw [Service.connection_dispatch]
        exact hv.respond f _ _
      rcases hr : v.dispatch f k.connection s with ⟨e | reply, c, s'⟩ <;> rw [hr] at hd
      · exact hd
      · exact (ih ⟨c, stream⟩ s').trans hd

end Link

namespace Channel

variable {h : Channel} {p : Processor α ρ π} {s : π}

theorem activate_of_isActive (ha : h.isActive = true) (id : Nat) :
    h.activate p id s = (.error .connectionAlreadyActive, h, s) := by
  obtain ⟨address, _ | c⟩ := h
  · cases ha
  · rfl

theorem isActive_deactivate : (h.deactivate p s).1.isActive = false := by
  obtain ⟨address, _ | c⟩ := h <;> rfl

theorem deactivate_of_not_isActive (ha : h.isActive = false) : h.deactivate p s = (h, s) := by
  obtain ⟨address, _ | c⟩ := h
  · rfl
  · cases ha

end Channel

namespace Server

/-- What happens to a server. -/
inductive Event where
  /-- A peer asks to be taken. -/
  | peer (address : SocketAddress)
  /-- The task of a peer that was taken begins. -/
  | begins (task : Nat)
  | chunk (task : Nat) (bytes : ByteArray)
  | ends (task : Nat) (ending : Ending)

def step (v : Service α ρ π) (w : Server π) : Event → Server π
  | .peer address => (w.accept address).2
  | .begins task => w.begin v task
  | .chunk task bytes => (w.receive v task bytes).2
  | .ends task ending => w.finish v task ending

/-- What the loop of a task stops at when bytes arrive. -/
def stopsAt? (v : Service α ρ π) (task : Nat) (bytes : ByteArray) (w : Server π) :
    Option (Stop MessageError) :=
  match w.tasks.lookup task with
  | none => none
  | some t =>
    match t.channel.connection with
    | none => none
    | some c => (Link.receive v bytes ⟨c, t.stream⟩ w.state).error

namespace Event

def taken (w : Server π) : Event → List (Nat × SocketAddress)
  | peer address => ((w.accept address).1.map fun task => (task, address)).toList
  | _ => []

/-- The task that ends, and why. -/
def ended (v : Service α ρ π) (w : Server π) : Event → List (Nat × Ending)
  | chunk task bytes =>
    match w.stopsAt? v task bytes with
    | some (.error e) => [(task, .failed (.message e))]
    | _ => []
  | ends task ending => ((w.tasks.lookup task).map fun _ => (task, ending)).toList
  | _ => []

/-- The task that breaks off. -/
def broken (v : Service α ρ π) (w : Server π) : Event → List Nat
  | chunk task bytes =>
    match w.stopsAt? v task bytes with
    | some .overflow => [task]
    | _ => []
  | _ => []

end Event

def run (v : Service α ρ π) (events : List Event) (w : Server π) : Server π :=
  events.foldl (step v) w

def taken (v : Service α ρ π) : List Event → Server π → List (Nat × SocketAddress)
  | [], _ => []
  | e :: es, w => e.taken w ++ taken v es (step v w e)

def ended (v : Service α ρ π) : List Event → Server π → List (Nat × Ending)
  | [], _ => []
  | e :: es, w => e.ended v w ++ ended v es (step v w e)

def broken (v : Service α ρ π) : List Event → Server π → List Nat
  | [], _ => []
  | e :: es, w => e.broken v w ++ broken v es (step v w e)

def beside (w : Server π) (t : τ) : Server (π × τ) :=
  ⟨w.limit, w.state.beside t, w.stats, w.waiting, w.tasks, w.connections, w.nextTask⟩

variable {w : Server π} {task : Nat} {xs : List Visit}

theorem accept_beside (address : SocketAddress) (w : Server π) (t : τ) :
    (w.beside t).accept address = ((w.accept address).1, (w.accept address).2.beside t) := by
  unfold accept
  by_cases h : w.limit ≤ w.stats.active
  · rw [if_pos h]
    exact if_pos h
  · rw [if_neg h]
    exact if_neg h

theorem begin_of_none (h : w.waiting.lookup task = none) : w.begin v task = w := by
  unfold begin
  rw [h]

def withPeer (address : SocketAddress) (w : Server π) : Server π :=
  { w.measure Metrics.openConnection with
    stats.connections := w.stats.connections + 1
    stats.active := w.stats.active + 1
    waiting := w.waiting ++ [(w.nextTask, address)]
    nextTask := w.nextTask + 1 }

def withTask (task : Nat) (t : Task) (c : Connection) (s : ServiceState π) (w : Server π) :
    Server π :=
  { w with
    state := s
    waiting := w.waiting.filter fun x => x.1 ≠ task
    tasks := w.tasks ++ [(task, t)]
    connections := (w.connections.filter fun d => d.id ≠ task) ++ [c] }

def withoutTask (task : Nat) (c : Connection) (ending : Ending) (s : ServiceState π)
    (w : Server π) : Server π :=
  { w with
    state := s
    tasks := w.tasks.filter fun u => u.1 ≠ task
    connections := w.connections.filter fun d => d.id ≠ c.id
    stats.errors := w.stats.errors + (if ending.isError then 1 else 0)
    stats.active := w.stats.active - 1 }

theorem accept_of_le {address : SocketAddress} (h : w.limit ≤ w.stats.active) :
    w.accept address = (none, w) :=
  if_pos h

theorem accept_of_lt {address : SocketAddress} (h : w.stats.active < w.limit) :
    w.accept address = (some w.nextTask, w.withPeer address) :=
  if_neg (Nat.not_le.2 h)

/-- The task of a peer that waits opens a connection of its own. -/
theorem begin_of_lookup (v : Service α ρ π) (xs : List Visit) {address : SocketAddress}
    (h : w.waiting.lookup task = some address) :
    ∃ c s, c.id = task ∧
      w.begin v task = w.withTask task ⟨⟨address, some c⟩, .empty⟩ c s ∧
      (w.beside xs).begin v.visited task = (w.begin v task).beside (xs ++ [.opened c]) := by
  have hw : (w.beside xs).waiting.lookup task = some address := h
  refine ⟨{ (v.processor.openConnection (.fresh task address) w.state.processor).1 with
    id := task }, { w.state with
      processor := (v.processor.openConnection (.fresh task address) w.state.processor).2 },
    rfl, ?_, ?_⟩
  · unfold begin
    rw [h]
    rfl
  · unfold begin
    rw [h, hw]
    rfl

theorem finish_of_connection (v : Service α ρ π) (xs : List Visit) {t : Task} {c : Connection}
    (h : w.tasks.lookup task = some t) (hc : t.channel.connection = some c) (ending : Ending) :
    ∃ s, w.finish v task ending = w.withoutTask task c ending s ∧
      (w.beside xs).finish v.visited task ending =
        (w.finish v task ending).beside (xs ++ [.closed c]) := by
  obtain ⟨⟨address, connection⟩, stream⟩ := t
  obtain rfl : connection = some c := hc
  have hw : (w.beside xs).tasks.lookup task = some ⟨⟨address, some c⟩, stream⟩ := h
  refine ⟨(ServiceState.measure .closeConnection { w.state with
    processor := v.processor.closeConnection c w.state.processor }).updateGauges, ?_, ?_⟩
  · unfold finish
    rw [h]
    rfl
  · unfold finish
    rw [h, hw]
    rfl

theorem keys_putRun (w : Server π) (task : Nat) (t : Task) (r : Link.Run π) :
    (w.putRun task t r).tasks.map Prod.fst = w.tasks.map Prod.fst := by
  rw [putRun, List.map_map]
  refine List.map_congr_left fun x _ => ?_
  by_cases hx : x.1 = task <;> simp [hx]

theorem ids_putRun (w : Server π) (task : Nat) (t : Task) (r : Link.Run π) :
    (w.putRun task t r).connections.map Connection.id = w.connections.map Connection.id := by
  rw [putRun, List.map_map]
  refine List.map_congr_left fun d _ => ?_
  by_cases hd : d.id = r.link.connection.id <;> simp [hd]

theorem stopsAt?_of_none (h : w.tasks.lookup task = none) (bytes : ByteArray) :
    w.stopsAt? v task bytes = none := by
  rw [stopsAt?, h]

theorem stopsAt?_of_lookup {t : Task} {c : Connection} {bytes : ByteArray} {r : Link.Run π}
    (ht : w.tasks.lookup task = some t) (hc : t.channel.connection = some c)
    (hr : Link.receive v bytes ⟨c, t.stream⟩ w.state = r) : w.stopsAt? v task bytes = r.error := by
  simp only [stopsAt?, ht, hc, hr]

theorem accept_of_none {address : SocketAddress} (h : (w.accept address).1 = none) :
    (w.accept address).2 = w := by
  by_cases hl : w.stats.active < w.limit
  · rw [accept_of_lt hl] at h
    cases h
  · rw [accept_of_le (Nat.le_of_not_lt hl)]

theorem Ending.isError_iff {ending : Ending} :
    ending.isError = true ↔ ∃ e, ending = .failed e ∧ e ≠ .shuttingDown := by
  constructor
  · intro h
    rcases ending with _ | e
    · cases h
    · exact ⟨e, rfl, fun he => by subst he; cases h⟩
  · rintro ⟨e, rfl, he⟩
    cases e <;> first | rfl | exact absurd rfl he

section shuttingDown

theorem filter_eq_self_of_lookup {β : Type} {k : Nat} {ys : List (Nat × β)}
    (h : ys.lookup k = none) : (ys.filter fun y => y.1 ≠ k) = ys :=
  List.filter_eq_self.2 fun y hy => decide_eq_true fun he =>
    absurd (List.lookup_eq_none_iff.1 h y hy) (by simp [he])

theorem foldl_filter {β : Type} (ks : List Nat) (ys : List (Nat × β)) :
    ks.foldl (fun ys k => ys.filter fun y => y.1 ≠ k) ys = ys.filter fun y => y.1 ∉ ks := by
  induction ks generalizing ys with
  | nil => simp
  | cons k ks ih =>
    rw [List.foldl_cons, ih, List.filter_filter]
    refine List.filter_congr fun y _ => ?_
    simp [Bool.and_comm]

theorem filter_keys_eq_nil {β : Type} (ys : List (Nat × β)) :
    (ys.filter fun y => y.1 ∉ ys.map Prod.fst) = [] :=
  List.filter_eq_nil_iff.2 fun _ hy hd => of_decide_eq_true hd (List.mem_map_of_mem hy)

theorem waiting_begin (v : Service α ρ π) (task : Nat) (w : Server π) :
    (w.begin v task).waiting = w.waiting.filter fun t => t.1 ≠ task := by
  cases hl : w.waiting.lookup task with
  | none => rw [begin_of_none hl, filter_eq_self_of_lookup hl]
  | some address =>
    obtain ⟨c, s, -, hs, -⟩ := begin_of_lookup v [] hl
    rw [hs, withTask]

theorem finish_lists (v : Service α ρ π) (task : Nat) (ending : Ending) (w : Server π) :
    (w.finish v task ending).waiting = w.waiting ∧
      (w.finish v task ending).tasks = w.tasks.filter fun t => t.1 ≠ task := by
  cases hl : w.tasks.lookup task with
  | none =>
    rw [finish_of_none hl]
    exact ⟨rfl, (filter_eq_self_of_lookup hl).symm⟩
  | some t =>
    obtain ⟨⟨address, connection⟩, stream⟩ := t
    unfold finish
    rw [hl]
    cases connection <;> exact ⟨rfl, rfl⟩

theorem waiting_run_begins (v : Service α ρ π) (ks : List Nat) (w : Server π) :
    (run v (ks.map .begins) w).waiting = w.waiting.filter fun t => t.1 ∉ ks := by
  rw [← foldl_filter]
  induction ks generalizing w with
  | nil => rfl
  | cons k ks ih =>
    rw [List.map_cons, run, List.foldl_cons, List.foldl_cons, ← waiting_begin v]
    exact ih _

theorem lists_run_ends (v : Service α ρ π) (ending : Ending) (ks : List Nat) (w : Server π) :
    (run v (ks.map (.ends · ending)) w).waiting = w.waiting ∧
      (run v (ks.map (.ends · ending)) w).tasks = w.tasks.filter fun t => t.1 ∉ ks := by
  rw [← foldl_filter]
  induction ks generalizing w with
  | nil => exact ⟨rfl, rfl⟩
  | cons k ks ih =>
    obtain ⟨hw, ht⟩ := finish_lists v k ending w
    rw [List.map_cons, run, List.foldl_cons, List.foldl_cons, ← hw, ← ht]
    exact ih _

theorem ended_begins (v : Service α ρ π) (ks : List Nat) (w : Server π) :
    ended v (ks.map .begins) w = [] := by
  induction ks generalizing w with
  | nil => rfl
  | cons k ks ih => exact ih _

theorem ending_of_ends (v : Service α ρ π) (ending : Ending) (ks : List Nat) (w : Server π) :
    ∀ x ∈ ended v (ks.map (.ends · ending)) w, x.2 = ending := by
  induction ks generalizing w with
  | nil => nofun
  | cons k ks ih =>
    intro x hx
    obtain hx | hx := List.mem_append.1 hx
    · obtain ⟨t, -, rfl⟩ := Option.map_eq_some_iff.1 (Option.mem_toList.1 hx)
      rfl
    · exact ih _ x hx

theorem ended_append (v : Service α ρ π) (es fs : List Event) (w : Server π) :
    ended v (es ++ fs) w = ended v es w ++ ended v fs (run v es w) := by
  induction es generalizing w with
  | nil => rfl
  | cons e es ih => rw [List.cons_append, ended, ih, ← List.append_assoc]; rfl

theorem run_append (v : Service α ρ π) (es fs : List Event) (w : Server π) :
    run v (es ++ fs) w = run v fs (run v es w) :=
  List.foldl_append

/-- The server stops by letting the peers that wait begin, and then ending every task. -/
def stopping (v : Service α ρ π) (w : Server π) : List Event :=
  let begins := (w.waiting.map Prod.fst).map .begins
  begins ++ ((run v begins w).tasks.map Prod.fst).map (.ends · (.failed .shuttingDown))

theorem run_stopping (v : Service α ρ π) (w : Server π) :
    run v (w.stopping v) w = w.shutDown v := by
  rw [stopping, run_append, run, run, shutDown]
  simp only [List.foldl_map]
  rfl

theorem ending_of_stopping (v : Service α ρ π) (w : Server π) :
    ∀ x ∈ ended v (w.stopping v) w, x.2 = .failed .shuttingDown := by
  rw [stopping, ended_append, ended_begins, List.nil_append]
  exact ending_of_ends v _ _ _

theorem broken_append (v : Service α ρ π) (es fs : List Event) (w : Server π) :
    broken v (es ++ fs) w = broken v es w ++ broken v fs (run v es w) := by
  induction es generalizing w with
  | nil => rfl
  | cons e es ih => rw [List.cons_append, broken, ih, ← List.append_assoc]; rfl

theorem broken_eq_nil (v : Service α ρ π) {es : List Event}
    (h : ∀ e ∈ es, ∀ w, e.broken v w = []) (w : Server π) : broken v es w = [] := by
  induction es generalizing w with
  | nil => rfl
  | cons e es ih =>
    obtain ⟨he, hes⟩ := List.forall_mem_cons.1 h
    rw [broken, he, ih hes]
    rfl

theorem broken_stopping (v : Service α ρ π) (w : Server π) : broken v (w.stopping v) w = [] := by
  refine broken_eq_nil v (fun e he w' => ?_) w
  obtain he | he := List.mem_append.1 he
  all_goals
    obtain ⟨_, -, rfl⟩ := List.mem_map.1 he
    rfl

/-- A server that has stopped holds nothing any more. -/
theorem lists_shutDown (v : Service α ρ π) (w : Server π) :
    (w.shutDown v).waiting = [] ∧ (w.shutDown v).tasks = [] := by
  rw [← run_stopping, stopping, run_append]
  obtain ⟨hw, ht⟩ := lists_run_ends v (.failed .shuttingDown)
    ((run v ((w.waiting.map Prod.fst).map .begins) w).tasks.map Prod.fst)
    (run v ((w.waiting.map Prod.fst).map .begins) w)
  exact ⟨by rw [hw, waiting_run_begins, filter_keys_eq_nil], by rw [ht, filter_keys_eq_nil]⟩

end shuttingDown

end Server

end DocumentServer
