import DocumentServer.Proofs.Observed
import DocumentServer.Proofs.Registration

namespace DocumentServer

variable {α ρ π τ β : Type}

def Observer.listing : Observer α ρ (List (Call α ρ)) := ⟨fun call l => l ++ [call], fun _ l => l⟩

theorem Observer.notes_listing (calls : List (Call α ρ)) (e? : Option WireError)
    (l : List (Call α ρ)) : listing.notes calls e? l = l ++ calls := by
  have hl : calls.foldl (fun l call => l ++ [call]) l = l ++ calls := by
    induction calls generalizing l with
    | nil => exact (List.append_nil l).symm
    | cons call calls ih => rw [List.foldl_cons, ih, List.append_assoc, List.singleton_append]
  cases e? <;> exact hl

/-- The same processor with a record of all calls. -/
def Processor.recorded (p : Processor α ρ π) : Processor α ρ (π × List (Call α ρ)) :=
  p.observed .listing

def Service.recorded (v : Service α ρ π) : Service α ρ (π × List (Call α ρ)) :=
  ⟨v.registry, v.processor.recorded, v.strategy, v.seconds⟩

def Command.writing {ρ' : Type} (c : Command α ρ)
    (write : ρ' → Option (Except WireError (Document String))) : Command α ρ' :=
  ⟨c.name, c.aliases, c.adminOnly, c.argument, write⟩

namespace Registry

/-- The calls that a command document is allowed. -/
inductive Admits (r : Registry α ρ) (x : Context) (d : Document String) : Call α ρ → Prop
  | intro {command : Command α ρ} {key : String} {a : α} (hk : d.firstKey? = some key)
      (hc : command ∈ r.commands) (hn : key ∈ command.names)
      (hx : command.adminOnly = true → x.database = "admin")
      (ha : command.argument d key = .ok a) : Admits r x d ⟨command, x, a⟩

/-- The error of a command document that is not executed. Who may run a command is looked at before
its argument. -/
inductive Refuses (r : Registry α ρ) (x : Context) (d : Document String) : WireError → Prop
  | empty (hk : d.firstKey? = none) :
      Refuses r x d ⟨.commandNotFound, "no such command: empty document query"⟩
  | unknown {key : String} (hk : d.firstKey? = some key)
      (hn : ∀ command ∈ r.commands, key ∉ command.names) :
      Refuses r x d ⟨.commandNotFound, s!"no such command: '{key}'"⟩
  | unauthorized {command : Command α ρ} {key : String} (hk : d.firstKey? = some key)
      (hc : command ∈ r.commands) (hn : key ∈ command.names) (ha : command.adminOnly = true)
      (hx : x.database ≠ "admin") :
      Refuses r x d ⟨.unauthorized, s!"{command.name} may only be run against the admin database."⟩
  | argument {command : Command α ρ} {key : String} {e : WireError} (hk : d.firstKey? = some key)
      (hc : command ∈ r.commands) (hn : key ∈ command.names)
      (hx : command.adminOnly = true → x.database = "admin")
      (he : command.argument d key = .error e) : Refuses r x d e

def writing {ρ' : Type} (r : Registry α ρ)
    (write : Command α ρ → ρ' → Option (Except WireError (Document String))) : Registry α ρ' :=
  ⟨r.commands.map fun c => c.writing (write c), r.slots⟩

variable {r : Registry α ρ} {x : Context} {d : Document String} {e : WireError}

theorem Consistent.writing {ρ' : Type} (h : r.Consistent)
    (write : Command α ρ → ρ' → Option (Except WireError (Document String))) :
    (r.writing write).Consistent := by
  intro key i
  have hs : (r.writing write).slots = r.slots := rfl
  rw [hs, h key i]
  constructor
  · rintro ⟨c, hc, hn⟩
    exact ⟨_, by rw [Registry.writing, Array.getElem?_map, hc, Option.map_some], hn⟩
  · rintro ⟨c, hc, hn⟩
    simp only [Registry.writing, Array.getElem?_map, Option.map_eq_some_iff] at hc
    obtain ⟨c', hc', rfl⟩ := hc
    exact ⟨c', hc', hn⟩

theorem Refuses.writing {ρ' : Type} (h : r.Refuses x d e)
    (write : Command α ρ → ρ' → Option (Except WireError (Document String))) :
    (r.writing write).Refuses x d e := by
  cases h with
  | empty hk => exact .empty hk
  | unknown hk hn =>
    apply Refuses.unknown hk
    intro c hc
    obtain ⟨c', hc', rfl⟩ := Array.mem_map.1 hc
    exact hn c' hc'
  | @unauthorized command key hk hc hn ha hx =>
    apply @Refuses.unauthorized _ _ (r.writing write) x d (command.writing (write command)) key hk
    · exact Array.mem_map_of_mem hc
    · exact hn
    · exact ha
    · exact hx
  | @argument command key e hk hc hn hx he =>
    apply @Refuses.argument _ _ (r.writing write) x d (command.writing (write command)) key e hk
    · exact Array.mem_map_of_mem hc
    · exact hn
    · exact hx
    · exact he

theorem Consistent.refuses_of_resolve (h : r.Consistent) (he : r.resolve d = .error e) :
    r.Refuses x d e := by
  unfold resolve at he
  split at he
  next hk =>
    cases he
    exact .empty hk
  next key hk =>
    split at he
    next => cases he
    next hf =>
      cases he
      exact .unknown hk (h.find?_eq_none_iff.1 hf)

end Registry

namespace Service

variable {v : Service α ρ π} {x : Context} {d : Document String}

theorem isAdmin_iff : x.isAdmin = true ↔ x.database = "admin" := decide_eq_true_iff

theorem not_refused_iff {command : Command α ρ} :
    ¬(command.adminOnly && !x.isAdmin) = true ↔
      (command.adminOnly = true → x.database = "admin") := by
  simp [← isAdmin_iff]

theorem callsOfCommand_of_admits (hv : v.registry.Consistent) {call : Call α ρ}
    (h : v.registry.Admits x d call) : v.callsOfCommand x d = [call] := by
  obtain ⟨hk, hc, hn, hx, ha⟩ := h
  have hr := hv.resolve_eq_ok_iff.2 ⟨hk, hc, hn⟩
  simp only [callsOfCommand, hr, if_neg (not_refused_iff.2 hx), ha]

theorem callsOfCommand_of_refuses (hv : v.registry.Consistent) {e : WireError}
    (h : v.registry.Refuses x d e) : v.callsOfCommand x d = [] := by
  cases h with
  | empty hk => simp [callsOfCommand, Registry.resolve, hk]
  | unknown hk hn =>
    have hf := hv.find?_eq_none_iff.2 hn
    simp [callsOfCommand, Registry.resolve, hk, hf]
  | unauthorized hk hc hn ha hx =>
    have hr := hv.resolve_eq_ok_iff.2 ⟨hk, hc, hn⟩
    have hx' : x.isAdmin = false := Bool.eq_false_of_not_eq_true (mt isAdmin_iff.1 hx)
    simp [callsOfCommand, hr, ha, hx']
  | argument hk hc hn hx he =>
    have hr := hv.resolve_eq_ok_iff.2 ⟨hk, hc, hn⟩
    simp only [callsOfCommand, hr, if_neg (not_refused_iff.2 hx), he]

/-- What is refused leaves everything but what is measured as it was. -/
theorem runCommand_of_refuses (hv : v.registry.Consistent) {e : WireError}
    (h : v.registry.Refuses x d e) (c : Connection) (s : ServiceState π) :
    (v.runCommand x d c s).1 = .error e ∧
      (v.runCommand x d c s).2.1 = c ∧ (v.runCommand x d c s).2.2.processor = s.processor := by
  cases h with
  | empty hk =>
    simp [runCommand, Registry.resolve, hk]
  | unknown hk hn =>
    have hf := hv.find?_eq_none_iff.2 hn
    simp [runCommand, Registry.resolve, hk, hf]
  | unauthorized hk hc hn ha hx =>
    have hr := hv.resolve_eq_ok_iff.2 ⟨hk, hc, hn⟩
    have hx' : x.isAdmin = false := Bool.eq_false_of_not_eq_true (mt isAdmin_iff.1 hx)
    simp only [runCommand, hr, ha, hx', Bool.not_false, Bool.and_self, if_true]
    exact ⟨rfl, trivial, rfl⟩
  | argument hk hc hn hx he =>
    have hr := hv.resolve_eq_ok_iff.2 ⟨hk, hc, hn⟩
    simp only [runCommand, hr, if_neg (not_refused_iff.2 hx), he]
    exact ⟨trivial, trivial, rfl⟩

theorem admits_or_refuses {r : Registry α ρ} (hr : r.Consistent) (x : Context)
    (d : Document String) : (∃ call, r.Admits x d call) ∨ ∃ e, r.Refuses x d e := by
  cases hf : r.resolve d with
  | error e => exact .inr ⟨e, hr.refuses_of_resolve hf⟩
  | ok found =>
    obtain ⟨command, key⟩ := found
    obtain ⟨hk, hc, hn⟩ := hr.resolve_eq_ok_iff.1 hf
    by_cases ha : command.adminOnly = true
    · by_cases hx : x.database = "admin"
      · cases he : command.argument d key with
        | error e => exact .inr ⟨e, .argument hk hc hn (fun _ => hx) he⟩
        | ok a => exact .inl ⟨_, .intro hk hc hn (fun _ => hx) he⟩
      · exact .inr ⟨_, .unauthorized hk hc hn ha hx⟩
    · cases he : command.argument d key with
      | error e => exact .inr ⟨e, .argument hk hc hn (fun h => absurd h ha) he⟩
      | ok a => exact .inl ⟨_, .intro hk hc hn (fun h => absurd h ha) he⟩

theorem length_callsOfCommand (hv : v.registry.Consistent) (x : Context) (d : Document String) :
    (v.callsOfCommand x d).length ≤ 1 := by
  obtain ⟨call, h⟩ | ⟨e, h⟩ := admits_or_refuses hv x d
  · simp [callsOfCommand_of_admits hv h]
  · simp [callsOfCommand_of_refuses hv h]

theorem mem_callsOfCommand (hv : v.registry.Consistent) {call : Call α ρ} :
    call ∈ v.callsOfCommand x d ↔ v.registry.Admits x d call := by
  constructor
  · intro hm
    obtain ⟨call', h⟩ | ⟨e, h⟩ := admits_or_refuses hv x d
    · rw [callsOfCommand_of_admits hv h, List.mem_singleton] at hm
      rwa [hm]
    · rw [callsOfCommand_of_refuses hv h] at hm
      cases hm
  · intro h
    simp [callsOfCommand_of_admits hv h]

end Service

/-- The part before the first dot of the namespace that the body of a query starts with, behind the
word of its options. -/
def Frame.databaseText? (f : Frame) : Option String := do
  let stop ← Bytes.findZero? f.body 4 (f.body.size - 4)
  let text ← String.fromUTF8? (f.body.extract 4 stop)
  let parts ← Namespace.splitDot text.toList
  return String.ofList parts.1

namespace Frame

open Grammar

theorem databaseText?_of_space {f : Frame} {n : Namespace} {j : Nat} {p q : Pool}
    (h : Body.Source.space ⟨f.opcode, f.body, .copy⟩ 4 p = (.ok (n, j), q)) :
    f.databaseText? = some n.database := by
  unfold Body.Source.space at h
  dsimp only at h
  split at h
  next => cases h
  next stop hz =>
    split at h
    next => cases h
    next text ht =>
      split at h
      next n' hn =>
        cases h
        obtain ⟨rfl, -, hd, -⟩ := Namespace.parse_eq_ok_iff.1 hn
        have hs := Namespace.splitDot_eq_some_iff.2 ⟨Namespace.toList_display n, hd⟩
        simp [databaseText?, hz, ht, hs]
      next => cases h

theorem databaseText?_of_isBody {f : Frame} {q : Query} (h : IsBody .query f.body (.query q)) :
    f.databaseText? = some q.space.database := by
  generalize hb : f.body = b at h
  cases h with
  | @query o u k n w _ _ _ _ _ _ ho hs _ _ _ =>
    have hw : f.body = o ++ u ++ (k ++ n ++ w) := by simp only [hb, ByteArray.append_assoc]
    have hx : f.body.extract 4 (4 + u.size) = u := by
      rw [hw, Bytes.extract_append_of_le (by rw [ByteArray.size_append, ho.1])]
      exact ByteArray.extract_append_eq_right ho.1.symm (by rw [ho.1])
    have hl : 4 + u.size ≤ f.body.size := by simp [hw, ho.1]
    have hr := (Body.Source.takes_space (b := ⟨f.opcode, f.body, .copy⟩)).ok_iff (i := 4)
      (by dsimp only; omega) (.empty .never 0)
    obtain ⟨q, hq⟩ := (hr _ _).2 ⟨Nat.le_add_right _ _, hl, hx.symm ▸ hs⟩
    exact databaseText?_of_space hq

end Frame

namespace Exchange

open Grammar

/-- The calls that the frame of an exchange is allowed: those of the command that it holds. -/
inductive Admits (v : Service α ρ π) (x : Exchange π) : Call α ρ → Prop
  | intro {q : Query} {call : Call α ρ} (hb : IsBody x.frame.opcode x.frame.body (.query q))
      (hq : q.isCommand = true)
      (h : v.registry.Admits (Service.context x.connection q.space q.options.slaveOk) q.query call) :
      Admits v x call

variable {v : Service α ρ π} {x : Exchange π}

theorem calls_cases (v : Service α ρ π) (x : Exchange π) :
    (∃ q, IsBody x.frame.opcode x.frame.body (.query q) ∧ q.isCommand = true ∧ x.calls v =
        v.callsOfCommand (Service.context x.connection q.space q.options.slaveOk) q.query) ∨
      x.calls v = [] ∧
        ∀ q, IsBody x.frame.opcode x.frame.body (.query q) → q.isCommand = false := by
  unfold calls Service.calls
  have hp {m : Request} := @Request.parse_eq_ok_iff v.strategy x.frame x.state.pool m
  cases hr : (Request.parse v.strategy x.frame x.state.pool).1 with
  | error e =>
    rw [hr] at hp
    refine .inr ⟨rfl, fun q hq => ?_⟩
    cases hp.2 hq
  | ok m =>
    rw [hr] at hp
    have hu {q : Query} (hq : IsBody x.frame.opcode x.frame.body (.query q)) : m = .query q :=
      Except.ok.inj (hp.2 hq)
    cases m with
    | query q =>
      cases hq : q.isCommand with
      | true =>
        left
        exact ⟨q, hp.1 rfl, hq, if_pos hq⟩
      | false =>
        right
        apply And.intro
        · simp [Service.callsOfRequest, hq]
        · intro q' hq'
          cases hu hq'
          exact hq
    | _ =>
      refine .inr ⟨rfl, fun q hq => ?_⟩
      cases hu hq

theorem length_calls (hv : v.registry.Consistent) (x : Exchange π) : (x.calls v).length ≤ 1 := by
  obtain ⟨q, -, -, hc⟩ | ⟨hc, -⟩ := x.calls_cases v
  · rw [hc]
    exact Service.length_callsOfCommand hv _ _
  · simp [hc]

theorem mem_calls (hv : v.registry.Consistent) {call : Call α ρ} :
    call ∈ x.calls v ↔ x.Admits v call := by
  obtain ⟨q, hb, hq, hc⟩ | ⟨hc, hn⟩ := x.calls_cases v
  · rw [hc, Service.mem_callsOfCommand hv]
    constructor
    · exact .intro hb hq
    · rintro ⟨hb', -, h⟩
      have hu {m : Request} := @Request.parse_eq_ok_iff v.strategy x.frame x.state.pool m
      cases (hu.2 hb).symm.trans (hu.2 hb')
      exact h
  · rw [hc]
    constructor
    · intro h
      cases h
    · rintro ⟨hb, hq, -⟩
      rw [hn _ hb] at hq
      cases hq

theorem Admits.database {call : Call α ρ} (h : x.Admits v call) :
    x.frame.databaseText? = some call.context.database ∧
      (call.command.adminOnly = true → call.context.database = "admin") := by
  obtain ⟨hb, -, h⟩ := h
  have ho : Opcode.query = x.frame.opcode := hb.opcode_eq
  obtain ⟨-, -, -, hx, -⟩ := h
  exact ⟨Frame.databaseText?_of_isBody (ho ▸ hb), hx⟩

end Exchange

namespace Service

variable {v : Service α ρ π}

theorem recorded_runCommand (x : Context) (d : Document String) (c : Connection)
    (s : ServiceState π) :
    Observes (v.recorded.runCommand x d) (v.runCommand x d) c s (· ++ v.callsOfCommand x d) := by
  intro l
  dsimp only
  rw [← Observer.notes_listing (v.callsOfCommand x d) none l]
  exact observes_runCommand (o := .listing) l

/-- A run with a record does what the run without it does, and records the calls of its exchanges in
their order. -/
theorem recorded_after (fs : List (Nat × Frame)) (cs : Nat → Connection) (s : ServiceState π)
    (l : List (Call α ρ)) :
    v.recorded.after fs cs (s.beside l) = ((v.after fs cs s).1,
      (v.after fs cs s).2.beside (l ++ (v.exchanges fs cs s).flatMap (Exchange.calls v))) := by
  have hn (xs : List (Exchange π)) (l : List (Call α ρ)) :
      Exchange.noted v .listing xs l = l ++ xs.flatMap (Exchange.calls v) := by
    induction xs generalizing l with
    | nil => exact (List.append_nil l).symm
    | cons x xs ih =>
      rw [Exchange.noted_cons, Observer.notes_listing, ih, List.flatMap_cons, List.append_assoc]
  rw [← hn]
  exact observed_after .listing fs cs s l

/-- Let the commands of a registry be registered one by one. A command document leads to one call of
the processor if the registry admits it, and to none if it is refused; then the error says why, the
connection is as it was, and it does not matter what the processor does and how results are written.
A run makes the calls that its frames are admitted to, one for each at the most, and none of them is
a call of an administrative command for another database. -/
theorem commands_gated (hv : v.registry.Built) :
    (∀ x d, ∃ calls, calls.length ≤ 1 ∧ (∀ call, call ∈ calls ↔ v.registry.Admits x d call) ∧
      ∀ c s l, v.recorded.runCommand x d c (s.beside l) = ((v.runCommand x d c s).1,
        (v.runCommand x d c s).2.1, (v.runCommand x d c s).2.2.beside (l ++ calls))) ∧
    (∀ x d, (∀ call, ¬v.registry.Admits x d call) → ∃ e, v.registry.Refuses x d e ∧
      (∀ c s, (v.runCommand x d c s).1 = .error e ∧ (v.runCommand x d c s).2.1 = c ∧
        (v.runCommand x d c s).2.2.processor = s.processor) ∧
      ∀ {ρ' π' : Type} (write : Command α ρ → ρ' → Option (Except WireError (Document String)))
        (p : Processor α ρ' π') (strategy : Strategy) (seconds : Frame → Double) c s,
        (runCommand ⟨v.registry.writing write, p, strategy, seconds⟩ x d c s).1 = .error e) ∧
    ∃ calls : Exchange π → List (Call α ρ),
      (∀ x, (calls x).length ≤ 1 ∧ ∀ call, call ∈ calls x ↔ x.Admits v call) ∧
      (∀ x, x.frame.databaseText? ≠ some "admin" →
        ∀ call ∈ calls x, call.command.adminOnly = false) ∧
      ∀ fs cs s l, v.recorded.after fs cs (s.beside l) = ((v.after fs cs s).1,
        (v.after fs cs s).2.beside (l ++ (v.exchanges fs cs s).flatMap calls)) := by
  have hc := hv.consistent
  refine ⟨fun x d => ?_, fun x d ha => ?_, Exchange.calls v, fun x => ?_, fun x hx call hm => ?_,
    recorded_after⟩
  · exact ⟨v.callsOfCommand x d, length_callsOfCommand hc x d, fun call => mem_callsOfCommand hc,
      recorded_runCommand x d⟩
  · obtain ⟨e, he⟩ := (admits_or_refuses hc x d).resolve_left fun ⟨call, h⟩ => ha call h
    refine ⟨e, he, runCommand_of_refuses hc he, fun write p strategy seconds c s => ?_⟩
    have hw := hc.writing write
    exact (runCommand_of_refuses (v := ⟨_, p, strategy, seconds⟩) hw (he.writing write) c s).1
  · exact ⟨Exchange.length_calls hc x, fun call => Exchange.mem_calls hc⟩
  · obtain ⟨hd, ha⟩ := ((Exchange.mem_calls hc).1 hm).database
    by_contra hn
    rw [ha (Bool.eq_true_of_not_eq_false hn)] at hd
    exact hx hd

def nonceFrame (database : String) : Frame :=
  ⟨1, 0, .query, Bytes.ofSize 0 ++ Body.cstring (database ++ ".$cmd") ++ Bytes.ofSize 0 ++
    Bytes.ofSize 1 ++ (Bytes.ofSize 19 ++ (Body.cstring "\x10getnonce" ++ Bytes.ofSize 1)).push 0⟩

def nonceFrames : List (Nat × Frame) := [(0, nonceFrame "test"), (1, nonceFrame "admin")]

theorem nonceFrames_gated :
    (nonceFrame "test").databaseText? = some "test" ∧
      (nonceFrame "admin").databaseText? = some "admin" ∧
      ∃ calls : Exchange Surroundings → List (Call (Argument Empty) (Outcome Empty)),
        (∀ x, (calls x).length ≤ 1) ∧
        (∀ x, x.frame = nonceFrame "test" → ∀ call ∈ calls x, call.command.adminOnly = false) ∧
        ∀ cs, ((Standalone.service .copy).recorded.after nonceFrames cs
            (Standalone.fresh.beside [])).2.processor.2 =
          ((Standalone.service .copy).exchanges nonceFrames cs Standalone.fresh).flatMap calls := by
  have ht : (nonceFrame "test").databaseText? = some "test" := by decide +kernel
  obtain ⟨-, -, calls, hc, hx, hr⟩ :=
    commands_gated (v := Standalone.service .copy) Builtin.built_registry.1
  refine ⟨ht, by decide +kernel, calls, fun x => (hc x).1, fun x hf => hx x ?_, fun cs => ?_⟩
  · rw [hf, ht]
    decide
  · rw [hr]
    rfl

end Service

end DocumentServer
