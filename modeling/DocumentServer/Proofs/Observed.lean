import DocumentServer.Proofs.Replies

namespace DocumentServer

variable {α ρ π τ β : Type}

structure Call (α ρ : Type) where
  command : Command α ρ
  context : Context
  argument : α

def Operation.beside (step : Operation π β) : Operation (π × τ) β := fun c s =>
  ((step c s.1).1, (step c s.1).2.1, ((step c s.1).2.2, s.2))

/-- How a record changes with what a processor is asked to execute, and with the failures that it
is told of. -/
structure Observer (α ρ τ : Type) where
  executed : Call α ρ → τ → τ
  failed : WireError → τ → τ

/-- What a record becomes after some calls and a failure, if there is one. -/
def Observer.notes (o : Observer α ρ τ) (calls : List (Call α ρ)) (e? : Option WireError) (t : τ) :
    τ :=
  let t := calls.foldl (fun t call => o.executed call t) t
  match e? with
  | some e => o.failed e t
  | none => t

def Processor.observed (p : Processor α ρ π) (o : Observer α ρ τ) : Processor α ρ (π × τ) where
  execute command x a := fun c s =>
    let r := p.execute command x a c s.1
    (r.1, r.2.1, (r.2.2, o.executed ⟨command, x, a⟩ s.2))
  query x m := (p.query x m).beside
  getMore x m := (p.getMore x m).beside
  insert x m := (p.insert x m).beside
  update x m := (p.update x m).beside
  delete x m := (p.delete x m).beside
  killCursors ids := (p.killCursors ids).beside
  recordError e c s :=
    ((p.recordError e c s.1).1, ((p.recordError e c s.1).2, o.failed e s.2))
  openConnection c s := ((p.openConnection c s.1).1, ((p.openConnection c s.1).2, s.2))
  closeConnection c s := (p.closeConnection c s.1, s.2)

def Service.observed (v : Service α ρ π) (o : Observer α ρ τ) : Service α ρ (π × τ) :=
  ⟨v.registry, v.processor.observed o, v.strategy, v.seconds⟩

def ServiceState.beside (s : ServiceState π) (t : τ) : ServiceState (π × τ) :=
  ⟨s.pool, s.nextReplyId, s.metrics, (s.processor, t)⟩

namespace Service

variable {v : Service α ρ π} {o : Observer α ρ τ} {x : Context} {d : Document String}
  {c : Connection} {s : ServiceState π} {f : Frame}

def callsOfCommand (v : Service α ρ π) (x : Context) (d : Document String) : List (Call α ρ) :=
  match v.registry.resolve d with
  | .error _ => []
  | .ok (command, calledBy) =>
    if command.adminOnly && !x.isAdmin then []
    else
      match command.argument d calledBy with
      | .error _ => []
      | .ok a => [⟨command, x, a⟩]

def callsOfRequest (v : Service α ρ π) (c : Connection) : Request → List (Call α ρ)
  | .query q =>
    if q.isCommand then v.callsOfCommand (context c q.space q.options.slaveOk) q.query else []
  | _ => []

/-- The calls that a frame leads to. -/
def calls (v : Service α ρ π) (f : Frame) (c : Connection) (p : Pool) : List (Call α ρ) :=
  match (Request.parse v.strategy f p).1 with
  | .ok m => v.callsOfRequest c m
  | .error _ => []

/-- The failure of a frame that the processor is told of, as no reply tells of it. -/
def handed (v : Service α ρ π) (f : Frame) (c : Connection) (p : Pool) (s : π) :
    Option WireError :=
  if f.opcode.canReply then none else v.failure f c p s

/-- A step with a record does what the step without it does, and changes the record. -/
def Observes (step : Step (π × τ) β) (plain : Step π β) (c : Connection) (s : ServiceState π)
    (change : τ → τ) : Prop :=
  ∀ t, step c (s.beside t) =
    ((plain c s).1, (plain c s).2.1, (plain c s).2.2.beside (change t))

theorem observes_beside (step : Operation π β) :
    Observes (τ := τ) (lift step.beside) (lift step) c s id :=
  fun _ => rfl

theorem observes_execute (command : Command α ρ) (x : Context) (a : α) :
    Observes (lift ((v.observed o).processor.execute command x a))
      (lift (v.processor.execute command x a)) c s (o.notes [⟨command, x, a⟩] none) :=
  fun _ => rfl

theorem observes_runCommand :
    Observes ((v.observed o).runCommand x d) (v.runCommand x d) c s
      (o.notes (v.callsOfCommand x d) none) := by
  intro t
  have hv : (v.observed o).registry = v.registry := rfl
  simp only [runCommand, callsOfCommand, hv]
  cases v.registry.resolve d with
  | error e => rfl
  | ok found =>
    obtain ⟨command, calledBy⟩ := found
    have hm : (s.beside t).measure (.countCommand command.name) =
        (s.measure (.countCommand command.name)).beside t := rfl
    dsimp only
    by_cases ha : (command.adminOnly && !x.isAdmin) = true
    · simp only [if_pos ha, hm]
      rfl
    · simp only [if_neg ha, hm]
      cases command.argument d calledBy with
      | error e => rfl
      | ok a =>
        dsimp only
        rw [observes_execute command x a t]
        rcases lift (v.processor.execute command x a) c (s.measure (.countCommand command.name))
          with ⟨e | r, _⟩ <;> rfl

theorem observes_executeCommand :
    Observes ((v.observed o).executeCommand x d) (v.executeCommand x d) c s
      (o.notes (v.callsOfCommand x d) none) := by
  intro t
  simp only [executeCommand, observes_runCommand t]
  rcases v.runCommand x d c s with ⟨e | r, _⟩ <;> rfl

theorem observes_fail (op : Opcode) (e : WireError) :
    Observes ((v.observed o).fail op e) (v.fail op e) c s
      (o.notes [] (if op.canReply then none else some e)) := by
  intro t
  simp only [fail]
  split <;> rfl

theorem observes_answer {op : Opcode} (h : op.canReply = true) (step : Operation π Reply) :
    Observes ((v.observed o).answer op step.beside) (v.answer op step) c s (o.notes [] none) := by
  intro t
  simp only [answer, observes_beside step t]
  rcases lift step c s with ⟨e | r, c', s'⟩
  · have hf := observes_fail (v := v) (o := o) (c := c') (s := s') op e t
    rwa [if_pos h] at hf
  · rfl

theorem observes_carryOut {op : Opcode} (h : op.canReply = false) (step : Operation π Unit) :
    Observes ((v.observed o).carryOut op step.beside) (v.carryOut op step) c s
      (o.notes [] (errorOf (step c s.processor).1)) := by
  intro t
  have hs : (lift step c s).1 = (step c s.processor).1 := rfl
  simp only [carryOut, observes_beside step t, ← hs]
  rcases lift step c s with ⟨e | r, c', s'⟩
  · have hf := observes_fail (v := v) (o := o) (c := c') (s := s') op e t
    rwa [h, if_neg Bool.false_ne_true] at hf
  · rfl

theorem observes_handle {p : Pool} {m : Request} (h : (Request.parse v.strategy f p).1 = .ok m) :
    Observes ((v.observed o).handle m) (v.handle m) c s
      (o.notes (v.calls f c p) (v.handed f c p s.processor)) := by
  rw [calls, handed, failure, h, ← Request.opcode_of_parse h]
  intro t
  cases m with
  | query q =>
    by_cases hq : q.isCommand = true
    · simp only [handle, callsOfRequest, hq, if_true, observes_executeCommand t]
      rfl
    · simp only [handle, callsOfRequest, hq, Bool.false_eq_true, if_false]
      exact observes_answer rfl _ t
  | getMore q => exact observes_answer rfl _ t
  | insert q => exact observes_carryOut rfl _ t
  | update q => exact observes_carryOut rfl _ t
  | delete q => exact observes_carryOut rfl _ t
  | killCursors ids => exact observes_carryOut rfl _ t

theorem observes_respond (f : Frame) :
    Observes ((v.observed o).respond f) (v.respond f) c s
      (o.notes (v.calls f c s.pool) (v.handed f c s.pool s.processor)) := by
  intro t
  have hv : (v.observed o).strategy = v.strategy := rfl
  have hp : (s.beside t).pool = s.pool := rfl
  simp only [respond, hv, hp]
  rcases hr : Request.parse v.strategy f s.pool with ⟨e | m, p⟩
  · have he := congrArg Prod.fst hr
    simp only [calls, handed, failure, he,
      (Request.refusal_of_parse he).not_isFatal, Bool.false_eq_true, if_false]
    have hm : { s.beside t with pool := p }.measure .countDecodeFailure =
        ({ s with pool := p }.measure .countDecodeFailure).beside t := rfl
    rw [hm, observes_fail f.opcode e.toWire t]
  · have hm : { s.beside t with pool := p } = { s with pool := p }.beside t := rfl
    simp only [hm, observes_handle (congrArg Prod.fst hr) t]
    rfl

/-- Serving a frame changes the record by its calls and by the failure that the processor is told
of. -/
theorem observes_dispatch (f : Frame) :
    Observes ((v.observed o).dispatch f) (v.dispatch f) c s
      (o.notes (v.calls f c.recordRequest s.pool)
        (v.handed f c.recordRequest s.pool s.processor)) := by
  intro t
  have hm : (s.beside t).measure (.countRequest f.opcode ((v.observed o).seconds f)) =
      (s.measure (.countRequest f.opcode (v.seconds f))).beside t := rfl
  simp only [dispatch, hm, observes_respond f t]
  have hp : (s.measure (.countRequest f.opcode (v.seconds f))).processor = s.processor := rfl
  have hq : (s.measure (.countRequest f.opcode (v.seconds f))).pool = s.pool := rfl
  rw [hp, hq]
  rcases v.respond f c.recordRequest (s.measure (.countRequest f.opcode (v.seconds f)))
    with ⟨e | _ | r, c', s'⟩
  · rfl
  · rfl
  · simp only [encodeReply, ServiceState.beside]
    rcases r.encode s'.nextReplyId f.requestId with (_ | _) | _ <;> rfl

end Service

namespace Exchange

def calls (v : Service α ρ π) (x : Exchange π) : List (Call α ρ) :=
  v.calls x.frame x.connection.recordRequest x.state.pool

def handed (v : Service α ρ π) (x : Exchange π) : Option WireError :=
  v.handed x.frame x.connection.recordRequest x.state.pool x.state.processor

def noted (v : Service α ρ π) (o : Observer α ρ τ) (xs : List (Exchange π)) (t : τ) : τ :=
  xs.foldl (fun t x => o.notes (x.calls v) (x.handed v) t) t

theorem noted_cons (v : Service α ρ π) (o : Observer α ρ τ) (x : Exchange π)
    (xs : List (Exchange π)) (t : τ) :
    noted v o (x :: xs) t = noted v o xs (o.notes (x.calls v) (x.handed v) t) :=
  rfl

end Exchange

namespace Service

variable {v : Service α ρ π}

/-- A run with a record does what the run without it does, and the record changes with its
exchanges in their order. -/
theorem observed_after (o : Observer α ρ τ) (fs : List (Nat × Frame)) (cs : Nat → Connection)
    (s : ServiceState π) (t : τ) :
    (v.observed o).after fs cs (s.beside t) = ((v.after fs cs s).1,
      (v.after fs cs s).2.beside (Exchange.noted v o (v.exchanges fs cs s) t)) := by
  induction fs generalizing cs s t with
  | nil => rfl
  | cons f fs ih =>
    obtain ⟨client, f⟩ := f
    simp only [after, exchanges, observes_dispatch f t, ih, Exchange.noted_cons]
    rfl

end Service

end DocumentServer
