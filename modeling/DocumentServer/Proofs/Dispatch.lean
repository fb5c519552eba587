import DocumentServer.Proofs.RequestAcceptance
import DocumentServer.Server.Service

namespace DocumentServer

open Grammar

theorem Grammar.IsBody.opcode_eq {op : Opcode} {w : ByteArray} {m : Request} (h : IsBody op w m) :
    m.opcode = op := by
  cases h <;> rfl

theorem Request.opcode_of_parse {strategy : Strategy} {f : Frame} {p : Pool} {m : Request}
    (h : (parse strategy f p).1 = .ok m) : m.opcode = f.opcode :=
  (parse_eq_ok_iff.1 h).opcode_eq

def errorOf {β : Type} : Except WireError β → Option WireError
  | .ok _ => none
  | .error e => some e

namespace Service

variable {α ρ π β γ : Type} {v : Service α ρ π}

def commandResult (v : Service α ρ π) (x : Context) (d : Document String) (c : Connection) (s : π) :
    Except WireError (Document String) := do
  let (command, calledBy) ← v.registry.resolve d
  if command.adminOnly && !x.isAdmin then .error command.notAdmin
  else
    let a ← command.argument d calledBy
    let r ← (v.processor.execute command x a c s).1
    (command.result r).map Document.withOk

def documentOf : Except WireError (Document String) → Document String
  | .ok d => d
  | .error e => e.replyDocument

def replyOf : Except WireError Reply → Reply
  | .ok r => r
  | .error e => .failure e.replyDocument

/-- The reply that is due to a frame. -/
def due (v : Service α ρ π) (f : Frame) (c : Connection) (p : Pool) (s : π) : Option Reply :=
  match (Request.parse v.strategy f p).1 with
  | .error e => if f.opcode.canReply then some (.failure e.toWire.replyDocument) else none
  | .ok (.query q) =>
    let x := context c q.space q.options.slaveOk
    if q.isCommand then some (.single (documentOf (v.commandResult x q.query c s)))
    else some (replyOf (v.processor.query x q c s).1)
  | .ok (.getMore q) => some (replyOf (v.processor.getMore (context c q.space true) q c s).1)
  | .ok _ => none

/-- How a frame that gets no reply fails, if it does: it is not read, or the processor refuses its
request. -/
def failure (v : Service α ρ π) (f : Frame) (c : Connection) (p : Pool) (s : π) :
    Option WireError :=
  match (Request.parse v.strategy f p).1 with
  | .error e => some e.toWire
  | .ok (.insert m) => errorOf (v.processor.insert (context c m.space false) m c s).1
  | .ok (.update m) => errorOf (v.processor.update (context c m.space false) m c s).1
  | .ok (.delete m) => errorOf (v.processor.delete (context c m.space false) m c s).1
  | .ok (.killCursors ids) => errorOf (v.processor.killCursors ids c s).1
  | .ok (.query _) | .ok (.getMore _) => none

theorem runCommand_fst (x : Context) (d : Document String) (c : Connection) (s : ServiceState π) :
    (v.runCommand x d c s).1 = v.commandResult x d c s.processor := by
  unfold runCommand commandResult
  cases v.registry.resolve d with
  | error e => rfl
  | ok found =>
    obtain ⟨command, calledBy⟩ := found
    dsimp only [bind, Except.bind]
    by_cases ha : (command.adminOnly && !x.isAdmin) = true
    · rw [if_pos ha, if_pos ha]
    · rw [if_neg ha, if_neg ha]
      cases command.argument d calledBy with
      | error e => rfl
      | ok a =>
        have hs (t : ServiceState π) (ht : t.processor = s.processor) :
            (lift (v.processor.execute command x a) c t).1 =
              (v.processor.execute command x a c s.processor).1 := by rw [← ht]; rfl
        dsimp only
        rw [← hs (s.measure (.countCommand command.name)) rfl]
        rcases lift (v.processor.execute command x a) c (s.measure (.countCommand command.name))
          with ⟨_ | r, _⟩ <;> rfl

theorem executeCommand_fst (x : Context) (d : Document String) (c : Connection)
    (s : ServiceState π) :
    (v.executeCommand x d c s).1 = documentOf (v.commandResult x d c s.processor) := by
  rw [← runCommand_fst, executeCommand]
  rcases v.runCommand x d c s with ⟨_ | r, _⟩ <;> rfl

theorem fail_fst (op : Opcode) (e : WireError) (c : Connection) (s : ServiceState π) :
    (v.fail op e c s).1 = if op.canReply then some (.failure e.replyDocument) else none := by
  unfold fail
  split <;> rfl

theorem answer_fst {op : Opcode} (h : op.canReply = true) (step : Operation π Reply)
    (c : Connection) (s : ServiceState π) :
    (v.answer op step c s).1 = some (replyOf (step c s.processor).1) := by
  simp only [answer, lift]
  rcases step c s.processor with ⟨e | r, _⟩
  · exact (fail_fst op e _ _).trans (if_pos h)
  · rfl

theorem carryOut_fst {op : Opcode} (h : op.canReply = false) (step : Operation π Unit)
    (c : Connection) (s : ServiceState π) : (v.carryOut op step c s).1 = none := by
  simp only [carryOut, lift]
  rcases step c s.processor with ⟨e | _, _⟩
  · rw [fail_fst, h]
    rfl
  · rfl

theorem handle_of_command {q : Query} (h : q.isCommand = true) (c : Connection)
    (s : ServiceState π) :
    (v.handle (.query q) c s).1 = some (.single (documentOf
      (v.commandResult (context c q.space q.options.slaveOk) q.query c s.processor))) := by
  simp only [handle, h, if_true]
  rw [← executeCommand_fst]

/-- Every frame is responded to, and with the reply that is due to it. -/
theorem respond_fst (f : Frame) (c : Connection) (s : ServiceState π) :
    (v.respond f c s).1 = .ok (v.due f c s.pool s.processor) := by
  unfold respond due
  rcases hp : Request.parse v.strategy f s.pool with ⟨e | m, p⟩
  · have hr := Request.refusal_of_parse (e := e) (by rw [hp])
    simp only [hr.not_isFatal, Bool.false_eq_true, if_false]
    rw [fail_fst]
  · dsimp only
    cases m with
    | query q =>
      by_cases hq : q.isCommand = true
      · rw [handle_of_command hq]
        simp only [hq, if_true]
      · simp only [handle, hq, Bool.false_eq_true, if_false]
        rw [answer_fst rfl]
    | getMore q =>
      simp only [handle]
      rw [answer_fst rfl]
    | insert _ | update _ | delete _ | killCursors _ =>
      simp only [handle]
      rw [carryOut_fst rfl]

theorem due_isSome (f : Frame) (c : Connection) (p : Pool) (s : π) :
    (v.due f c p s).isSome = f.opcode.canReply := by
  unfold due
  cases hp : (Request.parse v.strategy f p).1 with
  | error e => cases f.opcode.canReply <;> rfl
  | ok m =>
    rw [← Request.opcode_of_parse hp]
    cases m with
    | query q => cases hq : q.isCommand <;> simp [hq, Request.opcode, Opcode.canReply]
    | _ => rfl

/-- A step leaves a quantity as it was. -/
def Keeps (g : Connection → ServiceState π → γ) (step : Step π β) : Prop :=
  ∀ c s, g (step c s).2.1 (step c s).2.2 = g c s

/-- A quantity that is left alone by the processor of a service, and that does not depend on the
pool, what is measured and the last error. -/
structure Stable (v : Service α ρ π) (g : Connection → ServiceState π → γ) : Prop where
  measure : ∀ f c s, g c (s.measure f) = g c s
  pool : ∀ p c s, g c { s with pool := p } = g c s
  clearLastError : ∀ c s, g c.clearLastError s = g c s
  recordError : ∀ e c s, g (v.processor.recordError e c s.processor).1
    { s with processor := (v.processor.recordError e c s.processor).2 } = g c s
  execute : ∀ command x a, Keeps g (lift (v.processor.execute command x a))
  query : ∀ x m, Keeps g (lift (v.processor.query x m))
  getMore : ∀ x m, Keeps g (lift (v.processor.getMore x m))
  insert : ∀ x m, Keeps g (lift (v.processor.insert x m))
  update : ∀ x m, Keeps g (lift (v.processor.update x m))
  delete : ∀ x m, Keeps g (lift (v.processor.delete x m))
  killCursors : ∀ ids, Keeps g (lift (v.processor.killCursors ids))

namespace Keeps

variable {g : Connection → ServiceState π → γ}

theorem runCommand (hm : ∀ name c s, g c (s.measure (.countCommand name)) = g c s)
    (he : ∀ command x a, Keeps g (lift (v.processor.execute command x a))) (x : Context)
    (d : Document String) : Keeps g (v.runCommand x d) := by
  intro c s
  unfold Service.runCommand
  cases v.registry.resolve d with
  | error e => rfl
  | ok found =>
    obtain ⟨command, calledBy⟩ := found
    dsimp only
    split
    · exact hm _ c s
    · cases command.argument d calledBy with
      | error e => exact hm _ c s
      | ok a =>
        have hk := (he command x a c (s.measure (.countCommand command.name))).trans (hm _ c s)
        dsimp only
        split
        next hr => rwa [hr] at hk
        next hr => rwa [hr] at hk

theorem executeCommand (hm : ∀ f c s, g c (s.measure f) = g c s)
    (he : ∀ command x a, Keeps g (lift (v.processor.execute command x a))) (x : Context)
    (d : Document String) : Keeps g (v.executeCommand x d) := by
  intro c s
  have hr := runCommand (fun name => hm (.countCommand name)) he x d c s
  unfold Service.executeCommand
  split
  next hs => rwa [hs] at hr
  next hs =>
    rw [hs] at hr
    exact (hm _ _ _).trans hr

theorem fail (hm : ∀ f c s, g c (s.measure f) = g c s) {op : Opcode} (ho : op.canReply = true)
    (e : WireError) : Keeps g (v.fail op e) := by
  intro c s
  unfold Service.fail
  dsimp only
  rw [if_pos ho]
  exact hm _ c s

theorem answer {op : Opcode} {step : Operation π Reply} (hf : ∀ e, Keeps g (v.fail op e))
    (hs : Keeps g (lift step)) : Keeps g (v.answer op step) := by
  intro c s
  have hk := hs c s
  unfold Service.answer
  split
  next he => rwa [he] at hk
  next he =>
    rw [he] at hk
    exact (hf _ _ _).trans hk

end Keeps

namespace Stable

variable {g : Connection → ServiceState π → γ}

theorem fail (h : v.Stable g) (op : Opcode) (e : WireError) : Keeps g (v.fail op e) := by
  intro c s
  unfold Service.fail
  split
  · exact h.measure _ c s
  · exact (h.recordError e c (s.countError e)).trans (h.measure _ c s)

theorem carryOut (h : v.Stable g) (op : Opcode) {step : Operation π Unit}
    (hs : Keeps g (lift step)) : Keeps g (v.carryOut op step) := by
  intro c s
  have hk := hs c s
  unfold Service.carryOut
  split
  next he =>
    rw [he] at hk
    exact (h.clearLastError _ _).trans hk
  next he =>
    rw [he] at hk
    exact (h.fail op _ _ _).trans hk

theorem handle (h : v.Stable g) (m : Request) : Keeps g (v.handle m) := by
  intro c s
  cases m with
  | query q =>
    unfold Service.handle
    dsimp only
    split
    · exact Keeps.executeCommand h.measure h.execute _ q.query c s
    · exact Keeps.answer (h.fail .query) (h.query _ q) c s
  | getMore q => exact Keeps.answer (h.fail .getMore) (h.getMore _ q) c s
  | insert q => exact h.carryOut .insert (h.insert _ q) c s
  | update q => exact h.carryOut .update (h.update _ q) c s
  | delete q => exact h.carryOut .delete (h.delete _ q) c s
  | killCursors ids => exact h.carryOut .killCursors (h.killCursors ids) c s

theorem respond (h : v.Stable g) (f : Frame) : Keeps g (v.respond f) := by
  intro c s
  unfold Service.respond
  rcases Request.parse v.strategy f s.pool with ⟨e | m, p⟩
  · dsimp only
    split
    · exact h.pool p c s
    · exact ((h.fail _ _ _ _).trans (h.measure _ _ _)).trans (h.pool p c s)
  · exact ((h.pool _ _ _).trans (h.handle m _ _)).trans (h.pool p c s)

end Stable

theorem stable_nextReplyId (v : Service α ρ π) : v.Stable fun _ s => s.nextReplyId where
  measure _ _ _ := rfl
  pool _ _ _ := rfl
  clearLastError _ _ := rfl
  recordError _ _ _ := rfl
  execute _ _ _ _ _ := rfl
  query _ _ _ _ := rfl
  getMore _ _ _ _ := rfl
  insert _ _ _ _ := rfl
  update _ _ _ _ := rfl
  delete _ _ _ _ := rfl
  killCursors _ _ _ := rfl

/-- The connection and the state when the reply to a frame is found and not yet encoded. -/
def heard (v : Service α ρ π) (f : Frame) (c : Connection) (s : ServiceState π) :
    Connection × ServiceState π :=
  (v.respond f c.recordRequest (s.measure (.countRequest f.opcode (v.seconds f)))).2

theorem dispatch_of_none {f : Frame} {c : Connection} {s : ServiceState π}
    (h : v.due f c.recordRequest s.pool s.processor = none) :
    v.dispatch f c s = (.ok none, v.heard f c s) := by
  have hr := (respond_fst f c.recordRequest
    (s.measure (.countRequest f.opcode (v.seconds f)))).trans (congrArg Except.ok h)
  simp only [dispatch, heard]
  split
  next he => rw [he] at hr; cases hr
  next he => rw [he]
  next he => rw [he] at hr; cases hr

theorem dispatch_of_some {f : Frame} {c : Connection} {s : ServiceState π} {r : Reply}
    (h : v.due f c.recordRequest s.pool s.processor = some r) :
    v.dispatch f c s = ((encodeReply r f.requestId (v.heard f c s).2).1.map some,
      (v.heard f c s).1, (encodeReply r f.requestId (v.heard f c s).2).2) := by
  have hr := (respond_fst f c.recordRequest
    (s.measure (.countRequest f.opcode (v.seconds f)))).trans (congrArg Except.ok h)
  simp only [dispatch, heard]
  split
  next he => rw [he] at hr; cases hr
  next he => rw [he] at hr; cases hr
  next he =>
    rw [he] at hr
    cases hr
    rw [he]

theorem connection_dispatch (f : Frame) (c : Connection) (s : ServiceState π) :
    (v.dispatch f c s).2.1 = (v.heard f c s).1 := by
  cases h : v.due f c.recordRequest s.pool s.processor with
  | none => rw [dispatch_of_none h]
  | some r => rw [dispatch_of_some h]

end Service

end DocumentServer
