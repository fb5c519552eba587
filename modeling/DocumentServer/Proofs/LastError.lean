import DocumentServer.Proofs.Registration
import DocumentServer.Proofs.Replies

namespace DocumentServer

variable {α ρ π : Type}

/-- The failures of requests without a reply are put down, and nothing else of a processor has to do
with the last error. -/
structure Processor.LeavesLastError (p : Processor α ρ π) : Prop where
  recordError : ∀ e c s, p.recordError e c s = (c.setLastError e, s)
  execute : ∀ command x a c s, (p.execute command x a c s).2.1.lastError = c.lastError
  query : ∀ x m c s, (p.query x m c s).2.1.lastError = c.lastError
  getMore : ∀ x m c s, (p.getMore x m c s).2.1.lastError = c.lastError

namespace Service

variable {v : Service α ρ π}

theorem lastError_fail (hv : v.processor.LeavesLastError) {op : Opcode} (ho : op.canReply = false)
    (e : WireError) (c : Connection) (s : ServiceState π) :
    (v.fail op e c s).2.1.lastError = some e := by
  simp only [fail, ho, Bool.false_eq_true, if_false, hv.recordError]
  rfl

theorem lastError_carryOut (hv : v.processor.LeavesLastError) {op : Opcode}
    (ho : op.canReply = false) (step : Operation π Unit) (c : Connection) (s : ServiceState π) :
    (v.carryOut op step c s).2.1.lastError = errorOf (step c s.processor).1 := by
  simp only [carryOut, lift]
  rcases step c s.processor with ⟨e | _, _⟩
  · exact lastError_fail hv ho e _ _
  · rfl

theorem lastError_handle (hv : v.processor.LeavesLastError) {m : Request}
    (ho : m.opcode.canReply = true) (c : Connection) (s : ServiceState π) :
    (v.handle m c s).2.1.lastError = c.lastError := by
  have hf {op : Opcode} (ho : op.canReply = true) (e : WireError) :
      Keeps (fun c _ => c.lastError) (v.fail op e) :=
    Keeps.fail (fun _ _ _ => rfl) ho e
  cases m with
  | query q =>
    have hx : Keeps (fun c _ => c.lastError)
        (v.executeCommand (context c q.space q.options.slaveOk) q.query) :=
      Keeps.executeCommand (fun _ _ _ => rfl)
        (fun command x a c s => hv.execute command x a c s.processor) _ _
    have hq : Keeps (fun c _ => c.lastError)
        (v.answer .query (v.processor.query (context c q.space q.options.slaveOk) q)) :=
      Keeps.answer (hf rfl) fun c s => hv.query _ q c s.processor
    unfold handle
    dsimp only
    split
    · exact hx c s
    · exact hq c s
  | getMore q =>
    have hq : Keeps (fun c _ => c.lastError)
        (v.answer .getMore (v.processor.getMore (context c q.space true) q)) :=
      Keeps.answer (hf rfl) fun c s => hv.getMore _ q c s.processor
    exact hq c s
  | _ => cases ho

theorem lastError_respond (hv : v.processor.LeavesLastError) (f : Frame) (c : Connection)
    (s : ServiceState π) : (v.respond f c s).2.1.lastError =
      if f.opcode.canReply then c.lastError else v.failure f c s.pool s.processor := by
  unfold respond failure
  rcases hp : Request.parse v.strategy f s.pool with ⟨e | m, p⟩
  · have hr := Request.refusal_of_parse (e := e) (by rw [hp])
    simp only [hr.not_isFatal, Bool.false_eq_true, if_false]
    cases ho : f.opcode.canReply with
    | true => exact Keeps.fail (v := v) (g := fun c _ => c.lastError) (fun _ _ _ => rfl) ho _ c _
    | false => exact lastError_fail hv ho _ c _
  · have ho : m.opcode = f.opcode := Request.opcode_of_parse (by rw [hp])
    rw [← ho]
    dsimp only
    cases m with
    | query q => exact lastError_handle hv rfl c _
    | getMore q => exact lastError_handle hv rfl c _
    | insert m => exact lastError_carryOut hv rfl _ c _
    | update m => exact lastError_carryOut hv rfl _ c _
    | delete m => exact lastError_carryOut hv rfl _ c _
    | killCursors ids => exact lastError_carryOut hv rfl _ c _

/-- One frame makes its own outcome the last error if it gets no reply, and leaves the last error
alone if it does. -/
theorem lastError_dispatch (hv : v.processor.LeavesLastError) (f : Frame) (c : Connection)
    (s : ServiceState π) : (v.dispatch f c s).2.1.lastError =
      if f.opcode.canReply then c.lastError
      else v.failure f c.recordRequest s.pool s.processor := by
  rw [connection_dispatch]
  exact lastError_respond hv f c.recordRequest _

end Service

namespace Exchange

def failure (v : Service α ρ π) (x : Exchange π) : Option WireError :=
  v.failure x.frame x.connection.recordRequest x.state.pool x.state.processor

/-- Whether the frame of an exchange is one of a client and gets no reply. -/
def isSilentOf (client : Nat) (x : Exchange π) : Bool :=
  x.client = client && !x.frame.opcode.canReply

/-- What became of the latest frame of a client that gets no reply, or what was known before. -/
def lastOutcome (v : Service α ρ π) (client : Nat) (before : Option WireError)
    (xs : List (Exchange π)) : Option WireError :=
  match (xs.filter (isSilentOf client)).getLast? with
  | some x => x.failure v
  | none => before

theorem lastOutcome_cons (v : Service α ρ π) (client : Nat) (before : Option WireError)
    (x : Exchange π) (xs : List (Exchange π)) :
    lastOutcome v client before (x :: xs) =
      lastOutcome v client (if isSilentOf client x then x.failure v else before) xs := by
  unfold lastOutcome
  by_cases h : isSilentOf client x = true
  · rw [List.filter_cons_of_pos h, List.getLast?_cons, if_pos h]
    cases (xs.filter (isSilentOf client)).getLast? <;> rfl
  · rw [List.filter_cons_of_neg h, if_neg h]

end Exchange

namespace Service

variable {v : Service α ρ π}

/-- After any run, the last error of a client is the outcome of its latest frame without a reply. -/
theorem lastError_after (hv : v.processor.LeavesLastError) (fs : List (Nat × Frame))
    (cs : Nat → Connection) (s : ServiceState π) (client : Nat) :
    ((v.after fs cs s).1 client).lastError =
      Exchange.lastOutcome v client (cs client).lastError (v.exchanges fs cs s) := by
  induction fs generalizing cs s with
  | nil => rfl
  | cons f fs ih =>
    obtain ⟨other, f⟩ := f
    rw [after, exchanges, Exchange.lastOutcome_cons, ih]
    apply congrArg fun before => Exchange.lastOutcome v client before _
    by_cases h : other = client
    · subst h
      rw [Function.update_self, lastError_dispatch hv]
      dsimp only [Exchange.isSilentOf, Exchange.failure]
      by_cases ho : f.opcode.canReply = true <;> simp [ho]
    · simp [Exchange.isSilentOf, Function.update_of_ne (Ne.symm h), h]

end Service

namespace LastOutcome

theorem document_withOk (e? : Option WireError) : (LastOutcome.document ⟨0, e?⟩).withOk =
    match e? with
    | some e => [("n", .scalar (.int64 0)), ("err", .scalar (.string e.message)),
        ("code", .scalar (.int32 (Int32.ofInt e.code.number))), ("ok", .scalar (.double .one))]
    | none => [("n", .scalar (.int64 0)), ("err", .scalar .null), ("ok", .scalar (.double .one))] := by
  rw [Document.withOk_of_notMem]
  · cases e? <;> rfl
  · cases e? <;> simp [document, Document.keys, HasContent.content, okField]
  · cases e? <;> simp [document, Document.keys, HasContent.content]

end LastOutcome

namespace Standalone

variable {ε δ : Type}

theorem leavesLastError_processor :
    (processor : Processor (Argument ε) (Outcome δ) Surroundings).LeavesLastError where
  recordError _ _ _ := rfl
  execute command x a c s := congrArg Connection.lastError (connection_execute command x a c s)
  query _ _ _ _ := rfl
  getMore _ _ _ _ := rfl

theorem executeCommand_getLastError
    {v : Service (Argument ε) (Outcome δ) Surroundings} (hr : v.registry = Builtin.registry)
    (hx : v.processor.execute = executors.execute) {d : Document String} {key : String}
    {a : Argument ε} (hk : d.firstKey? = some key) (hn : key = "getLastError" ∨ key = "getlasterror")
    (ha : (Builtin.getLastError (ε := ε) (δ := δ)).argument d key = .ok a) (x : Context)
    (c : Connection) (s : ServiceState Surroundings) :
    (v.executeCommand x d c s).1 = (LastOutcome.document ⟨0, c.lastError⟩).withOk := by
  have hm : (Builtin.getLastError : Command (Argument ε) (Outcome δ)) ∈ v.registry.commands := by
    rw [hr, ← Array.mem_toList_iff, Builtin.built_registry.2]
    simp [Builtin.all]
  have hb : v.registry.resolve d = .ok (Builtin.getLastError, key) := by
    have hc : v.registry.Consistent := hr ▸ Builtin.built_registry.1.consistent
    refine hc.resolve_eq_ok_iff.2 ⟨hk, hm, ?_⟩
    simpa [Command.names, Builtin.getLastError] using hn
  obtain ⟨o, -, rfl⟩ : ∃ o, LastErrorOptions.ofDocument d = .ok o ∧ .lastError o = a := by
    simp only [Builtin.getLastError] at ha
    cases ho : LastErrorOptions.ofDocument d with
    | error e => simp [ho, Except.map] at ha
    | ok o => exact ⟨o, rfl, by simpa [ho, Except.map] using ha⟩
  have hs : (executors (ε := ε) (δ := δ)).execute Builtin.getLastError x (.lastError o) c
      s.processor = (.ok (.lastOutcome ⟨0, c.lastError⟩), c, s.processor) := rfl
  have hc : v.commandResult x d c s.processor =
      .ok (LastOutcome.document ⟨0, c.lastError⟩).withOk := by
    simp only [Service.commandResult, hb, bind, Except.bind, ha, hx, hs]
    rfl
  rw [Service.executeCommand_fst, hc]
  rfl

end Standalone

namespace Service

variable {v : Service α ρ π}

/-- Let a processor put failures down and leave the last error alone otherwise. After any run the
last error of a client is what became of its latest frame that gets no reply; queries, requests for
more and commands do not change it, however they end. A server that runs the built-in commands tells
a client who asks for its last error just that. -/
theorem lastError_exact (hv : v.processor.LeavesLastError) :
    (∀ fs cs s client, ((v.after fs cs s).1 client).lastError =
      Exchange.lastOutcome v client (cs client).lastError (v.exchanges fs cs s)) ∧
    (∀ f c s, f.opcode.canReply = true → (v.dispatch f c s).2.1.lastError = c.lastError) ∧
    ∀ {ε δ : Type} (w : Service (Argument ε) (Outcome δ) Surroundings),
      w.registry = Builtin.registry → w.processor.execute = Standalone.executors.execute →
      w.processor.LeavesLastError → ∀ (d : Document String) (key : String) (a : Argument ε),
        d.firstKey? = some key → key = "getLastError" ∨ key = "getlasterror" →
        (Builtin.getLastError : Command (Argument ε) (Outcome δ)).argument d key = .ok a →
        ∀ fs cs s client x t, (w.executeCommand x d ((w.after fs cs s).1 client) t).1 =
          match Exchange.lastOutcome w client (cs client).lastError (w.exchanges fs cs s) with
          | some e => [("n", .scalar (.int64 0)), ("err", .scalar (.string e.message)),
              ("code", .scalar (.int32 (Int32.ofInt e.code.number))),
              ("ok", .scalar (.double .one))]
          | none =>
            [("n", .scalar (.int64 0)), ("err", .scalar .null), ("ok", .scalar (.double .one))] := by
  refine ⟨lastError_after hv, fun f c s ho => ?_, ?_⟩
  · rw [lastError_dispatch hv, if_pos ho]
  · intro ε δ w hr hx hw d key a hk hn ha fs cs s client x t
    rw [Standalone.executeCommand_getLastError hr hx hk hn ha, LastOutcome.document_withOk,
      lastError_after hw]

def mixedConnections : Nat → Connection :=
  ((Standalone.service .borrow).after mixedFrames
    (fun client => .fresh client (.v4 .localhost 5000)) Standalone.fresh).1

theorem lastError_mixedConnections :
    (mixedConnections 1).lastError =
        some ⟨.failedToParse, "malformed reply body: replies are not requests"⟩ ∧
      (mixedConnections 0).lastError = none := by
  obtain ⟨hl, -, -⟩ := lastError_exact (v := Standalone.service .borrow)
    Standalone.leavesLastError_processor
  have h1 : Exchange.lastOutcome (Standalone.service .borrow) 1 none mixedRun =
      some ⟨.failedToParse, "malformed reply body: replies are not requests"⟩ := by
    decide +kernel
  have h0 : Exchange.lastOutcome (Standalone.service .borrow) 0 none mixedRun = none := by
    decide +kernel
  exact ⟨(hl _ _ _ 1).trans h1, (hl _ _ _ 0).trans h0⟩

end Service

end DocumentServer
