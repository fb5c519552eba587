import DocumentServer.Processor.Standalone
import DocumentServer.Proofs.Dispatch
import DocumentServer.Proofs.Registration
import DocumentServer.Proofs.Written

namespace DocumentServer

variable {α ρ π : Type}

theorem Executors.execute_of_forall {P : Operation π ρ → Prop} {x : Executors α ρ π}
    (hr : ∀ e, P (.refuse e))
    (hx : ∀ b ∈ x, ∀ a step, b.2 a = some step → ∀ context, P (step context))
    (c : Command α ρ) (context : Context) (a : α) : P (x.execute c context a) := by
  unfold execute
  split
  next => exact hr _
  next run hl =>
    split
    next => exact hr _
    next step hs =>
      obtain ⟨l, r, rfl, -⟩ := List.lookup_eq_some_iff.1 hl
      exact hx _ (List.mem_append_right l List.mem_cons_self) a step hs context

namespace Registry

theorem mem_of_resolve {r : Registry α ρ} {d : Document String} {c : Command α ρ}
    {calledBy : String} (h : r.resolve d = .ok (c, calledBy)) : c ∈ r.commands := by
  unfold resolve at h
  split at h
  next => cases h
  next key _ =>
    split at h
    next found hf =>
      cases h
      unfold find? at hf
      obtain ⟨slot, -, hf⟩ := Option.bind_eq_some_iff.1 hf
      obtain ⟨c', hc, hf⟩ := Option.bind_eq_some_iff.1 hf
      cases hf
      exact Array.mem_of_getElem? hc
    next => cases h

end Registry

namespace Command

theorem document?_of_result {c : Command α ρ} {r : ρ} {d : Document String}
    (h : c.result r = .ok d) : c.document? r = some (.ok d) := by
  unfold result at h
  split at h <;> cases h
  assumption

theorem result_of_none {c : Command α ρ} {r : ρ} (h : c.document? r = none) :
    c.result r = .error c.wrongResult := by
  rw [result, h]

end Command

namespace Builtin

variable {ε δ : Type}

theorem mem_all {c : Command (Argument ε) (Outcome δ)} (h : c ∈ registry.commands) : c ∈ all := by
  rw [← built_registry.2]
  exact h.val

theorem nulFree_result {c : Command (Argument ε) (Outcome δ)} (hc : c ∈ all) {r : Outcome δ}
    {d : Document String} (h : c.result r = .ok d) : d.NulFree := by
  have hd := Command.document?_of_result h
  have hi (ns : List Int32) : Value.itemPassages (ns.map fun n => .scalar (.int32 n)) = [] := by
    induction ns with
    | nil => rfl
    | cons n ns ih => exact ih
  simp only [all, List.mem_cons, List.not_mem_nil, or_false] at hc
  rcases hc with rfl | rfl | rfl | rfl | rfl | rfl <;> cases r <;> cases hd
  case inl.done => exact List.forall_mem_nil _
  case inr.inr.inr.inr.inr.lastOutcome o =>
    obtain ⟨n, _ | e⟩ := o <;>
      simp [LastOutcome.document, Document.NulFree, Document.Passes, Document.entryPassages,
        Value.passages, Scalar.passages]
  all_goals
    simp [Document.NulFree, Document.Passes, Document.entryPassages, Value.passages,
      Scalar.passages, Role.document, Build.document, hi]

end Builtin

namespace Standalone

variable {ε δ : Type}

theorem eq_of_plain {step : Step δ} {a : Argument ε} {q : Context → Step δ}
    (h : plain step a = some q) : q = fun _ => step := by
  cases a with
  | none => exact (Option.some.inj h).symm
  | _ => cases h

/-- All that executing a command can come to. -/
theorem execute_of_steps {P : Step δ → Prop} (refuse : ∀ e, P (.refuse e)) (ping : P ping)
    (isMaster : P isMaster) (buildInfo : P buildInfo) (getNonce : P getNonce)
    (getLastError : P getLastError) (command : Command (Argument ε) (Outcome δ)) (x : Context)
    (a : Argument ε) : P (processor.execute command x a) := by
  have hp {step : Step δ} (h : P step) (a : Argument ε) (q : Context → Step δ)
      (hq : plain step a = some q) (context : Context) : P (q context) := by
    rw [eq_of_plain hq]
    exact h
  apply Executors.execute_of_forall refuse
  simp only [executors, List.forall_mem_cons, List.not_mem_nil, false_imp_iff, implies_true,
    and_true]
  refine ⟨hp ping, hp isMaster, hp buildInfo, hp getNonce, fun a step h context => ?_,
    fun a step h context => ?_⟩
  · split at h
    next => cases h; exact refuse _
    next => cases h
  · split at h
    next => cases h; exact getLastError
    next => cases h

theorem connection_execute (command : Command (Argument ε) (Outcome δ)) (x : Context)
    (a : Argument ε) (c : Connection) (s : Surroundings) :
    ((processor.execute command x a) c s).2.1 = c :=
  execute_of_steps (P := fun step => (step c s).2.1 = c) (fun _ => rfl) rfl rfl rfl rfl rfl
    command x a

def service (strategy : Strategy) : Service (Argument Empty) (Outcome Empty) Surroundings :=
  ⟨Builtin.registry, processor, strategy, fun _ => .zero⟩

def fresh : ServiceState Surroundings :=
  .start (.empty .onlyLikely 0) none ⟨fun _ => 0, fun _ => 0, 0, 0⟩

/-- Requests change nothing of a connection but its last error. -/
theorem stable_connection {γ : Type} {g : Connection → γ}
    (hg : ∀ c e, g { c with lastError := e } = g c)
    (registry : Registry (Argument ε) (Outcome δ)) (strategy : Strategy)
    (seconds : Frame → Double) :
    Service.Stable ⟨registry, processor, strategy, seconds⟩ fun c _ => g c where
  measure _ _ _ := rfl
  pool _ _ _ := rfl
  clearLastError c _ := hg c none
  recordError e c _ := hg c (some e)
  execute command x a c s := congrArg g (connection_execute command x a c s.processor)
  query _ _ _ _ := rfl
  getMore _ _ _ _ := rfl
  insert _ _ _ _ := rfl
  update _ _ _ _ := rfl
  delete _ _ _ _ := rfl
  killCursors _ _ _ := rfl

theorem stable_requestCount (registry : Registry (Argument ε) (Outcome δ)) (strategy : Strategy)
    (seconds : Frame → Double) :
    Service.Stable ⟨registry, processor, strategy, seconds⟩ fun c _ => c.requestCount :=
  stable_connection (fun _ _ => rfl) registry strategy seconds

theorem nulFree_processor (strategy : Strategy) (seconds : Frame → Double) :
    Service.NulFree (⟨Builtin.registry, processor, strategy, seconds⟩ :
      Service (Argument ε) (Outcome δ) Surroundings) where
  query h := nomatch h
  getMore h := nomatch h
  execute hc _ hd := Builtin.nulFree_result (Builtin.mem_all hc) hd

end Standalone

end DocumentServer
