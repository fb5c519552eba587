import DocumentServer.Proofs.ErrorReplies
import DocumentServer.Proofs.Gating

namespace DocumentServer

variable {α ρ π : Type}

/-- All documents that the commands of a registry write have distinct keys, as those of builders
have. -/
def Registry.WritesDistinct (r : Registry α ρ) : Prop :=
  ∀ command ∈ r.commands, ∀ result d,
    command.document? result = some (.ok d) → (Document.keys d).Nodup

/-- The reply document of what a command came to: an error, or the document of its result. -/
inductive Document.Tells : Except WireError (Document String) → Document String → Prop
  | failure (e : WireError) : Tells (.error e)
      [("code", .scalar (.int32 (Int32.ofInt e.code.number))),
        ("errmsg", .scalar (.string e.message)), ("ok", .scalar (.double .zero))]
  | kept {d : Document String} (ho : "ok" ∈ keys d) : Tells (.ok d) d
  | marked {d : Document String} (ho : "ok" ∉ keys d) :
      Tells (.ok d) (d ++ [("ok", .scalar (.double .one))])

namespace Document

variable {d : Document String}

theorem tells_replyDocument (e : WireError) : Tells (.error e) e.replyDocument := .failure e

theorem tells_withOk (hd : (keys d).Nodup) : Tells (.ok d) d.withOk := by
  by_cases ho : okField ∈ keys d
  · rw [withOk, if_pos (contains_iff.2 ho)]
    exact .kept ho
  · rw [withOk_of_notMem ho hd]
    exact .marked ho

theorem Tells.count_ok {o : Except WireError (Document String)} (h : Tells o d)
    (hd : ∀ m, o = .ok m → (keys m).Nodup) : (keys d).count "ok" = 1 := by
  cases h with
  | failure e => rfl
  | kept ho => exact List.count_eq_one_of_mem (hd _ rfl) ho
  | marked ho =>
    rw [keys_append, List.count_append, List.count_eq_zero_of_not_mem ho]
    rfl

end Document

namespace Service

variable {v : Service α ρ π} {x : Context} {d : Document String} {c : Connection} {s : π}
  {o : Except WireError (Document String)}

/-- A command is executed if it is found, may be run and has a good argument. -/
inductive Executes (v : Service α ρ π) (x : Context) (d : Document String) (c : Connection)
    (s : π) : Command α ρ → Except WireError ρ → Prop
  | intro {command : Command α ρ} {key : String} {a : α} {r : Except WireError ρ}
      (hr : v.registry.resolve d = .ok (command, key))
      (hx : command.adminOnly = true → x.database = "admin")
      (ha : command.argument d key = .ok a)
      (he : (v.processor.execute command x a c s).1 = r) : Executes v x d c s command r

/-- What a command comes to: the error of the step that fails, or the document of its result. -/
inductive Ends (v : Service α ρ π) (x : Context) (d : Document String) (c : Connection) (s : π) :
    Except WireError (Document String) → Prop
  | unresolved {e : WireError} (hr : v.registry.resolve d = .error e) : Ends v x d c s (.error e)
  | unauthorized {command : Command α ρ} {key : String}
      (hr : v.registry.resolve d = .ok (command, key)) (ha : command.adminOnly = true)
      (hx : x.database ≠ "admin") : Ends v x d c s
        (.error ⟨.unauthorized, s!"{command.name} may only be run against the admin database."⟩)
  | argument {command : Command α ρ} {key : String} {e : WireError}
      (hr : v.registry.resolve d = .ok (command, key))
      (hx : command.adminOnly = true → x.database = "admin")
      (ha : command.argument d key = .error e) : Ends v x d c s (.error e)
  | execution {command : Command α ρ} {e : WireError}
      (h : v.Executes x d c s command (.error e)) : Ends v x d c s (.error e)
  | wrongResult {command : Command α ρ} {r : ρ} (h : v.Executes x d c s command (.ok r))
      (hd : command.document? r = none) : Ends v x d c s
        (.error ⟨.internalError,
          s!"{command.name} was executed with a result of the wrong type"⟩)
  | writing {command : Command α ρ} {r : ρ} {e : WireError}
      (h : v.Executes x d c s command (.ok r)) (hd : command.document? r = some (.error e)) :
      Ends v x d c s (.error ⟨.failedToParse, e.message⟩)
  | success {command : Command α ρ} {r : ρ} {m : Document String}
      (h : v.Executes x d c s command (.ok r)) (hd : command.document? r = some (.ok m)) :
      Ends v x d c s (.ok m)

def unmarkedResult (v : Service α ρ π) (x : Context) (d : Document String) (c : Connection)
    (s : π) : Except WireError (Document String) := do
  let (command, calledBy) ← v.registry.resolve d
  if command.adminOnly && !x.isAdmin then .error command.notAdmin
  else
    let a ← command.argument d calledBy
    let r ← (v.processor.execute command x a c s).1
    command.result r

theorem commandResult_eq (v : Service α ρ π) (x : Context) (d : Document String) (c : Connection)
    (s : π) : v.commandResult x d c s = (v.unmarkedResult x d c s).map Document.withOk := by
  unfold commandResult unmarkedResult
  cases v.registry.resolve d with
  | error e => rfl
  | ok found =>
    dsimp only [bind, Except.bind]
    split
    · rfl
    · cases found.1.argument d found.2 with
      | error e => rfl
      | ok a =>
        dsimp only
        cases (v.processor.execute found.1 x a c s).1 <;> rfl

theorem allowed_of_open {command : Command α ρ} (h : command.adminOnly = false) :
    command.adminOnly = true → x.database = "admin" := by
  rw [h]
  exact fun ha => absurd ha Bool.false_ne_true

theorem Executes.unmarkedResult_eq {command : Command α ρ} {r : Except WireError ρ}
    (h : v.Executes x d c s command r) : v.unmarkedResult x d c s = r >>= command.result := by
  obtain ⟨hr, hx, ha, rfl⟩ := h
  simp only [unmarkedResult, hr, bind, Except.bind, if_neg (not_refused_iff.2 hx), ha]

theorem Ends.unmarkedResult_eq (h : v.Ends x d c s o) : v.unmarkedResult x d c s = o := by
  cases h with
  | unresolved hr => simp only [unmarkedResult, hr, bind, Except.bind]
  | unauthorized hr ha hx =>
    have hx' : x.isAdmin = false := Bool.eq_false_of_not_eq_true (mt isAdmin_iff.1 hx)
    simp only [unmarkedResult, hr, bind, Except.bind, ha, hx', Bool.not_false, Bool.and_self,
      if_true]
    rfl
  | argument hr hx ha =>
    simp only [unmarkedResult, hr, bind, Except.bind, if_neg (not_refused_iff.2 hx), ha]
  | execution h =>
    rw [h.unmarkedResult_eq]
    rfl
  | wrongResult h hd => exact h.unmarkedResult_eq.trans (Command.result_of_none hd)
  | writing h hd | success h hd =>
    refine h.unmarkedResult_eq.trans ?_
    simp only [bind, Except.bind, Command.result, hd]

theorem Executes.exists_ends {command : Command α ρ} {r : Except WireError ρ}
    (h : v.Executes x d c s command r) : ∃ o, v.Ends x d c s o := by
  cases r with
  | error e => exact ⟨_, .execution h⟩
  | ok r =>
    cases hd : command.document? r with
    | none => exact ⟨_, .wrongResult h hd⟩
    | some m =>
      cases m with
      | error e => exact ⟨_, .writing h hd⟩
      | ok m => exact ⟨_, .success h hd⟩

theorem exists_ends (v : Service α ρ π) (x : Context) (d : Document String) (c : Connection)
    (s : π) : ∃ o, v.Ends x d c s o := by
  cases hr : v.registry.resolve d with
  | error e => exact ⟨_, .unresolved hr⟩
  | ok found =>
    obtain ⟨command, key⟩ := found
    by_cases hx : command.adminOnly = true → x.database = "admin"
    · cases ha : command.argument d key with
      | error e => exact ⟨_, .argument hr hx ha⟩
      | ok a => exact (Executes.intro hr hx ha rfl).exists_ends
    · obtain ⟨ha, hx⟩ := Classical.not_imp.1 hx
      exact ⟨_, .unauthorized hr ha hx⟩

theorem ends_iff : v.Ends x d c s o ↔ v.unmarkedResult x d c s = o := by
  obtain ⟨o', h⟩ := v.exists_ends x d c s
  constructor
  · exact Ends.unmarkedResult_eq
  · intro ho
    rwa [← ho, h.unmarkedResult_eq]

theorem Executes.mem_commands {command : Command α ρ} {r : Except WireError ρ}
    (h : v.Executes x d c s command r) : command ∈ v.registry.commands := by
  obtain ⟨hr, -, -, -⟩ := h
  exact Registry.mem_of_resolve hr

theorem Ends.keys_nodup (hv : v.registry.WritesDistinct) {m : Document String}
    (h : v.Ends x d c s (.ok m)) : (Document.keys m).Nodup := by
  cases h with
  | success h hd => exact hv _ h.mem_commands _ _ hd

theorem Ends.tells (hv : v.registry.WritesDistinct) {t : ServiceState π}
    (h : v.Ends x d c t.processor o) : Document.Tells o (v.executeCommand x d c t).1 := by
  rw [executeCommand_fst, commandResult_eq, h.unmarkedResult_eq]
  cases o with
  | error e => exact Document.tells_replyDocument e
  | ok m => exact Document.tells_withOk (h.keys_nodup hv)

/-- Let the documents of results have distinct keys. A command ends in one way only, and the
document that it is answered with says in which: the code and the message of the error between no
other fields, or the document of the result as it is, with the mark of success behind it exactly if
it has no mark of its own. It always has one mark. -/
theorem executeCommand_tells (hv : v.registry.WritesDistinct) (x : Context) (d : Document String)
    (c : Connection) (s : ServiceState π) :
    (∃! o, v.Ends x d c s.processor o) ∧
      (∀ o, v.Ends x d c s.processor o → Document.Tells o (v.executeCommand x d c s).1) ∧
      (Document.keys (v.executeCommand x d c s).1).count "ok" = 1 := by
  have h : v.Ends x d c s.processor (v.unmarkedResult x d c s.processor) := ends_iff.2 rfl
  refine ⟨⟨_, h, fun o' h' => (ends_iff.1 h').symm⟩, fun o' h' => h'.tells hv, ?_⟩
  refine (h.tells hv).count_ok fun m hm => ?_
  rw [hm] at h
  exact h.keys_nodup hv

end Service

namespace Builtin

variable {ε δ : Type}

theorem resolve_of_mem {command : Command (Argument ε) (Outcome δ)} {key : String}
    (hc : command ∈ all) (hk : key ∈ command.names) (v : Value String) (es : Document String) :
    registry.resolve ((key, v) :: es) = .ok (command, key) := by
  have hm : command ∈ registry.commands.toList := built_registry.2 ▸ hc
  exact built_registry.1.consistent.resolve_eq_ok_iff.2 ⟨rfl, Array.mem_toList_iff.1 hm, hk⟩

theorem keys_of_document? {command : Command (Argument ε) (Outcome δ)}
    (hc : command ∈ registry.commands) {r : Outcome δ} {d : Document String}
    (h : command.document? r = some (.ok d)) :
    (Document.keys d).Nodup ∧ okField ∉ Document.keys d := by
  have hr : command.result r = .ok d := by rw [Command.result, h]
  obtain ⟨hd, ho⟩ := regular_result (mem_all hc) hr
  exact ⟨Document.keys_nodup hd.distinct, ho⟩

theorem writesDistinct_registry :
    (registry : Registry (Argument ε) (Outcome δ)).WritesDistinct :=
  fun _ hc _ _ h => (keys_of_document? hc h).1

end Builtin

namespace Service

def refusedConnection : Connection :=
  { Connection.fresh 1 (.v4 .localhost 5000) with
    lastError := some ⟨.commandNotSupported, "insert on db.c is not supported"⟩ }

theorem executeCommand_tells_refusedWrite :
    (Standalone.service .copy).registry.WritesDistinct ∧
      ((Standalone.service .copy).executeCommand (.new "db" (.v4 .localhost 5000))
        [("getlasterror", .scalar (.int32 1))] refusedConnection Standalone.fresh).1 =
        [("n", .scalar (.int64 0)), ("err", .scalar (.string "insert on db.c is not supported")),
          ("code", .scalar (.int32 115)), ("ok", .scalar (.double .one))] := by
  have hv : (Standalone.service .copy).registry.WritesDistinct := Builtin.writesDistinct_registry
  refine ⟨hv, ?_⟩
  obtain ⟨-, ht, -⟩ := executeCommand_tells hv (.new "db" (.v4 .localhost 5000))
    [("getlasterror", .scalar (.int32 1))] refusedConnection Standalone.fresh
  have hc : Builtin.getLastError ∈ Builtin.all (ε := Empty) (δ := Empty) := by simp [Builtin.all]
  have hr := Builtin.resolve_of_mem hc (List.mem_cons_of_mem _ List.mem_cons_self)
    (.scalar (.int32 1)) []
  have hx : (Standalone.service .copy).Executes (.new "db" (.v4 .localhost 5000))
      [("getlasterror", .scalar (.int32 1))] refusedConnection Standalone.fresh.processor
      Builtin.getLastError (.ok (.lastOutcome ⟨0, refusedConnection.lastError⟩)) :=
    .intro hr (allowed_of_open rfl) rfl rfl
  have hd := ht _ (.success hx rfl)
  generalize ((Standalone.service .copy).executeCommand _ _ _ _).1 = reply at hd ⊢
  cases hd with
  | kept ho => exact absurd ho (by decide)
  | marked _ => rfl

end Service

end DocumentServer
