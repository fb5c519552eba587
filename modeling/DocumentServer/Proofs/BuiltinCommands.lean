import DocumentServer.Proofs.CommandReplies

namespace DocumentServer

namespace Standalone

/-- The command documents that succeed. -/
inductive Answers (database : String) : Document String → Prop
  | ping (v : Value String) (es : Document String) : Answers database (("ping", v) :: es)
  | role {key : String} (hk : key = "isMaster" ∨ key = "ismaster") (v : Value String)
      (es : Document String) : Answers database ((key, v) :: es)
  | build {key : String} (hk : key = "buildInfo" ∨ key = "buildinfo") (v : Value String)
      (es : Document String) : Answers database ((key, v) :: es)
  | nonce (hx : database = "admin") (v : Value String) (es : Document String) :
      Answers database (("getnonce", v) :: es)
  | lastError {key : String} (hk : key = "getLastError" ∨ key = "getlasterror") (v : Value String)
      {es : Document String}
      (hw : ∀ w, Document.get? es "wtimeout" = some w → ∃ n, w = .scalar (.int32 n)) :
      Answers database ((key, v) :: es)

/-- The command documents that fail, with their errors. -/
inductive Rejects (database : String) : Document String → WireError → Prop
  | empty : Rejects database [] ⟨.commandNotFound, "no such command: empty document query"⟩
  | unknown {key : String} (hk : key ∉ ["ping", "isMaster", "ismaster", "buildInfo", "buildinfo",
        "getnonce", "dropIndexes", "deleteIndexes", "getLastError", "getlasterror"])
      (v : Value String) (es : Document String) :
      Rejects database ((key, v) :: es) ⟨.commandNotFound, s!"no such command: '{key}'"⟩
  | nonce (hx : database ≠ "admin") (v : Value String) (es : Document String) :
      Rejects database (("getnonce", v) :: es)
        ⟨.unauthorized, "getnonce may only be run against the admin database."⟩
  | timeout {key : String} (hk : key = "getLastError" ∨ key = "getlasterror") (v : Value String)
      {es : Document String} {w : Value String} (hw : Document.get? es "wtimeout" = some w)
      (hn : ∀ n, w ≠ .scalar (.int32 n)) : Rejects database ((key, v) :: es)
        ⟨.typeMismatch, s!"Expected integer type for field wtimeout. Found {w.tag.name}"⟩
  | collection {key : String} (hk : key = "dropIndexes" ∨ key = "deleteIndexes")
      {v : Value String} (hv : ∀ s, v ≠ .scalar (.string s)) (es : Document String) :
      Rejects database ((key, v) :: es)
        ⟨.typeMismatch, s!"Expected string type for field {key}. Found {v.tag.name}"⟩
  | noCollection {key : String} (hk : key = "dropIndexes" ∨ key = "deleteIndexes")
      (es : Document String) : Rejects database ((key, .scalar (.string "")) :: es)
        ⟨.invalidNamespace, "collection name must not be empty"⟩
  | noIndex {key : String} (hk : key = "dropIndexes" ∨ key = "deleteIndexes") {s : String}
      (hs : s ≠ "") {es : Document String} (hi : "index" ∉ Document.keys es) :
      Rejects database ((key, .scalar (.string s)) :: es) ⟨.noSuchKey, "index"⟩
  | index {key : String} (hk : key = "dropIndexes" ∨ key = "deleteIndexes") {s : String}
      (hs : s ≠ "") {es : Document String} {w : Value String}
      (hi : Document.get? es "index" = some w) (ht : ∀ t, w ≠ .scalar (.string t))
      (hd : ∀ d, w ≠ .document d) : Rejects database ((key, .scalar (.string s)) :: es)
        ⟨.typeMismatch,
          s!"Expected string or document type for field index. Found {w.tag.name}"⟩
  | space {key : String} (hk : key = "dropIndexes" ∨ key = "deleteIndexes") {s : String}
      (hs : s ≠ "") {es : Document String} {w : Value String}
      (hi : Document.get? es "index" = some w)
      (hw : (∃ t, w = .scalar (.string t)) ∨ ∃ d, w = .document d) :
      Rejects database ((key, .scalar (.string s)) :: es)
        ⟨.namespaceNotFound, s!"ns not found: {database}.{s}"⟩

end Standalone

namespace Document

variable {d : Document String} {key : String} {v : Value String}

theorem get?_cons (k : String) (v : Value String) (es : Document String) (key : String) :
    get? ((k, v) :: es) key = if k = key then some v else get? es key := by
  by_cases h : k = key <;> simp [get?, HasContent.content, h]

theorem fieldAs_of_some {α : Type} {expected : FieldType} {view : Value String → Option α}
    (h : get? d key = some v) : fieldAs expected view d key =
      match view v with
      | some a => .ok a
      | none => .error (.typeMismatch key expected v.tag) := by
  rw [fieldAs, field, h]
  rfl

theorem get?_eq_none_iff : get? d key = none ↔ key ∉ keys d := by
  rw [← contains_iff, contains]
  cases get? d key <;> simp

end Document

theorem WireError.replyDocument_injective : Function.Injective replyDocument := by
  intro e f h
  have hc := congrArg Document.errorCode? h
  rw [Document.errorCode?_replyDocument, Document.errorCode?_replyDocument] at hc
  have hm : e.message = f.message := by
    simp only [replyDocument, List.cons.injEq, Prod.mk.injEq, Value.scalar.injEq,
      Scalar.string.injEq, true_and, and_true] at h
    exact h.2
  obtain ⟨code, message⟩ := e
  obtain ⟨code', message'⟩ := f
  obtain rfl : code = code' := Option.some.inj hc
  obtain rfl : message = message' := hm
  rfl

namespace LastErrorOptions

variable {d : Document String} {w : Value String}

theorem exists_ofDocument (hw : ∀ w, Document.get? d "wtimeout" = some w →
    ∃ n, w = .scalar (.int32 n)) : ∃ o, ofDocument d = .ok o := by
  unfold ofDocument Document.orMissing
  cases hg : Document.get? d "wtimeout" with
  | none =>
    simp only [Document.contains, hg]
    exact ⟨_, rfl⟩
  | some w =>
    obtain ⟨n, rfl⟩ := hw w hg
    simp only [Document.contains, hg, Document.int32Field, Document.fieldAs_of_some hg]
    exact ⟨_, rfl⟩

theorem ofDocument_of_mismatch (hg : Document.get? d "wtimeout" = some w)
    (hn : ∀ n, w ≠ .scalar (.int32 n)) : ofDocument d =
      .error ⟨.typeMismatch, s!"Expected integer type for field wtimeout. Found {w.tag.name}"⟩ := by
  unfold ofDocument Document.orMissing Document.int32Field
  rw [Document.contains, hg, Option.isSome_some, if_pos rfl, Document.fieldAs_of_some hg]
  split
  next n he =>
    split at he
    next n => exact absurd rfl (hn n)
    next => cases he
  next => rfl

end LastErrorOptions

namespace DropIndexes

variable {d : Document String} {key : String}

theorem ofDocument_of_mismatch {v : Value String} (hg : Document.get? d key = some v)
    (hv : ∀ s, v ≠ .scalar (.string s)) : ofDocument d key =
      .error ⟨.typeMismatch, s!"Expected string type for field {key}. Found {v.tag.name}"⟩ := by
  have hs : v.asString? = none := by
    unfold Value.asString?
    split
    next t => exact absurd rfl (hv t)
    next => rfl
  simp only [ofDocument, Document.stringField, Document.fieldAs_of_some hg, hs, fieldOrWire]
  rfl

theorem ofDocument_of_string {s : String} (hg : Document.get? d key = some (.scalar (.string s))) :
    ofDocument d key =
      if s = "" then .error ⟨.invalidNamespace, "collection name must not be empty"⟩
      else do
        let v ← fieldOrWire (Document.field d "index")
        return ⟨s, ← IndexSelector.ofValue v⟩ := by
  simp only [ofDocument, Document.stringField, Document.fieldAs_of_some hg, Value.asString?,
    fieldOrWire]
  rfl

theorem ofDocument_of_ne {s : String} (hg : Document.get? d key = some (.scalar (.string s)))
    (hs : s ≠ "") : ofDocument d key =
      match Document.get? d "index" with
      | some v => (IndexSelector.ofValue v).map fun index => ⟨s, index⟩
      | none => .error ⟨.noSuchKey, "index"⟩ := by
  rw [ofDocument_of_string hg, if_neg hs, Document.field]
  cases Document.get? d "index" with
  | none => rfl
  | some v =>
    change (IndexSelector.ofValue v).bind (fun index => .ok (DropIndexes.mk s index)) =
      (IndexSelector.ofValue v).map (DropIndexes.mk s)
    cases IndexSelector.ofValue v <;> rfl

end DropIndexes

theorem IndexSelector.ofValue_of_mismatch {v : Value String} (ht : ∀ t, v ≠ .scalar (.string t))
    (hd : ∀ d, v ≠ .document d) : ofValue v = .error ⟨.typeMismatch,
      s!"Expected string or document type for field index. Found {v.tag.name}"⟩ := by
  unfold ofValue
  split
  next => exact absurd rfl (ht _)
  next => exact absurd rfl (ht _)
  next => exact absurd rfl (hd _)
  next => rfl

theorem IndexSelector.exists_ofValue {v : Value String}
    (hv : (∃ t, v = .scalar (.string t)) ∨ ∃ d, v = .document d) : ∃ i, ofValue v = .ok i := by
  obtain ⟨t, rfl⟩ | ⟨d, rfl⟩ := hv
  · by_cases ht : t = "*"
    · subst ht
      exact ⟨.all, rfl⟩
    · exact ⟨.name t, by simp [ofValue]⟩
  · exact ⟨.pattern d, rfl⟩

namespace Builtin

variable {ε δ : Type}

theorem resolve_of_notMem {key : String}
    (hk : ∀ command ∈ all (ε := ε) (δ := δ), key ∉ command.names) (v : Value String)
    (es : Document String) : (registry (ε := ε) (δ := δ)).resolve ((key, v) :: es) =
      .error ⟨.commandNotFound, s!"no such command: '{key}'"⟩ := by
  have hf : (registry (ε := ε) (δ := δ)).find? key = none :=
    built_registry.1.consistent.find?_eq_none_iff.2 fun command hc => hk command (mem_all hc)
  have hd : Document.firstKey? ((key, v) :: es) = some key := rfl
  simp only [Registry.resolve, hd, hf]

theorem names_all : (all (ε := ε) (δ := δ)).flatMap Command.names =
    ["ping", "isMaster", "ismaster", "buildInfo", "buildinfo", "getnonce", "dropIndexes",
      "deleteIndexes", "getLastError", "getlasterror"] := rfl

end Builtin

namespace Standalone

variable {ε δ : Type} {x : Context} {d : Document String} {e : WireError}

def serviceOf (strategy : Strategy) (seconds : Frame → Double) :
    Service (Argument ε) (Outcome δ) Surroundings :=
  ⟨Builtin.registry, processor, strategy, seconds⟩

variable {strategy : Strategy} {seconds : Frame → Double} {c : Connection} {s : Surroundings}

theorem executes_of_mem {command : Command (Argument ε) (Outcome δ)} {key : String}
    {v : Value String} {es : Document String} {a : Argument ε}
    {r : Except WireError (Outcome δ)} (hc : command ∈ Builtin.all) (hk : key ∈ command.names)
    (hx : command.adminOnly = true → x.database = "admin")
    (ha : command.argument ((key, v) :: es) key = .ok a)
    (he : (executors.execute command x a c s).1 = r) :
    (serviceOf strategy seconds).Executes x ((key, v) :: es) c s command r :=
  .intro (Builtin.resolve_of_mem hc hk v es) hx ha he

theorem exists_success {command : Command (Argument ε) (Outcome δ)} {key : String}
    {v : Value String} {es : Document String} {a : Argument ε} {r : Outcome δ}
    {m : Document String} (hc : command ∈ Builtin.all) (hk : key ∈ command.names)
    (hx : command.adminOnly = true → x.database = "admin")
    (ha : command.argument ((key, v) :: es) key = .ok a)
    (he : (executors.execute command x a c s).1 = .ok r)
    (hd : command.document? r = some (.ok m)) :
    ∃ m, (serviceOf (ε := ε) (δ := δ) strategy seconds).Ends x ((key, v) :: es) c s (.ok m) :=
  ⟨m, .success (executes_of_mem hc hk hx ha he) hd⟩

theorem get?_first (key : String) (v : Value String) (es : Document String) :
    Document.get? ((key, v) :: es) key = some v := by
  rw [Document.get?_cons, if_pos rfl]

theorem get?_index {key : String} (hk : key = "dropIndexes" ∨ key = "deleteIndexes")
    (v : Value String) (es : Document String) :
    Document.get? ((key, v) :: es) "index" = Document.get? es "index" := by
  rw [Document.get?_cons, if_neg (by rintro rfl; simp at hk)]

theorem get?_timeout {key : String} (hk : key = "getLastError" ∨ key = "getlasterror")
    (v : Value String) (es : Document String) :
    Document.get? ((key, v) :: es) "wtimeout" = Document.get? es "wtimeout" := by
  rw [Document.get?_cons, if_neg (by rintro rfl; simp at hk)]

theorem mem_names_lastError {key : String} (hk : key = "getLastError" ∨ key = "getlasterror") :
    key ∈ (Builtin.getLastError (ε := ε) (δ := δ)).names := by
  simpa [Command.names, Builtin.getLastError] using hk

theorem ends_of_answers (h : Answers x.database d) :
    ∃ m, (serviceOf (ε := ε) (δ := δ) strategy seconds).Ends x d c s (.ok m) := by
  cases h with
  | ping v es =>
    have hc : Builtin.ping ∈ Builtin.all (ε := ε) (δ := δ) := by simp [Builtin.all]
    exact exists_success hc List.mem_cons_self (Service.allowed_of_open rfl) rfl rfl rfl
  | @role key hk v es =>
    have hc : Builtin.isMaster ∈ Builtin.all (ε := ε) (δ := δ) := by simp [Builtin.all]
    have hn : key ∈ (Builtin.isMaster (ε := ε) (δ := δ)).names := by
      simpa [Command.names, Builtin.isMaster, Builtin.plain] using hk
    exact exists_success hc hn (Service.allowed_of_open rfl) rfl rfl rfl
  | @build key hk v es =>
    have hc : Builtin.buildInfo ∈ Builtin.all (ε := ε) (δ := δ) := by simp [Builtin.all]
    have hn : key ∈ (Builtin.buildInfo (ε := ε) (δ := δ)).names := by
      simpa [Command.names, Builtin.buildInfo, Builtin.plain] using hk
    exact exists_success hc hn (Service.allowed_of_open rfl) rfl rfl rfl
  | nonce hx v es =>
    have hc : Builtin.getNonce ∈ Builtin.all (ε := ε) (δ := δ) := by simp [Builtin.all]
    exact exists_success hc List.mem_cons_self (fun _ => hx) rfl rfl rfl
  | @lastError key hk v es hw =>
    have hc : Builtin.getLastError ∈ Builtin.all (ε := ε) (δ := δ) := by simp [Builtin.all]
    rw [← get?_timeout hk v] at hw
    obtain ⟨o, ho⟩ := LastErrorOptions.exists_ofDocument hw
    have ha : (Builtin.getLastError (ε := ε) (δ := δ)).argument ((key, v) :: es) key =
        .ok (.lastError o) := by
      simp only [Builtin.getLastError, ho]
      rfl
    exact exists_success hc (mem_names_lastError hk) (Service.allowed_of_open rfl) ha rfl rfl

theorem ends_of_argument {command : Command (Argument ε) (Outcome δ)} {key : String}
    {v : Value String} {es : Document String} (hc : command ∈ Builtin.all)
    (hk : key ∈ command.names) (hx : command.adminOnly = true → x.database = "admin")
    (ha : command.argument ((key, v) :: es) key = .error e) :
    (serviceOf (ε := ε) (δ := δ) strategy seconds).Ends x ((key, v) :: es) c s (.error e) :=
  .argument (Builtin.resolve_of_mem hc hk v es) hx ha

theorem ends_dropIndexes {key : String} (hk : key = "dropIndexes" ∨ key = "deleteIndexes")
    {v : Value String} {es : Document String} (he :
      DropIndexes.ofDocument ((key, v) :: es) key = .error e ∨
      ∃ m, DropIndexes.ofDocument ((key, v) :: es) key = .ok m ∧
        e = ⟨.namespaceNotFound, s!"ns not found: {x.database}.{m.collection}"⟩) :
    (serviceOf (ε := ε) (δ := δ) strategy seconds).Ends x ((key, v) :: es) c s (.error e) := by
  have hc : Builtin.dropIndexes ∈ Builtin.all (ε := ε) (δ := δ) := by simp [Builtin.all]
  have hn : key ∈ (Builtin.dropIndexes (ε := ε) (δ := δ)).names := by
    simpa [Command.names, Builtin.dropIndexes] using hk
  have ha : (Builtin.dropIndexes (ε := ε) (δ := δ)).argument ((key, v) :: es) key =
      (DropIndexes.ofDocument ((key, v) :: es) key).map .dropIndexes := rfl
  obtain he | ⟨m, hm, rfl⟩ := he
  · rw [he] at ha
    exact ends_of_argument hc hn (Service.allowed_of_open rfl) ha
  · rw [hm] at ha
    exact .execution (executes_of_mem hc hn (Service.allowed_of_open rfl) ha rfl)

theorem ends_of_rejects (h : Rejects x.database d e) :
    (serviceOf (ε := ε) (δ := δ) strategy seconds).Ends x d c s (.error e) := by
  cases h with
  | empty => exact .unresolved rfl
  | unknown hk v es =>
    refine .unresolved (Builtin.resolve_of_notMem (fun command hc hn => hk ?_) v es)
    rw [← Builtin.names_all (ε := ε) (δ := δ)]
    exact List.mem_flatMap.2 ⟨command, hc, hn⟩
  | nonce hx v es =>
    have hc : Builtin.getNonce ∈ Builtin.all (ε := ε) (δ := δ) := by simp [Builtin.all]
    have hr := Builtin.resolve_of_mem hc List.mem_cons_self v es
    have ha : (Builtin.getNonce (ε := ε) (δ := δ)).adminOnly = true := rfl
    exact .unauthorized hr ha hx
  | @timeout key hk v es w hw hn =>
    have hc : Builtin.getLastError ∈ Builtin.all (ε := ε) (δ := δ) := by simp [Builtin.all]
    rw [← get?_timeout hk v] at hw
    refine ends_of_argument hc (mem_names_lastError hk) (Service.allowed_of_open rfl) ?_
    simp only [Builtin.getLastError, LastErrorOptions.ofDocument_of_mismatch hw hn]
    rfl
  | @collection key hk v hv es =>
    exact ends_dropIndexes hk (.inl (DropIndexes.ofDocument_of_mismatch (get?_first key v es) hv))
  | @noCollection key hk es =>
    refine ends_dropIndexes hk (.inl ?_)
    rw [DropIndexes.ofDocument_of_string (get?_first key _ es), if_pos rfl]
  | @noIndex key hk s hs es hi =>
    refine ends_dropIndexes hk (.inl ?_)
    rw [DropIndexes.ofDocument_of_ne (get?_first key _ es) hs, get?_index hk,
      Document.get?_eq_none_iff.2 hi]
  | @index key hk s hs es w hi ht hd =>
    refine ends_dropIndexes hk (.inl ?_)
    rw [DropIndexes.ofDocument_of_ne (get?_first key _ es) hs, get?_index hk, hi]
    simp only [IndexSelector.ofValue_of_mismatch ht hd]
    rfl
  | @space key hk s hs es w hi hw =>
    obtain ⟨i, ho⟩ := IndexSelector.exists_ofValue hw
    refine ends_dropIndexes hk (.inr ⟨⟨s, i⟩, ?_, rfl⟩)
    rw [DropIndexes.ofDocument_of_ne (get?_first key _ es) hs, get?_index hk, hi]
    simp only [ho]
    rfl

/-- Every command document that has one of the names for dropping indexes is rejected. -/
theorem exists_rejects_dropIndexes (database : String) {key : String}
    (hk : key = "dropIndexes" ∨ key = "deleteIndexes") (v : Value String)
    (es : Document String) : ∃ e, Rejects database ((key, v) :: es) e := by
  by_cases hv : ∃ s, v = .scalar (.string s)
  · obtain ⟨s, rfl⟩ := hv
    by_cases hs : s = ""
    · subst hs
      exact ⟨_, .noCollection hk es⟩
    · cases hi : Document.get? es "index" with
      | none => exact ⟨_, .noIndex hk hs (Document.get?_eq_none_iff.1 hi)⟩
      | some w =>
        by_cases hw : (∃ t, w = .scalar (.string t)) ∨ ∃ d, w = .document d
        · exact ⟨_, .space hk hs hi hw⟩
        · rw [not_or] at hw
          exact ⟨_, .index hk hs hi (not_exists.1 hw.1) (not_exists.1 hw.2)⟩
  · exact ⟨_, .collection hk (not_exists.1 hv) es⟩

theorem answers_or_rejects_lastError (database : String) {key : String}
    (hk : key = "getLastError" ∨ key = "getlasterror") (v : Value String)
    (es : Document String) :
    Answers database ((key, v) :: es) ∨ ∃ e, Rejects database ((key, v) :: es) e := by
  by_cases hw : ∀ w, Document.get? es "wtimeout" = some w → ∃ n, w = .scalar (.int32 n)
  · exact .inl (.lastError hk v hw)
  · obtain ⟨w, hw⟩ := not_forall.1 hw
    obtain ⟨hw, hn⟩ := Classical.not_imp.1 hw
    exact .inr ⟨_, .timeout hk v hw (not_exists.1 hn)⟩

/-- There is no other command document. -/
theorem answers_or_rejects (database : String) (d : Document String) :
    Answers database d ∨ ∃ e, Rejects database d e := by
  cases d with
  | nil => exact .inr ⟨_, .empty⟩
  | cons e es =>
    obtain ⟨key, v⟩ := e
    by_cases hk : key ∈ ["ping", "isMaster", "ismaster", "buildInfo", "buildinfo", "getnonce",
        "dropIndexes", "deleteIndexes", "getLastError", "getlasterror"]
    · simp only [List.mem_cons, List.not_mem_nil, or_false] at hk
      rcases hk with rfl | hk | hk | hk | hk | rfl | hk | hk | hk | hk
      · exact .inl (.ping v es)
      · exact .inl (.role (.inl hk) v es)
      · exact .inl (.role (.inr hk) v es)
      · exact .inl (.build (.inl hk) v es)
      · exact .inl (.build (.inr hk) v es)
      · by_cases hx : database = "admin"
        · exact .inl (.nonce hx v es)
        · exact .inr ⟨_, .nonce hx v es⟩
      · exact .inr (exists_rejects_dropIndexes database (.inl hk) v es)
      · exact .inr (exists_rejects_dropIndexes database (.inr hk) v es)
      · exact answers_or_rejects_lastError database (.inl hk) v es
      · exact answers_or_rejects_lastError database (.inr hk) v es
    · exact .inr ⟨_, .unknown hk v es⟩

/-- What succeeds is marked as a success, and by nothing else. -/
theorem reply_of_answers (h : Answers x.database d) (c : Connection)
    (t : ServiceState Surroundings) : ∃ r, "ok" ∉ Document.keys r ∧
      ((serviceOf (ε := ε) (δ := δ) strategy seconds).executeCommand x d c t).1 =
        r ++ [("ok", .scalar (.double .one))] := by
  obtain ⟨m, hm⟩ : ∃ m, (serviceOf (ε := ε) (δ := δ) strategy seconds).Ends x d c t.processor
      (.ok m) := ends_of_answers h
  have ht := hm.tells Builtin.writesDistinct_registry
  have ho : "ok" ∉ Document.keys m := by
    cases hm with
    | success h hd => exact (Builtin.keys_of_document? h.mem_commands hd).2
  generalize ((serviceOf strategy seconds).executeCommand x d c t).1 = reply at ht ⊢
  cases ht with
  | kept h => exact absurd h ho
  | marked _ => exact ⟨m, ho, rfl⟩

theorem reply_of_rejects (h : Rejects x.database d e) (c : Connection)
    (t : ServiceState Surroundings) :
    ((serviceOf (ε := ε) (δ := δ) strategy seconds).executeCommand x d c t).1 =
      e.replyDocument := by
  have he : (serviceOf (ε := ε) (δ := δ) strategy seconds).Ends x d c t.processor (.error e) :=
    ends_of_rejects h
  rw [Service.executeCommand_fst, Service.commandResult_eq, he.unmarkedResult_eq]
  rfl

theorem Rejects.code_notMem {database : String} (h : Rejects database d e) :
    e.code ∉ [.internalError, .failedToParse, .commandNotSupported] := by
  cases h <;> simp

theorem rejects_of_runCommand {t : ServiceState Surroundings}
    (h : ((serviceOf (ε := ε) (δ := δ) strategy seconds).runCommand x d c t).1 = .error e) :
    Rejects x.database d e := by
  rw [Service.runCommand_fst, Service.commandResult_eq] at h
  obtain ha | ⟨e', hr⟩ := answers_or_rejects x.database d
  · obtain ⟨m, hm⟩ : ∃ m, (serviceOf (ε := ε) (δ := δ) strategy seconds).Ends x d c t.processor
        (.ok m) := ends_of_answers ha
    rw [hm.unmarkedResult_eq] at h
    cases h
  · have he : (serviceOf (ε := ε) (δ := δ) strategy seconds).Ends x d c t.processor (.error e') :=
      ends_of_rejects hr
    rw [he.unmarkedResult_eq] at h
    cases h
    exact hr

/-- A server without storage runs every command document that is to succeed with success, marked by
the last field alone, and answers every other one with the one error that it has. None of these
errors tells of an argument or a result of the wrong kind, of a result that was not written, or of a
command that nobody runs. -/
theorem executeCommand_builtin (strategy : Strategy) (seconds : Frame → Double) (x : Context)
    (d : Document String) (c : Connection) (s : ServiceState Surroundings) :
    let v : Service (Argument ε) (Outcome δ) Surroundings := serviceOf strategy seconds
    (Answers x.database d ↔ ∃ r, "ok" ∉ Document.keys r ∧
      (v.executeCommand x d c s).1 = r ++ [("ok", .scalar (.double .one))]) ∧
    (∀ e, Rejects x.database d e ↔ (v.executeCommand x d c s).1 =
      [("code", .scalar (.int32 (Int32.ofInt e.code.number))),
        ("errmsg", .scalar (.string e.message)), ("ok", .scalar (.double .zero))]) ∧
    (Answers x.database d ∨ ∃ e, Rejects x.database d e) ∧
    ∀ e, (v.runCommand x d c s).1 = .error e →
      e.code ∉ [.internalError, .failedToParse, .commandNotSupported] := by
  intro v
  have hn (r : Document String) (e : WireError) :
      r ++ [("ok", .scalar (.double .one))] ≠ e.replyDocument := by
    intro h
    have he := congrArg Document.errorCode? h
    rw [Document.errorCode?_replyDocument] at he
    exact Option.some_ne_none _ (he.symm.trans (Document.errorCode?_append r))
  have hx := answers_or_rejects x.database d
  refine ⟨⟨fun h => reply_of_answers h c s, ?_⟩, fun e => ⟨fun h => reply_of_rejects h c s, ?_⟩,
    hx, fun e he => (rejects_of_runCommand he).code_notMem⟩
  · rintro ⟨r, -, hr⟩
    refine hx.resolve_right ?_
    rintro ⟨e, he⟩
    exact hn r e (hr.symm.trans (reply_of_rejects he c s))
  · intro he
    obtain h | ⟨e', h⟩ := hx
    · obtain ⟨r, -, hr⟩ := reply_of_answers (ε := ε) (δ := δ) h c s
      exact absurd (hr.symm.trans he) (hn r e)
    · have h' := (reply_of_rejects h c s).symm.trans he
      rwa [← WireError.replyDocument_injective h']

end Standalone

end DocumentServer
