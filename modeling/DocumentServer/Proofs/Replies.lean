import DocumentServer.Proofs.Standalone

namespace DocumentServer

variable {α ρ π : Type}

theorem ReplyFlags.queryFailure_withQueryFailure : none.withQueryFailure.queryFailure = true := by
  decide

namespace Reply

def Reports (r : Reply) (e : WireError) : Prop :=
  r.flags.queryFailure = true ∧ r.documents =
    [[("code", .scalar (.int32 (Int32.ofInt e.code.number))),
      ("errmsg", .scalar (.string e.message)), ("ok", .scalar (.double .zero))]]

def Gives (r : Reply) (d : Document String) : Prop :=
  r.flags.queryFailure = false ∧ r.cursorId = 0 ∧ r.documents = [d]

theorem reports_failure (e : WireError) : (failure e.replyDocument).Reports e :=
  ⟨ReplyFlags.queryFailure_withQueryFailure, rfl⟩

theorem gives_single (d : Document String) : (single d).Gives d :=
  have h : ReplyFlags.none.queryFailure = false := by decide
  ⟨h, rfl, rfl⟩

theorem encode_failure {e : WireError} (h : e.message.utf8ByteSize + 40 ≤ maxDocumentSize)
    (id responseTo : Int32) : ∃ b, (failure e.replyDocument).encode id responseTo = .ok b := by
  obtain ⟨c, hc⟩ := WireError.encode_replyDocument h
  exact encode_of_documents rfl hc id responseTo

end Reply

/-- A frame that a service was given, of one of its clients, and what came out. -/
structure Exchange (π : Type) where
  client : Nat
  frame : Frame
  connection : Connection
  state : ServiceState π
  outcome : Except (Stop MessageError) (Option ByteArray)

namespace Exchange

def answer? (x : Exchange π) : Option (Exchange π × ByteArray) :=
  match x.outcome with
  | .ok (some b) => some (x, b)
  | _ => none

def answers (xs : List (Exchange π)) : List (Exchange π × ByteArray) := xs.filterMap answer?

def parsed (x : Exchange π) (v : Service α ρ π) : Except MessageError Request :=
  (Request.parse v.strategy x.frame x.state.pool).1

def due (x : Exchange π) (v : Service α ρ π) : Option Reply :=
  v.due x.frame x.connection.recordRequest x.state.pool x.state.processor

/-- No text stops the reply that is due; sizes in memory are machine words. -/
def Writable (x : Exchange π) (v : Service α ρ π) : Prop :=
  ∀ r, x.due v = some r → r.volume < 2 ^ 64 ∧ ∀ d ∈ r.documents, d.Writable

/-- What a reply has to say. In place of a document that is too large to be sent, the client is told
so. -/
structure AnsweredBy (x : Exchange π) (v : Service α ρ π) (r : Reply) : Prop where
  malformed {e b} (h : x.parsed v = .error e) (hb : e.toWire.replyDocument.encode = .ok b) :
    r.Reports e.toWire
  query {q e b} (h : x.parsed v = .ok (.query q)) (hq : q.isCommand = false)
    (he : (v.processor.query (Service.context x.connection q.space q.options.slaveOk) q
      x.connection.recordRequest x.state.processor).1 = .error e)
    (hb : e.replyDocument.encode = .ok b) : r.Reports e
  getMore {q e b} (h : x.parsed v = .ok (.getMore q))
    (he : (v.processor.getMore (Service.context x.connection q.space true) q
      x.connection.recordRequest x.state.processor).1 = .error e)
    (hb : e.replyDocument.encode = .ok b) : r.Reports e
  command {q d b} (h : x.parsed v = .ok (.query q)) (hq : q.isCommand = true)
    (hd : Service.documentOf (v.commandResult
      (Service.context x.connection q.space q.options.slaveOk) q.query
      x.connection.recordRequest x.state.processor) = d)
    (hb : d.encode = .ok b) : r.Gives d
  unchanged {r₀ b} (h : x.due v = some r₀)
    (hb : r₀.encode x.state.nextReplyId x.frame.requestId = .ok b) : r = r₀
  refused {r₀ e} (h : x.due v = some r₀)
    (he : r₀.encode x.state.nextReplyId x.frame.requestId = .error (.error e)) :
    r.Reports (Service.notEncoded e)

end Exchange

namespace Service

variable {v : Service α ρ π}

/-- The exchanges of a run. Frames of different clients may come in any order, and every client
keeps the connection that its last frame left. -/
def exchanges (v : Service α ρ π) :
    List (Nat × Frame) → (Nat → Connection) → ServiceState π → List (Exchange π)
  | [], _, _ => []
  | (client, f) :: fs, cs, s =>
    let r := v.dispatch f (cs client) s
    ⟨client, f, cs client, s, r.1⟩ :: exchanges v fs (Function.update cs client r.2.1) r.2.2

def after (v : Service α ρ π) :
    List (Nat × Frame) → (Nat → Connection) → ServiceState π → (Nat → Connection) × ServiceState π
  | [], cs, s => (cs, s)
  | (client, f) :: fs, cs, s =>
    let r := v.dispatch f (cs client) s
    after v fs (Function.update cs client r.2.1) r.2.2

/-- Whether the error about a reply that cannot be encoded leaves room for the rest of its
document. -/
def Tellable (e : MessageError) : Prop := (notEncoded e).message.utf8ByteSize + 40 ≤ maxDocumentSize

theorem tellable_of_size {e : MessageError} {n : Nat} (hn : n < 10 ^ 20)
    (he : e = .tooLarge n ∨ e = .encode (.documentTooLarge n)) : Tellable e := by
  have hl := length_notEncoded hn he
  have hs := utf8ByteSize_le (notEncoded e).message
  rw [Tellable, maxDocumentSize]
  omega

/-- Without zero bytes, the client of a reply that cannot be sent can be told so. -/
theorem encode_failure_of_error {r : Reply} {id responseTo : Int32} {e : MessageError}
    (hd : ∀ d ∈ r.documents, d.NulFree) (hm : r.volume < 2 ^ 64)
    (h : r.encode id responseTo = .error (.error e)) :
    ∃ b, (Reply.failure (notEncoded e).replyDocument).encode id responseTo = .ok b := by
  obtain ⟨n, hn, hs⟩ := Reply.size_of_error hd h
  exact Reply.encode_failure (tellable_of_size (by omega) hs) id responseTo

theorem exists_of_commandResult {x : Context} {d d' : Document String} {c : Connection} {s : π}
    (h : v.commandResult x d c s = .ok d') :
    ∃ command ∈ v.registry.commands, ∃ a r d'',
      (v.processor.execute command x a c s).1 = .ok r ∧ command.result r = .ok d'' ∧
        d' = d''.withOk := by
  obtain ⟨⟨command, calledBy⟩, hf, h⟩ := Grammar.exists_of_bind_eq_ok h
  dsimp only at h
  split at h
  next => cases h
  next =>
    obtain ⟨a, -, h⟩ := Grammar.exists_of_bind_eq_ok h
    obtain ⟨r, hr, h⟩ := Grammar.exists_of_bind_eq_ok h
    cases hd : command.result r with
    | error e => rw [hd] at h; cases h
    | ok d'' =>
      rw [hd] at h
      cases h
      exact ⟨command, Registry.mem_of_resolve hf, a, r, d'', hr, hd, rfl⟩

/-- All that a reply can be: the document of an error, alone or as that of a command, what the
processor gives, or the result of a command. -/
theorem due_cases {P : Reply → Prop} (failed : ∀ e : WireError, P (.failure e.replyDocument))
    (refused : ∀ e : WireError, P (.single e.replyDocument))
    (query : ∀ {x q c s r}, (v.processor.query x q c s).1 = .ok r → P r)
    (getMore : ∀ {x q c s r}, (v.processor.getMore x q c s).1 = .ok r → P r)
    (execute : ∀ {command x a c s r d}, command ∈ v.registry.commands →
      (v.processor.execute command x a c s).1 = .ok r → command.result r = .ok d →
        P (.single d.withOk))
    {f : Frame} {c : Connection} {p : Pool} {s : π} {r : Reply} (h : v.due f c p s = some r) :
    P r := by
  have hr {a : Except WireError Reply} (ha : ∀ {r}, a = .ok r → P r) : P (replyOf a) := by
    cases a with
    | ok r => exact ha rfl
    | error e => exact failed e
  unfold due at h
  split at h
  next e _ =>
    split at h
    next =>
      cases h
      exact failed e.toWire
    next => cases h
  next q _ =>
    dsimp only at h
    split at h
    next =>
      cases h
      cases hd : v.commandResult (context c q.space q.options.slaveOk) q.query c s with
      | error e => exact refused e
      | ok d =>
        obtain ⟨command, hc, a, r, d', hr, hd', rfl⟩ := exists_of_commandResult hd
        exact execute hc hr hd'
    next =>
      cases h
      exact hr query
  next q _ =>
    cases h
    exact hr getMore
  next => cases h

theorem nulFree_due (hv : v.NulFree) {f : Frame} {c : Connection} {p : Pool} {s : π} {r : Reply}
    (h : v.due f c p s = some r) : ∀ d ∈ r.documents, d.NulFree :=
  have ho : Passage.NulFree (.terminated .key okField) :=
    Passage.nulFree_terminated_iff.2 (by decide)
  due_cases (fun e => List.forall_mem_singleton.2 e.nulFree_replyDocument)
    (fun e => List.forall_mem_singleton.2 e.nulFree_replyDocument) hv.query hv.getMore
    (fun hc hr hd => List.forall_mem_singleton.2 ((hv.execute hc hr hd).withOk ho)) h

theorem nextReplyId_heard (f : Frame) (c : Connection) (s : ServiceState π) :
    (v.heard f c s).2.nextReplyId = s.nextReplyId :=
  (stable_nextReplyId v).respond f _ _

theorem nextReplyId_dispatch (f : Frame) (c : Connection) (s : ServiceState π) :
    (v.dispatch f c s).2.2.nextReplyId =
      if f.opcode.canReply then s.nextReplyId + 1 else s.nextReplyId := by
  rw [← due_isSome (v := v) f c.recordRequest s.pool s.processor]
  cases h : v.due f c.recordRequest s.pool s.processor with
  | none =>
    rw [dispatch_of_none h]
    exact nextReplyId_heard f c s
  | some r =>
    rw [dispatch_of_some h]
    exact nextReplyId_encodeReply.trans (congrArg (· + 1) (nextReplyId_heard f c s))

theorem dispatch_fst_of_due {f : Frame} {c : Connection} {s : ServiceState π} {r : Reply}
    (h : v.due f c.recordRequest s.pool s.processor = some r) :
    (v.dispatch f c s).1 = match r.encode s.nextReplyId f.requestId with
      | .ok b => .ok (some b)
      | .error .overflow => .error .overflow
      | .error (.error e) =>
        ((Reply.failure (notEncoded e).replyDocument).encode s.nextReplyId f.requestId).map
          some := by
  rw [dispatch_of_some h, ← nextReplyId_heard (v := v) f c s]
  cases he : r.encode (v.heard f c s).2.nextReplyId f.requestId with
  | ok b => rw [encodeReply_of_ok he]; rfl
  | error t =>
    cases t with
    | error e => rw [encodeReply_of_error he]
    | overflow => rw [encodeReply_of_overflow he]; rfl

/-- A reply is sent if no text stops it, or the client is told that it is too large. -/
theorem dispatch_of_writable {f : Frame} {c : Connection} {s : ServiceState π} {r₀ : Reply}
    (h : v.due f c.recordRequest s.pool s.processor = some r₀)
    (hw : ∀ d ∈ r₀.documents, d.Writable) (hm : r₀.volume < 2 ^ 64) :
    ∃ r b, (v.dispatch f c s).1 = .ok (some b) ∧ r.encode s.nextReplyId f.requestId = .ok b ∧
      (∀ {b}, r₀.encode s.nextReplyId f.requestId = .ok b → r = r₀) ∧
      ∀ {e}, r₀.encode s.nextReplyId f.requestId = .error (.error e) →
        r.Reports (notEncoded e) := by
  rw [dispatch_fst_of_due h]
  cases he : r₀.encode s.nextReplyId f.requestId with
  | ok b => exact ⟨r₀, b, rfl, he, fun _ => rfl, nofun⟩
  | error t =>
    cases t with
    | overflow =>
      obtain ⟨d, hd, ho⟩ := Reply.overflow_of_encode he
      obtain ⟨n, hn⟩ := (hw d hd).error_of_encode ho
      cases hn
    | error e =>
      obtain ⟨b, hb⟩ := encode_failure_of_error (fun d hd => (hw d hd).nulFree) hm he
      refine ⟨_, b, by dsimp only; rw [hb]; rfl, hb, nofun, fun h => ?_⟩
      cases h
      exact Reply.reports_failure _

end Service

namespace Exchange

variable {v : Service α ρ π} {x : Exchange π} {r : Reply}

/-- The reply that is due, or what is told in its place, says what it has to say. -/
theorem answeredBy_of_due {r₀ : Reply} (hd : x.due v = some r₀)
    (h : ∀ {b}, r₀.encode x.state.nextReplyId x.frame.requestId = .ok b → r = r₀)
    (he : ∀ {e}, r₀.encode x.state.nextReplyId x.frame.requestId = .error (.error e) →
      r.Reports (Service.notEncoded e)) :
    x.AnsweredBy v r := by
  have ho : x.frame.opcode.canReply = true := by
    rw [← Service.due_isSome (v := v) x.frame x.connection.recordRequest x.state.pool
      x.state.processor]
    exact Option.isSome_of_eq_some hd
  -- a reply of one document is sent if this can be written
  have hs {q : Reply} {d : Document String} {b : ByteArray} (hq : x.due v = some q)
      (hd' : q.documents = [d]) (hb : d.encode = .ok b) : r = q := by
    obtain rfl := Option.some.inj (hd.symm.trans hq)
    obtain ⟨c, hc⟩ := Reply.encode_of_documents hd' hb x.state.nextReplyId x.frame.requestId
    exact h hc
  have hf {e : WireError} {b : ByteArray} (hq : x.due v = some (.failure e.replyDocument))
      (hb : e.replyDocument.encode = .ok b) : r.Reports e := by
    rw [hs hq rfl hb]
    exact Reply.reports_failure e
  have hp {q : Except MessageError Request} (hq : x.parsed v = q) :
      (Request.parse v.strategy x.frame x.state.pool).1 = q := hq
  refine ⟨fun hq hb => hf ?_ hb, fun hq hc hr hb => hf ?_ hb, fun hq hr hb => hf ?_ hb,
    fun {q d b} hq hc hr hb => ?_, fun {q b} hq hb => ?_, fun {q e} hq hb => ?_⟩
  · simp only [due, Service.due, hp hq, ho, if_true]
  · simp only [due, Service.due, hp hq, hc, Bool.false_eq_true, if_false]
    exact congrArg (some ∘ Service.replyOf) hr
  · simp only [due, Service.due, hp hq]
    exact congrArg (some ∘ Service.replyOf) hr
  · have hq : x.due v = some (.single d) := by
      simp only [due, Service.due, hp hq, hc, if_true]
      exact congrArg (some ∘ Reply.single) hr
    rw [hs hq rfl hb]
    exact Reply.gives_single d
  · cases hd.symm.trans hq
    exact h hb
  · cases hd.symm.trans hq
    exact he hb

end Exchange

namespace Service

variable {v : Service α ρ π} {fs : List (Nat × Frame)} {cs : Nat → Connection}
  {s : ServiceState π} {x : Exchange π}

theorem frames_exchanges (v : Service α ρ π) (fs : List (Nat × Frame)) (cs : Nat → Connection)
    (s : ServiceState π) : (v.exchanges fs cs s).map (fun x => (x.client, x.frame)) = fs := by
  induction fs generalizing cs s with
  | nil => rfl
  | cons f fs ih => exact congrArg (f :: ·) (ih _ _)

theorem outcome_of_mem (h : x ∈ v.exchanges fs cs s) :
    x.outcome = (v.dispatch x.frame x.connection x.state).1 := by
  induction fs generalizing cs s with
  | nil => cases h
  | cons f fs ih =>
    rcases List.mem_cons.1 h with rfl | h
    · rfl
    · exact ih h

/-- A frame that is not to be answered gets no answer. -/
theorem outcome_of_not_canReply (h : x ∈ v.exchanges fs cs s)
    (ho : x.frame.opcode.canReply = false) : x.outcome = .ok none := by
  have hd : x.due v = none := by
    rw [← Option.not_isSome_iff_eq_none, Exchange.due, due_isSome, ho]
    exact Bool.false_ne_true
  rw [outcome_of_mem h, dispatch_of_none hd]

/-- A frame that is to be answered gets one answer, under the id that is next when it comes. -/
theorem outcome_of_canReply (h : x ∈ v.exchanges fs cs s) (hw : x.Writable v)
    (ho : x.frame.opcode.canReply = true) :
    ∃ r b, x.outcome = .ok (some b) ∧ x.AnsweredBy v r ∧
      r.encode x.state.nextReplyId x.frame.requestId = .ok b := by
  obtain ⟨r₀, hd⟩ : ∃ r₀, x.due v = some r₀ := by
    rw [← Option.isSome_iff_exists, Exchange.due, due_isSome, ho]
  obtain ⟨hm, hw⟩ := hw r₀ hd
  obtain ⟨r, b, hb, hr, hu, he⟩ := dispatch_of_writable hd hw hm
  exact ⟨r, b, (outcome_of_mem h).trans hb, Exchange.answeredBy_of_due hd hu he, hr⟩

/-- No id is left out and none is used twice: the answers before one are as many as the ids. -/
theorem nextReplyId_of_answers {k : Nat} {b : ByteArray}
    (hw : ∀ x ∈ v.exchanges fs cs s, x.Writable v)
    (h : (Exchange.answers (v.exchanges fs cs s))[k]? = some (x, b)) :
    x.state.nextReplyId = s.nextReplyId + Int32.ofNat k ∧
      x ∈ v.exchanges fs cs s ∧ x.outcome = .ok (some b) := by
  induction fs generalizing cs s k with
  | nil => cases h
  | cons f fs ih =>
    obtain ⟨client, f⟩ := f
    have hn := nextReplyId_dispatch (v := v) f (cs client) s
    have hw' := fun y hy => hw y (List.mem_cons_of_mem _ hy)
    let y : Exchange π := ⟨client, f, cs client, s, (v.dispatch f (cs client) s).1⟩
    have hc : v.exchanges ((client, f) :: fs) cs s = y :: v.exchanges fs
      (Function.update cs client (v.dispatch f (cs client) s).2.1)
      (v.dispatch f (cs client) s).2.2 := rfl
    have hmem : y ∈ v.exchanges ((client, f) :: fs) cs s := List.mem_cons_self
    rw [hc, Exchange.answers, List.filterMap_cons] at h
    rw [hc]
    cases ho : f.opcode.canReply with
    | false =>
      have hy : y.answer? = none := by
        rw [Exchange.answer?, outcome_of_not_canReply hmem ho]
      rw [hy] at h
      obtain ⟨hk, hx, hb⟩ := ih hw' h
      rw [hn, ho] at hk
      exact ⟨hk, List.mem_cons_of_mem _ hx, hb⟩
    | true =>
      obtain ⟨-, c, hb, -⟩ := outcome_of_canReply hmem (hw y hmem) ho
      have hy : y.answer? = some (y, c) := by
        rw [Exchange.answer?, hb]
      rw [hy] at h
      cases k with
      | zero =>
        obtain ⟨hx, hc⟩ := Prod.mk.inj (Option.some.inj h)
        rw [← hx, ← hc]
        exact ⟨(Int32.add_zero _).symm, List.mem_cons_self, hb⟩
      | succ k =>
        obtain ⟨hk, hx, hb⟩ := ih hw' h
        rw [hn, ho, if_pos rfl, Int32.add_assoc] at hk
        refine ⟨hk.trans ?_, List.mem_cons_of_mem _ hx, hb⟩
        rw [Int32.ofNat_add, Int32.add_comm (Int32.ofNat k)]
        rfl

/-- Let a service answer frames of any clients, in any order, with a processor whose replies no text
stops. Every query and every request for more gets one answer, every other frame gets none, and no
connection has to be closed. The answers are numbered from one on, in 32 bits, and each is a single
frame in answer to its request that says what became of it. -/
theorem exchanges_answered {xs : List (Exchange π)} (hs : s.nextReplyId = 1)
    (hx : v.exchanges fs cs s = xs) (hw : ∀ x ∈ xs, x.Writable v) :
    xs.map (fun x => (x.client, x.frame)) = fs ∧
      (∀ x ∈ xs, if x.frame.opcode = .query ∨ x.frame.opcode = .getMore
        then ∃ b, x.outcome = .ok (some b) else x.outcome = .ok none) ∧
      ∀ k x b, (Exchange.answers xs)[k]? = some (x, b) →
        ∃ r body, x.AnsweredBy v r ∧ r.body = .ok body ∧
          Frame.split? b =
            .ok (some (⟨Int32.ofNat (k + 1), x.frame.requestId, .reply, body⟩, .empty)) := by
  subst hx
  have hc (op : Opcode) : op.canReply = true ↔ op = .query ∨ op = .getMore := by
    cases op <;> decide
  refine ⟨frames_exchanges v fs cs s, fun x hx => ?_, fun k x b h => ?_⟩
  · split
    next ho =>
      obtain ⟨-, b, hb, -⟩ := outcome_of_canReply hx (hw x hx) ((hc _).2 ho)
      exact ⟨b, hb⟩
    next ho =>
      exact outcome_of_not_canReply hx (Bool.eq_false_of_not_eq_true fun h => ho ((hc _).1 h))
  · obtain ⟨hk, hx, hb⟩ := nextReplyId_of_answers hw h
    cases ho : x.frame.opcode.canReply with
    | false =>
      rw [outcome_of_not_canReply hx ho] at hb
      cases hb
    | true =>
      obtain ⟨r, c, hc, ha, hr⟩ := outcome_of_canReply hx (hw x hx) ho
      cases hb.symm.trans hc
      obtain ⟨body, hr, hf⟩ := Reply.split?_of_encode hr
      have hn : x.state.nextReplyId = Int32.ofNat (k + 1) := by
        rw [hk, hs, Int32.add_comm, Int32.ofNat_add]
        rfl
      rw [hn] at hf
      exact ⟨r, body, ha, hr, hf⟩

def mixedFrames : List (Nat × Frame) :=
  [(0, ⟨7, 0, .query, Bytes.ofSize 0 ++ Body.cstring "shop.orders" ++ Bytes.ofSize 0 ++
      Bytes.ofSize 10 ++ (Bytes.ofSize 5).push 0⟩),
    (1, ⟨7, 0, .killCursors, Bytes.ofSize 0 ++ Bytes.ofSize 1 ++ Bytes.ofInt64 9⟩),
    (0, ⟨8, 0, .getMore, .empty⟩), (1, ⟨9, 0, .reply, .empty⟩)]

def mixedRun : List (Exchange Surroundings) :=
  (Standalone.service .borrow).exchanges mixedFrames
    (fun client => .fresh client (.v4 .localhost 5000)) Standalone.fresh

theorem mixedRun_answered :
    (∀ x ∈ mixedRun, x.Writable (Standalone.service .borrow)) ∧
      (Exchange.answers mixedRun).map (fun x => x.1.frame.requestId) = [7, 8] ∧
      ∀ k x b, (Exchange.answers mixedRun)[k]? = some (x, b) →
        ∃ r body, x.AnsweredBy (Standalone.service .borrow) r ∧ r.body = .ok body ∧
          Frame.split? b =
            .ok (some (⟨Int32.ofNat (k + 1), x.frame.requestId, .reply, body⟩, .empty)) := by
  have hw : ∀ x ∈ mixedRun, x.Writable (Standalone.service .borrow) := by
    unfold Exchange.Writable
    decide +kernel
  obtain ⟨-, -, ha⟩ := exchanges_answered rfl (rfl : _ = mixedRun) hw
  exact ⟨hw, by decide +kernel, ha⟩

end Service

end DocumentServer
