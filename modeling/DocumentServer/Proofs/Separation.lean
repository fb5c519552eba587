import DocumentServer.Proofs.LastError
import DocumentServer.Proofs.Strategies

namespace DocumentServer

/-- A document without the time and the nonce. -/
def Document.masked (d : Document String) : Document String :=
  d.map fun e => if e.1 = "localTime" ∨ e.1 = "nonce" then (e.1, .scalar .null) else e

structure Document.Alike (d e : Document String) : Prop where
  masked : d.masked = e.masked
  left : ∃ b, d.encode = .ok b
  right : ∃ b, e.encode = .ok b

theorem Connection.eq_of_clearLastError {c d : Connection}
    (h : c.clearLastError = d.clearLastError) (hl : c.lastError = d.lastError) : c = d := by
  cases c
  cases d
  cases hl
  cases h
  rfl

namespace Reply

def masked (r : Reply) : Reply :=
  ⟨r.flags, r.cursorId, r.startingFrom, r.documents.map Document.masked⟩

inductive Alike : Reply → Reply → Prop
  | same (r : Reply) : Alike r r
  | single {d e : Document String} (h : d.Alike e) : Alike (.single d) (.single e)

end Reply

/-- What came of a frame, twice: the same, or replies to the same message that differ in their ids,
the time and the nonce at most. -/
inductive SameAnswer :
    Except (Stop MessageError) (Option ByteArray) →
      Except (Stop MessageError) (Option ByteArray) → Prop
  | none : SameAnswer (.ok none) (.ok none)
  | error (stop : Stop MessageError) : SameAnswer (.error stop) (.error stop)
  | reply {r q : Reply} {id id' responseTo : Int32} {b c : ByteArray} (h : r.masked = q.masked)
      (hb : r.encode id responseTo = .ok b) (hc : q.encode id' responseTo = .ok c) :
      SameAnswer (.ok (some b)) (.ok (some c))

namespace Reply

variable {r q : Reply} {responseTo : Int32}

theorem encode_cases (r : Reply) (responseTo : Int32) :
    (∃ t, ∀ id, r.encode id responseTo = .error t) ∨ ∀ id, ∃ b, r.encode id responseTo = .ok b := by
  cases hb : r.body with
  | error t =>
    left
    exact ⟨t, fun id => by rw [encode, hb]; rfl⟩
  | ok b =>
    have he (id : Int32) : r.encode id responseTo =
        (Frame.encode ⟨id, responseTo, .reply, b⟩).mapError .error := by
      rw [encode, hb]
      rfl
    by_cases hl : headerSize + b.size > maxMessageSize
    · left
      exact ⟨.error (.tooLarge (headerSize + b.size)), fun id =>
        (he id).trans (congrArg (Except.mapError Stop.error) (if_pos hl))⟩
    · right
      exact fun id => ⟨_, (he id).trans (congrArg (Except.mapError Stop.error) (if_neg hl))⟩

theorem sameAnswer_encode (r : Reply) (responseTo id id' : Int32) :
    SameAnswer ((r.encode id responseTo).map some) ((r.encode id' responseTo).map some) := by
  obtain ⟨t, ht⟩ | hb := r.encode_cases responseTo
  · rw [ht, ht]
    exact .error t
  · obtain ⟨b, hb'⟩ := hb id
    obtain ⟨c, hc⟩ := hb id'
    rw [hb', hc]
    exact .reply rfl hb' hc

variable {π : Type}

theorem Alike.sameAnswer (h : r.Alike q) (responseTo : Int32) (s t : ServiceState π) :
    SameAnswer ((Service.encodeReply r responseTo s).1.map some)
      ((Service.encodeReply q responseTo t).1.map some) := by
  cases h with
  | same =>
    obtain ⟨stop, he⟩ | hb := r.encode_cases responseTo
    · cases stop with
      | overflow =>
        rw [Service.encodeReply_of_overflow (he _), Service.encodeReply_of_overflow (he _)]
        exact .error .overflow
      | error e =>
        rw [Service.encodeReply_of_error (he _), Service.encodeReply_of_error (he _)]
        exact sameAnswer_encode _ responseTo _ _
    · obtain ⟨b, hb'⟩ := hb s.nextReplyId
      obtain ⟨c, hc⟩ := hb t.nextReplyId
      rw [Service.encodeReply_of_ok hb', Service.encodeReply_of_ok hc]
      exact .reply rfl hb' hc
  | @single d e h =>
    obtain ⟨d', hd⟩ := h.left
    obtain ⟨e', he⟩ := h.right
    obtain ⟨b, hb⟩ := encode_of_documents (r := .single d) rfl hd s.nextReplyId responseTo
    obtain ⟨c, hc⟩ := encode_of_documents (r := .single e) rfl he t.nextReplyId responseTo
    rw [Service.encodeReply_of_ok hb, Service.encodeReply_of_ok hc]
    apply SameAnswer.reply _ hb hc
    simp [masked, Reply.single, h.masked]

end Reply

def Exchange.outcomesOf {π : Type} (client : Nat) (xs : List (Exchange π)) :
    List (Except (Stop MessageError) (Option ByteArray)) :=
  (xs.filter fun x => x.client = client).map Exchange.outcome

namespace Service

variable {α ρ π : Type} {v : Service α ρ π}

/-- The frames of one client are served one by one, each in any state at all. -/
inductive Served (v : Service α ρ π) :
    Connection → List Frame → List (Except (Stop MessageError) (Option ByteArray)) → Connection → Prop
  | nil (c : Connection) : Served v c [] [] c
  | cons {f fs os c d} (s : ServiceState π) (h : Served v (v.dispatch f c s).2.1 fs os d) :
      Served v c (f :: fs) ((v.dispatch f c s).1 :: os) d

/-- In every run, the frames of each client are served, in the states that the others leave. -/
theorem served_exchanges (v : Service α ρ π) (fs : List (Nat × Frame)) (cs : Nat → Connection)
    (s : ServiceState π) (client : Nat) :
    v.Served (cs client) ((fs.filter fun f => f.1 = client).map Prod.snd)
      (Exchange.outcomesOf client (v.exchanges fs cs s)) ((v.after fs cs s).1 client) := by
  induction fs generalizing cs s with
  | nil => exact .nil _
  | cons f fs ih =>
    obtain ⟨other, f⟩ := f
    have hs := ih (Function.update cs other (v.dispatch f (cs other) s).2.1)
      (v.dispatch f (cs other) s).2.2
    rw [Exchange.outcomesOf] at hs
    rw [Exchange.outcomesOf, exchanges, after]
    by_cases h : other = client
    · subst h
      rw [Function.update_self] at hs
      rw [List.filter_cons_of_pos (by simp), List.filter_cons_of_pos (by simp)]
      exact .cons s hs
    · rw [Function.update_of_ne (Ne.symm h)] at hs
      rw [List.filter_cons_of_neg (by simpa), List.filter_cons_of_neg (by simpa)]
      exact hs

theorem outcomesOf_of_forall {fs : List (Nat × Frame)} {cs : Nat → Connection}
    {s : ServiceState π} {client : Nat} (h : ∀ f ∈ fs, f.1 = client) :
    Exchange.outcomesOf client (v.exchanges fs cs s) =
      (v.exchanges fs cs s).map Exchange.outcome := by
  have hm : ∀ x ∈ v.exchanges fs cs s, decide (x.client = client) = true := by
    intro x hx
    have hf : (x.client, x.frame) ∈ fs := by
      rw [← frames_exchanges v fs cs s]
      exact List.mem_map_of_mem hx
    simpa using h _ hf
  rw [Exchange.outcomesOf, List.filter_eq_self.2 hm]

end Service

namespace Standalone

variable {ε δ : Type}

/-- The time and the nonces are all that the results of commands have from the surroundings. -/
inductive SameResult :
    Except WireError (DocumentServer.Outcome δ) → Except WireError (DocumentServer.Outcome δ) → Prop
  | same (r : Except WireError (DocumentServer.Outcome δ)) : SameResult r r
  | role (t u : Int64) : SameResult (.ok (.role (.standalone t))) (.ok (.role (.standalone u)))
  | nonce (n m : UInt64) :
      SameResult (.ok (.nonce (nonceDigits n))) (.ok (.nonce (nonceDigits m)))

theorem sameResult_execute (command : Command (Argument ε) (Outcome δ)) (x : Context)
    (a : Argument ε) (c : Connection) (s t : Surroundings) :
    SameResult (processor.execute command x a c s).1 (processor.execute command x a c t).1 :=
  execute_of_steps (P := fun step => SameResult (step c s).1 (step c t).1) (fun _ => .same _)
    (.same _) (.role _ _) (.same _) (.nonce _ _) (.same _) command x a

theorem withOk_role (t : Int64) : (Role.standalone t).document.withOk =
    (Role.standalone t).document ++ [("ok", .scalar (.double .one))] := by
  apply Document.withOk_of_notMem
  · simp [Role.document, Document.keys, HasContent.content, okField]
  · simp [Role.document, Document.keys, HasContent.content]

theorem encode_role (t : Int64) : ∃ b, (Role.standalone t).document.withOk.encode = .ok b := by
  let d (t : Int64) : Document String :=
    (Role.standalone t).document ++ [("ok", .scalar (.double .one))]
  have hs : (d t).stop? = (d 0).stop? := rfl
  have hx : (d t).extent = (d 0).extent := rfl
  have h0 : (d 0).stop? = none ∧ (d 0).extent ≤ maxDocumentSize := by decide +kernel
  rw [withOk_role]
  exact ⟨_, Document.encode_eq_ok_iff.2 ⟨hs.trans h0.1, hx.trans_le h0.2, rfl⟩⟩

theorem masked_role (t : Int64) : (Role.standalone t).document.withOk.masked =
    (Role.standalone 0).document.withOk.masked := by
  rw [withOk_role, withOk_role]
  rfl

theorem alike_role (t u : Int64) :
    (Role.standalone t).document.withOk.Alike (Role.standalone u).document.withOk :=
  ⟨(masked_role t).trans (masked_role u).symm, encode_role t, encode_role u⟩

theorem withOk_nonce (s : String) : Document.withOk [("nonce", .scalar (.string s))] =
    [("nonce", .scalar (.string s)), ("ok", .scalar (.double .one))] := by
  have hn : "nonce" ≠ okField := by decide
  exact Document.withOk_of_notMem (fun h => hn (List.mem_singleton.1 h).symm)
    (List.nodup_singleton _)

theorem length_nonceDigits (n : UInt64) : (nonceDigits n).length = 16 := by
  rw [nonceDigits, Text.Hex.length_encode, Bytes.size_ofUInt64]

theorem encode_nonce (n : UInt64) :
    ∃ b, (Document.withOk [("nonce", .scalar (.string (nonceDigits n)))]).encode = .ok b := by
  have hd := utf8ByteSize_le (nonceDigits n)
  rw [length_nonceDigits] at hd
  rw [withOk_nonce]
  refine ⟨_, Document.encode_eq_ok_iff.2 ⟨Document.writable_iff.2 ?_, ?_, rfl⟩⟩
  · have hn : (nonceDigits n).utf8ByteSize % 0x100000000 ≠ 0x7fffffff := by omega
    simp [Document.Passes, Document.entryPassages, Value.passages, Scalar.passages, Passage.stop?,
      hn]
  · have h5 : "nonce".utf8ByteSize = 5 := rfl
    have h2 : "ok".utf8ByteSize = 2 := rfl
    simp only [Document.extent, Document.entriesExtent, Value.extent, Scalar.extent, h5, h2,
      maxDocumentSize]
    omega

theorem masked_nonce (s : String) : (Document.withOk [("nonce", .scalar (.string s))]).masked =
    [("nonce", .scalar .null), ("ok", .scalar (.double .one))] := by
  rw [withOk_nonce]
  rfl

theorem alike_nonce (n m : UInt64) :
    (Document.withOk [("nonce", .scalar (.string (nonceDigits n)))]).Alike
      (Document.withOk [("nonce", .scalar (.string (nonceDigits m)))]) :=
  ⟨(masked_nonce _).trans (masked_nonce _).symm, encode_nonce n, encode_nonce m⟩

theorem SameResult.alike {command : Command (Argument ε) (Outcome δ)} (hc : command ∈ Builtin.all)
    {r q : Except WireError (DocumentServer.Outcome δ)} (h : SameResult r q) :
    Reply.Alike
      (.single (Service.documentOf (r.bind fun o => (command.result o).map Document.withOk)))
      (.single (Service.documentOf (q.bind fun o => (command.result o).map Document.withOk))) := by
  have hw (o p : DocumentServer.Outcome δ) (ho : command.document? o = none)
      (hp : command.document? p = none) : Reply.Alike
        (.single (Service.documentOf ((command.result o).map Document.withOk)))
        (.single (Service.documentOf ((command.result p).map Document.withOk))) := by
    rw [Command.result_of_none ho, Command.result_of_none hp]
    exact .same _
  simp only [Builtin.all, List.mem_cons, List.not_mem_nil, or_false] at hc
  cases h with
  | same => exact .same _
  | role t u =>
    rcases hc with rfl | rfl | rfl | rfl | rfl | rfl
    case inr.inl => exact .single (alike_role t u)
    all_goals exact hw (.role (.standalone t)) (.role (.standalone u)) rfl rfl
  | nonce n m =>
    rcases hc with rfl | rfl | rfl | rfl | rfl | rfl
    case inr.inr.inr.inl => exact .single (alike_nonce n m)
    all_goals exact hw (.nonce (nonceDigits n)) (.nonce (nonceDigits m)) rfl rfl

def tuned (ε δ : Type) (strategy : Strategy) (seconds : Frame → Double) :
    Service (Argument ε) (Outcome δ) Surroundings :=
  ⟨Builtin.registry, processor, strategy, seconds⟩

variable (strategy strategy' : Strategy) (seconds seconds' : Frame → Double)

theorem alike_commandResult (x : Context) (d : Document String) (c : Connection)
    (s t : Surroundings) : Reply.Alike
      (.single (Service.documentOf ((tuned ε δ strategy seconds).commandResult x d c s)))
      (.single (Service.documentOf ((tuned ε δ strategy' seconds').commandResult x d c t))) := by
  simp only [Service.commandResult, tuned, bind]
  cases hr : (Builtin.registry (ε := ε) (δ := δ)).resolve d with
  | error e => exact .same _
  | ok found =>
    obtain ⟨command, calledBy⟩ := found
    have hc := Builtin.mem_all (Registry.mem_of_resolve hr)
    simp only [Except.bind]
    by_cases ha : (command.adminOnly && !x.isAdmin) = true
    · simp only [if_pos ha]
      exact .same _
    · simp only [if_neg ha]
      cases command.argument d calledBy with
      | error e => exact .same _
      | ok a => exact (sameResult_execute command x a c s t).alike hc

/-- The replies that are due to a frame are alike, in any two states. -/
theorem alike_due (f : Frame) (c : Connection) (p q : Pool) (s t : Surroundings) :
    Option.Rel Reply.Alike ((tuned ε δ strategy seconds).due f c p s)
      ((tuned ε δ strategy' seconds').due f c q t) := by
  have hp : (Request.parse (tuned ε δ strategy seconds).strategy f p).1 =
      (Request.parse (tuned ε δ strategy' seconds').strategy f q).1 := Request.parse_fst _ _ f p q
  unfold Service.due
  rw [hp]
  cases (Request.parse (tuned ε δ strategy' seconds').strategy f q).1 with
  | error e =>
    dsimp only
    split
    · exact .some (.same _)
    · exact .none
  | ok m =>
    cases m with
    | query m =>
      dsimp only
      split
      · exact .some (alike_commandResult strategy strategy' seconds seconds' _ _ c s t)
      · exact .some (.same _)
    | getMore m => exact .some (.same _)
    | _ => exact .none

theorem failure_tuned (f : Frame) (c : Connection) (p q : Pool) (s t : Surroundings) :
    (tuned ε δ strategy seconds).failure f c p s = (tuned ε δ strategy' seconds').failure f c q t := by
  have hp : (Request.parse (tuned ε δ strategy seconds).strategy f p).1 =
      (Request.parse (tuned ε δ strategy' seconds').strategy f q).1 := Request.parse_fst _ _ f p q
  unfold Service.failure
  rw [hp]
  rfl

theorem lastError_tuned (f : Frame) (c : Connection) (s : ServiceState Surroundings) :
    ((tuned ε δ strategy seconds).dispatch f c s).2.1.lastError =
      if f.opcode.canReply then c.lastError
      else (tuned ε δ strategy seconds).failure f c.recordRequest s.pool s.processor :=
  Service.lastError_dispatch leavesLastError_processor f c s

theorem clearLastError_tuned (f : Frame) (c : Connection) (s : ServiceState Surroundings) :
    ((tuned ε δ strategy seconds).dispatch f c s).2.1.clearLastError =
      c.recordRequest.clearLastError := by
  rw [Service.connection_dispatch]
  exact (stable_connection (g := Connection.clearLastError) (fun _ _ => rfl) _ _ _).respond f _ _

/-- One frame is answered alike in any two states. -/
theorem sameAnswer_dispatch (f : Frame) (c : Connection) (s t : ServiceState Surroundings) :
    SameAnswer ((tuned ε δ strategy seconds).dispatch f c s).1
      ((tuned ε δ strategy' seconds').dispatch f c t).1 := by
  have hd := alike_due (ε := ε) (δ := δ) strategy strategy' seconds seconds' f c.recordRequest
    s.pool t.pool s.processor t.processor
  cases hv : (tuned ε δ strategy seconds).due f c.recordRequest s.pool s.processor <;>
    cases hw : (tuned ε δ strategy' seconds').due f c.recordRequest t.pool t.processor <;>
    rw [hv, hw] at hd <;> cases hd
  case none.none.none =>
    rw [Service.dispatch_of_none hv, Service.dispatch_of_none hw]
    exact .none
  case some.some.some ha =>
    rw [Service.dispatch_of_some hv, Service.dispatch_of_some hw]
    exact ha.sameAnswer _ _ _

theorem connection_tuned (f : Frame) (c : Connection) (s t : ServiceState Surroundings) :
    ((tuned ε δ strategy seconds).dispatch f c s).2.1 =
      ((tuned ε δ strategy' seconds').dispatch f c t).2.1 := by
  apply Connection.eq_of_clearLastError
  · rw [clearLastError_tuned, clearLastError_tuned]
  · rw [lastError_tuned, lastError_tuned,
      failure_tuned strategy strategy' seconds seconds' f _ s.pool t.pool s.processor t.processor]

/-- A client that sends the same frames twice is answered alike, whatever states they come in. -/
theorem served_tuned {c d e : Connection} {fs : List Frame}
    {os qs : List (Except (Stop MessageError) (Option ByteArray))}
    (h : (tuned ε δ strategy seconds).Served c fs os d)
    (hq : (tuned ε δ strategy' seconds').Served c fs qs e) :
    List.Forall₂ SameAnswer os qs ∧ d = e := by
  induction h generalizing qs with
  | nil =>
    cases hq
    exact ⟨.nil, rfl⟩
  | @cons f fs os c d s h ih =>
    cases hq with
    | cons t hq =>
      rw [← connection_tuned strategy strategy' seconds seconds' f c s t] at hq
      obtain ⟨hs, hd⟩ := ih hq
      exact ⟨.cons (sameAnswer_dispatch strategy strategy' seconds seconds' f c s t) hs, hd⟩

/-- Let a server without storage serve frames of any clients, in any order and from any state. What
a client is answered, but for the ids of the replies, the time and the nonces, and what is kept for
its connection are the same if no other client sends anything, and they are the same for any way to
keep texts, any pool, and any state to begin with. -/
theorem client_separate (ε δ : Type) (strategy strategy' : Strategy)
    (seconds seconds' : Frame → Double) (fs : List (Nat × Frame)) (cs : Nat → Connection)
    (s t : ServiceState Surroundings) (client : Nat) :
    let v := tuned ε δ strategy seconds
    let w := tuned ε δ strategy' seconds'
    let alone := fs.filter fun f => f.1 = client
    (List.Forall₂ SameAnswer (Exchange.outcomesOf client (v.exchanges fs cs s))
        ((w.exchanges alone cs t).map Exchange.outcome) ∧
      (v.after fs cs s).1 client = (w.after alone cs t).1 client) ∧
    List.Forall₂ SameAnswer (Exchange.outcomesOf client (v.exchanges fs cs s))
        (Exchange.outcomesOf client (w.exchanges fs cs t)) ∧
      (v.after fs cs s).1 client = (w.after fs cs t).1 client := by
  intro v w alone
  have hv := v.served_exchanges fs cs s client
  have ha := w.served_exchanges alone cs t client
  have hl : alone.filter (fun f => f.1 = client) = alone := by
    simp [alone]
  have ho : Exchange.outcomesOf client (w.exchanges alone cs t) =
      (w.exchanges alone cs t).map Exchange.outcome :=
    Service.outcomesOf_of_forall fun f hf => of_decide_eq_true (List.mem_filter.1 hf).2
  rw [hl, ho] at ha
  exact ⟨served_tuned _ _ _ _ hv ha, served_tuned _ _ _ _ hv (w.served_exchanges fs cs t client)⟩

end Standalone

end DocumentServer
