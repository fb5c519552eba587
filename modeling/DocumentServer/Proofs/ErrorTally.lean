import DocumentServer.Proofs.ErrorReplies
import DocumentServer.Proofs.Fallback
import DocumentServer.Proofs.Labelled
import DocumentServer.Proofs.Observed

namespace DocumentServer

open Grammar

variable {α ρ π β : Type}

def countAll (codes : List ErrorCode) (xs : Labelled Nat) : Labelled Nat :=
  (codes.map ErrorCode.name).foldl (fun xs label => Labelled.count label xs) xs

theorem countAll_append (cs ds : List ErrorCode) (xs : Labelled Nat) :
    countAll (cs ++ ds) xs = countAll ds (countAll cs xs) := by
  rw [countAll, List.map_append, List.foldl_append]
  rfl

theorem total_countAll (codes : List ErrorCode) (code : ErrorCode) :
    Labelled.total code.name (countAll codes []) = codes.count code := by
  have ho : Labelled.Ordered ([] : Labelled Nat) := List.Pairwise.nil
  rw [countAll, ho.total_foldl_count, List.count_map_of_injective _ _ ErrorCode.name_injective]
  exact Nat.zero_add _

namespace ServiceState

def errors (s : ServiceState π) : Option (Labelled Nat) := s.metrics.map Metrics.errors

theorem errors_measure (g : Metrics → Metrics) (h : ∀ m, (g m).errors = m.errors)
    (s : ServiceState π) : (s.measure g).errors = s.errors := by
  simp only [errors, measure, Option.map_map]
  exact congrArg (Option.map · s.metrics) (funext h)

theorem errors_countError (e : WireError) (s : ServiceState π) :
    (s.countError e).errors = s.errors.map (countAll [e.code]) := by
  simp only [errors, countError, measure, Option.map_map]
  rfl

end ServiceState

namespace Service

variable {v : Service α ρ π} {c : Connection} {s : ServiceState π} {f : Frame}

/-- A step that counts some errors and no others. -/
def Counts (step : Step π β) (c : Connection) (s : ServiceState π) (codes : List ErrorCode) :
    Prop :=
  (step c s).2.2.errors = s.errors.map (countAll codes)

theorem map_countAll_nil (xs : Option (Labelled Nat)) : xs.map (countAll []) = xs := by
  cases xs <;> rfl

theorem counts_runCommand (x : Context) (d : Document String) :
    Counts (v.runCommand x d) c s [] := by
  have hk : Keeps (fun _ s => s.errors) (v.runCommand x d) :=
    Keeps.runCommand
      (fun name _ s => ServiceState.errors_measure (.countCommand name) (fun _ => rfl) s)
      (fun _ _ _ _ _ => rfl) x d
  exact (hk c s).trans (map_countAll_nil _).symm

theorem counts_executeCommand (x : Context) (d : Document String) :
    Counts (v.executeCommand x d) c s
      ((errorOf (v.commandResult x d c s.processor)).map WireError.code).toList := by
  have hr := counts_runCommand (v := v) (c := c) (s := s) x d
  rw [Counts, map_countAll_nil] at hr
  rw [← runCommand_fst, Counts, executeCommand, ← hr]
  rcases v.runCommand x d c s with ⟨e | r, c', s'⟩
  · exact ServiceState.errors_countError e s'
  · exact (map_countAll_nil _).symm

theorem counts_fail (op : Opcode) (e : WireError) : Counts (v.fail op e) c s [e.code] := by
  rw [Counts, ← ServiceState.errors_countError, fail]
  split <;> rfl

theorem counts_answer (op : Opcode) (step : Operation π Reply) :
    Counts (v.answer op step) c s
      ((errorOf (step c s.processor).1).map WireError.code).toList := by
  simp only [Counts, answer, lift]
  rcases step c s.processor with ⟨e | r, c', s'⟩
  · exact counts_fail op e
  · exact (map_countAll_nil _).symm

theorem counts_carryOut (op : Opcode) (step : Operation π Unit) :
    Counts (v.carryOut op step) c s
      ((errorOf (step c s.processor).1).map WireError.code).toList := by
  simp only [Counts, carryOut, lift]
  rcases step c s.processor with ⟨e | r, c', s'⟩
  · exact counts_fail op e
  · exact (map_countAll_nil _).symm

/-- The error of a frame: the one that its reply tells of, or the one that the processor is told
of. -/
def errorOfFrame (v : Service α ρ π) (f : Frame) (c : Connection) (p : Pool) (s : π) :
    Option ErrorCode :=
  match v.due f c p s with
  | some r => r.errorCode?
  | none => (v.handed f c p s).map WireError.code

theorem counts_handle (hv : v.Frank) {p : Pool} {m : Request}
    (h : (Request.parse v.strategy f p).1 = .ok m) :
    Counts (v.handle m) c s (v.errorOfFrame f c p s.processor).toList := by
  rw [errorOfFrame, handed, failure, due, h, ← Request.opcode_of_parse h]
  cases m with
  | query q =>
    by_cases hq : q.isCommand = true
    · simp only [hq, if_true, errorCode?_documentOf hv]
      have hx := counts_executeCommand (v := v) (c := c) (s := s)
        (context c q.space q.options.slaveOk) q.query
      simp only [Counts, handle, hq, if_true]
      exact hx
    · simp only [hq, Bool.false_eq_true, if_false]
      rw [errorCode?_replyOf fun h => hv.query h]
      simp only [Counts, handle, hq, Bool.false_eq_true, if_false]
      exact counts_answer .query _
  | getMore q =>
    dsimp only
    rw [errorCode?_replyOf fun h => hv.getMore h]
    exact counts_answer .getMore _
  | insert q => exact counts_carryOut .insert _
  | update q => exact counts_carryOut .update _
  | delete q => exact counts_carryOut .delete _
  | killCursors ids => exact counts_carryOut .killCursors _

theorem counts_respond (hv : v.Frank) (f : Frame) :
    Counts (v.respond f) c s (v.errorOfFrame f c s.pool s.processor).toList := by
  rw [Counts, respond]
  rcases hr : Request.parse v.strategy f s.pool with ⟨e | m, p⟩
  · have he := congrArg Prod.fst hr
    have hc : (v.errorOfFrame f c s.pool s.processor).toList = [e.toWire.code] := by
      simp only [errorOfFrame, due, handed, failure, he]
      by_cases ho : f.opcode.canReply = true
      · simp only [if_pos ho, errorCode?_failure]
        rfl
      · simp only [if_neg ho]
        rfl
    simp only [(Request.refusal_of_parse he).not_isFatal, Bool.false_eq_true, if_false, hc]
    rw [counts_fail]
    exact congrArg _ (ServiceState.errors_measure .countDecodeFailure (fun _ => rfl) _)
  · exact counts_handle hv (s := { s with pool := p }) (congrArg Prod.fst hr)

theorem errors_heard (hv : v.Frank) (f : Frame) (c : Connection) (s : ServiceState π) :
    (v.heard f c s).2.errors =
      s.errors.map (countAll (v.errorOfFrame f c.recordRequest s.pool s.processor).toList) := by
  have hr := counts_respond hv (c := c.recordRequest)
    (s := s.measure (.countRequest f.opcode (v.seconds f))) f
  rw [Counts, ServiceState.errors_measure (.countRequest f.opcode (v.seconds f)) fun _ => rfl] at hr
  exact hr

theorem errors_encodeReply_ok {r : Reply} {responseTo : Int32} {b : ByteArray}
    (h : r.encode s.nextReplyId responseTo = .ok b) :
    (encodeReply r responseTo s).2.errors = s.errors := by
  unfold encodeReply
  dsimp only
  rw [h]
  rfl

theorem errors_encodeReply_overflow {r : Reply} {responseTo : Int32}
    (h : r.encode s.nextReplyId responseTo = .error .overflow) :
    (encodeReply r responseTo s).2.errors = s.errors := by
  unfold encodeReply
  dsimp only
  rw [h]
  rfl

theorem errors_encodeReply_error {r : Reply} {responseTo : Int32} {e : MessageError}
    (h : r.encode s.nextReplyId responseTo = .error (.error e)) :
    (encodeReply r responseTo s).2.errors = s.errors.map (countAll [.internalError]) := by
  unfold encodeReply
  dsimp only
  rw [h]
  exact ServiceState.errors_countError (notEncoded e) _

end Service

namespace Exchange

variable {v : Service α ρ π} {x : Exchange π}

/-- The message of the reply that is due, or why it cannot be sent. -/
def encoded? (v : Service α ρ π) (x : Exchange π) :
    Option (Except (Stop MessageError) ByteArray) :=
  (x.due v).map fun r => r.encode x.state.nextReplyId x.frame.requestId

def errorCode? (v : Service α ρ π) (x : Exchange π) : Option ErrorCode :=
  v.errorOfFrame x.frame x.connection.recordRequest x.state.pool x.state.processor

/-- The errors that are counted: that of the frame, and that of a reply that cannot be sent, unless
the program breaks off on it. -/
def counted (v : Service α ρ π) (x : Exchange π) : List ErrorCode :=
  (x.errorCode? v).toList ++
    match x.encoded? v with
    | some (.error (.error _)) => [.internalError]
    | _ => []

def told? (x : Exchange π) : Option ErrorCode := x.answer?.bind fun a => Reply.told? a.2

/-- The errors that are counted and that nobody is told of: the one of a reply that cannot be sent,
and if it is counted and nothing is sent in its place, the one of the sending. -/
def untold (v : Service α ρ π) (x : Exchange π) : List ErrorCode :=
  match x.encoded? v with
  | some (.error stop) =>
    (x.errorCode? v).toList ++
      match stop, x.outcome with
      | .error _, .error _ => [.internalError]
      | _, _ => []
  | _ => []

theorem told?_of_outcome {b : ByteArray} (h : x.outcome = .ok (some b)) :
    x.told? = Reply.told? b := by
  rw [told?, answer?, h]
  rfl

theorem told?_of_silent (h : ∀ b, x.outcome ≠ .ok (some b)) : x.told? = none := by
  rw [told?, answer?]
  split
  next b hb => exact absurd hb (h b)
  next => rfl

theorem encoded?_of_due {r : Reply} (hd : x.due v = some r) :
    x.encoded? v = some (r.encode x.state.nextReplyId x.frame.requestId) := by
  rw [encoded?, hd]
  rfl

theorem errorCode?_of_due {r : Reply} (hd : x.due v = some r) :
    x.errorCode? v = r.errorCode? := by
  have hd : v.due _ _ _ _ = some r := hd
  rw [errorCode?, Service.errorOfFrame, hd]

theorem untold_of_encoded (h : ∀ e, x.encoded? v ≠ some (.error e)) : x.untold v = [] := by
  rw [untold]
  split
  next e he => exact absurd he (h e)
  next => rfl

theorem untold_of_overflow (he : x.encoded? v = some (.error .overflow)) :
    x.untold v = (x.errorCode? v).toList := by
  simp [untold, he]

theorem untold_of_outcome {t : Stop MessageError} {a : Option ByteArray}
    (he : x.encoded? v = some (.error t)) (h : x.outcome = .ok a) :
    x.untold v = (x.errorCode? v).toList := by
  simp [untold, he, h]

theorem handed_of_due {r : Reply} (hd : x.due v = some r) : x.handed v = none := by
  have ho := Service.due_isSome (v := v) x.frame x.connection.recordRequest x.state.pool
    x.state.processor
  have hd : v.due _ _ _ _ = some r := hd
  rw [hd] at ho
  exact if_pos ho.symm

theorem errorCode?_of_silent (hd : x.due v = none) :
    x.errorCode? v = (x.handed v).map WireError.code := by
  have hd : v.due _ _ _ _ = none := hd
  rw [errorCode?, Service.errorOfFrame, hd]
  rfl

/-- Each error that is counted is one that the client or the processor is told of, or one that
nobody is told of. -/
def Balanced (v : Service α ρ π) (x : Exchange π) : Prop :=
  ∀ code, (x.counted v).count code = x.told?.toList.count code +
    ((x.handed v).map WireError.code).toList.count code + (x.untold v).count code

section Balance

variable (hv : v.Frank) (h : x.outcome = (v.dispatch x.frame x.connection x.state).1) {r : Reply}

include h in
theorem balanced_of_silent (hd : x.due v = none) : x.Balanced v := by
  intro code
  have he : x.encoded? v = none := by rw [encoded?, hd]; rfl
  have ht : x.told? = none := told?_of_silent fun b hb => by
    rw [h, Service.dispatch_of_none hd] at hb
    cases hb
  simp [counted, untold, he, ht, errorCode?_of_silent hd]

include hv h in
theorem balanced_of_sent (hd : x.due v = some r) {b : ByteArray}
    (hr : r.encode x.state.nextReplyId x.frame.requestId = .ok b) : x.Balanced v := by
  intro code
  have he := encoded?_of_due hd
  rw [hr] at he
  rw [Service.dispatch_fst_of_due hd, hr] at h
  have ht : x.told? = r.errorCode? :=
    (told?_of_outcome h).trans (Reply.told?_of_encode hr (Service.regular_due hv hd))
  simp [counted, untold, he, ht, errorCode?_of_due hd, handed_of_due hd]

include h in
theorem told?_of_unsent (hd : x.due v = some r) {e : MessageError}
    (hr : r.encode x.state.nextReplyId x.frame.requestId = .error (.error e)) {b : ByteArray}
    (hf : (Reply.failure (Service.notEncoded e).replyDocument).encode x.state.nextReplyId
      x.frame.requestId = .ok b) :
    x.outcome = .ok (some b) ∧ x.told? = some .internalError := by
  have ho : x.outcome = .ok (some b) := by
    rw [h, Service.dispatch_fst_of_due hd, hr]
    dsimp only
    rw [hf]
    rfl
  have hm := Reply.told?_of_encode hf
    (List.forall_mem_singleton.2 (Document.regular_replyDocument _))
  exact ⟨ho, ((told?_of_outcome ho).trans hm).trans (Service.errorCode?_failure _)⟩

include h in
/-- Where the program breaks off, the error of the reply has been counted. -/
theorem balanced_of_overflow (hd : x.due v = some r)
    (hr : r.encode x.state.nextReplyId x.frame.requestId = .error .overflow) : x.Balanced v := by
  intro code
  have he := encoded?_of_due hd
  rw [hr] at he
  rw [Service.dispatch_fst_of_due hd, hr] at h
  have ht : x.told? = none := told?_of_silent fun b hb => by
    rw [h] at hb
    cases hb
  simp [counted, untold, he, ht, handed_of_due hd]

include h in
theorem balanced_of_unsent (hd : x.due v = some r) {e : MessageError}
    (hr : r.encode x.state.nextReplyId x.frame.requestId = .error (.error e)) : x.Balanced v := by
  intro code
  have he := encoded?_of_due hd
  rw [hr] at he
  cases hf : (Reply.failure (Service.notEncoded e).replyDocument).encode x.state.nextReplyId
      x.frame.requestId with
  | ok b =>
    obtain ⟨ho, ht⟩ := told?_of_unsent h hd hr hf
    simp [counted, untold, he, ht, ho, handed_of_due hd, List.count_append, Nat.add_comm]
  | error e' =>
    have ho : x.outcome = .error e' := by
      rw [h, Service.dispatch_fst_of_due hd, hr]
      dsimp only
      rw [hf]
      rfl
    have ht : x.told? = none := told?_of_silent fun b hb => by
      rw [ho] at hb
      cases hb
    simp [counted, untold, he, ht, ho, handed_of_due hd]

include hv h in
theorem balanced_of_dispatch : x.Balanced v := by
  cases hd : x.due v with
  | none => exact balanced_of_silent h hd
  | some r =>
    cases hr : r.encode x.state.nextReplyId x.frame.requestId with
    | ok b => exact balanced_of_sent hv h hd hr
    | error t =>
      cases t with
      | error e => exact balanced_of_unsent h hd hr
      | overflow => exact balanced_of_overflow h hd hr

end Balance

theorem count_filterMap_cons {γ : Type} (g : γ → Option ErrorCode) (y : γ) (ys : List γ)
    (code : ErrorCode) : ((y :: ys).filterMap g).count code =
      (g y).toList.count code + (ys.filterMap g).count code := by
  rw [List.filterMap_cons]
  cases g y with
  | none => simp
  | some a => simp [List.count_cons, Nat.add_comm]

theorem count_flatMap_counted {xs : List (Exchange π)} (h : ∀ x ∈ xs, x.Balanced v)
    (code : ErrorCode) :
    (xs.flatMap (counted v)).count code = (xs.filterMap told?).count code +
      ((xs.filterMap (handed v)).map WireError.code).count code +
        (xs.flatMap (untold v)).count code := by
  rw [List.map_filterMap]
  induction xs with
  | nil => rfl
  | cons x xs ih =>
    obtain ⟨hx, hxs⟩ := List.forall_mem_cons.1 h
    rw [List.flatMap_cons, List.flatMap_cons, List.count_append, List.count_append,
      count_filterMap_cons, count_filterMap_cons, ih hxs, hx]
    omega

end Exchange

namespace Service

variable {v : Service α ρ π}

/-- What serving a frame counts. -/
theorem counts_dispatch (hv : v.Frank) (client : Nat) (f : Frame) (c : Connection)
    (s : ServiceState π) :
    Counts (v.dispatch f) c s (Exchange.counted v ⟨client, f, c, s, (v.dispatch f c s).1⟩) := by
  have hh := errors_heard hv f c s
  rw [Counts, Exchange.counted, Exchange.errorCode?, Exchange.encoded?, Exchange.due]
  dsimp only
  cases hd : v.due f c.recordRequest s.pool s.processor with
  | none =>
    rw [dispatch_of_none hd, Option.map_none]
    simpa using hh
  | some r =>
    rw [dispatch_of_some hd, Option.map_some]
    dsimp only
    rw [← nextReplyId_heard (v := v) f c s]
    cases hr : r.encode (v.heard f c s).2.nextReplyId f.requestId with
    | ok b =>
      rw [errors_encodeReply_ok hr]
      simpa using hh
    | error t =>
      cases t with
      | overflow =>
        rw [errors_encodeReply_overflow hr]
        simpa using hh
      | error e =>
        rw [errors_encodeReply_error hr, hh, Option.map_map]
        exact congrArg (Option.map · s.errors) (funext fun xs => (countAll_append _ _ xs).symm)

theorem errors_after (hv : v.Frank) (fs : List (Nat × Frame)) (cs : Nat → Connection)
    (s : ServiceState π) :
    (v.after fs cs s).2.errors =
      s.errors.map (countAll ((v.exchanges fs cs s).flatMap (Exchange.counted v))) := by
  induction fs generalizing cs s with
  | nil => exact (map_countAll_nil _).symm
  | cons f fs ih =>
    obtain ⟨client, f⟩ := f
    rw [after, exchanges, ih, counts_dispatch hv client, Option.map_map, List.flatMap_cons]
    exact congrArg (Option.map · s.errors) (funext fun xs => (countAll_append _ _ xs).symm)

def noteFailures : Observer α ρ (List WireError) := ⟨fun _ l => l, fun e l => l ++ [e]⟩

theorem notes_noteFailures (calls : List (Call α ρ)) (e? : Option WireError) (l : List WireError) :
    noteFailures.notes calls e? l = l ++ e?.toList := by
  cases e? <;> simp [Observer.notes, noteFailures]

theorem noted_noteFailures (xs : List (Exchange π)) (l : List WireError) :
    Exchange.noted v noteFailures xs l = l ++ xs.filterMap (Exchange.handed v) := by
  induction xs generalizing l with
  | nil => exact (List.append_nil l).symm
  | cons x xs ih =>
    rw [Exchange.noted_cons, notes_noteFailures, ih, List.filterMap_cons]
    cases x.handed v <;> simp

/-- A run from nothing counted: the totals, and the record of the failures that the processor was
told of. -/
theorem tally_after (hv : v.Frank) {s : ServiceState π} (h : s.errors = some [])
    (fs : List (Nat × Frame)) (cs : Nat → Connection) :
    ∃ m handed, (v.after fs cs s).2.metrics = some m ∧
      (v.observed noteFailures).after fs cs (s.beside []) =
        ((v.after fs cs s).1, (v.after fs cs s).2.beside handed) ∧
      ∀ code, m.errors.total code.name =
        ((v.exchanges fs cs s).filterMap Exchange.told?).count code +
          (handed.map WireError.code).count code +
            ((v.exchanges fs cs s).flatMap (Exchange.untold v)).count code := by
  have he := errors_after hv fs cs s
  rw [h] at he
  obtain ⟨m, hm, hs⟩ := Option.map_eq_some_iff.1 he
  refine ⟨m, _, hm, observed_after noteFailures fs cs _ [], fun code => ?_⟩
  have hb : ∀ x ∈ v.exchanges fs cs s, x.Balanced v :=
    fun x hx => Exchange.balanced_of_dispatch hv (outcome_of_mem hx)
  have hc := Exchange.count_flatMap_counted hb code
  rw [hs, noted_noteFailures, List.nil_append]
  exact (total_countAll _ code).trans hc

end Service

namespace Standalone

variable {ε δ : Type}

/-- Let a server with the built-in commands and no storage count its errors from nothing on, over
any run. The total of each code is the number of times that clients were told of it and that the
processor was told of it, and of the times that nobody was. There are none of these as long as every
reply can be sent. A reply that cannot be sent leaves its own error untold, and no other if sizes in
memory are machine words. -/
theorem errors_tallied (strategy : Strategy) (seconds : Frame → Double) (pool : Pool)
    (w : Surroundings) (fs : List (Nat × Frame)) (cs : Nat → Connection) :
    let v : Service (Argument ε) (Outcome δ) Surroundings :=
      ⟨Builtin.registry, processor, strategy, seconds⟩
    let s := ServiceState.start pool (some .empty) w
    let xs := v.exchanges fs cs s
    ∃ m handed,
      (v.after fs cs s).2.metrics = some m ∧
      (v.observed Service.noteFailures).after fs cs (s.beside []) =
        ((v.after fs cs s).1, (v.after fs cs s).2.beside handed) ∧
      (∀ code, m.errors.total code.name =
        (xs.filterMap Exchange.told?).count code + (handed.map WireError.code).count code +
          (xs.flatMap (Exchange.untold v)).count code) ∧
      ((∀ x ∈ xs, ∀ e, x.encoded? v ≠ some (.error e)) → ∀ code, m.errors.total code.name =
        (xs.filterMap Exchange.told?).count code + (handed.map WireError.code).count code) ∧
      ∀ x ∈ xs, (∀ r, x.due v = some r → r.volume < 2 ^ 64) →
        ∀ e, x.encoded? v = some (.error e) → x.untold v = (x.errorCode? v).toList := by
  intro v s xs
  obtain ⟨m, handed, hm, ho, ht⟩ :=
    Service.tally_after (frank_processor strategy seconds) (s := s) rfl fs cs
  refine ⟨m, handed, hm, ho, ht, fun hn code => ?_, fun x hx hr e he => ?_⟩
  · have hu : xs.flatMap (Exchange.untold v) = [] :=
      List.flatMap_eq_nil_iff.2 fun x hx => Exchange.untold_of_encoded (hn x hx)
    have hc : m.errors.total code.name = _ + _ + (xs.flatMap (Exchange.untold v)).count code :=
      ht code
    rw [hu] at hc
    exact hc
  · cases e with
    | overflow => exact Exchange.untold_of_overflow he
    | error e =>
      obtain ⟨r, hd, he'⟩ := Option.map_eq_some_iff.1 he
      have hn := Service.nulFree_due (nulFree_processor strategy seconds) hd
      obtain ⟨b, hb⟩ := Service.encode_failure_of_error hn (hr r hd) he'
      have ho := Exchange.told?_of_unsent (Service.outcome_of_mem hx) hd he' hb
      exact Exchange.untold_of_outcome he ho.1

def longSpace (n : Nat) : Namespace := ⟨"db", String.ofList (List.replicate n 'c')⟩

theorem utf8ByteSize_longSpace (n : Nat) : (longSpace n).display.utf8ByteSize = n + 3 := by
  have hc : (longSpace n).collection.utf8ByteSize = n :=
    (utf8ByteSize_ofList_replicate 'c' n).trans (Nat.mul_one n)
  have hd : (longSpace n).database.utf8ByteSize = 2 := rfl
  have hp : ".".utf8ByteSize = 1 := rfl
  rw [Namespace.display, String.utf8ByteSize_append, String.utf8ByteSize_append, hc, hd, hp]
  omega

theorem eq_of_mem_longSpace {n : Nat} {c : Char} (h : c ∈ (longSpace n).collection.toList) :
    c = 'c' := by
  have hl : (longSpace n).collection.toList = List.replicate n 'c' := String.toList_ofList
  rw [hl] at h
  exact List.eq_of_mem_replicate h

theorem wellFormed_longSpace {n : Nat} (hn : n ≠ 0) : (longSpace n).WellFormed := by
  have hd : "db" ≠ "" ∧ '.' ∉ "db".toList ∧ '\x00' ∉ "db".toList := by decide
  have hc : '\x00' ∉ (longSpace n).collection.toList := fun hm =>
    absurd (eq_of_mem_longSpace hm) (by decide)
  refine ⟨⟨hd.1, hd.2.1, fun he => ?_⟩, hd.2.2, hc⟩
  have hs := utf8ByteSize_longSpace n
  rw [Namespace.display, he] at hs
  have hz : ((longSpace n).database ++ "." ++ "").utf8ByteSize = 3 := rfl
  omega

theorem isCommand_longSpace (n : Nat) : (longSpace n).isCommand = false := by
  refine decide_eq_false fun h => ?_
  have hm : '$' ∈ (longSpace n).collection.toList := by
    rw [h]
    decide
  exact absurd (eq_of_mem_longSpace hm) (by decide)

def longError (n : Nat) : WireError :=
  ⟨.commandNotSupported, "query" ++ " on " ++ (longSpace n).display ++ " is not supported"⟩

theorem utf8ByteSize_longError (n : Nat) : (longError n).message.utf8ByteSize = n + 29 := by
  have h1 : ("query" ++ " on ").utf8ByteSize = 9 := rfl
  have h2 : " is not supported".utf8ByteSize = 17 := rfl
  rw [longError, String.utf8ByteSize_append, String.utf8ByteSize_append, h1, h2,
    utf8ByteSize_longSpace]
  omega

def counting : ServiceState Surroundings := .start (.empty .never 0) (some .empty) fresh.processor

def longExchange (n : Nat) : Exchange Surroundings :=
  ⟨0, Service.listFrame (longSpace n), Service.caller, counting,
    ((service .copy).dispatch (Service.listFrame (longSpace n)) Service.caller counting).1⟩

theorem told?_longExchange {n : Nat} (hn : maxDocumentSize < n + 69)
    (hm : n + 21 ≤ maxMessageSize) :
    (longExchange n).told? = some .internalError ∧
      (longExchange n).handed (service .copy) = none ∧
      (longExchange n).counted (service .copy) = [.commandNotSupported, .internalError] := by
  have h0 : n ≠ 0 := by
    rintro rfl
    exact absurd hn (by decide)
  have hs : (longSpace n).display.utf8ByteSize + 18 ≤ maxMessageSize := by
    rw [utf8ByteSize_longSpace]
    exact hm
  have hd : (longExchange n).due (service .copy) = some (.failure (longError n).replyDocument) :=
    Service.due_listFrame (wellFormed_longSpace h0) hs (isCommand_longSpace n) _ _ _ _
  have hr : (Reply.failure (longError n).replyDocument).encode
      (longExchange n).state.nextReplyId (longExchange n).frame.requestId =
        .error (.error (.encode (.documentTooLarge ((longError n).message.utf8ByteSize + 40)))) := by
    have ho : (longError n).tooLong =
        .error (.documentTooLarge ((longError n).message.utf8ByteSize + 40)) := by
      refine if_neg ?_
      rw [utf8ByteSize_longError]
      rw [maxMessageSize] at hm
      omega
    refine (Reply.encode_failure_of_large (by rwa [utf8ByteSize_longError])).trans ?_
    rw [ho]
    rfl
  have hs : (longError n).message.utf8ByteSize + 40 < 10 ^ 20 := by
    rw [utf8ByteSize_longError]
    rw [maxMessageSize] at hm
    omega
  obtain ⟨b, hb⟩ := Reply.encode_failure (Service.tellable_of_size hs (.inr rfl))
    (longExchange n).state.nextReplyId (longExchange n).frame.requestId
  have ho : (longExchange n).outcome = ((service .copy).dispatch (longExchange n).frame
      (longExchange n).connection (longExchange n).state).1 := by rw [longExchange]
  refine ⟨(Exchange.told?_of_unsent ho hd hr hb).2, Exchange.handed_of_due hd, ?_⟩
  rw [Exchange.counted, Exchange.encoded?_of_due hd, Exchange.errorCode?_of_due hd, hr,
    Service.errorCode?_failure]
  rfl

/-- The error of a query for a collection with a long name is counted, and nobody is told of it. -/
theorem errors_longSpace :
    let v := service .copy
    let fs := [(0, Service.listFrame (longSpace 17000000))]
    let cs := fun _ => Service.caller
    ((v.after fs cs counting).2.metrics.map fun m =>
        m.errors.total ErrorCode.commandNotSupported.name) = some 1 ∧
      (v.exchanges fs cs counting).filterMap Exchange.told? = [.internalError] ∧
      ((v.observed Service.noteFailures).after fs cs (counting.beside [])).2.processor.2 = [] := by
  intro v fs cs
  have hx (n : Nat) : v.exchanges [(0, Service.listFrame (longSpace n))] cs counting =
      [longExchange n] := rfl
  obtain ⟨ht, hh, hc⟩ := told?_longExchange (n := 17000000) (by decide) (by decide)
  refine ⟨?_, ?_, ?_⟩
  · have he := Service.errors_after (v := v) (frank_processor .copy _) fs cs counting
    rw [hx, List.flatMap_cons, hc] at he
    have ht := congrArg (Option.map (Labelled.total ErrorCode.commandNotSupported.name)) he
    rw [ServiceState.errors, Option.map_map] at ht
    exact ht.trans (congrArg some (total_countAll _ .commandNotSupported))
  · rw [hx, List.filterMap_cons, ht]
    rfl
  · rw [Service.observed_after, Service.noted_noteFailures, hx, List.filterMap_cons, hh]
    rfl

end Standalone

end DocumentServer
