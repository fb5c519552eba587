import DocumentServer.Proofs.Replies
import DocumentServer.Proofs.ReplyRoundTrip

namespace DocumentServer

open Grammar

variable {α ρ π : Type}

namespace ErrorCode

theorem mem_all (c : ErrorCode) : c ∈ all := by
  cases c <;> decide

theorem name_injective : Function.Injective name := by
  have h : ∀ c ∈ all, ∀ d ∈ all, c.name = d.name → c = d := by decide +kernel
  exact fun c d => h c c.mem_all d d.mem_all

end ErrorCode

theorem Value.regular_array (ss : List (Scalar String)) :
    (Value.array (ss.map Value.scalar)).Distinct ∧
      (Value.array (ss.map Value.scalar)).depth ≤ maxNesting := by
  rw [Value.Distinct, Value.depth]
  have ha : Value.DistinctAll (ss.map Value.scalar) ∧ Value.depthAll (ss.map Value.scalar) = 0 := by
    induction ss with
    | nil => exact ⟨by rw [List.map_nil, Value.DistinctAll]; trivial, by simp [Value.depthAll]⟩
    | cons s ss ih =>
      simpa [Value.DistinctAll, Value.Distinct, Value.depthAll, Value.depth] using ih
  exact ⟨ha.1, by rw [ha.2]; decide⟩

namespace Document

/-- The code of a document that tells of an error: a code, a message and the mark of failure. -/
def errorCode? : Document String → Option ErrorCode
  | [(k, .scalar (.int32 n)), (m, .scalar (.string _)), (o, .scalar (.double x))] =>
    if k = "code" ∧ m = "errmsg" ∧ o = okField ∧ x = .zero then ErrorCode.ofNumber? n.toInt
    else none
  | _ => none

theorem errorCode?_replyDocument (e : WireError) : e.replyDocument.errorCode? = some e.code := by
  have hn : (Int32.ofInt e.code.number).toInt = e.code.number := by
    cases e.code <;> rfl
  rw [WireError.replyDocument, errorCode?, if_pos ⟨rfl, rfl, rfl, rfl⟩, hn,
    ErrorCode.ofNumber?_number]

theorem errorCode?_append (d : Document String) :
    errorCode? (d ++ [(okField, .scalar (.double .one))]) = none := by
  unfold errorCode?
  split
  next k n m t o x h =>
    have hl := congrArg List.getLast? h
    simp only [List.getLast?_append, List.getLast?_singleton, Option.some_or,
      List.getLast?_cons_cons, Option.some.injEq, Prod.mk.injEq, Value.scalar.injEq,
      Scalar.double.injEq] at hl
    rw [← hl.2]
    exact if_neg fun hx => absurd hx.2.2.2 (by decide)
  next => rfl

/-- A document that is read back as it was written. -/
structure Regular (d : Document String) : Prop where
  distinct : d.Distinct
  shallow : d.depth ≤ maxNesting

theorem regular_iff {d : Document String} : d.Regular ↔
    (keys d).Nodup ∧ ∀ e ∈ d, e.2.Distinct ∧ e.2.depth ≤ maxNesting := by
  rw [forall₂_and, ← and_assoc, ← distinct_iff, ← depth_le_iff]
  exact ⟨fun h => ⟨h.1, h.2⟩, fun h => ⟨h.1, h.2⟩⟩

theorem regular_replyDocument (e : WireError) : e.replyDocument.Regular := by
  have hk : keys e.replyDocument = ["code", "errmsg", okField] := rfl
  refine regular_iff.2 ⟨by rw [hk]; decide, ?_⟩
  simp [WireError.replyDocument, Value.Distinct, Value.depth]

end Document

namespace Reply

def errorCode? (r : Reply) : Option ErrorCode :=
  match r.documents with
  | [d] => d.errorCode?
  | _ => none

/-- The error that the bytes of a message tell its receiver of. -/
def told? (b : ByteArray) : Option ErrorCode :=
  match Frame.split? b with
  | .ok (some (f, _)) =>
    match (parse .copy f (.empty .never 0)).1 with
    | .ok r => r.errorCode?
    | .error _ => none
  | _ => none

theorem told?_of_encode {r : Reply} {id responseTo : Int32} {b : ByteArray}
    (h : r.encode id responseTo = .ok b) (hr : ∀ d ∈ r.documents, d.Regular) :
    told? b = r.errorCode? := by
  obtain ⟨f, hf, -, -, -, hp⟩ :=
    parse_of_encode h (fun d hd => (hr d hd).distinct) fun d hd => (hr d hd).shallow
  simp only [told?, Frame.split?_of_encode hf, hp]

structure Succeeds (r : Reply) : Prop where
  errorCode? : r.errorCode? = none
  regular : ∀ d ∈ r.documents, d.Regular

theorem succeeds_withOk {d : Document String} (h : d.Regular) (ho : okField ∉ Document.keys d) :
    (single d.withOk).Succeeds := by
  have hk := Document.keys_nodup h.distinct
  have hd := Document.withOk_of_notMem ho hk
  refine ⟨by rw [hd]; exact Document.errorCode?_append d, List.forall_mem_singleton.2 ?_⟩
  obtain ⟨-, hv⟩ := Document.regular_iff.1 h
  rw [hd]
  refine Document.regular_iff.2 ⟨?_, fun e he => ?_⟩
  · rw [Document.keys_append]
    exact hk.append (List.nodup_singleton okField) (List.disjoint_singleton.2 ho)
  · rcases List.mem_append.1 he with he | he
    · exact hv e he
    · rw [List.mem_singleton.1 he]
      simp [Value.Distinct, Value.depth]

end Reply

namespace Service

variable {v : Service α ρ π}

/-- No success that a processor gives can be taken for an error. -/
structure Frank (v : Service α ρ π) : Prop where
  query {x q c s r} (h : (v.processor.query x q c s).1 = .ok r) : r.Succeeds
  getMore {x q c s r} (h : (v.processor.getMore x q c s).1 = .ok r) : r.Succeeds
  execute {command x a c s r d} (hc : command ∈ v.registry.commands)
    (h : (v.processor.execute command x a c s).1 = .ok r) (hd : command.result r = .ok d) :
    (Reply.single d.withOk).Succeeds

theorem regular_due (hv : v.Frank) {f : Frame} {c : Connection} {p : Pool} {s : π} {r : Reply}
    (h : v.due f c p s = some r) : ∀ d ∈ r.documents, d.Regular :=
  due_cases (fun e => List.forall_mem_singleton.2 (Document.regular_replyDocument e))
    (fun e => List.forall_mem_singleton.2 (Document.regular_replyDocument e))
    (fun h => (hv.query h).regular) (fun h => (hv.getMore h).regular)
    (fun hc hr hd => (hv.execute hc hr hd).regular) h

theorem errorCode?_failure (e : WireError) :
    (Reply.failure e.replyDocument).errorCode? = some e.code :=
  Document.errorCode?_replyDocument e

theorem errorCode?_documentOf (hv : v.Frank) (x : Context) (d : Document String) (c : Connection)
    (s : π) : (Reply.single (documentOf (v.commandResult x d c s))).errorCode? =
      (errorOf (v.commandResult x d c s)).map WireError.code := by
  cases h : v.commandResult x d c s with
  | error e => exact Document.errorCode?_replyDocument e
  | ok d' =>
    obtain ⟨command, hc, a, r, d'', hr, hd, rfl⟩ := exists_of_commandResult h
    exact (hv.execute hc hr hd).errorCode?

theorem errorCode?_replyOf {a : Except WireError Reply} (h : ∀ {r}, a = .ok r → r.Succeeds) :
    (replyOf a).errorCode? = (errorOf a).map WireError.code := by
  cases a with
  | error e => exact errorCode?_failure e
  | ok r => exact (h rfl).errorCode?

end Service

namespace Builtin

variable {ε δ : Type}

theorem regular_result {c : Command (Argument ε) (Outcome δ)} (hc : c ∈ all) {r : Outcome δ}
    {d : Document String} (h : c.result r = .ok d) :
    d.Regular ∧ okField ∉ Document.keys d := by
  have hd := Command.document?_of_result h
  rw [Document.regular_iff]
  simp only [all, List.mem_cons, List.not_mem_nil, or_false] at hc
  rcases hc with rfl | rfl | rfl | rfl | rfl | rfl <;> cases r <;> cases hd
  case inr.inr.inl.build build =>
    have ha := Value.regular_array (build.versionNumbers.map .int32)
    rw [List.map_map] at ha
    simpa [Build.document, Document.keys, HasContent.content, okField, Value.Distinct,
      Value.depth, Function.comp_def] using ha
  case inr.inr.inr.inr.inr.lastOutcome o =>
    rw [LastOutcome.document]
    cases o.error <;>
      simp [Document.keys, HasContent.content, okField, Value.Distinct, Value.depth]
  all_goals
    simp [Role.document, Document.keys, HasContent.content, okField, Value.Distinct, Value.depth]

end Builtin

namespace Standalone

variable {ε δ : Type}

theorem frank_processor (strategy : Strategy) (seconds : Frame → Double) :
    Service.Frank (⟨Builtin.registry, processor, strategy, seconds⟩ :
      Service (Argument ε) (Outcome δ) Surroundings) where
  query h := nomatch h
  getMore h := nomatch h
  execute hc _ hd := by
    obtain ⟨hr, ho⟩ := Builtin.regular_result (Builtin.mem_all hc) hd
    exact Reply.succeeds_withOk hr ho

end Standalone

end DocumentServer
