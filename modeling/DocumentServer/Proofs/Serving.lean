import DocumentServer.Proofs.Dispatch
import DocumentServer.Proofs.FrameStream
import DocumentServer.Proofs.Standalone
import DocumentServer.Server.Basic

namespace DocumentServer

structure Session (π : Type) where
  replies : List ByteArray
  frames : Nat
  error : Option (Stop MessageError)
  connection : Connection
  state : ServiceState π

namespace Session

variable {π : Type}

def after (replies : List ByteArray) (frames : Nat) (r : Session π) : Session π :=
  { r with replies := replies ++ r.replies, frames := frames + r.frames }

def next (r : Session π) (q : Connection → ServiceState π → Session π) : Session π :=
  match r.error with
  | some _ => r
  | none => (q r.connection r.state).after r.replies r.frames

theorem next_of_none {r : Session π} (h : r.error = none)
    (q : Connection → ServiceState π → Session π) :
    r.next q = (q r.connection r.state).after r.replies r.frames := by
  rw [next, h]

theorem next_of_some {r : Session π} {e : Stop MessageError} (h : r.error = some e)
    (q : Connection → ServiceState π → Session π) : r.next q = r := by
  rw [next, h]

theorem after_next (r : Session π) (xs : List ByteArray) (n : Nat)
    (q : Connection → ServiceState π → Session π) :
    (r.after xs n).next q = (r.next q).after xs n := by
  cases h : r.error with
  | some e => rw [next_of_some h, next_of_some (r := r.after xs n) h]
  | none =>
    rw [next_of_none h, next_of_none (r := r.after xs n) h]
    simp only [after, List.append_assoc, Nat.add_assoc]

end Session

namespace Service

variable {α ρ π : Type} {v : Service α ρ π}

/-- Serves frames one after the other, up to one that cannot be answered. If all are, the session
ends with the error that stands behind them. -/
def serveAll (v : Service α ρ π) (behind : Option (Stop MessageError)) :
    List Frame → Connection → ServiceState π → Session π
  | [], c, s => ⟨[], 0, behind, c, s⟩
  | f :: fs, c, s =>
    match v.dispatch f c s with
    | (.error e, c, s) => ⟨[], 1, some e, c, s⟩
    | (.ok reply, c, s) => (serveAll v behind fs c s).after reply.toList 1

variable {behind : Option (Stop MessageError)} {f : Frame} {fs gs : List Frame} {c : Connection}
  {s : ServiceState π}

theorem serveAll_cons_ok (behind : Option (Stop MessageError)) (fs : List Frame)
    {reply : Option ByteArray} (h : (v.dispatch f c s).1 = .ok reply) :
    v.serveAll behind (f :: fs) c s =
      (v.serveAll behind fs (v.dispatch f c s).2.1 (v.dispatch f c s).2.2).after reply.toList 1 := by
  rw [serveAll]
  split
  next he => rw [he] at h; cases h
  next he =>
    rw [he] at h ⊢
    cases h
    rfl

theorem serveAll_cons_error (behind : Option (Stop MessageError)) (fs : List Frame)
    {e : Stop MessageError} (h : (v.dispatch f c s).1 = .error e) :
    v.serveAll behind (f :: fs) c s =
      ⟨[], 1, some e, (v.dispatch f c s).2.1, (v.dispatch f c s).2.2⟩ := by
  rw [serveAll]
  split
  next he =>
    rw [he] at h ⊢
    cases h
    rfl
  next he => rw [he] at h; cases h

theorem serveAll_append (behind : Option (Stop MessageError)) (fs gs : List Frame) (c : Connection)
    (s : ServiceState π) :
    v.serveAll behind (fs ++ gs) c s = (v.serveAll none fs c s).next (v.serveAll behind gs) := by
  induction fs generalizing c s with
  | nil => simp [serveAll, Session.next, Session.after]
  | cons f fs ih =>
    rw [List.cons_append]
    cases hd : (v.dispatch f c s).1 with
    | error e =>
      rw [serveAll_cons_error _ _ hd, serveAll_cons_error _ _ hd]
      rfl
    | ok reply => rw [serveAll_cons_ok _ _ hd, serveAll_cons_ok _ _ hd, ih, Session.after_next]

theorem serveAll_of_none (h : (v.serveAll none fs c s).error = none) :
    v.serveAll behind fs c s = { v.serveAll none fs c s with error := behind } := by
  have ha := serveAll_append (v := v) behind fs [] c s
  rw [List.append_nil, Session.next_of_none h] at ha
  rw [ha]
  simp [serveAll, Session.after]

theorem error_serveAll_some (e : Stop MessageError) (fs : List Frame) (c : Connection)
    (s : ServiceState π) : ∃ e', (v.serveAll (some e) fs c s).error = some e' := by
  induction fs generalizing c s with
  | nil => exact ⟨e, rfl⟩
  | cons f fs ih =>
    cases hd : (v.dispatch f c s).1 with
    | error e' => exact ⟨e', by rw [serveAll_cons_error _ _ hd]⟩
    | ok reply =>
      rw [serveAll_cons_ok _ _ hd]
      exact ih _ _

theorem frames_serveAll (h : (v.serveAll none fs c s).error = none) :
    (v.serveAll none fs c s).frames = fs.length := by
  induction fs generalizing c s with
  | nil => rfl
  | cons f fs ih =>
    cases hd : (v.dispatch f c s).1 with
    | error e =>
      rw [serveAll_cons_error _ _ hd] at h
      cases h
    | ok reply =>
      rw [serveAll_cons_ok _ _ hd] at h ⊢
      rw [List.length_cons, Nat.add_comm, ← ih h]
      rfl

theorem requestCount_dispatch (hv : v.Stable fun c _ => c.requestCount) (f : Frame)
    (c : Connection) (s : ServiceState π) :
    (v.dispatch f c s).2.1.requestCount = c.requestCount + 1 := by
  rw [connection_dispatch]
  exact hv.respond f _ _

theorem requestCount_serveAll (behind : Option (Stop MessageError))
    (hv : v.Stable fun c _ => c.requestCount) (fs : List Frame) (c : Connection)
    (s : ServiceState π) :
    (v.serveAll behind fs c s).connection.requestCount =
      c.requestCount + (v.serveAll behind fs c s).frames := by
  induction fs generalizing c s with
  | nil => rfl
  | cons f fs ih =>
    have hc := requestCount_dispatch hv f c s
    cases hd : (v.dispatch f c s).1 with
    | error e =>
      rw [serveAll_cons_error _ _ hd]
      exact hc
    | ok reply =>
      rw [serveAll_cons_ok _ _ hd]
      have hi := ih (v.dispatch f c s).2.1 (v.dispatch f c s).2.2
      rw [hc, Nat.add_assoc] at hi
      exact hi

theorem serveAll_error_of_dispatch (h : ∀ f c s, ∃ reply, (v.dispatch f c s).1 = .ok reply)
    (fs : List Frame) (c : Connection) (s : ServiceState π) :
    (v.serveAll none fs c s).error = none := by
  induction fs generalizing c s with
  | nil => rfl
  | cons f fs ih =>
    obtain ⟨reply, hd⟩ := h f c s
    rw [serveAll_cons_ok _ _ hd]
    exact ih _ _

end Service

namespace Link

variable {α ρ π : Type} {v : Service α ρ π}

def Run.session (r : Run π) : Session π :=
  ⟨r.replies, r.frames, r.error, r.link.connection, r.state⟩

/-- The frames that are there are served, if there are rounds for all of them. -/
theorem serve_session {n : Nat} {k : Link} {s : ServiceState π} (hn : k.stream.buffer.size < n) :
    (serve v n k s).session =
        v.serveAll (k.stream.drain.error?.map .error) k.stream.drain.frames k.connection s ∧
      ((serve v n k s).error = none → (serve v n k s).link.stream = k.stream.drain.rest) := by
  induction n generalizing k s with
  | zero => omega
  | succ n ih =>
    unfold serve
    split
    next e t h =>
      rw [FrameStream.drain_of_error h]
      exact ⟨rfl, nofun⟩
    next t h =>
      rw [FrameStream.drain_of_none h]
      exact ⟨rfl, fun _ => rfl⟩
    next f t h =>
      rw [FrameStream.drain_of_frame h]
      have hlt := FrameStream.size_of_next h
      split
      next e c s' hd =>
        have hs := Service.serveAll_cons_error (t.drain.error?.map .error) t.drain.frames
          (congrArg Prod.fst hd)
        rw [hd] at hs
        exact ⟨hs.symm, nofun⟩
      next reply c s' hd =>
        obtain ⟨hs, hl⟩ := ih (k := ⟨c, t⟩) (s := s') (by dsimp only; omega)
        have ho := Service.serveAll_cons_ok (t.drain.error?.map .error) t.drain.frames
          (congrArg Prod.fst hd)
        rw [hd] at ho
        refine ⟨Eq.trans ?_ ho.symm, hl⟩
        rw [← hs]
        simp only [Run.session, Session.after, Nat.add_comm]

/-- What a chunk completes is served. -/
theorem receive_session (v : Service α ρ π) (chunk : ByteArray) (k : Link) (s : ServiceState π) :
    (receive v chunk k s).session =
        v.serveAll ((k.stream.extend chunk).drain.error?.map .error)
          (k.stream.extend chunk).drain.frames k.connection s ∧
      ((receive v chunk k s).session.error = none →
        (receive v chunk k s).link.stream = (k.stream.extend chunk).drain.rest) :=
  serve_session (Nat.lt_succ_self _)

def joined (chunks : List ByteArray) : ByteArray := chunks.foldr (· ++ ·) ByteArray.empty

theorem receiveAll_cons (chunk : ByteArray) (chunks : List ByteArray) (k : Link)
    (s : ServiceState π) :
    (receiveAll v (chunk :: chunks) k s).session =
      (receive v chunk k s).session.next fun c t =>
        (receiveAll v chunks ⟨c, (receive v chunk k s).link.stream⟩ t).session := by
  rw [receiveAll]
  split
  next he => exact (Session.next_of_some he _).symm
  next he =>
    rw [Session.next_of_none he]
    rfl

/-- Chunks that arrive on a link without a complete frame, one by one and all at once. -/
theorem receiveAll_session (chunks : List ByteArray) {k : Link} {s : ServiceState π}
    (hk : k.stream.drain = ⟨[], none, k.stream⟩) :
    (receiveAll v chunks k s).session =
      v.serveAll ((k.stream.extend (joined chunks)).drain.error?.map .error)
        (k.stream.extend (joined chunks)).drain.frames k.connection s := by
  induction chunks generalizing k s with
  | nil =>
    have he : k.stream.extend (joined []) = k.stream := by
      rw [joined, List.foldr_nil, FrameStream.extend, ByteArray.append_empty]
    rw [he, hk]
    rfl
  | cons chunk chunks ih =>
    have hj : k.stream.extend (joined (chunk :: chunks)) =
        (k.stream.extend chunk).extend (joined chunks) := by
      simp only [joined, List.foldr_cons, FrameStream.extend, ByteArray.append_assoc]
    obtain ⟨hs, hl⟩ := receive_session v chunk k s
    rw [hj, receiveAll_cons]
    cases he : (k.stream.extend chunk).drain.error? with
    | none =>
      have hr := FrameStream.drain_rest (k.stream.extend chunk)
      rw [he, Option.map_none] at hs
      rw [he] at hr
      rw [FrameStream.drain_extend, FrameStream.Outcome.after, Service.serveAll_append, ← hs]
      cases hd : (receive v chunk k s).session.error with
      | some e => rw [Session.next_of_some hd, Session.next_of_some hd]
      | none =>
        rw [Session.next_of_none hd, Session.next_of_none hd, hl hd, ih hr]
    | some e =>
      -- the loop has ended, and so have the frames
      obtain ⟨e', hd⟩ := Service.error_serveAll_some (v := v) (.error e)
        (k.stream.extend chunk).drain.frames k.connection s
      rw [he, Option.map_some] at hs
      rw [← hs] at hd
      rw [FrameStream.drain_extend_of_error he, Session.next_of_some hd, hs]
      rfl

theorem opened_session (v : Service α ρ π) (chunks : List ByteArray) (c : Connection)
    (s : ServiceState π) :
    (receiveAll v chunks (opened c) s).session =
      v.serveAll ((FrameStream.mk (joined chunks)).drain.error?.map .error)
        (FrameStream.mk (joined chunks)).drain.frames c s := by
  have h := receiveAll_session (v := v) chunks (k := opened c) (s := s) FrameStream.drain_empty
  rwa [opened, FrameStream.empty, FrameStream.extend, ByteArray.empty_append] at h

theorem foldl_append (out : ByteArray) (xs : List ByteArray) :
    xs.foldl (· ++ ·) out = out ++ joined xs := by
  induction xs generalizing out with
  | nil => exact ByteArray.append_empty.symm
  | cons x xs ih =>
    rw [List.foldl_cons, ih, ByteArray.append_assoc]
    rfl

theorem output_eq (r : Run π) : r.output = joined r.replies :=
  (foldl_append ByteArray.empty r.replies).trans ByteArray.empty_append

end Link

namespace Server

variable {α ρ π : Type} {v : Service α ρ π} {task : Nat} {w : Server π}

def feed (v : Service α ρ π) (task : Nat) : List ByteArray → Server π → List ByteArray × Server π
  | [], w => ([], w)
  | chunk :: chunks, w =>
    let r := w.receive v task chunk
    let t := feed v task chunks r.2
    (r.1 ++ t.1, t.2)

theorem lookup_map_replace {β : Type} (k : Nat) (u : β) {xs : List (Nat × β)} {t : β}
    (h : xs.lookup k = some t) :
    (xs.map fun x => if x.1 = k then (k, u) else x).lookup k = some u := by
  induction xs with
  | nil => cases h
  | cons x xs ih =>
    by_cases hx : x.1 = k
    · simp [hx]
    · have hk : (k == x.1) = false := beq_false_of_ne (Ne.symm hx)
      rw [List.lookup_cons, hk] at h
      rw [List.map_cons, if_neg hx, List.lookup_cons, hk]
      exact ih h

theorem lookup_filter_ne {β : Type} (k : Nat) (xs : List (Nat × β)) :
    (xs.filter fun x => x.1 ≠ k).lookup k = none := by
  rw [List.lookup_eq_none_iff]
  intro x hx
  exact bne_iff_ne.2 (Ne.symm (of_decide_eq_true (List.mem_filter.1 hx).2))

theorem finish_of_lookup {t : Task} (ht : w.tasks.lookup task = some t) (ending : Ending) :
    (w.finish v task ending).tasks.lookup task = none ∧
      (w.finish v task ending).stats.frames = w.stats.frames ∧
      (w.finish v task ending).stats.errors =
        w.stats.errors + (if ending.isError then 1 else 0) := by
  obtain ⟨⟨address, connection⟩, stream⟩ := t
  unfold finish
  rw [ht]
  cases connection <;> exact ⟨lookup_filter_ne task w.tasks, rfl, rfl⟩

theorem finish_of_none (h : w.tasks.lookup task = none) (ending : Ending) :
    w.finish v task ending = w := by
  unfold finish
  rw [h]

def countsAs : Option (Stop MessageError) → Nat
  | some (.error _) => 1
  | _ => 0

theorem receive_of_lookup {t : Task} {c : Connection} {chunk : ByteArray} {r : Link.Run π}
    (ht : w.tasks.lookup task = some t) (hc : t.channel.connection = some c)
    (hr : Link.receive v chunk ⟨c, t.stream⟩ w.state = r) :
    w.receive v task chunk = (r.replies, w.conclude v task t r) := by
  unfold receive
  rw [ht]
  dsimp only
  rw [hc]
  dsimp only
  rw [hr]

/-- What a run of its loop changes for a task that is under way: the task gets on, or is over if
the loop stopped. -/
theorem conclude_of_lookup {t : Task} (ht : w.tasks.lookup task = some t) (r : Link.Run π) :
    (w.conclude v task t r).stats.frames = w.stats.frames + r.frames ∧
      (w.conclude v task t r).stats.errors = w.stats.errors + countsAs r.error ∧
      (r.error = none →
        (w.conclude v task t r).state = r.state ∧
        (w.conclude v task t r).tasks.lookup task = some (putLink t r.link)) ∧
      (r.error ≠ none → (w.conclude v task t r).tasks.lookup task = none) := by
  have hl : (w.putRun task t r).tasks.lookup task = some (putLink t r.link) :=
    lookup_map_replace task (putLink t r.link) ht
  unfold conclude
  match r.error with
  | none => exact ⟨rfl, rfl, fun _ => ⟨rfl, hl⟩, fun h => absurd rfl h⟩
  | some (.error e) =>
    obtain ⟨hn, hf, hs⟩ := finish_of_lookup (v := v) hl (.failed (.message e))
    exact ⟨hf, hs, nofun, fun _ => hn⟩
  | some .overflow => exact ⟨rfl, rfl, nofun, fun _ => lookup_filter_ne task _⟩

theorem receive_of_none (h : w.tasks.lookup task = none) (chunk : ByteArray) :
    w.receive v task chunk = ([], w) := by
  unfold receive
  rw [h]

theorem feed_of_none (h : w.tasks.lookup task = none) (chunks : List ByteArray) :
    w.feed v task chunks = ([], w) := by
  induction chunks with
  | nil => rfl
  | cons chunk chunks ih =>
    rw [feed, receive_of_none h]
    dsimp only
    rw [ih]
    rfl

theorem feed_of_lookup {t : Task} {c : Connection} {r : Link.Run π} (chunks : List ByteArray)
    (ht : w.tasks.lookup task = some t) (hc : t.channel.connection = some c)
    (hr : Link.receiveAll v chunks ⟨c, t.stream⟩ w.state = r) :
    (w.feed v task chunks).1 = r.replies ∧
      (w.feed v task chunks).2.stats.frames = w.stats.frames + r.frames ∧
      (w.feed v task chunks).2.stats.errors = w.stats.errors + countsAs r.error ∧
      (r.error = none →
        (w.feed v task chunks).2.state = r.state ∧
        (w.feed v task chunks).2.tasks.lookup task = some (putLink t r.link)) ∧
      (r.error ≠ none → (w.feed v task chunks).2.tasks.lookup task = none) := by
  induction chunks generalizing w t c r with
  | nil =>
    subst hr
    have hp : putLink t ⟨c, t.stream⟩ = t := by
      obtain ⟨⟨address, connection⟩, stream⟩ := t
      obtain rfl : connection = some c := hc
      rfl
    refine ⟨rfl, rfl, rfl, fun _ => ⟨rfl, ?_⟩, fun h => absurd rfl h⟩
    rw [Link.receiveAll, hp]
    exact ht
  | cons chunk chunks ih =>
    subst hr
    rw [Link.receiveAll, feed]
    generalize hr : Link.receive v chunk ⟨c, t.stream⟩ w.state = r
    obtain ⟨hf, he, hn, hs⟩ := conclude_of_lookup (v := v) ht r
    rw [receive_of_lookup ht hc hr]
    dsimp only
    cases hd : r.error with
    | none =>
      obtain ⟨h3, h4⟩ := hn hd
      dsimp only
      generalize hq : Link.receiveAll v chunks r.link r.state = q
      obtain ⟨i1, i2, i3, i4⟩ :=
        ih h4 rfl ((congrArg (Link.receiveAll v chunks r.link) h3).trans hq)
      rw [hd] at he
      exact ⟨by rw [i1], by rw [i2, hf, Nat.add_assoc], i3.trans (congrArg (· + _) he), i4⟩
    | some e =>
      have h3 := hs (by rw [hd]; exact Option.some_ne_none e)
      rw [feed_of_none h3]
      dsimp only
      rw [hd, List.append_nil]
      exact ⟨rfl, hf, hd ▸ he, nofun, fun _ => h3⟩

def feedAndClose (v : Service α ρ π) (task : Nat) (chunks : List ByteArray) (w : Server π) :
    List ByteArray × Server π :=
  let r := feed v task chunks w
  (r.1, r.2.finish v task .closed)

/-- The end of a stream is no error: what counts as one is what its loop ended with. -/
theorem feedAndClose_of_lookup {t : Task} {c : Connection} {r : Link.Run π}
    (chunks : List ByteArray) (ht : w.tasks.lookup task = some t)
    (hc : t.channel.connection = some c)
    (hr : Link.receiveAll v chunks ⟨c, t.stream⟩ w.state = r) :
    (w.feedAndClose v task chunks).1 = r.replies ∧
      (w.feedAndClose v task chunks).2.stats.frames = w.stats.frames + r.frames ∧
      (w.feedAndClose v task chunks).2.stats.errors = w.stats.errors + countsAs r.error ∧
      (w.feedAndClose v task chunks).2.tasks.lookup task = none := by
  obtain ⟨h1, h2, h3, hn, hs⟩ := feed_of_lookup chunks ht hc hr
  refine ⟨h1, ?_⟩
  unfold feedAndClose
  dsimp only
  cases he : r.error with
  | none =>
    obtain ⟨-, h4⟩ := hn he
    obtain ⟨i1, i2, i3⟩ := finish_of_lookup (v := v) h4 .closed
    exact ⟨i2.trans h2, i3.trans (he ▸ h3), i1⟩
  | some e =>
    have h4 := hs (by rw [he]; exact Option.some_ne_none e)
    rw [finish_of_none h4]
    exact ⟨h2, he ▸ h3, h4⟩

end Server

/-- Let the stream of a connection arrive in any chunks. The loop does what serving the frames of
the whole stream one after the other does, and ends with the error that stands behind them, if there
is one. If no frame fails to be answered, it writes the replies to all frames in their order, counts
every frame, and ends with the error of the stream, which is fatal; the connection counts every
frame too, if the processor leaves its counter alone. The server writes and counts the same for a
task whose peer sends the chunks and closes; it is an error exactly if the loop ended with one. -/
theorem Link.receiveAll_eq_serveAll {α ρ π : Type} {v : Service α ρ π} {chunks : List ByteArray}
    {c : Connection} {s : ServiceState π} {o : FrameStream.Outcome} {t : Session π} {r : Run π}
    (ho : (FrameStream.mk (joined chunks)).drain = o) (ht : v.serveAll none o.frames c s = t)
    (hr : receiveAll v chunks (opened c) s = r) :
    r.session = v.serveAll (o.error?.map .error) o.frames c s ∧
      ((∀ f c s, ∃ reply, (v.dispatch f c s).1 = .ok reply) → t.error = none) ∧
      (t.error = none →
        r.replies = t.replies ∧ r.output = joined t.replies ∧ r.frames = o.frames.length ∧
        r.error = o.error?.map .error ∧ r.link.connection = t.connection ∧ r.state = t.state ∧
        (v.Stable (fun c _ => c.requestCount) →
          r.link.connection.requestCount = c.requestCount + o.frames.length)) ∧
      (∀ e, o.error? = some e → e.isFatal = true) ∧
      ∀ (w : Server π) (task : Nat) (h : Channel), w.state = s →
        w.tasks.lookup task = some ⟨h, .empty⟩ → h.connection = some c →
          (w.feedAndClose v task chunks).1 = r.replies ∧
          (w.feedAndClose v task chunks).2.stats.frames = w.stats.frames + r.frames ∧
          (w.feedAndClose v task chunks).2.stats.errors =
            w.stats.errors + Server.countsAs r.error ∧
          (w.feedAndClose v task chunks).2.tasks.lookup task = none := by
  have hs : r.session = v.serveAll (o.error?.map .error) o.frames c s := by
    rw [← hr, ← ho]
    exact opened_session v chunks c s
  refine ⟨hs, fun h => ht ▸ Service.serveAll_error_of_dispatch h _ _ _, fun hn => ?_,
    fun e => ho ▸ FrameStream.isFatal_of_drain, fun w task h hw hl hc => ?_⟩
  · subst ht
    have he : r.session = { v.serveAll none o.frames c s with error := o.error?.map .error } :=
      hs.trans (Service.serveAll_of_none hn)
    have hf : r.frames = o.frames.length :=
      (congrArg Session.frames he).trans (Service.frames_serveAll hn)
    have hp : r.replies = (v.serveAll none o.frames c s).replies := congrArg Session.replies he
    refine ⟨hp, by rw [output_eq, hp], hf, congrArg Session.error he,
      congrArg Session.connection he, congrArg Session.state he, fun hv => ?_⟩
    have hc := Service.requestCount_serveAll (o.error?.map .error) hv o.frames c s
    rw [← hs] at hc
    exact hc.trans (congrArg (c.requestCount + ·) hf)
  · exact Server.feedAndClose_of_lookup chunks hl hc (by rw [hw]; exact hr)

namespace Link

def pipelined : List Frame × ByteArray :=
  ([⟨1, 0, .killCursors, Bytes.ofSize 0 ++ Bytes.ofSize 1 ++ Bytes.ofInt64 9⟩,
    ⟨2, 0, .getMore, Bytes.ofSize 0 ++ Body.cstring "shop.orders" ++ Bytes.ofInt32 5 ++
      Bytes.ofInt64 9⟩], Bytes.ofSize 3 ++ Bytes.ofSize 4)

def pipelinedChunks : List ByteArray :=
  let stream := FrameStream.joined pipelined.1 ++ pipelined.2
  [stream.extract 0 3, stream.extract 3 40, stream.extract 40 stream.size]

theorem drain_pipelined :
    (FrameStream.mk (joined pipelinedChunks)).drain =
      ⟨pipelined.1, some (.invalidLength 3), ⟨pipelined.2⟩⟩ := by
  have hs : joined pipelinedChunks = FrameStream.joined pipelined.1 ++ pipelined.2 := by
    decide +kernel
  have he : Frame.split? pipelined.2 = .error (.invalidLength 3) := by
    rw [Frame.split?_of_badLength (by decide +kernel) (by decide +kernel)]
    decide +kernel
  have hn : (FrameStream.mk pipelined.2).next = (.error (.invalidLength 3), ⟨pipelined.2⟩) := by
    rw [FrameStream.next, he]
  rw [hs, FrameStream.drain_joined (by decide +kernel), FrameStream.drain_of_error hn]
  rfl

theorem receiveAll_pipelined :
    let r := receiveAll (Standalone.service .borrow) pipelinedChunks
      (opened (.fresh 1 (.v4 .localhost 5000))) Standalone.fresh
    r.replies.length = 1 ∧ r.frames = 2 ∧ r.error = some (.error (.invalidLength 3)) ∧
      r.link.connection.requestCount = 2 := by
  obtain ⟨-, -, h, -⟩ := receiveAll_eq_serveAll (v := Standalone.service .borrow)
    (c := .fresh 1 (.v4 .localhost 5000)) (s := Standalone.fresh) drain_pipelined rfl rfl
  obtain ⟨h1, -, h2, h3, -, -, h4⟩ := h (by decide +kernel)
  refine ⟨?_, h2, h3, h4 (Standalone.stable_requestCount _ _ _)⟩
  rw [h1]
  decide +kernel

end Link

end DocumentServer
