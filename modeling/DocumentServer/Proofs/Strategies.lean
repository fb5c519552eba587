import DocumentServer.Message.Request
import DocumentServer.Proofs.Keepers

namespace DocumentServer

instance : HasContent Found := ⟨Found.content⟩

/-- Keeps what texts say and where they were met. -/
def Keeper.noting : Keeper Unit Found := ⟨fun f s => (f, s), fun _ s => s⟩

theorem Keeper.faithful_noting : Keeper.noting.Faithful := fun _ _ => rfl

def Found.view (region base : Nat) (f : Found) : Text := ⟨f.content, .view region (base + f.offset)⟩

theorem Found.StandsIn.of_extract {b : ByteArray} {i n : Nat} {f : Found}
    (h : f.StandsIn (b.extract i (i + n))) : f.offset + f.content.utf8ByteSize < n ∧
      b.extract (i + f.offset) (i + f.offset + f.content.utf8ByteSize) = f.content.toUTF8 := by
  obtain ⟨hs, hw⟩ := h
  obtain ⟨m, hm, hm', hc, -⟩ := (Grammar.extract_eq_append_one_iff (by omega) hs).1 hw
  obtain rfl : m = f.offset + f.content.utf8ByteSize := Nat.succ_inj.1 hm'
  rw [ByteArray.size_extract] at hs
  refine ⟨by omega, ?_⟩
  rw [hc, ByteArray.extract_extract]
  congr 1
  omega

/-- A text is kept under a strategy: as the view of where it stands, or in a cell. -/
structure Found.KeptAs (strategy : Strategy) (region base : Nat) (isKey : Bool) (b : ByteArray)
    (f : Found) (t : Text) : Prop where
  stands : f.StandsIn b
  content : t.content = f.content
  storage : if strategy.borrows isKey then t = f.view region base else t.isView = false

namespace Pool

variable {strategy : Strategy} {region base : Nat} {b : ByteArray}

theorem isView_fetch (likely : Bool) (s : String) (p : Pool) :
    (p.fetch likely s).1.isView = false := by
  unfold fetch intern
  split
  · split
    · split <;> rfl
    · rfl
  · rfl

theorem keptAs_keep {f : Found} (hf : f.StandsIn b) (p : Pool) :
    f.KeptAs strategy region base f.isKey b ((keeper strategy region base).keep f p).1 := by
  apply Found.KeptAs.mk hf (faithful_keeper strategy region base f p)
  by_cases h : strategy.borrows f.isKey = true
  · simp [keeper, h, Found.view]
  · simp only [keeper, h]
    exact isView_fetch f.likely f.content p

theorem related_keeper (strategy : Strategy) (region base : Nat) (b : ByteArray) :
    Keeper.Related b (Found.KeptAs strategy region base true b)
      (Found.KeptAs strategy region base false b) .noting (keeper strategy region base) where
  key _ _ p hf hk := hk ▸ keptAs_keep hf p
  string _ _ p hf hk := hk ▸ keptAs_keep hf p
  content _ _ h := h.content.symm

theorem decode_cases (p : Pool) (strategy : Strategy) (region : Nat) (b : ByteArray) (i : Nat) :
    (∃ e, (Decode.documentAt .noting b i ()).1 = .error e ∧
        (p.decode strategy region b i).1 = .error e) ∨
      ∃ found d n, (Decode.documentAt .noting b i ()).1 = .ok (found, n) ∧
        (p.decode strategy region b i).1 = .ok (d, n) ∧
        Document.Related (Found.KeptAs strategy region i true (b.extract i (i + n)))
          (Found.KeptAs strategy region i false (b.extract i (i + n))) found d := by
  rw [decode_fst]
  exact Decode.documentAt_cases (related_keeper strategy region i) Keeper.faithful_noting b i () p

theorem decode_eq_error {i : Nat} {e : DecodeError}
    (h : (Decode.documentAt .noting b i ()).1 = .error e) (p : Pool) (strategy : Strategy)
    (region : Nat) : (p.decode strategy region b i).1 = .error e := by
  obtain ⟨e', hn, hd⟩ | ⟨_, _, _, hn, -⟩ := decode_cases p strategy region b i
  · cases h.symm.trans hn
    exact hd
  · cases h.symm.trans hn

variable {found : Document Found} {d : Document Text}

/-- Decoding keeps the texts that are met, under every strategy and in every pool. -/
theorem decode_eq_ok {i n : Nat} (h : (Decode.documentAt .noting b i ()).1 = .ok (found, n))
    (p : Pool) (strategy : Strategy) (region : Nat) :
    ∃ d, (p.decode strategy region b i).1 = .ok (d, n) ∧
      Document.Related (Found.KeptAs strategy region i true (b.extract i (i + n)))
        (Found.KeptAs strategy region i false (b.extract i (i + n))) found d := by
  obtain ⟨_, hn, -⟩ | ⟨_, d, _, hn, hd, hr⟩ := decode_cases p strategy region b i
  · cases h.symm.trans hn
  · cases h.symm.trans hn
    exact ⟨d, hd, hr⟩

theorem plain_of_related
    (h : Document.Related (Found.KeptAs strategy region base true b)
      (Found.KeptAs strategy region base false b) found d) : d.plain = found.plain :=
  (h.mapTexts (fun _ _ h => h.content.symm) fun _ _ h => h.content.symm).symm

theorem views_of_keptAs {isKey : Bool} {fs : List Found} {ts : List Text}
    (hs : strategy.borrows isKey = true)
    (h : List.Forall₂ (Found.KeptAs strategy region base isKey b) fs ts) :
    ts = fs.map (Found.view region base) := by
  induction h with
  | nil => rfl
  | cons ht _ ih =>
    have hv := ht.storage
    rw [if_pos hs] at hv
    rw [List.map_cons, ← ih, hv]

theorem owned_of_keptAs {isKey : Bool} {fs : List Found} {ts : List Text}
    (hs : strategy.borrows isKey = false)
    (h : List.Forall₂ (Found.KeptAs strategy region base isKey b) fs ts) :
    ∀ t ∈ ts, t.isView = false := by
  induction h with
  | nil => simp
  | cons ht _ ih =>
    have hv := ht.storage
    rw [if_neg (Bool.not_eq_true _ ▸ hs)] at hv
    exact List.forall_mem_cons.2 ⟨hv, ih⟩

theorem stands_of_keptAs {isKey : Bool} {fs : List Found} {ts : List Text}
    (h : List.Forall₂ (Found.KeptAs strategy region base isKey b) fs ts) :
    ∀ f ∈ fs, f.StandsIn b := by
  induction h with
  | nil => simp
  | cons ht _ ih => exact List.forall_mem_cons.2 ⟨ht.stands, ih⟩

theorem texts_of_related
    (h : Document.Related (Found.KeptAs strategy region base true b)
      (Found.KeptAs strategy region base false b) found d) :
    (if strategy.borrows true then
        Document.allKeys d = (Document.allKeys found).map (Found.view region base)
      else ∀ t ∈ Document.allKeys d, t.isView = false) ∧
      (if strategy.borrows false then
        Document.strings d = (Document.strings found).map (Found.view region base)
      else ∀ t ∈ Document.strings d, t.isView = false) ∧
      ∀ f ∈ found.texts, f.StandsIn b := by
  refine ⟨?_, ?_, fun f hf => ?_⟩
  · split
    next hs => exact views_of_keptAs hs h.allKeys
    next hs => exact owned_of_keptAs (Bool.eq_false_of_not_eq_true hs) h.allKeys
  · split
    next hs => exact views_of_keptAs hs h.strings
    next hs => exact owned_of_keptAs (Bool.eq_false_of_not_eq_true hs) h.strings
  · rcases List.mem_append.1 hf with hf | hf
    · exact stands_of_keptAs h.allKeys f hf
    · exact stands_of_keptAs h.strings f hf

/-- Decoding any bytes under the three strategies, each in a pool of its own, gives three times the
same error, or three times the same document and length. Copies have no views; borrowed documents
have views for all texts, and where only values are borrowed, for all but the keys. Every view shows
the bytes at which the decoder met its text, inside the document. -/
theorem decode_strategies (region : Nat) (b : ByteArray) (i : Nat) (p q r : Pool) :
    (∃ e, (p.decode .copy region b i).1 = .error e ∧ (q.decode .borrow region b i).1 = .error e ∧
        (r.decode .borrowValues region b i).1 = .error e) ∨
      ∃ (copied viewed mixed : Document Text) (n : Nat) (found : Document Found),
        (p.decode .copy region b i).1 = .ok (copied, n) ∧
        (q.decode .borrow region b i).1 = .ok (viewed, n) ∧
        (r.decode .borrowValues region b i).1 = .ok (mixed, n) ∧
        copied.plain = viewed.plain ∧ mixed.plain = viewed.plain ∧
        (∀ t ∈ copied.texts, t.isView = false) ∧
        Document.allKeys viewed = (Document.allKeys found).map (Found.view region i) ∧
        Document.strings viewed = (Document.strings found).map (Found.view region i) ∧
        (∀ t ∈ Document.allKeys mixed, t.isView = false) ∧
        Document.strings mixed = (Document.strings found).map (Found.view region i) ∧
        (Decode.documentAt .noting b i ()).1 = .ok (found, n) ∧
        ∀ f ∈ found.texts, f.offset + f.content.utf8ByteSize < n ∧
          b.extract (i + f.offset) (i + f.offset + f.content.utf8ByteSize) = f.content.toUTF8 := by
  cases hn : (Decode.documentAt Keeper.noting b i ()).1 with
  | error e =>
    exact .inl ⟨e, decode_eq_error hn p _ _, decode_eq_error hn q _ _, decode_eq_error hn r _ _⟩
  | ok a =>
    obtain ⟨found, n⟩ := a
    obtain ⟨copied, hcd, hcr⟩ := decode_eq_ok hn p .copy region
    obtain ⟨viewed, hbd, hbr⟩ := decode_eq_ok hn q .borrow region
    obtain ⟨mixed, hvd, hvr⟩ := decode_eq_ok hn r .borrowValues region
    obtain ⟨hck, hcs, hst⟩ := texts_of_related hcr
    obtain ⟨hbk, hbs, -⟩ := texts_of_related hbr
    obtain ⟨hvk, hvs, -⟩ := texts_of_related hvr
    have hp := plain_of_related hbr
    refine .inr ⟨copied, viewed, mixed, n, found, hcd, hbd, hvd, ?_, ?_, fun t ht => ?_, hbk, hbs,
      hvk, hvs, rfl, fun f hf => (hst f hf).of_extract⟩
    · rw [plain_of_related hcr, hp]
    · rw [plain_of_related hvr, hp]
    · exact (List.mem_append.1 ht).elim (hck t) (hcs t)

end Pool

namespace Body.Source

open Read

variable (op : Opcode) (bytes : ByteArray) (s t : Strategy)

theorem parallel_advance (n : Nat) :
    Parallel Eq (advance ⟨op, bytes, s⟩ n) (advance ⟨op, bytes, t⟩ n) := by
  intro i p q
  unfold advance
  dsimp only
  split
  · exact .error _
  · exact .ok _ rfl

theorem parallel_int32 : Parallel Eq (int32 ⟨op, bytes, s⟩) (int32 ⟨op, bytes, t⟩) :=
  (parallel_advance op bytes s t 4).before fun _ => .pure rfl

theorem parallel_uint32 : Parallel Eq (uint32 ⟨op, bytes, s⟩) (uint32 ⟨op, bytes, t⟩) :=
  (parallel_advance op bytes s t 4).before fun _ => .pure rfl

theorem parallel_int64 : Parallel Eq (int64 ⟨op, bytes, s⟩) (int64 ⟨op, bytes, t⟩) :=
  (parallel_advance op bytes s t 8).before fun _ => .pure rfl

theorem parallel_atEnd : Parallel Eq (atEnd ⟨op, bytes, s⟩) (atEnd ⟨op, bytes, t⟩) :=
  Parallel.offset.before fun _ => .pure rfl

theorem parallel_malformed {α : Type} (fault : BodyFault) :
    Parallel Eq (malformed ⟨op, bytes, s⟩ fault : BodyRead α) (malformed ⟨op, bytes, t⟩ fault) :=
  .fail _ _

theorem parallel_finish : Parallel Eq (finish ⟨op, bytes, s⟩) (finish ⟨op, bytes, t⟩) := by
  apply Parallel.offset.before
  intro i
  dsimp only
  split
  · exact parallel_malformed op bytes s t _
  · exact .pure rfl

theorem parallel_count (fault : Int → BodyFault) :
    Parallel Eq (count ⟨op, bytes, s⟩ fault) (count ⟨op, bytes, t⟩ fault) := by
  apply (parallel_int32 op bytes s t).before
  intro n
  split
  · exact parallel_malformed op bytes s t _
  · exact .pure rfl

theorem parallel_space : Parallel Eq (space ⟨op, bytes, s⟩) (space ⟨op, bytes, t⟩) := by
  intro i p q
  unfold space
  dsimp only
  split
  · exact .error _
  · split
    · exact .error _
    · split
      · exact .ok _ rfl
      · exact .error _

theorem document_fst (b : Source) (i : Nat) (p : Pool) :
    (b.document i p).1 =
      match (p.decode b.strategy 0 b.bytes i).1 with
      | .ok (d, n) => .ok (Document.plain d, i + n)
      | .error e => .error (.document e) := by
  unfold document
  rcases p.decode b.strategy 0 b.bytes i with ⟨_ | _, _⟩ <;> rfl

theorem parallel_document : Parallel Eq (document ⟨op, bytes, s⟩) (document ⟨op, bytes, t⟩) := by
  intro i p q
  rw [document_fst, document_fst]
  cases hn : (Decode.documentAt Keeper.noting bytes i ()).1 with
  | error e =>
    rw [Pool.decode_eq_error hn, Pool.decode_eq_error hn]
    exact .error _
  | ok a =>
    obtain ⟨found, n⟩ := a
    obtain ⟨d, hp, hd⟩ := Pool.decode_eq_ok hn p s 0
    obtain ⟨e, hq, he⟩ := Pool.decode_eq_ok hn q t 0
    rw [hp, hq]
    dsimp only
    rw [Pool.plain_of_related hd, Pool.plain_of_related he]
    exact .ok _ rfl

theorem parallel_documents (n : Nat) (ds : Array (Document String)) :
    Parallel Eq (documents ⟨op, bytes, s⟩ n ds) (documents ⟨op, bytes, t⟩ n ds) := by
  induction n generalizing ds with
  | zero => exact .pure rfl
  | succ n ih =>
    apply (parallel_atEnd op bytes s t).before
    intro e
    split
    · exact .pure rfl
    · exact (parallel_document op bytes s t).before fun d => ih (ds.push d)

end Body.Source

theorem Read.Parallel.times {ε σ τ α : Type} {p : Read ε σ α} {q : Read ε τ α}
    (h : Parallel Eq p q) (n : Nat) (out : Array α) :
    Parallel Eq (Read.times p n out) (Read.times q n out) := by
  induction n generalizing out with
  | zero => exact .pure rfl
  | succ n ih => exact h.before fun a => ih (out.push a)

namespace Request

open Read Body.Source

variable (op : Opcode) (bytes : ByteArray) (s t : Strategy)

theorem parallel_readQuery : Parallel Eq (readQuery ⟨op, bytes, s⟩) (readQuery ⟨op, bytes, t⟩) := by
  have hd := parallel_document op bytes s t
  apply (parallel_uint32 op bytes s t).before
  intro options
  apply (parallel_space op bytes s t).before
  intro space
  apply (parallel_int32 op bytes s t).before
  intro skip
  apply (parallel_int32 op bytes s t).before
  intro count
  apply hd.before
  intro d
  apply (parallel_atEnd op bytes s t).before
  intro e
  split
  · exact .pure rfl
  · exact (hd.before fun d => .pure rfl).before fun o => .pure rfl

theorem parallel_readInsert :
    Parallel Eq (readInsert ⟨op, bytes, s⟩) (readInsert ⟨op, bytes, t⟩) := by
  apply (parallel_uint32 op bytes s t).before
  intro flags
  apply (parallel_space op bytes s t).before
  intro space
  apply (parallel_documents op bytes s t bytes.size #[]).before
  intro ds
  split
  · exact parallel_malformed op bytes s t _
  · exact .pure rfl

theorem parallel_readUpdate :
    Parallel Eq (readUpdate ⟨op, bytes, s⟩) (readUpdate ⟨op, bytes, t⟩) :=
  (parallel_int32 op bytes s t).before fun _ => (parallel_space op bytes s t).before fun _ =>
    (parallel_uint32 op bytes s t).before fun _ => (parallel_document op bytes s t).before fun _ =>
      (parallel_document op bytes s t).before fun _ => .pure rfl

theorem parallel_readDelete :
    Parallel Eq (readDelete ⟨op, bytes, s⟩) (readDelete ⟨op, bytes, t⟩) :=
  (parallel_int32 op bytes s t).before fun _ => (parallel_space op bytes s t).before fun _ =>
    (parallel_uint32 op bytes s t).before fun _ => (parallel_document op bytes s t).before fun _ =>
      .pure rfl

theorem parallel_readGetMore :
    Parallel Eq (readGetMore ⟨op, bytes, s⟩) (readGetMore ⟨op, bytes, t⟩) :=
  (parallel_int32 op bytes s t).before fun _ => (parallel_space op bytes s t).before fun _ =>
    (parallel_int32 op bytes s t).before fun _ => (parallel_int64 op bytes s t).before fun _ =>
      .pure rfl

theorem parallel_readKillCursors :
    Parallel Eq (readKillCursors ⟨op, bytes, s⟩) (readKillCursors ⟨op, bytes, t⟩) :=
  (parallel_int32 op bytes s t).before fun _ => (parallel_count op bytes s t _).before fun n =>
    ((parallel_int64 op bytes s t).times n #[]).before fun _ => .pure rfl

theorem parallel_read : Parallel Eq (read ⟨op, bytes, s⟩) (read ⟨op, bytes, t⟩) := by
  unfold read
  cases op with
  | query => exact (parallel_readQuery _ _ _ _).before fun _ =>
      (parallel_finish _ _ _ _).before fun _ => .pure rfl
  | insert => exact (parallel_readInsert _ _ _ _).before fun _ =>
      (parallel_finish _ _ _ _).before fun _ => .pure rfl
  | update => exact (parallel_readUpdate _ _ _ _).before fun _ =>
      (parallel_finish _ _ _ _).before fun _ => .pure rfl
  | delete => exact (parallel_readDelete _ _ _ _).before fun _ =>
      (parallel_finish _ _ _ _).before fun _ => .pure rfl
  | getMore => exact (parallel_readGetMore _ _ _ _).before fun _ =>
      (parallel_finish _ _ _ _).before fun _ => .pure rfl
  | killCursors => exact (parallel_readKillCursors _ _ _ _).before fun _ =>
      (parallel_finish _ _ _ _).before fun _ => .pure rfl
  | reply => exact (parallel_malformed _ _ _ _ _).before fun _ =>
      (parallel_finish _ _ _ _).before fun _ => .pure rfl

theorem parse_fst (s t : Strategy) (f : Frame) (p q : Pool) :
    (parse s f p).1 = (parse t f q).1 := by
  have hm := parallel_read f.opcode f.body s t 0 p q
  unfold parse Body.run
  revert hm
  dsimp only
  rcases read ⟨f.opcode, f.body, s⟩ 0 p with ⟨x, p'⟩
  rcases read ⟨f.opcode, f.body, t⟩ 0 q with ⟨y, q'⟩
  intro hm
  cases hm with
  | ok j h => rw [h]
  | error e => rfl

end Request

end DocumentServer
