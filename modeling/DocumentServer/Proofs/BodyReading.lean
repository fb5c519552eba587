import DocumentServer.Proofs.RequestLayout
import DocumentServer.Proofs.Acceptance

namespace DocumentServer

/-- The places and counts that a fault tells are of a body of some size. -/
def BodyFault.Within (size : Nat) : BodyFault → Prop
  | truncated offset => offset ≤ size
  | trailing count => 0 < count ∧ count ≤ size
  | _ => True

/-- The errors that are about the body of one message, of an opcode and a size. -/
inductive Refusal (op : Opcode) (size : Nat) : MessageError → Prop
  | malformedBody {fault} (h : fault.Within size) : Refusal op size (.malformedBody op fault)
  | invalidNamespace {s} : Refusal op size (.invalidNamespace s)
  | document {e} : Refusal op size (.document e)

theorem Refusal.not_isFatal {op : Opcode} {size : Nat} {e : MessageError} (h : Refusal op size e) :
    e.isFatal = false := by
  cases h <;> rfl

namespace Body.Source

open Read Grammar

variable {α β : Type} {b : Source} {p : BodyRead α} {q : α → BodyRead β}
  {L L' : ByteArray → α → Prop} {M : α → ByteArray → β → Prop} {i : Nat}

/-- From any place of the body on, a step takes the words of a language that fit in, and refuses
everything else. -/
structure Takes (b : Source) (p : BodyRead α) (L : ByteArray → α → Prop) : Prop where
  ok_iff : ∀ {i}, i ≤ b.bytes.size → ∀ s c j,
    (∃ t, p i s = (.ok (c, j), t)) ↔ i ≤ j ∧ j ≤ b.bytes.size ∧ L (b.bytes.extract i j) c
  refuses : ∀ {i}, i ≤ b.bytes.size → ∀ {s e t}, p i s = (.error e, t) →
    Refusal b.opcode b.bytes.size e

/-- A step takes all bytes from `i` on, if they are in a language, and refuses them if not. -/
structure TakesRest (b : Source) (i : Nat) (p : BodyRead α) (L : ByteArray → α → Prop) : Prop where
  ok_iff (s c j) :
    (∃ t, p i s = (.ok (c, j), t)) ↔ j = b.bytes.size ∧ L (b.bytes.extract i b.bytes.size) c
  refuses {s e t} (h : p i s = (.error e, t)) : Refusal b.opcode b.bytes.size e

theorem Takes.congr (hp : Takes b p L) (h : ∀ w c, L w c ↔ L' w c) : Takes b p L' :=
  ⟨fun hi s c j => by rw [hp.ok_iff hi, h], hp.refuses⟩

theorem TakesRest.congr (hp : TakesRest b i p L)
    (h : ∀ c, L (b.bytes.extract i b.bytes.size) c ↔ L' (b.bytes.extract i b.bytes.size) c) :
    TakesRest b i p L' :=
  ⟨fun s c j => by rw [hp.ok_iff, h], hp.refuses⟩

theorem Takes.pure (a : α) :
    Takes b (Pure.pure a) fun w c => w = ByteArray.empty ∧ c = a := by
  refine ⟨fun {i} hi s c j => ?_, fun {i} hi {s e t} h => ?_⟩
  · constructor
    · rintro ⟨t, h⟩
      obtain ⟨rfl, rfl, -⟩ := pure_eq_ok.1 h
      exact ⟨le_rfl, hi, ByteArray.extract_same, rfl⟩
    · rintro ⟨hij, hj, hw, rfl⟩
      obtain rfl := (Decode.extract_eq_empty_iff hij hj).1 hw
      exact ⟨s, rfl⟩
  · cases h

theorem bind_eq_error {ε σ : Type} {p : Read ε σ α} {q : α → Read ε σ β} {s u : σ} {e : ε} :
    (p >>= q) i s = (.error e, u) ↔
      p i s = (.error e, u) ∨ ∃ a j t, p i s = (.ok (a, j), t) ∧ q a j t = (.error e, u) := by
  rw [bind_apply]
  rcases p i s with ⟨_ | ⟨a, j⟩, t⟩ <;> simp

theorem Takes.bind (hp : Takes b p L) (hq : ∀ a, Takes b (q a) (M a)) :
    Takes b (p >>= q) fun w d => ∃ a u v, w = u ++ v ∧ L u a ∧ M a v d := by
  refine ⟨fun {i} hi s d k => ?_, fun {i} hi {s e t} h => ?_⟩
  · constructor
    · rintro ⟨u, h⟩
      obtain ⟨a, j, t, ha, hd⟩ := bind_eq_ok.1 h
      obtain ⟨hij, hj, hL⟩ := (hp.ok_iff hi s a j).1 ⟨t, ha⟩
      obtain ⟨hjk, hk, hM⟩ := ((hq a).ok_iff hj t d k).1 ⟨u, hd⟩
      exact ⟨hij.trans hjk, hk, a, _, _, (Bytes.extract_append_extract_of_le hij hjk).symm, hL, hM⟩
    · rintro ⟨hik, hk, a, v, w, hw, hL, hM⟩
      obtain ⟨j, hij, hjk, rfl, rfl⟩ := Bytes.exists_of_extract_eq_append hik hk hw
      obtain ⟨t, ha⟩ := (hp.ok_iff hi s a j).2 ⟨hij, hjk.trans hk, hL⟩
      obtain ⟨u, hd⟩ := ((hq a).ok_iff (hjk.trans hk) t d k).2 ⟨hjk, hk, hM⟩
      exact ⟨u, bind_eq_ok.2 ⟨a, j, t, ha, hd⟩⟩
  · rcases bind_eq_error.1 h with h | ⟨a, j, u, ha, h⟩
    · exact hp.refuses hi h
    · exact (hq a).refuses ((hp.ok_iff hi s a j).1 ⟨u, ha⟩).2.1 h

theorem Takes.bind_rest (hp : Takes b p L) (hi : i ≤ b.bytes.size)
    (hq : ∀ a j, i ≤ j → j ≤ b.bytes.size → L (b.bytes.extract i j) a → TakesRest b j (q a) (M a)) :
    TakesRest b i (p >>= q) fun w d => ∃ a u v, w = u ++ v ∧ L u a ∧ M a v d := by
  refine ⟨fun s d k => ?_, fun {s e t} h => ?_⟩
  · constructor
    · rintro ⟨u, h⟩
      obtain ⟨a, j, t, ha, hd⟩ := bind_eq_ok.1 h
      obtain ⟨hij, hj, hL⟩ := (hp.ok_iff hi s a j).1 ⟨t, ha⟩
      obtain ⟨rfl, hM⟩ := ((hq a j hij hj hL).ok_iff t d k).1 ⟨u, hd⟩
      exact ⟨rfl, a, _, _, (Bytes.extract_append_extract_of_le hij hj).symm, hL, hM⟩
    · rintro ⟨rfl, a, v, w, hw, hL, hM⟩
      obtain ⟨j, hij, hj, rfl, rfl⟩ := Bytes.exists_of_extract_eq_append hi le_rfl hw
      obtain ⟨t, ha⟩ := (hp.ok_iff hi s a j).2 ⟨hij, hj, hL⟩
      obtain ⟨u, hd⟩ := ((hq a j hij hj hL).ok_iff t d _).2 ⟨rfl, hM⟩
      exact ⟨u, bind_eq_ok.2 ⟨a, j, t, ha, hd⟩⟩
  · rcases bind_eq_error.1 h with h | ⟨a, j, u, ha, h⟩
    · exact hp.refuses hi h
    · obtain ⟨hij, hj, hL⟩ := (hp.ok_iff hi s a j).1 ⟨u, ha⟩
      exact (hq a j hij hj hL).refuses h

theorem TakesRest.bind {N : α → β → Prop} (hp : TakesRest b i p L)
    (hq : ∀ a, TakesRest b b.bytes.size (q a) fun _ d => N a d) :
    TakesRest b i (p >>= q) fun w d => ∃ a, L w a ∧ N a d := by
  refine ⟨fun s d k => ?_, fun {s e t} h => ?_⟩
  · constructor
    · rintro ⟨u, h⟩
      obtain ⟨a, j, t, ha, hd⟩ := bind_eq_ok.1 h
      obtain ⟨rfl, hL⟩ := (hp.ok_iff s a j).1 ⟨t, ha⟩
      obtain ⟨rfl, hN⟩ := ((hq a).ok_iff t d k).1 ⟨u, hd⟩
      exact ⟨rfl, a, hL, hN⟩
    · rintro ⟨rfl, a, hL, hN⟩
      obtain ⟨t, ha⟩ := (hp.ok_iff s a _).2 ⟨rfl, hL⟩
      obtain ⟨u, hd⟩ := ((hq a).ok_iff t d _).2 ⟨rfl, hN⟩
      exact ⟨u, bind_eq_ok.2 ⟨a, _, t, ha, hd⟩⟩
  · rcases bind_eq_error.1 h with h | ⟨a, j, u, ha, h⟩
    · exact hp.refuses h
    · obtain ⟨rfl, -⟩ := (hp.ok_iff s a j).1 ⟨u, ha⟩
      exact (hq a).refuses h

theorem malformed_ne_ok {fault : BodyFault} {s t : Pool} {c : α} {j : Nat} :
    (b.malformed fault : BodyRead α) i s ≠ (.ok (c, j), t) := by
  simp [malformed, fail]

theorem malformed_refuses {fault : BodyFault} {s t : Pool} {e : MessageError}
    (h : (b.malformed fault : BodyRead α) i s = (.error e, t)) (hf : fault.Within b.bytes.size) :
    Refusal b.opcode b.bytes.size e := by
  cases h
  exact .malformedBody hf

theorem TakesRest.malformed {fault : BodyFault} (h : fault.Within b.bytes.size) :
    TakesRest b i (b.malformed fault : BodyRead α) fun _ _ => False :=
  ⟨fun _ _ _ => ⟨fun ⟨_, h⟩ => absurd h malformed_ne_ok, fun h => h.2.elim⟩,
    fun he => malformed_refuses he h⟩

def whole (b : Source) (p : BodyRead α) : BodyRead α := do
  let a ← p
  b.finish
  return a

theorem whole_bind (p : BodyRead α) (q : α → BodyRead β) :
    b.whole (p >>= q) = p >>= fun a => b.whole (q a) :=
  Read.bind_assoc p q _

theorem takesRest_pure (hi : i ≤ b.bytes.size) (a : α) :
    TakesRest b i (b.whole (Pure.pure a)) fun w c => w = ByteArray.empty ∧ c = a := by
  have hf (s : Pool) : b.whole (Pure.pure a) i s =
      if i ≠ b.bytes.size then b.malformed (.trailing (b.bytes.size - i)) i s
      else (.ok (a, i), s) := by
    by_cases h : i = b.bytes.size
    · simp only [whole, finish, offset, bind_apply, pure_apply, h, ne_eq, not_true_eq_false,
        if_false]
    · simp only [whole, finish, offset, bind_apply, pure_apply, h, ne_eq, not_false_eq_true,
        if_true]
      rfl
  refine ⟨fun s c j => ?_, fun {s e t} h => ?_⟩
  · rw [hf, Decode.extract_eq_empty_iff hi le_rfl]
    split
    next h => exact ⟨fun ⟨t, he⟩ => absurd he malformed_ne_ok, fun he => absurd he.2.1 h⟩
    next h =>
      have h := not_not.1 h
      simp [h, eq_comm, and_comm]
  · rw [hf] at h
    split at h
    next hne => exact malformed_refuses h ⟨by omega, by omega⟩
    next => cases h

theorem Takes.rest (hp : Takes b p L) (hi : i ≤ b.bytes.size) : TakesRest b i (b.whole p) L := by
  refine (hp.bind_rest hi fun a j _ hj _ => takesRest_pure hj a).congr fun c => ?_
  constructor
  · rintro ⟨a, u, v, hw, hL, rfl, rfl⟩
    rwa [hw, ByteArray.append_empty]
  · exact fun hL => ⟨c, _, ByteArray.empty, ByteArray.append_empty.symm, hL, rfl, rfl⟩

end Body.Source

end DocumentServer
