import DocumentServer.Proofs.Registration

namespace DocumentServer.Registry

variable {α ρ : Type} {r q : Registry α ρ} {c : Command α ρ} {key : String}

/-- Registers a command in place. No name is entered before all of them are known to be free. -/
def enroll (c : Command α ρ) : StateM (Registry α ρ) (Except ServerError Unit) := do
  match c.names.find? (← get).slots.contains with
  | some taken => return .error (.duplicateCommand taken)
  | none =>
    let slot := (← get).commands.size
    for name in c.names do
      modify fun r => { r with slots := r.slots.insert name slot }
    modify fun r => { r with commands := r.commands.push c }
    return .ok ()

/-- Offers commands to a registry, one after the other: what becomes of each, and the registry. -/
def enrollAll (r : Registry α ρ) :
    List (Command α ρ) → List (Except ServerError Unit) × Registry α ρ
  | [] => ([], r)
  | c :: cs =>
    let (result, q) := (enroll c).run r
    let (results, q) := enrollAll q cs
    (result :: results, q)

def accepted (results : List (Except ServerError Unit)) (cs : List (Command α ρ)) :
    List (Command α ρ) :=
  (results.zip cs).filterMap fun
    | (.ok (), c) => some c
    | (.error _, _) => none

/-- A name that a registered command has. -/
def Taken (r : Registry α ρ) (name : String) : Prop := ∃ c ∈ r.commands, name ∈ c.names

/-- Names lead to the one command that has them: in the index, when they are looked up, and when
they are the first key of a document. -/
structure Represented (r : Registry α ρ) : Prop where
  disjoint : r.commands.toList.Pairwise fun c d => List.Disjoint c.names d.names
  slots_eq_some_iff : ∀ (key : String) (i : Nat),
    r.slots[key]? = some i ↔ ∃ c, r.commands[i]? = some c ∧ key ∈ c.names
  find?_eq_some_iff : ∀ key c k,
    r.find? key = some (c, k) ↔ (c ∈ r.commands ∧ key ∈ c.names) ∧ k = key
  resolve_eq_ok_iff : ∀ (d : Document String) c k,
    r.resolve d = .ok (c, k) ↔ d.firstKey? = some k ∧ c ∈ r.commands ∧ k ∈ c.names

/-- What becomes of a command that is offered to a registry, and of the registry. -/
inductive Offered (r : Registry α ρ) (c : Command α ρ) :
    Except ServerError Unit → Registry α ρ → Prop
  | refused {front back : List String} {taken : String} (hn : c.names = front ++ taken :: back)
      (hf : ∀ name ∈ front, ¬r.Taken name) (ht : r.Taken taken) :
      Offered r c (.error (.duplicateCommand taken)) r
  | registered {q : Registry α ρ} (hf : ∀ name ∈ c.names, ¬r.Taken name)
      (hc : q.commands.toList = r.commands.toList ++ [c])
      (hs : ∀ key : String,
        q.slots[key]? = if key ∈ c.names then some r.size else r.slots[key]?) :
      Offered r c (.ok ()) q

/-- All that one registry shows another one shows too, with more commands at the end. -/
structure Extends (q r : Registry α ρ) : Prop where
  commands : r.commands.toList <+: q.commands.toList
  find? : ∀ key found, r.find? key = some found → q.find? key = some found

theorem run_enterNames (names : List String) (slot : Nat) (r : Registry α ρ) :
    (forIn names PUnit.unit fun name _ => do
      modify fun r : Registry α ρ => { r with slots := r.slots.insert name slot }
      pure (ForInStep.yield PUnit.unit) : StateM (Registry α ρ) PUnit).run r =
        (PUnit.unit, { r with slots := names.foldl (fun m n => m.insert n slot) r.slots }) := by
  induction names generalizing r with
  | nil => rfl
  | cons name names ih =>
    rw [List.forIn_cons]
    exact ih _

theorem run_enroll (c : Command α ρ) (r : Registry α ρ) :
    (enroll c).run r = match r.register c with
      | .ok q => (.ok (), q)
      | .error e => (.error e, r) := by
  unfold enroll register
  rw [StateT.run_bind, StateT.run_get, pure_bind]
  cases c.names.find? r.slots.contains with
  | some taken => rfl
  | none =>
    dsimp only
    -- by rewriting: under the binder of the size the kernel would unfold the loop to compare terms
    rw [StateT.run_bind, StateT.run_get, pure_bind, StateT.run_bind, run_enterNames]
    rfl

theorem registerAll_singleton (r : Registry α ρ) (c : Command α ρ) :
    r.registerAll [c] = (enroll c).run r := by
  rw [run_enroll, registerAll]
  cases r.register c <;> rfl

theorem Consistent.offered (h : r.Consistent) (c : Command α ρ) :
    r.Offered c ((enroll c).run r).1 ((enroll c).run r).2 := by
  have ht (name : String) : r.slots.contains name = true ↔ r.Taken name := h.contains_iff
  rw [run_enroll]
  cases hr : r.register c with
  | ok q =>
    obtain ⟨hf, rfl⟩ := h.register_eq_ok_iff.1 hr
    refine .registered ?_ Array.toList_push fun key => getElem?_foldl_insert _ _ _ _
    rintro name hn ⟨d, hd, hm⟩
    exact hf name hn d hd hm
  | error e =>
    unfold Registry.register at hr
    split at hr
    next taken hs =>
      cases hr
      obtain ⟨hp, front, back, hn, hf⟩ := List.find?_eq_some_iff_append.1 hs
      refine .refused hn (fun name hm => ?_) ((ht taken).1 hp)
      rw [← ht]
      simpa using hf name hm
    next => cases hr

/-- What stands at different places has no name in common. -/
theorem Consistent.pairwise_disjoint (h : r.Consistent) :
    r.commands.toList.Pairwise fun c d => List.Disjoint c.names d.names := by
  rw [List.pairwise_iff_getElem]
  intro i j hi hj hij key hk hl
  have hs := (h key i).2 ⟨_, Array.getElem?_eq_getElem hi, hk⟩
  have ht := (h key j).2 ⟨_, Array.getElem?_eq_getElem hj, hl⟩
  exact hij.ne (Option.some.inj (hs.symm.trans ht))

theorem Consistent.represented (h : r.Consistent) : r.Represented where
  disjoint := h.pairwise_disjoint
  slots_eq_some_iff := h
  find?_eq_some_iff _ _ _ := h.find?_eq_some_iff.trans and_assoc.symm
  resolve_eq_ok_iff _ _ _ := h.resolve_eq_ok_iff

theorem Built.enroll (h : r.Built) (c : Command α ρ) : ((enroll c).run r).2.Built := by
  rw [run_enroll]
  cases hr : r.register c with
  | ok q => exact h.register hr
  | error e => exact h

theorem Built.enrollAll (h : r.Built) (cs : List (Command α ρ)) : (r.enrollAll cs).2.Built := by
  induction cs generalizing r with
  | nil => exact h
  | cons c cs ih => exact ih (h.enroll c)

theorem Extends.refl (r : Registry α ρ) : r.Extends r :=
  ⟨List.prefix_rfl, fun _ _ => id⟩

theorem Extends.trans {p : Registry α ρ} (hq : q.Extends p) (hp : p.Extends r) : q.Extends r :=
  ⟨hp.commands.trans hq.commands, fun key found h => hq.find? key found (hp.find? key found h)⟩

theorem Built.extends_enroll (h : r.Built) (c : Command α ρ) :
    ((Registry.enroll c).run r).2.Extends r := by
  have hr := h.consistent
  have hq := (h.enroll c).consistent
  generalize hs : (Registry.enroll c).run r = s at hq ⊢
  have ho := hr.offered c
  rw [hs] at ho
  obtain ⟨result, q⟩ := s
  cases ho with
  | refused => exact .refl _
  | registered _ hc _ =>
    have hm {d : Command α ρ} (hd : d ∈ r.commands) : d ∈ q.commands := by
      rw [← Array.mem_toList_iff, hc]
      exact List.mem_append_left _ (Array.mem_toList_iff.2 hd)
    refine ⟨hc ▸ List.prefix_append _ _, ?_⟩
    rintro key ⟨d, k⟩ hf
    obtain ⟨hd, hn, rfl⟩ := hr.find?_eq_some_iff.1 hf
    exact hq.find?_eq_some_iff.2 ⟨hm hd, hn, rfl⟩

theorem Built.extends_enrollAll (h : r.Built) (cs : List (Command α ρ)) :
    (r.enrollAll cs).2.Extends r := by
  induction cs generalizing r with
  | nil => exact .refl r
  | cons c cs ih => exact (ih (h.enroll c)).trans (h.extends_enroll c)

theorem Built.commands_enrollAll (h : r.Built) (cs : List (Command α ρ)) :
    (r.enrollAll cs).2.commands.toList =
      r.commands.toList ++ accepted (r.enrollAll cs).1 cs := by
  induction cs generalizing r with
  | nil => exact (List.append_nil _).symm
  | cons c cs ih =>
    have ho := h.consistent.offered c
    have hq := h.enroll c
    rw [Registry.enrollAll]
    generalize (Registry.enroll c).run r = s at ho hq ⊢
    obtain ⟨result, q⟩ := s
    dsimp only at ho hq ⊢
    rw [ih hq]
    cases ho with
    | refused => rfl
    | registered _ hc _ =>
      rw [hc, List.append_assoc]
      rfl

/-- Let any commands be offered to the registry without commands. Afterwards different commands have
no name in common and a name leads to the command that has it; the commands are those that were
accepted, in their order. One more command is refused for the first of its names that is taken, and
then the registry is the same as before; else it is registered under all of its names. Later offers
take nothing away, and a document is resolved by its first key alone. -/
theorem enrollAll_represented (cs : List (Command α ρ)) :
    let r := (empty.enrollAll cs).2
    r.Represented ∧ r.commands.toList = accepted (empty.enrollAll cs).1 cs ∧
      (∀ c, r.registerAll [c] = (enroll c).run r ∧
        r.Offered c ((enroll c).run r).1 ((enroll c).run r).2) ∧
      (∀ ds, (r.enrollAll ds).2.Extends r) ∧
      ∀ key v w es fs, r.resolve ((key, v) :: es) = r.resolve ((key, w) :: fs) := by
  intro r
  have hr : r.Built := Built.empty.enrollAll cs
  refine ⟨hr.consistent.represented, Built.empty.commands_enrollAll cs, fun c => ?_,
    hr.extends_enrollAll, fun key v w es fs => rfl⟩
  exact ⟨r.registerAll_singleton c, hr.consistent.offered c⟩

end DocumentServer.Registry
