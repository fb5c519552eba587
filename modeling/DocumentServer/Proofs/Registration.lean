import Mathlib
import DocumentServer.Command.Builtin

namespace DocumentServer

namespace Registry

variable {α ρ : Type} {r q : Registry α ρ} {c d : Command α ρ} {key : String} {i : Nat}

inductive Built : Registry α ρ → Prop
  | empty : Built empty
  | register {r q : Registry α ρ} {c : Command α ρ} (hr : Built r) (h : r.register c = .ok q) :
    Built q

/-- Every name leads to the place of the command that has it, and to nothing else. -/
def Consistent (r : Registry α ρ) : Prop :=
  ∀ key i, r.slots[key]? = some i ↔ ∃ c : Command α ρ, r.commands[i]? = some c ∧ key ∈ c.names

theorem getElem?_foldl_insert (names : List String) (m : Std.HashMap String Nat) (i : Nat)
    (key : String) :
    (names.foldl (fun m n => m.insert n i) m)[key]? = if key ∈ names then some i else m[key]? := by
  induction names generalizing m with
  | nil => simp
  | cons n names ih =>
    rw [List.foldl_cons, ih, Std.HashMap.getElem?_insert]
    by_cases hm : key ∈ names
    · simp [hm]
    · by_cases hn : n = key
      · simp [hn]
      · simp [hm, hn, Ne.symm hn]

theorem Consistent.contains_iff (h : r.Consistent) :
    r.slots.contains key = true ↔ ∃ c ∈ r.commands, key ∈ c.names := by
  constructor
  · intro hk
    obtain ⟨i, hi⟩ : ∃ i, r.slots[key]? = some i := by
      rw [← Option.isSome_iff_exists, ← Std.HashMap.contains_eq_isSome_getElem?]
      exact hk
    obtain ⟨c, hc, hn⟩ := (h key i).1 hi
    exact ⟨c, Array.mem_of_getElem? hc, hn⟩
  · rintro ⟨c, hc, hn⟩
    obtain ⟨i, hi⟩ := Array.mem_iff_getElem?.1 hc
    rw [Std.HashMap.contains_eq_isSome_getElem?, (h key i).2 ⟨c, hi, hn⟩]
    rfl

/-- A command is registered exactly if none of its names is taken. -/
theorem Consistent.register_eq_ok_iff (h : r.Consistent) :
    r.register c = .ok q ↔ (∀ n ∈ c.names, ∀ d ∈ r.commands, n ∉ d.names) ∧
      q = ⟨r.commands.push c, c.names.foldl (fun m n => m.insert n r.commands.size) r.slots⟩ := by
  have hf : (c.names.find? r.slots.contains = none) ↔
      ∀ n ∈ c.names, ∀ d ∈ r.commands, n ∉ d.names := by
    rw [List.find?_eq_none]
    refine forall₂_congr fun n _ => ?_
    rw [h.contains_iff]
    simp
  rw [← hf]
  unfold register
  cases hn : c.names.find? r.slots.contains with
  | none => simp [eq_comm]
  | some taken => simp

theorem consistent_empty : (empty : Registry α ρ).Consistent := by
  intro key i
  simp [empty]

theorem Consistent.register (h : r.Consistent) (hq : r.register c = .ok q) : q.Consistent := by
  obtain ⟨hf, rfl⟩ := h.register_eq_ok_iff.1 hq
  intro key i
  rw [getElem?_foldl_insert, Array.getElem?_push]
  by_cases hk : key ∈ c.names
  · rw [if_pos hk]
    constructor
    · intro hi
      obtain rfl := Option.some.inj hi
      exact ⟨c, if_pos rfl, hk⟩
    · rintro ⟨d, hd, hn⟩
      by_cases hi : i = r.commands.size
      · rw [hi]
      · rw [if_neg hi] at hd
        exact absurd hn (hf key hk d (Array.mem_of_getElem? hd))
  · rw [if_neg hk, h key i]
    by_cases hi : i = r.commands.size
    · subst hi
      simp [hk]
    · rw [if_neg hi]

theorem Built.consistent (h : r.Built) : r.Consistent := by
  induction h with
  | empty => exact consistent_empty
  | register _ hq ih => exact ih.register hq

theorem Consistent.find?_eq_some_iff (h : r.Consistent) {k : String} :
    r.find? key = some (c, k) ↔ c ∈ r.commands ∧ key ∈ c.names ∧ k = key := by
  have hf : r.find? key = some (c, k) ↔
      ∃ i, r.slots[key]? = some i ∧ r.commands[i]? = some c ∧ key = k := by
    simp [find?, Option.bind_eq_some_iff]
  rw [hf]
  constructor
  · rintro ⟨i, hi, hc, rfl⟩
    obtain ⟨d, hd, hn⟩ := (h key i).1 hi
    obtain rfl := Option.some.inj (hc.symm.trans hd)
    exact ⟨Array.mem_of_getElem? hc, hn, rfl⟩
  · rintro ⟨hc, hn, rfl⟩
    obtain ⟨i, hi⟩ := Array.mem_iff_getElem?.1 hc
    exact ⟨i, (h _ i).2 ⟨c, hi, hn⟩, hi, rfl⟩

theorem Consistent.find?_eq_none_iff (h : r.Consistent) :
    r.find? key = none ↔ ∀ c ∈ r.commands, key ∉ c.names := by
  rw [Option.eq_none_iff_forall_ne_some]
  constructor
  · intro hf c hc hn
    exact hf (c, key) (h.find?_eq_some_iff.2 ⟨hc, hn, rfl⟩)
  · rintro hf ⟨c, k⟩ hs
    obtain ⟨hc, hn, -⟩ := h.find?_eq_some_iff.1 hs
    exact hf c hc hn

theorem Consistent.resolve_eq_ok_iff (h : r.Consistent) {d : Document String} :
    r.resolve d = .ok (c, key) ↔ d.firstKey? = some key ∧ c ∈ r.commands ∧ key ∈ c.names := by
  unfold resolve
  cases hk : Document.firstKey? d with
  | none => simp
  | some first =>
    dsimp only
    cases hf : r.find? first with
    | none =>
      have hn := h.find?_eq_none_iff.1 hf
      simp only [reduceCtorEq, Option.some.injEq, false_iff]
      rintro ⟨rfl, hc, hm⟩
      exact hn _ hc hm
    | some found =>
      rw [Except.ok.injEq, ← Option.some.injEq, ← hf, h.find?_eq_some_iff]
      constructor
      · rintro ⟨hc, hm, rfl⟩
        exact ⟨rfl, hc, hm⟩
      · rintro ⟨hs, hc, hm⟩
        obtain rfl := Option.some.inj hs
        exact ⟨hc, hm, rfl⟩

/-- Commands of which no two have a name in common are all registered, behind those that are. -/
theorem Built.registerAll (hr : r.Built) {cs : List (Command α ρ)}
    (hd : (r.commands.toList ++ cs).Pairwise fun c d => List.Disjoint c.names d.names) :
    (r.registerAll cs).1 = .ok () ∧ (r.registerAll cs).2.Built ∧
      (r.registerAll cs).2.commands.toList = r.commands.toList ++ cs := by
  induction cs generalizing r with
  | nil => exact ⟨rfl, hr, by rw [List.append_nil]; rfl⟩
  | cons c cs ih =>
    have hf : ∀ n ∈ c.names, ∀ d ∈ r.commands, n ∉ d.names := by
      intro n hn d hm hnd
      have hp := (List.pairwise_append.1 hd).2.2 d hm.val c List.mem_cons_self
      exact hp hnd hn
    have hq := hr.consistent.register_eq_ok_iff.2 ⟨hf, rfl⟩
    rw [Registry.registerAll, hq]
    dsimp only
    have hb := hr.register hq
    have hl (slots : Std.HashMap String Nat) :
        (⟨r.commands.push c, slots⟩ : Registry α ρ).commands.toList ++ cs =
          r.commands.toList ++ c :: cs := by
      rw [Array.toList_push, List.append_assoc, List.singleton_append]
    obtain ⟨ho, hb', hc⟩ := ih hb (by rw [hl]; exact hd)
    exact ⟨ho, hb', by rw [hc, hl]⟩

end Registry

namespace Builtin

variable {ε δ : Type}

theorem built_registry :
    (registry : Registry (Argument ε) (Outcome δ)).Built ∧
      (registry : Registry (Argument ε) (Outcome δ)).commands.toList = all := by
  have hd : ((Registry.empty : Registry (Argument ε) (Outcome δ)).commands.toList ++ all).Pairwise
      fun c d => List.Disjoint (Command.names c) (Command.names d) := by
    simp [Registry.empty, all, ping, isMaster, buildInfo, getNonce, dropIndexes, getLastError,
      plain, Command.names]
  exact (Registry.Built.empty.registerAll hd).2

end Builtin

end DocumentServer
