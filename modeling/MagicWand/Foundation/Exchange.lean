import Mathlib.Data.List.Nodup

/-!
# Exchanges under a binary semaphore

A resource is guarded by a semaphore that a thread takes for a request and gives
back with the answer, possibly in another call. `expected` tells that an answer
is awaited on the resource. `owner`, `opens` and `fouls` are history variables:
who took the semaphore, which exchanges wait for their answer, and who gave back
a semaphore or ended an exchange that was not his.

The operations are total: they do what the code does even when they should not.
`Sound` is what holds as long as each of them is used by the thread it is meant
for.
-/

namespace Foundation

structure Exchange (R T : Type) where
  count : R → Nat
  expected : R → Bool
  owner : R → Option T := fun _ => none
  opens : List (R × T) := []
  fouls : List (R × T) := []

namespace Exchange

variable {R T : Type}

section

variable [DecidableEq R] [DecidableEq T]

/-- Take the semaphore. -/
def down (x : Exchange R T) (r : R) (t : T) : Exchange R T :=
  { x with
    count := Function.update x.count r (x.count r - 1)
    owner := Function.update x.owner r (some t) }

/-- Give the semaphore back. -/
def up (x : Exchange R T) (r : R) (t : T) : Exchange R T :=
  { x with
    count := Function.update x.count r (x.count r + 1)
    owner := Function.update x.owner r none
    fouls := if x.owner r = some t then x.fouls else x.fouls ++ [(r, t)] }

/-- Await an answer. -/
def expect (x : Exchange R T) (r : R) (t : T) : Exchange R T :=
  { x with
    expected := Function.update x.expected r true
    opens := x.opens.insert (r, t) }

/-- Another thread goes on with the exchange that is open. -/
def handover (x : Exchange R T) (r : R) (t : T) : Exchange R T :=
  { x with
    owner := if x.expected r then Function.update x.owner r (some t) else x.owner
    opens := x.opens.map fun o => if o.1 = r then (r, t) else o }

/-- Await no answer any more. -/
def clear (x : Exchange R T) (r : R) (t : T) : Exchange R T :=
  { x with
    expected := Function.update x.expected r false
    opens := x.opens.erase (r, t)
    fouls := if x.expected r = true ∧ (r, t) ∉ x.opens then x.fouls ++ [(r, t)] else x.fouls }

end

/-- The semaphore is free or has one owner, an answer is awaited exactly by the
exchanges that are open, and only an owner has one open. -/
structure Sound (x : Exchange R T) : Prop where
  counted : ∀ r, x.count r = if (x.owner r).isSome then 0 else 1
  owned : ∀ r t, (r, t) ∈ x.opens → x.owner r = some t
  agree : ∀ r, x.expected r = true ↔ ∃ t, (r, t) ∈ x.opens
  nodup : x.opens.Nodup
  clean : x.fouls = []

namespace Sound

variable {x : Exchange R T} {r : R} {t : T}

theorem count_le_one (h : Sound x) (r : R) : x.count r ≤ 1 := by
  rw [h.counted r]
  split <;> omega

theorem free_of_count (h : Sound x) (hcount : 0 < x.count r) : x.owner r = none := by
  have hcounted := h.counted r
  cases howner : x.owner r with
  | none => rfl
  | some u =>
      rw [howner] at hcounted
      simp at hcounted
      omega

theorem not_open_of_free (h : Sound x) (hfree : x.owner r = none) (u : T) :
    (r, u) ∉ x.opens := by
  intro hmem
  have howner := h.owned r u hmem
  rw [hfree] at howner
  cases howner

variable [DecidableEq R]

theorem down (h : Sound x) (hcount : 0 < x.count r) (t : T) : Sound (x.down r t) := by
  have hfree := h.free_of_count hcount
  refine ⟨fun q => ?_, fun q u hmem => ?_, h.agree, h.nodup, h.clean⟩
  · by_cases hq : q = r
    · subst hq
      have hone := h.count_le_one q
      simp only [Exchange.down, Function.update_self, Option.isSome_some, if_true]
      omega
    · simp only [Exchange.down, Function.update_of_ne hq]
      exact h.counted q
  · have hq : q ≠ r := by
      rintro rfl
      exact h.not_open_of_free hfree u hmem
    simp only [Exchange.down, Function.update_of_ne hq]
    exact h.owned q u hmem

variable [DecidableEq T]

theorem up (h : Sound x) (howner : x.owner r = some t) (hopen : (r, t) ∉ x.opens) :
    Sound (x.up r t) := by
  refine ⟨fun q => ?_, fun q u hmem => ?_, h.agree, h.nodup, ?_⟩
  · by_cases hq : q = r
    · subst hq
      have hcounted := h.counted q
      rw [howner] at hcounted
      simp only [Exchange.up, Function.update_self]
      simp [hcounted]
    · simp only [Exchange.up, Function.update_of_ne hq]
      exact h.counted q
  · have hq : q ≠ r := by
      rintro rfl
      have hsame := h.owned q u hmem
      rw [howner] at hsame
      cases hsame
      exact hopen hmem
    simp only [Exchange.up, Function.update_of_ne hq]
    exact h.owned q u hmem
  · simp only [Exchange.up, howner, if_true]
    exact h.clean

theorem expect (h : Sound x) (howner : x.owner r = some t) : Sound (x.expect r t) := by
  refine ⟨h.counted, fun q u hmem => ?_, fun q => ?_, h.nodup.insert, h.clean⟩
  · rcases List.mem_insert_iff.mp hmem with heq | hmem
    · cases heq
      exact howner
    · exact h.owned q u hmem
  · by_cases hq : q = r
    · subst hq
      simp only [Exchange.expect, Function.update_self, true_iff]
      exact ⟨t, List.mem_insert_self⟩
    · simp only [Exchange.expect, Function.update_of_ne hq, h.agree q, List.mem_insert_iff]
      constructor
      · rintro ⟨u, hu⟩
        exact ⟨u, .inr hu⟩
      · rintro ⟨u, hu | hu⟩
        · exact absurd (congrArg Prod.fst hu) hq
        · exact ⟨u, hu⟩

/-- A thread may end its own exchange, or clear a flag that is not set. -/
theorem clear (h : Sound x) (hown : ∀ u, (r, u) ∈ x.opens → u = t) : Sound (x.clear r t) := by
  refine ⟨h.counted, fun q u hmem => h.owned q u (List.mem_of_mem_erase hmem), fun q => ?_,
    h.nodup.erase _, ?_⟩
  · by_cases hq : q = r
    · subst hq
      simp only [Exchange.clear, Function.update_self, Bool.false_eq_true, false_iff, not_exists]
      intro u hmem
      rw [h.nodup.mem_erase_iff] at hmem
      exact hmem.1 (by rw [hown u hmem.2])
    · simp only [Exchange.clear, Function.update_of_ne hq, h.agree q]
      have hne : ∀ u, (q, u) ≠ (r, t) := fun u heq => hq (congrArg Prod.fst heq)
      exact exists_congr fun u => (List.mem_erase_of_ne (hne u)).symm
  · have hclean : ¬ (x.expected r = true ∧ (r, t) ∉ x.opens) := by
      rintro ⟨hset, hnot⟩
      obtain ⟨u, hu⟩ := (h.agree r).mp hset
      rw [hown u hu] at hu
      exact hnot hu
    simp only [Exchange.clear, if_neg hclean]
    exact h.clean

end Sound

/-- Nothing is taken and nothing is awaited. -/
theorem sound_init {count : R → Nat} {expected : R → Bool} (hcount : ∀ r, count r = 1)
    (hexpected : ∀ r, expected r = false) :
    Sound ({ count := count, expected := expected } : Exchange R T) where
  counted r := hcount r
  owned r t hmem := absurd hmem List.not_mem_nil
  agree r := by simp [hexpected r]
  nodup := List.nodup_nil
  clean := rfl

end Exchange

end Foundation
