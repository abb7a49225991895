import Mathlib.Data.List.Nodup
import Mathlib.Data.List.Perm.Subperm
import Mathlib.Logic.Function.Iterate

/-!
# Drawing an unused identifier

A counter is advanced by `next` until it shows a value that is not in use. When
the values it runs through are pairwise distinct for longer than the list of
used ones, the search ends after at most one more round than there are used
values.
-/

namespace Foundation

namespace FreshId

variable {α : Type} [DecidableEq α] (next : α → α) (used : List α)

/-- At most `fuel` rounds of the search, from counter value `c` on. The counter
ends on the value that is drawn. -/
def pick : Nat → α → Option α
  | 0, _ => none
  | fuel + 1, c => if next c ∈ used then pick fuel (next c) else some (next c)

variable {next used}

theorem pick_not_mem {fuel : Nat} {c id : α} (h : pick next used fuel c = some id) :
    id ∉ used := by
  induction fuel generalizing c with
  | zero => simp [pick] at h
  | succ fuel ih =>
      rw [pick] at h
      split at h
      · exact ih h
      · rename_i hfresh
        cases h
        exact hfresh

/-- What is drawn is a value the counter can show. -/
theorem pick_mem_range {fuel : Nat} {c id : α} (h : pick next used fuel c = some id) :
    ∃ d, id = next d := by
  induction fuel generalizing c with
  | zero => simp [pick] at h
  | succ fuel ih =>
      rw [pick] at h
      split at h
      · exact ih h
      · cases h
        exact ⟨c, rfl⟩

/-- More rounds change nothing. -/
theorem pick_mono {fuel more : Nat} {c id : α} (h : pick next used fuel c = some id)
    (hle : fuel ≤ more) : pick next used more c = some id := by
  induction fuel generalizing more c with
  | zero => simp [pick] at h
  | succ fuel ih =>
      obtain ⟨more, rfl⟩ := Nat.exists_eq_add_of_le' (Nat.lt_of_lt_of_le (Nat.succ_pos fuel) hle)
      rw [pick] at h ⊢
      split
      · rename_i hused
        rw [if_pos hused] at h
        exact ih h (Nat.le_of_succ_le_succ hle)
      · rename_i hfresh
        rwa [if_neg hfresh] at h

/-- A search that finds nothing has seen only used values. -/
theorem pick_none {fuel : Nat} {c : α} (h : pick next used fuel c = none) :
    ∀ k < fuel, next^[k + 1] c ∈ used := by
  induction fuel generalizing c with
  | zero =>
      intro k hk
      exact absurd hk (Nat.not_lt_zero k)
  | succ fuel ih =>
      rw [pick] at h
      split at h
      · rename_i hused
        intro k hk
        rcases k with _ | k
        · exact hused
        · exact ih h k (Nat.lt_of_succ_lt_succ hk)
      · cases h

/-- The search ends: `used.length + 1` rounds are enough when the counter shows
that many distinct values. -/
theorem pick_terminates {c : α}
    (hdistinct : ∀ i ≤ used.length, ∀ j ≤ used.length, next^[i + 1] c = next^[j + 1] c → i = j) :
    ∃ id, pick next used (used.length + 1) c = some id := by
  rw [← Option.isSome_iff_exists, Option.isSome_iff_ne_none]
  intro hnone
  have hseen := pick_none hnone
  let shown := (List.range (used.length + 1)).map fun k => next^[k + 1] c
  have hnodup : shown.Nodup := by
    apply List.Nodup.map_on _ List.nodup_range
    intro i hi j hj hij
    rw [List.mem_range] at hi hj
    exact hdistinct i (Nat.lt_succ_iff.mp hi) j (Nat.lt_succ_iff.mp hj) hij
  have hsubset : shown ⊆ used := by
    intro x hx
    obtain ⟨k, hk, rfl⟩ := List.mem_map.mp hx
    exact hseen k (List.mem_range.mp hk)
  have hlen : shown.length ≤ used.length := (List.subperm_of_subset hnodup hsubset).length_le
  simp only [shown, List.length_map, List.length_range] at hlen
  omega

end FreshId

end Foundation
