import Mathlib.Data.List.TakeWhile

/-!
# Lists in arrays of a fixed size

A list of at most `n` members stands in an array of size `n`, and a value `z` fills
up the rest and marks the end of the list. `probe` looks for a value in the
array: it stops at the value, at a `z` or behind the array, and then reads the
array where it has stopped. A list that fills the whole array leaves no `z` to
stop at.
-/

namespace Foundation

variable {α : Type}

/-- The array. -/
def pad (z : α) (n : Nat) (l : List α) : List α := l ++ List.replicate (n - l.length) z

variable {z x y : α} {n : Nat} {l : List α}

theorem length_pad (h : l.length ≤ n) : (pad z n l).length = n := by
  rw [pad, List.length_append, List.length_replicate]
  omega

theorem pad_nil_succ : pad z (n + 1) [] = z :: pad z n [] := List.replicate_succ

theorem pad_cons : pad z (n + 1) (y :: l) = y :: pad z n l := by
  rw [pad, pad, List.length_cons, Nat.add_sub_add_right, List.cons_append]

/-- Writing behind the list appends to it. -/
theorem set_pad (h : l.length < n) : (pad z n l).set l.length x = pad z n (l ++ [x]) := by
  induction l generalizing n with
  | nil =>
      cases n with
      | zero => exact absurd h (Nat.lt_irrefl 0)
      | succ n => rw [pad_nil_succ, List.nil_append, pad_cons, List.length_nil, List.set_cons_zero]
  | cons y l ih =>
      cases n with
      | zero => exact absurd h (Nat.not_lt_zero _)
      | succ n =>
          rw [pad_cons, List.length_cons, List.set_cons_succ, ih (Nat.lt_of_succ_lt_succ h),
            List.cons_append, pad_cons]

theorem mem_pad (h : l.length ≤ n) : x ∈ pad z n l ↔ x ∈ l ∨ l.length < n ∧ x = z := by
  rw [pad, List.mem_append, List.mem_replicate]
  constructor
  · rintro (hmem | ⟨hroom, rfl⟩)
    · exact Or.inl hmem
    · exact Or.inr ⟨by omega, rfl⟩
  · rintro (hmem | ⟨hroom, rfl⟩)
    · exact Or.inl hmem
    · exact Or.inr ⟨by omega, rfl⟩

/-- The members that stand before the first mark. -/
def front [DecidableEq α] (z : α) (l : List α) : List α := l.takeWhile fun y => y ≠ z

theorem front_cons_self [DecidableEq α] : front z (z :: l) = [] := by simp [front]

theorem front_cons_of_ne [DecidableEq α] (h : y ≠ z) : front z (y :: l) = y :: front z l := by
  simp [front, h]

theorem front_subset [DecidableEq α] (hmem : x ∈ front z l) : x ∈ l ∧ x ≠ z := by
  refine ⟨List.takeWhile_subset _ hmem, ?_⟩
  simpa using List.mem_takeWhile_imp hmem

theorem front_eq_self [DecidableEq α] (h : z ∉ l) : front z l = l := by
  apply List.takeWhile_eq_self_iff.mpr
  intro y hy
  simpa using fun heq : y = z => h (heq ▸ hy)

/-- Does the search for `x` end at `x`? It is `none` if the array is read behind
its end. -/
def probe [DecidableEq α] (z x : α) (a : List α) : Option Bool :=
  (a[a.findIdx fun y => decide (y = z) || decide (y = x)]?).map fun y => decide (y = x)

theorem probe_cons [DecidableEq α] {a : List α} :
    probe z x (y :: a) = if y = z ∨ y = x then some (decide (y = x)) else probe z x a := by
  rw [probe, List.findIdx_cons]
  split
  · rename_i hstop
    rcases hstop with rfl | rfl <;> simp
  · rename_i hgo
    rw [not_or] at hgo
    simp [hgo.1, hgo.2, probe]

/-- The search finds what stands before the first mark, takes the mark for `x` if
`x` is the mark, and leaves an array without a mark. -/
theorem probe_pad [DecidableEq α] (h : l.length ≤ n) :
    probe z x (pad z n l) =
      if x ∈ front z l then some true
      else if (front z l).length < n then some (decide (x = z)) else none := by
  induction l generalizing n with
  | nil =>
      cases n with
      | zero => rfl
      | succ n =>
          rw [pad_nil_succ, probe_cons, if_pos (Or.inl rfl)]
          simp [front, eq_comm (a := x)]
  | cons y l ih =>
      cases n with
      | zero => exact absurd h (Nat.not_succ_le_zero _)
      | succ n =>
          rw [pad_cons, probe_cons]
          by_cases hz : y = z
          · subst hz
            rw [if_pos (Or.inl rfl), front_cons_self]
            simp [eq_comm (a := x)]
          · rw [front_cons_of_ne hz]
            by_cases hx : y = x
            · subst hx
              simp
            · rw [if_neg (not_or.mpr ⟨hz, hx⟩), ih (Nat.le_of_succ_le_succ h)]
              simp [Ne.symm hx]

end Foundation
