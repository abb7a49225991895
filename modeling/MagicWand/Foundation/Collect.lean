import Mathlib.Data.Finset.Card

/-!
# Collecting keys in a table

A table with a fixed number of places takes the keys of a list, each of them
once; when it is full, the rest of the list is not looked at. If there are no
more keys than places, it ends up with all of them.
-/

namespace Foundation

variable {α : Type} [DecidableEq α]

def collect (places : Nat) (table : List α) : List α → List α
  | [] => table
  | x :: xs =>
      if table.length = places then table
      else if x ∈ table then collect places table xs
      else collect places (table ++ [x]) xs

namespace Collect

variable {places : Nat} {table : List α}

theorem collect_full (h : table.length = places) (xs : List α) :
    collect places table xs = table := by
  cases xs with
  | nil => rfl
  | cons x xs => exact if_pos h

omit [DecidableEq α] in
theorem nodup_snoc (h : table.Nodup) {x : α} (hx : x ∉ table) : (table ++ [x]).Nodup := by
  rw [← List.concat_eq_append]
  exact h.concat hx

theorem nodup_collect (h : table.Nodup) (xs : List α) : (collect places table xs).Nodup := by
  induction xs generalizing table with
  | nil => exact h
  | cons x xs ih =>
      rw [collect]
      split_ifs with hfull hx
      · exact h
      · exact ih h
      · exact ih (nodup_snoc h hx)

theorem mem_of_mem_collect {xs : List α} {y : α} (hy : y ∈ collect places table xs) :
    y ∈ table ∨ y ∈ xs := by
  induction xs generalizing table with
  | nil => exact .inl hy
  | cons x xs ih =>
      rw [collect] at hy
      split_ifs at hy
      · exact .inl hy
      · exact (ih hy).imp_right (List.mem_cons_of_mem x)
      · rcases ih hy with hy | hy
        · rcases List.mem_append.mp hy with hy | hy
          · exact .inl hy
          · exact .inr (List.mem_singleton.mp hy ▸ List.mem_cons_self)
        · exact .inr (List.mem_cons_of_mem x hy)

/-- With places for all keys there are, none is missed. -/
theorem mem_collect {keys : Finset α} (hcard : keys.card ≤ places) (hnodup : table.Nodup)
    {xs : List α} (htable : ∀ y ∈ table, y ∈ keys) (hxs : ∀ y ∈ xs, y ∈ keys) {y : α}
    (hy : y ∈ table ∨ y ∈ xs) : y ∈ collect places table xs := by
  induction xs generalizing table with
  | nil => exact hy.resolve_right List.not_mem_nil
  | cons x xs ih =>
      have hrest : ∀ z ∈ xs, z ∈ keys := fun z hz => hxs z (List.mem_cons_of_mem x hz)
      rw [collect]
      split_ifs with hfull hx
      · -- The table holds all keys.
        have hsub : table.toFinset ⊆ keys := fun z hz => htable z (List.mem_toFinset.mp hz)
        have hle : keys.card ≤ table.toFinset.card := by
          rw [List.toFinset_card_of_nodup hnodup, hfull]
          exact hcard
        have hall : table.toFinset = keys := Finset.eq_of_subset_of_card_le hsub hle
        rcases hy with hy | hy
        · exact hy
        · exact List.mem_toFinset.mp (hall ▸ hxs y hy)
      · refine ih hnodup htable hrest ?_
        rcases hy with hy | hy
        · exact .inl hy
        · rcases List.mem_cons.mp hy with rfl | hy
          · exact .inl hx
          · exact .inr hy
      · refine ih (nodup_snoc hnodup hx) ?_ hrest ?_
        · intro z hz
          rcases List.mem_append.mp hz with hz | hz
          · exact htable z hz
          · exact List.mem_singleton.mp hz ▸ hxs x List.mem_cons_self
        · rcases hy with hy | hy
          · exact .inl (List.mem_append_left _ hy)
          · rcases List.mem_cons.mp hy with rfl | hy
            · exact .inl (List.mem_append_right _ (List.mem_singleton_self y))
            · exact .inr hy

end Collect

end Foundation
