import Mathlib.Data.List.Count
import Mathlib.Data.List.Nodup
import Mathlib.Data.List.Perm.Basic

/-!
# What the owners put into a shared bag

Objects that each hold some things, and one bag in which the things of all of
them lie. `Balanced` says that the bag has what they hold, nothing else and
nothing twice. Holders come and go, and a holder that is changed has the bag
changed with it. The holders are told apart by a key.
-/

namespace Foundation

variable {O K R : Type}

/-- Change the object that has a key. -/
def alter [DecidableEq K] (key : O → K) (i : K) (g : O → O) (l : List O) : List O :=
  l.map fun o => if key o = i then g o else o

theorem alter_of_not_mem [DecidableEq K] {key : O → K} {i : K} {l : List O}
    (h : i ∉ l.map key) (g : O → O) : alter key i g l = l := by
  rw [alter]
  refine (List.map_congr_left fun o ho => ?_).trans (List.map_id l)
  rw [if_neg, id]
  rintro rfl
  exact h (List.mem_map_of_mem ho)

/-- With distinct keys, one object is changed. -/
theorem alter_split [DecidableEq K] {key : O → K} {l : List O} (h : (l.map key).Nodup) {o : O}
    (ho : o ∈ l) :
    ∃ front back, l = front ++ o :: back ∧
      ∀ g, alter key (key o) g l = front ++ g o :: back := by
  obtain ⟨front, back, rfl⟩ := List.append_of_mem ho
  refine ⟨front, back, rfl, fun g => ?_⟩
  rw [List.map_append, List.map_cons, List.nodup_middle, List.nodup_cons, List.mem_append,
    not_or] at h
  obtain ⟨⟨hfront, hback⟩, -⟩ := h
  rw [alter, List.map_append, List.map_cons, if_pos rfl, ← alter, ← alter,
    alter_of_not_mem hfront, alter_of_not_mem hback]

theorem map_alter [DecidableEq K] {S : Type} {key : O → K} {f : O → S} {g : O → O}
    (hf : ∀ o, f (g o) = f o) (i : K) (l : List O) : (alter key i g l).map f = l.map f := by
  rw [alter, List.map_map]
  refine List.map_congr_left fun o _ => ?_
  rw [Function.comp_apply]
  split
  · exact hf o
  · rfl

/-- The bag has what the owners hold. -/
def Balanced (held : O → List R) (owners : List O) (bag : List R) : Prop :=
  bag.Perm (owners.flatMap held)

namespace Balanced

variable {held : O → List R} {owners owners' front back : List O} {bag bag' : List R} {o : O}

theorem reorder (h : Balanced held owners bag) (hperm : owners.Perm owners') :
    Balanced held owners' bag :=
  h.trans (hperm.flatMap_right held)

/-- Changes that what is held does not show. -/
theorem congr (h : Balanced held owners bag) (heq : owners'.map held = owners.map held) :
    Balanced held owners' bag := by
  rw [Balanced, List.flatMap_def, heq, ← List.flatMap_def]
  exact h

/-- An owner that holds nothing. -/
theorem enter (h : Balanced held owners bag) (ho : held o = []) :
    Balanced held (o :: owners) bag := by
  rw [Balanced, List.flatMap_cons, ho, List.nil_append]
  exact h

/-- The bag is changed by as much as what one owner holds. -/
theorem exchange [DecidableEq R] (h : Balanced held (front ++ o :: back) bag) {o' : O}
    (hbag : (bag' ++ held o).Perm (bag ++ held o')) :
    Balanced held (front ++ o' :: back) bag' := by
  refine List.perm_iff_count.mpr fun r => ?_
  have hold := h.count_eq r
  have hnew := hbag.count_eq r
  simp only [List.flatMap_append, List.flatMap_cons, List.count_append] at hold hnew ⊢
  omega

/-- An owner goes, and what it held with it. -/
theorem leave [DecidableEq R] (h : Balanced held (o :: owners) bag)
    (hbag : (bag' ++ held o).Perm bag) : Balanced held owners bag' := by
  refine List.perm_iff_count.mpr fun r => ?_
  have hold := h.count_eq r
  have hnew := hbag.count_eq r
  simp only [List.flatMap_cons, List.count_append] at hold hnew ⊢
  omega

theorem subperm (h : Balanced held owners bag) (ho : o ∈ owners) : (held o).Subperm bag := by
  refine List.Subperm.trans ?_ h.symm.subperm
  obtain ⟨front, back, rfl⟩ := List.append_of_mem ho
  rw [List.flatMap_append, List.flatMap_cons]
  exact ((List.sublist_append_left _ _).trans (List.sublist_append_right _ _)).subperm

/-- Owners that hold nothing can be left out. -/
theorem filter (h : Balanced held owners bag) {p : O → Bool}
    (hidle : ∀ o ∈ owners, p o = false → held o = []) :
    Balanced held (owners.filter p) bag := by
  have hsame : (owners.filter p).flatMap held = owners.flatMap held := by
    clear h
    induction owners with
    | nil => rfl
    | cons o l ih =>
        have hl := ih fun x hx => hidle x (List.mem_cons_of_mem _ hx)
        rcases ho : p o with _ | _
        · rw [List.filter_cons_of_neg (by rw [ho]; exact Bool.false_ne_true), List.flatMap_cons,
            hidle o List.mem_cons_self ho, List.nil_append, hl]
        · rw [List.filter_cons_of_pos ho, List.flatMap_cons, List.flatMap_cons, hl]
  rw [Balanced, hsame]
  exact h

end Balanced

end Foundation
