import Mathlib.Data.List.Nodup
import Mathlib.Data.List.Perm.Basic
import Mathlib.Logic.Function.Basic

/-!
# Gauges

A counter that is kept in step with a mark on the members of a list. It is right
as long as a mark is set and cleared together with the counter, and only members
are marked.
-/

namespace Foundation

structure Gauge (α : Type) where
  members : List α
  marked : α → Bool
  count : Int

namespace Gauge

/-- Each member is there once, and only members are marked. -/
structure Fits {α : Type} (g : Gauge α) : Prop where
  nodup : g.members.Nodup
  outside : ∀ x ∉ g.members, g.marked x = false

structure Right {α : Type} (g : Gauge α) : Prop extends Fits g where
  count : g.count = g.members.countP g.marked

variable {α : Type} {g g' : Gauge α}

theorem Right.congr (h : g.Right) (hmembers : g'.members = g.members)
    (hmarked : g'.marked = g.marked) (hcount : g'.count = g.count) : g'.Right where
  nodup := hmembers ▸ h.nodup
  outside := by
    rw [hmembers, hmarked]
    exact h.outside
  count := by rw [hcount, hmembers, hmarked, h.count]

/-- A new member, without a mark. -/
theorem Right.enter (h : g.Right) {x : α} (hx : x ∉ g.members)
    (hmembers : g'.members = x :: g.members) (hmarked : g'.marked = g.marked)
    (hcount : g'.count = g.count) : g'.Right where
  nodup := by
    rw [hmembers]
    exact List.nodup_cons.mpr ⟨hx, h.nodup⟩
  outside y hy := by
    rw [hmembers] at hy
    rw [hmarked]
    exact h.outside y fun hmem => hy (List.mem_cons_of_mem _ hmem)
  count := by
    rw [hcount, hmembers, hmarked, List.countP_cons, h.outside x hx, h.count]
    simp

theorem Right.nonneg (h : g.Right) : 0 ≤ g.count := h.count ▸ Int.natCast_nonneg _

theorem Right.pos (h : g.Right) {x : α} (hx : x ∈ g.members) (hmark : g.marked x = true) :
    0 < g.count := by
  rw [h.count]
  exact Int.natCast_pos.mpr (List.countP_pos_iff.mpr ⟨x, hx, hmark⟩)

variable [DecidableEq α]

/-- The marked members, with one of them apart. -/
theorem Fits.countP_eq (h : g.Fits) (x : α) :
    g.members.countP g.marked =
      (g.members.filter fun y => y ≠ x).countP g.marked + if g.marked x then 1 else 0 := by
  by_cases hx : x ∈ g.members
  · have herase : g.members.erase x = g.members.filter fun y => y ≠ x := by
      rw [h.nodup.erase_eq_filter]
      exact List.filter_congr fun y _ => by simp [bne, beq_eq_decide]
    have hperm : g.members.Perm (x :: g.members.filter fun y => y ≠ x) :=
      herase ▸ List.perm_cons_erase hx
    rw [hperm.countP_eq, List.countP_cons]
  · have hall : (g.members.filter fun y => y ≠ x) = g.members := by
      refine List.filter_eq_self.mpr fun y hy => decide_eq_true ?_
      rintro rfl
      exact hx hy
    rw [hall, h.outside x hx, if_neg Bool.false_ne_true, Nat.add_zero]

/-- The mark of one member and the counter change together. -/
theorem Right.mark (h : g.Right) {x : α} {b : Bool} (hx : b = true → x ∈ g.members)
    (hmembers : g'.members = g.members) (hmarked : g'.marked = Function.update g.marked x b)
    (hcount : g'.count = g.count - (if g.marked x then 1 else 0) + if b then 1 else 0) :
    g'.Right := by
  have hfits : g'.Fits := by
    refine ⟨hmembers ▸ h.nodup, fun y hy => ?_⟩
    rw [hmembers] at hy
    rw [hmarked, Function.update_apply]
    split_ifs with heq
    · rw [heq] at hy
      exact Bool.eq_false_iff.mpr fun hb => hy (hx hb)
    · exact h.outside y hy
  have hothers : (g.members.filter fun y => y ≠ x).countP g'.marked =
      (g.members.filter fun y => y ≠ x).countP g.marked := by
    refine List.countP_congr fun y hy => ?_
    have hne : y ≠ x := by simpa using (List.mem_filter.mp hy).2
    rw [hmarked, Function.update_of_ne hne]
  have hbefore := h.countP_eq x
  have hbehind := hfits.countP_eq x
  rw [hmembers, hothers, hmarked, Function.update_self, ← hmarked] at hbehind
  refine ⟨hfits, ?_⟩
  have hcast (c : Bool) : ((if c then 1 else 0 : Nat) : Int) = if c then 1 else 0 := by
    split
    · rfl
    · rfl
  rw [hcount, h.count, hmembers, hbefore, hbehind, Int.natCast_add, Int.natCast_add, hcast, hcast,
    Int.add_sub_cancel]

/-- A member without a mark goes. -/
theorem Right.leave (h : g.Right) {x : α} (hx : g.marked x = false)
    (hmembers : g'.members = g.members.filter fun y => y ≠ x) (hmarked : g'.marked = g.marked)
    (hcount : g'.count = g.count) : g'.Right where
  nodup := by
    rw [hmembers]
    exact h.nodup.filter _
  outside y hy := by
    rw [hmarked]
    by_cases hmem : y ∈ g.members
    · have heq : y = x := by
        by_contra hne
        exact hy (hmembers ▸ List.mem_filter.mpr ⟨hmem, decide_eq_true hne⟩)
      rw [heq]
      exact hx
    · exact h.outside y hmem
  count := by
    rw [hcount, hmembers, hmarked, h.count, h.countP_eq x, hx]
    simp

end Gauge

end Foundation
