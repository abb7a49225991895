import Mathlib.Data.List.Nodup

/-!
# Reference counting

Objects with a stored count, of which each is referred to by its owner, until
the owner lets go, and by any number of holders. An object is `live` from its
creation until it is freed. The counts are right when every live object has as
many references as its count says, and an object is freed exactly when its last
reference goes.

The rules take the state before and after a change as they are, so that a model
can apply them to its own records.
-/

namespace Foundation

/-- Objects, their counts and who refers to them. -/
structure RefCount (O : Type) where
  count : O → Int
  owned : O → Bool
  held : O → Nat
  known : O → Prop
  live : List O
  freed : List O

namespace RefCount

variable {O : Type}

/-- The references to an object. -/
def refs (s : RefCount O) (x : O) : Nat := (if s.owned x then 1 else 0) + s.held x

/-- The counts are right, and what has no reference is freed, once. -/
structure Sound (s : RefCount O) : Prop where
  agree : ∀ x, s.known x → s.count x = s.refs x
  live : ∀ x, x ∈ s.live ↔ s.known x ∧ 0 < s.refs x
  freed : ∀ x, x ∈ s.freed ↔ s.known x ∧ s.refs x = 0
  once : s.freed.Nodup
  stray : ∀ x, ¬ s.known x → s.refs x = 0

namespace Sound

variable {s s' : RefCount O}

theorem congr (h : Sound s) (hcount : ∀ x, s.known x → s'.count x = s.count x)
    (hrefs : ∀ x, s'.refs x = s.refs x) (hknown : s'.known = s.known) (hlive : s'.live = s.live)
    (hfreed : s'.freed = s.freed) : Sound s' where
  agree x hx := by
    rw [hknown] at hx
    rw [hcount x hx, hrefs, h.agree x hx]
  live x := by rw [hlive, hknown, hrefs, h.live]
  freed x := by rw [hfreed, hknown, hrefs, h.freed]
  once := hfreed ▸ h.once
  stray x hx := by
    rw [hknown] at hx
    rw [hrefs, h.stray x hx]

variable [DecidableEq O]

/-- A new object, with its owner. -/
theorem create (h : Sound s) (z : O) (hnew : ¬ s.known z) (hz : s'.count z = 1)
    (hcount : ∀ x, x ≠ z → s'.count x = s.count x)
    (hrefs : ∀ x, s'.refs x = if x = z then s.refs z + 1 else s.refs x)
    (hknown : ∀ x, s'.known x ↔ x = z ∨ s.known x) (hlive : s'.live = z :: s.live)
    (hfreed : s'.freed = s.freed) : Sound s' := by
  have hzero : s.refs z = 0 := h.stray z hnew
  refine ⟨?_, ?_, ?_, hfreed ▸ h.once, ?_⟩
  · intro x hx
    rw [hrefs]
    split
    · rename_i heq
      rw [heq, hz, hzero]
      rfl
    · rename_i hne
      rw [hcount x hne]
      exact h.agree x (((hknown x).mp hx).resolve_left hne)
  · intro x
    rw [hlive, List.mem_cons, hknown, hrefs, h.live]
    by_cases heq : x = z
    · simp [heq]
    · simp [heq]
  · intro x
    rw [hfreed, hknown, hrefs, h.freed]
    by_cases heq : x = z
    · subst heq
      simp [hnew]
    · simp [heq]
  · intro x hx
    rw [hknown, not_or] at hx
    rw [hrefs, if_neg hx.1, h.stray x hx.2]

/-- One more reference to a live object. -/
theorem take (h : Sound s) (z : O) (hz : z ∈ s.live)
    (hcount : ∀ x, s'.count x = if x = z then s.count z + 1 else s.count x)
    (hrefs : ∀ x, s'.refs x = if x = z then s.refs z + 1 else s.refs x)
    (hknown : s'.known = s.known) (hlive : s'.live = s.live) (hfreed : s'.freed = s.freed) :
    Sound s' := by
  obtain ⟨hk, hpos⟩ := (h.live z).mp hz
  refine ⟨?_, ?_, ?_, hfreed ▸ h.once, ?_⟩
  · intro x hx
    rw [hknown] at hx
    rw [hcount, hrefs]
    split
    · rename_i heq
      rw [h.agree z hk]
      rfl
    · exact h.agree x hx
  · intro x
    rw [hlive, hknown, hrefs, h.live]
    by_cases heq : x = z
    · subst heq
      simp [hk, hpos]
    · simp [heq]
  · intro x
    rw [hfreed, hknown, hrefs, h.freed]
    by_cases heq : x = z
    · subst heq
      simp only [if_true, Nat.succ_ne_zero, and_false, iff_false, not_and]
      omega
    · simp [heq]
  · intro x hx
    rw [hknown] at hx
    rw [hrefs]
    split
    · rename_i heq
      exact absurd (heq ▸ hk) hx
    · exact h.stray x hx

/-- A reference goes; with the last one the object is freed. -/
theorem drop (h : Sound s) (z : O) (hz : 0 < s.refs z)
    (hcount : ∀ x, s'.count x = if x = z then s.count z - 1 else s.count x)
    (hrefs : ∀ x, s'.refs x = if x = z then s.refs z - 1 else s.refs x)
    (hknown : s'.known = s.known)
    (hlive : s'.live = if s'.count z = 0 then s.live.filter fun x => x ≠ z else s.live)
    (hfreed : s'.freed = if s'.count z = 0 then s.freed ++ [z] else s.freed) : Sound s' := by
  have hk : s.known z := by
    by_contra hne
    have := h.stray z hne
    omega
  have hlast : s'.count z = 0 ↔ s.refs z = 1 := by
    rw [hcount, if_pos rfl, h.agree z hk]
    omega
  have hnotfreed : z ∉ s.freed := by
    intro hmem
    have := ((h.freed z).mp hmem).2
    omega
  refine ⟨?_, ?_, ?_, ?_, ?_⟩
  · intro x hx
    rw [hknown] at hx
    rw [hcount, hrefs]
    split
    · rw [h.agree z hk]
      omega
    · exact h.agree x hx
  · intro x
    rw [hlive, hknown, hrefs]
    by_cases heq : x = z
    · subst heq
      have hmem : x ∈ s.live := (h.live x).mpr ⟨hk, hz⟩
      split
      · rename_i hzero
        simp [hlast.mp hzero]
      · rename_i hzero
        rw [hlast] at hzero
        simp only [if_true, hmem, hk, true_and, true_iff]
        omega
    · rw [if_neg heq]
      split
      · rw [List.mem_filter]
        simp only [ne_eq, heq, not_false_eq_true, decide_true, and_true]
        exact h.live x
      · exact h.live x
  · intro x
    rw [hfreed, hknown, hrefs]
    by_cases heq : x = z
    · subst heq
      split
      · rename_i hzero
        simp [hlast.mp hzero, hk]
      · rename_i hzero
        rw [hlast] at hzero
        simp only [if_true, hnotfreed, hk, true_and, false_iff]
        omega
    · rw [if_neg heq]
      split
      · rw [List.mem_append, List.mem_singleton]
        simp only [heq, or_false]
        exact h.freed x
      · exact h.freed x
  · rw [hfreed]
    split
    · exact List.nodup_append.mpr
        ⟨h.once, List.nodup_singleton z, fun a ha b hb heq => hnotfreed (by simp_all)⟩
    · exact h.once
  · intro x hx
    rw [hknown] at hx
    rw [hrefs]
    split
    · rename_i heq
      exact absurd (heq ▸ hk) hx
    · exact h.stray x hx

end Sound

end RefCount

end Foundation
