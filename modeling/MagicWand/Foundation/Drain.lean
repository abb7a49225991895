import Mathlib.Data.List.Perm.Basic

/-!
# Draining before a close

A reader-writer lock that requests hold while they are under way, and one stored
id, the `blocker`, by which a close finds out whether it has to wait for them at
all. Every request stores its id when it enters and clears it, if it is still
its own, when it leaves; a close clears it when it passes. The stored id is
enough as long as the last request to enter is also the last to leave.
-/

namespace Foundation

structure Drain (I : Type) where
  holders : List I
  readers : Nat
  blocker : I
  /-- Some close has given up waiting. -/
  gaveUp : Prop

namespace Drain

variable {I : Type} {unset : I} {d d' : Drain I}

/-- One reader for every request, and a stored id as long as there is any. -/
structure Sound (unset : I) (d : Drain I) : Prop where
  readers : d.readers = d.holders.length
  blocked : d.blocker ≠ unset → d.blocker ∈ d.holders
  idle : d.blocker = unset → d.holders = [] ∨ d.gaveUp

namespace Sound

theorem congr (h : Sound unset d) (hholders : d'.holders.Perm d.holders)
    (hreaders : d'.readers = d.readers) (hblocker : d'.blocker = d.blocker)
    (hgave : d.gaveUp → d'.gaveUp) : Sound unset d' where
  readers := by rw [hreaders, hholders.length_eq, h.readers]
  blocked hne := by
    rw [hblocker] at hne ⊢
    exact hholders.symm.subset (h.blocked hne)
  idle heq := by
    refine (h.idle (hblocker ▸ heq)).imp (fun hnone => ?_) hgave
    exact (hnone ▸ hholders).eq_nil

theorem enter (h : Sound unset d) {i : I} (hi : i ≠ unset) (hholders : d'.holders = d.holders ++ [i])
    (hreaders : d'.readers = d.readers + 1) (hblocker : d'.blocker = i) : Sound unset d' where
  readers := by simp [hreaders, hholders, h.readers]
  blocked _ := by simp [hblocker, hholders]
  idle heq := absurd (hblocker.symm.trans heq) hi

/-- A request leaves; if its id is the stored one, no other is under way. -/
theorem leave [DecidableEq I] (h : Sound unset d) {i : I} (hholders : d.holders.Perm (i :: d'.holders))
    (hreaders : d'.readers = d.readers - 1)
    (hblocker : d'.blocker = if d.blocker = i then unset else d.blocker)
    (hlast : d.blocker = i → d.holders.length = 1) (hgave : d.gaveUp → d'.gaveUp) :
    Sound unset d' := by
  have hlen : d.holders.length = d'.holders.length + 1 := by
    simpa using hholders.length_eq
  refine ⟨by rw [hreaders, h.readers, hlen, Nat.add_sub_cancel], fun hne => ?_, fun heq => ?_⟩
  · by_cases hi : d.blocker = i
    · rw [hblocker, if_pos hi] at hne
      exact absurd rfl hne
    · rw [hblocker, if_neg hi] at hne ⊢
      have hmem := hholders.subset (h.blocked hne)
      exact (List.mem_cons.mp hmem).resolve_left hi
  · by_cases hi : d.blocker = i
    · have := hlast hi
      exact .inl (List.length_eq_zero_iff.mp (by omega))
    · rw [hblocker, if_neg hi] at heq
      rcases h.idle heq with hnone | hup
      · rw [hnone] at hlen
        simp at hlen
      · exact .inr (hgave hup)

/-- A close that does not wait, or has the lock, finds no request under way. -/
theorem quiet (h : Sound unset d) (hpass : d.blocker = unset ∨ d.readers = 0) :
    d.holders = [] ∨ d.gaveUp := by
  rcases hpass with hunset | hzero
  · exact h.idle hunset
  · rw [h.readers] at hzero
    exact .inl (List.length_eq_zero_iff.mp hzero)

theorem pass (h : Sound unset d) (hquiet : d.holders = [] ∨ d'.gaveUp)
    (hholders : d'.holders = d.holders) (hreaders : d'.readers = d.readers)
    (hblocker : d'.blocker = unset) : Sound unset d' where
  readers := by rw [hreaders, hholders, h.readers]
  blocked hne := absurd hblocker hne
  idle _ := by rwa [hholders]

end Sound

end Drain

end Foundation
