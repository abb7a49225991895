import Mathlib.Data.List.Nodup
import Mathlib.Data.List.Perm.Subperm
import Mathlib.Data.Nat.ModEq

/-!
# Round robin

A cursor goes round `n` places. A scan looks at the places from the cursor on, at
each of them at a time of its own, and stops behind the first one that it finds
taken. A place that is taken whenever a scan looks at it comes closer with every
scan that stops elsewhere, so it is found by one of the next `n` scans.

A batch goes on behind the places that it finds, until it has found as many as it
wants. Where the same places are ready all the time, successive batches find them
in the order in which the cursor comes to them.
-/

namespace Foundation.RoundRobin

/-! ## Places -/

/-- The number of places that the cursor goes over before it comes to `p`. -/
def gap (n c p : Nat) : Nat := (p + (n - c % n)) % n

variable {n : Nat}

theorem gap_lt (hn : 0 < n) (c p : Nat) : gap n c p < n := Nat.mod_lt _ hn

theorem add_gap (hn : 0 < n) (c : Nat) {p : Nat} (hp : p < n) : (c + gap n c p) % n = p := by
  have hc : c % n < n := Nat.mod_lt c hn
  have hsum : c % n + (p + (n - c % n)) = p + n := by omega
  rw [gap, Nat.add_mod_mod, ← Nat.mod_add_mod, hsum, Nat.add_mod_right, Nat.mod_eq_of_lt hp]

theorem gap_of_add_mod {c k p : Nat} (hn : 0 < n) (hk : k < n) (h : (c + k) % n = p) :
    gap n c p = k := by
  have hp : p < n := h ▸ Nat.mod_lt _ hn
  have hmod : (c + gap n c p) % n = (c + k) % n := (add_gap hn c hp).trans h.symm
  have heq : gap n c p ≡ k [MOD n] := Nat.ModEq.add_left_cancel' c hmod
  exact Nat.ModEq.eq_of_lt_of_lt heq (gap_lt hn c p) hk

/-- Behind a place that comes earlier, `p` is closer. -/
theorem gap_behind (hn : 0 < n) {c k p : Nat} (hp : p < n) (hk : k < gap n c p) :
    gap n ((c + k) % n + 1) p < gap n c p := by
  have hlt := gap_lt hn c p
  have hgap : gap n ((c + k) % n + 1) p = gap n c p - (k + 1) := by
    apply gap_of_add_mod hn (by omega)
    have hsum : c + k + (1 + (gap n c p - (k + 1))) = c + gap n c p := by omega
    rw [Nat.add_assoc, Nat.mod_add_mod, hsum]
    exact add_gap hn c hp
  omega

theorem gap_mod_add_one (c p : Nat) : gap n (c % n + 1) p = gap n (c + 1) p := by
  rw [gap, gap, Nat.mod_add_mod]

/-- In one round the cursor comes to each place once. -/
theorem round_perm (hn : 0 < n) (c : Nat) :
    ((List.range n).map fun k => (c + k) % n).Perm (List.range n) := by
  refine List.Subperm.perm_of_length_le (List.Nodup.subperm ?_ ?_) (by simp)
  · refine List.Nodup.map_on ?_ List.nodup_range
    intro i hi j hj heq
    have hgap : gap n c ((c + j) % n) = i := gap_of_add_mod hn (List.mem_range.mp hi) heq
    exact hgap.symm.trans (gap_of_add_mod hn (List.mem_range.mp hj) rfl)
  · intro p hp
    obtain ⟨k, -, rfl⟩ := List.mem_map.mp hp
    exact List.mem_range.mpr (Nat.mod_lt _ hn)

/-! ## Scans -/

/-- One scan of at most `rounds` places: the place at which it stops, and the
cursor after it. `taken t p` says whether place `p` is taken at time `t`. -/
def scan (n : Nat) (taken : Nat → Nat → Bool) : Nat → Nat → Nat → Option Nat × Nat
  | 0, _, c => (none, c)
  | rounds + 1, t, c =>
      if taken t (c % n) then (some (c % n), c % n + 1)
      else scan n taken rounds (t + 1) (c % n + 1)

theorem mod_add_one_add (c k : Nat) : (c % n + 1 + k) % n = (c + (k + 1)) % n := by
  rw [Nat.add_assoc, Nat.mod_add_mod, Nat.add_comm 1 k]

theorem scan_spec (taken : Nat → Nat → Bool) (rounds t c : Nat) :
    ((scan n taken rounds t c).1 = none ∧
      ∀ k < rounds, taken (t + k) ((c + k) % n) = false) ∨
    ∃ k < rounds, scan n taken rounds t c = (some ((c + k) % n), (c + k) % n + 1) ∧
      taken (t + k) ((c + k) % n) = true ∧
      ∀ i < k, taken (t + i) ((c + i) % n) = false := by
  induction rounds generalizing t c with
  | zero => exact .inl ⟨rfl, fun k hk => absurd hk (Nat.not_lt_zero k)⟩
  | succ rounds ih =>
      by_cases htaken : taken t (c % n) = true
      · refine .inr ⟨0, Nat.succ_pos _, ?_, htaken, fun i hi => absurd hi (Nat.not_lt_zero i)⟩
        rw [scan, if_pos htaken]
        rfl
      · have hfree : taken t (c % n) = false := by simpa using htaken
        have hnext : scan n taken (rounds + 1) t c = scan n taken rounds (t + 1) (c % n + 1) := by
          rw [scan, if_neg htaken]
        -- What the rest of the scan sees, counted from its beginning.
        have hcons {m : Nat} (h : ∀ k < m, taken (t + 1 + k) ((c % n + 1 + k) % n) = false) :
            ∀ k < m + 1, taken (t + k) ((c + k) % n) = false := by
          intro k hk
          rcases k with _ | k
          · exact hfree
          · rw [← mod_add_one_add, ← Nat.add_assoc, Nat.add_right_comm]
            exact h k (by omega)
        rw [hnext]
        rcases ih (t + 1) (c % n + 1) with ⟨hnone, hall⟩ | ⟨k, hk, heq, hat, hbefore⟩
        · exact .inl ⟨hnone, hcons hall⟩
        · refine .inr ⟨k + 1, by omega, ?_, ?_, hcons hbefore⟩
          · rw [heq, mod_add_one_add]
          · rw [← mod_add_one_add, ← Nat.add_assoc, Nat.add_right_comm]
            exact hat

/-- A whole round finds a place if there is one that is taken all the time. -/
theorem scan_found (hn : 0 < n) {taken : Nat → Nat → Bool} {t c p : Nat} (hp : p < n)
    (htaken : ∀ k < n, taken (t + k) p = true) :
    ∃ k ≤ gap n c p, scan n taken n t c = (some ((c + k) % n), (c + k) % n + 1) ∧
      taken (t + k) ((c + k) % n) = true := by
  have hgap := gap_lt hn c p
  have hhere : taken (t + gap n c p) ((c + gap n c p) % n) = true := by
    rw [add_gap hn c hp]
    exact htaken _ hgap
  rcases scan_spec taken n t c with ⟨-, hall⟩ | ⟨k, -, heq, hat, hbefore⟩
  · rw [hall _ hgap] at hhere
    cases hhere
  · refine ⟨k, ?_, heq, hat⟩
    by_contra hlt
    rw [hbefore _ (by omega)] at hhere
    cases hhere

/-! ## Successive scans -/

/-- The results of `calls` scans, one after the other. -/
def scans (n : Nat) (taken : Nat → Nat → Bool) : Nat → Nat → Nat → List (Option Nat)
  | 0, _, _ => []
  | calls + 1, t, c =>
      (scan n taken n t c).1 :: scans n taken calls (t + n) (scan n taken n t c).2

/-- A place that stays taken is found once the cursor has had the time to come there. -/
theorem mem_scans (hn : 0 < n) {taken : Nat → Nat → Bool} {p : Nat} (hp : p < n) {calls t c : Nat}
    (htaken : ∀ k < n * calls, taken (t + k) p = true) (hcalls : gap n c p < calls) :
    some p ∈ scans n taken calls t c := by
  induction calls generalizing t c with
  | zero => exact absurd hcalls (Nat.not_lt_zero _)
  | succ calls ih =>
      have hround : n ≤ n * (calls + 1) := Nat.le_mul_of_pos_right n (Nat.succ_pos _)
      obtain ⟨k, hk, heq, -⟩ := scan_found hn (c := c) hp fun k hk => htaken k (by omega)
      rw [scans, heq]
      rcases Nat.lt_or_ge k (gap n c p) with hlt | hge
      · refine List.mem_cons_of_mem _ (ih ?_ ?_)
        · intro i hi
          rw [Nat.add_assoc]
          exact htaken _ (by rw [Nat.mul_succ]; omega)
        · have hcloser := gap_behind hn hp hlt
          show gap n ((c + k) % n + 1) p < calls
          omega
      · rw [Nat.le_antisymm hk hge, add_gap hn c hp]
        exact List.mem_cons_self

/-! ## Batches -/

/-- The places that the cursor goes over in `m` steps. -/
def walk (n m c : Nat) : List Nat := (List.range m).map fun k => (c + k) % n

theorem walk_perm (hn : 0 < n) (c : Nat) : (walk n n c).Perm (List.range n) := round_perm hn c

theorem walk_succ (m c : Nat) : walk n (m + 1) c = c % n :: walk n m (c % n + 1) := by
  rw [walk, List.range_succ_eq_map, List.map_cons, List.map_map, walk]
  congr 1
  apply List.map_congr_left
  intro k _
  exact (mod_add_one_add c k).symm

theorem walk_add (a b c : Nat) : walk n (a + b) c = walk n a c ++ walk n b (c + a) := by
  rw [walk, List.range_add, List.map_append, List.map_map]
  congr 1
  apply List.map_congr_left
  intro k _
  rw [Function.comp_apply, Nat.add_assoc]

theorem walk_congr {c d : Nat} (h : c % n = d % n) (m : Nat) : walk n m c = walk n m d := by
  apply List.map_congr_left
  intro k _
  rw [← Nat.mod_add_mod, h, Nat.mod_add_mod]

/-- One batch: the places found, and the cursor after it. -/
def batch (n : Nat) (ready : Nat → Bool) : (rounds want c : Nat) → List Nat × Nat
  | 0, _, c => ([], c)
  | _ + 1, 0, c => ([], c)
  | rounds + 1, want + 1, c =>
      if ready (c % n) then
        let r := batch n ready rounds want (c % n + 1)
        (c % n :: r.1, r.2)
      else batch n ready rounds (want + 1) (c % n + 1)

/-- A batch finds what is ready on the way that its cursor goes, and it stops early
only when it has what it wants. -/
theorem batch_spec (ready : Nat → Bool) (rounds want c : Nat) :
    ∃ k ≤ rounds, (batch n ready rounds want c).1 = (walk n k c).filter ready ∧
      (batch n ready rounds want c).2 % n = (c + k) % n ∧
      (batch n ready rounds want c).1.length ≤ want ∧
      ((batch n ready rounds want c).1.length = want ∨ k = rounds) := by
  induction rounds generalizing want c with
  | zero => exact ⟨0, le_rfl, rfl, rfl, Nat.zero_le _, .inr rfl⟩
  | succ rounds ih =>
      rcases want with _ | want
      · exact ⟨0, Nat.zero_le _, rfl, rfl, le_rfl, .inl rfl⟩
      · have hcursor (k : Nat) : (c % n + 1 + k) % n = (c + (k + 1)) % n := mod_add_one_add c k
        by_cases hready : ready (c % n) = true
        · obtain ⟨k, hk, hfound, hafter, hle, hstop⟩ := ih want (c % n + 1)
          have hbatch : batch n ready (rounds + 1) (want + 1) c =
              (c % n :: (batch n ready rounds want (c % n + 1)).1,
                (batch n ready rounds want (c % n + 1)).2) := by
            rw [batch, if_pos hready]
          rw [hbatch]
          refine ⟨k + 1, Nat.succ_le_succ hk, ?_, hafter.trans (hcursor k), ?_, ?_⟩
          · rw [walk_succ, List.filter_cons_of_pos hready, hfound]
          · exact Nat.succ_le_succ hle
          · rcases hstop with hfull | hround
            · exact .inl (congrArg Nat.succ hfull)
            · exact .inr (congrArg Nat.succ hround)
        · obtain ⟨k, hk, hfound, hafter, hle, hstop⟩ := ih (want + 1) (c % n + 1)
          have hbatch : batch n ready (rounds + 1) (want + 1) c =
              batch n ready rounds (want + 1) (c % n + 1) := by
            rw [batch, if_neg hready]
          rw [hbatch]
          refine ⟨k + 1, Nat.succ_le_succ hk, ?_, hafter.trans (hcursor k), hle, ?_⟩
          · rw [walk_succ, List.filter_cons_of_neg hready, hfound]
          · exact hstop.imp_right (congrArg Nat.succ)

theorem batch_congr (hn : 0 < n) {ready ready' : Nat → Bool}
    (h : ∀ p < n, ready p = ready' p) (rounds want c : Nat) :
    batch n ready rounds want c = batch n ready' rounds want c := by
  induction rounds generalizing want c with
  | zero => rfl
  | succ rounds ih =>
      rcases want with _ | want
      · rfl
      · rw [batch, batch, h _ (Nat.mod_lt _ hn), ih, ih]

/-- A batch finds the first places that are ready, as many as it wants. -/
theorem batch_eq_take (ready : Nat → Bool) (rounds want c : Nat) :
    (batch n ready rounds want c).1 = ((walk n rounds c).filter ready).take want := by
  obtain ⟨k, hk, hfound, -, hle, hstop⟩ := batch_spec (n := n) ready rounds want c
  have hsplit : walk n rounds c = walk n k c ++ walk n (rounds - k) (c + k) := by
    rw [← walk_add, Nat.add_sub_cancel' hk]
  rw [hsplit, List.filter_append, ← hfound]
  rcases hstop with hfull | rfl
  · rw [List.take_left' hfull]
  · rw [Nat.sub_self]
    simp only [walk, List.range_zero, List.map_nil, List.filter_nil, List.append_nil]
    exact (List.take_of_length_le hle).symm

/-- Behind a batch the places that it did not find come first. -/
theorem walk_behind (hn : 0 < n) (ready : Nat → Bool) (want c : Nat) {p : Nat}
    (hready : p ∈ (walk n n c).filter ready) (hp : p ∉ (batch n ready n want c).1) :
    ∃ found, (walk n n (batch n ready n want c).2).filter ready =
      ((walk n n c).filter ready).drop want ++ found := by
  obtain ⟨k, hk, hfound, hafter, -, hstop⟩ := batch_spec (n := n) ready n want c
  have hsplit : walk n n c = walk n k c ++ walk n (n - k) (c + k) := by
    rw [← walk_add, Nat.add_sub_cancel' hk]
  have hlength : (batch n ready n want c).1.length = want := by
    rcases hstop with hfull | rfl
    · exact hfull
    · rw [hfound] at hp
      exact absurd hready hp
  have hnext : walk n n (batch n ready n want c).2 = walk n (n - k) (c + k) ++ walk n k c := by
    rw [walk_congr hafter]
    have hround : walk n n (c + k) = walk n (n - k + k) (c + k) := by
      rw [Nat.sub_add_cancel hk]
    rw [hround, walk_add]
    congr 1
    apply walk_congr
    rw [Nat.add_assoc, Nat.add_sub_cancel' hk, Nat.add_mod_right]
  refine ⟨(walk n k c).filter ready, ?_⟩
  rw [hnext, hsplit, List.filter_append, List.filter_append, ← hfound, List.drop_left' hlength]

/-- What successive batches find. -/
def batches (n : Nat) (ready : Nat → Bool) (want : Nat) : (calls c : Nat) → List (List Nat)
  | 0, _ => []
  | calls + 1, c =>
      (batch n ready n want c).1 :: batches n ready want calls (batch n ready n want c).2

/-- After some batches the places ready have been found in their order, as far as the
batches go. -/
theorem mem_batches (hn : 0 < n) {ready : Nat → Bool} {want calls c p : Nat}
    (hp : p ∈ ((walk n n c).filter ready).take (want * calls)) :
    ∃ found ∈ batches n ready want calls c, p ∈ found := by
  induction calls generalizing c with
  | zero => simp at hp
  | succ calls ih =>
      by_cases hnow : p ∈ (batch n ready n want c).1
      · exact ⟨_, List.mem_cons_self, hnow⟩
      · obtain ⟨found, hnext⟩ := walk_behind hn ready want c (List.mem_of_mem_take hp) hnow
        have hlater : p ∈ (((walk n n c).filter ready).drop want).take (want * calls) := by
          rw [batch_eq_take] at hnow
          rw [Nat.mul_succ, Nat.add_comm, List.take_add, List.mem_append] at hp
          exact hp.resolve_left hnow
        obtain ⟨b, hb, hpb⟩ := ih (c := (batch n ready n want c).2) (by
          rw [hnext, List.take_append, List.mem_append]
          exact .inl hlater)
        exact ⟨b, List.mem_cons_of_mem _ hb, hpb⟩

end Foundation.RoundRobin
