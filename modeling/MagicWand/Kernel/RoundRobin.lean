import MagicWand.Foundation.RoundRobin
import MagicWand.Kernel.Sockets
import MagicWand.Ring
import Mathlib.Data.List.FinRange

/-!
# The two round robins of the driver

`mw_xen_response_available` goes round the INSs to find a ring with a response,
and `mw_xen_new_socket_rr` goes round them to place a new socket. The first moves
its cursor on in every round of its loop. The second looks at the place of its
cursor in every round, and moves it only when the INS there is ready: otherwise
the new socket goes to the first place of the table, and so do all that follow.

Both cursors are static variables of type `int`. The first stays below 4, and the
second is not let overflow here.
-/

namespace MagicWand.Kernel

open Foundation

/-! ## Responses -/

/-- The table of INSs with their rings. -/
structure Rings where
  ins : Fin maxInsCount → InsData
  frontRing : Fin maxInsCount → Ring

/-- A ready ring with responses that are not consumed. -/
def Rings.HasResponse (s : Rings) (j : Fin maxInsCount) : Prop :=
  (s.ins j).isRingReady = true ∧ (s.frontRing j).ringHasUnconsumedResponses ≠ 0

/-- `mw_xen_get_next_index_rr`: the index, and its static variable after it. -/
def mwXenGetNextIndexRr (i : Nat) : Fin maxInsCount × Nat :=
  (⟨i % maxInsCount, Nat.mod_lt _ (by decide)⟩, i % maxInsCount + 1)

/-- The loop of `mw_xen_response_available`, with what it looks at in each of its
rounds: the INSs go on meanwhile. -/
def responseLoop (look : Nat → Rings) : Nat → Nat → Nat → Option (Fin maxInsCount) × Nat
  | 0, _, i => (none, i)
  | rounds + 1, t, i =>
      let (index, i) := mwXenGetNextIndexRr i
      if !((look t).ins index).isRingReady then responseLoop look rounds (t + 1) i
      else if ((look t).frontRing index).ringHasUnconsumedResponses = 0 then
        responseLoop look rounds (t + 1) i
      else (some index, i)

/-- `mw_xen_response_available` at time `t`: the handle if it returns true, and the
static variable after it. -/
def mwXenResponseAvailable (look : Nat → Rings) (t i : Nat) : Option (Fin maxInsCount) × Nat :=
  responseLoop look maxInsCount t i

/-- The handles that successive calls return. -/
def responseCalls (look : Nat → Rings) : Nat → Nat → Nat → List (Option (Fin maxInsCount))
  | 0, _, _ => []
  | calls + 1, t, i =>
      let (handle, i) := mwXenResponseAvailable look t i
      handle :: responseCalls look calls (t + maxInsCount) i

/-- What a scan finds at a place. -/
def takenBy (look : Nat → Rings) (t p : Nat) : Bool :=
  if h : p < maxInsCount then
    ((look t).ins ⟨p, h⟩).isRingReady &&
      decide (((look t).frontRing ⟨p, h⟩).ringHasUnconsumedResponses ≠ 0)
  else false

theorem takenBy_iff (look : Nat → Rings) {t : Nat} (j : Fin maxInsCount) :
    takenBy look t j = true ↔ (look t).HasResponse j := by
  simp [takenBy, Rings.HasResponse, j.isLt]

/-- The loop is a scan. -/
theorem responseLoop_eq (look : Nat → Rings) (rounds t i : Nat) :
    ((responseLoop look rounds t i).1.map Fin.val, (responseLoop look rounds t i).2) =
      RoundRobin.scan maxInsCount (takenBy look) rounds t i := by
  induction rounds generalizing t i with
  | zero => rfl
  | succ rounds ih =>
      have hiff := takenBy_iff look (t := t) (mwXenGetNextIndexRr i).1
      rw [responseLoop, RoundRobin.scan]
      by_cases htaken : takenBy look t (i % maxInsCount) = true
      · obtain ⟨hready, hrest⟩ := hiff.mp htaken
        simp only [hready, Bool.not_true, Bool.false_eq_true, if_false, if_neg hrest, if_pos htaken]
        rfl
      · rw [if_neg htaken, ← ih]
        dsimp only
        split_ifs with hready hrest
        · rfl
        · rfl
        · exact absurd (hiff.mpr ⟨by simpa using hready, hrest⟩) htaken

theorem responseCalls_eq (look : Nat → Rings) (calls t i : Nat) :
    (responseCalls look calls t i).map (Option.map Fin.val) =
      RoundRobin.scans maxInsCount (takenBy look) calls t i := by
  induction calls generalizing t i with
  | zero => rfl
  | succ calls ih =>
      have hscan := responseLoop_eq look maxInsCount t i
      rw [responseCalls, RoundRobin.scans, ← hscan, ← ih]
      rfl

/-- `mw_xen_response_available` finds a ring with a response if there is one, and a
ring that keeps one is found by one of the next `MAX_INS_COUNT` calls, whatever
the other rings do meanwhile. -/
theorem response_available_fair :
    (∀ (s : Rings) (t i : Nat),
      ((mwXenResponseAvailable (fun _ => s) t i).1.isSome = true ↔ ∃ j, s.HasResponse j) ∧
      ∀ j ∈ (mwXenResponseAvailable (fun _ => s) t i).1, s.HasResponse j) ∧
    ∀ (look : Nat → Rings) (t i : Nat) (j : Fin maxInsCount),
      (∀ k < maxInsCount * maxInsCount, (look (t + k)).HasResponse j) →
        some j ∈ responseCalls look maxInsCount t i := by
  have hpos : 0 < maxInsCount := by decide
  constructor
  · intro s t i
    have hscan := responseLoop_eq (fun _ => s) maxInsCount t i
    have hsound : ∀ j ∈ (mwXenResponseAvailable (fun _ => s) t i).1, s.HasResponse j := by
      intro j hj
      rcases RoundRobin.scan_spec (takenBy fun _ => s) maxInsCount t i with
        ⟨hnone, -⟩ | ⟨k, -, heq, htaken, -⟩
      · have hfound := congrArg Prod.fst hscan
        rw [hnone] at hfound
        change ((mwXenResponseAvailable (fun _ => s) t i).1).map Fin.val = none at hfound
        rw [hj] at hfound
        cases hfound
      · have hfound := congrArg Prod.fst hscan
        rw [heq] at hfound
        change ((mwXenResponseAvailable (fun _ => s) t i).1).map Fin.val = some _ at hfound
        rw [hj] at hfound
        rw [← Option.some.inj hfound] at htaken
        exact (takenBy_iff _ j).mp htaken
    refine ⟨⟨?_, ?_⟩, hsound⟩
    · intro hsome
      obtain ⟨j, hj⟩ := Option.isSome_iff_exists.mp hsome
      exact ⟨j, hsound j hj⟩
    · rintro ⟨j, hj⟩
      obtain ⟨k, -, heq, -⟩ := RoundRobin.scan_found hpos (c := i) (t := t) j.isLt
        fun _ _ => (takenBy_iff (fun _ => s) j).mpr hj
      have hfound := congrArg Prod.fst (hscan.trans heq)
      change ((mwXenResponseAvailable (fun _ => s) t i).1).map Fin.val = some _ at hfound
      obtain ⟨q, hq, -⟩ := Option.map_eq_some_iff.mp hfound
      rw [hq]
      rfl
  · intro look t i j hj
    have hmem : some j.val ∈ RoundRobin.scans maxInsCount (takenBy look) maxInsCount t i :=
      RoundRobin.mem_scans hpos j.isLt (fun k hk => (takenBy_iff _ j).mpr (hj k hk))
        (RoundRobin.gap_lt hpos i j)
    rw [← responseCalls_eq] at hmem
    obtain ⟨handle, hhandle, heq⟩ := List.mem_map.mp hmem
    obtain ⟨q, rfl, hq⟩ := Option.map_eq_some_iff.mp heq
    rwa [← Fin.val_injective hq]

/-! ## New sockets -/

/-- The place of the cursor. -/
def place (c : Nat) : Fin maxInsCount := ⟨c % maxInsCount, Nat.mod_lt _ (by decide)⟩

/-- `selected` in `mw_xen_new_socket_rr`, at the end of its loop. -/
def Xen.selected (x : Xen) : Fin maxInsCount :=
  if (x.ins x.current).isRingReady then x.current else insZero

theorem Xen.newSocketRr_fst (x : Xen) : x.mwXenNewSocketRr.1 = (x.ins x.selected).domid := by
  rw [mwXenNewSocketRr, selected]
  split_ifs
  · rfl
  · rfl

/-- The places that successive calls select; `tables` are the tables of INSs that
the calls find. -/
def placements : List (Fin maxInsCount → InsData) → Nat → List (Fin maxInsCount)
  | [], _ => []
  | ins :: rest, c =>
      let x : Xen := { ins := ins, currIndex := c }
      x.selected :: placements rest x.mwXenNewSocketRr.2.currIndex

def readyPlaces (ready : Fin maxInsCount → Bool) : List (Fin maxInsCount) :=
  (List.finRange maxInsCount).filter ready

/-- As long as the same INSs are ready, each call selects one of them, and
successive calls, as many as there are of them, select each of them once. -/
def InTurn (ready : Fin maxInsCount → Bool) (c : Nat) : Prop :=
  ∀ tables : List (Fin maxInsCount → InsData),
    (∀ ins ∈ tables, ∀ i, (ins i).isRingReady = ready i) →
      (∀ i ∈ placements tables c, ready i = true) ∧
      ∀ window, window <:+: placements tables c →
        window.length = (readyPlaces ready).length → window.Perm (readyPlaces ready)

section Placements

variable {ready : Fin maxInsCount → Bool} {tables : List (Fin maxInsCount → InsData)} {c : Nat}

theorem placements_moves {ins : Fin maxInsCount → InsData}
    (hins : ∀ i, (ins i).isRingReady = ready i) (hc : ready (place c) = true) :
    placements (ins :: tables) c = place c :: placements tables (c + 1) := by
  have hready : (ins (place c)).isRingReady = true := (hins _).trans hc
  have hselected : ({ ins := ins, currIndex := c } : Xen).selected = place c := if_pos hready
  have hcursor : ({ ins := ins, currIndex := c } : Xen).mwXenNewSocketRr.2.currIndex = c + 1 :=
    congrArg (fun r : BitVec 16 × Xen => r.2.currIndex) (if_pos hready)
  rw [placements, hselected, hcursor]

theorem placements_stays {ins : Fin maxInsCount → InsData}
    (hins : ∀ i, (ins i).isRingReady = ready i) (hc : ready (place c) = false) :
    placements (ins :: tables) c = insZero :: placements tables c := by
  have hready : ¬ (ins (place c)).isRingReady = true := by
    rw [hins, hc]
    exact Bool.false_ne_true
  have hselected : ({ ins := ins, currIndex := c } : Xen).selected = insZero := if_neg hready
  have hcursor : ({ ins := ins, currIndex := c } : Xen).mwXenNewSocketRr.2.currIndex = c :=
    congrArg (fun r : BitVec 16 × Xen => r.2.currIndex) (if_neg hready)
  rw [placements, hselected, hcursor]

/-- When all INSs are ready, the cursor moves on with every call. -/
theorem placements_all (hall : ∀ i, ready i = true)
    (hins : ∀ ins ∈ tables, ∀ i, (ins i).isRingReady = ready i) :
    placements tables c = (List.range tables.length).map fun k => place (c + k) := by
  induction tables generalizing c with
  | nil => rfl
  | cons ins rest ih =>
      rw [placements_moves (hins ins List.mem_cons_self) (hall _),
        ih fun t ht => hins t (List.mem_cons_of_mem _ ht), List.length_cons, List.range_succ_eq_map,
        List.map_cons, List.map_map]
      refine congrArg _ (List.map_congr_left fun k _ => ?_)
      rw [Function.comp_apply, Nat.succ_eq_add_one, Nat.add_assoc, Nat.add_comm 1 k]

/-- When at most the first INS is ready, it is selected each time. -/
theorem placements_first (hfirst : ∀ i, ready i = true → i = insZero)
    (hins : ∀ ins ∈ tables, ∀ i, (ins i).isRingReady = ready i) :
    placements tables c = List.replicate tables.length insZero := by
  induction tables generalizing c with
  | nil => rfl
  | cons ins rest ih =>
      have hrest : ∀ t ∈ rest, ∀ i, (t i).isRingReady = ready i :=
        fun t ht => hins t (List.mem_cons_of_mem _ ht)
      have hhead := hins ins List.mem_cons_self
      rw [List.length_cons, List.replicate_succ]
      rcases hc : ready (place c) with _ | _
      · rw [placements_stays hhead hc, ih hrest]
      · rw [placements_moves hhead hc, ih hrest, hfirst _ hc]

/-- A cursor at a place that is not ready stays there. -/
theorem placements_stuck (hins : ∀ ins ∈ tables, ∀ i, (ins i).isRingReady = ready i)
    (hc : ready (place c) = false) :
    placements tables c = List.replicate tables.length insZero := by
  induction tables with
  | nil => rfl
  | cons ins rest ih =>
      rw [placements_stays (hins ins List.mem_cons_self) hc,
        ih fun t ht => hins t (List.mem_cons_of_mem _ ht), List.length_cons, List.replicate_succ]

/-- If some INS is not ready, the cursor comes to a stop. -/
theorem placements_stop {ins : Fin maxInsCount → InsData} {i : Fin maxInsCount}
    (hi : (ins i).isRingReady = false) (c n : Nat) :
    ∃ m, List.replicate n insZero <:+ placements (List.replicate (m + n) ins) c := by
  have hpos : 0 < maxInsCount := by decide
  let ready : Fin maxInsCount → Bool := fun i => (ins i).isRingReady
  have hsame : ∀ t ∈ List.replicate n ins, ∀ i, (t i).isRingReady = ready i := by
    intro t ht i
    rw [List.eq_of_mem_replicate ht]
  have hins : ∀ i, (ins i).isRingReady = ready i := fun _ => rfl
  rcases hc : ready (place c) with _ | _
  · refine ⟨0, ?_⟩
    rw [Nat.zero_add, placements_stuck hsame hc, List.length_replicate]
  · have hgap : 0 < RoundRobin.gap maxInsCount c i := by
      by_contra hzero
      have hplace := RoundRobin.add_gap hpos c i.isLt
      rw [Nat.eq_zero_of_not_pos hzero] at hplace
      have heq : place c = i := Fin.ext hplace
      rw [heq, ← hins, hi] at hc
      cases hc
    have hcloser : RoundRobin.gap maxInsCount (c + 1) i < RoundRobin.gap maxInsCount c i := by
      rw [← RoundRobin.gap_mod_add_one]
      exact RoundRobin.gap_behind hpos i.isLt hgap
    obtain ⟨m, hm⟩ := placements_stop hi (c + 1) n
    refine ⟨m + 1, ?_⟩
    rw [Nat.add_right_comm, List.replicate_succ,
      placements_moves hins hc]
    exact hm.trans (List.suffix_cons _ _)
termination_by RoundRobin.gap maxInsCount c i

end Placements

/-- INSs 5 and 6, in the first two places. -/
def twoOfThree : Xen :=
  (({} : Xen).setIns insZero
      { domid := 5, inUse := true, isRingReady := true, real := fun _ => realDomid_five }).setIns insOne
    { domid := 6, inUse := true, isRingReady := true, real := fun _ => realDomid_six }

end MagicWand.Kernel
