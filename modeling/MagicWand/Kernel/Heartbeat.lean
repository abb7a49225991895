import MagicWand.Foundation.Padded
import MagicWand.Kernel.InsTable

/-!
# Heartbeats

How long an INS may be silent. `mw_xen_ins_alive` stores the time at which an INS was
last heard of and forgets what it has missed; each call of
`mw_xen_reap_dead_ins` adds at most one miss to an entry, and the INS whose miss
is the last it may have goes into `Dead_INS_Array` and loses its entry.

Here a call of the reaper is one step, and an observer with a clock that does
not wrap around numbers the discoveries and notes which of them are reported.
-/

namespace MagicWand.Kernel

open Foundation

/-! ## The reaper -/

/-- A call of `mw_xen_reap_dead_ins`: the table, `Dead_INS_Array` and the number of
INSs in it. -/
structure Reap where
  table : InsTable
  deadIns : List Int := List.replicate maxInsCount 0
  deadInsNum : Nat := 0

/-- The body of the loop, for an entry. -/
def Reap.visit (hz : Nat) (now : BitVec 64) (r : Reap) (i : Fin maxInsCount) : Reap :=
  if InsTable.dies hz now (r.table.ins i) then
    { table := r.table.visitEntry hz now i
      deadIns := r.deadIns.set r.deadInsNum (r.table.ins i).domid.toNat
      deadInsNum := r.deadInsNum + 1 }
  else { r with table := r.table.visitEntry hz now i }

/-- `mw_xen_reap_dead_ins`. -/
def mwXenReapDeadIns (s : InsTable) (hz : Nat) : Reap :=
  (List.finRange maxInsCount).foldl (Reap.visit hz s.jiffies) { table := s }

namespace InsTable

/-- What a visit leaves of an entry. -/
def visited (hz : Nat) (now : BitVec 64) (e : InsEntry) : InsEntry :=
  if !e.inUse || !overdue hz now e then e
  else if e.missedHeartbeats + 1 = heartbeatMaxMisses then
    { e with
      missedHeartbeats := e.missedHeartbeats + 1
      inUse := false
      isRingReady := false
      domid := domidInvalid }
  else { e with missedHeartbeats := e.missedHeartbeats + 1 }

/-- The ids of those of the entries `l` whose INSs are found dead. -/
def deadAmong (hz : Nat) (now : BitVec 64) (ins : Fin maxInsCount → InsEntry)
    (l : List (Fin maxInsCount)) : List Int :=
  (l.filter fun i => dies hz now (ins i)).map fun i => ((ins i).domid.toNat : Int)

/-- The entries of the INSs that a call of the reaper finds dead, and their ids. -/
def deadEntries (s : InsTable) (hz : Nat) : List (Fin maxInsCount) :=
  (List.finRange maxInsCount).filter fun i => dies hz s.jiffies (s.ins i)

def deadDomids (s : InsTable) (hz : Nat) : List Int :=
  (s.deadEntries hz).map fun i => ((s.ins i).domid.toNat : Int)

theorem deadAmong_cons {hz : Nat} {now : BitVec 64} {ins : Fin maxInsCount → InsEntry}
    {i : Fin maxInsCount} {l : List (Fin maxInsCount)} :
    deadAmong hz now ins (i :: l) =
      (if dies hz now (ins i) then [((ins i).domid.toNat : Int)] else []) ++
        deadAmong hz now ins l := by
  rw [deadAmong, List.filter_cons]
  split <;> rfl

theorem deadAmong_congr {hz : Nat} {now : BitVec 64} {ins ins' : Fin maxInsCount → InsEntry}
    {l : List (Fin maxInsCount)} (h : ∀ i ∈ l, ins i = ins' i) :
    deadAmong hz now ins l = deadAmong hz now ins' l := by
  rw [deadAmong, deadAmong, List.filter_congr fun i hi => by rw [h i hi]]
  exact List.map_congr_left fun i hi => by rw [h i (List.mem_of_mem_filter hi)]

variable {hz : Nat} {now : BitVec 64} {s : InsTable} {i : Fin maxInsCount}

theorem visitEntry_eq : s.visitEntry hz now i = s.setEntry i (visited hz now) := by
  have hvisited : s.setEntry i (visited hz now) =
      { s with ins := Function.update s.ins i (visited hz now (s.ins i)) } := rfl
  rw [hvisited, visitEntry, visited]
  simp only
  split
  · rw [Function.update_eq_self]
  · split
    · simp only [mwXenReleaseIns, setEntry, Function.update_self, Function.update_idem]
    · rfl

theorem visited_of_dies {e : InsEntry} (h : dies hz now e = true) :
    (visited hz now e).inUse = false := by
  simp only [dies, Bool.and_eq_true, decide_eq_true_eq] at h
  rw [visited, h.1.1, h.1.2, if_pos h.2]
  rfl

/-- An entry that survives the visit keeps its INS, and has missed at most one more
heartbeat. -/
theorem visited_of_not_dies {e : InsEntry} (h : dies hz now e = false) :
    (visited hz now e).inUse = e.inUse ∧ (visited hz now e).domid = e.domid := by
  rw [visited]
  split
  · exact ⟨rfl, rfl⟩
  · rename_i hdue
    simp only [Bool.or_eq_true, Bool.not_eq_true', not_or, Bool.not_eq_false] at hdue
    split
    · rename_i hlast
      simp [dies, hdue.1, hdue.2, hlast] at h
    · exact ⟨rfl, rfl⟩

theorem visited_lastSeenTime {e : InsEntry} :
    (visited hz now e).lastSeenTime = e.lastSeenTime := by
  rw [visited]
  split
  · rfl
  · split <;> rfl

theorem visited_missed {e : InsEntry} (h : dies hz now e = false) (huse : e.inUse = true)
    (hfew : e.missedHeartbeats < heartbeatMaxMisses) :
    (visited hz now e).missedHeartbeats =
        e.missedHeartbeats + (if overdue hz now e then 1 else 0) ∧
      (visited hz now e).missedHeartbeats < heartbeatMaxMisses := by
  rw [dies, huse, Bool.true_and] at h
  rw [visited, huse]
  by_cases hdue : overdue hz now e = true
  · rw [hdue, Bool.true_and, decide_eq_false_iff_not] at h
    simp only [hdue, Bool.not_true, Bool.or_self, Bool.false_eq_true, if_false, if_true, h]
    exact ⟨trivial, by omega⟩
  · simp only [hdue, Bool.not_true, Bool.not_false, Bool.false_or, if_true]
    exact ⟨rfl, hfew⟩

end InsTable

open InsTable

namespace Reap

variable {hz : Nat} {now : BitVec 64} {r : Reap} {i : Fin maxInsCount} {ids : List Int}

/-- The array holds the ids. -/
structure Holds (r : Reap) (ids : List Int) : Prop where
  deadIns : r.deadIns = pad 0 maxInsCount ids
  deadInsNum : r.deadInsNum = ids.length

theorem visit_table : (r.visit hz now i).table = r.table.setEntry i (visited hz now) := by
  rw [visit, ← visitEntry_eq]
  split <;> rfl

/-- A visit that finds the INS dead writes its id behind the others. -/
theorem Holds.visit (h : r.Holds ids) (hroom : ids.length < maxInsCount) :
    (r.visit hz now i).Holds
      (ids ++ if dies hz now (r.table.ins i) then [((r.table.ins i).domid.toNat : Int)] else []) := by
  rw [Reap.visit]
  split
  · constructor
    · show r.deadIns.set r.deadInsNum _ = _
      rw [h.deadIns, h.deadInsNum, set_pad hroom]
    · rw [List.length_append, List.length_singleton, ← h.deadInsNum]
  · rw [List.append_nil]
    exact ⟨h.deadIns, h.deadInsNum⟩

/-- The loop over entries that are all different: each of them is visited as it was
at the start. -/
theorem foldl_visit {l : List (Fin maxInsCount)} (hnodup : l.Nodup) (h : r.Holds ids)
    (hroom : ids.length + l.length ≤ maxInsCount) :
    (l.foldl (Reap.visit hz now) r).table =
        { r.table with
          ins := fun i => if i ∈ l then visited hz now (r.table.ins i) else r.table.ins i } ∧
      (l.foldl (Reap.visit hz now) r).Holds (ids ++ deadAmong hz now r.table.ins l) := by
  induction l generalizing r ids with
  | nil => exact ⟨rfl, by simpa [deadAmong] using h⟩
  | cons i l ih =>
      obtain ⟨hi, hnodup⟩ := List.nodup_cons.mp hnodup
      rw [List.length_cons] at hroom
      have hins : ∀ j ∈ l, (r.visit hz now i).table.ins j = r.table.ins j := by
        intro j hj
        rw [visit_table]
        apply Function.update_of_ne
        rintro rfl
        exact hi hj
      obtain ⟨htable, hholds⟩ := ih hnodup (h.visit (by omega))
        (by rw [List.length_append]; split <;> simp <;> omega)
      rw [List.append_assoc, deadAmong_congr hins, ← deadAmong_cons] at hholds
      refine ⟨?_, hholds⟩
      rw [List.foldl_cons, htable, visit_table]
      simp only [setEntry, InsTable.mk.injEq, and_true]
      funext j
      by_cases hj : j = i
      · rw [hj, Function.update_self, if_neg hi, if_pos List.mem_cons_self]
      · rw [Function.update_of_ne hj]
        simp only [List.mem_cons, hj, false_or]

end Reap

/-- A call of the reaper visits every entry once. -/
theorem mwXenReapDeadIns_table (s : InsTable) (hz : Nat) :
    (mwXenReapDeadIns s hz).table =
      { s with ins := fun i => visited hz s.jiffies (s.ins i) } := by
  have hstart : ({ table := s } : Reap).Holds [] := ⟨rfl, rfl⟩
  rw [mwXenReapDeadIns,
    (Reap.foldl_visit (List.nodup_finRange maxInsCount) hstart (by simp)).1]
  simp only [List.mem_finRange, if_true]

/-- The ids of the dead INSs are in the array, with zeros behind them. -/
theorem mwXenReapDeadIns_holds (s : InsTable) (hz : Nat) :
    (mwXenReapDeadIns s hz).Holds (s.deadDomids hz) := by
  have hstart : ({ table := s } : Reap).Holds [] := ⟨rfl, rfl⟩
  exact (Reap.foldl_visit (List.nodup_finRange maxInsCount) hstart (by simp)).2

theorem length_deadDomids (s : InsTable) (hz : Nat) : (s.deadDomids hz).length ≤ maxInsCount := by
  rw [deadDomids, deadEntries, List.length_map]
  refine (List.length_filter_le _ _).trans ?_
  rw [List.length_finRange]

/-! ## The observer -/

/-- The table and what an observer knows of it: the time, when each entry was last
seen, the discovery that each entry was claimed for and each call is about, the
discoveries that have completed, and those whose INS has been reported dead. -/
structure Watch where
  table : InsTable
  time : Nat
  seen : Fin maxInsCount → Nat := fun _ => 0
  owner : Fin maxInsCount → Option Nat := fun _ => none
  serial : Nat → Nat := fun _ => 0
  next : Nat := 0
  completed : List Nat := []
  reports : List Nat := []

/-- The jiffies that go by in a step. -/
def InsEvent.elapsed : InsEvent → BitVec 64
  | .tick n => n
  | _ => 0

namespace InsTable

/-- The entry that a step marks as alive. -/
def marked (s : InsTable) : InsEvent → Option (Fin maxInsCount)
  | .move t _ =>
      match s.found t with
      | .setup i [] => some i
      | _ => none
  | .heartbeat domid => (s.mwXenGetInsFromXsPath domid).filter fun i => (s.ins i).inUse
  | .bound domid => s.mwXenGetInsFromXsPath domid
  | _ => none

/-- The entry that a step claims, and the call that claims it. -/
def claimed (s : InsTable) : InsEvent → Option (Nat × Fin maxInsCount)
  | .move t _ =>
      match s.found t with
      | .probing _ i =>
          if h : i < maxInsCount then
            if (s.ins ⟨i, h⟩).inUse then none else some (t, ⟨i, h⟩)
          else none
      | _ => none
  | _ => none

/-- The call that a step completes. -/
def finished (s : InsTable) : InsEvent → Option Nat
  | .move t _ =>
      match s.found t with
      | .ready _ => some t
      | _ => none
  | _ => none

end InsTable

namespace Watch

def pass (w : Watch) (e : InsEvent) : Watch := { w with time := w.time + e.elapsed.toNat }

def see (w : Watch) : Option (Fin maxInsCount) → Watch
  | none => w
  | some i => { w with seen := Function.update w.seen i w.time }

def claim (w : Watch) : Option (Nat × Fin maxInsCount) → Watch
  | none => w
  | some (t, i) =>
      { w with
        owner := Function.update w.owner i (some w.next)
        serial := Function.update w.serial t w.next
        next := w.next + 1 }

def complete (w : Watch) : Option Nat → Watch
  | none => w
  | some t => { w with completed := w.serial t :: w.completed }

/-- A call of the reaper. -/
def reap (w : Watch) (hz : Nat) : Watch :=
  { w with
    table := (mwXenReapDeadIns w.table hz).table
    owner := fun i => if dies hz w.table.jiffies (w.table.ins i) then none else w.owner i
    reports := w.reports ++ (w.table.deadEntries hz).filterMap w.owner }

/-- `.reap` is a whole call of the reaper. -/
def step (hz : Nat) (w : Watch) (e : InsEvent) : Option Watch :=
  match e with
  | .reap => some (w.reap hz)
  | .visit => none
  | e =>
      (w.table.step hz e).map fun t =>
        { (((w.pass e).see (w.table.marked e)).claim (w.table.claimed e)).complete
            (w.table.finished e) with
          table := t }

end Watch

/-- The table from the start of the driver, `start` jiffies after some fixed time. -/
def watch (hz start : Nat) : System Watch InsEvent where
  init := { table := { jiffies := BitVec.ofNat 64 start }, time := start }
  step := Watch.step hz

/-! ## What a step does to the table -/

namespace InsTable

/-- What every step but a call of the reaper does to the entries and to the calls. -/
structure Effect (s s' : InsTable) (e : InsEvent) : Prop where
  seen : ∀ i, s.marked e = some i →
    (s'.ins i).lastSeenTime = s.jiffies ∧ (s'.ins i).missedHeartbeats = 0
  unseen : ∀ i, s.marked e ≠ some i →
    (s'.ins i).lastSeenTime = (s.ins i).lastSeenTime ∧
      (s'.ins i).missedHeartbeats = (s.ins i).missedHeartbeats
  inUse : ∀ i, (s'.ins i).inUse = true ↔ (s.ins i).inUse = true ∨ ∃ t, s.claimed e = some (t, i)
  free : ∀ t i, s.claimed e = some (t, i) → (s.ins i).inUse = false
  hold : ∀ t i b, (s'.found t).hold = some (i, b) →
    s.claimed e = some (t, i) ∨
      (∀ j, s.claimed e ≠ some (t, j)) ∧ ∃ b', (s.found t).hold = some (i, b')
  ready : ∀ t i, s'.found t = .ready i → s.found t = .ready i ∨ s.marked e = some i
  jiffies : s'.jiffies = s.jiffies + e.elapsed

variable {s s' : InsTable} {e : InsEvent} {t : Nat} {ok : Bool} {i : Fin maxInsCount}

/-- A step that claims nothing, marks nothing as alive and leaves the calls with what
they hold. -/
theorem Effect.of_same (hmarked : s.marked e = none) (hclaimed : s.claimed e = none)
    (hins : ∀ i, (s'.ins i).lastSeenTime = (s.ins i).lastSeenTime ∧
      (s'.ins i).missedHeartbeats = (s.ins i).missedHeartbeats ∧
      (s'.ins i).inUse = (s.ins i).inUse)
    (hhold : ∀ t i b, (s'.found t).hold = some (i, b) → ∃ b', (s.found t).hold = some (i, b'))
    (hready : ∀ t i, s'.found t = .ready i → s.found t = .ready i)
    (hjiffies : s'.jiffies = s.jiffies + e.elapsed) : Effect s s' e where
  seen _ h := by rw [hmarked] at h; cases h
  unseen i _ := ⟨(hins i).1, (hins i).2.1⟩
  inUse i := by simp [(hins i).2.2, hclaimed]
  free _ _ h := by rw [hclaimed] at h; cases h
  hold t i b h := Or.inr ⟨by simp [hclaimed], hhold t i b h⟩
  ready t i h := Or.inl (hready t i h)
  jiffies := hjiffies

/-- A step that marks an entry as alive, and may complete the setup of its ring. -/
theorem Effect.of_alive (hmarked : s.marked e = some i) (hclaimed : s.claimed e = none)
    (hins : s'.ins = (s.mwXenInsAlive i).ins)
    (hhold : ∀ t i b, (s'.found t).hold = some (i, b) → ∃ b', (s.found t).hold = some (i, b'))
    (hready : ∀ t j, s'.found t = .ready j → s.found t = .ready j ∨ i = j)
    (hjiffies : s'.jiffies = s.jiffies + e.elapsed) : Effect s s' e where
  seen j hj := by
    obtain rfl : i = j := Option.some.inj (hmarked.symm.trans hj)
    rw [hins]
    simp [mwXenInsAlive, setEntry]
  unseen j hj := by
    have hne : j ≠ i := by
      rintro rfl
      exact hj hmarked
    rw [hins]
    simp [mwXenInsAlive, setEntry, Function.update_of_ne hne]
  inUse j := by
    have hkept : (s'.ins j).inUse = (s.ins j).inUse := by
      rw [hins]
      simp only [mwXenInsAlive, setEntry, Function.update_apply]
      split
      · rename_i heq
        rw [heq]
      · rfl
    simp [hkept, hclaimed]
  free _ _ h := by rw [hclaimed] at h; cases h
  hold t j b h := Or.inr ⟨by simp [hclaimed], hhold t j b h⟩
  ready t j h := by
    rw [hmarked, Option.some.injEq]
    exact hready t j h
  jiffies := hjiffies

theorem found_goto (s : InsTable) (t t' : Nat) (pc : Found) :
    (s.goto t pc).found t' = if t' = t then pc else s.found t' :=
  Function.update_apply ..

/-- The calls, when one of them moves on and holds no other entry than before. -/
theorem hold_goto {pc : Found} (hfound : s'.found = (s.goto t pc).found)
    (hhold : ∀ i b, pc.hold = some (i, b) → ∃ b', (s.found t).hold = some (i, b')) :
    ∀ t' i b, (s'.found t').hold = some (i, b) → ∃ b', (s.found t').hold = some (i, b') := by
  intro t' i b h
  rw [hfound, found_goto] at h
  split at h
  · rename_i ht
    rw [ht]
    exact hhold i b h
  · exact ⟨b, h⟩

theorem ready_goto {pc : Found} (hfound : s'.found = (s.goto t pc).found) :
    ∀ t' i, s'.found t' = .ready i → s.found t' = .ready i ∨ pc = .ready i := by
  intro t' i h
  rw [hfound, found_goto] at h
  split at h
  · exact Or.inr h
  · exact Or.inl h

/-- A call moves on and does not mark its entry as alive. -/
theorem Effect.of_goto {pc : Found} (hmarked : s.marked e = none) (hclaimed : s.claimed e = none)
    (hins : ∀ i, (s'.ins i).lastSeenTime = (s.ins i).lastSeenTime ∧
      (s'.ins i).missedHeartbeats = (s.ins i).missedHeartbeats ∧
      (s'.ins i).inUse = (s.ins i).inUse)
    (hfound : s'.found = (s.goto t pc).found)
    (hhold : ∀ i b, pc.hold = some (i, b) → ∃ b', (s.found t).hold = some (i, b'))
    (hready : ∀ i, pc ≠ .ready i) (hjiffies : s'.jiffies = s.jiffies + e.elapsed) :
    Effect s s' e := by
  refine .of_same hmarked hclaimed hins (hold_goto hfound hhold) ?_ hjiffies
  intro t' i h
  exact (ready_goto hfound t' i h).resolve_right (hready i)

/-- Writing other fields of an entry. -/
theorem setEntry_kept {f : InsEntry → InsEntry} (hlast : ∀ e, (f e).lastSeenTime = e.lastSeenTime)
    (hmissed : ∀ e, (f e).missedHeartbeats = e.missedHeartbeats)
    (huse : ∀ e, (f e).inUse = e.inUse) (i j : Fin maxInsCount) :
    ((s.setEntry i f).ins j).lastSeenTime = (s.ins j).lastSeenTime ∧
      ((s.setEntry i f).ins j).missedHeartbeats = (s.ins j).missedHeartbeats ∧
      ((s.setEntry i f).ins j).inUse = (s.ins j).inUse := by
  simp only [setEntry, Function.update_apply]
  split
  · rename_i hj
    rw [hj]
    exact ⟨hlast _, hmissed _, huse _⟩
  · exact ⟨rfl, rfl, rfl⟩

/-- A call claims an entry. -/
theorem Effect.of_claim {id : List Char} (hmarked : s.marked e = none)
    (hclaimed : s.claimed e = some (t, i)) (hfree : (s.ins i).inUse = false)
    (helapsed : e.elapsed = 0) :
    Effect s ((s.setEntry i fun e => { e with inUse := true }).goto t (.naming id i)) e where
  seen _ h := by rw [hmarked] at h; cases h
  unseen j _ := by
    simp only [goto, setEntry, Function.update_apply]
    split
    · rename_i hj
      rw [hj]
      exact ⟨rfl, rfl⟩
    · exact ⟨rfl, rfl⟩
  inUse j := by
    simp only [goto, setEntry, Function.update_apply, hclaimed, Option.some.injEq, Prod.mk.injEq]
    by_cases hj : j = i
    · simp [hj]
    · simp [hj, Ne.symm hj]
  free t' j h := by
    rw [hclaimed] at h
    cases h
    exact hfree
  hold t' j b h := by
    rw [found_goto] at h
    split at h
    · rename_i ht
      cases h
      exact Or.inl (ht ▸ hclaimed)
    · rename_i ht
      refine Or.inr ⟨fun k hk => ?_, b, h⟩
      rw [hclaimed] at hk
      cases hk
      exact ht rfl
  ready t' j h := by
    rw [found_goto] at h
    split at h
    · cases h
    · exact Or.inl h
  jiffies := by rw [helapsed]; exact (BitVec.add_zero _).symm

/-- A step of `mw_xen_ins_found`. -/
theorem Effect.of_insFound (hs : s.insFound t ok (s.found t) = some s') :
    Effect s s' (.move t ok) := by
  have hnow {s' : InsTable} (h : s'.jiffies = s.jiffies) :
      s'.jiffies = s.jiffies + (InsEvent.move t ok).elapsed := h.trans (BitVec.add_zero _).symm
  cases hpc : s.found t with
  | idle =>
      rw [hpc] at hs
      cases hs
  | probing id k =>
      have hmarked : s.marked (.move t ok) = none := by simp only [marked, hpc]
      rw [hpc] at hs
      simp only [insFound] at hs
      split at hs
      · rename_i hk
        split at hs
        · rename_i huse
          have hclaimed : s.claimed (.move t ok) = none := by simp [claimed, hpc, hk, huse]
          cases hs
          exact .of_goto hmarked hclaimed (fun _ => ⟨rfl, rfl, rfl⟩) rfl
            (by rintro _ _ ⟨⟩) (by rintro _ ⟨⟩) (hnow rfl)
        · rename_i huse
          have hclaimed : s.claimed (.move t ok) = some (t, ⟨k, hk⟩) := by
            simp [claimed, hpc, hk, huse]
          cases hs
          exact .of_claim hmarked hclaimed (by simpa using huse) rfl
      · rename_i hk
        have hclaimed : s.claimed (.move t ok) = none := by simp [claimed, hpc, hk]
        cases hs
        exact .of_goto hmarked hclaimed (fun _ => ⟨rfl, rfl, rfl⟩) rfl
          (by rintro _ _ ⟨⟩) (by rintro _ ⟨⟩) (hnow rfl)
  | naming id i =>
      have hmarked : s.marked (.move t ok) = none := by simp only [marked, hpc]
      have hclaimed : s.claimed (.move t ok) = none := by simp only [claimed, hpc]
      rw [hpc] at hs
      cases hs
      refine .of_goto hmarked hclaimed
        (setEntry_kept (f := fun e => { e with domid := BitVec.ofInt 16 (simpleStrtol id) })
          (fun _ => rfl) (fun _ => rfl) (fun _ => rfl) i) rfl ?_
        (by rintro _ ⟨⟩) (hnow rfl)
      rintro j b ⟨⟩
      exact ⟨false, by rw [hpc]; rfl⟩
  | setup i todo =>
      have hclaimed : s.claimed (.move t ok) = none := by simp only [claimed, hpc]
      rw [hpc] at hs
      cases todo with
      | nil =>
          have hmarked : s.marked (.move t ok) = some i := by simp only [marked, hpc]
          cases hs
          refine .of_alive hmarked hclaimed rfl (hold_goto (t := t) rfl ?_) ?_ (hnow rfl)
          · rintro j b ⟨⟩
            exact ⟨true, by rw [hpc]; rfl⟩
          · intro t' j h
            rcases ready_goto (t := t) rfl t' j h with h | h
            · exact Or.inl h
            · exact Or.inr (Found.ready.inj h)
      | cons stage todo =>
          have hmarked : s.marked (.move t ok) = none := by simp only [marked, hpc]
          simp only [insFound, Option.some.injEq] at hs
          subst hs
          refine .of_goto hmarked hclaimed (fun _ => ⟨rfl, rfl, rfl⟩) rfl ?_ ?_ (hnow rfl)
          all_goals split
          · rintro j b ⟨⟩
          · rintro j b ⟨⟩
            exact ⟨true, by rw [hpc]; rfl⟩
          · rintro j ⟨⟩
          · rintro j ⟨⟩
  | ready i =>
      have hmarked : s.marked (.move t ok) = none := by simp only [marked, hpc]
      have hclaimed : s.claimed (.move t ok) = none := by simp only [claimed, hpc]
      rw [hpc] at hs
      cases hs
      exact .of_goto hmarked hclaimed
        (setEntry_kept (f := fun e => { e with isRingReady := true }) (fun _ => rfl) (fun _ => rfl)
          (fun _ => rfl) i) rfl (by rintro _ _ ⟨⟩) (by rintro _ ⟨⟩) (hnow rfl)

/-- A step that is no part of the reaper. -/
theorem Effect.of_step {hz : Nat} (hreap : e ≠ .reap) (hvisit : e ≠ .visit)
    (hs : s.step hz e = some s') : Effect s s' e := by
  have hnow : s.jiffies = s.jiffies + 0 := (BitVec.add_zero _).symm
  have hidle {e : InsEvent} (hmarked : s.marked e = none) (hclaimed : s.claimed e = none)
      (helapsed : e.elapsed = 0) : Effect s s e :=
    .of_same hmarked hclaimed (fun _ => ⟨rfl, rfl, rfl⟩) (fun _ _ b h => ⟨b, h⟩)
      (fun _ _ h => h) (helapsed ▸ hnow)
  have halive {e : InsEvent} {i : Fin maxInsCount} (hmarked : s.marked e = some i)
      (hclaimed : s.claimed e = none) (helapsed : e.elapsed = 0) :
      Effect s (s.mwXenInsAlive i) e :=
    .of_alive hmarked hclaimed rfl (fun _ _ b h => ⟨b, h⟩) (fun _ _ h => Or.inl h)
      (helapsed ▸ hnow)
  cases e with
  | tick n =>
      cases hs
      exact .of_same rfl rfl (fun _ => ⟨rfl, rfl, rfl⟩) (fun _ _ b h => ⟨b, h⟩)
        (fun _ _ h => h) rfl
  | found t id =>
      simp only [step] at hs
      split at hs
      · cases hs
        exact hidle rfl rfl rfl
      · split at hs
        · cases hs
          exact hidle rfl rfl rfl
        · cases hs
          exact .of_goto rfl rfl (fun _ => ⟨rfl, rfl, rfl⟩) rfl
            (by rintro _ _ ⟨⟩) (by rintro _ ⟨⟩) hnow
      · cases hs
  | move t ok => exact .of_insFound hs
  | heartbeat domid =>
      simp only [step] at hs
      split at hs
      · rename_i hnone
        cases hs
        exact hidle (by rw [marked, hnone]; rfl) rfl rfl
      · rename_i i hi
        split at hs
        · rename_i huse
          cases hs
          exact halive (by rw [marked, hi]; simp [huse]) rfl rfl
        · rename_i huse
          cases hs
          exact hidle (by rw [marked, hi]; simp [huse]) rfl rfl
  | bound domid =>
      simp only [step] at hs
      split at hs
      · rename_i hnone
        cases hs
        exact hidle hnone rfl rfl
      · rename_i i hi
        cases hs
        exact halive hi rfl rfl
  | reap => exact absurd rfl hreap
  | visit => exact absurd rfl hvisit

end InsTable

/-! ## The invariant of the observer -/

namespace Watch

/-- The time is known up to wrap-around, and so is when each entry was last seen. -/
structure Clocked (s : InsTable) (time : Nat) (seen : Fin maxInsCount → Nat) : Prop where
  now : s.jiffies = BitVec.ofNat 64 time
  last : ∀ i, (s.ins i).lastSeenTime = BitVec.ofNat 64 (seen i)
  past : ∀ i, seen i ≤ time

/-- What holds of the numbers of the discoveries: an entry is in use for one
discovery, which has not been reported; a discovery that has claimed an entry
keeps it until it is reported; and the INS of a discovery that has come to
`mw_xen_ins_alive` has not missed all the heartbeats it may. -/
structure Sound (w : Watch) : Prop where
  clocked : Clocked w.table w.time w.seen
  owned : ∀ i, (w.table.ins i).inUse = true ↔ ∃ k, w.owner i = some k
  fresh : ∀ i k, w.owner i = some k → k < w.next
  stale : ∀ k ∈ w.reports, k < w.next
  once : w.reports.Nodup
  unreported : ∀ i k, w.owner i = some k → k ∉ w.reports
  distinct : ∀ i j k, w.owner i = some k → w.owner j = some k → i = j
  held : ∀ t i b, (w.table.found t).hold = some (i, b) →
    w.owner i = some (w.serial t) ∨ w.serial t ∈ w.reports
  done : ∀ k ∈ w.completed, (∃ i, w.owner i = some k) ∨ k ∈ w.reports
  few : ∀ i k, w.owner i = some k →
    (k ∈ w.completed ∨ ∃ t, w.table.found t = .ready i ∧ w.serial t = k) →
    (w.table.ins i).missedHeartbeats < heartbeatMaxMisses

variable {hz start : Nat} {w w' : Watch} {s s' : InsTable} {e : InsEvent}
  {t k : Nat} {i : Fin maxInsCount}

/-- The age of an entry, if the counter has not gone round since. -/
theorem Clocked.age (h : Clocked s w.time w.seen) (hlt : w.time - w.seen i < 2 ^ 64) :
    (s.jiffies - (s.ins i).lastSeenTime).toNat = w.time - w.seen i := by
  have hpast := h.past i
  rw [h.now, h.last, BitVec.toNat_sub, BitVec.toNat_ofNat, BitVec.toNat_ofNat]
  omega

theorem Clocked.step (h : Clocked w.table w.time w.seen) (heff : Effect w.table s e) :
    Clocked s ((w.pass e).see (w.table.marked e)).time ((w.pass e).see (w.table.marked e)).seen := by
  have hnow : s.jiffies = BitVec.ofNat 64 (w.time + e.elapsed.toNat) := by
    rw [heff.jiffies, h.now]
    apply BitVec.eq_of_toNat_eq
    simp
  cases hmarked : w.table.marked e with
  | none =>
      refine ⟨hnow, fun i => ?_, fun i => (h.past i).trans (Nat.le_add_right _ _)⟩
      rw [(heff.unseen i (by rw [hmarked]; nofun)).1]
      exact h.last i
  | some i =>
      have hzero : e.elapsed = 0 := by
        cases e with
        | tick n => cases hmarked
        | _ => rfl
      refine ⟨hnow, fun j => ?_, fun j => ?_⟩
      · simp only [see, pass, Function.update_apply]
        by_cases hj : j = i
        · rw [if_pos hj, hj, (heff.seen i hmarked).1, h.now, hzero]
          rfl
        · have hunmarked : w.table.marked e ≠ some j := by
            rw [hmarked]
            exact fun heq => hj (Option.some.inj heq).symm
          rw [if_neg hj, (heff.unseen j hunmarked).1]
          exact h.last j
      · simp only [see, pass, Function.update_apply]
        split
        · exact le_refl _
        · exact (h.past j).trans (Nat.le_add_right _ _)

/-- A step that claims an entry does nothing else of note. -/
theorem claimed_only (h : s.claimed e = some (t, i)) :
    s.marked e = none ∧ s.finished e = none ∧ (s.found t).hold = none := by
  cases e with
  | move t' ok =>
      cases hpc : s.found t' with
      | probing id k =>
          refine ⟨by simp only [marked, hpc], by simp only [finished, hpc], ?_⟩
          simp only [claimed, hpc] at h
          split at h
          · split at h
            · cases h
            · cases h
              rw [hpc]
              rfl
          · cases h
      | _ =>
          simp only [claimed, hpc] at h
          cases h
  | _ => cases h

/-- Nor does a step that completes a call. -/
theorem finished_only (h : s.finished e = some t) :
    s.marked e = none ∧ s.claimed e = none ∧ ∃ i, s.found t = .ready i := by
  cases e with
  | move t' ok =>
      cases hpc : s.found t' with
      | ready i =>
          refine ⟨by simp only [marked, hpc], by simp only [claimed, hpc], i, ?_⟩
          simp only [finished, hpc, Option.some.injEq] at h
          rw [← h, hpc]
      | _ =>
          simp only [finished, hpc] at h
          cases h
  | _ => cases h

/-- A call that has claimed an entry has an older number than the next. -/
theorem Sound.older (h : Sound w) {b : Bool} (hhold : (w.table.found t).hold = some (i, b)) :
    w.serial t < w.next := by
  rcases h.held t i b hhold with howner | hreport
  · exact h.fresh i _ howner
  · exact h.stale _ hreport

theorem Sound.old (h : Sound w) (hk : k ∈ w.completed) : k < w.next := by
  rcases h.done k hk with ⟨i, howner⟩ | hreport
  · exact h.fresh i k howner
  · exact h.stale k hreport

/-- The misses of an entry that is marked or left alone. -/
theorem few_step (heff : Effect s s' e)
    (hfew : s.marked e ≠ some i → (s.ins i).missedHeartbeats < heartbeatMaxMisses) :
    (s'.ins i).missedHeartbeats < heartbeatMaxMisses := by
  by_cases hmarked : s.marked e = some i
  · rw [(heff.seen i hmarked).2]
    decide
  · rw [(heff.unseen i hmarked).2]
    exact hfew hmarked

variable {time : Nat} {seen : Fin maxInsCount → Nat}

/-- A call claims an entry. -/
theorem Sound.claim (h : Sound w) (heff : Effect w.table s e)
    (hclaimed : w.table.claimed e = some (t, i)) (hclocked : Clocked s time seen) :
    Sound { w.claim (some (t, i)) with table := s, time := time, seen := seen } := by
  have howner (j : Fin maxInsCount) : (w.claim (some (t, i))).owner j =
      if j = i then some w.next else w.owner j := Function.update_apply ..
  have hserial (t' : Nat) : (w.claim (some (t, i))).serial t' =
      if t' = t then w.next else w.serial t' := Function.update_apply ..
  have hnone : ¬ ∃ k, w.owner i = some k := by
    rw [← h.owned, heff.free t i hclaimed]
    exact Bool.false_ne_true
  -- Whoever had an entry before has the same entry now.
  have hkept {j : Fin maxInsCount} {k : Nat} (hj : w.owner j = some k) :
      (w.claim (some (t, i))).owner j = some k := by
    rw [howner, if_neg]
    · exact hj
    · rintro rfl
      exact hnone ⟨k, hj⟩
  -- A call that was in its setup is another one, and has an older number.
  have hother {t' : Nat} {j : Fin maxInsCount} {b : Bool}
      (hfree : ∀ j, w.table.claimed e ≠ some (t', j))
      (hhold : (w.table.found t').hold = some (j, b)) :
      (w.claim (some (t, i))).serial t' = w.serial t' := by
    rw [hserial, if_neg]
    rintro rfl
    exact hfree i hclaimed
  constructor
  · exact hclocked
  · intro j
    show (s.ins j).inUse = true ↔ ∃ k, (w.claim (some (t, i))).owner j = some k
    rw [heff.inUse, h.owned, howner, hclaimed]
    by_cases hj : j = i
    · simp [hj]
    · simp [hj, Ne.symm hj]
  · intro j k hk
    show k < w.next + 1
    rw [howner] at hk
    split at hk
    · cases hk
      exact Nat.lt_succ_self _
    · exact Nat.lt_succ_of_lt (h.fresh j k hk)
  · exact fun k hk => Nat.lt_succ_of_lt (h.stale k hk)
  · exact h.once
  · intro j k hk
    rw [howner] at hk
    split at hk
    · cases hk
      exact fun hmem => Nat.lt_irrefl _ (h.stale _ hmem)
    · exact h.unreported j k hk
  · intro j j' k hj hj'
    rw [howner] at hj hj'
    split at hj <;> split at hj'
    · rename_i hji hji'
      rw [hji, hji']
    · cases hj
      exact absurd (h.fresh j' _ hj') (Nat.lt_irrefl _)
    · cases hj'
      exact absurd (h.fresh j _ hj) (Nat.lt_irrefl _)
    · exact h.distinct j j' k hj hj'
  · intro t' j b hhold
    show (w.claim (some (t, i))).owner j = some ((w.claim (some (t, i))).serial t') ∨
      (w.claim (some (t, i))).serial t' ∈ w.reports
    rcases heff.hold t' j b hhold with hnew | ⟨hfree, b', hold⟩
    · rw [hclaimed] at hnew
      cases hnew
      rw [howner, hserial, if_pos rfl, if_pos rfl]
      exact Or.inl rfl
    · rw [hother hfree hold]
      exact (h.held t' j b' hold).imp_left hkept
  · intro k hk
    rcases h.done k hk with ⟨j, hj⟩ | hreport
    · exact Or.inl ⟨j, hkept hj⟩
    · exact Or.inr hreport
  · intro j k hj hknown
    refine few_step heff fun hunmarked => ?_
    have hready : k ∈ w.completed ∨ ∃ t', w.table.found t' = .ready j ∧ w.serial t' = k := by
      rcases hknown with hdone | ⟨t', hpc, rfl⟩
      · exact Or.inl hdone
      · have hpc' : w.table.found t' = .ready j :=
          (heff.ready t' j hpc).resolve_right hunmarked
        have hhold' : (w.table.found t').hold = some (j, true) := by
          rw [hpc']
          rfl
        have hfree : ∀ j', w.table.claimed e ≠ some (t', j') := by
          intro j' hnew
          rw [(claimed_only hnew).2.2] at hhold'
          cases hhold'
        exact Or.inr ⟨t', hpc', (hother hfree hhold').symm⟩
    rw [howner] at hj
    split at hj
    · cases hj
      rcases hready with hdone | ⟨t', hpc, hserial⟩
      · exact absurd (h.old hdone) (Nat.lt_irrefl _)
      · have hhold' : (w.table.found t').hold = some (j, true) := by
          rw [hpc]
          rfl
        exact absurd (hserial ▸ h.older hhold') (Nat.lt_irrefl _)
    · exact h.few j k hj hready

/-- A step that claims nothing, and the discoveries that are known as completed
after it. -/
theorem Sound.unclaimed (h : Sound w) (heff : Effect w.table s e)
    (hclaimed : w.table.claimed e = none) (hclocked : Clocked s time seen) (completed : List Nat)
    (hold : ∀ k ∈ completed, k ∈ w.completed ∨
      ∃ t i, w.table.found t = .ready i ∧ w.serial t = k) :
    Sound { w with table := s, time := time, seen := seen, completed := completed } where
  clocked := hclocked
  owned i := by
    have hkept := heff.inUse i
    simp only [hclaimed, reduceCtorEq, exists_false, or_false] at hkept
    exact hkept.trans (h.owned i)
  fresh := h.fresh
  stale := h.stale
  once := h.once
  unreported := h.unreported
  distinct := h.distinct
  held t i b hhold := by
    rcases heff.hold t i b hhold with hnew | ⟨-, b', hold'⟩
    · rw [hclaimed] at hnew
      cases hnew
    · exact h.held t i b' hold'
  done k hk := by
    rcases hold k hk with hdone | ⟨t, i, hpc, rfl⟩
    · exact h.done k hdone
    · exact (h.held t i true (by rw [hpc]; rfl)).imp_left fun howner => ⟨i, howner⟩
  few i k hi hknown := by
    refine few_step heff fun hunmarked => ?_
    apply h.few i k hi
    rcases hknown with hk | ⟨t, hpc, hserial⟩
    · rcases hold k hk with hdone | ⟨t, j, hpc, rfl⟩
      · exact Or.inl hdone
      · -- The entry that the call was about is still that of its discovery.
        rcases h.held t j true (by rw [hpc]; rfl) with howner | hreport
        · obtain rfl := h.distinct i j _ hi howner
          exact Or.inr ⟨t, hpc, rfl⟩
        · exact absurd hreport (h.unreported i _ hi)
    · exact Or.inr ⟨t, (heff.ready t i hpc).resolve_right hunmarked, hserial⟩

theorem mem_deadEntries : i ∈ s.deadEntries hz ↔ dies hz s.jiffies (s.ins i) = true := by
  rw [deadEntries, List.mem_filter]
  exact and_iff_right (List.mem_finRange i)

/-- Who is reported after a call of the reaper. -/
theorem mem_reports_reap : k ∈ (w.reap hz).reports ↔ k ∈ w.reports ∨
    ∃ i, dies hz w.table.jiffies (w.table.ins i) = true ∧ w.owner i = some k := by
  rw [reap, List.mem_append, List.mem_filterMap]
  simp only [mem_deadEntries]

/-- Who has an entry after it. -/
theorem owner_reap : (w.reap hz).owner i = some k ↔
    dies hz w.table.jiffies (w.table.ins i) = false ∧ w.owner i = some k := by
  show (if dies hz w.table.jiffies (w.table.ins i) then none else w.owner i) = some k ↔ _
  cases dies hz w.table.jiffies (w.table.ins i) <;> simp

theorem reap_ins : (w.reap hz).table.ins i = visited hz w.table.jiffies (w.table.ins i) := by
  rw [reap, mwXenReapDeadIns_table]

theorem reap_found : (w.reap hz).table.found = w.table.found := by
  rw [reap, mwXenReapDeadIns_table]

/-- Whoever had an entry has it or has been reported. -/
theorem kept_reap (h : w.owner i = some k ∨ k ∈ w.reports) :
    (w.reap hz).owner i = some k ∨ k ∈ (w.reap hz).reports := by
  rw [owner_reap, mem_reports_reap]
  cases hdies : dies hz w.table.jiffies (w.table.ins i) with
  | false => exact h.imp (fun howner => ⟨rfl, howner⟩) Or.inl
  | true => exact Or.inr (h.symm.imp id fun howner => ⟨i, hdies, howner⟩)

theorem Sound.reap (h : Sound w) : Sound (w.reap hz) where
  clocked := by
    refine ⟨?_, fun i => ?_, h.clocked.past⟩
    · rw [Watch.reap, mwXenReapDeadIns_table]
      exact h.clocked.now
    · rw [reap_ins, visited_lastSeenTime]
      exact h.clocked.last i
  owned i := by
    rw [reap_ins]
    simp only [owner_reap]
    cases hdies : dies hz w.table.jiffies (w.table.ins i) with
    | false =>
        rw [(visited_of_not_dies hdies).1, h.owned]
        simp
    | true =>
        rw [visited_of_dies hdies]
        simp
  fresh i k hk := h.fresh i k (owner_reap.mp hk).2
  stale k hk := by
    rcases mem_reports_reap.mp hk with hreport | ⟨i, -, howner⟩
    · exact h.stale k hreport
    · exact h.fresh i k howner
  once := by
    apply List.Nodup.append h.once
    · refine List.Nodup.filterMap (fun i j k hi hj => h.distinct i j k hi hj) ?_
      exact (List.nodup_finRange maxInsCount).filter _
    · intro k hreport hk
      obtain ⟨i, -, howner⟩ := List.mem_filterMap.mp hk
      exact h.unreported i k howner hreport
  unreported i k hk hreport := by
    obtain ⟨hlives, howner⟩ := owner_reap.mp hk
    rcases mem_reports_reap.mp hreport with hold | ⟨j, hdies, howner'⟩
    · exact h.unreported i k howner hold
    · rw [← h.distinct i j k howner howner', hlives] at hdies
      cases hdies
  distinct i j k hi hj := h.distinct i j k (owner_reap.mp hi).2 (owner_reap.mp hj).2
  held t i b hhold := by
    rw [reap_found] at hhold
    exact kept_reap (h.held t i b hhold)
  done k hk := by
    rcases h.done k hk with ⟨i, howner⟩ | hreport
    · exact (kept_reap (Or.inl howner)).imp_left fun howner => ⟨i, howner⟩
    · exact Or.inr (mem_reports_reap.mpr (Or.inl hreport))
  few i k hi hknown := by
    obtain ⟨hlives, howner⟩ := owner_reap.mp hi
    rw [reap_found] at hknown
    rw [reap_ins]
    exact (visited_missed hlives ((h.owned i).mpr ⟨k, howner⟩) (h.few i k howner hknown)).2

/-- A step is a call of the reaper, or one that the table takes. -/
theorem step_cases (hs : w.step hz e = some w') :
    (e = .reap ∧ w' = w.reap hz) ∨
      ∃ s, e ≠ .reap ∧ Effect w.table s e ∧
        w' = { (((w.pass e).see (w.table.marked e)).claim (w.table.claimed e)).complete
          (w.table.finished e) with table := s } := by
  have htable {e : InsEvent} (hreap : e ≠ .reap) (hvisit : e ≠ .visit)
      (hs : ((w.table.step hz e).map fun t =>
        { (((w.pass e).see (w.table.marked e)).claim (w.table.claimed e)).complete
          (w.table.finished e) with table := t }) = some w') :
      ∃ s, e ≠ .reap ∧ Effect w.table s e ∧
        w' = { (((w.pass e).see (w.table.marked e)).claim (w.table.claimed e)).complete
          (w.table.finished e) with table := s } := by
    obtain ⟨s, htable, rfl⟩ := Option.map_eq_some_iff.mp hs
    exact ⟨s, hreap, Effect.of_step hreap hvisit htable, rfl⟩
  cases e with
  | reap =>
      cases hs
      exact Or.inl ⟨rfl, rfl⟩
  | visit => cases hs
  | tick n => exact Or.inr (htable nofun nofun hs)
  | found t id => exact Or.inr (htable nofun nofun hs)
  | move t ok => exact Or.inr (htable nofun nofun hs)
  | heartbeat domid => exact Or.inr (htable nofun nofun hs)
  | bound domid => exact Or.inr (htable nofun nofun hs)

/-- Time passes and entries are seen, and that is all. -/
theorem see_pass (m : Option (Fin maxInsCount)) :
    (w.pass e).see m =
      { w with time := ((w.pass e).see m).time, seen := ((w.pass e).see m).seen } := by
  cases m <;> rfl

theorem Sound.step (h : Sound w) (hs : w.step hz e = some w') : Sound w' := by
  rcases step_cases hs with ⟨rfl, rfl⟩ | ⟨s, -, heff, rfl⟩
  · exact h.reap
  · have hclocked := h.clocked.step heff
    cases hclaimed : w.table.claimed e with
    | some x =>
        obtain ⟨t, i⟩ := x
        obtain ⟨hmarked, hfinished, -⟩ := claimed_only hclaimed
        rw [hmarked] at hclocked ⊢
        rw [hfinished]
        exact h.claim heff hclaimed hclocked
    | none =>
        cases hfinished : w.table.finished e with
        | none =>
            show Sound { (w.pass e).see (w.table.marked e) with table := s }
            rw [see_pass]
            exact h.unclaimed heff hclaimed hclocked w.completed fun k hk => Or.inl hk
        | some t =>
            obtain ⟨-, -, i, hpc⟩ := finished_only hfinished
            show Sound (({ (w.pass e).see (w.table.marked e) with table := s } : Watch).complete
              (some t))
            rw [see_pass]
            refine h.unclaimed heff hclaimed hclocked (w.serial t :: w.completed) fun k hk => ?_
            rcases List.mem_cons.mp hk with rfl | hk
            · exact Or.inr ⟨t, i, hpc, rfl⟩
            · exact Or.inl hk

theorem sound_init (hz start : Nat) : Sound (watch hz start).init where
  clocked := ⟨rfl, fun _ => rfl, fun _ => Nat.zero_le _⟩
  owned _ := by
    constructor
    · exact fun h => absurd h Bool.false_ne_true
    · rintro ⟨k, ⟨⟩⟩
  fresh := nofun
  stale := nofun
  once := List.nodup_nil
  unreported := nofun
  distinct := nofun
  held := nofun
  done := nofun
  few := nofun

theorem sound_run {es : List InsEvent} (hrun : (watch hz start).run es = some w) : Sound w :=
  (watch hz start).run_invariant (sound_init hz start) (fun _ _ _ hs h => h.step hs) hrun

/-- An INS that a call of the reaper reports has been silent for too long. -/
theorem Sound.reported (h : Sound w) (hnew : k ∈ (w.reap hz).reports) (hold : k ∉ w.reports) :
    ∃ i, w.owner i = some k ∧ (w.time - w.seen i < 2 ^ 64 →
      heartbeatIntervalSec * heartbeatMaxMisses < (w.time - w.seen i) / hz) := by
  obtain ⟨i, hdies, howner⟩ := (mem_reports_reap.mp hnew).resolve_left hold
  refine ⟨i, howner, fun hlt => ?_⟩
  simp only [dies, Bool.and_eq_true, decide_eq_true_eq, overdue] at hdies
  obtain ⟨⟨-, hdue⟩, hlast⟩ := hdies
  rwa [h.clocked.age hlt, hlast] at hdue

/-- A heartbeat is noted for the INS that has its id to itself. -/
theorem marked_heartbeat (huse : (s.ins i).inUse = true)
    (hsole : ∀ j, (s.ins j).domid = (s.ins i).domid → j = i) :
    s.marked (.heartbeat (s.ins i).domid) = some i := by
  have hfirst : s.mwXenGetInsFromXsPath (s.ins i).domid = some i := by
    cases hfind : s.mwXenGetInsFromXsPath (s.ins i).domid with
    | none =>
        have hnone := List.find?_eq_none.mp hfind i (List.mem_finRange i)
        exact absurd (beq_self_eq_true _) hnone
    | some j => rw [hsole j (eq_of_beq (List.find?_some hfind :))]
  rw [marked, hfirst]
  exact Option.filter_eq_some_iff.mpr ⟨rfl, huse⟩

/-! ## Silence -/

/-- A step in which nothing is heard of the INS of discovery `k`. A call of the
reaper is made before the counter has gone round since it was last seen. -/
def silent (k : Nat) (w : Watch) (e : InsEvent) : Prop :=
  ∀ i, w.owner i = some k →
    w.table.marked e ≠ some i ∧ (e = .reap → w.time - w.seen i < 2 ^ 64)

/-- The INS of discovery `k` has been silent for longer than it may. -/
def beyond (hz k : Nat) (w : Watch) : Prop :=
  ∀ i, w.owner i = some k → heartbeatIntervalSec * heartbeatMaxMisses < (w.time - w.seen i) / hz

instance (k : Nat) (w : Watch) (e : InsEvent) : Decidable (silent k w e) :=
  inferInstanceAs (Decidable (∀ i, w.owner i = some k →
    w.table.marked e ≠ some i ∧ (e = .reap → w.time - w.seen i < 2 ^ 64)))

instance (hz k : Nat) (w : Watch) : Decidable (beyond hz k w) :=
  inferInstanceAs (Decidable (∀ i, w.owner i = some k →
    heartbeatIntervalSec * heartbeatMaxMisses < (w.time - w.seen i) / hz))

@[simp] theorem complete_owner (o : Option Nat) : (w.complete o).owner = w.owner := by
  cases o <;> rfl

@[simp] theorem complete_seen (o : Option Nat) : (w.complete o).seen = w.seen := by
  cases o <;> rfl

@[simp] theorem complete_time (o : Option Nat) : (w.complete o).time = w.time := by
  cases o <;> rfl

@[simp] theorem complete_reports (o : Option Nat) : (w.complete o).reports = w.reports := by
  cases o <;> rfl

@[simp] theorem claim_seen (x : Option (Nat × Fin maxInsCount)) :
    (w.claim x).seen = w.seen := by
  cases x <;> rfl

@[simp] theorem claim_time (x : Option (Nat × Fin maxInsCount)) :
    (w.claim x).time = w.time := by
  cases x <;> rfl

@[simp] theorem claim_reports (x : Option (Nat × Fin maxInsCount)) :
    (w.claim x).reports = w.reports := by
  cases x <;> rfl

@[simp] theorem claim_completed (x : Option (Nat × Fin maxInsCount)) :
    (w.claim x).completed = w.completed := by
  cases x <;> rfl

theorem completed_complete (o : Option Nat) (hk : k ∈ w.completed) :
    k ∈ (w.complete o).completed := by
  cases o with
  | none => exact hk
  | some t => exact List.mem_cons_of_mem _ hk

/-- What the observer has noted of an INS that is not heard of stays so. -/
theorem Sound.step_silent (h : Sound w) (heff : Effect w.table s e) (hi : w.owner i = some k)
    (hquiet : w.table.marked e ≠ some i)
    (hw : w' = { (((w.pass e).see (w.table.marked e)).claim (w.table.claimed e)).complete
      (w.table.finished e) with table := s }) :
    w'.owner i = some k ∧ w'.seen i = w.seen i ∧ w.time ≤ w'.time ∧
      (w'.table.ins i).missedHeartbeats = (w.table.ins i).missedHeartbeats := by
  subst hw
  refine ⟨?_, ?_, ?_, (heff.unseen i hquiet).2⟩
  · rw [complete_owner, see_pass]
    cases hclaimed : w.table.claimed e with
    | none => exact hi
    | some x =>
        obtain ⟨t, j⟩ := x
        have hne : i ≠ j := by
          rintro rfl
          have huse := (h.owned i).mpr ⟨k, hi⟩
          rw [heff.free t i hclaimed] at huse
          cases huse
        exact (Function.update_of_ne hne ..).trans hi
  · rw [complete_seen, claim_seen]
    cases hmarked : w.table.marked e with
    | none => rfl
    | some j =>
        refine Function.update_of_ne ?_ ..
        rintro rfl
        exact hquiet hmarked
  · rw [complete_time, claim_time]
    cases w.table.marked e <;> exact Nat.le_add_right _ _

/-- The INS has been reported, or has missed a heartbeat in each call of the reaper. -/
def Fading (hz k reaps : Nat) (w : Watch) : Prop :=
  k ∈ w.reports ∨ ∃ i, w.owner i = some k ∧
    heartbeatIntervalSec * heartbeatMaxMisses < (w.time - w.seen i) / hz ∧
    reaps ≤ (w.table.ins i).missedHeartbeats

/-- A call of the reaper counts a miss of an INS that is overdue. -/
theorem Fading.reap {reaps : Nat} (h : Sound w) (hk : k ∈ w.completed)
    (hG : silent k w .reap) (hfading : Fading hz k reaps w) :
    Fading hz k (reaps + 1) (w.reap hz) := by
  rcases hfading with hreport | ⟨i, howner, hage, hmissed⟩
  · exact Or.inl (mem_reports_reap.mpr (Or.inl hreport))
  · cases hdies : dies hz w.table.jiffies (w.table.ins i) with
    | true => exact Or.inl (mem_reports_reap.mpr (Or.inr ⟨i, hdies, howner⟩))
    | false =>
        have huse := (h.owned i).mpr ⟨k, howner⟩
        have hfew := h.few i k howner (Or.inl hk)
        have hdue : overdue hz w.table.jiffies (w.table.ins i) = true := by
          rw [overdue, h.clocked.age ((hG i howner).2 rfl), decide_eq_true_eq]
          exact lt_of_le_of_lt (Nat.mul_le_mul_left _ hfew) hage
        refine Or.inr ⟨i, owner_reap.mpr ⟨hdies, howner⟩, hage, ?_⟩
        rw [reap_ins, (visited_missed hdies huse hfew).1, if_pos hdue]
        exact Nat.succ_le_succ hmissed

/-- An INS that stays silent misses a heartbeat in each call of the reaper, until it
is reported. -/
theorem Sound.silent_run {es : List InsEvent} (h : Sound w) (hk : k ∈ w.completed)
    (hbeyond : beyond hz k w) (hG : (watch hz start).GuardedFrom (silent k) w es)
    (hrun : (watch hz start).runFrom w es = some w')
    (hreaps : heartbeatMaxMisses ≤ es.count InsEvent.reap) : k ∈ w'.reports := by
  have hstart : Fading hz k 0 w := by
    rcases h.done k hk with ⟨i, howner⟩ | hreport
    · exact Or.inr ⟨i, howner, hbeyond i howner, Nat.zero_le _⟩
    · exact Or.inl hreport
  have hend : Sound w' ∧ k ∈ w'.completed ∧ Fading hz k (([] ++ es).count InsEvent.reap) w' := by
    refine @System.guardedFrom_history _ _ (watch hz start) (silent k)
      (fun past w => Sound w ∧ k ∈ w.completed ∧ Fading hz k (past.count InsEvent.reap) w)
      ?_ es [] w w' hG hrun ⟨h, hk, hstart⟩
    rintro past w e w' hsilent hs ⟨h, hk, hfading⟩
    refine ⟨h.step hs, ?_⟩
    rw [List.count_append]
    rcases step_cases hs with ⟨rfl, rfl⟩ | ⟨s, hreap, heff, rfl⟩
    · exact ⟨hk, hfading.reap h hk hsilent⟩
    · refine ⟨completed_complete _ ?_, ?_⟩
      · rw [claim_completed, see_pass]
        exact hk
      · rw [List.count_singleton, if_neg (by simpa using hreap)]
        rcases hfading with hreport | ⟨i, howner, hage, hmissed⟩
        · left
          rw [complete_reports, claim_reports, see_pass]
          exact hreport
        · right
          obtain ⟨howner', hseen, htime, hmissed'⟩ :=
            h.step_silent heff howner (hsilent i howner).1 rfl
          refine ⟨i, howner', ?_, hmissed'.symm ▸ hmissed⟩
          rw [hseen]
          exact lt_of_lt_of_le hage (Nat.div_le_div_right (Nat.sub_le_sub_right htime _))
  obtain ⟨h', hk', hreport | ⟨i, howner, -, hmissed⟩⟩ := hend
  · exact hreport
  · -- Then it has missed more heartbeats than an INS that has not been reported.
    have hfew := h'.few i k howner (Or.inl hk')
    rw [List.nil_append] at hmissed
    omega

end Watch

/-- In every run, an INS that a call of the reaper reports dead has not been seen for
more than `HEARTBEAT_INTERVAL_SEC * HEARTBEAT_MAX_MISSES` whole seconds, no
discovery is reported twice, and an INS whose discovery has completed and that
has been silent for longer is reported by `HEARTBEAT_MAX_MISSES` calls of the
reaper if it stays silent. -/
theorem heartbeat_timeout (hz start : Nat) (es : List InsEvent) (w : Watch)
    (hrun : (watch hz start).run es = some w) :
    (∀ w', (watch hz start).step w .reap = some w' → ∀ k ∈ w'.reports, k ∉ w.reports →
      ∃ i, w.owner i = some k ∧ (w.time - w.seen i < 2 ^ 64 →
        heartbeatIntervalSec * heartbeatMaxMisses < (w.time - w.seen i) / hz)) ∧
    w.reports.Nodup ∧
    ∀ k ∈ w.completed, Watch.beyond hz k w → ∀ (fs : List InsEvent) (w' : Watch),
      (watch hz start).GuardedFrom (Watch.silent k) w fs →
      (watch hz start).runFrom w fs = some w' → heartbeatMaxMisses ≤ fs.count InsEvent.reap →
      k ∈ w'.reports := by
  have h := Watch.sound_run hrun
  refine ⟨?_, h.once, ?_⟩
  · rintro w' ⟨⟩ k hnew hold
    exact h.reported hnew hold
  · intro k hk hbeyond fs w' hG hrun' hreaps
    exact h.silent_run hk hbeyond hG hrun' hreaps

/-- The INS of domain 5 is found and then silent for four seconds, while the counter
goes round. -/
def silentFive : List InsEvent := claimFive ++ finishFive ++ [.tick 1000]

theorem heartbeat_timeout_five :
    ∃ w w₁ w₂, (watch 250 (2 ^ 64 - 100)).run silentFive = some w ∧
      (watch 250 (2 ^ 64 - 100)).step w .reap = some w₁ ∧
      (watch 250 (2 ^ 64 - 100)).step w₁ .reap = some w₂ ∧ w₂.reports.Nodup ∧ 0 ∈ w₂.reports ∧
      ∃ i, heartbeatIntervalSec * heartbeatMaxMisses < (w₁.time - w₁.seen i) / 250 := by
  let sys := watch 250 (2 ^ 64 - 100)
  let w := (sys.run silentFive).get (by decide +kernel)
  have hw : sys.run silentFive = some w := (Option.some_get _).symm
  let w₁ := w.reap 250
  let w₂ := w₁.reap 250
  have hw₁ : sys.run (silentFive ++ [.reap]) = some w₁ := by
    rw [System.run, System.runFrom_append, show sys.runFrom sys.init silentFive = some w from hw]
    rfl
  have hw₂ : sys.run (silentFive ++ [.reap, .reap]) = some w₂ := by
    rw [System.run, System.runFrom_append, show sys.runFrom sys.init silentFive = some w from hw]
    rfl
  have hreported : 0 ∈ w₂.reports :=
    (heartbeat_timeout 250 _ silentFive w hw).2.2 0 (by decide +kernel) (by decide +kernel)
      [.reap, .reap] w₂ (by decide +kernel) rfl (by decide)
  obtain ⟨i, howner, hbound⟩ :=
    (heartbeat_timeout 250 _ _ w₁ hw₁).1 w₂ rfl 0 hreported (by decide +kernel)
  have hrecent : ∀ i, w₁.owner i = some 0 → w₁.time - w₁.seen i < 2 ^ 64 := by decide +kernel
  exact ⟨w, w₁, w₂, hw, rfl, rfl, (heartbeat_timeout 250 _ _ w₂ hw₂).2.1, hreported, i,
    hbound (hrecent i howner)⟩

end MagicWand.Kernel
