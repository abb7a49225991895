import MagicWand.Foundation.Numerals
import MagicWand.Foundation.Transition
import MagicWand.Kernel.Sockets
import Mathlib.Algebra.BigOperators.Fin

/-!
# The table of INSs

`g_mwxen_state.ins` while INSs come and go: `mw_xen_ins_found` claims an entry,
stores the domain id and sets up the ring step by step, heartbeats refresh the
entry, and `mw_xen_reap_dead_ins` walks over the table and releases entries that
have not been heard of. Any number of calls of `mw_xen_ins_found` may be under
way. A call that fails returns where it is and leaves the entry claimed, and the
count of INSs never goes down.
-/

namespace MagicWand.Kernel

open Foundation

/-! ## State -/

def heartbeatIntervalSec : Nat := 1
def heartbeatMaxMisses : Nat := 2

/-- `simple_strtol(s, NULL, 10)`. -/
def simpleStrtol (s : List Char) : Int :=
  match s with
  | '-' :: s => -((Numerals.takeDigits 10 0 s).1 : Int)
  | s => (Numerals.takeDigits 10 0 s).1

/-- An id below `DOMID_FIRST_RESERVED`, and not that of the control domain. -/
def validDomid (domid : Int) : Bool := decide (0 < domid ∧ domid < 0x7ff0)

/-- The part of `mwcomms_ins_data_t` that says who has the entry. -/
structure InsEntry where
  domid : BitVec 16 := 0
  inUse : Bool := false
  isRingReady : Bool := false
  lastSeenTime : BitVec 64 := 0
  missedHeartbeats : Nat := 0
deriving DecidableEq, Repr

/-- The steps that set up the ring of an entry, in order. -/
inductive Setup where
  | ringBlock
  | evtChn
  | grant
  | ring
  | grantRefs
deriving DecidableEq, Repr

/-- Where a call of `mw_xen_ins_found` stands: in the loop over the entries, about
to store the id it has read in the entry it has claimed, before the first of
the steps `todo`, or about to announce the INS. -/
inductive Found where
  | idle
  | probing (id : List Char) (i : Nat)
  | naming (id : List Char) (i : Fin maxInsCount)
  | setup (i : Fin maxInsCount) (todo : List Setup)
  | ready (i : Fin maxInsCount)
deriving DecidableEq, Repr

/-- The entry that a call has claimed, and whether it has stored the id. -/
def Found.hold : Found → Option (Fin maxInsCount × Bool)
  | .naming _ i => some (i, false)
  | .setup i _ => some (i, true)
  | .ready i => some (i, true)
  | _ => none

/-- `g_mwxen_state` with the calls of `mw_xen_ins_found` and the reaper, which
has read the time and is at some entry. `discovered` is the history of the
numbers that were read for the entries. -/
structure InsTable where
  ins : Fin maxInsCount → InsEntry := fun _ => {}
  insCount : Nat := 0
  jiffies : BitVec 64 := 0
  found : Nat → Found := fun _ => .idle
  reaper : Option (Nat × BitVec 64) := none
  discovered : Fin maxInsCount → Int := fun _ => 0

inductive InsEvent where
  /-- Time passes. -/
  | tick (n : BitVec 64)
  /-- XenStore calls `mw_xen_ins_found`, which reads the id. -/
  | found (t : Nat) (id : Option (List Char))
  /-- Call `t` moves on; `ok` is what a step that can fail comes to. -/
  | move (t : Nat) (ok : Bool)
  /-- XenStore calls `mw_xen_ins_heartbeat`, or `mw_xen_bind_evt_chn`, which does
  not ask whether the entry is in use. -/
  | heartbeat (domid : BitVec 16)
  | bound (domid : BitVec 16)
  /-- The reaper reads the time, and visits an entry. -/
  | reap
  | visit
deriving DecidableEq, Repr

namespace InsTable

def setEntry (s : InsTable) (i : Fin maxInsCount) (f : InsEntry → InsEntry) : InsTable :=
  { s with ins := Function.update s.ins i (f (s.ins i)) }

def goto (s : InsTable) (t : Nat) (pc : Found) : InsTable :=
  { s with found := Function.update s.found t pc }

/-- `mw_xen_ins_alive`. -/
def mwXenInsAlive (s : InsTable) (i : Fin maxInsCount) : InsTable :=
  s.setEntry i fun e => { e with lastSeenTime := s.jiffies, missedHeartbeats := 0 }

/-- The entry that a XenStore path names: the first with its id. -/
def mwXenGetInsFromXsPath (s : InsTable) (domid : BitVec 16) : Option (Fin maxInsCount) :=
  (List.finRange maxInsCount).find? fun i => (s.ins i).domid == domid

/-- `mw_xen_get_ins_from_domid`. -/
def mwXenGetInsFromDomid (s : InsTable) (domid : BitVec 16) : Option (Fin maxInsCount) :=
  (s.mwXenGetInsFromXsPath domid).filter fun i => (s.ins i).inUse

/-- Does the step fail? `mw_xen_init_ring` never does, and the event channel of
domain 0 is refused with a message, but without an error. -/
def setupFails (e : InsEntry) : Setup → Bool → Bool
  | .ring, _ => false
  | .evtChn, ok => !ok && e.domid != 0
  | _, ok => !ok

/-- A step of `mw_xen_ins_found`. A step that fails returns at once. -/
def insFound (s : InsTable) (t : Nat) (ok : Bool) : Found → Option InsTable
  | .idle => none
  | .probing id i =>
      if h : i < maxInsCount then
        if (s.ins ⟨i, h⟩).inUse then some (s.goto t (.probing id (i + 1)))
        else some ((s.setEntry ⟨i, h⟩ fun e => { e with inUse := true }).goto t (.naming id ⟨i, h⟩))
      else some (s.goto t .idle)
  | .naming id i =>
      let n := simpleStrtol id
      some
        { (s.setEntry i fun e => { e with domid := BitVec.ofInt 16 n }).goto t
            (.setup i [.ringBlock, .evtChn, .grant, .ring, .grantRefs]) with
          discovered := Function.update s.discovered i n }
  | .setup i (stage :: todo) =>
      some (s.goto t (if setupFails (s.ins i) stage ok then .idle else .setup i todo))
  | .setup i [] => some ((s.mwXenInsAlive i).goto t (.ready i))
  | .ready i =>
      some
        { (s.setEntry i fun e => { e with isRingReady := true }).goto t .idle with
          insCount := s.insCount + 1 }

/-- `mw_xen_release_ins`, for an entry in use. -/
def mwXenReleaseIns (s : InsTable) (i : Fin maxInsCount) : InsTable :=
  s.setEntry i fun e => { e with inUse := false, isRingReady := false, domid := domidInvalid }

/-- Has the entry been silent for longer than it may? `hz` is the number of
jiffies in a second. -/
def overdue (hz : Nat) (now : BitVec 64) (e : InsEntry) : Bool :=
  decide (heartbeatIntervalSec * (e.missedHeartbeats + 1) < (now - e.lastSeenTime).toNat / hz)

/-- Is this the miss that ends the INS? -/
def dies (hz : Nat) (now : BitVec 64) (e : InsEntry) : Bool :=
  e.inUse && overdue hz now e && decide (e.missedHeartbeats + 1 = heartbeatMaxMisses)

/-- The body of the loop of `mw_xen_reap_dead_ins`. -/
def visitEntry (s : InsTable) (hz : Nat) (now : BitVec 64) (i : Fin maxInsCount) : InsTable :=
  let e := s.ins i
  if !e.inUse || !overdue hz now e then s
  else
    let s := s.setEntry i fun e => { e with missedHeartbeats := e.missedHeartbeats + 1 }
    if e.missedHeartbeats + 1 = heartbeatMaxMisses then s.mwXenReleaseIns i else s

def step (hz : Nat) (s : InsTable) : InsEvent → Option InsTable
  | .tick n => some { s with jiffies := s.jiffies + n }
  | .found t id =>
      match s.found t, id with
      | .idle, none => some s
      | .idle, some id => if id = ['0'] then some s else some (s.goto t (.probing id 0))
      | _, _ => none
  | .move t ok => s.insFound t ok (s.found t)
  | .heartbeat domid =>
      match s.mwXenGetInsFromXsPath domid with
      | none => some s
      | some i => if (s.ins i).inUse then some (s.mwXenInsAlive i) else some s
  | .bound domid =>
      match s.mwXenGetInsFromXsPath domid with
      | none => some s
      | some i => some (s.mwXenInsAlive i)
  | .reap =>
      match s.reaper with
      | none => some { s with reaper := some (0, s.jiffies) }
      | some _ => none
  | .visit =>
      match s.reaper with
      | none => none
      | some (i, now) =>
          if h : i < maxInsCount then
            some { s.visitEntry hz now ⟨i, h⟩ with reaper := some (i + 1, now) }
          else some { s with reaper := none }

end InsTable

/-- The table from the start of the driver, at some time. -/
def insTable (hz : Nat) (jiffies : BitVec 64) : System InsTable InsEvent where
  init := { jiffies := jiffies }
  step := InsTable.step hz

namespace InsTable

/-! ## Consistency -/

def readyCount (s : InsTable) : Nat := ∑ i, (s.ins i).isRingReady.toNat

/-- The entry has the id that was read for it, and that is one of a domain. -/
def Named (s : InsTable) (i : Fin maxInsCount) : Prop :=
  validDomid (s.ins i).domid.toNat = true ∧ ((s.ins i).domid.toNat : Int) = s.discovered i

/-- What the rest of the driver relies on. -/
structure Consistent (s : InsTable) : Prop where
  ready : ∀ i, (s.ins i).isRingReady = true → (s.ins i).inUse = true ∧ s.Named i
  distinct : ∀ i j, (s.ins i).inUse = true → (s.ins j).inUse = true →
    (s.ins i).domid = (s.ins j).domid → i = j
  lookup : ∀ i, (s.ins i).isRingReady = true → s.mwXenGetInsFromDomid (s.ins i).domid = some i
  failed : ∀ i, (s.ins i).inUse = true →
    (s.ins i).isRingReady = true ∨ ∃ t named, (s.found t).hold = some (i, named)
  counted : s.insCount = s.readyCount

/-- A step that keeps the table consistent:

* an entry is not claimed while an entry in use has the id that it still shows;
* the id that is stored is that of a domain, and of no entry in use;
* no step after the claim fails;
* the reaper finds no entry dead. -/
def orderly (hz : Nat) (s : InsTable) : InsEvent → Prop
  | .move t ok =>
      match s.found t with
      | .probing _ i => ∀ h : i < maxInsCount, (s.ins ⟨i, h⟩).inUse = false →
          ∀ j, (s.ins j).inUse = true → (s.ins j).domid ≠ (s.ins ⟨i, h⟩).domid
      | .naming id i => validDomid (simpleStrtol id) = true ∧
          ∀ j, j ≠ i → (s.ins j).inUse = true → (s.ins j).domid ≠ BitVec.ofInt 16 (simpleStrtol id)
      | .setup i (stage :: _) => setupFails (s.ins i) stage ok = false
      | _ => True
  | .visit =>
      match s.reaper with
      | some (i, now) => ∀ h : i < maxInsCount, dies hz now (s.ins ⟨i, h⟩) = false
      | none => True
  | _ => True

instance (hz : Nat) (s : InsTable) (e : InsEvent) : Decidable (orderly hz s e) := by
  unfold orderly
  split
  · split <;> infer_instance
  · split <;> infer_instance
  · infer_instance

/-! ## The invariant -/

/-- An entry is free, has been claimed by a call that has not stored the id yet,
is being set up by a call, or is that of a live INS. -/
inductive EntryOk (s : InsTable) (i : Fin maxInsCount) : Prop where
  | free (huse : (s.ins i).inUse = false) (hready : (s.ins i).isRingReady = false)
      (hstale : validDomid (s.ins i).domid.toNat = false)
      (hnone : ∀ t b, (s.found t).hold ≠ some (i, b))
  | naming {t : Nat} (huse : (s.ins i).inUse = true) (hready : (s.ins i).isRingReady = false)
      (hstale : validDomid (s.ins i).domid.toNat = false)
      (hhold : (s.found t).hold = some (i, false))
      (hsole : ∀ t' b, (s.found t').hold = some (i, b) → t' = t)
  | setup {t : Nat} (huse : (s.ins i).inUse = true) (hready : (s.ins i).isRingReady = false)
      (hnamed : s.Named i) (hhold : (s.found t).hold = some (i, true))
      (hsole : ∀ t' b, (s.found t').hold = some (i, b) → t' = t)
  | live (huse : (s.ins i).inUse = true) (hready : (s.ins i).isRingReady = true)
      (hnamed : s.Named i) (hnone : ∀ t b, (s.found t).hold ≠ some (i, b))

structure Sound (s : InsTable) : Prop where
  entries : ∀ i, s.EntryOk i
  distinct : ∀ i j, (s.ins i).inUse = true → (s.ins j).inUse = true →
    (s.ins i).domid = (s.ins j).domid → i = j
  counted : s.insCount = s.readyCount

variable {s s' : InsTable} {i : Fin maxInsCount}

/-- An entry in use has an id that no other entry shows, unless the id is still to
be stored. -/
theorem Sound.lookup (h : Sound s) (hready : (s.ins i).isRingReady = true) :
    s.mwXenGetInsFromDomid (s.ins i).domid = some i := by
  have hlive : (s.ins i).inUse = true ∧ s.Named i := by
    cases h.entries i with
    | free _ hnot => exact absurd (hnot.symm.trans hready) (by decide)
    | naming _ hnot => exact absurd (hnot.symm.trans hready) (by decide)
    | setup huse _ hnamed => exact ⟨huse, hnamed⟩
    | live huse _ hnamed => exact ⟨huse, hnamed⟩
  obtain ⟨j, hj⟩ : ∃ j, s.mwXenGetInsFromXsPath (s.ins i).domid = some j := by
    rw [← Option.isSome_iff_exists, mwXenGetInsFromXsPath, List.find?_isSome]
    exact ⟨i, List.mem_finRange i, beq_self_eq_true _⟩
  have hsame : (s.ins j).domid = (s.ins i).domid :=
    eq_of_beq (List.find?_some (p := fun j => (s.ins j).domid == (s.ins i).domid) hj)
  have hvalid : validDomid (s.ins j).domid.toNat = true := by
    rw [hsame]
    exact hlive.2.1
  have huse : (s.ins j).inUse = true := by
    cases h.entries j with
    | free _ _ hstale => exact absurd (hstale.symm.trans hvalid) (by decide)
    | naming huse => exact huse
    | setup huse => exact huse
    | live huse => exact huse
  obtain rfl : j = i := h.distinct j i huse hlive.1 hsame
  rw [mwXenGetInsFromDomid, hj]
  exact Option.filter_eq_some_iff.mpr ⟨rfl, huse⟩

theorem Sound.consistent (h : Sound s) : Consistent s where
  ready i hready := by
    cases h.entries i with
    | free _ hnot => exact absurd (hnot.symm.trans hready) (by decide)
    | naming _ hnot => exact absurd (hnot.symm.trans hready) (by decide)
    | setup _ hnot => exact absurd (hnot.symm.trans hready) (by decide)
    | live huse _ hnamed => exact ⟨huse, hnamed⟩
  distinct := h.distinct
  lookup _ := h.lookup
  failed i huse := by
    cases h.entries i with
    | free hnot => exact absurd (hnot.symm.trans huse) (by decide)
    | naming _ _ _ hhold => exact .inr ⟨_, _, hhold⟩
    | setup _ _ _ hhold => exact .inr ⟨_, _, hhold⟩
    | live _ hready => exact .inl hready
  counted := h.counted

/-! ## Steps -/

/-- The claim on entry `i` is as before. -/
structure SameEntry (s s' : InsTable) (i : Fin maxInsCount) : Prop where
  domid : (s'.ins i).domid = (s.ins i).domid
  inUse : (s'.ins i).inUse = (s.ins i).inUse
  isRingReady : (s'.ins i).isRingReady = (s.ins i).isRingReady
  discovered : s'.discovered i = s.discovered i
  hold : ∀ t b, (s'.found t).hold = some (i, b) ↔ (s.found t).hold = some (i, b)

theorem SameEntry.named (h : SameEntry s s' i) (hn : s.Named i) : s'.Named i := by
  rw [Named, h.domid, h.discovered]
  exact hn

theorem EntryOk.same (hi : s.EntryOk i) (h : SameEntry s s' i) : s'.EntryOk i := by
  have hnone : (∀ t b, (s.found t).hold ≠ some (i, b)) → ∀ t b, (s'.found t).hold ≠ some (i, b) :=
    fun hnone t b hhold => hnone t b ((h.hold t b).mp hhold)
  cases hi with
  | free huse hready hstale hn =>
      exact .free (h.inUse.trans huse) (h.isRingReady.trans hready) (h.domid ▸ hstale) (hnone hn)
  | naming huse hready hstale hhold hsole =>
      exact .naming (h.inUse.trans huse) (h.isRingReady.trans hready) (h.domid ▸ hstale)
        ((h.hold _ _).mpr hhold) fun t' b ht' => hsole t' b ((h.hold t' b).mp ht')
  | setup huse hready hnamed hhold hsole =>
      exact .setup (h.inUse.trans huse) (h.isRingReady.trans hready) (h.named hnamed)
        ((h.hold _ _).mpr hhold) fun t' b ht' => hsole t' b ((h.hold t' b).mp ht')
  | live huse hready hnamed hn =>
      exact .live (h.inUse.trans huse) (h.isRingReady.trans hready) (h.named hnamed) (hnone hn)

/-- A step that touches the claim on one entry only. -/
theorem Sound.change (h : Sound s) (i : Fin maxInsCount) (hothers : ∀ j, j ≠ i → SameEntry s s' j)
    (hi : s'.EntryOk i)
    (hdistinct : (s'.ins i).inUse = true → ∀ j, j ≠ i → (s.ins j).inUse = true →
      (s.ins j).domid ≠ (s'.ins i).domid)
    (hcount : s'.insCount + (s.ins i).isRingReady.toNat =
      s.insCount + (s'.ins i).isRingReady.toNat) : Sound s' where
  entries j := by
    by_cases hj : j = i
    · rw [hj]
      exact hi
    · exact (h.entries j).same (hothers j hj)
  distinct j k hj hk heq := by
    by_cases hji : j = i <;> by_cases hki : k = i
    · rw [hji, hki]
    · subst hji
      exact absurd ((hothers k hki).domid.symm.trans heq.symm)
        (hdistinct hj k hki ((hothers k hki).inUse.symm.trans hk))
    · subst hki
      exact absurd ((hothers j hji).domid.symm.trans heq)
        (hdistinct hk j hji ((hothers j hji).inUse.symm.trans hj))
    · refine h.distinct j k ?_ ?_ ?_
      · exact (hothers j hji).inUse.symm.trans hj
      · exact (hothers k hki).inUse.symm.trans hk
      · exact (hothers j hji).domid.symm.trans (heq.trans (hothers k hki).domid)
  counted := by
    have hrest : ∑ j ∈ Finset.univ.erase i, (s'.ins j).isRingReady.toNat =
        ∑ j ∈ Finset.univ.erase i, (s.ins j).isRingReady.toNat :=
      Finset.sum_congr rfl fun j hj => by rw [(hothers j (Finset.ne_of_mem_erase hj)).isRingReady]
    have hnew := Finset.add_sum_erase Finset.univ (fun j => (s'.ins j).isRingReady.toNat)
      (Finset.mem_univ i)
    have hold := Finset.add_sum_erase Finset.univ (fun j => (s.ins j).isRingReady.toNat)
      (Finset.mem_univ i)
    have hcounted := h.counted
    rw [readyCount] at hcounted ⊢
    omega

/-- A step that touches no claim. -/
theorem Sound.same (h : Sound s) (hsame : ∀ i, SameEntry s s' i)
    (hcount : s'.insCount = s.insCount) : Sound s' where
  entries i := (h.entries i).same (hsame i)
  distinct i j hi hj heq := by
    refine h.distinct i j ((hsame i).inUse.symm.trans hi) ((hsame j).inUse.symm.trans hj) ?_
    exact (hsame i).domid.symm.trans (heq.trans (hsame j).domid)
  counted := by
    rw [hcount, h.counted, readyCount, readyCount]
    exact Finset.sum_congr rfl fun j _ => by rw [(hsame j).isRingReady]

/-- A call that moves on without claiming or letting go of an entry. -/
theorem Sound.goto (h : Sound s) {t : Nat} {pc : Found} (hpc : pc.hold = (s.found t).hold) :
    Sound (s.goto t pc) := by
  refine h.same (fun i => ⟨rfl, rfl, rfl, rfl, fun t' b => ?_⟩) rfl
  show (Function.update s.found t pc t').hold = _ ↔ _
  rw [Function.update_apply]
  split
  · rename_i ht
    rw [ht, hpc]
  · exact Iff.rfl

/-- The times of an entry are no claim. -/
theorem Sound.touch (h : Sound s) (i : Fin maxInsCount) {f : InsEntry → InsEntry}
    (hdomid : ∀ e, (f e).domid = e.domid) (huse : ∀ e, (f e).inUse = e.inUse)
    (hready : ∀ e, (f e).isRingReady = e.isRingReady) : Sound (s.setEntry i f) := by
  refine h.same (fun j => ?_) rfl
  have hins : (s.setEntry i f).ins j = if j = i then f (s.ins i) else s.ins j :=
    Function.update_apply ..
  refine ⟨?_, ?_, ?_, rfl, fun _ _ => Iff.rfl⟩
  all_goals
    rw [hins]
    split
    · rename_i hj
      simp only [hj, hdomid, huse, hready]
    · rfl

/-- Call `t` has moved to `pc` and has written entry `i`. -/
structure Wrote (s s' : InsTable) (i : Fin maxInsCount) (t : Nat) (e : InsEntry) (pc : Found) :
    Prop where
  ins : s'.ins = Function.update s.ins i e
  found : s'.found = Function.update s.found t pc
  discovered : ∀ j, j ≠ i → s'.discovered j = s.discovered j

namespace Wrote

variable {t : Nat} {e : InsEntry} {pc : Found}

theorem entry (h : Wrote s s' i t e pc) : s'.ins i = e := by
  rw [h.ins, Function.update_self]

theorem caller (h : Wrote s s' i t e pc) : s'.found t = pc := by
  rw [h.found, Function.update_self]

theorem others (h : Wrote s s' i t e pc) {t' : Nat} (ht : t' ≠ t) : s'.found t' = s.found t' := by
  rw [h.found, Function.update_of_ne ht]

/-- The other entries are as before, if the call has no claim on them. -/
theorem same (h : Wrote s s' i t e pc) (hold : ∀ j b, (s.found t).hold = some (j, b) → j = i)
    (hnew : ∀ j b, pc.hold = some (j, b) → j = i) {j : Fin maxInsCount} (hj : j ≠ i) :
    SameEntry s s' j := by
  have hins : s'.ins j = s.ins j := by rw [h.ins, Function.update_of_ne hj]
  refine ⟨by rw [hins], by rw [hins], by rw [hins], h.discovered j hj, fun t' b => ?_⟩
  by_cases ht : t' = t
  · rw [ht, h.caller]
    exact iff_of_false (fun heq => hj (hnew j b heq)) (fun heq => hj (hold j b heq))
  · rw [h.others ht]

/-- The call stays the only one with a claim on the entry. -/
theorem sole (h : Wrote s s' i t e pc)
    (hsole : ∀ t' b, (s.found t').hold = some (i, b) → t' = t) :
    ∀ t' b, (s'.found t').hold = some (i, b) → t' = t := by
  intro t' b ht'
  by_contra hne
  rw [h.others hne] at ht'
  exact hne (hsole t' b ht')

end Wrote

/-- `atomic64_cmpxchg( &ins[i].in_use, 0, 1 )`. -/
theorem Sound.claim (h : Sound s) {t : Nat} {id : List Char}
    (hw : Wrote s s' i t { s.ins i with inUse := true } (.naming id i))
    (hpc : (s.found t).hold = none) (hfree : (s.ins i).inUse = false)
    (hfresh : ∀ j, (s.ins j).inUse = true → (s.ins j).domid ≠ (s.ins i).domid)
    (hcount : s'.insCount = s.insCount) : Sound s' := by
  obtain ⟨hready, hstale, hnone⟩ : (s.ins i).isRingReady = false ∧
      validDomid (s.ins i).domid.toNat = false ∧ ∀ t b, (s.found t).hold ≠ some (i, b) := by
    cases h.entries i with
    | free _ hready hstale hnone => exact ⟨hready, hstale, hnone⟩
    | naming huse => exact absurd (hfree.symm.trans huse) (by decide)
    | setup huse => exact absurd (hfree.symm.trans huse) (by decide)
    | live huse => exact absurd (hfree.symm.trans huse) (by decide)
  have hothers : ∀ j, j ≠ i → SameEntry s s' j := by
    refine fun j => hw.same (fun k b heq => ?_) (fun k b heq => ?_)
    · rw [hpc] at heq
      cases heq
    · cases heq
      rfl
  refine h.change i hothers ?_ (fun _ j _ hj => ?_) ?_
  · refine .naming (t := t) ?_ ?_ ?_ ?_ (hw.sole fun t' b ht' => absurd ht' (hnone t' b))
    · rw [hw.entry]
    · rw [hw.entry]
      exact hready
    · rw [hw.entry]
      exact hstale
    · rw [hw.caller]
      rfl
  · rw [hw.entry]
    exact hfresh j hj
  · rw [hw.entry, hcount]

theorem toNat_ofInt_valid {n : Int} (h : validDomid n = true) :
    ((BitVec.ofInt 16 n).toNat : Int) = n := by
  rw [validDomid, decide_eq_true_eq] at h
  rw [BitVec.toNat_ofInt]
  omega

/-- The entry that a call holds. -/
theorem Sound.holder (h : Sound s) {t : Nat} {b : Bool} (hhold : (s.found t).hold = some (i, b)) :
    (s.ins i).inUse = true ∧ (s.ins i).isRingReady = false ∧ (b = true → s.Named i) ∧
      ∀ t' b', (s.found t').hold = some (i, b') → t' = t := by
  cases h.entries i with
  | free _ _ _ hnone => exact absurd hhold (hnone t b)
  | naming huse hready hstale hhold' hsole =>
      obtain rfl := hsole t b hhold
      refine ⟨huse, hready, fun hb => ?_, hsole⟩
      rw [hhold', hb] at hhold
      cases hhold
  | setup huse hready hnamed hhold' hsole =>
      obtain rfl := hsole t b hhold
      exact ⟨huse, hready, fun _ => hnamed, hsole⟩
  | live _ _ _ hnone => exact absurd hhold (hnone t b)

/-- The id is stored in the entry that has been claimed. -/
theorem Sound.name (h : Sound s) {t : Nat} {n : Int} {todo : List Setup}
    (hw : Wrote s s' i t { s.ins i with domid := BitVec.ofInt 16 n } (.setup i todo))
    (hdisc : s'.discovered i = n) (hhold : (s.found t).hold = some (i, false))
    (hvalid : validDomid n = true)
    (hfresh : ∀ j, j ≠ i → (s.ins j).inUse = true → (s.ins j).domid ≠ BitVec.ofInt 16 n)
    (hcount : s'.insCount = s.insCount) : Sound s' := by
  obtain ⟨huse, hready, -, hsole⟩ := h.holder hhold
  have hothers : ∀ j, j ≠ i → SameEntry s s' j := by
    refine fun j => hw.same (fun k b heq => ?_) (fun k b heq => ?_)
    · rw [hhold] at heq
      cases heq
      rfl
    · cases heq
      rfl
  refine h.change i hothers ?_ (fun _ j hj hj' => ?_) ?_
  · refine .setup (t := t) ?_ ?_ ?_ ?_ (hw.sole hsole)
    · rw [hw.entry]
      exact huse
    · rw [hw.entry]
      exact hready
    · rw [Named, hw.entry, hdisc]
      simp only [toNat_ofInt_valid hvalid]
      exact ⟨hvalid, trivial⟩
    · rw [hw.caller]
      rfl
  · rw [hw.entry]
    exact hfresh j hj hj'
  · rw [hw.entry, hcount]

/-- The INS is announced. -/
theorem Sound.announce (h : Sound s) {t : Nat}
    (hw : Wrote s s' i t { s.ins i with isRingReady := true } .idle)
    (hdisc : s'.discovered i = s.discovered i) (hhold : (s.found t).hold = some (i, true))
    (hcount : s'.insCount = s.insCount + 1) : Sound s' := by
  obtain ⟨huse, hready, hnamed, hsole⟩ := h.holder hhold
  have hothers : ∀ j, j ≠ i → SameEntry s s' j := by
    refine fun j => hw.same (fun k b heq => ?_) (fun k b heq => ?_)
    · rw [hhold] at heq
      cases heq
      rfl
    · cases heq
  refine h.change i hothers ?_ (fun _ j hj hj' heq => ?_) ?_
  · refine .live ?_ ?_ ?_ fun t' b ht' => ?_
    · rw [hw.entry]
      exact huse
    · rw [hw.entry]
    · rw [Named, hw.entry, hdisc]
      exact hnamed rfl
    · obtain rfl := hw.sole hsole t' b ht'
      rw [hw.caller] at ht'
      cases ht'
  · rw [hw.entry] at heq
    exact hj (h.distinct j i hj' huse heq)
  · rw [hw.entry, hcount, hready]
    rfl

/-- One step of a call of `mw_xen_ins_found`. -/
theorem Sound.insFound {hz : Nat} (h : Sound s) {t : Nat} {ok : Bool}
    (hG : orderly hz s (.move t ok)) (hs : s.insFound t ok (s.found t) = some s') : Sound s' := by
  rw [orderly] at hG
  cases hpc : s.found t with
  | idle =>
      rw [hpc] at hs
      cases hs
  | probing id k =>
      rw [hpc] at hs hG
      simp only [InsTable.insFound] at hs
      split at hs
      · rename_i hk
        split at hs
        · cases hs
          exact h.goto (by rw [hpc]; rfl)
        · rename_i hfree
          cases hs
          have hfree' : (s.ins ⟨k, hk⟩).inUse = false := by simpa using hfree
          exact h.claim ⟨rfl, rfl, fun _ _ => rfl⟩ (by rw [hpc]; rfl) hfree' (hG hk hfree') rfl
      · cases hs
        exact h.goto (by rw [hpc]; rfl)
  | naming id i =>
      rw [hpc] at hs hG
      cases hs
      exact h.name ⟨rfl, rfl, fun j hj => Function.update_of_ne hj ..⟩ (Function.update_self ..)
        (by rw [hpc]; rfl) hG.1 hG.2 rfl
  | setup i todo =>
      rw [hpc] at hs hG
      cases todo with
      | nil =>
          cases hs
          have htouched : Sound (s.mwXenInsAlive i) :=
            h.touch i (fun _ => rfl) (fun _ => rfl) (fun _ => rfl)
          exact htouched.goto (by rw [show (s.mwXenInsAlive i).found t = _ from hpc]; rfl)
      | cons stage todo =>
          simp only [InsTable.insFound, show setupFails (s.ins i) stage ok = false from hG] at hs
          cases hs
          exact h.goto (by rw [hpc]; rfl)
  | ready i =>
      rw [hpc] at hs
      cases hs
      exact h.announce ⟨rfl, rfl, fun _ _ => rfl⟩ rfl (by rw [hpc]; rfl) rfl

/-- The reaper passes an entry that is not dead. -/
theorem Sound.visitEntry (h : Sound s) {hz : Nat} {now : BitVec 64}
    (hG : dies hz now (s.ins i) = false) : Sound (s.visitEntry hz now i) := by
  rw [InsTable.visitEntry]
  simp only
  split
  · exact h
  · rename_i hdue
    simp only [Bool.or_eq_true, Bool.not_eq_true', not_or, Bool.not_eq_false] at hdue
    have hmiss : ¬ (s.ins i).missedHeartbeats + 1 = heartbeatMaxMisses := by
      rw [dies, hdue.1, hdue.2] at hG
      simpa using hG
    rw [if_neg hmiss]
    exact h.touch i (fun _ => rfl) (fun _ => rfl) (fun _ => rfl)

theorem Sound.step {hz : Nat} {e : InsEvent} (h : Sound s) (hG : orderly hz s e)
    (hs : InsTable.step hz s e = some s') : Sound s' := by
  have hunmoved {s' : InsTable} (hins : s'.ins = s.ins) (hfound : s'.found = s.found)
      (hdisc : s'.discovered = s.discovered) (hcount : s'.insCount = s.insCount) : Sound s' :=
    h.same (fun i => ⟨by rw [hins], by rw [hins], by rw [hins], by rw [hdisc],
      fun t b => by rw [hfound]⟩) hcount
  have halive (i : Fin maxInsCount) : Sound (s.mwXenInsAlive i) :=
    h.touch i (fun _ => rfl) (fun _ => rfl) (fun _ => rfl)
  cases e with
  | tick n =>
      cases hs
      exact hunmoved rfl rfl rfl rfl
  | found t id =>
      simp only [InsTable.step] at hs
      split at hs
      · cases hs
        exact h
      · rename_i id hpc
        split at hs
        · cases hs
          exact h
        · cases hs
          exact h.goto (by rw [hpc]; rfl)
      · cases hs
  | move t ok => exact h.insFound hG hs
  | heartbeat domid =>
      simp only [InsTable.step] at hs
      split at hs
      · cases hs
        exact h
      · split at hs
        · cases hs
          exact halive _
        · cases hs
          exact h
  | bound domid =>
      simp only [InsTable.step] at hs
      split at hs
      · cases hs
        exact h
      · cases hs
        exact halive _
  | reap =>
      simp only [InsTable.step] at hs
      split at hs
      · cases hs
        exact hunmoved rfl rfl rfl rfl
      · cases hs
  | visit =>
      simp only [InsTable.step] at hs
      split at hs
      · cases hs
      · rename_i k now hreaper
        rw [orderly, hreaper] at hG
        split at hs
        · rename_i hk
          cases hs
          have hvisited := h.visitEntry (hG hk)
          exact hvisited.same (fun i => ⟨rfl, rfl, rfl, rfl, fun _ _ => Iff.rfl⟩) rfl
        · cases hs
          exact hunmoved rfl rfl rfl rfl

theorem sound_init (hz : Nat) (jiffies : BitVec 64) : Sound (insTable hz jiffies).init where
  entries _ := .free rfl rfl rfl fun _ _ h => by cases h
  distinct _ _ h := absurd h Bool.false_ne_true
  counted := rfl

end InsTable

/-- In every state of a run in which ids are those of domains and in no other use,
every discovery that claims an entry succeeds and no INS dies, the table is
consistent. -/
theorem ins_table_consistent (hz : Nat) (jiffies : BitVec 64) (es : List InsEvent)
    (hG : (insTable hz jiffies).Guarded (InsTable.orderly hz) es) (s : InsTable)
    (hrun : (insTable hz jiffies).run es = some s) : s.Consistent :=
  ((insTable hz jiffies).guarded_invariant (InsTable.sound_init hz jiffies)
    (fun _ _ _ hG hs h => InsTable.Sound.step h hG hs) hG hrun).consistent

/-- Call 0 of `mw_xen_ins_found` claims an entry for domain 5 and stores the id. -/
def claimFive : List InsEvent := [.found 0 (some ['5']), .move 0 true, .move 0 true]

/-- The rest of a discovery that succeeds. -/
def finishFive : List InsEvent := List.replicate 7 (.move 0 true)

theorem ins_table_consistent_found :
    ∃ s, (insTable 250 0).run (claimFive ++ finishFive) = some s ∧ s.insCount = 1 ∧ s.Consistent := by
  have hG : (insTable 250 0).Guarded (InsTable.orderly 250) (claimFive ++ finishFive) := by
    decide +kernel
  have hview : ((insTable 250 0).run (claimFive ++ finishFive)).map (fun s => s.insCount) = some 1 := by
    decide +kernel
  obtain ⟨s, hs, hcount⟩ := Option.map_eq_some_iff.mp hview
  exact ⟨s, hs, hcount, ins_table_consistent 250 0 _ hG s hs⟩

/-- A full pass of the reaper. -/
def reaperPass : List InsEvent := [.reap, .visit, .visit, .visit, .visit]

/-- A discovery that finds no memory for its ring leaves its entry claimed; and an
INS that is silent for four seconds is released by the second pass of the reaper,
but counted on. -/
theorem ins_table_inconsistent :
    (∃ s, (insTable 250 0).run (claimFive ++ [.move 0 false]) = some s ∧ ¬ s.Consistent) ∧
      ∃ s, (insTable 250 0).run (claimFive ++ finishFive ++ [.tick 1000] ++ reaperPass ++
        reaperPass) = some s ∧ ¬ s.Consistent := by
  constructor
  · have hview : ((insTable 250 0).run (claimFive ++ [.move 0 false])).map (fun s =>
        ((s.ins insZero).inUse, (s.ins insZero).isRingReady, (s.found 0).hold)) =
          some (true, false, none) := by decide +kernel
    have hothers : ∀ n, ((insTable 250 0).run (claimFive ++ [.move 0 false])).map (fun s =>
        (s.found (n + 1)).hold) = some none := fun _ => rfl
    obtain ⟨s, hs, hleft⟩ := Option.map_eq_some_iff.mp hview
    simp only [Prod.mk.injEq] at hleft
    obtain ⟨huse, hready, hzero⟩ := hleft
    refine ⟨s, hs, fun h => ?_⟩
    rcases h.failed insZero huse with hlive | ⟨t, b, hhold⟩
    · rw [hready] at hlive
      cases hlive
    · cases t with
      | zero =>
          rw [hzero] at hhold
          cases hhold
      | succ n =>
          have hnone : some (s.found (n + 1)).hold = some none := by
            rw [← hothers n, hs]
            rfl
          rw [Option.some.inj hnone] at hhold
          cases hhold
  · have hview : ((insTable 250 0).run (claimFive ++ finishFive ++ [.tick 1000] ++ reaperPass ++
        reaperPass)).map (fun s => (s.insCount, s.readyCount)) = some (1, 0) := by decide +kernel
    obtain ⟨s, hs, hleft⟩ := Option.map_eq_some_iff.mp hview
    refine ⟨s, hs, fun h => ?_⟩
    have hcount := h.counted
    rw [(Prod.mk.inj hleft).1, (Prod.mk.inj hleft).2] at hcount
    cases hcount

end MagicWand.Kernel
