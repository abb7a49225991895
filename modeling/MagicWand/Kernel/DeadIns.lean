import MagicWand.Kernel.Heartbeat
import MagicWand.Kernel.Instances

/-!
# Finding the sockets of dead INSs

How `mwsocket_reap_dead_sock_instances` reads `Dead_INS_Array`. For an active
request or a socket instance it looks in the array for the client id of the
remote descriptor, up to the first zero or the end of the array, and then
compares the id with the element at which it has stopped. It does not ask
whether the descriptor is a public one, an id of zero is found in an array that
is not full, and in a full array a search that fails ends behind the array.

`reapByArray` is the function over the array. Where it stays inside the array it
does what `mwsocketReapDeadSockInstances` does with the list of the dead INSs.
-/

namespace MagicWand.Kernel

open Foundation InsTable

/-- `MW_SOCKET_CLIENT_ID`, as the `int` that it is compared as. -/
def clientInt (fd : MwSocketFd) : Int := (mwSocketClientId fd).toNat

/-- The search of the first two loops, and the test at the index where it stops. -/
def searchStops (deadIns : List Int) (fd : MwSocketFd) : Option Bool :=
  probe 0 (clientInt fd) deadIns

/-- Are the loops for a descriptor run through at all, and do they select it? -/
def selects (deadIns : List Int) (fd : MwSocketFd) : Option Bool :=
  if deadIns.headD 0 = 0 then some false else searchStops deadIns fd

/-- The search for the INS of a sibling, which does not stop at a zero. -/
def siblingDead (deadIns : List Int) (fd : MwSocketFd) : Bool :=
  decide (deadIns.findIdx (fun d => decide (d = clientInt fd)) < maxInsCount)

/-- The descriptor is a public one, of an INS that is dead. -/
def OfDead (dead : List Int) (fd : MwSocketFd) : Prop :=
  mwSocketIsFd fd = true ∧ clientInt fd ∈ dead

instance (dead : List Int) (fd : MwSocketFd) : Decidable (OfDead dead fd) :=
  inferInstanceAs (Decidable (_ ∧ _))

variable {dead : List Int} {fd : MwSocketFd}

/-! ## The search -/

theorem headD_pad (h : dead.length ≤ maxInsCount) :
    (pad 0 maxInsCount dead).headD 0 = 0 ↔ front 0 dead = [] := by
  cases dead with
  | nil => exact iff_of_true rfl rfl
  | cons d dead =>
      by_cases hd : d = 0
      · subst hd
        exact iff_of_true rfl front_cons_self
      · refine iff_of_false hd ?_
        rw [front_cons_of_ne hd]
        exact List.cons_ne_nil _ _

/-- What is selected: nothing if no dead INS can be seen, else who is named before the
first zero and who has id zero, unless the search leaves the array. -/
theorem selects_pad (h : dead.length ≤ maxInsCount) :
    selects (pad 0 maxInsCount dead) fd =
      if front 0 dead = [] then some false
      else if clientInt fd ∈ front 0 dead then some true
      else if (front 0 dead).length < maxInsCount then some (decide (clientInt fd = 0)) else none := by
  rw [selects]
  by_cases hnone : front 0 dead = []
  · rw [if_pos ((headD_pad h).mpr hnone), if_pos hnone]
  · rw [if_neg (mt (headD_pad h).mp hnone), if_neg hnone, searchStops, probe_pad h]

/-- When the selection is right: the id is named before the first zero and the
descriptor is a public one; or the id is not that of a dead INS, and no dead INS
can be seen or the id is not zero and the search ends at a zero; or the id is
only named behind a zero. -/
def searchable (dead : List Int) (fd : MwSocketFd) : Prop :=
  (clientInt fd ∈ front 0 dead ∧ mwSocketIsFd fd = true) ∨
    (clientInt fd ∉ dead ∧
      (front 0 dead = [] ∨ clientInt fd ≠ 0 ∧ (front 0 dead).length < maxInsCount)) ∨
    (clientInt fd ∈ dead ∧ clientInt fd ∉ front 0 dead ∧
      (mwSocketIsFd fd = true ↔ front 0 dead ≠ [] ∧ clientInt fd = 0))

instance (dead : List Int) (fd : MwSocketFd) : Decidable (searchable dead fd) :=
  inferInstanceAs (Decidable (_ ∨ _ ∨ _))

/-- A list with a member that stands behind a zero has a zero. -/
theorem length_front_lt {n : Nat} (h : dead.length ≤ n) {d : Int} (hmem : d ∈ dead)
    (hhidden : d ∉ front 0 dead) : (front 0 dead).length < n := by
  have hfront : front 0 dead <+: dead := List.takeWhile_prefix _
  refine lt_of_lt_of_le (lt_of_le_of_ne hfront.length_le ?_) h
  intro heq
  rw [hfront.eq_of_length heq] at hhidden
  exact hhidden hmem

theorem selects_pad_iff (h : dead.length ≤ maxInsCount) :
    selects (pad 0 maxInsCount dead) fd = some (decide (OfDead dead fd)) ↔ searchable dead fd := by
  rw [selects_pad h, searchable]
  simp only [OfDead]
  by_cases hseen : clientInt fd ∈ front 0 dead
  · have hmem := (front_subset hseen).1
    simp [hseen, hmem, List.ne_nil_of_mem hseen]
  · by_cases hmem : clientInt fd ∈ dead
    · have hroom := length_front_lt h hmem hseen
      by_cases hnone : front 0 dead = []
      · simp [hmem, hnone]
      · have hsame : decide (clientInt fd = 0) = mwSocketIsFd fd ↔
            (mwSocketIsFd fd = true ↔ clientInt fd = 0) := by
          rw [Bool.eq_iff_iff, decide_eq_true_eq]
          exact iff_comm
        simp [hseen, hmem, hnone, hroom, hsame]
    · by_cases hnone : front 0 dead = []
      · simp [hmem, hnone]
      · by_cases hroom : (front 0 dead).length < maxInsCount
        · simp [hseen, hmem, hnone, hroom]
        · simp [hseen, hmem, hnone, hroom]

/-- Whatever INSs a call of the reaper has found dead, a request or an instance is
selected if and only if its remote descriptor is a public one of a dead INS, and
the array is not left, exactly when the descriptor is searchable. -/
theorem dead_ins_selection (s : InsTable) (hz : Nat) (fd : MwSocketFd) :
    selects (mwXenReapDeadIns s hz).deadIns fd = some (decide (OfDead (s.deadDomids hz) fd)) ↔
      searchable (s.deadDomids hz) fd := by
  rw [(mwXenReapDeadIns_holds s hz).deadIns]
  exact selects_pad_iff (length_deadDomids s hz)

/-- The discovery of the INS of a domain with a one-digit id, when the first `k`
entries are in use. -/
def discover (digit : Char) (k : Nat) : List InsEvent :=
  .found 0 (some [digit]) :: List.replicate (k + 9) (.move 0 true)

/-- Three INSs are found and silent for four seconds, and have missed one heartbeat. -/
def threeSilent : List InsEvent :=
  discover '1' 0 ++ discover '2' 1 ++ discover '3' 2 ++ [.tick 1000, .reap]

/-- All three INSs die. The search for the descriptor of a socket that has not been
created on an INS ends behind the array. -/
theorem dead_ins_selection_full : ∃ w, (watch 250 0).run threeSilent = some w ∧
    w.table.deadDomids 250 = [1, 2, 3] ∧
      selects (mwXenReapDeadIns w.table 250).deadIns mtInvalidSocketFd = none ∧
      selects (mwXenReapDeadIns w.table 250).deadIns mtInvalidSocketFd ≠
        some (decide (OfDead (w.table.deadDomids 250) mtInvalidSocketFd)) := by
  refine ⟨((watch 250 0).run threeSilent).get (by decide +kernel), (Option.some_get _).symm, ?_⟩
  decide +kernel

/-! ## The function over the array -/

namespace Table

def reapRequestsByArray (deadIns : List Int) (t : Table) : List Nat → Option Table
  | [] => some t
  | ref :: rest =>
      match t.g.reqAt ref with
      | none => reapRequestsByArray deadIns t rest
      | some a =>
          (searchStops deadIns (t.sock a.sockinst).remoteFd).bind fun hit =>
            reapRequestsByArray deadIns (if hit then t.reapRequest a else t) rest

def replacementByArray (t : Table) (deadIns : List Int) (r : Nat) : Option Nat :=
  (t.siblings r).find? fun q =>
    (t.sock q).insAlive && !siblingDead deadIns (t.sock q).remoteFd

def reapSocketByArray (t : Table) (deadIns : List Int) (r : Nat) : Option Table :=
  let t := t.markDead r
  if (t.sock r).mwflags.has MwFlags.accept then
    if !(t.sock r).mwflags.has MwFlags.user then some (t.mwsocketPutSockinst r)
    else
      match t.replacementByArray deadIns r with
      | some q => some (t.failover r q)
      | none => (t.g.mwsocketFindActiveRequestById (t.sock r).blockid).map t.failRequest
  else some t

def reapSocketsByArray (deadIns : List Int) (t : Table) : List Nat → Option Table
  | [] => some t
  | r :: rest =>
      if r ∈ t.sockinsts then
        (searchStops deadIns (t.sock r).remoteFd).bind fun hit =>
          (if hit then t.reapSocketByArray deadIns r else some t).bind fun t =>
            reapSocketsByArray deadIns t rest
      else none

/-- `mwsocket_reap_dead_sock_instances`, which reads the array. -/
def reapByArray (t : Table) (deadIns : List Int) : Option Table :=
  if deadIns.headD 0 = 0 then some t
  else
    (reapRequestsByArray deadIns t (t.g.activeRequests.map ActReq.ref)).bind fun t =>
      reapSocketsByArray deadIns t t.sockinsts

/-- The array that the reaper leaves for INSs with these ids. -/
def arrayOf (ids : List (BitVec 16)) : List Int :=
  pad 0 maxInsCount (ids.map fun id => (id.toNat : Int))

variable {ids : List (BitVec 16)} {t t' : Table} {l : List Nat}

theorem named_iff (h : ids.length ≤ maxInsCount) :
    named ids fd = true ↔ clientInt fd ∈ arrayOf ids := by
  have hmem : clientInt fd ∈ ids.map (fun id => (id.toNat : Int)) ↔ mwSocketClientId fd ∈ ids := by
    rw [List.mem_map]
    constructor
    · rintro ⟨id, hid, heq⟩
      rwa [← BitVec.eq_of_toNat_eq (Int.ofNat.inj heq)]
    · exact fun hid => ⟨_, hid, rfl⟩
  have hzero : clientInt fd = 0 ↔ mwSocketClientId fd = 0 := by
    constructor
    · exact fun heq => BitVec.eq_of_toNat_eq (Int.ofNat.inj heq)
    · rintro heq
      rw [clientInt, heq]
      rfl
  rw [arrayOf, mem_pad (by rwa [List.length_map]), hmem, hzero, List.length_map]
  simp [named]

theorem siblingDead_eq (h : ids.length ≤ maxInsCount) :
    siblingDead (arrayOf ids) fd = named ids fd := by
  have hlen : (arrayOf ids).length = maxInsCount := length_pad (by rwa [List.length_map])
  rw [Bool.eq_iff_iff, named_iff h, siblingDead, decide_eq_true_eq, ← hlen,
    List.findIdx_lt_length]
  simp

/-- A search that stays inside the array ends at the id it looks for if and only if the
array has it. -/
theorem searchStops_named (h : ids.length ≤ maxInsCount) (hreal : 0 ∉ ids) {hit : Bool}
    (hstops : searchStops (arrayOf ids) fd = some hit) : hit = named ids fd := by
  have hzero : (0 : Int) ∉ ids.map (fun id => (id.toNat : Int)) := by
    rw [List.mem_map]
    rintro ⟨id, hid, heq⟩
    obtain rfl : id = 0 := BitVec.eq_of_toNat_eq (Int.ofNat.inj heq)
    exact hreal hid
  rw [Bool.eq_iff_iff, named_iff h, arrayOf, mem_pad (by rwa [List.length_map])]
  rw [searchStops, arrayOf, probe_pad (by rwa [List.length_map]), front_eq_self hzero] at hstops
  split at hstops
  · rename_i hmem
    cases hstops
    exact iff_of_true rfl (Or.inl hmem)
  · rename_i hmem
    split at hstops
    · rename_i hroom
      cases hstops
      rw [List.length_map] at hroom
      simp [hmem, hroom]
    · cases hstops

theorem reapRequestsByArray_eq (h : ids.length ≤ maxInsCount) (hreal : 0 ∉ ids)
    (hrun : reapRequestsByArray (arrayOf ids) t l = some t') : reapRequests ids t l = t' := by
  induction l generalizing t with
  | nil => exact Option.some.inj hrun
  | cons ref rest ih =>
      rw [reapRequestsByArray] at hrun
      rw [reapRequests]
      split
      · rename_i hnone
        rw [hnone] at hrun
        exact ih hrun
      · rename_i a ha
        rw [ha] at hrun
        obtain ⟨hit, hstops, hrest⟩ := Option.bind_eq_some_iff.mp hrun
        rw [← searchStops_named h hreal hstops]
        split
        · rename_i hhit
          rw [if_pos hhit] at hrest
          exact ih hrest
        · rename_i hhit
          rw [if_neg hhit] at hrest
          exact ih hrest

theorem replacementByArray_eq (h : ids.length ≤ maxInsCount) (t : Table) (r : Nat) :
    t.replacementByArray (arrayOf ids) r = t.replacement ids r := by
  simp only [replacementByArray, replacement, siblingDead_eq h]

theorem reapSocketByArray_eq (h : ids.length ≤ maxInsCount) (t : Table) (r : Nat) :
    t.reapSocketByArray (arrayOf ids) r = t.reapSocket ids r := by
  simp only [reapSocketByArray, replacementByArray_eq h]
  rfl

theorem reapSocketsByArray_eq (h : ids.length ≤ maxInsCount) (hreal : 0 ∉ ids)
    (hrun : reapSocketsByArray (arrayOf ids) t l = some t') : reapSockets ids t l = some t' := by
  induction l generalizing t with
  | nil => exact hrun
  | cons r rest ih =>
      rw [reapSocketsByArray] at hrun
      rw [reapSockets]
      split at hrun
      · rename_i hin
        rw [if_pos hin]
        obtain ⟨hit, hstops, hrun⟩ := Option.bind_eq_some_iff.mp hrun
        obtain ⟨t₁, hreap, hrest⟩ := Option.bind_eq_some_iff.mp hrun
        rw [← searchStops_named h hreal hstops]
        split at hreap
        · rename_i hhit
          rw [reapSocketByArray_eq h] at hreap
          rw [if_pos hhit, hreap]
          exact ih hrest
        · rename_i hhit
          cases hreap
          rw [if_neg hhit]
          exact ih hrest
      · cases hrun

/-- Where the searches stay inside the array of INSs with ids other than zero, the
function reaps what belongs to these INSs. -/
theorem reapByArray_refines (h : ids.length ≤ maxInsCount) (hreal : 0 ∉ ids)
    (hrun : t.reapByArray (arrayOf ids) = some t') :
    t.mwsocketReapDeadSockInstances ids = some t' := by
  rw [mwsocketReapDeadSockInstances]
  rw [reapByArray] at hrun
  cases ids with
  | nil => exact hrun
  | cons id ids =>
      have hid : ¬ (arrayOf (id :: ids)).headD 0 = 0 := by
        intro heq
        obtain rfl : id = 0 := BitVec.eq_of_toNat_eq (Int.ofNat.inj heq)
        exact hreal List.mem_cons_self
      rw [if_neg hid] at hrun
      rw [if_neg (List.cons_ne_nil _ _)]
      obtain ⟨t₁, hrequests, hsockets⟩ := Option.bind_eq_some_iff.mp hrun
      simp only [reapRequestsByArray_eq h hreal hrequests]
      exact reapSocketsByArray_eq h hreal hsockets

end Table

end MagicWand.Kernel
