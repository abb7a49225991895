import MagicWand.Kernel.Sockets
import MagicWand.Kernel.Views

/-!
# Sending a request, step by step

`mwsocket_send_request` with what it calls in `mwcomms-xen-iface.c`: it takes
the lock of an INS, waits for a slot on its ring, prepares the instance, copies
the request and gives the slot back. Between any two of these the INS may die,
and its entry in the table may be given to another one. `Course` is what a call
meets on its way; a call that waits for ever is `none`.

The return code of `mwsocket_send_request` is that of `mw_xen_release_request`,
whatever the steps before it have returned.
-/

namespace MagicWand.Kernel

open Foundation

def enxio : Int := 6
def eagain : Int := 11
def estale : Int := 116

/-! ## RequestRings -/

/-- The table of INSs with the lock of each entry and the requests that were
pushed on its ring; `none` is a slot that no one has written. -/
structure RequestRings where
  xen : Xen := {}
  locked : Fin maxInsCount → Bool := fun _ => false
  pushed : Fin maxInsCount → List (Option MtRequest) := fun _ => []

/-- The entry of the INS when its slot is released: not in use, as it was, or in
use by another INS. -/
inductive Fate where
  | gone
  | same
  | other
deriving DecidableEq, Repr

/-- What a call meets: for each round of the wait for a slot whether the entry is
in use and the ring full, whether a close gets the lock that it waits for, what
has become of the INS by the release, and the result of the notification. -/
structure Course where
  rounds : List (Bool × Bool) := [(true, false)]
  acquired : Bool := false
  fate : Fate := .same
  notified : Int := 0
deriving DecidableEq, Repr

namespace RequestRings

/-- The loop of `mw_xen_get_next_request_slot`. -/
def awaitSlot (wait : Bool) : List (Bool × Bool) → Option Int
  | [] => none
  | (inUse, full) :: rest =>
      if !inUse then some (-estale)
      else if !full then some 0
      else if !wait then some (-eagain)
      else awaitSlot wait rest

/-- `mw_xen_get_next_request_slot`: its return code and the handle, an entry
whose lock is taken. -/
def mwXenGetNextRequestSlot (s : RequestRings) (wait : Bool) (domid : BitVec 16)
    (rounds : List (Bool × Bool)) : Option (Int × Option (Fin maxInsCount) × RequestRings) :=
  let (domid, xen) := if realDomid domid then (domid, s.xen) else s.xen.mwXenNewSocketRr
  let s := { s with xen := xen }
  match (List.finRange maxInsCount).find? fun i => (xen.ins i).domid == domid with
  | none => some (-enxio, none, s)
  | some i =>
      if !(xen.ins i).inUse then some (-estale, none, s)
      else if !(xen.ins i).isRingReady then some (-eio, none, s)
      else if s.locked i then none
      else
        (awaitSlot wait rounds).map fun rc =>
          (rc, some i, { s with locked := Function.update s.locked i true })

/-- `mw_xen_release_request`; `send` is what the caller has put in the slot. -/
def mwXenReleaseRequest (s : RequestRings) (handle : Option (Fin maxInsCount))
    (send : Option MtRequest) (c : Course) : Int × RequestRings :=
  match handle with
  | none => (-einval, s)
  | some i =>
      let s := { s with locked := Function.update s.locked i false }
      match c.fate, send with
      | .gone, _ => (-einval, s)
      | _, none => (0, s)
      | fate, some req =>
          if !req.isRequest then (-einval, s)
          else
            -- The slot that is pushed on the ring of another INS is not the one
            -- that was written.
            let slot := if fate = .same then some req else none
            (c.notified, { s with pushed := Function.update s.pushed i (s.pushed i ++ [slot]) })

/-- No slot: a caller that was willing to wait takes the INS for dead. -/
def noSlot (g : Globals) (sock : Nat) (wait : Bool) : Globals :=
  if wait then (g.modifySock sock fun k => { k with insAlive := false }).clearPollable sock else g

/-- The request in its active request, with the base fields filled in. -/
def stamped (g : Globals) (a : ActReq) : Globals :=
  g.modifyReq a.ref fun x => { x with request := g.stampRequest a }

/-- `mwsocket_send_request`. -/
def mwsocketSendRequest (s : RequestRings) (g : Globals) (a : ActReq) (wait : Bool) (c : Course) :
    Option (Int × Globals × RequestRings) :=
  let req := g.stampRequest a
  let k := g.socks a.sockinst
  let g := stamped g a
  let a := { a with request := req }
  if !a.request.isRequest then
    let (rc, s) := s.mwXenReleaseRequest none none c
    some (rc, g, s)
  else if !k.insAlive then
    let (rc, s) := s.mwXenReleaseRequest none none c
    some (rc, g.clearPollable a.sockinst, s)
  else
    match s.mwXenGetNextRequestSlot wait (mwSocketClientId a.request.sockfd) c.rounds with
    | none => none
    | some (slotRc, handle, s) =>
        if slotRc ≠ 0 then
          let (rc, s) := s.mwXenReleaseRequest handle none c
          some (rc, noSlot g a.sockinst wait, s)
        else if closeLockFree k a.request.type c.acquired then
          let (rc, s) := s.mwXenReleaseRequest handle (some (g.routeAccept a)) c
          some (rc, g.mwsocketPreProcessRequest a c.acquired, s)
        else none

end RequestRings

/-! ## Slots -/

namespace RequestRings

/-- Does the ring get a slot free before the INS dies, and does the call wait
that long? -/
def grants (wait : Bool) : List (Bool × Bool) → Bool
  | [] => false
  | (inUse, full) :: rest => inUse && (!full || wait && grants wait rest)

theorem awaitSlot_grants {wait : Bool} {rounds : List (Bool × Bool)} {rc : Int}
    (h : awaitSlot wait rounds = some rc) : rc = 0 ↔ grants wait rounds = true := by
  induction rounds with
  | nil => cases h
  | cons round rest ih =>
      rcases round with ⟨inUse, full⟩
      rw [awaitSlot] at h
      rw [grants]
      split_ifs at h with huse hfull hwait
      · cases h
        simp only [Bool.not_eq_true'] at huse
        rw [huse, Bool.false_and]
        decide
      · cases h
        simp only [Bool.not_eq_true'] at huse hfull
        simp [huse, hfull]
      · cases h
        simp only [Bool.not_eq_true'] at huse hfull hwait
        simp [huse, hfull, hwait]
        decide
      · simp only [Bool.not_eq_true', Bool.not_eq_false] at huse hfull hwait
        rw [ih h, huse, hfull, hwait]
        simp

/-- The entry of INS `i`, with its lock taken. -/
def take (s : RequestRings) (domid : BitVec 16) (i : Fin maxInsCount) : RequestRings :=
  { s with
    xen := (s.xen.ringFor domid).2
    locked := Function.update s.locked i true }

/-- What `mw_xen_get_next_request_slot` returns: no ring, or the entry of the
chosen INS with its lock taken. -/
inductive Slotted (s : RequestRings) (wait : Bool) (domid : BitVec 16)
    (rounds : List (Bool × Bool)) :
    Int → Option (Fin maxInsCount) → RequestRings → Prop where
  | refused {rc : Int} (hrc : rc ≠ 0) (hring : (s.xen.ringFor domid).1 = none) :
      Slotted s wait domid rounds rc none { s with xen := (s.xen.ringFor domid).2 }
  | taken {rc : Int} {i : Fin maxInsCount} (hring : (s.xen.ringFor domid).1 = some i)
      (hfree : s.locked i = false) (hrc : rc = 0 ↔ grants wait rounds = true) :
      Slotted s wait domid rounds rc (some i) (s.take domid i)

theorem slotted {s s' : RequestRings} {wait : Bool} {domid : BitVec 16}
    {rounds : List (Bool × Bool)} {rc : Int} {handle : Option (Fin maxInsCount)}
    (h : s.mwXenGetNextRequestSlot wait domid rounds = some (rc, handle, s')) :
    Slotted s wait domid rounds rc handle s' := by
  have hring : s.xen.ringFor domid =
      let (domid, xen) := if realDomid domid then (domid, s.xen) else s.xen.mwXenNewSocketRr
      ((xen.mwXenGetInsFromDomid domid).filter fun i => (xen.ins i).isRingReady, xen) := rfl
  rw [mwXenGetNextRequestSlot] at h
  revert h hring
  generalize (if realDomid domid then (domid, s.xen) else s.xen.mwXenNewSocketRr) = chosen
  rcases chosen with ⟨domid', xen⟩
  intro h hring
  simp only [Xen.mwXenGetInsFromDomid] at h hring
  have hxen : (s.xen.ringFor domid).2 = xen := by rw [hring]
  split at h
  · rename_i hfind
    cases h
    rw [← hxen]
    exact .refused (by decide) (by rw [hring, hfind]; rfl)
  · rename_i i hfind
    rw [hfind, Option.filter_some] at hring
    split_ifs at h with huse hready hlock
    · cases h
      rw [← hxen]
      refine .refused (by decide) ?_
      rw [Bool.not_eq_true'] at huse
      rw [hring, huse]
      rfl
    · cases h
      rw [← hxen]
      refine .refused (by decide) ?_
      rw [Bool.not_eq_true', Bool.not_eq_false] at huse
      rw [Bool.not_eq_true'] at hready
      rw [hring, if_pos huse, Option.filter_some, hready]
      rfl
    · obtain ⟨rc', hawait, heq⟩ := Option.map_eq_some_iff.mp h
      cases heq
      rw [← hxen]
      refine Slotted.taken ?_ (Bool.eq_false_iff.mpr hlock) (awaitSlot_grants hawait)
      rw [Bool.not_eq_true', Bool.not_eq_false] at huse hready
      rw [hring, if_pos huse, Option.filter_some, if_pos hready]

theorem awaitSlot_of_grants {wait : Bool} {rounds : List (Bool × Bool)}
    (h : grants wait rounds = true) : awaitSlot wait rounds = some 0 := by
  induction rounds with
  | nil => cases h
  | cons round rest ih =>
      rcases round with ⟨inUse, full⟩
      rw [grants, Bool.and_eq_true, Bool.or_eq_true, Bool.and_eq_true] at h
      obtain ⟨rfl, hfull | ⟨rfl, hrest⟩⟩ := h
      · rw [Bool.not_eq_true'] at hfull
        rw [awaitSlot, hfull]
        rfl
      · cases full with
        | false => rfl
        | true => exact ih hrest

/-- A slot that is there is got. -/
theorem slot_granted {s : RequestRings} {wait : Bool} {domid : BitVec 16}
    {rounds : List (Bool × Bool)} {i : Fin maxInsCount} (hring : (s.xen.ringFor domid).1 = some i)
    (hfree : s.locked i = false) (hgrants : grants wait rounds = true) :
    s.mwXenGetNextRequestSlot wait domid rounds = some (0, some i, s.take domid i) := by
  have hxen : s.xen.ringFor domid =
      let (domid, xen) := if realDomid domid then (domid, s.xen) else s.xen.mwXenNewSocketRr
      ((xen.mwXenGetInsFromDomid domid).filter fun i => (xen.ins i).isRingReady, xen) := rfl
  rw [take, mwXenGetNextRequestSlot]
  revert hring hxen
  generalize s.xen.ringFor domid = chosen
  rcases (if realDomid domid then (domid, s.xen) else s.xen.mwXenNewSocketRr) with ⟨domid', xen⟩
  intro hring hxen
  subst hxen
  simp only [Xen.mwXenGetInsFromDomid] at hring
  obtain ⟨hfound, hready⟩ := Option.filter_eq_some_iff.mp hring
  obtain ⟨hfind, huse⟩ := Option.filter_eq_some_iff.mp hfound
  simp only [hfind, huse, hready, hfree, awaitSlot_of_grants hgrants, Bool.not_true,
    Bool.false_eq_true, if_false, Option.map_some]

end RequestRings

/-! ## Return codes -/

/-- What a send that fails must not leave behind: an expected read, a holder of
the close lock, an accept, or a batch. -/
def SockInst.stake (k : SockInst) :
    (Bool × MtId) × (Nat × Bool × MtId) × Bool × MtFlags × Nat :=
  ((k.readExpected, k.blockid), (k.closeReaders, k.closeWriter, k.closeBlockid),
    k.mwflags.has MwFlags.accept, k.uFlags, k.sendTally)

namespace SockInst

/-- Does preparing a request leave all that as it is? The request does not hold
up a close, no one waits for it that did not before, it is not a close that gets
the lock, and not the first of several accepts. -/
def Untouched (k : SockInst) (id : MtId) (req : MtRequest) (acquired : Bool) : Prop :=
  req.type.closeWaits = false ∧
  (req.callerWaits = true → k.readExpected = true ∧ k.blockid = id) ∧
  (req.type = .socketClose → acquired = false ∧ k.closeBlockid = mtIdUnsetValue) ∧
  (req.type = .socketAccept → k.mwflags.has MwFlags.accept = true)

instance (k : SockInst) (id : MtId) (req : MtRequest) (acquired : Bool) :
    Decidable (k.Untouched id req acquired) :=
  inferInstanceAs (Decidable (_ ∧ _ ∧ _ ∧ _))

/-- The part of `prepare` in the stake, for a request that is not a send. -/
theorem stake_prepare (k : SockInst) {req : MtRequest} (hsend : req.type ≠ .socketSend) :
    (k.prepare req).stake =
      (k.stake.1, k.stake.2.1, k.stake.2.2.1 || decide (req.type = .socketAccept),
        k.stake.2.2.2) := by
  rw [prepare]
  split
  · rename_i htype
    simp [stake, htype]
  · rename_i htype
    simp [stake, htype]
  · rename_i htype
    simp [stake, htype]
  · rename_i htype
    simp only [stake, htype, MwFlags.has_or, decide_true]
    rfl
  · rename_i htype
    exact absurd htype hsend
  · rename_i haccept _
    have hnot : decide (req.type = .socketAccept) = false := decide_eq_false haccept
    rw [hnot, Bool.or_false]

/-- The part of the close lock, for a request that does not hold up a close. -/
theorem stake_acquireClose (k : SockInst) (id : MtId) {t : MtRequestType} (acquired : Bool)
    (hwaits : t.closeWaits = false) :
    (k.acquireClose id t acquired).stake =
      (k.stake.1,
        if t = .socketClose then (k.closeReaders, acquired || k.closeWriter, mtIdUnsetValue)
        else k.stake.2.1,
        k.stake.2.2) := by
  rw [acquireClose, hwaits, if_neg Bool.false_ne_true]
  by_cases hclose : t = .socketClose
  · rw [if_pos hclose, if_pos hclose]
    cases acquired with
    | false => rfl
    | true => rfl
  · rw [if_neg hclose, if_neg hclose]

theorem stake_preProcess {k : SockInst} {id : MtId} {req : MtRequest} {acquired : Bool}
    (hfree : closeLockFree k req.type acquired = true) :
    (k.preProcess id req acquired).stake = k.stake ↔ k.Untouched id req acquired := by
  by_cases hwaits : req.type.closeWaits = true
  · -- One more reader holds the close lock.
    have hreaders : (k.preProcess id req acquired).closeReaders = k.closeReaders + 1 := by
      have hprepare (k : SockInst) : (k.prepare req).closeReaders = k.closeReaders := by
        rw [prepare]
        split
        all_goals first | rfl | (split_ifs <;> rfl)
      have hexpect : (if req.callerWaits then k.expectRead id else k).closeReaders =
          k.closeReaders := by
        split_ifs <;> rfl
      rw [preProcess, hprepare, acquireClose, if_pos hwaits]
      exact congrArg (· + 1) hexpect
    constructor
    · intro h
      have : k.closeReaders + 1 = k.closeReaders := by
        rw [← hreaders]
        exact congrArg (fun x => x.2.1.1) h
      omega
    · rintro ⟨hno, -⟩
      rw [hno] at hwaits
      cases hwaits
  · have hsend : req.type ≠ .socketSend := by
      intro htype
      rw [htype] at hwaits
      exact hwaits rfl
    rw [Bool.not_eq_true] at hwaits
    have hread : ((if req.callerWaits then k.expectRead id else k).stake.1 = k.stake.1) ↔
        (req.callerWaits = true → k.readExpected = true ∧ k.blockid = id) := by
      split_ifs with hc
      · rw [forall_prop_of_true hc, expectRead, stake, stake, Prod.mk.injEq]
        exact and_congr eq_comm eq_comm
      · exact iff_of_true rfl fun h => absurd h hc
    have hrest : (if req.callerWaits then k.expectRead id else k).stake.2 = k.stake.2 := by
      split_ifs <;> rfl
    have hlock : (if req.callerWaits then k.expectRead id else k).closeReaders = k.closeReaders ∧
        (if req.callerWaits then k.expectRead id else k).closeWriter = k.closeWriter := by
      split_ifs
      · exact ⟨rfl, rfl⟩
      · exact ⟨rfl, rfl⟩
    rw [preProcess, stake_prepare _ hsend, stake_acquireClose _ id acquired hwaits, Untouched,
      ← hread, hrest, hlock.1, hlock.2]
    generalize (if req.callerWaits then k.expectRead id else k).stake.1 = p
    by_cases hclose : req.type = .socketClose
    · have hwriter : acquired = true → k.closeWriter = false := by
        rintro rfl
        rw [closeLockFree, hwaits] at hfree
        simp at hfree
        exact hfree.1
      have hkept : (acquired || k.closeWriter) = k.closeWriter ↔ acquired = false := by
        cases acquired with
        | false => exact iff_of_true rfl rfl
        | true =>
            rw [hwriter rfl]
            exact iff_of_false (by decide) (by decide)
      rw [hclose] at hwaits
      simp [hwaits, hclose, stake, hkept, @eq_comm _ mtIdUnsetValue]
    · simp [hwaits, hclose, stake]

end SockInst

namespace RequestRings

/-- Exactly one request has been published. -/
def PublishedOne (s s' : RequestRings) : Prop :=
  ∃ i req, s'.pushed = Function.update s.pushed i (s.pushed i ++ [some req])

/-- The return code tells what has happened. -/
structure Atomic (s : RequestRings) (g : Globals) (sock : Nat) (rc : Int) (g' : Globals)
    (s' : RequestRings) : Prop where
  success : rc = 0 ↔ PublishedOne s s'
  failure : rc ≠ 0 → s'.pushed = s.pushed ∧ (g'.socks sock).stake = (g.socks sock).stake
  lock : s'.locked = s.locked

/-- When the return code does: the call gets no ring; or it gets a slot, the INS
is still there, and its notification works, or the INS has gone and nothing was
prepared; or it gets no slot, and the INS has gone. -/
def AtomicWhen (s : RequestRings) (g : Globals) (a : ActReq) (wait : Bool) (c : Course) : Prop :=
  let req := g.stampRequest a
  let k := g.socks a.sockinst
  req.isRequest = false ∨ k.insAlive = false ∨
    (s.xen.ringFor (mwSocketClientId req.sockfd)).1 = none ∨
    if grants wait c.rounds then
      c.fate = .same ∧ c.notified = 0 ∨ c.fate = .gone ∧ k.Untouched a.id req c.acquired
    else c.fate = .gone

instance (s : RequestRings) (g : Globals) (a : ActReq) (wait : Bool) (c : Course) :
    Decidable (s.AtomicWhen g a wait c) :=
  inferInstanceAs (Decidable (_ ∨ _ ∨ _ ∨ ite _ _ _))

/-! ## The phases -/

theorem pushed_ne {p p' : Fin maxInsCount → List (Option MtRequest)} {i : Fin maxInsCount}
    {x : Option MtRequest} (h : p' = Function.update p i (p i ++ [x])) : p' ≠ p := by
  intro heq
  have hlen := congrArg List.length (congrFun (heq.symm.trans h) i)
  rw [Function.update_self, List.length_append] at hlen
  exact Nat.succ_ne_self _ hlen.symm

theorem not_publishedOne {s s' : RequestRings} (h : s'.pushed = s.pushed) :
    ¬ s.PublishedOne s' := by
  rintro ⟨i, req, heq⟩
  exact pushed_ne heq h

theorem atomic_failed {s s' : RequestRings} {g g' : Globals} {sock : Nat} {rc : Int}
    (hrc : rc ≠ 0) (hpushed : s'.pushed = s.pushed)
    (hstake : (g'.socks sock).stake = (g.socks sock).stake)
    (hlock : s'.locked = s.locked) : s.Atomic g sock rc g' s' where
  success := iff_of_false hrc (not_publishedOne hpushed)
  failure _ := ⟨hpushed, hstake⟩
  lock := hlock

end RequestRings

/-- Marking an INS dead leaves all that in place. -/
theorem Globals.stake_clearPollable (g : Globals) (r : Nat) :
    (g.clearPollable r).view SockInst.stake r = g.view SockInst.stake r := by
  rw [clearPollable]
  split
  · refine view_modifySock_of_eq g r
      (f := fun k => { k with mwflags := k.mwflags &&& ~~~MwFlags.pollable }) (fun k => ?_) r
    rw [SockInst.stake, MwFlags.has, BitVec.and_assoc]
    rfl
  · rfl

namespace RequestRings

theorem stake_noSlot (g : Globals) (sock : Nat) (wait : Bool) :
    (noSlot g sock wait).view SockInst.stake sock = g.view SockInst.stake sock := by
  rw [noSlot]
  split_ifs
  · refine (Globals.stake_clearPollable _ sock).trans ?_
    exact Globals.view_modifySock_of_eq g sock (f := fun k => { k with insAlive := false })
      (fun _ => rfl) sock
  · rfl

theorem isRequest_routeAccept (g : Globals) (a : ActReq) :
    (g.routeAccept a).isRequest = a.request.isRequest := by
  rw [Globals.routeAccept]
  split
  · split_ifs <;> rfl
  · rfl

/-- The ways through `mwsocket_send_request`. -/
inductive Sent (s : RequestRings) (g : Globals) (a : ActReq) (wait : Bool) (c : Course) :
    Int × Globals × RequestRings → Prop where
  | invalid (hreq : (g.stampRequest a).isRequest = false) :
      Sent s g a wait c (-einval, stamped g a, s)
  | dead (hvalid : (g.stampRequest a).isRequest = true)
      (halive : (g.socks a.sockinst).insAlive = false) :
      Sent s g a wait c (-einval, (stamped g a).clearPollable a.sockinst, s)
  | refused (hvalid : (g.stampRequest a).isRequest = true)
      (halive : (g.socks a.sockinst).insAlive = true)
      (hring : (s.xen.ringFor (mwSocketClientId (g.stampRequest a).sockfd)).1 = none) :
      Sent s g a wait c (-einval, noSlot (stamped g a) a.sockinst wait,
        { s with xen := (s.xen.ringFor (mwSocketClientId (g.stampRequest a).sockfd)).2 })
  | late {i : Fin maxInsCount} {r : Int × RequestRings}
      (hvalid : (g.stampRequest a).isRequest = true)
      (halive : (g.socks a.sockinst).insAlive = true)
      (hring : (s.xen.ringFor (mwSocketClientId (g.stampRequest a).sockfd)).1 = some i)
      (hlock : s.locked i = false) (hgrants : grants wait c.rounds = false)
      (hr : (s.take (mwSocketClientId (g.stampRequest a).sockfd) i).mwXenReleaseRequest
        (some i) none c = r) :
      Sent s g a wait c (r.1, noSlot (stamped g a) a.sockinst wait, r.2)
  | prepared {i : Fin maxInsCount} {r : Int × RequestRings}
      (hvalid : (g.stampRequest a).isRequest = true)
      (halive : (g.socks a.sockinst).insAlive = true)
      (hring : (s.xen.ringFor (mwSocketClientId (g.stampRequest a).sockfd)).1 = some i)
      (hlock : s.locked i = false) (hgrants : grants wait c.rounds = true)
      (hfree : closeLockFree (g.socks a.sockinst) (g.stampRequest a).type c.acquired = true)
      (hr : (s.take (mwSocketClientId (g.stampRequest a).sockfd) i).mwXenReleaseRequest (some i)
        (some ((stamped g a).routeAccept { a with request := g.stampRequest a })) c = r) :
      Sent s g a wait c (r.1, (stamped g a).mwsocketPreProcessRequest
        { a with request := g.stampRequest a } c.acquired, r.2)

theorem sent {s : RequestRings} {g : Globals} {a : ActReq} {wait : Bool} {c : Course}
    {r : Int × Globals × RequestRings} (h : s.mwsocketSendRequest g a wait c = some r) :
    Sent s g a wait c r := by
  rw [mwsocketSendRequest] at h
  by_cases hreq : (g.stampRequest a).isRequest = true
  · by_cases halive : (g.socks a.sockinst).insAlive = true
    · simp only [hreq, halive, Bool.not_true, Bool.false_eq_true, if_false] at h
      split at h
      · cases h
      · rename_i slotRc handle s' hslot
        cases slotted hslot with
        | refused hrc hring =>
            rw [if_pos hrc] at h
            cases h
            exact .refused hreq halive hring
        | taken hring hlock hgrants =>
            by_cases hrc : slotRc = 0
            · rw [if_neg (not_not_intro hrc)] at h
              obtain ⟨hfree, heq⟩ := Option.ite_none_right_eq_some.mp h
              cases heq
              exact .prepared hreq halive hring hlock (hgrants.mp hrc) hfree rfl
            · rw [if_pos hrc] at h
              cases h
              exact .late hreq halive hring hlock
                (Bool.eq_false_iff.mpr fun hg => hrc (hgrants.mpr hg)) rfl
    · rw [Bool.not_eq_true] at halive
      simp only [hreq, halive, Bool.not_true, Bool.false_eq_true, if_false, Bool.not_false,
        if_true] at h
      cases h
      exact .dead hreq halive
  · rw [Bool.not_eq_true] at hreq
    simp only [hreq, Bool.not_false, if_true] at h
    cases h
    exact .invalid hreq

theorem einval_ne : -einval ≠ 0 := by decide

/-- The lock that is taken is given back. -/
theorem locked_release (s : RequestRings) (domid : BitVec 16) {i : Fin maxInsCount}
    (hlock : s.locked i = false) (send : Option MtRequest) (c : Course) :
    ((s.take domid i).mwXenReleaseRequest (some i) send c).2.locked = s.locked := by
  have hback : Function.update (Function.update s.locked i true) i false = s.locked := by
    rw [Function.update_idem, ← hlock, Function.update_eq_self]
  simp only [mwXenReleaseRequest]
  split
  · exact hback
  · exact hback
  · split_ifs
    · exact hback
    · exact hback
    · exact hback

/-- A slot that is given back unused: nothing is published, and the return code
is 0 if the entry is in use. -/
theorem release_unused (s : RequestRings) (domid : BitVec 16) (i : Fin maxInsCount) (c : Course) :
    ((s.take domid i).mwXenReleaseRequest (some i) none c).2.pushed = s.pushed ∧
      (((s.take domid i).mwXenReleaseRequest (some i) none c).1 = 0 ↔ c.fate ≠ .gone) := by
  cases hfate : c.fate with
  | gone =>
      simp only [mwXenReleaseRequest, hfate]
      exact ⟨rfl, iff_of_false einval_ne (not_not_intro rfl)⟩
  | same =>
      simp only [mwXenReleaseRequest, hfate]
      exact ⟨rfl, iff_of_true trivial Fate.noConfusion⟩
  | other =>
      simp only [mwXenReleaseRequest, hfate]
      exact ⟨rfl, iff_of_true trivial Fate.noConfusion⟩

/-- A slot that a request was written to. -/
theorem release_written (s : RequestRings) (domid : BitVec 16) (i : Fin maxInsCount)
    {req : MtRequest} (hreq : req.isRequest = true) (c : Course) :
    match c.fate with
    | .gone => ((s.take domid i).mwXenReleaseRequest (some i) (some req) c).1 ≠ 0 ∧
        ((s.take domid i).mwXenReleaseRequest (some i) (some req) c).2.pushed = s.pushed
    | .same => ((s.take domid i).mwXenReleaseRequest (some i) (some req) c).1 = c.notified ∧
        ((s.take domid i).mwXenReleaseRequest (some i) (some req) c).2.pushed =
          Function.update s.pushed i (s.pushed i ++ [some req])
    | .other => ((s.take domid i).mwXenReleaseRequest (some i) (some req) c).1 = c.notified ∧
        ((s.take domid i).mwXenReleaseRequest (some i) (some req) c).2.pushed =
          Function.update s.pushed i (s.pushed i ++ [none]) := by
  cases hfate : c.fate with
  | gone =>
      simp only [mwXenReleaseRequest, hfate]
      exact ⟨einval_ne, rfl⟩
  | same =>
      simp only [mwXenReleaseRequest, hfate, hreq, Bool.not_true, Bool.false_eq_true, if_false,
        if_true]
      exact ⟨trivial, rfl⟩
  | other =>
      simp only [mwXenReleaseRequest, hfate, hreq, Bool.not_true, Bool.false_eq_true, if_false]
      exact ⟨trivial, rfl⟩

/-- The same ways through `Globals.mwsocketSendRequest`. -/
theorem send_unsent {g : Globals} {a : ActReq} (slot : Globals.Slot) (acquired : Bool)
    (h : (g.stampRequest a).isRequest = false) :
    g.mwsocketSendRequest a slot acquired = (stamped g a, -einval, none) := by
  simp only [Globals.mwsocketSendRequest, h, Bool.not_false, if_true]
  rfl

theorem send_dead {g : Globals} {a : ActReq} (slot : Globals.Slot) (acquired : Bool)
    (hvalid : (g.stampRequest a).isRequest = true) (h : (g.socks a.sockinst).insAlive = false) :
    g.mwsocketSendRequest a slot acquired =
      ((stamped g a).clearPollable a.sockinst, -einval, none) := by
  simp only [Globals.mwsocketSendRequest, hvalid, Globals.modifyReq_socks, h, Bool.not_true,
    Bool.not_false, Bool.false_eq_true, if_false, if_true]
  rfl

theorem send_alive {g : Globals} {a : ActReq} (slot : Globals.Slot) (acquired : Bool)
    (hvalid : (g.stampRequest a).isRequest = true) (h : (g.socks a.sockinst).insAlive = true) :
    g.mwsocketSendRequest a slot acquired =
      match slot with
      | .refused => (noSlot (stamped g a) a.sockinst true, -einval, none)
      | .lost => ((stamped g a).mwsocketPreProcessRequest
          { a with request := g.stampRequest a } acquired, -einval, none)
      | .granted notified => ((stamped g a).mwsocketPreProcessRequest
          { a with request := g.stampRequest a } acquired, notified,
            some ((stamped g a).routeAccept { a with request := g.stampRequest a })) := by
  simp only [Globals.mwsocketSendRequest, hvalid, Globals.modifyReq_socks, h, Bool.not_true,
    Bool.false_eq_true, if_false]
  rfl

/-- With a caller that waits, and as long as no other INS gets the entry, this is
`Globals.mwsocketSendRequest` with what the ring gives as its slot. -/
theorem send_slot {s s' : RequestRings} {g g' : Globals} {a : ActReq} {c : Course} {rc : Int}
    (h : s.mwsocketSendRequest g a true c = some (rc, g', s')) (hfate : c.fate ≠ .other) :
    ∃ slot, (g.mwsocketSendRequest a slot c.acquired).1 = g' ∧
      match (g.mwsocketSendRequest a slot c.acquired).2.2 with
      | none => s'.pushed = s.pushed
      | some req => rc = c.notified ∧
          ∃ i, s'.pushed = Function.update s.pushed i (s.pushed i ++ [some req]) := by
  cases sent h with
  | invalid hreq =>
      refine ⟨.refused, ?_⟩
      rw [send_unsent _ _ hreq]
      exact ⟨rfl, rfl⟩
  | dead hvalid halive =>
      refine ⟨.refused, ?_⟩
      rw [send_dead _ _ hvalid halive]
      exact ⟨rfl, rfl⟩
  | refused hvalid halive hring =>
      refine ⟨.refused, ?_⟩
      rw [send_alive _ _ hvalid halive]
      exact ⟨rfl, rfl⟩
  | @late i r hvalid halive hring hlock hgrants hr =>
      refine ⟨.refused, ?_⟩
      rw [send_alive _ _ hvalid halive]
      exact ⟨rfl, hr ▸ (release_unused s _ i c).1⟩
  | @prepared i r hvalid halive hring hlock hgrants hfree hr =>
      have hreq := (isRequest_routeAccept (stamped g a)
        { a with request := g.stampRequest a }).trans hvalid
      have hwritten := release_written s (mwSocketClientId (g.stampRequest a).sockfd) i hreq c
      rw [hr] at hwritten
      cases hc : c.fate with
      | gone =>
          rw [hc] at hwritten
          refine ⟨.lost, ?_⟩
          rw [send_alive _ _ hvalid halive]
          exact ⟨rfl, hwritten.2⟩
      | same =>
          rw [hc] at hwritten
          refine ⟨.granted c.notified, ?_⟩
          rw [send_alive _ _ hvalid halive]
          exact ⟨rfl, hwritten.1, i, hwritten.2⟩
      | other => exact absurd hc hfate

/-- A request that gets a slot of an INS that stays is published. -/
theorem send_granted {s : RequestRings} {g : Globals} {a : ActReq} {c : Course}
    {i : Fin maxInsCount} (hvalid : (g.stampRequest a).isRequest = true)
    (halive : (g.socks a.sockinst).insAlive = true)
    (hring : (s.xen.ringFor (mwSocketClientId (g.stampRequest a).sockfd)).1 = some i)
    (hlock : s.locked i = false) (hgrants : grants true c.rounds = true)
    (hfree : closeLockFree (g.socks a.sockinst) (g.stampRequest a).type c.acquired = true)
    (hfate : c.fate = .same) :
    ∃ s', s.mwsocketSendRequest g a true c = some (c.notified,
        (stamped g a).mwsocketPreProcessRequest { a with request := g.stampRequest a } c.acquired,
        s') ∧
      s'.xen = (s.xen.ringFor (mwSocketClientId (g.stampRequest a).sockfd)).2 ∧
      s'.locked = s.locked ∧
      s'.pushed = Function.update s.pushed i (s.pushed i ++
        [some ((stamped g a).routeAccept { a with request := g.stampRequest a })]) := by
  have hreq := (isRequest_routeAccept (stamped g a)
    { a with request := g.stampRequest a }).trans hvalid
  have hwritten := release_written s (mwSocketClientId (g.stampRequest a).sockfd) i hreq c
  rw [hfate] at hwritten
  have hlocked := locked_release s (mwSocketClientId (g.stampRequest a).sockfd) hlock
    (some ((stamped g a).routeAccept { a with request := g.stampRequest a })) c
  refine ⟨_, ?_, ?_, hlocked, hwritten.2⟩
  · rw [← hwritten.1]
    simp only [mwsocketSendRequest, hvalid, halive, slot_granted hring hlock hgrants, hfree,
      Bool.not_true, Bool.false_eq_true, if_false, if_true, ne_eq, not_true_eq_false]
  · simp only [mwXenReleaseRequest, hfate, hreq, Bool.not_true, Bool.false_eq_true, if_false]
    rfl

theorem send_atomic_iff (s : RequestRings) (g : Globals) (a : ActReq) (wait : Bool) (c : Course)
    (rc : Int) (g' : Globals) (s' : RequestRings)
    (h : s.mwsocketSendRequest g a wait c = some (rc, g', s')) :
    s.Atomic g a.sockinst rc g' s' ↔ s.AtomicWhen g a wait c := by
  have hwhen {i : Fin maxInsCount} (hvalid : (g.stampRequest a).isRequest = true)
      (halive : (g.socks a.sockinst).insAlive = true)
      (hring : (s.xen.ringFor (mwSocketClientId (g.stampRequest a).sockfd)).1 = some i) :
      s.AtomicWhen g a wait c ↔ if grants wait c.rounds then
        c.fate = .same ∧ c.notified = 0 ∨
          c.fate = .gone ∧ (g.socks a.sockinst).Untouched a.id (g.stampRequest a) c.acquired
      else c.fate = .gone := by
    simp [AtomicWhen, hvalid, halive, hring]
  cases sent h with
  | invalid hreq => exact iff_of_true (atomic_failed (by decide) rfl rfl rfl) (.inl hreq)
  | dead hvalid halive =>
      refine iff_of_true (atomic_failed (by decide) rfl ?_ rfl) (.inr (.inl halive))
      exact Globals.stake_clearPollable _ a.sockinst
  | refused hvalid halive hring =>
      refine iff_of_true (atomic_failed (by decide) rfl ?_ rfl) (.inr (.inr (.inl hring)))
      exact stake_noSlot _ a.sockinst wait
  | @late i r hvalid halive hring hlock hgrants hr =>
      obtain ⟨hpushed, hrc⟩ := release_unused s (mwSocketClientId (g.stampRequest a).sockfd) i c
      have hlocked := locked_release s (mwSocketClientId (g.stampRequest a).sockfd) hlock none c
      rw [hr] at hpushed hrc hlocked
      rw [hwhen hvalid halive hring, hgrants, if_neg Bool.false_ne_true]
      constructor
      · intro hatomic
        by_contra hfate
        exact not_publishedOne hpushed (hatomic.success.mp (hrc.mpr hfate))
      · intro hfate
        exact atomic_failed (fun hzero => hrc.mp hzero hfate) hpushed (stake_noSlot _ _ wait)
          hlocked
  | @prepared i r hvalid halive hring hlock hgrants hfree hr =>
      have hreq := (isRequest_routeAccept (stamped g a)
        { a with request := g.stampRequest a }).trans hvalid
      have hwritten := release_written s (mwSocketClientId (g.stampRequest a).sockfd) i hreq c
      have hlocked := locked_release s (mwSocketClientId (g.stampRequest a).sockfd) hlock
        (some ((stamped g a).routeAccept { a with request := g.stampRequest a })) c
      rw [hr] at hwritten hlocked
      rw [hwhen hvalid halive hring, hgrants, if_pos rfl]
      have hprepare : (((stamped g a).mwsocketPreProcessRequest
          { a with request := g.stampRequest a } c.acquired).socks a.sockinst).stake =
            (g.socks a.sockinst).stake ↔
          (g.socks a.sockinst).Untouched a.id (g.stampRequest a) c.acquired := by
        have hview := Globals.view_preProcess (F := SockInst.stake) (stamped g a)
          { a with request := g.stampRequest a } c.acquired a.sockinst
        rw [if_pos rfl] at hview
        rw [← SockInst.stake_preProcess hfree]
        exact hview ▸ Iff.rfl
      -- The release looks the INS up again: it is gone, it is the same one, or its entry is by
      -- now in use by another.
      cases hfate : c.fate with
      | gone =>
          rw [hfate] at hwritten
          obtain ⟨hrc, hpushed⟩ := hwritten
          rw [← hprepare]
          constructor
          · intro hatomic
            exact .inr ⟨rfl, (hatomic.failure hrc).2⟩
          · rintro (⟨hsame, -⟩ | ⟨-, hstake⟩)
            · cases hsame
            · exact atomic_failed hrc hpushed hstake hlocked
      | same =>
          rw [hfate] at hwritten
          obtain ⟨hrc, hpushed⟩ := hwritten
          have hone : s.PublishedOne r.2 := ⟨i, _, hpushed⟩
          constructor
          · intro hatomic
            exact .inl ⟨rfl, hrc ▸ hatomic.success.mpr hone⟩
          · rintro (⟨-, hnotified⟩ | ⟨hgone, -⟩)
            · have hzero : r.1 = 0 := hrc.trans hnotified
              exact ⟨iff_of_true hzero hone, fun hne => absurd hzero hne, hlocked⟩
            · cases hgone
      | other =>
          rw [hfate] at hwritten
          obtain ⟨hrc, hpushed⟩ := hwritten
          refine iff_of_false ?_ ?_
          · -- The ring of the other INS got an entry that is no request: the rings are neither
            -- as they were nor longer by one request.
            intro hatomic
            have hother : r.2.pushed ≠ s.pushed := pushed_ne hpushed
            by_cases hzero : r.1 = 0
            · obtain ⟨j, req', heq⟩ := hatomic.success.mp hzero
              have hslot := congrFun (hpushed.symm.trans heq) i
              rw [Function.update_self] at hslot
              by_cases hij : i = j
              · rw [hij, Function.update_self] at hslot
                cases List.append_cancel_left hslot
              · rw [Function.update_of_ne hij] at hslot
                exact absurd hslot (by simp)
            · exact hother (hatomic.failure hzero).1
          · rintro (⟨hsame, -⟩ | ⟨hgone, -⟩)
            · cases hsame
            · cases hgone

end RequestRings

/-- A ring that is full, with an INS that is alive. -/
def fullRing : RequestRings where
  xen :=
    { ins := fun i =>
        if i = insZero then
          { domid := 5, inUse := true, isRingReady := true, real := fun _ => realDomid_five }
        else {} }

def recvRequest : ActReq where
  ref := 0
  id := 1
  sockinst := 0
  request :=
    { type := .socketRecv, size := mtRequestSocketRecvSize, sockfd := mwSocketCreate 5 1,
      flags := MtFlags.pvmCallerAwaitsResponse }

theorem send_atomic_iff_ringFull :
    ∃ r, fullRing.mwsocketSendRequest {} recvRequest true
        { rounds := [(true, true), (true, false)] } = some r ∧
      (fullRing.Atomic {} 0 r.1 r.2.1 r.2.2 ↔
        fullRing.AtomicWhen {} recvRequest true { rounds := [(true, true), (true, false)] }) := by
  have hsome : (fullRing.mwsocketSendRequest {} recvRequest true
      { rounds := [(true, true), (true, false)] }).isSome = true := by
    decide +kernel
  obtain ⟨r, hr⟩ := Option.isSome_iff_exists.mp hsome
  exact ⟨r, hr, RequestRings.send_atomic_iff fullRing {} recvRequest true _ r.1 r.2.1 r.2.2 hr⟩

/-- A caller that does not want to wait finds the ring full: it is told that its
request has been sent. -/
theorem ringFull_sends_nothing :
    ∃ g' s', fullRing.mwsocketSendRequest {} recvRequest false { rounds := [(true, true)] } =
        some (0, g', s') ∧ s'.pushed = fullRing.pushed ∧
      ¬ fullRing.Atomic {} 0 0 g' s' := by
  have hview : (fullRing.mwsocketSendRequest {} recvRequest false
      { rounds := [(true, true)] }).any (fun r =>
        decide (r.1 = 0 ∧ ∀ i, r.2.2.pushed i = [])) = true := by
    decide +kernel
  obtain ⟨⟨rc, g', s'⟩, hrun, hr⟩ := (Option.any_eq_true _ _).mp hview
  obtain ⟨hrc, hempty⟩ := of_decide_eq_true hr
  obtain rfl : rc = 0 := hrc
  have hpushed : s'.pushed = fullRing.pushed := funext hempty
  refine ⟨g', s', hrun, hpushed, ?_⟩
  intro hatomic
  exact RequestRings.not_publishedOne hpushed (hatomic.success.mp rfl)

end MagicWand.Kernel
