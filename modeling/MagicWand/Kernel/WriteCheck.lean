import MagicWand.Foundation.Bytes
import MagicWand.Kernel.Replicator
import MagicWand.Kernel.Sending
import MagicWand.Layout

/-!
# What a write lets through

`mwsocket_write` with the bytes that a process hands to it, from user memory to
the ring. The driver reads the base of the request first, and then, unless it is
an accept, `Len` bytes into the active request; what stands in user memory may
change in between. `Len` has no upper bound, and the size in the request is only
compared with `Len`: the number of bytes that go into the active request is
limited by neither.

The semaphore and the awaited read are in `FileState.writeHead` and
`FileState.writeTail`; here only what a write returns, reads and publishes is
looked at.
-/

namespace MagicWand

open Foundation Bytes

/-! ## Bytes of a request -/

namespace MtRequestType

/-- The types that have a name. -/
def named : List MtRequestType :=
  [.invalid, .socketCreate, .socketShutdown, .socketClose, .socketConnect, .socketBind,
    .socketListen, .socketAccept, .socketSend, .socketRecv, .socketRecvFrom, .socketGetName,
    .socketGetPeer, .socketAttrib, .pollsetQuery, .addrBlock]

def ofCode (code : Nat) : MtRequestType :=
  (named.find? fun t => t.code = code).getD (.unknown code)

theorem code_ofCode (code : Nat) : (ofCode code).code = code := by
  rw [ofCode]
  cases hfind : named.find? fun t => t.code = code with
  | none => rfl
  | some t => simpa using List.find?_some hfind

end MtRequestType

/-- The fields of `mt_request_base_t`, and those behind it that
`mwsocket_pre_process_request` looks at. -/
def decodeRequest (bs : List Byte) : MtRequest where
  sig := BitVec.ofNat 16 (leNat (slice bs 0 2))
  type := .ofCode (leNat (slice bs 2 4))
  size := leNat (slice bs 6 2)
  id := BitVec.ofNat 64 (leNat (slice bs 8 8))
  sockfd := BitVec.ofNat 64 (leNat (slice bs 16 8))
  flags := BitVec.ofNat 32 (leNat (slice bs 24 4))
  sockFam := BitVec.ofNat 32 (leNat (slice bs 28 4))
  sockType := BitVec.ofNat 32 (leNat (slice bs 32 4))
  sockProtocol := BitVec.ofNat 32 (leNat (slice bs 36 4))
  sockaddr :=
    { sinFamily := BitVec.ofNat 32 (leNat (slice bs 28 4))
      sinPort := BitVec.ofNat 16 (leNat (slice bs 32 2))
      sAddr := BitVec.ofNat 64 (leNat (slice bs 36 8))
      sinZero := slice bs 44 8 }
  backlog := (BitVec.ofNat 32 (leNat (slice bs 28 4))).toInt
  opFlags := BitVec.ofNat 32 (leNat (slice bs 28 4))

namespace Kernel

def ebadfd : Int := 77

/-! ## The write -/

/-- The user memory from the address on, as far as it can be read: when the base is
looked at, and when the request is copied. -/
structure UserMemory where
  peeked : List Byte
  copied : List Byte
deriving DecidableEq, Repr

/-- `copy_from_user`, when it succeeds. -/
def copyFromUser (mem : List Byte) (n : Nat) : Option (List Byte) :=
  if n ≤ mem.length then some (mem.take n) else none

/-- `sizeof(mt_request_response_union_t)`, the room in an active request. Behind it
stands the pointer to the instance. -/
def mtRequestResponseUnionSize : Nat := mtResponseGenericSize

/-- What a write meets: whether the file is that of an instance, whether the wait
for the semaphore is interrupted, the error of an allocation if it is negative,
what its request meets in `mwsocket_send_request`, and what the INSs answer to
the requests that go with an accept. -/
structure WriteCourse where
  known : Bool := true
  interrupted : Bool := false
  fault : Int := 0
  course : Course := {}
  answers : Answers := fun _ => ⟨.refused, 0, {}⟩

/-- The return code, how many bytes went into the active request, the slots of the
rings that carry out the write, and the requests by which the replicator
prepares listeners for an accept. -/
structure Written where
  rc : Int
  copied : Nat := 0
  accept : Bool := false
  placed : List (Option MtRequest) := []
  messages : List MtRequest := []

/-- A write that never returns, one that writes behind the room in its active
request, and one that returns. -/
inductive WriteOutcome where
  | blocked
  | overrun
  | returned (w : Written)

namespace RequestRings

/-- The slots that were pushed since. -/
def pushedSince (s s' : RequestRings) : List (Option MtRequest) :=
  (List.finRange maxInsCount).flatMap fun i => (s'.pushed i).drop (s.pushed i).length

/-- The ids of the INSs whose ring is ready. -/
def liveDomids (s : RequestRings) : List (BitVec 16) :=
  ((List.finRange maxInsCount).filter fun i => (s.xen.ins i).isRingReady).map fun i =>
    (s.xen.ins i).domid

end RequestRings

/-- The accept in `mwsocket_write`, for all INSs. -/
def writeAccept (s : RequestRings) (t : Table) (r : Nat) (awaits : Bool) (c : WriteCourse) :
    WriteOutcome :=
  let t := t.modifySock r fun k =>
    { k with userOutstandingAccept := k.userOutstandingAccept + 1 }
  match Replication.forEachLiveIns c.answers r awaits { table := t } 0 s.liveDomids with
  | none => .blocked
  | some (s', rc) =>
      let (accepts, messages) :=
        (s'.posted.map Posting.request).partition fun req => decide (req.type = .socketAccept)
      .returned { rc := rc, accept := true, placed := accepts.map some, messages := messages }

/-- `mwsocket_write`, once the request is in its active request. -/
def writeCopied (s : RequestRings) (t : Table) (r : Nat) (req : MtRequest) (len : Nat)
    (c : WriteCourse) : WriteOutcome :=
  match t.g.mwsocketCreateActiveRequest r true false req with
  | none => .blocked
  | some (g, ref) =>
      if len < req.size then .returned { rc := -einval, copied := len }
      else
        let (rc, k) := mwsocketPendingError (g.socks r) req.type
        if rc ≠ 0 then .returned { rc := rc, copied := len }
        else
          match g.reqAt ref with
          | none => .blocked
          | some a =>
              match s.mwsocketSendRequest (g.modifySock r fun _ => k) a true c.course with
              | none => .blocked
              | some (rc, _, s') =>
                  .returned { rc := rc, copied := len, placed := s.pushedSince s' }

/-- `mwsocket_write`. -/
def mwsocketWrite (s : RequestRings) (t : Table) (r : Nat) (u : UserMemory) (len : Nat)
    (c : WriteCourse) : WriteOutcome :=
  if len < mtRequestBaseSize then .returned { rc := -einval }
  else
    match copyFromUser u.peeked mtRequestBaseSize with
    | none => .returned { rc := -efault }
    | some base =>
        if !c.known then .returned { rc := -ebadfd }
        else if c.interrupted then .returned { rc := -eintr }
        else if (t.sock r).stateValid && (t.sock r).readExpected then .returned { rc := -eio }
        else if (decodeRequest base).type = .socketAccept then
          writeAccept s t r (decodeRequest base).callerWaits c
        else if !(t.sock r).insAlive then .returned { rc := -einval }
        else if c.fault < 0 then .returned { rc := c.fault }
        else if mtRequestResponseUnionSize < len then .overrun
        else
          match copyFromUser u.copied len with
          | none => .returned { rc := -efault, copied := len }
          | some bytes => writeCopied s t r (decodeRequest bytes) len c

/-! ## What is asked of it -/

/-- The request in a slot may be there. -/
def Placeable (len : Nat) (slot : Option MtRequest) : Prop :=
  ∃ req, slot = some req ∧ req.isRequest = true ∧ req.size ≤ mtRequestGenericSize ∧ req.size ≤ len

/-- An error, and nothing is published; or the request that is placed on the ring is
valid and fits, and so do the accepts for all INSs and what goes with them. -/
def Written.Met (len : Nat) (w : Written) : Prop :=
  (w.rc ≠ 0 ∧ w.placed = [] ∧ w.messages = []) ∨
    ((w.accept = true ∨ w.placed ≠ []) ∧ (∀ slot ∈ w.placed, Placeable len slot) ∧
      (∀ req ∈ w.messages, req.isRequest = true ∧ req.size ≤ mtRequestGenericSize) ∧
      w.copied ≤ mtRequestGenericSize)

def WriteOutcome.Met (len : Nat) : WriteOutcome → Prop
  | .blocked => True
  | .overrun => False
  | .returned w => w.Met len

/-- A write whose base is that of an accept. -/
def UserMemory.isAccept (u : UserMemory) : Bool :=
  (copyFromUser u.peeked mtRequestBaseSize).any fun base =>
    decide ((decodeRequest base).type = .socketAccept)

/-- What is written is refused before it is copied. -/
def refusedEarly (t : Table) (r : Nat) (u : UserMemory) (len : Nat) (c : WriteCourse) : Prop :=
  len < mtRequestBaseSize ∨ u.peeked.length < mtRequestBaseSize ∨ c.known = false ∨
    c.interrupted = true ∨ ((t.sock r).stateValid = true ∧ (t.sock r).readExpected = true) ∨
    (t.sock r).insAlive = false ∨ c.fault < 0

/-- The descriptor that the request goes to. -/
def writeTarget (t : Table) (r : Nat) (req : MtRequest) : MwSocketFd :=
  if mwSocketIsFd req.sockfd then req.sockfd else (t.sock r).remoteFd

/-- A request that has been copied is refused: it is longer than what was written,
there is a pending error, its base is not that of a request, there is no ring for
it, or the INS goes before its slot is released. -/
def refusedCopied (s : RequestRings) (t : Table) (r : Nat) (req : MtRequest) (len : Nat)
    (c : WriteCourse) : Prop :=
  len < req.size ∨ (mwsocketPendingError (t.sock r) req.type).1 ≠ 0 ∨
    ({ req with sig := mtSignatureRequest } : MtRequest).isRequest = false ∨
    (s.xen.ringFor (mwSocketClientId (writeTarget t r req))).1 = none ∨ c.course.fate = .gone

/-- The slot that the request gets is that of the INS it was asked from. -/
def slotKept (c : WriteCourse) : Prop :=
  RequestRings.grants true c.course.rounds = true ∧ c.course.fate = .same

namespace RequestRings

variable {s s' : RequestRings} {i : Fin maxInsCount} {slot : Option MtRequest}

theorem pushedSince_same (h : s'.pushed = s.pushed) : s.pushedSince s' = [] := by
  simp [pushedSince, h]

theorem pushedSince_one
    (h : s'.pushed = Function.update s.pushed i (s.pushed i ++ [slot])) :
    s.pushedSince s' = [slot] := by
  have hone (l : List (Fin maxInsCount)) (hnodup : l.Nodup) :
      (l.flatMap fun j => (s'.pushed j).drop (s.pushed j).length) = if i ∈ l then [slot] else [] := by
    induction l with
    | nil => rfl
    | cons j l ih =>
        obtain ⟨hj, hnodup⟩ := List.nodup_cons.mp hnodup
        rw [List.flatMap_cons, ih hnodup, h]
        by_cases hji : j = i
        · subst hji
          simp [hj]
        · simp [Function.update_of_ne hji, Ne.symm hji]
  rw [pushedSince, hone _ (List.nodup_finRange maxInsCount), if_pos (List.mem_finRange i)]

end RequestRings

open RequestRings

variable {s : RequestRings} {t : Table} {r len : Nat} {req : MtRequest} {c : WriteCourse}

/-- A write that fails and publishes nothing. -/
theorem met_failed {rc : Int} {copied : Nat} (hrc : rc ≠ 0) :
    (WriteOutcome.returned { rc := rc, copied := copied }).Met len :=
  Or.inl ⟨hrc, rfl, rfl⟩

/-- A write that publishes nothing but does not fail does not do what is asked. -/
theorem met_unplaced {rc : Int} {copied : Nat} :
    (WriteOutcome.returned { rc := rc, copied := copied }).Met len ↔ rc ≠ 0 := by
  constructor
  · rintro (⟨hrc, -, -⟩ | ⟨haccept | hplaced, -⟩)
    · exact hrc
    · cases haccept
    · exact absurd rfl hplaced
  · exact met_failed

theorem met_placed {rc : Int} {copied : Nat} {slot : Option MtRequest} :
    (WriteOutcome.returned { rc := rc, copied := copied, placed := [slot] }).Met len ↔
      Placeable len slot ∧ copied ≤ mtRequestGenericSize := by
  constructor
  · rintro (⟨-, hplaced, -⟩ | ⟨-, hslots, -, hcopied⟩)
    · cases hplaced
    · exact ⟨hslots slot List.mem_cons_self, hcopied⟩
  · rintro ⟨hslot, hcopied⟩
    refine Or.inr ⟨Or.inr (List.cons_ne_nil _ _), ?_, fun _ h => absurd h List.not_mem_nil, hcopied⟩
    rintro x hx
    obtain rfl := List.mem_singleton.mp hx
    exact hslot

/-- The pending error does not depend on the references to the instance. -/
theorem pendingError_refct (k : SockInst) (n : Int) (type : MtRequestType) :
    mwsocketPendingError { k with refct := n } type =
      ((mwsocketPendingError k type).1, { (mwsocketPendingError k type).2 with refct := n }) := by
  rw [mwsocketPendingError, mwsocketPendingError]
  split_ifs <;> rfl

/-- An instance without a pending error stays as it is. -/
theorem pendingError_none {k : SockInst} {type : MtRequestType}
    (h : (mwsocketPendingError k type).1 = 0) : (mwsocketPendingError k type).2 = k := by
  rw [mwsocketPendingError] at h ⊢
  split_ifs at h ⊢
  · rfl
  · rfl
  · exact absurd h (by assumption)
  · rfl

/-- What comes of the send of a request that is no longer than what was written. -/
theorem sent_met {g : Globals} {a : ActReq} {rc : Int} {g' : Globals} {s' : RequestRings}
    (hsize : a.request.size ≤ len) (halive : (g.socks a.sockinst).insAlive = true)
    (hsent : s.mwsocketSendRequest g a true c.course = some (rc, g', s')) :
    (WriteOutcome.returned { rc := rc, copied := len, placed := s.pushedSince s' }).Met len ↔
      ((g.stampRequest a).isRequest = false ∨
        (s.xen.ringFor (mwSocketClientId (g.stampRequest a).sockfd)).1 = none ∨
        c.course.fate = .gone) ∨ len ≤ mtRequestGenericSize ∧ slotKept c := by
  have hcond {i : Fin maxInsCount} (hvalid : (g.stampRequest a).isRequest = true)
      (hring : (s.xen.ringFor (mwSocketClientId (g.stampRequest a).sockfd)).1 = some i) :
      ((g.stampRequest a).isRequest = false ∨
        (s.xen.ringFor (mwSocketClientId (g.stampRequest a).sockfd)).1 = none ∨
        c.course.fate = .gone) ∨ len ≤ mtRequestGenericSize ∧ slotKept c ↔
      c.course.fate = .gone ∨ len ≤ mtRequestGenericSize ∧ slotKept c := by
    simp [hvalid, hring]
  cases sent hsent with
  | invalid hreq =>
      rw [pushedSince_same rfl]
      exact iff_of_true (met_failed einval_ne) (Or.inl (Or.inl hreq))
  | dead hvalid hdead => exact absurd (halive.symm.trans hdead) (by decide)
  | refused hvalid _ hring =>
      have hnone : s.pushedSince { s with
          xen := (s.xen.ringFor (mwSocketClientId (g.stampRequest a).sockfd)).2 } = [] :=
        pushedSince_same rfl
      rw [hnone]
      exact iff_of_true (met_failed einval_ne) (Or.inl (Or.inr (Or.inl hring)))
  | @late i x hvalid _ hring hlock hgrants hx =>
      obtain ⟨hpushed, hrc⟩ :=
        release_unused s (mwSocketClientId (g.stampRequest a).sockfd) i c.course
      rw [hx] at hpushed hrc
      rw [pushedSince_same hpushed, met_unplaced, hcond hvalid hring, ne_eq, hrc, not_not, slotKept,
        hgrants]
      simp
  | @prepared i x hvalid _ hring hlock hgrants hfree hx =>
      have hreq := (isRequest_routeAccept (stamped g a)
        { a with request := g.stampRequest a }).trans hvalid
      have hwritten :=
        release_written s (mwSocketClientId (g.stampRequest a).sockfd) i hreq c.course
      rw [hx] at hwritten
      rw [hcond hvalid hring, slotKept, hgrants]
      cases hfate : c.course.fate with
      | gone =>
          rw [hfate] at hwritten
          rw [pushedSince_same hwritten.2]
          exact iff_of_true (met_failed hwritten.1) (Or.inl rfl)
      | same =>
          rw [hfate] at hwritten
          -- The request has the size that was compared with the length.
          obtain ⟨fd, hrouted⟩ :=
            Globals.routeAccept_eq (stamped g a) { a with request := g.stampRequest a }
          have hroom : ((stamped g a).routeAccept
              { a with request := g.stampRequest a }).size ≤ len := by
            rw [hrouted]
            exact hsize
          rw [pushedSince_one hwritten.2, met_placed]
          constructor
          · rintro ⟨-, hlen⟩
            exact Or.inr ⟨hlen, rfl, rfl⟩
          · rintro (hgone | ⟨hlen, -⟩)
            · cases hgone
            · exact ⟨⟨_, rfl, hreq, hroom.trans hlen, hroom⟩, hlen⟩
      | other =>
          rw [hfate] at hwritten
          rw [pushedSince_one hwritten.2, met_placed]
          refine iff_of_false ?_ ?_
          · rintro ⟨⟨req, hslot, -⟩, -⟩
            cases hslot
          · rintro (hgone | ⟨-, -, hsame⟩)
            · cases hgone
            · cases hsame

/-- A request that has been copied. -/
theorem writeCopied_met (halive : (t.sock r).insAlive = true)
    (hreturns : writeCopied s t r req len c ≠ .blocked) :
    (writeCopied s t r req len c).Met len ↔
      refusedCopied s t r req len c ∨ len ≤ mtRequestGenericSize ∧ slotKept c := by
  rw [writeCopied] at hreturns ⊢
  cases hcreate : t.g.mwsocketCreateActiveRequest r true false req with
  | none =>
      rw [hcreate] at hreturns
      exact absurd rfl hreturns
  | some x =>
      obtain ⟨g, ref⟩ := x
      obtain ⟨id, hcreated⟩ := Globals.create_inv hcreate
      have hsock : g.socks r = { t.sock r with refct := (t.sock r).refct + 1 } := by
        rw [hcreated.socks, Function.update_self]
        rfl
      rw [hcreate] at hreturns
      simp only [hsock, pendingError_refct] at hreturns ⊢
      split
      · rename_i hlong
        exact iff_of_true (met_failed einval_ne) (Or.inl (Or.inl hlong))
      · rename_i hfits
        split
        · rename_i herror
          exact iff_of_true (met_failed herror) (Or.inl (Or.inr (Or.inl herror)))
        · rename_i hnoerror
          rw [if_neg hfits, if_neg hnoerror] at hreturns
          rw [not_not] at hnoerror
          rw [hcreated.reqAt] at hreturns ⊢
          simp only at hreturns ⊢
          rw [pendingError_none hnoerror] at hreturns ⊢
          let k := { t.sock r with refct := (t.sock r).refct + 1 }
          let a := Globals.newRequest ref id r true false req
          have hself : (g.modifySock r fun _ => k).socks r = k := Function.update_self ..
          cases hsend : s.mwsocketSendRequest (g.modifySock r fun _ => k) a true c.course with
          | none =>
              rw [hsend] at hreturns
              exact absurd rfl hreturns
          | some x =>
              obtain ⟨rc, g', s'⟩ := x
              have hroom : a.request.size ≤ len := Nat.not_lt.mp hfits
              have halive' : ((g.modifySock r fun _ => k).socks a.sockinst).insAlive = true := by
                rw [show a.sockinst = r from rfl, hself]
                exact halive
              have htarget : ((g.modifySock r fun _ => k).stampRequest a).sockfd =
                  writeTarget t r req := by
                simp only [Globals.stampRequest, show a.sockinst = r from rfl, hself]
                rfl
              refine (sent_met hroom halive' hsend).trans ?_
              rw [htarget, refusedCopied]
              simp only [hfits, hnoerror, ne_eq, not_true_eq_false, false_or]
              exact Iff.rfl

/-- A write that is not an accept does what is asked of it exactly when it is refused
early; or its bytes stay in the active request and it is refused then; or it is
no longer than a request and its slot is kept. -/
def WriteMeets (s : RequestRings) (t : Table) (r : Nat) (u : UserMemory) (len : Nat)
    (c : WriteCourse) : Prop :=
  refusedEarly t r u len c ∨
    (len ≤ mtRequestResponseUnionSize ∧
      (u.copied.length < len ∨
        refusedCopied s t r (decodeRequest (u.copied.take len)) len c)) ∨
    len ≤ mtRequestGenericSize ∧ slotKept c

theorem generic_le_union : mtRequestGenericSize ≤ mtRequestResponseUnionSize := by decide

theorem write_plain {u : UserMemory} (hplain : u.isAccept = false)
    (hreturns : mwsocketWrite s t r u len c ≠ .blocked) :
    (mwsocketWrite s t r u len c).Met len ↔ WriteMeets s t r u len c := by
  have hearly {rc : Int} (hrc : rc ≠ 0) (h : refusedEarly t r u len c) :
      (WriteOutcome.returned { rc := rc }).Met len ↔ WriteMeets s t r u len c :=
    iff_of_true (met_failed hrc) (Or.inl h)
  rw [mwsocketWrite] at hreturns ⊢
  split
  · rename_i hshort
    exact hearly (by decide) (Or.inl hshort)
  · rename_i hlen
    rw [if_neg hlen] at hreturns
    by_cases hpeek : u.peeked.length < mtRequestBaseSize
    · rw [copyFromUser, if_neg (Nat.not_le.mpr hpeek)]
      exact hearly (by decide) (Or.inr (Or.inl hpeek))
    · have hbase : copyFromUser u.peeked mtRequestBaseSize =
          some (u.peeked.take mtRequestBaseSize) := if_pos (Nat.not_lt.mp hpeek)
      have htype : ¬ (decodeRequest (u.peeked.take mtRequestBaseSize)).type = .socketAccept := by
        rw [UserMemory.isAccept, hbase] at hplain
        exact of_decide_eq_false hplain
      rw [hbase] at hreturns ⊢
      simp only at hreturns ⊢
      split
      · rename_i hunknown
        exact hearly (by decide) (Or.inr (Or.inr (Or.inl (by simpa using hunknown))))
      · rename_i hknown
        rw [if_neg hknown] at hreturns
        split
        · rename_i hinterrupted
          exact hearly (by decide) (Or.inr (Or.inr (Or.inr (Or.inl hinterrupted))))
        · rename_i hdown
          rw [if_neg hdown] at hreturns
          split
          · rename_i hexpected
            rw [Bool.and_eq_true] at hexpected
            exact hearly (by decide) (Or.inr (Or.inr (Or.inr (Or.inr (Or.inl hexpected)))))
          · rename_i hready
            rw [if_neg hready, if_neg htype] at hreturns
            split
            · rename_i hdead
              rw [Bool.not_eq_true'] at hdead
              exact hearly (by decide) (Or.inr (Or.inr (Or.inr (Or.inr (Or.inr (Or.inl hdead))))))
            · rename_i halive
              rw [if_neg halive] at hreturns
              split
              · rename_i hfault
                exact hearly (Int.ne_of_lt hfault)
                  (Or.inr (Or.inr (Or.inr (Or.inr (Or.inr (Or.inr hfault))))))
              · rename_i hnofault
                rw [if_neg hnofault] at hreturns
                have hnot : ¬ refusedEarly t r u len c := by
                  rw [Bool.and_eq_true] at hready
                  rw [Bool.not_eq_true', Bool.not_eq_false] at hknown halive
                  simp [refusedEarly, hlen, hpeek, hknown, hdown, hready, halive, hnofault]
                rw [WriteMeets, or_iff_right hnot]
                rw [Bool.not_eq_true', Bool.not_eq_false] at halive
                split
                · rename_i hover
                  refine iff_of_false id ?_
                  rintro (⟨hfits, -⟩ | ⟨hfits, -⟩)
                  · exact absurd hover (Nat.not_lt.mpr hfits)
                  · exact absurd hover (Nat.not_lt.mpr (hfits.trans generic_le_union))
                · rename_i hfits
                  rw [if_neg hfits] at hreturns
                  rw [Nat.not_lt] at hfits
                  by_cases hread : u.copied.length < len
                  · rw [copyFromUser, if_neg (Nat.not_le.mpr hread)]
                    exact iff_of_true (met_failed (by decide)) (Or.inl ⟨hfits, Or.inl hread⟩)
                  · have hcopy : copyFromUser u.copied len = some (u.copied.take len) :=
                      if_pos (Nat.not_lt.mp hread)
                    rw [hcopy] at hreturns ⊢
                    refine (writeCopied_met halive hreturns).trans ?_
                    rw [and_iff_right hfits, or_iff_right hread]

/-! ## Accepts -/

/-- The size that the replicator gives to its requests. -/
def Sized (req : MtRequest) : Prop :=
  req.size ≤ mtRequestSocketBindSize ∧
    (req.type = .socketAccept → req.size = mtRequestSocketAcceptSize)

namespace Replication

/-- All that was published is valid, and of the size of its type. -/
def Fitting (s : Replication) : Prop :=
  ∀ p ∈ s.posted, p.request.isRequest = true ∧ Sized p.request

variable {ins : Answers} {s s' : Replication} {p q : Nat} {req : MtRequest} {rc : Int}

theorem Fitting.publish (h : s.Fitting) {a : ActReq} (hsize : Sized a.request) :
    (publish ins s a).1.Fitting := by
  intro x hx
  rw [Replication.publish] at hx
  simp only [List.mem_append, Option.mem_toList, Option.map_eq_some_iff] at hx
  rcases hx with hold | ⟨req, hreq, rfl⟩
  · exact h x hold
  · obtain ⟨fd, heq⟩ := Globals.published_eq hreq
    have hvalid : (s.table.g.stampRequest a).isRequest = true := by
      by_contra hinvalid
      rw [send_unsent _ _ (Bool.eq_false_iff.mpr hinvalid)] at hreq
      cases hreq
    rw [heq]
    exact ⟨hvalid, hsize⟩

theorem Fitting.sendMessage (h : s.Fitting) (hsize : Sized req)
    (hrun : mwsocketSendMessage ins s q req = some (s', rc)) : s'.Fitting := by
  rw [mwsocketSendMessage] at hrun
  split at hrun
  · cases hrun
    exact h
  · obtain ⟨⟨g, ref⟩, hcreate, hrun⟩ := Option.bind_eq_some_iff.mp hrun
    obtain ⟨a, ha, hrun⟩ := Option.map_eq_some_iff.mp hrun
    obtain ⟨id, hcreated⟩ := Globals.create_inv hcreate
    obtain rfl := Option.some.inj (hcreated.reqAt.symm.trans ha)
    have hposted : (Replication.publish ins { s with table := { s.table with g := g } }
        (Globals.newRequest ref id q false true req)).1.Fitting :=
      Fitting.publish (s := { s with table := { s.table with g := g } }) h hsize
    simp only at hrun
    split_ifs at hrun
    all_goals
      cases hrun
      exact hposted

theorem sized_create (t : Table) (p : Nat) (domid : BitVec 16) : Sized (t.createRequest p domid) := by
  refine ⟨(by decide : mtRequestSocketCreateSize ≤ mtRequestSocketBindSize), ?_⟩
  rintro ⟨⟩

theorem Fitting.findOrCreate (h : s.Fitting) {domid : BitVec 16}
    (hrun : findOrCreate ins s p domid = some (s', q, rc)) : s'.Fitting := by
  rw [Replication.findOrCreate] at hrun
  split at hrun
  · cases hrun
    exact h
  · obtain ⟨⟨s₁, rc₁⟩, hsend, heq⟩ := Option.map_eq_some_iff.mp hrun
    have hsent : s₁.Fitting := Fitting.sendMessage
      (s := { s with table := s.table.mwsocketCreateSockinst true }) h (sized_create _ _ _) hsend
    cases heq
    split
    · exact hsent
    · exact hsent

theorem sized_stage {t : Table} {stage : Stage} (hreq : stage.request t p q = some req) :
    Sized req := by
  cases stage with
  | bind =>
      simp only [Stage.request, Option.ite_none_right_eq_some] at hreq
      obtain ⟨-, heq⟩ := hreq
      cases heq
      exact ⟨le_refl _, by rintro ⟨⟩⟩
  | listen =>
      simp only [Stage.request, Option.ite_none_right_eq_some] at hreq
      obtain ⟨-, heq⟩ := hreq
      cases heq
      exact ⟨(by decide : mtRequestSocketListenSize ≤ mtRequestSocketBindSize), by rintro ⟨⟩⟩
  | attrib =>
      simp only [Stage.request, Option.ite_none_right_eq_some] at hreq
      obtain ⟨-, heq⟩ := hreq
      cases heq
      exact ⟨(by decide : mtRequestSocketAttribSize ≤ mtRequestSocketBindSize), by rintro ⟨⟩⟩

theorem Fitting.runStages {l : List Stage} (h : s.Fitting)
    (hrun : runStages ins s p q l = some (s', rc)) : s'.Fitting := by
  induction l generalizing s with
  | nil =>
      cases hrun
      exact h
  | cons stage rest ih =>
      rw [Replication.runStages] at hrun
      split at hrun
      · exact ih h hrun
      · rename_i req hreq
        obtain ⟨⟨s₁, rc₁⟩, hsend, hrest⟩ := Option.bind_eq_some_iff.mp hrun
        have hsent := h.sendMessage (sized_stage hreq) hsend
        simp only at hrest
        split at hrest
        · cases hrest
          exact hsent
        · exact ih hsent hrest

theorem Fitting.sendAccept (h : s.Fitting) {awaits : Bool}
    (hrun : sendAccept ins s p q awaits = some (s', rc)) : s'.Fitting := by
  rw [Replication.sendAccept] at hrun
  split_ifs at hrun
  · cases hrun
    exact h
  · cases hrun
    exact h
  · obtain ⟨⟨g, ref⟩, hcreate, hrun⟩ := Option.bind_eq_some_iff.mp hrun
    obtain ⟨a, ha, heq⟩ := Option.map_eq_some_iff.mp hrun
    obtain ⟨id, hcreated⟩ := Globals.create_inv hcreate
    obtain rfl := Option.some.inj (hcreated.reqAt.symm.trans ha)
    cases heq
    exact Fitting.publish (s := { s with table := { s.table with g := g } }) h
      ⟨(by decide : mtRequestSocketAcceptSize ≤ mtRequestSocketBindSize), fun _ => rfl⟩

theorem Fitting.replicator (h : s.Fitting) {domid : BitVec 16} {awaits : Bool}
    (hrun : mwsocketInsSockReplicator ins s p domid awaits = some (s', rc)) : s'.Fitting := by
  rw [mwsocketInsSockReplicator] at hrun
  split at hrun
  · cases hrun
    exact h
  · obtain ⟨⟨s₁, q, rc₁⟩, hfind, hrun⟩ := Option.bind_eq_some_iff.mp hrun
    have hfound := h.findOrCreate hfind
    simp only at hrun
    split at hrun
    · cases hrun
      exact hfound
    · obtain ⟨⟨s₂, rc₂⟩, hstages, hrun⟩ := Option.bind_eq_some_iff.mp hrun
      have hstaged := hfound.runStages hstages
      simp only at hrun
      split at hrun
      · cases hrun
        exact hstaged
      · obtain ⟨⟨s₃, rc₃⟩, haccept, heq⟩ := Option.map_eq_some_iff.mp hrun
        have haccepted := hstaged.sendAccept haccept
        cases heq
        split
        · exact haccepted
        · exact haccepted

/-- Whatever the INSs answer, all that an accept publishes fits. -/
theorem Fitting.forEach {live : List (BitVec 16)} {awaits : Bool} {rc₀ : Int} (h : s.Fitting)
    (hrun : forEachLiveIns ins p awaits s rc₀ live = some (s', rc)) : s'.Fitting := by
  induction live generalizing s rc₀ with
  | nil =>
      cases hrun
      exact h
  | cons domid live ih =>
      rw [forEachLiveIns] at hrun
      obtain ⟨⟨s₁, rc₁⟩, hone, hrest⟩ := Option.bind_eq_some_iff.mp hrun
      exact ih (h.replicator hone) hrest

end Replication

/-- An accept that is as long as an accept request does what is asked of it. -/
theorem writeAccept_met {awaits : Bool} (hlen : mtRequestSocketAcceptSize ≤ len) :
    (writeAccept s t r awaits c).Met len := by
  rw [writeAccept]
  simp only
  split
  · exact trivial
  · rename_i s' rc hrun
    have hfit : s'.Fitting := by
      refine Replication.Fitting.forEach ?_ hrun
      intro p hp
      cases hp
    rw [List.partition_eq_filter_filter]
    refine Or.inr ⟨Or.inl rfl, ?_, ?_, Nat.zero_le _⟩
    · intro slot hslot
      obtain ⟨req, hreq, rfl⟩ := List.mem_map.mp hslot
      obtain ⟨hposted, htype⟩ := List.mem_filter.mp hreq
      obtain ⟨p, hp, rfl⟩ := List.mem_map.mp hposted
      obtain ⟨hvalid, -, hsize⟩ := hfit p hp
      rw [decide_eq_true_eq] at htype
      refine ⟨p.request, rfl, hvalid, ?_, ?_⟩
      · rw [hsize htype]
        decide
      · rw [hsize htype]
        exact hlen
    · intro req hreq
      obtain ⟨p, hp, rfl⟩ := List.mem_map.mp (List.mem_filter.mp hreq).1
      obtain ⟨hvalid, hsize, -⟩ := hfit p hp
      exact ⟨hvalid, hsize.trans (by decide)⟩

/-- A socket on the INS of domain 5. -/
def socketOnFive : Table where
  g := { socks := fun _ => { remoteFd := mwSocketCreate 5 1, mwflags := MwFlags.user } }
  sockinsts := [0]

/-- Every request gets a slot. -/
def slotsGranted : WriteCourse where
  answers := fun _ => ⟨.granted 0, 1, {}⟩

/-- An accept request goes out. -/
theorem accept_goes_out (awaits : Bool) :
    ∃ w req, writeAccept fullRing socketOnFive 0 awaits slotsGranted = .returned w ∧
      w.placed = [some req] ∧ req.size = mtRequestSocketAcceptSize := by
  cases awaits
  · exact ⟨_, _, rfl, rfl, rfl⟩
  · exact ⟨_, _, rfl, rfl, rfl⟩

/-- A write of an accept comes to the replicator or is refused. -/
theorem write_accept {u : UserMemory} (haccept : u.isAccept = true)
    (hlen : mtRequestBaseSize ≤ len) :
    ∃ awaits, mwsocketWrite s t r u len c =
      if !c.known then .returned { rc := -ebadfd }
      else if c.interrupted then .returned { rc := -eintr }
      else if (t.sock r).stateValid && (t.sock r).readExpected then .returned { rc := -eio }
      else writeAccept s t r awaits c := by
  obtain ⟨base, hbase, htype⟩ := (Option.any_eq_true _ _).mp haccept
  refine ⟨(decodeRequest base).callerWaits, ?_⟩
  rw [mwsocketWrite, if_neg (Nat.not_lt.mpr hlen), hbase]
  simp only [of_decide_eq_true htype, if_true]

/-- A send request with a size of 32, in a buffer of `n` bytes more than its base. -/
def sendBytes (n : Nat) : UserMemory :=
  let bytes : List Byte :=
    leBytes 2 0 ++ leBytes 4 0x420 ++ leBytes 2 32 ++ leBytes 8 0 ++ leBytes 8 0 ++ leBytes 4 0 ++
      List.replicate n 0
  { peeked := bytes, copied := bytes }

/-- The first bytes of an accept. -/
def acceptBytes : UserMemory :=
  let bytes : List Byte :=
    leBytes 2 0 ++ leBytes 4 MtRequestType.socketAccept.code ++ leBytes 2 32 ++ leBytes 8 0 ++
      leBytes 8 0 ++ leBytes 4 0 ++ leBytes 4 0
  { peeked := bytes, copied := bytes }

end Kernel

end MagicWand
