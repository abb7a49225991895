import MagicWand.Kernel.Instances

/-!
# The sockets of the driver

The driver as a transition system over its instances and active requests. The
steps are those that the threads of the driver take with a lock held or on
records of their own: creating and replicating instances, creating, publishing
and destroying active requests, checking for pending errors, consuming a
response, one round of the loop that hands out poll events, one round of each
loop of the reaper, and the puts of `mwsocket_release`. Any thread may take any
of them at any time.

A request stays in flight until its response is consumed or its INS is found
dead; nothing comes from the ring of a dead INS. `log` is the history of what
was put on the rings, with the number of close-waits requests of the same socket
that were in flight and with whether a close gave up waiting for them. `owned`
are the instances whose owner, a file or the replicator, has not let go of its
reference; `building` those that a replication under way has created.
-/

namespace MagicWand.Kernel

open Foundation

/-! ## INSs -/

/-- `DOMID_INVALID`. -/
def domidInvalid : BitVec 16 := 0x7ff4

/-- A domain id that names a domain, as opposed to "any INS". -/
def realDomid (domid : BitVec 16) : Bool :=
  domid != domidInvalid && domid != BitVec.allOnes 16

theorem realDomid_unused : false = true → realDomid 0 = true := nofun

/-- An entry of `g_mwxen_state.ins`. An entry in use has the id of a domain. -/
structure InsData where
  domid : BitVec 16 := 0
  inUse : Bool := false
  isRingReady : Bool := false
  real : inUse = true → realDomid domid = true := by exact realDomid_unused

theorem realDomid_five : realDomid 5 = true := rfl

theorem realDomid_six : realDomid 6 = true := rfl

structure Xen where
  ins : Fin maxInsCount → InsData := fun _ => {}
  currIndex : Nat := 0

namespace Xen

def setIns (x : Xen) (i : Fin maxInsCount) (d : InsData) : Xen :=
  { x with ins := Function.update x.ins i d }

/-- The entry that the counter of `mw_xen_new_socket_rr` shows. -/
def current (x : Xen) : Fin maxInsCount :=
  ⟨x.currIndex % maxInsCount, Nat.mod_lt _ (by decide)⟩

/-- `mw_xen_new_socket_rr`. Its loop looks at the same entry in every round. -/
def mwXenNewSocketRr (x : Xen) : BitVec 16 × Xen :=
  if (x.ins x.current).isRingReady then
    ((x.ins x.current).domid, { x with currIndex := x.currIndex + 1 })
  else ((x.ins insZero).domid, x)

/-- `mw_xen_get_ins_from_domid`. -/
def mwXenGetInsFromDomid (x : Xen) (domid : BitVec 16) : Option (Fin maxInsCount) :=
  ((List.finRange maxInsCount).find? fun i => (x.ins i).domid == domid).filter fun i =>
    (x.ins i).inUse

/-- The choice of the ring in `mw_xen_get_next_request_slot`. -/
def ringFor (x : Xen) (domid : BitVec 16) : Option (Fin maxInsCount) × Xen :=
  let (domid, x) := if realDomid domid then (domid, x) else x.mwXenNewSocketRr
  ((x.mwXenGetInsFromDomid domid).filter fun i => (x.ins i).isRingReady, x)

end Xen

/-! ## State -/

/-- A request on the ring of INS `domid`, sent for instance `sock`. -/
structure Message where
  ref : Nat
  sock : Nat
  domid : BitVec 16
  request : MtRequest
deriving DecidableEq, Repr

structure Publication where
  message : Message
  unanswered : Nat
  gaveUp : Bool
deriving DecidableEq, Repr

structure Sockets where
  table : Table := {}
  xen : Xen := {}
  flight : List Message := []
  log : List Publication := []
  /-- The requests that `mwsocket_send_request` was called for. -/
  sent : List Nat := []
  /-- The instances that the poll monitor has still to visit, and the events. -/
  polling : List Nat × List MtPollsetItem := ([], [])
  owned : Nat → Bool := fun _ => false
  building : List Nat := []
  /-- Instances with an open file, and those whose file is being released. -/
  files : List Nat := []
  closing : List Nat := []

inductive SocketEvent where
  /-- `mwsocket_create_sockinst`, for a file or without one. -/
  | create (file : Bool)
  /-- The instance of an accepted connection. -/
  | accepted (fd : MwSocketFd)
  /-- The socket is given to the user. -/
  | user (r : Nat)
  /-- The replicator creates an instance for user socket `p`, … -/
  | replica
  /-- … makes it a sibling once it exists on the INS, … -/
  | join (p q : Nat)
  /-- … and returns. The socket may also be one that it found: `p` or a sibling. -/
  | replicated (p q : Nat) (failed : Bool)
  | request (sock : Nat) (fromUser deliver : Bool) (request : MtRequest)
  | send (ref : Nat) (slot : Globals.Slot) (acquired : Bool)
  | destroy (ref : Nat)
  /-- The response to the `k`-th request in flight is consumed. -/
  | respond (k : Nat) (response : MtResponse)
  /-- A read or a write looks for a pending error. -/
  | check (r : Nat) (type : MtRequestType)
  | process (r : Nat) (exiting forknoexec : Bool)
  /-- The monitor has the response to a poll query, … -/
  | poll (items : List MtPollsetItem)
  /-- … and visits the next instance. -/
  | visit
  | insFound (i : Fin maxInsCount) (domid : BitVec 16)
  | insReady (i : Fin maxInsCount)
  | insReleased (i : Fin maxInsCount)
  | reapRequest (dead : List (BitVec 16)) (ref : Nat)
  | reapSocket (dead : List (BitVec 16)) (r : Nat)
  | release (r : Nat)
  | releaseSibling (p q : Nat)
  | releaseSelf (r : Nat)

namespace Sockets

def sock (s : Sockets) (r : Nat) : SockInst := s.table.sock r

/-! ## Publishing -/

/-- The close-waits requests of a socket that are in flight. -/
def waiting (s : Sockets) (r : Nat) : List Message :=
  s.flight.filter fun m => decide (m.sock = r) && m.request.type.closeWaits

/-- Does a close on this socket wait, and in vain? -/
def givesUp (k : SockInst) (t : MtRequestType) (acquired : Bool) : Bool :=
  decide (t = .socketClose) && decide (k.closeBlockid ≠ mtIdUnsetValue) && !acquired

/-- `mwsocket_send_request`, which is called once for an active request. The
ring is that of the INS in the descriptor of the request. -/
def send (s : Sockets) (a : ActReq) (slot : Globals.Slot) (acquired : Bool) : Option Sockets :=
  if a.ref ∈ s.sent then none
  else if closeLockFree (s.sock a.sockinst) a.request.type acquired then
    let req := s.table.g.stampRequest a
    let (ring, xen) :=
      if req.isRequest && (s.sock a.sockinst).insAlive then
        s.xen.ringFor (mwSocketClientId req.sockfd)
      else (none, s.xen)
    let slot := if ring.isSome then slot else .refused
    let (g, _, published) := s.table.g.mwsocketSendRequest a slot acquired
    let messages := match ring, published with
      | some i, some req => [Message.mk a.ref a.sockinst (xen.ins i).domid req]
      | _, _ => []
    some { s with
      table := { s.table with g := g }
      xen := xen
      flight := s.flight ++ messages
      log := s.log ++ messages.map fun m =>
        ⟨m, (s.waiting a.sockinst).length, givesUp (s.sock a.sockinst) a.request.type acquired⟩
      sent := s.sent ++ [a.ref] }
  else none

/-- The response to a request in flight. -/
def respond (s : Sockets) (k : Nat) (resp : MtResponse) : Option Sockets :=
  match s.flight[k]? with
  | none => none
  | some m =>
      if resp.count < 2 ^ 16 then
        some { s with
          table := s.table.mwsocketConsumeResponse
            { resp with id := m.request.id, type := .of m.request.type }
          flight := s.flight.eraseIdx k }
      else none

/-! ## Polling -/

/-- One round of the loop in `mwsocket_poll_handle_notifications`. -/
def visit (t : Table) (r : Nat) (items : List MtPollsetItem) : Table :=
  let p := (t.sock r).usersock
  let t := t.modifySock p fun s => { s with pollEvents := 0 }
  match items.find? fun x => x.sockfd = (t.sock r).remoteFd with
  | none => t
  | some x =>
      t.modifySock p fun s => { s with pollEvents := s.pollEvents ||| x.events, pollActive := some r }

/-! ## Steps -/

/-- A new instance, with its owner. -/
def create (s : Sockets) (pollable : Bool) : Sockets :=
  { s with
    table := s.table.mwsocketCreateSockinst pollable
    owned := Function.update s.owned s.table.nextSock true }

/-- The owner lets go of its reference. -/
def letGo (s : Sockets) (r : Nat) : Sockets :=
  { s with table := s.table.mwsocketPutSockinst r, owned := Function.update s.owned r false }

def setFlags (s : Sockets) (r : Nat) (f : MwFlags) : Sockets :=
  { s with table := s.table.modifySock r fun k => { k with mwflags := k.mwflags ||| f } }

/-- The sibling that goes with the INS of `r`: `r` itself, or the one whose
place `r` takes. -/
def reaped (t : Table) (dead : List (BitVec 16)) (r : Nat) : Option Nat :=
  let t := t.markDead r
  if (t.sock r).mwflags.has MwFlags.accept then
    if (t.sock r).mwflags.has MwFlags.user then t.replacement dead r else some r
  else none

def step (s : Sockets) : SocketEvent → Option Sockets
  | .create file =>
      some { s.create file with
        files := if file then s.table.nextSock :: s.files else s.files }
  | .accepted fd =>
      let r := s.table.nextSock
      let s := s.create true
      some { s with
        table := s.table.modifySock r fun k =>
          { k with remoteFd := fd, mwflags := k.mwflags ||| MwFlags.user }
        files := r :: s.files }
  | .user r => if r ∈ s.files then some (s.setFlags r MwFlags.user) else none
  | .replica =>
      some { s.create true with building := s.table.nextSock :: s.building }
  | .join p q =>
      if q ∈ s.building ∧ q ∈ s.table.sockinsts ∧ (s.sock q).usersock = q ∧
          p ∈ s.table.sockinsts ∧ (s.sock p).mwflags.has MwFlags.user then
        some { s with
          table := { s.table.modifySock q (fun k => { k with usersock := p }) with
            siblings := Function.update s.table.siblings p (q :: s.table.siblings p) } }
      else none
  | .replicated p q failed =>
      if q ∈ s.building then
        let s := { s with building := s.building.erase q }
        some (if failed then s.letGo q else s)
      else if q ∈ s.table.sockinsts ∧ (q = p ∨ q ∈ s.table.siblings p) then
        -- The replicator has taken no reference to a socket that it found.
        some (if failed then { s with table := s.table.mwsocketPutSockinst q } else s)
      else none
  | .request sock fromUser deliver request =>
      if sock ∈ s.table.sockinsts then
        (s.table.g.mwsocketCreateActiveRequest sock fromUser deliver request).map fun r =>
          { s with table := { s.table with g := r.1 } }
      else none
  | .send ref slot acquired => (s.table.g.reqAt ref).bind fun a => s.send a slot acquired
  | .destroy ref =>
      (s.table.g.reqAt ref).map fun a =>
        { s with table := s.table.mwsocketDestroyActiveRequest a }
  | .respond k resp => s.respond k resp
  | .check r t =>
      some { s with table := s.table.modifySock r fun k => (mwsocketPendingError k t).2 }
  | .process r exiting forknoexec =>
      some { s with
        table := s.table.modifySock r fun k =>
          { k with procExiting := exiting, procForknoexec := forknoexec } }
  | .poll items =>
      if s.polling.1 = [] then some { s with polling := (s.table.sockinsts, items) } else none
  | .visit =>
      match s.polling with
      | ([], _) => none
      | (r :: rest, items) => some { s with table := visit s.table r items, polling := (rest, items) }
  | .insFound i domid =>
      if h : (s.xen.ins i).inUse = false ∧ realDomid domid = true then
        some { s with xen := s.xen.setIns i { domid := domid, inUse := true, real := fun _ => h.2 } }
      else none
  | .insReady i =>
      if (s.xen.ins i).inUse then
        some { s with xen := s.xen.setIns i { s.xen.ins i with isRingReady := true } }
      else none
  | .insReleased i =>
      some { s with xen := s.xen.setIns i { domid := domidInvalid, inUse := false, real := nofun } }
  | .reapRequest dead ref =>
      match s.table.g.reqAt ref with
      | none => none
      | some a =>
          if dead ≠ [] ∧ Table.named dead (s.sock a.sockinst).remoteFd then
            some { s with
              table := s.table.reapRequest a
              flight := s.flight.filter fun m => m.ref ≠ ref }
          else none
  | .reapSocket dead r =>
      if dead ≠ [] ∧ r ∈ s.table.sockinsts ∧ Table.named dead (s.sock r).remoteFd then
        (s.table.reapSocket dead r).map fun t =>
          { s with
            table := t
            owned := match reaped s.table dead r with
              | some q => Function.update s.owned q false
              | none => s.owned }
      else none
  | .release r =>
      if r ∈ s.files then
        some { s.setFlags r MwFlags.released with
          files := s.files.erase r, closing := r :: s.closing }
      else none
  | .releaseSibling p q =>
      if p ∈ s.closing ∧ q ∈ s.table.siblings p ∧ !(s.sock q).mwflags.has MwFlags.user ∧
          !(s.sock q).mwflags.has MwFlags.released then
        some ((s.setFlags q MwFlags.released).letGo q)
      else none
  | .releaseSelf r =>
      if r ∈ s.closing then some { s.letGo r with closing := s.closing.erase r } else none

/-! ## Inversion -/

/-- What a send does: the request stays where it is, or it goes on the ring of
the INS that its descriptor chooses. -/
inductive Sent (s : Sockets) (a : ActReq) (slot : Globals.Slot) (acquired : Bool) :
    Sockets → Prop where
  | kept (slot' : Globals.Slot) (x : Xen) (hslot : slot' = slot ∨ slot' = .refused)
      (hnone : (s.table.g.mwsocketSendRequest a slot' acquired).2.2 = none) :
      Sent s a slot acquired { s with
        table := { s.table with g := (s.table.g.mwsocketSendRequest a slot' acquired).1 }
        xen := x
        sent := s.sent ++ [a.ref] }
  | published (m : Message) (x : Xen × Fin maxInsCount)
      (hring : s.xen.ringFor (mwSocketClientId (s.table.g.stampRequest a).sockfd) = (some x.2, x.1))
      (href : m.ref = a.ref) (hsock : m.sock = a.sockinst) (hdomid : m.domid = (x.1.ins x.2).domid)
      (hreq : (s.table.g.mwsocketSendRequest a slot acquired).2.2 = some m.request) :
      Sent s a slot acquired { s with
        table := { s.table with g := (s.table.g.mwsocketSendRequest a slot acquired).1 }
        xen := x.1
        flight := s.flight ++ [m]
        log := s.log ++
          [⟨m, (s.waiting a.sockinst).length, givesUp (s.sock a.sockinst) a.request.type acquired⟩]
        sent := s.sent ++ [a.ref] }

theorem send_inv {s s' : Sockets} {a : ActReq} {slot : Globals.Slot} {acquired : Bool}
    (h : s.send a slot acquired = some s') :
    a.ref ∉ s.sent ∧ closeLockFree (s.sock a.sockinst) a.request.type acquired = true ∧
      Sent s a slot acquired s' := by
  simp only [send] at h
  split at h
  · cases h
  · rename_i hnew
    split at h
    · rename_i hfree
      refine ⟨hnew, hfree, ?_⟩
      cases h
      split
      · rcases hring : s.xen.ringFor (mwSocketClientId (s.table.g.stampRequest a).sockfd) with ⟨_ | i, x⟩
        · simpa using Sent.kept .refused x (.inr rfl) (Globals.published_refused s.table.g a acquired)
        · rcases hpub : (s.table.g.mwsocketSendRequest a slot acquired).2.2 with _ | req
          · simpa [hpub] using Sent.kept slot x (.inl rfl) hpub
          · simpa [hpub] using @Sent.published s a slot acquired
              ⟨a.ref, a.sockinst, (x.ins i).domid, req⟩ (x, i) hring rfl rfl rfl hpub
      · simpa using Sent.kept .refused s.xen (.inr rfl) (Globals.published_refused s.table.g a acquired)
    · cases h

/-- The steps, with the conditions under which they are taken. -/
inductive Step (s : Sockets) : SocketEvent → Sockets → Prop where
  | create (file : Bool) :
      Step s (.create file) { s.create file with
        files := if file then s.table.nextSock :: s.files else s.files }
  | accepted (fd : MwSocketFd) :
      Step s (.accepted fd) { s.create true with
        table := (s.create true).table.modifySock s.table.nextSock fun k =>
          { k with remoteFd := fd, mwflags := k.mwflags ||| MwFlags.user }
        files := s.table.nextSock :: s.files }
  | user {r : Nat} (hfile : r ∈ s.files) : Step s (.user r) (s.setFlags r MwFlags.user)
  | replica : Step s .replica { s.create true with building := s.table.nextSock :: s.building }
  | join {p q : Nat} (hnew : q ∈ s.building) (hq : q ∈ s.table.sockinsts)
      (hown : (s.sock q).usersock = q) (hp : p ∈ s.table.sockinsts)
      (huser : (s.sock p).mwflags.has MwFlags.user = true) :
      Step s (.join p q) { s with
        table := { s.table.modifySock q (fun k => { k with usersock := p }) with
          siblings := Function.update s.table.siblings p (q :: s.table.siblings p) } }
  | built {p q : Nat} (hnew : q ∈ s.building) :
      Step s (.replicated p q false) { s with building := s.building.erase q }
  | unbuilt {p q : Nat} (hnew : q ∈ s.building) :
      Step s (.replicated p q true) ({ s with building := s.building.erase q }.letGo q)
  | found {p q : Nat} (hold : q ∉ s.building) : Step s (.replicated p q false) s
  | spoilt {p q : Nat} (hold : q ∉ s.building) (hq : q ∈ s.table.sockinsts)
      (hfound : q = p ∨ q ∈ s.table.siblings p) :
      Step s (.replicated p q true) { s with table := s.table.mwsocketPutSockinst q }
  | request {sock : Nat} {fromUser deliver : Bool} {request : MtRequest} {g : Globals} {ref : Nat}
      (hsock : sock ∈ s.table.sockinsts)
      (hc : s.table.g.mwsocketCreateActiveRequest sock fromUser deliver request = some (g, ref)) :
      Step s (.request sock fromUser deliver request) { s with table := { s.table with g := g } }
  | send {ref : Nat} {slot : Globals.Slot} {acquired : Bool} {a : ActReq} {s' : Sockets}
      (ha : s.table.g.reqAt ref = some a) (hs : s.send a slot acquired = some s') :
      Step s (.send ref slot acquired) s'
  | destroy {ref : Nat} {a : ActReq} (ha : s.table.g.reqAt ref = some a) :
      Step s (.destroy ref) { s with table := s.table.mwsocketDestroyActiveRequest a }
  | respond {k : Nat} {resp : MtResponse} {m : Message} (hm : s.flight[k]? = some m)
      (hcount : resp.count < 2 ^ 16) :
      Step s (.respond k resp) { s with
        table := s.table.mwsocketConsumeResponse
          { resp with id := m.request.id, type := .of m.request.type }
        flight := s.flight.eraseIdx k }
  | check (r : Nat) (t : MtRequestType) :
      Step s (.check r t) { s with
        table := s.table.modifySock r fun k => (mwsocketPendingError k t).2 }
  | process (r : Nat) (exiting forknoexec : Bool) :
      Step s (.process r exiting forknoexec) { s with
        table := s.table.modifySock r fun k =>
          { k with procExiting := exiting, procForknoexec := forknoexec } }
  | poll (items : List MtPollsetItem) :
      Step s (.poll items) { s with polling := (s.table.sockinsts, items) }
  | visit {r : Nat} {rest : List Nat} {items : List MtPollsetItem}
      (hnext : s.polling = (r :: rest, items)) :
      Step s .visit { s with table := Sockets.visit s.table r items, polling := (rest, items) }
  | xen {e : SocketEvent} (x : Xen) : Step s e { s with xen := x }
  | reapRequest {dead : List (BitVec 16)} {ref : Nat} {a : ActReq}
      (ha : s.table.g.reqAt ref = some a) :
      Step s (.reapRequest dead ref) { s with
        table := s.table.reapRequest a
        flight := s.flight.filter fun m => m.ref ≠ ref }
  | reapSocket {dead : List (BitVec 16)} {r : Nat} {t : Table} (hr : r ∈ s.table.sockinsts)
      (ht : s.table.reapSocket dead r = some t) :
      Step s (.reapSocket dead r) { s with
        table := t
        owned := match reaped s.table dead r with
          | some q => Function.update s.owned q false
          | none => s.owned }
  | release {r : Nat} (hfile : r ∈ s.files) :
      Step s (.release r) { s.setFlags r MwFlags.released with
        files := s.files.erase r, closing := r :: s.closing }
  | releaseSibling {p q : Nat} (hp : p ∈ s.closing) (hq : q ∈ s.table.siblings p)
      (huser : (s.sock q).mwflags.has MwFlags.user = false)
      (hreleased : (s.sock q).mwflags.has MwFlags.released = false) :
      Step s (.releaseSibling p q) ((s.setFlags q MwFlags.released).letGo q)
  | releaseSelf {r : Nat} (hr : r ∈ s.closing) :
      Step s (.releaseSelf r) { s.letGo r with closing := s.closing.erase r }

theorem step_inv {s s' : Sockets} {e : SocketEvent} (h : s.step e = some s') : Step s e s' := by
  cases e with
  | create file =>
      cases h
      exact .create file
  | accepted fd =>
      cases h
      exact .accepted fd
  | user r =>
      obtain ⟨hfile, heq⟩ := Option.ite_none_right_eq_some.mp h
      cases heq
      exact .user hfile
  | replica =>
      cases h
      exact .replica
  | join p q =>
      simp only [step] at h
      split at h
      · rename_i hc
        cases h
        exact .join hc.1 hc.2.1 hc.2.2.1 hc.2.2.2.1 hc.2.2.2.2
      · cases h
  | replicated p q failed =>
      simp only [step] at h
      split at h
      · rename_i hnew
        cases h
        cases failed with
        | false => exact .built hnew
        | true => exact .unbuilt hnew
      · rename_i hold
        split at h
        · rename_i hc
          cases h
          cases failed with
          | false => exact .found hold
          | true => exact .spoilt hold hc.1 hc.2
        · cases h
  | request sock fromUser deliver req =>
      simp only [step] at h
      split at h
      · rename_i hsock
        obtain ⟨r, hr, rfl⟩ := Option.map_eq_some_iff.mp h
        exact .request hsock hr
      · cases h
  | send ref slot acquired =>
      obtain ⟨a, ha, hs⟩ := Option.bind_eq_some_iff.mp h
      exact .send ha hs
  | destroy ref =>
      obtain ⟨a, ha, rfl⟩ := Option.map_eq_some_iff.mp h
      exact .destroy ha
  | respond k resp =>
      simp only [step, respond] at h
      split at h
      · cases h
      · rename_i m hm
        split at h
        · rename_i hcount
          cases h
          exact .respond hm hcount
        · cases h
  | check r t =>
      cases h
      exact .check r t
  | process r exiting forknoexec =>
      cases h
      exact .process r exiting forknoexec
  | poll items =>
      simp only [step] at h
      split at h
      · cases h
        exact .poll items
      · cases h
  | visit =>
      simp only [step] at h
      split at h
      · cases h
      · rename_i r rest items hnext
        cases h
        exact .visit hnext
  | insFound i domid =>
      simp only [step] at h
      split at h
      · cases h
        exact .xen _
      · cases h
  | insReady i =>
      simp only [step] at h
      split at h
      · cases h
        exact .xen _
      · cases h
  | insReleased i =>
      cases h
      exact .xen _
  | reapRequest dead ref =>
      simp only [step] at h
      split at h
      · cases h
      · rename_i a ha
        split at h
        · cases h
          exact .reapRequest ha
        · cases h
  | reapSocket dead r =>
      simp only [step] at h
      split at h
      · rename_i hc
        obtain ⟨t, ht, rfl⟩ := Option.map_eq_some_iff.mp h
        exact .reapSocket hc.2.1 ht
      · cases h
  | release r =>
      simp only [step] at h
      split at h
      · rename_i hfile
        cases h
        exact .release hfile
      · cases h
  | releaseSibling p q =>
      simp only [step] at h
      split at h
      · rename_i hc
        cases h
        exact .releaseSibling hc.1 hc.2.1 (by simpa using hc.2.2.1) (by simpa using hc.2.2.2)
      · cases h
  | releaseSelf r =>
      simp only [step] at h
      split at h
      · rename_i hr
        cases h
        exact .releaseSelf hr
      · cases h

end Sockets

/-- The driver, with no sockets and no INS at first. -/
def sockets (counter : MtId) : System Sockets SocketEvent where
  init := { table := { g := { counter := counter } } }
  step := Sockets.step

end MagicWand.Kernel
