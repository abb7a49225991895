import MagicWand.Foundation.FreshId
import MagicWand.Message

/-!
# Socket instances and active requests of the driver

`mwcomms-socket.c`: the records the kernel driver keeps for a socket
(`mwsocket_instance_t`) and for a request whose response is outstanding
(`mwsocket_active_request_t`), and the functions on them that the file
operations, the response consumer and the monitor share. Each of them runs under
a lock or touches state that its caller owns, so each is one function of the
state; the threads that call them are interleaved in the modules on top.

Assertions only print, so they are left out. Locks that protect a single such
function (`active_request_lock`, `inbound_lock`, `sockinst_lock`) are implicit.
-/

namespace MagicWand.Kernel

open Foundation

abbrev MtId := BitVec 64

/-- `MT_ID_UNSET_VALUE`. -/
def mtIdUnsetValue : MtId := 0

/-- The first entry of the table of INSs, and the second. -/
def insZero : Fin maxInsCount := ⟨0, by decide⟩
def insOne : Fin maxInsCount := ⟨1, by decide⟩

/-! ## Errors -/

def eintr : Int := 4
def eio : Int := 5
def efault : Int := 14
def einval : Int := 22
def enoent : Int := 2

/-! ## Socket flags -/

abbrev MwFlags := BitVec 32

namespace MwFlags

def user : MwFlags := 0x01
def pollable : MwFlags := 0x02
def bound : MwFlags := 0x10
def listening : MwFlags := 0x20
def accept : MwFlags := 0x40
def connected : MwFlags := 0x100
def closed : MwFlags := 0x40000000
def released : MwFlags := 0x80000000

def has (f m : MwFlags) : Bool := f &&& m != 0

theorem has_or (f g m : MwFlags) : (f ||| g).has m = (f.has m || g.has m) := MtFlags.has_or f g m

/-- The flags that tell who has the socket, the user or no one any more, and how
far it has come. -/
def standing : MwFlags := user ||| released ||| bound ||| listening

theorem standing_or (f : MwFlags) {m : MwFlags} (h : m &&& standing = 0) :
    (f ||| m) &&& standing = f &&& standing := by
  have hdistrib : (f ||| m) &&& standing = (f &&& standing) ||| (m &&& standing) := by
    ext i
    simp [Bool.and_or_distrib_right]
  rw [hdistrib, h]
  exact BitVec.or_zero

theorem standing_clear (f : MwFlags) {m : MwFlags} (h : ~~~m &&& standing = standing) :
    (f &&& ~~~m) &&& standing = f &&& standing := by
  rw [BitVec.and_assoc, h]

end MwFlags

/-- The three batch flags that `u_flags` tracks. -/
def batchFlags : MtFlags := MtFlags.batchSendInit ||| MtFlags.batchSend ||| MtFlags.batchSendFini

/-! ## Records -/

/-- `mwsocket_instance_t`, as `mwsocket_create_sockinst` sets it up. A pointer
to an instance is its number; `closeReaders` and `closeWriter` are the state of
`close_lock`, `procExiting` and `procForknoexec` the flags of the process that
owns the socket. -/
structure SockInst where
  localFd : Int := -1
  remoteFd : MwSocketFd := mtInvalidSocketFd
  mwflags : MwFlags := 0
  sockFam : BitVec 32 := 0
  sockType : BitVec 32 := 0
  sockProtocol : BitVec 32 := 0
  bindSockaddr : MtSockaddrIn := {}
  backlog : Int := 0
  deferAccept : BitVec 32 := 0
  inboundList : List Nat := []
  inboundSem : Nat := 0
  userOutstandingAccept : Nat := 0
  usersock : Nat := 0
  pollActive : Option Nat := none
  pollEvents : BitVec 32 := 0
  uFlags : MtFlags := 0
  sendTally : Nat := 0
  pendingErrno : Int := 0
  totSent : Nat := 0
  totRecv : Nat := 0
  refct : Int := 1
  blockid : MtId := 0
  readExpected : Bool := false
  remoteCloseRequested : Bool := false
  remoteSurpriseClose : Bool := false
  insAlive : Bool := true
  closeReaders : Nat := 0
  closeWriter : Bool := false
  closeLockWrite : Bool := false
  closeBlockid : MtId := 0
  requestSem : Nat := 1
  stateValid : Bool := true
  procExiting : Bool := false
  procForknoexec : Bool := false
deriving DecidableEq, Repr

/-- `mwsocket_active_request_t`. `ref` is the address of the record; `arrived`
counts completions that no one has waited for yet. The source keeps request and
response in one union and reads the response only after it has been stored. -/
structure ActReq where
  ref : Nat
  id : MtId
  sockinst : Nat
  deliverResponse : Bool := false
  responsePopulated : Bool := false
  fromUser : Bool := false
  arrived : Nat := 0
  request : MtRequest := {}
  response : MtResponse := {}
deriving DecidableEq, Repr

/-- The part of `mwsocket_globals_t` that belongs to requests and sockets, with
the counter of `mwsocket_get_next_id` and the next unused address. -/
structure Globals where
  counter : MtId := 0
  nextRef : Nat := 0
  activeRequests : List ActReq := []
  socks : Nat → SockInst := fun _ => {}
  pollSockCount : Int := 0

namespace Globals

def modifySock (g : Globals) (r : Nat) (f : SockInst → SockInst) : Globals :=
  { g with socks := Function.update g.socks r (f (g.socks r)) }

def modifyReq (g : Globals) (ref : Nat) (f : ActReq → ActReq) : Globals :=
  { g with activeRequests := g.activeRequests.map fun a => if a.ref = ref then f a else a }

/-- The record at an address. -/
def reqAt (g : Globals) (ref : Nat) : Option ActReq :=
  g.activeRequests.find? fun a => a.ref = ref

@[simp] theorem modifySock_activeRequests (g : Globals) (r : Nat) (f : SockInst → SockInst) :
    (g.modifySock r f).activeRequests = g.activeRequests := rfl

@[simp] theorem modifySock_socks_self (g : Globals) (r : Nat) (f : SockInst → SockInst) :
    (g.modifySock r f).socks r = f (g.socks r) := by
  simp [modifySock]

@[simp] theorem modifyReq_socks (g : Globals) (ref : Nat) (f : ActReq → ActReq) :
    (g.modifyReq ref f).socks = g.socks := rfl

theorem modifySock_socks_ne (g : Globals) {r r' : Nat} (f : SockInst → SockInst) (h : r' ≠ r) :
    (g.modifySock r f).socks r' = g.socks r' := by
  simp [modifySock, h]

/-! ## Active requests -/

/-- The candidate after `c`: the counter is advanced once more when it shows
`MT_ID_UNSET_VALUE`. -/
def nextCandidate (c : MtId) : MtId :=
  if c + 1 = mtIdUnsetValue then c + 1 + 1 else c + 1

/-- `mwsocket_get_next_id`, with at most `fuel` rounds of its loop; the counter
ends on the id that is returned. -/
def mwsocketGetNextId (g : Globals) (fuel : Nat) : Option MtId :=
  FreshId.pick nextCandidate (g.activeRequests.map ActReq.id) fuel g.counter

/-- `mwsocket_create_active_request` for a live INS, together with the fields
its callers fill in before they publish the request. With the lock held, the
loop that draws the id gets as many rounds as it can need. -/
def mwsocketCreateActiveRequest (g : Globals) (sock : Nat) (fromUser deliver : Bool)
    (request : MtRequest) : Option (Globals × Nat) :=
  if (g.socks sock).insAlive then
    (g.mwsocketGetNextId (g.activeRequests.length + 1)).map fun id =>
      ({ g.modifySock sock (fun s => { s with refct := s.refct + 1 }) with
          counter := id
          nextRef := g.nextRef + 1
          activeRequests :=
            { ref := g.nextRef, id := id, sockinst := sock, fromUser := fromUser,
              deliverResponse := deliver, request := request } :: g.activeRequests },
       g.nextRef)
  else none

/-- `mwsocket_destroy_active_request`. An instance whose count drops to 0 is
freed and not read again. -/
def mwsocketDestroyActiveRequest (g : Globals) (a : ActReq) : Globals :=
  { g.modifySock a.sockinst (fun s =>
      { s with
        closeBlockid := if s.closeBlockid = a.id then mtIdUnsetValue else s.closeBlockid
        refct := s.refct - 1 }) with
    activeRequests := g.activeRequests.filter fun x => x.ref ≠ a.ref }

/-- `mwsocket_find_active_request_by_id`. -/
def mwsocketFindActiveRequestById (g : Globals) (id : MtId) : Option ActReq :=
  g.activeRequests.find? fun a => a.id = id

end Globals

/-! ## Errors that wait for the caller -/

/-- `mwsocket_pending_error`: the error to deliver, and the instance after it. -/
def mwsocketPendingError (s : SockInst) (t : MtRequestType) : Int × SockInst :=
  if t = .socketShutdown ∨ t = .socketClose then (0, s)
  else if s.remoteSurpriseClose then (-mwErrorRemoteSurpriseClose, s)
  else if s.pendingErrno ≠ 0 then (s.pendingErrno, { s with pendingErrno := 0 })
  else (0, s)

/-! ## Responses -/

namespace SockInst

/-- Is the owner of the socket dying, and not between `fork` and `exec`? -/
def dying (s : SockInst) : Bool := s.procExiting && !s.procForknoexec

/-- The close lock at the head of `mwsocket_postproc_no_context`. -/
def releaseClose (s : SockInst) (id : MtId) (resp : MtResponse) : SockInst :=
  match resp.type with
  | .of t =>
      if t.closeWaits then
        { s with
          closeBlockid := if s.closeBlockid = id then mtIdUnsetValue else s.closeBlockid
          closeReaders := s.closeReaders - 1 }
      else if t = .socketClose ∧ s.closeLockWrite then
        { s with closeWriter := false, closeLockWrite := false }
      else s
  | .unset => s

/-- The batch part of `mwsocket_postproc_no_context`: the final response of a
batch closes it and takes over the tally, any other response of a batch adds to
it. `count` is 16 bits wide, so the total is cut to 16 bits. -/
def tallySend (s : SockInst) (resp : MtResponse) : SockInst × MtResponse :=
  if resp.type = .of .socketSend then
    if resp.flags.has MtFlags.batchSendFini then
      ({ s with uFlags := s.uFlags &&& ~~~batchFlags },
       { resp with count := (resp.count + s.sendTally) % 2 ^ 16 })
    else if resp.flags.has MtFlags.batchSend then
      ({ s with sendTally := s.sendTally + resp.count }, resp)
    else (s, resp)
  else (s, resp)

/-- A response tells that the remote side has closed. -/
def noteRemoteClosed (s : SockInst) (resp : MtResponse) : SockInst :=
  if resp.flags.has MtFlags.remoteClosed then { s with remoteSurpriseClose := true } else s

/-- What `mwsocket_postproc_no_context` does to the instance for a response of any
status, and the response as it leaves it. -/
def absorb (s : SockInst) (id : MtId) (resp : MtResponse) : SockInst × MtResponse :=
  let r := (s.releaseClose id resp).tallySend resp
  (r.1.noteRemoteClosed resp, r.2)

/-- The switch at the end of `mwsocket_postproc_no_context`, on the instance the
request was made on. -/
def recordSuccess (s : SockInst) (resp : MtResponse) : SockInst :=
  match resp.type with
  | .of .socketCreate => { s with remoteFd := resp.sockfd }
  | .of .socketListen => { s with mwflags := s.mwflags ||| MwFlags.listening }
  | .of .socketBind => { s with mwflags := s.mwflags ||| MwFlags.bound }
  | .of .socketConnect => { s with mwflags := s.mwflags ||| MwFlags.connected }
  | .of .socketSend => { s with totSent := (s.totSent + resp.count) % 2 ^ 64 }
  | .of .socketRecv => { s with totRecv := (s.totRecv + resp.count) % 2 ^ 64 }
  | .of .socketRecvFrom => { s with totRecv := (s.totRecv + resp.count) % 2 ^ 64 }
  | _ => s

end SockInst

/-- Copy the response, unless that is done, and signal `arrived`. -/
def ActReq.deliver (x : ActReq) (resp : MtResponse) : ActReq :=
  { x with
    response := if x.responsePopulated then x.response else resp
    responsePopulated := true
    arrived := x.arrived + 1 }

namespace Globals

/-- The accept case of `mwsocket_postproc_no_context`: store the response and
append the request to the inbound queue of the primary socket. -/
def queueInbound (g : Globals) (a : ActReq) (resp : MtResponse) : Globals :=
  let sock := g.socks a.sockinst
  let g := g.modifySock a.sockinst fun s => { s with mwflags := s.mwflags &&& ~~~MwFlags.accept }
  let g := g.modifyReq a.ref fun x =>
    { x with
      deliverResponse := if sock.remoteCloseRequested then false else x.deliverResponse
      response := resp
      responsePopulated := true }
  g.modifySock sock.usersock fun p =>
    { p with inboundList := p.inboundList ++ [a.ref], inboundSem := p.inboundSem + 1 }

/-- The attribute case: the option is kept on the primary socket. -/
def recordAttrib (g : Globals) (a : ActReq) (resp : MtResponse) : Globals :=
  if resp.type = .of .socketAttrib ∧ resp.name = .deferAccept then
    g.modifySock (g.socks a.sockinst).usersock fun p => { p with deferAccept := resp.val.v32 }
  else g

/-- `mwsocket_postproc_no_context`; the response stays on the ring and is
rewritten in place. -/
def mwsocketPostprocNoContext (g : Globals) (a : ActReq) (resp : MtResponse) :
    Globals × MtResponse :=
  let resp' := ((g.socks a.sockinst).absorb a.id resp).2
  let g := g.modifySock a.sockinst fun s => (s.absorb a.id resp).1
  let g := if resp.type = .of .socketAccept then g.queueInbound a resp' else g
  if resp.status < 0 then (g, resp')
  else ((g.modifySock a.sockinst fun s => s.recordSuccess resp').recordAttrib a resp', resp')

/-- What the response consumer does with a request it has found: destroy it, or
hand the response over and wake up the waiter. -/
def deliverOrDestroy (g : Globals) (a : ActReq) (resp : MtResponse) : Globals :=
  if !a.deliverResponse || (a.fromUser && (g.socks a.sockinst).dying) then
    g.mwsocketDestroyActiveRequest a
  else g.modifyReq a.ref fun x => x.deliver resp

/-- One round of `mwsocket_response_consumer`. A response without a request is
dropped. -/
def mwsocketConsumeResponse (g : Globals) (resp : MtResponse) : Globals :=
  match g.mwsocketFindActiveRequestById resp.id with
  | none => g
  | some a =>
      let (g, resp) := g.mwsocketPostprocNoContext a resp
      match g.reqAt a.ref with
      | none => g
      | some a => g.deliverOrDestroy a resp

end Globals

/-! ## Requests -/

namespace SockInst

/-- The socket part of `mwsocket_pre_process_request` that depends on the type
of the request. -/
def prepare (s : SockInst) (req : MtRequest) : SockInst :=
  match req.type with
  | .socketCreate =>
      { s with sockFam := req.sockFam, sockType := req.sockType, sockProtocol := req.sockProtocol }
  | .socketListen => { s with backlog := req.backlog }
  | .socketBind => { s with bindSockaddr := req.sockaddr }
  | .socketAccept =>
      { s with mwflags := s.mwflags ||| MwFlags.accept, deferAccept := req.opFlags }
  | .socketSend =>
      -- The first request of a possible batch.
      if !s.uFlags.has MtFlags.batchSend && req.flags.has MtFlags.batchSend then
        { s with uFlags := s.uFlags ||| MtFlags.batchSend, sendTally := 0 }
      else s
  | _ => s

/-- The caller will wait for the response: the next operation is a read. -/
def expectRead (s : SockInst) (id : MtId) : SockInst :=
  { s with readExpected := true, blockid := id }

/-- The close lock in `mwsocket_pre_process_request`; `acquired` tells whether a
close that found an id there got the lock. The response that it waited for may
have cleared the id by then. -/
def acquireClose (s : SockInst) (id : MtId) (t : MtRequestType) (acquired : Bool) : SockInst :=
  if t.closeWaits then { s with closeReaders := s.closeReaders + 1, closeBlockid := id }
  else if t = .socketClose then
    { s with
      closeWriter := if acquired then true else s.closeWriter
      closeBlockid := mtIdUnsetValue }
  else s

/-- The socket part of `mwsocket_pre_process_request`. -/
def preProcess (s : SockInst) (id : MtId) (req : MtRequest) (acquired : Bool) : SockInst :=
  ((if req.callerWaits then s.expectRead id else s).acquireClose id req.type acquired).prepare req

end SockInst

namespace Globals

/-- `MW_POLLIN`. -/
def pollIn : BitVec 32 := 0x0001

/-- An accept is routed to the INS on which a sibling has an event. -/
def routeAccept (g : Globals) (a : ActReq) : MtRequest :=
  match a.request.type, (g.socks a.sockinst).pollActive with
  | .socketAccept, some r =>
      if (g.socks a.sockinst).pollEvents &&& pollIn ≠ 0 then
        { a.request with sockfd := (g.socks r).remoteFd }
      else a.request
  | _, _ => a.request

/-- `mwsocket_pre_process_request`. -/
def mwsocketPreProcessRequest (g : Globals) (a : ActReq) (acquired : Bool) : Globals :=
  let waits := a.request.callerWaits
  let routed := g.routeAccept a
  (g.modifySock a.sockinst fun s => s.preProcess a.id a.request acquired).modifyReq a.ref fun x =>
    { x with
      deliverResponse := if waits then true else x.deliverResponse
      request := routed }

/-- `mwsocket_set_pollable(SockInst, false)`. -/
def clearPollable (g : Globals) (r : Nat) : Globals :=
  if (g.socks r).mwflags.has MwFlags.pollable then
    { g.modifySock r (fun s => { s with mwflags := s.mwflags &&& ~~~MwFlags.pollable }) with
      pollSockCount := g.pollSockCount - 1 }
  else g

/-- The base fields `mwsocket_send_request` fills in; a descriptor that is set
is kept. -/
def stampRequest (g : Globals) (a : ActReq) : MtRequest :=
  { a.request with
    sig := mtSignatureRequest
    id := a.id
    sockfd := if mwSocketIsFd a.request.sockfd then a.request.sockfd
      else (g.socks a.sockinst).remoteFd }

/-- What the ring gives `mwsocket_send_request`: no slot (the INS has died or
its ring is not ready), a slot of an INS that dies before the request is pushed,
or a slot with the result of the notification that follows the push. -/
inductive Slot where
  | refused
  | lost
  | granted (notified : Int)
deriving DecidableEq, Repr

/-- `mwsocket_send_request(ActiveRequest, true)`: the state after it, its return
code and the request that it put on the ring. A refused slot gives `-EINVAL`
from `mw_xen_release_request`, and so does an INS that is gone by then, when the
request has been prepared already. -/
def mwsocketSendRequest (g : Globals) (a : ActReq) (slot : Slot) (acquired : Bool) :
    Globals × Int × Option MtRequest :=
  let req := g.stampRequest a
  let a := { a with request := req }
  let g := g.modifyReq a.ref fun x => { x with request := req }
  if !a.request.isRequest then (g, -einval, none)
  else if !(g.socks a.sockinst).insAlive then (g.clearPollable a.sockinst, -einval, none)
  else match slot with
    | .refused =>
        ((g.modifySock a.sockinst fun s => { s with insAlive := false }).clearPollable a.sockinst,
         -einval, none)
    | .lost => (g.mwsocketPreProcessRequest a acquired, -einval, none)
    | .granted notified =>
        let routed := g.routeAccept a
        (g.mwsocketPreProcessRequest a acquired, notified, some routed)

end Globals

/-! ## Netflow -/

/-- The byte counters of `mw_netflow_info_t`. -/
structure NetflowInfo where
  bytesIn : Nat
  bytesOut : Nat
deriving DecidableEq, Repr

/-- The byte counters in `mwsocket_populate_netflow`. -/
def mwsocketPopulateNetflow (s : SockInst) : NetflowInfo where
  bytesIn := s.totRecv
  bytesOut := s.totSent

end MagicWand.Kernel
