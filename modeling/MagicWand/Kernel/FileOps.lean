import MagicWand.Foundation.Exchange
import MagicWand.Kernel.Requests

/-!
# File operations on mwsockets

`mwsocket_write`, `mwsocket_read`, `mwsocket_close_remote` and the functions by
which the driver makes requests of its own, of `mwcomms-socket.c`, run by any
number of threads on any sockets, together with the response consumer. A thread
is at one of the places `Pc`; `move` takes it to the next one, with a `Choice`
for what the environment decides: whether a wait is interrupted, whether an
allocation or a copy fails, what the ring does. The consumer finds and
post-processes a response in one step and delivers it in another.

Write and read of one request share the semaphore `request_sem`: a write takes
it, and a write whose response is awaited leaves it to the read. The history
variables `owner`, `opens` and `fouls` tell who has the semaphore, which
exchanges are open, and who gave it back or ended an exchange without having
taken part in it; a read takes over the exchange that is open. `trace` records
the requests that were published and the answers to them, `reported` and
`handed` the inbound connections that came in and what the reads handed out;
`takers` are the readers between the inbound semaphore and the inbound queue,
`released` the sockets whose file is closed.

User memory does not change during a write. The instance that a successful
accept creates is a fresh one, so it is not recorded.
-/

namespace MagicWand.Kernel

open Foundation

def etime : Int := 62
def enomem : Int := 12

def mtRequestSocketAcceptSize : Nat := mtRequestBaseSize + 4
def mtRequestSocketCloseSize : Nat := mtRequestBaseSize

/-! ## Threads -/

/-- Who makes a request of the driver's own: `mwsocket_handle_attrib`,
`mwsocket_send_message(.., AwaitResponse)` or `mwsocket_send_bare_request`. -/
inductive Sender where
  | attrib
  | message (wait : Bool)
  | bare
deriving DecidableEq, Repr

/-- The types of the requests that it makes. -/
def Sender.asks : Sender → MtRequestType → Bool
  | .attrib, t => decide (t = .socketAttrib)
  | .message _, t =>
      decide (t ∈ [MtRequestType.socketCreate, .socketBind, .socketListen, .socketAttrib])
  | .bare, t => decide (t = .addrBlock)

/-- Where a thread is. `w`, `r` and `k` stand for `mwsocket_write`,
`mwsocket_read` and `mwsocket_close_remote`, `i` for the requests of the driver's
own. -/
inductive Pc where
  | idle
  | wDown (r : Nat) (req : MtRequest) (len : Nat)
  | wCheck (r : Nat) (req : MtRequest) (len : Nat)
  /-- An accept goes to all INSs; `rc` is what the replicator returned so far,
  `own` whether it has been at the socket itself. -/
  | wReplicate (r : Nat) (req : MtRequest) (rc : Int) (own : Bool)
  | wCreate (r : Nat) (req : MtRequest) (len : Nat)
  | wSend (r len ref : Nat)
  /-- There was no pending error. -/
  | wPublish (r ref : Nat)
  | wFail (r : Nat) (rc : Int) (ref : Option Nat)
  | wUp (r : Nat) (rc : Int) (accept : Bool)
  | rCheck (r len : Nat)
  | rClear (r len : Nat)
  | rFind (r len : Nat)
  | rWait (r len ref : Nat)
  | rInbound (r len p : Nat)
  /-- The inbound semaphore is taken, the entry not yet unlinked. -/
  | rUnlink (r len p : Nat)
  | rSwitch (q len ref : Nat)
  | rDeliver (q len ref : Nat)
  | rExit (q : Nat) (rc : Int) (ref : Option Nat)
  | rUp (q : Nat) (rc : Int)
  | kClose (r : Nat) (wait surprise : Bool)
  /-- No close was requested before. -/
  | kMark (r : Nat) (wait surprise : Bool)
  | kSend (r ref : Nat) (wait surprise : Bool)
  | kWait (r ref : Nat) (surprise : Bool)
  | kEnd (r : Nat) (rc : Int) (ref : Option Nat) (surprise : Bool)
  | iCreate (k : Sender) (r : Nat) (req : MtRequest)
  | iSend (k : Sender) (r ref : Nat)
  | iWait (k : Sender) (r ref : Nat)
  | iEnd (r ref : Nat)
  /-- `mwsocket_send_message` has destroyed the active request and goes on to
  read the status of its response. -/
  | iStale (r ref : Nat)
deriving DecidableEq, Repr

structure Choice where
  interrupted : Bool := false
  /-- The error of an allocation, if it is negative. -/
  fault : Int := 0
  badCopy : Bool := false
  slot : Globals.Slot := .granted 0
  acquired : Bool := false
  /-- The next socket for the replicator. -/
  target : Option Nat := none
  /-- The descriptor of an accepted connection. -/
  fd : Nat := 0
deriving DecidableEq, Repr

/-- A response that a read has copied to its caller. -/
structure Handed where
  thread : Nat
  ref : Nat
  response : MtResponse
deriving DecidableEq, Repr

/-- A request on the ring, sent for instance `sock`; `own` tells whether it
carries the remote descriptor of that instance. -/
structure Posted where
  sock : Nat
  ref : Nat
  own : Bool
  request : MtRequest
deriving DecidableEq, Repr

/-- What passes the ring for instance `sock`. -/
inductive Passage where
  | published (sock : Nat) (type : MtRequestType) (own : Bool)
  | answered (sock : Nat) (type : MtRequestType) (own : Bool)
deriving DecidableEq, Repr

def Posted.published (p : Posted) : Passage := .published p.sock p.request.type p.own

def Posted.answered (p : Posted) : Passage := .answered p.sock p.request.type p.own

structure FileState where
  g : Globals
  pending : List Posted := []
  taken : Option Answer := none
  pc : Nat → Pc := fun _ => .idle
  owner : Nat → Option Nat := fun _ => none
  opens : List (Nat × Nat) := []
  fouls : List (Nat × Nat) := []
  trace : List Passage := []
  reported : List Nat := []
  handed : List Handed := []
  takers : List (Nat × Nat) := []
  released : List Nat := []

inductive FileEvent where
  | write (t r : Nat) (req : MtRequest) (len : Nat)
  | read (t r len : Nat)
  | close (t r : Nat) (wait surprise : Bool)
  | ask (t : Nat) (k : Sender) (r : Nat) (req : MtRequest)
  /-- The file is closed: `mwsocket_release` closes the siblings and the socket. -/
  | release (t r : Nat)
  | move (t : Nat) (c : Choice)
  /-- A listening socket is replicated onto a new INS. -/
  | propagate (p q : Nat) (c : Choice)
  /-- The consumer takes the response to the `k`-th request. -/
  | take (k : Nat) (response : MtResponse)
  | deliver
  /-- The flags of the owning process change. -/
  | process (r : Nat) (exiting forknoexec : Bool)
deriving DecidableEq, Repr

namespace FileState

/-! ## The semaphore and the awaited read -/

/-- The semaphores and the awaited reads of all sockets. -/
def exchange (s : FileState) : Exchange Nat Nat where
  count r := (s.g.socks r).requestSem
  expected r := (s.g.socks r).readExpected
  owner := s.owner
  opens := s.opens
  fouls := s.fouls

/-- The state with the history of an exchange. -/
def record (s : FileState) (g : Globals) (x : Exchange Nat Nat) : FileState :=
  { s with g := g, owner := x.owner, opens := x.opens, fouls := x.fouls }

/-- `down( &sockinst->request_sem )`, once it is free. -/
def down (s : FileState) (r t : Nat) : FileState :=
  s.record (s.g.modifySock r fun k => { k with requestSem := k.requestSem - 1 })
    (s.exchange.down r t)

/-- `up( &sockinst->request_sem )`. -/
def up (s : FileState) (r t : Nat) : FileState :=
  s.record (s.g.modifySock r fun k => { k with requestSem := k.requestSem + 1 })
    (s.exchange.up r t)

/-- `sockinst->read_expected = true`. -/
def expect (s : FileState) (r t : Nat) : FileState :=
  s.record (s.g.modifySock r fun k => { k with readExpected := true }) (s.exchange.expect r t)

/-- `sockinst->read_expected = false`. -/
def clear (s : FileState) (r t : Nat) : FileState :=
  s.record (s.g.modifySock r fun k => { k with readExpected := false }) (s.exchange.clear r t)

/-- A read goes on with the exchange that is open. -/
def handover (s : FileState) (r t : Nat) : FileState := s.record s.g (s.exchange.handover r t)

/-- An update of instance `r` that has no part in the exchanges. -/
def tweak (s : FileState) (r : Nat) (f : SockInst → SockInst) : FileState :=
  { s with g := s.g.modifySock r f }

def goto (s : FileState) (t : Nat) (pc : Pc) : FileState :=
  { s with pc := Function.update s.pc t pc }

/-- `sockinst->state_valid = false`. -/
def invalidate (s : FileState) (r : Nat) : FileState :=
  s.tweak r fun k => { k with stateValid := false }

/-- `user_outstanding_accept` for an accept that is written. -/
def acceptWritten (s : FileState) (r : Nat) : FileState :=
  s.tweak r fun k => { k with userOutstandingAccept := k.userOutstandingAccept + 1 }

/-- `user_outstanding_accept` for an accept that is read. -/
def acceptRead (s : FileState) (r : Nat) : FileState :=
  s.tweak r fun k => { k with userOutstandingAccept := k.userOutstandingAccept - 1 }

/-- The mark that `mwsocket_close_remote` leaves. -/
def requestClose (s : FileState) (r : Nat) : FileState :=
  s.tweak r fun k =>
    { k with remoteCloseRequested := true, mwflags := k.mwflags ||| MwFlags.closed }

/-- The instance as `mwsocket_pending_error` leaves it. -/
def deliverError (s : FileState) (r : Nat) (type : MtRequestType) : FileState :=
  s.tweak r fun k => (mwsocketPendingError k type).2

/-! ## Requests -/

/-- `mwsocket_create_active_request`, with its errors. -/
def create (s : FileState) (r : Nat) (fromUser deliver : Bool) (req : MtRequest) (fault : Int) :
    Option (Except Int (Globals × Nat)) :=
  if !(s.g.socks r).insAlive then some (.error (-einval))
  else if fault < 0 then some (.error fault)
  else (s.g.mwsocketCreateActiveRequest r fromUser deliver req).map .ok

/-- `mwsocket_destroy_active_request`; nothing happens for a null pointer. -/
def destroy (s : FileState) (ref : Option Nat) : FileState :=
  match ref.bind s.g.reqAt with
  | none => s
  | some a => { s with g := s.g.mwsocketDestroyActiveRequest a }

/-- Does a send get as far as `mwsocket_pre_process_request`? -/
def prepares (s : FileState) (a : ActReq) (slot : Globals.Slot) : Bool :=
  (s.g.stampRequest a).isRequest && (s.g.socks a.sockinst).insAlive && decide (slot ≠ .refused)

/-- What a send puts on the ring. -/
def posts (s : FileState) (a : ActReq) (c : Choice) : List Posted :=
  ((s.g.mwsocketSendRequest a c.slot c.acquired).2.2.map fun req =>
    { sock := a.sockinst
      ref := a.ref
      own := decide (req.sockfd = (s.g.socks a.sockinst).remoteFd)
      request := req }).toList

/-- `mwsocket_send_request` by thread `t` that gets past the close lock: the state
after it and its return code. A request whose caller waits opens an exchange. -/
def sent (s : FileState) (t : Nat) (a : ActReq) (c : Choice) : FileState × Int :=
  let r := s.g.mwsocketSendRequest a c.slot c.acquired
  let x := if a.request.callerWaits && s.prepares a c.slot then s.exchange.expect a.sockinst t
    else s.exchange
  ({ s.record r.1 x with
      pending := s.pending ++ s.posts a c
      trace := s.trace ++ (s.posts a c).map Posted.published },
   r.2.1)

/-- `mwsocket_send_request`; it blocks on the close lock. -/
def send (s : FileState) (t : Nat) (a : ActReq) (c : Choice) : Option (FileState × Int) :=
  if closeLockFree (s.g.socks a.sockinst) a.request.type c.acquired then some (s.sent t a c)
  else none

/-- The accept request of `mwsocket_ins_sock_replicator`, for socket `q` and
primary socket `p`. -/
def acceptRequest (g : Globals) (p q : Nat) (waits : Bool) : MtRequest :=
  { type := .socketAccept
    size := mtRequestSocketAcceptSize
    sockfd := (g.socks q).remoteFd
    flags := if waits then MtFlags.pvmCallerAwaitsResponse else 0
    opFlags := (g.socks p).deferAccept }

/-- The end of `mwsocket_ins_sock_replicator`: an accept, unless one is pending
on that socket. An active request that cannot be sent is not destroyed. -/
def replicateAccept (s : FileState) (t p q : Nat) (waits : Bool) (c : Choice) :
    Option (FileState × Int) :=
  if (s.g.socks q).mwflags.has MwFlags.accept then some (s, 0)
  else match s.create q false true (acceptRequest s.g p q waits) c.fault with
    | none => none
    | some (.error rc) => some (s, rc)
    | some (.ok (g, ref)) =>
        match g.reqAt ref with
        | none => none
        | some a => { s with g := g }.send t a c

/-! ## mwsocket_write -/

/-- A write with the semaphore still to be taken, up to the active request. -/
def writeHead (s : FileState) (t : Nat) (c : Choice) : Pc → Option FileState
  | .wDown r req len =>
      if c.interrupted then some ((s.invalidate r).goto t (.wFail r (-eintr) none))
      else if 0 < (s.g.socks r).requestSem then some ((s.down r t).goto t (.wCheck r req len))
      else none
  | .wCheck r req len =>
      if (s.g.socks r).stateValid && (s.g.socks r).readExpected then
        some (s.goto t (.wFail r (-eio) none))
      else if req.type = .socketAccept then
        some ((s.acceptWritten r).goto t (.wReplicate r req 0 false))
      else some (s.goto t (.wCreate r req len))
  | .wReplicate r req rc own =>
      match c.target with
      | some q =>
          if (s.g.socks q).usersock = r then
            (s.replicateAccept t r q (decide (q = r) && req.callerWaits) c).map fun x =>
              x.1.goto t (.wReplicate r req (if x.2 = 0 then rc else x.2) (own || decide (q = r)))
          else none
      | none =>
          -- Every live INS has had its turn, that of the socket itself included.
          if own || !(s.g.socks r).insAlive then
            some ((s.expect r t).goto t (if rc = 0 then .wUp r 0 true else .wFail r rc none))
          else none
  | .wCreate r req len =>
      (s.create r true false req c.fault).map fun
        | .error rc => s.goto t (.wFail r rc none)
        | .ok (g, ref) => { s with g := g }.goto t (.wSend r len ref)
  | _ => none

/-- The rest of a write. -/
def writeTail (s : FileState) (t : Nat) (c : Choice) : Pc → Option FileState
  | .wSend r len ref =>
      match s.g.reqAt ref with
      | none => none
      | some a =>
          if c.badCopy then some (s.goto t (.wFail r (-efault) (some ref)))
          else if len < a.request.size then some (s.goto t (.wFail r (-einval) (some ref)))
          else
            let rc := (mwsocketPendingError (s.g.socks r) a.request.type).1
            some ((s.deliverError r a.request.type).goto t
              (if rc ≠ 0 then .wFail r rc (some ref) else .wPublish r ref))
  | .wPublish r ref =>
      match s.g.reqAt ref with
      | none => none
      | some a =>
          (s.send t a c).map fun x =>
            x.1.goto t (if x.2 = 0 then .wUp r 0 false else .wFail r x.2 (some ref))
  | .wFail r rc ref => some (((s.clear r t).destroy ref).goto t (.wUp r rc false))
  | .wUp r _ _ =>
      if !(s.g.socks r).readExpected || !(s.g.socks r).stateValid then
        some ((s.up r t).goto t .idle)
      else some (s.goto t .idle)
  | _ => none

/-! ## mwsocket_read -/

/-- A completion is waited for. -/
def wake (s : FileState) (ref : Nat) : FileState :=
  { s with g := s.g.modifyReq ref fun x => { x with arrived := x.arrived - 1 } }

/-- `down_interruptible( &sockinst->inbound_sem )`, once it is free. -/
def takeInbound (s : FileState) (t p : Nat) : FileState :=
  { s.tweak p fun k => { k with inboundSem := k.inboundSem - 1 } with
    takers := s.takers ++ [(t, p)] }

def unlinkInbound (s : FileState) (t p : Nat) (rest : List Nat) : FileState :=
  { s.tweak p fun k => { k with inboundList := rest } with takers := s.takers.erase (t, p) }

/-- A read, up to the response. -/
def readHead (s : FileState) (t : Nat) (c : Choice) : Pc → Option FileState
  | .rCheck r len =>
      if (s.g.socks r).stateValid && !(s.g.socks r).readExpected then
        some (s.goto t (.rExit r (-einval) none))
      else some (s.goto t (.rClear r len))
  | .rClear r len => some ((s.clear r t).goto t (.rFind r len))
  | .rFind r len =>
      match s.g.mwsocketFindActiveRequestById (s.g.socks r).blockid with
      | none => some (s.goto t (.rExit r (-enoent) none))
      | some a =>
          if !a.deliverResponse then some (s.goto t (.rExit r (-einval) (some a.ref)))
          else if 0 < (s.g.socks r).userOutstandingAccept then
            some ((s.acceptRead r).goto t (.rInbound r len a.sockinst))
          else some (s.goto t (.rWait r len a.ref))
  | .rWait r len ref =>
      if c.interrupted then some ((s.expect r t).goto t (.rExit r (-eintr) (some ref)))
      else match s.g.reqAt ref with
        | none => none
        | some a =>
            if 0 < a.arrived then
              some ((s.wake ref).goto t (.rDeliver r len ref))
            else none
  | _ => none

/-- `mwsocket_await_inbound_connection` and the switch to the socket of the
inbound request. -/
def readInbound (s : FileState) (t : Nat) (c : Choice) : Pc → Option FileState
  | .rInbound r len p =>
      if c.interrupted then some ((s.invalidate p).goto t (.rExit r (-eintr) none))
      else if 0 < (s.g.socks p).inboundSem then
        some ((s.takeInbound t p).goto t (.rUnlink r len p))
      else none
  | .rUnlink r len p =>
      match (s.g.socks p).inboundList with
      | [] => none
      | ref :: rest =>
          match s.g.reqAt ref with
          | none => none
          | some a =>
              let s := s.unlinkInbound t p rest
              if a.sockinst = r then some (s.goto t (.rDeliver r len ref))
              else some ((s.up r t).goto t (.rSwitch a.sockinst len ref))
  | .rSwitch q len ref =>
      -- The result of this wait is not looked at.
      if c.interrupted then some ((s.clear q t).goto t (.rDeliver q len ref))
      else if 0 < (s.g.socks q).requestSem then
        some (((s.down q t).clear q t).goto t (.rDeliver q len ref))
      else none
  | _ => none

/-- The type of the request a response answers. -/
def answers (resp : MtResponse) : MtRequestType :=
  match resp.type with
  | .of t => t
  | .unset => .invalid

/-- Does the response report a new connection? -/
def isConnection (resp : MtResponse) : Bool :=
  decide (resp.type = .of .socketAccept) && decide (0 ≤ resp.status)

/-- `mwsocket_postproc_in_task`, when the new instance could be created. -/
def mwsocketPostprocInTask (resp : MtResponse) (fd : Nat) : MtResponse :=
  if isConnection resp then { resp with sockfd := BitVec.ofNat 64 fd, status := fd } else resp

/-- A read that has its response. -/
def readTail (s : FileState) (t : Nat) (c : Choice) : Pc → Option FileState
  | .rDeliver q len ref =>
      match s.g.reqAt ref with
      | none => none
      | some a =>
          if len < a.response.size then some (s.goto t (.rExit q (-einval) (some ref)))
          else if isConnection a.response && decide (c.fault < 0) then
            some (s.goto t (.rExit q c.fault (some ref)))
          else
            let resp := mwsocketPostprocInTask a.response c.fd
            let rc := (mwsocketPendingError (s.g.socks q) (answers a.response)).1
            let s := s.deliverError q (answers a.response)
            if rc ≠ 0 then some (s.goto t (.rExit q rc (some ref)))
            else if c.badCopy then some (s.goto t (.rExit q (-efault) (some ref)))
            else some ({ s with handed := s.handed ++ [Handed.mk t ref resp] }.goto t
              (.rExit q resp.size (some ref)))
  | .rExit q rc ref =>
      some ((if rc = -eintr then s else s.destroy ref).goto t (.rUp q rc))
  | .rUp q _ => some ((s.up q t).goto t .idle)
  | _ => none

/-! ## mwsocket_close_remote -/

/-- A close; `surprise` is the mark that `mwsocket_close_by_remote_fd` sets
afterwards. -/
def closeStep (s : FileState) (t : Nat) (c : Choice) : Pc → Option FileState
  | .kClose r wait surprise =>
      if !mwSocketIsFd (s.g.socks r).remoteFd then
        some (s.goto t (.kEnd r (-einval) none surprise))
      else if (s.g.socks r).remoteCloseRequested then some (s.goto t (.kEnd r 0 none surprise))
      else some (s.goto t (.kMark r wait surprise))
  | .kMark r wait surprise =>
      let s := s.requestClose r
      (s.create r false wait { type := .socketClose, size := mtRequestSocketCloseSize }
        c.fault).map fun
        | .error rc => s.goto t (.kEnd r rc none surprise)
        | .ok (g, ref) => { s with g := g }.goto t (.kSend r ref wait surprise)
  | .kSend r ref wait surprise =>
      match s.g.reqAt ref with
      | none => none
      | some a =>
          (s.send t a c).map fun x =>
            x.1.goto t (if x.2 ≠ 0 then .kEnd r x.2 (some ref) surprise
              else if wait then .kWait r ref surprise else .kEnd r 0 none surprise)
  | .kWait r ref surprise =>
      match s.g.reqAt ref with
      | none => none
      | some a =>
          if 0 < a.arrived then some (s.goto t (.kEnd r a.response.status (some ref) surprise))
          else some (s.goto t (.kEnd r (-etime) (some ref) surprise))
  | .kEnd r rc ref surprise =>
      let s := s.destroy ref
      some ((if surprise && decide (rc = 0)
        then s.tweak r fun k => { k with remoteSurpriseClose := true } else s).goto t .idle)
  | _ => none

/-! ## Requests of the driver's own -/

/-- A request that is made for the driver itself. `mwsocket_send_message`
destroys the active request only when the response has come in time. -/
def askStep (s : FileState) (t : Nat) (c : Choice) : Pc → Option FileState
  | .iCreate k r req =>
      (s.create r false (decide (k ≠ .message false)) req c.fault).map fun
        | .error _ => s.goto t .idle
        | .ok (g, ref) => { s with g := g }.goto t (.iSend k r ref)
  | .iSend k r ref =>
      match s.g.reqAt ref with
      | none => none
      | some a =>
          (s.send t a c).map fun x =>
            x.1.goto t (match k with
              | .attrib => if x.2 = 0 then .iWait k r ref else .iEnd r ref
              | .message wait => if x.2 = 0 ∧ wait then .iWait k r ref else .idle
              | .bare => .iEnd r ref)
  | .iWait k r ref =>
      match s.g.reqAt ref with
      | none => none
      | some a =>
          match k with
          | .message _ =>
              if 0 < a.arrived then some ((s.destroy (some ref)).goto t (.iStale r ref))
              else some (s.goto t .idle)
          | _ => some (s.goto t (.iEnd r ref))
  | .iEnd _ ref => some ((s.destroy (some ref)).goto t .idle)
  | .iStale _ _ => some (s.goto t .idle)
  | _ => none

/-! ## The response consumer -/

/-- The head of a round of `mwsocket_response_consumer`. -/
def takeResponse (s : FileState) (k : Nat) (resp : MtResponse) : Option FileState :=
  match s.taken, s.pending[k]? with
  | none, some p =>
      if resp.count < 2 ^ 16 then
        let resp := { resp with id := p.request.id, type := .of p.request.type }
        let s := { s with
          pending := s.pending.eraseIdx k
          trace := s.trace ++ [p.answered]
          reported := if isConnection resp then s.reported ++ [p.ref] else s.reported }
        match s.g.mwsocketFindActiveRequestById resp.id with
        | none => some s
        | some a =>
            let (g, resp') := s.g.mwsocketPostprocNoContext a resp
            some { s with g := g, taken := some ⟨a.ref, resp'⟩ }
      else none
  | _, _ => none

/-- The end of the round, unless the record is gone meanwhile. -/
def deliverResponse (s : FileState) : Option FileState :=
  s.taken.map fun ans =>
    match s.g.reqAt ans.ref with
    | none => { s with taken := none }
    | some a => { s with g := s.g.deliverOrDestroy a ans.response, taken := none }

/-! ## The system -/

def move (s : FileState) (t : Nat) (c : Choice) : Option FileState :=
  match s.pc t with
  | .idle => none
  | .wDown .. | .wCheck .. | .wReplicate .. | .wCreate .. => s.writeHead t c (s.pc t)
  | .wSend .. | .wPublish .. | .wFail .. | .wUp .. => s.writeTail t c (s.pc t)
  | .rCheck .. | .rClear .. | .rFind .. | .rWait .. => s.readHead t c (s.pc t)
  | .rInbound .. | .rUnlink .. | .rSwitch .. => s.readInbound t c (s.pc t)
  | .rDeliver .. | .rExit .. | .rUp .. => s.readTail t c (s.pc t)
  | .kClose .. | .kMark .. | .kSend .. | .kWait .. | .kEnd .. => s.closeStep t c (s.pc t)
  | .iCreate .. | .iSend .. | .iWait .. | .iEnd .. | .iStale .. => s.askStep t c (s.pc t)

/-- A thread that is not in the driver calls it for an open file; only a primary
socket has a file, a sibling has none. -/
def call (s : FileState) (t r : Nat) (pc : Pc) : Option FileState :=
  if s.pc t = .idle ∧ (s.g.socks r).usersock = r ∧ r ∉ s.released then some (s.goto t pc)
  else none

def step (s : FileState) : FileEvent → Option FileState
  | .write t r req len =>
      -- A short buffer is turned down before the socket is looked up.
      if len < mtRequestBaseSize then some s else s.call t r (.wDown r req len)
  | .read t r len => (s.call t r (.rCheck r len)).map fun s => s.handover r t
  | .close t r wait surprise =>
      if s.pc t = .idle then some (s.goto t (.kClose r wait surprise)) else none
  | .ask t k r req =>
      if s.pc t = .idle ∧ k.asks req.type ∧ req.flags = 0 then some (s.goto t (.iCreate k r req))
      else none
  | .release t r =>
      (s.call t r (.kClose r true false)).map fun s => { s with released := s.released ++ [r] }
  | .move t c => s.move t c
  | .propagate p q c =>
      if (s.g.socks q).usersock = p then (s.replicateAccept 0 p q false c).map Prod.fst else none
  | .take k resp => s.takeResponse k resp
  | .deliver => s.deliverResponse
  | .process r exiting forknoexec =>
      some (s.tweak r fun k => { k with procExiting := exiting, procForknoexec := forknoexec })

end FileState

/-- Sockets as `mwsocket_create_sockinst` sets them up, as far as the file
operations go. -/
structure NewSockets (socks : Nat → SockInst) : Prop where
  sem : ∀ r, (socks r).requestSem = 1
  expected : ∀ r, (socks r).readExpected = false
  valid : ∀ r, (socks r).stateValid = true
  inbound : ∀ r, (socks r).inboundList = [] ∧ (socks r).inboundSem = 0
  accepts : ∀ r, (socks r).userOutstandingAccept = 0
  blockid : ∀ r, (socks r).blockid = mtIdUnsetValue

/-- Threads that use any sockets, at any value of the id counter. -/
def fileOps (counter : MtId) (socks : Nat → SockInst) : System FileState FileEvent where
  init := { g := { counter := counter, socks := socks } }
  step := FileState.step

end MagicWand.Kernel
