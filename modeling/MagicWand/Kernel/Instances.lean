import MagicWand.Kernel.Requests

/-!
# Instances, siblings and the reaper

The lists of `mwcomms-socket.c` that hold the socket instances: the global
`sockinst_list` and, for each user socket, the listeners that were replicated
for it onto other INSs (`sibling_listener_list`). An instance lives until its
reference count drops to 0; `freed` is the history of the instances that
`mwsocket_put_sockinst` has given back.

`mwsocket_reap_dead_sock_instances` walks over both lists with a saved pointer
to the next entry. An active request or an instance is only removed while it is
the current entry, or it is a sibling, which is newer than its user socket and
so stands before it in the list. A walk over an entry that was freed meanwhile
is `none`, and so is a null pointer.
-/

namespace MagicWand.Kernel

open Foundation

structure Table where
  g : Globals := {}
  /-- `sockinst_list`, the newest first. -/
  sockinsts : List Nat := []
  siblings : Nat → List Nat := fun _ => []
  nextSock : Nat := 0
  freed : List Nat := []

namespace Table

def sock (t : Table) (r : Nat) : SockInst := t.g.socks r

def modifySock (t : Table) (r : Nat) (f : SockInst → SockInst) : Table :=
  { t with g := t.g.modifySock r f }

/-- An instance leaves the lists and is freed. -/
def unlink (t : Table) (r : Nat) : Table :=
  { t with
    g := t.g.clearPollable r
    sockinsts := t.sockinsts.filter fun x => x ≠ r
    siblings := fun p => (t.siblings p).filter fun x => x ≠ r
    freed := t.freed ++ [r] }

/-- The table after a change that may drop a reference to `r`: an instance whose
last reference has gone is freed. -/
def settle (t : Table) (r : Nat) (g : Globals) : Table :=
  if (t.sock r).refct ≠ 0 ∧ (g.socks r).refct = 0 then { t with g := g }.unlink r
  else { t with g := g }

/-- `mwsocket_put_sockinst`. -/
def mwsocketPutSockinst (t : Table) (r : Nat) : Table :=
  t.settle r (t.g.modifySock r fun s => { s with refct := s.refct - 1 })

/-- `mwsocket_get_sockinst`. -/
def mwsocketGetSockinst (t : Table) (r : Nat) : Table :=
  t.modifySock r fun s => { s with refct := s.refct + 1 }

/-- `mwsocket_set_pollable(SockInst, true)`. -/
def setPollable (t : Table) (r : Nat) : Table :=
  if (t.sock r).mwflags.has MwFlags.pollable then t
  else
    { t with
      g := { t.g.modifySock r (fun s => { s with mwflags := s.mwflags ||| MwFlags.pollable }) with
        pollSockCount := t.g.pollSockCount + 1 } }

/-- `mwsocket_create_sockinst`, when it succeeds. An instance that cannot be
completed leaves the list again before the function returns. -/
def mwsocketCreateSockinst (t : Table) (pollable : Bool) : Table :=
  let r := t.nextSock
  let t := { t.modifySock r (fun _ => { usersock := r }) with
    sockinsts := r :: t.sockinsts
    nextSock := r + 1 }
  if pollable then t.setPollable r else t

/-- `mwsocket_destroy_active_request`, with the instance it may free. -/
def mwsocketDestroyActiveRequest (t : Table) (a : ActReq) : Table :=
  t.settle a.sockinst (t.g.mwsocketDestroyActiveRequest a)

/-- A round of the response consumer, which may destroy the request. -/
def mwsocketConsumeResponse (t : Table) (resp : MtResponse) : Table :=
  match t.g.mwsocketFindActiveRequestById resp.id with
  | none => t
  | some a => t.settle a.sockinst (t.g.mwsocketConsumeResponse resp)

/-! ## Dead INSs -/

/-- Does `Dead_INS_Array` name the INS of this descriptor? Behind the dead INSs
the array is filled up with zeros. -/
def named (dead : List (BitVec 16)) (fd : MwSocketFd) : Bool :=
  dead.contains (mwSocketClientId fd) ||
    (decide (dead.length < maxInsCount) && mwSocketClientId fd == 0)

/-- The response the reaper makes up for a request of a dead INS. -/
def deadResponse (request : MtRequest) : MtResponse where
  sig := mtSignatureResponse
  type := .of request.type
  size := mtResponseBaseSize
  id := request.id
  sockfd := request.sockfd
  status := -enoent

/-- Post-process and deliver it. -/
def failRequest (t : Table) (a : ActReq) : Table :=
  let (g, resp) := t.g.mwsocketPostprocNoContext a (deadResponse a.request)
  { t with
    g := g.modifyReq a.ref fun x =>
      { x with response := resp, responsePopulated := true, arrived := x.arrived + 1 } }

/-- Request and response share their memory, so an accept is not recognised any
more once its response is there. -/
def isAccept (a : ActReq) : Bool :=
  decide (a.request.type = .socketAccept) && !a.responsePopulated

/-- The first loop of `mwsocket_reap_dead_sock_instances`, for one active
request of a dead INS. -/
def reapRequest (t : Table) (a : ActReq) : Table :=
  if a.deliverResponse then
    if isAccept a && !(t.sock a.sockinst).mwflags.has MwFlags.user then
      t.mwsocketDestroyActiveRequest a
    else if !isAccept a && !a.responsePopulated then t.failRequest a
    else t
  else t.mwsocketDestroyActiveRequest a

def reapRequests (dead : List (BitVec 16)) (t : Table) : List Nat → Table
  | [] => t
  | ref :: rest =>
      match t.g.reqAt ref with
      | none => reapRequests dead t rest
      | some a =>
          if named dead (t.sock a.sockinst).remoteFd then
            reapRequests dead (t.reapRequest a) rest
          else reapRequests dead t rest

/-! ## Failover -/

/-- An active request now refers to user socket `r` instead of sibling `q`. -/
def moveRequest (t : Table) (r q ref : Nat) : Table :=
  ({ t with g := t.g.modifyReq ref fun x => { x with sockinst := r } }.mwsocketPutSockinst
    q).mwsocketGetSockinst r

/-- The requests of the listener that takes over move to the user socket; those
of the user socket are destroyed. -/
def takeOver (t : Table) (r q ref : Nat) : Table :=
  match t.g.reqAt ref with
  | none => t
  | some a =>
      if a.sockinst = r then t.mwsocketDestroyActiveRequest a
      else if a.sockinst = q then t.moveRequest r q ref
      else t

def takeOvers (t : Table) (r q : Nat) (refs : List Nat) : Table :=
  refs.foldl (fun t ref => t.takeOver r q ref) t

/-- The fields that the user socket takes over from its sibling. -/
def adopt (s q : SockInst) : SockInst :=
  { s with
    remoteFd := q.remoteFd
    mwflags := q.mwflags ||| MwFlags.user
    pollEvents := q.pollEvents
    sendTally := q.sendTally
    pendingErrno := q.pendingErrno
    totSent := q.totSent
    totRecv := q.totRecv
    readExpected := q.readExpected
    remoteCloseRequested := q.remoteCloseRequested
    remoteSurpriseClose := q.remoteSurpriseClose
    closeLockWrite := q.closeLockWrite
    closeBlockid := q.closeBlockid }

/-- User socket `r` goes on as its sibling `q`. -/
def failover (t : Table) (r q : Nat) : Table :=
  let t := t.takeOvers r q (t.g.activeRequests.map ActReq.ref)
  let t := (t.modifySock r fun s => adopt s (t.sock q)).mwsocketPutSockinst q
  (t.modifySock r fun s => { s with insAlive := true }).setPollable r

/-- A sibling whose INS is alive. -/
def replacement (t : Table) (dead : List (BitVec 16)) (r : Nat) : Option Nat :=
  (t.siblings r).find? fun q => (t.sock q).insAlive && !named dead (t.sock q).remoteFd

/-- The INS of an instance is dead. -/
def markDead (t : Table) (r : Nat) : Table :=
  { t with g := (t.g.modifySock r fun s => { s with insAlive := false }).clearPollable r }

/-- The second loop, for one instance of a dead INS. -/
def reapSocket (t : Table) (dead : List (BitVec 16)) (r : Nat) : Option Table :=
  let t := t.markDead r
  if (t.sock r).mwflags.has MwFlags.accept then
    if !(t.sock r).mwflags.has MwFlags.user then some (t.mwsocketPutSockinst r)
    else
      match t.replacement dead r with
      | some q => some (t.failover r q)
      | none => (t.g.mwsocketFindActiveRequestById (t.sock r).blockid).map t.failRequest
  else some t

def reapSockets (dead : List (BitVec 16)) (t : Table) : List Nat → Option Table
  | [] => some t
  | r :: rest =>
      if r ∈ t.sockinsts then
        if named dead (t.sock r).remoteFd then
          (t.reapSocket dead r).bind fun t => reapSockets dead t rest
        else reapSockets dead t rest
      else none

/-- `mwsocket_reap_dead_sock_instances`. -/
def mwsocketReapDeadSockInstances (t : Table) (dead : List (BitVec 16)) : Option Table :=
  if dead = [] then some t
  else
    let t := reapRequests dead t (t.g.activeRequests.map ActReq.ref)
    reapSockets dead t t.sockinsts

end Table

end MagicWand.Kernel
