import MagicWand.Kernel.FileSteps

/-!
# The replicator

`mwsocket_ins_sock_replicator` brings the instance of a user socket on one INS
to where the user socket is: it creates the instance, binds it, makes it listen
and has it accept, each only when the flags say that it is not done yet.
`mwsocket_propogate_listeners` does so for every listening user socket and every
INS. Here a run has the driver to itself: nothing happens but the requests of the
replicator and the responses it waits for. What the INSs answer may depend on
all that was published before.

The replicator adds instances to the list it goes over, but at its head, so it
goes over those that were there at first.
-/

namespace MagicWand.Kernel

open Foundation

def mtRequestSocketCreateSize : Nat := mtRequestBaseSize + 12
def mtRequestSocketBindSize : Nat := mtRequestBaseSize + 24
def mtRequestSocketListenSize : Nat := mtRequestBaseSize + 4
def mtRequestSocketAttribSize : Nat := mtRequestBaseSize + 22

/-! ## Requests and their answers -/

/-- A request that was made for instance `sock`. -/
structure Posting where
  sock : Nat
  request : MtRequest
deriving DecidableEq, Repr

/-- What comes of a request: the slot of the ring, the result of the wait (zero
or less if the response does not come), and the response. -/
structure Reply where
  slot : Globals.Slot
  waited : Int
  response : MtResponse
deriving DecidableEq, Repr

/-- The reply to the last of some requests. -/
abbrev Answers := List Posting → Reply

/-- The driver, and the requests that were published in this run. -/
structure Replication where
  table : Table
  posted : List Posting := []

namespace Table

/-- Destroy the active request at an address. -/
def destroyAt (t : Table) (ref : Nat) : Table :=
  match t.g.reqAt ref with
  | none => t
  | some a => t.mwsocketDestroyActiveRequest a

/-- The status in the response of the active request at an address. -/
def statusAt (t : Table) (ref : Nat) : Int :=
  ((t.g.reqAt ref).map fun a => a.response.status).getD 0

/-- The instance of user socket `p` on an INS: itself, or its first sibling there. -/
def instanceOn (t : Table) (p : Nat) (domid : BitVec 16) : Option Nat :=
  if mwSocketClientId (t.sock p).remoteFd = domid then some p
  else (t.siblings p).find? fun q => decide (mwSocketClientId (t.sock q).remoteFd = domid)

/-- The request that creates the instance of `p` on an INS. -/
def createRequest (t : Table) (p : Nat) (domid : BitVec 16) : MtRequest where
  type := .socketCreate
  size := mtRequestSocketCreateSize
  sockfd := mwSocketCreate domid mtInvalidSocketFd
  sockFam := (t.sock p).sockFam
  sockType := (t.sock p).sockType
  sockProtocol := (t.sock p).sockProtocol

/-- `list_add( &newsock->sibling_listener_list, .. )` and the link back. -/
def addSibling (t : Table) (p q : Nat) : Table :=
  { t.modifySock q fun k => { k with usersock := p } with
    siblings := Function.update t.siblings p (q :: t.siblings p) }

/-- Is this a user socket that listens? -/
def listens (t : Table) (c : Nat) : Bool :=
  (t.sock c).mwflags.has MwFlags.user && (t.sock c).mwflags.has MwFlags.bound &&
    (t.sock c).mwflags.has MwFlags.listening

end Table

/-- The steps for which the replicator waits once the instance exists. -/
inductive Stage where
  | bind
  | listen
  | attrib
deriving DecidableEq, Repr

/-- The request that instance `q` of `p` still needs. -/
def Stage.request (t : Table) (p q : Nat) : Stage → Option MtRequest
  | .bind =>
      if (t.sock p).mwflags.has MwFlags.bound && !(t.sock q).mwflags.has MwFlags.bound then
        some
          { type := .socketBind
            size := mtRequestSocketBindSize
            sockfd := (t.sock q).remoteFd
            sockaddr := (t.sock p).bindSockaddr }
      else none
  | .listen =>
      if (t.sock p).mwflags.has MwFlags.listening && !(t.sock q).mwflags.has MwFlags.listening then
        some
          { type := .socketListen
            size := mtRequestSocketListenSize
            sockfd := (t.sock q).remoteFd
            backlog := (t.sock p).backlog }
      else none
  | .attrib =>
      if 0 < (t.sock p).deferAccept.toInt ∧ ¬ 0 < (t.sock q).deferAccept.toInt then
        some
          { type := .socketAttrib
            size := mtRequestSocketAttribSize
            sockfd := (t.sock q).remoteFd
            modify := true
            name := .deferAccept
            val := { v32 := (t.sock p).deferAccept } }
      else none

namespace Replication

/-! ## The functions of the driver -/

/-- `mwsocket_send_request` with the slot that the ring gives: the state after
it, its return code and the reply. -/
def publish (ins : Answers) (s : Replication) (a : ActReq) : Replication × Int × Reply :=
  let reply := ins (s.posted ++ [⟨a.sockinst, s.table.g.stampRequest a⟩])
  let r := s.table.g.mwsocketSendRequest a reply.slot false
  ({ table := { s.table with g := r.1 }
     posted := s.posted ++ (r.2.2.map (Posting.mk a.sockinst)).toList },
   r.2.1, reply)

/-- `mwsocket_send_message(.., true)`. An active request that cannot be sent, or
whose response does not come, is not destroyed. The status is read from the
record after it has been destroyed; it is still there. -/
def mwsocketSendMessage (ins : Answers) (s : Replication) (q : Nat) (req : MtRequest) :
    Option (Replication × Int) :=
  if !(s.table.sock q).insAlive then some (s, -einval)
  else (s.table.g.mwsocketCreateActiveRequest q false true req).bind fun (g, ref) =>
    (g.reqAt ref).map fun a =>
      let (s, rc, reply) := publish ins { s with table := { s.table with g := g } } a
      if rc ≠ 0 then (s, rc)
      else if reply.waited = 0 then (s, -etime)
      else if reply.waited < 0 then (s, reply.waited)
      else
        let t := s.table.mwsocketConsumeResponse
          { reply.response with id := a.id, type := .of req.type }
        ({ s with table := t.destroyAt ref }, -t.statusAt ref)

/-- `mwsocket_put_sockinst( newsock )` at the end of a replication that failed. -/
def putInstance (s : Replication) (q : Nat) : Replication :=
  { s with table := s.table.mwsocketPutSockinst q }

/-- Find the instance of `p` on an INS, or create it. -/
def findOrCreate (ins : Answers) (s : Replication) (p : Nat) (domid : BitVec 16) :
    Option (Replication × Nat × Int) :=
  match s.table.instanceOn p domid with
  | some q => some (s, q, 0)
  | none =>
      let q := s.table.nextSock
      let req := s.table.createRequest p domid
      (mwsocketSendMessage ins { s with table := s.table.mwsocketCreateSockinst true } q req).map
        fun (s, rc) =>
          (if rc ≠ 0 then s else { s with table := s.table.addSibling p q }, q, rc)

def runStages (ins : Answers) (s : Replication) (p q : Nat) :
    List Stage → Option (Replication × Int)
  | [] => some (s, 0)
  | stage :: rest =>
      match stage.request s.table p q with
      | none => runStages ins s p q rest
      | some req =>
          (mwsocketSendMessage ins s q req).bind fun (s, rc) =>
            if rc ≠ 0 then some (s, rc) else runStages ins s p q rest

/-- The accept, which is not waited for; `awaits` tells whether the caller of an
accept on `p` itself is. -/
def sendAccept (ins : Answers) (s : Replication) (p q : Nat) (awaits : Bool) :
    Option (Replication × Int) :=
  if (s.table.sock q).mwflags.has MwFlags.accept then some (s, 0)
  else if !(s.table.sock q).insAlive then some (s, -einval)
  else
    let req := FileState.acceptRequest s.table.g p q (decide (q = p) && awaits)
    (s.table.g.mwsocketCreateActiveRequest q false true req).bind fun (g, ref) =>
      (g.reqAt ref).map fun a =>
        let r := publish ins { s with table := { s.table with g := g } } a
        (r.1, r.2.1)

/-- `mwsocket_ins_sock_replicator`. -/
def mwsocketInsSockReplicator (ins : Answers) (s : Replication) (p : Nat) (domid : BitVec 16)
    (awaits : Bool) : Option (Replication × Int) :=
  if !(s.table.sock p).mwflags.has MwFlags.user then some (s, -einval)
  else (findOrCreate ins s p domid).bind fun (s, q, rc) =>
    if rc ≠ 0 then some (s.putInstance q, rc)
    else (runStages ins s p q [.bind, .listen, .attrib]).bind fun (s, rc) =>
      if rc ≠ 0 then some (s.putInstance q, rc)
      else (sendAccept ins s p q awaits).map fun (s, rc) =>
        (if rc ≠ 0 then s.putInstance q else s, rc)

/-- `mw_xen_for_each_live_ins`, with the ids of the INSs whose ring is ready. -/
def forEachLiveIns (ins : Answers) (p : Nat) (awaits : Bool) :
    Replication → Int → List (BitVec 16) → Option (Replication × Int)
  | s, rc, [] => some (s, rc)
  | s, rc, domid :: live =>
      (mwsocketInsSockReplicator ins s p domid awaits).bind fun (s, rc2) =>
        forEachLiveIns ins p awaits s (if rc2 ≠ 0 then rc2 else rc) live

/-- The loop of `mwsocket_propogate_listeners`. -/
def propogateFrom (ins : Answers) (live : List (BitVec 16)) :
    Replication → Int → List Nat → Option (Replication × Int)
  | s, rc, [] => some (s, rc)
  | s, rc, curr :: rest =>
      if s.table.listens curr then
        (forEachLiveIns ins curr false s 0 live).bind fun (s, rc) =>
          propogateFrom ins live s rc rest
      else propogateFrom ins live s rc rest

/-- `mwsocket_propogate_listeners`. -/
def mwsocketPropogateListeners (ins : Answers) (live : List (BitVec 16)) (t : Table) :
    Option (Replication × Int) :=
  propogateFrom ins live { table := t } 0 t.sockinsts

end Replication

/-! ## The request at the front -/

namespace Globals

/-- The active request that was made last. -/
structure Front (g : Globals) (a : ActReq) (rest : List ActReq) : Prop where
  requests : g.activeRequests = a :: rest
  apart : ∀ b ∈ rest, b.ref ≠ a.ref

namespace Front

variable {g : Globals} {a : ActReq} {rest : List ActReq}

theorem reqAt (h : Front g a rest) : g.reqAt a.ref = some a := by
  rw [Globals.reqAt, h.requests]
  exact List.find?_cons_of_pos (by simp)

theorem findById (h : Front g a rest) : g.mwsocketFindActiveRequestById a.id = some a := by
  rw [mwsocketFindActiveRequestById, h.requests]
  exact List.find?_cons_of_pos (by simp)

theorem modifyReq (h : Front g a rest) {f : ActReq → ActReq} (hf : (f a).ref = a.ref) :
    Front (g.modifyReq a.ref f) (f a) rest := by
  constructor
  · have hrest : rest.map (fun b => if b.ref = a.ref then f b else b) = rest := by
      refine (List.map_congr_left fun b hb => if_neg (h.apart b hb)).trans ?_
      exact List.map_id' rest
    rw [Globals.modifyReq, h.requests, List.map_cons, if_pos rfl, hrest]
  · rw [hf]
    exact h.apart

theorem of_requests (h : Front g a rest) {g' : Globals}
    (hreqs : g'.activeRequests = g.activeRequests) : Front g' a rest :=
  ⟨hreqs.trans h.requests, h.apart⟩

theorem destroy (h : Front g a rest) : (g.mwsocketDestroyActiveRequest a).activeRequests = rest := by
  rw [mwsocketDestroyActiveRequest]
  simp only [h.requests]
  rw [List.filter_cons_of_neg (by simp)]
  exact List.filter_eq_self.mpr fun b hb => by simpa using h.apart b hb

end Front

theorem Created.front {g g' : Globals} {sock ref : Nat} {fromUser deliver : Bool} {req : MtRequest}
    {id : MtId} (hn : g.Numbered) (h : Created g sock fromUser deliver req g' ref id) :
    Front g' (newRequest ref id sock fromUser deliver req) g.activeRequests := by
  refine ⟨by rw [h.requests, h.ref_eq], fun b hb => ?_⟩
  have hlt := hn.below b.kind (mem_kinds hb)
  rw [newRequest, h.ref_eq]
  exact Nat.ne_of_lt hlt

/-- A request that gets a slot, as it is published. -/
theorem send_granted {g : Globals} {a : ActReq} {rest : List ActReq} (h : Front g a rest)
    (hreq : (g.stampRequest a).isRequest = true) (halive : (g.socks a.sockinst).insAlive = true)
    (n : Int) : ∃ g' fd,
      g.mwsocketSendRequest a (.granted n) false =
        (g', n, some { g.stampRequest a with sockfd := fd }) ∧
      Front g' { a with
        deliverResponse := if a.request.callerWaits then true else a.deliverResponse
        request := { g.stampRequest a with sockfd := fd } } rest ∧
      g'.socks = Function.update g.socks a.sockinst
        ((g.socks a.sockinst).preProcess a.id (g.stampRequest a) false) ∧
      g'.nextRef = g.nextRef := by
  let g₁ := g.modifyReq a.ref fun x => { x with request := g.stampRequest a }
  let b : ActReq := { a with request := g.stampRequest a }
  obtain ⟨fd, hfd⟩ := routeAccept_eq g₁ b
  have hstamp : Front g₁ b rest := h.modifyReq rfl
  refine ⟨g₁.mwsocketPreProcessRequest b false, fd, ?_, ?_, rfl, rfl⟩
  · simp only [mwsocketSendRequest, hreq, halive, modifyReq_socks, Bool.not_true,
      Bool.false_eq_true, if_false]
    rw [Prod.mk.injEq, Prod.mk.injEq]
    exact ⟨rfl, rfl, congrArg some hfd⟩
  · have hsock : Front (g₁.modifySock b.sockinst fun s => s.preProcess b.id b.request false) b rest :=
      hstamp.of_requests rfl
    have hfront := hsock.modifyReq (f := fun x => { x with
      deliverResponse := if b.request.callerWaits then true else x.deliverResponse
      request := g₁.routeAccept b }) rfl
    have hrouted : { g.stampRequest a with sockfd := fd } = g₁.routeAccept b := hfd.symm
    rw [hrouted]
    exact hfront

/-- A success of a request that is neither an accept nor about an attribute. -/
theorem postproc_plain (g : Globals) (a : ActReq) {resp : MtResponse}
    (hacc : resp.type ≠ .of .socketAccept) (hattr : resp.type ≠ .of .socketAttrib)
    (hsend : resp.type ≠ .of .socketSend) (hstatus : 0 ≤ resp.status) :
    (g.mwsocketPostprocNoContext a resp).2 = resp ∧
      (g.mwsocketPostprocNoContext a resp).1 = g.modifySock a.sockinst fun s =>
        ((s.releaseClose a.id resp).noteRemoteClosed resp).recordSuccess resp := by
  have habsorb (s : SockInst) : s.absorb a.id resp =
      ((s.releaseClose a.id resp).noteRemoteClosed resp, resp) := by
    rw [SockInst.absorb, SockInst.tallySend, if_neg hsend]
  simp only [mwsocketPostprocNoContext, habsorb, if_neg hacc, if_neg (Int.not_lt.mpr hstatus)]
  refine ⟨trivial, ?_⟩
  rw [recordAttrib, if_neg fun h => hattr h.1]
  simp only [modifySock, Function.update_self, Function.update_idem]

end Globals

/-! ## Messages that succeed -/

/-- The INSs fail no request, and a new instance is on the INS that was asked. -/
structure Answers.Good (ins : Answers) : Prop where
  granted : ∀ h, (ins h).slot = .granted 0
  waited : ∀ h, 0 < (ins h).waited
  succeeded : ∀ h, (ins h).response.status = 0
  created : ∀ h p, p.request.type = .socketCreate →
    mwSocketClientId (ins (h ++ [p])).response.sockfd = mwSocketClientId p.request.sockfd

/-- What the replicator goes by. -/
structure Profile where
  remoteFd : MwSocketFd
  mwflags : MwFlags
  bindSockaddr : MtSockaddrIn
  backlog : Int
  deferAccept : BitVec 32
  insAlive : Bool
  refct : Int
deriving DecidableEq, Repr

def SockInst.profile (k : SockInst) : Profile where
  remoteFd := k.remoteFd
  mwflags := k.mwflags
  bindSockaddr := k.bindSockaddr
  backlog := k.backlog
  deferAccept := k.deferAccept
  insAlive := k.insAlive
  refct := k.refct

/-- The instance after a create, a bind or a listen that succeeds. -/
def Profile.serve (k : Profile) (req : MtRequest) (fd : MwSocketFd) : Profile :=
  match req.type with
  | .socketCreate => { k with remoteFd := fd }
  | .socketBind =>
      { k with bindSockaddr := req.sockaddr, mwflags := k.mwflags ||| MwFlags.bound }
  | .socketListen =>
      { k with backlog := req.backlog, mwflags := k.mwflags ||| MwFlags.listening }
  | _ => k

/-- The requests that create, bind and listen. -/
structure Plain (req : MtRequest) : Prop where
  type : req.type = .socketCreate ∨ req.type = .socketBind ∨ req.type = .socketListen
  sig : req.sig = mtSignatureRequest
  size : mtRequestBaseSize ≤ req.size
  flags : req.flags = 0

namespace Plain

variable {req : MtRequest}

theorem isRequest (h : Plain req) : req.isRequest = true := by
  have hcode : (req.type.code &&& 0x8000 == 0) = true := by
    rcases h.type with ht | ht | ht <;> rw [ht] <;> decide
  rw [MtRequest.isRequest, h.sig, hcode, Bool.and_eq_true]
  exact ⟨by decide, decide_eq_true h.size⟩

theorem not_waits (h : Plain req) : req.callerWaits = false := by
  rw [MtRequest.callerWaits, h.flags]
  exact MtFlags.has_zero _

theorem not_closeWaits (h : Plain req) : req.type.closeWaits = false := by
  rcases h.type with ht | ht | ht <;> rw [ht] <;> decide

end Plain

namespace SockInst

/-- The instance when a request has been made and sent, and its response has been
post-processed. -/
def answered (k : SockInst) (id : MtId) (req : MtRequest) (resp : MtResponse) : SockInst :=
  ((({ k with refct := k.refct + 1 } : SockInst).preProcess id req false).releaseClose id
    resp).noteRemoteClosed resp |>.recordSuccess resp

/-- The instance when the active request is destroyed. -/
def settled (k : SockInst) (id : MtId) : SockInst :=
  { k with
    closeBlockid := if k.closeBlockid = id then mtIdUnsetValue else k.closeBlockid
    refct := k.refct - 1 }

theorem profile_answered {req : MtRequest} (h : Plain req) (k : SockInst) (id : MtId) {fd : MwSocketFd}
    {resp : MtResponse} (hresp : resp.type = .of req.type) :
    (k.answered id { req with id := id, sockfd := fd } resp).profile =
      { k.profile.serve req resp.sockfd with refct := k.refct + 1 } := by
  have hwaits : ({ req with id := id, sockfd := fd } : MtRequest).callerWaits = false := h.not_waits
  have hclose := h.not_closeWaits
  have hopen : req.type ≠ .socketClose := by
    rcases h.type with ht | ht | ht <;> rw [ht] <;> decide
  have hacquire (s : SockInst) : s.acquireClose id req.type false = s := by
    rw [acquireClose, hclose, if_neg Bool.false_ne_true, if_neg hopen]
  have hrelease (s : SockInst) : s.releaseClose id resp = s := by
    rw [releaseClose, hresp]
    simp only [hclose, hopen, Bool.false_eq_true, false_and, if_false]
  have hnoted (s : SockInst) : (s.noteRemoteClosed resp).profile = s.profile := by
    rw [noteRemoteClosed]
    split
    · rfl
    · rfl
  rw [answered, preProcess, hwaits, if_neg Bool.false_ne_true, hacquire, hrelease]
  let s := ({ k with refct := k.refct + 1 } : SockInst).prepare { req with id := id, sockfd := fd }
  have hs := hnoted s
  show ((s.noteRemoteClosed resp).recordSuccess resp).profile = _
  rcases h.type with ht | ht | ht
  · have hrecord : ((s.noteRemoteClosed resp).recordSuccess resp).profile =
        { (s.noteRemoteClosed resp).profile with remoteFd := resp.sockfd } := by
      rw [recordSuccess, hresp, ht]
      rfl
    rw [hrecord, hs, Profile.serve, ht]
    simp only [s, prepare, ht]
    rfl
  · have hrecord : ((s.noteRemoteClosed resp).recordSuccess resp).profile =
        { (s.noteRemoteClosed resp).profile with
          mwflags := (s.noteRemoteClosed resp).profile.mwflags ||| MwFlags.bound } := by
      rw [recordSuccess, hresp, ht]
      rfl
    rw [hrecord, hs, Profile.serve, ht]
    simp only [s, prepare, ht]
    rfl
  · have hrecord : ((s.noteRemoteClosed resp).recordSuccess resp).profile =
        { (s.noteRemoteClosed resp).profile with
          mwflags := (s.noteRemoteClosed resp).profile.mwflags ||| MwFlags.listening } := by
      rw [recordSuccess, hresp, ht]
      rfl
    rw [hrecord, hs, Profile.serve, ht]
    simp only [s, prepare, ht]
    rfl

/-- The request leaves no reference behind. -/
theorem profile_settled {req : MtRequest} (h : Plain req) (k : SockInst) (id : MtId) {fd : MwSocketFd}
    {resp : MtResponse} (hresp : resp.type = .of req.type) :
    ((k.answered id { req with id := id, sockfd := fd } resp).settled id).profile =
      k.profile.serve req resp.sockfd := by
  have hprofile := @profile_answered _ h k id fd _ hresp
  have hcount : (k.answered id { req with id := id, sockfd := fd } resp).refct = k.refct + 1 :=
    congrArg Profile.refct hprofile
  have hserve : (k.profile.serve req resp.sockfd).refct = k.refct := by
    rw [Profile.serve]
    split
    all_goals rfl
  calc ((k.answered id { req with id := id, sockfd := fd } resp).settled id).profile
      = { (k.answered id { req with id := id, sockfd := fd } resp).profile with
          refct := (k.answered id { req with id := id, sockfd := fd } resp).refct - 1 } := rfl
    _ = { k.profile.serve req resp.sockfd with refct := k.refct } := by
        rw [hprofile, hcount, Int.add_sub_cancel]
    _ = k.profile.serve req resp.sockfd := by rw [← hserve]

/-- An accept that is sent. -/
theorem profile_accept (k : SockInst) {req : MtRequest} (hreq : req.type = .socketAccept)
    (id : MtId) : (k.preProcess id req false).profile =
      { k.profile with mwflags := k.mwflags ||| MwFlags.accept, deferAccept := req.opFlags } := by
  simp only [preProcess, prepare, hreq]
  split
  · rfl
  · rfl

end SockInst

namespace Table

/-- The response to the request at the front is delivered to it, and its active
request is destroyed. -/
theorem consume_front {t : Table} {a : ActReq} {rest : List ActReq} {resp : MtResponse}
    (h : Globals.Front t.g a rest) (hid : resp.id = a.id) (hdeliver : a.deliverResponse = true)
    (huser : a.fromUser = false) (hfresh : a.responsePopulated = false)
    (hacc : resp.type ≠ .of .socketAccept) (hattr : resp.type ≠ .of .socketAttrib)
    (hsend : resp.type ≠ .of .socketSend) (hstatus : 0 ≤ resp.status)
    (hheld : 1 < (t.sock a.sockinst).refct) :
    ∃ g, (t.mwsocketConsumeResponse resp).destroyAt a.ref = { t with g := g } ∧
      (t.mwsocketConsumeResponse resp).statusAt a.ref = resp.status ∧
      g.activeRequests = rest ∧ g.nextRef = t.g.nextRef ∧
      g.socks = Function.update t.g.socks a.sockinst
        ((((t.sock a.sockinst).releaseClose a.id resp).noteRemoteClosed resp).recordSuccess
          resp |>.settled a.id) := by
  obtain ⟨hresp, hpost⟩ := Globals.postproc_plain t.g a hacc hattr hsend hstatus
  let g₁ := (t.g.mwsocketPostprocNoContext a resp).1
  let g₂ := g₁.modifyReq a.ref fun x => x.deliver resp
  let g₃ := g₂.mwsocketDestroyActiveRequest (a.deliver resp)
  have hg₁ : g₁ = t.g.modifySock a.sockinst fun s =>
      ((s.releaseClose a.id resp).noteRemoteClosed resp).recordSuccess resp := hpost
  have hfront₁ : Globals.Front g₁ a rest := h.of_requests (by rw [hg₁]; rfl)
  have hfront₂ : Globals.Front g₂ (a.deliver resp) rest := hfront₁.modifyReq rfl
  have hconsume : t.g.mwsocketConsumeResponse resp = g₂ := by
    rw [Globals.mwsocketConsumeResponse, hid, h.findById]
    simp only [hresp]
    rw [hfront₁.reqAt]
    simp only [Globals.deliverOrDestroy, hdeliver, huser, Bool.not_true, Bool.false_and,
      Bool.or_false, Bool.false_eq_true, if_false]
    rfl
  have hcount (r : Nat) : (g₁.socks r).refct = (t.sock r).refct := refct_postproc t.g a resp r
  have htable : t.mwsocketConsumeResponse resp = { t with g := g₂ } := by
    rw [mwsocketConsumeResponse, hid, h.findById]
    simp only [hconsume]
    exact settle_unchanged a.sockinst (hcount _)
  have hat : g₂.reqAt a.ref = some (a.deliver resp) := hfront₂.reqAt
  have hsocks : g₃.socks = Function.update g₁.socks a.sockinst ((g₁.socks a.sockinst).settled a.id) :=
    rfl
  refine ⟨g₃, ?_, ?_, hfront₂.destroy, ?_, ?_⟩
  · rw [htable, destroyAt, hat]
    simp only [mwsocketDestroyActiveRequest]
    rw [settle, if_neg]
    rintro ⟨-, hzero⟩
    have hleft : (g₃.socks a.sockinst).refct = (g₁.socks a.sockinst).refct - 1 := by
      rw [hsocks, Function.update_self]
      rfl
    have hone := hcount a.sockinst
    have hgone : (g₃.socks a.sockinst).refct = 0 := hzero
    omega
  · rw [htable, statusAt, hat]
    simp only [Option.map_some, Option.getD_some, ActReq.deliver, hfresh, Bool.false_eq_true,
      if_false]
  · show g₁.nextRef = t.g.nextRef
    rw [hg₁]
    rfl
  · rw [hsocks, hg₁]
    simp only [Globals.modifySock, Function.update_self, Function.update_idem]
    rfl

end Table

namespace Replication

/-- A create, bind or listen of instance `q` has succeeded. -/
structure Served (s : Replication) (q : Nat) (req : MtRequest) (s' : Replication) : Prop where
  lists : s'.table = { s.table with g := s'.table.g }
  requests : s'.table.g.activeRequests = s.table.g.activeRequests
  nextRef : s'.table.g.nextRef = s.table.g.nextRef + 1
  others : ∀ c, c ≠ q → s'.table.sock c = s.table.sock c
  self : ∃ fd, (s'.table.sock q).profile = (s.table.sock q).profile.serve req fd ∧
    (req.type = .socketCreate → mwSocketIsFd req.sockfd = true →
      mwSocketClientId fd = mwSocketClientId req.sockfd)
  posted : ∃ id fd, s'.posted = s.posted ++ [⟨q, { req with id := id, sockfd := fd }⟩]

/-- A new request is published, at the front of the active requests. -/
theorem publish_new {ins : Answers} (hins : ins.Good) {s : Replication} {q ref : Nat}
    {req : MtRequest} {g : Globals} {id : MtId} (hn : s.table.g.Numbered)
    (hnew : Globals.Created s.table.g q false true req g ref id)
    (hsig : req.sig = mtSignatureRequest) (hreq : req.isRequest = true)
    (halive : (s.table.sock q).insAlive = true) :
    ∃ g' fd fd₀,
      publish ins { s with table := { s.table with g := g } }
          (Globals.newRequest ref id q false true req) =
        ({ table := { s.table with g := g' }
           posted := s.posted ++ [⟨q, { req with id := id, sockfd := fd }⟩] }, 0,
          ins (s.posted ++ [⟨q, { req with id := id, sockfd := fd₀ }⟩])) ∧
      (mwSocketIsFd req.sockfd = true → fd₀ = req.sockfd) ∧
      Globals.Front g' (Globals.newRequest ref id q false true { req with id := id, sockfd := fd })
        s.table.g.activeRequests ∧
      g'.socks = Function.update s.table.g.socks q
        (({ s.table.sock q with refct := (s.table.sock q).refct + 1 } : SockInst).preProcess id
          { req with id := id, sockfd := fd₀ } false) ∧
      g'.nextRef = s.table.g.nextRef + 1 := by
  let a := Globals.newRequest ref id q false true req
  have hstamped : g.stampRequest a = { req with id := id, sockfd := (g.stampRequest a).sockfd } := by
    rw [Globals.stampRequest, hsig]
    rfl
  have hsock : g.socks q = { s.table.sock q with refct := (s.table.sock q).refct + 1 } := by
    rw [hnew.socks, Function.update_self]
    rfl
  have hisreq : (g.stampRequest a).isRequest = true := by
    rw [hstamped]
    exact hreq
  have hlive : (g.socks a.sockinst).insAlive = true := by
    show (g.socks q).insAlive = true
    rw [hsock]
    exact halive
  obtain ⟨g', fd, hsend, hfront, hsocks, hnext⟩ := Globals.send_granted (hnew.front hn) hisreq hlive 0
  have hdeliver : (if a.request.callerWaits then true else a.deliverResponse) = true := by
    split
    · rfl
    · rfl
  rw [hstamped] at hsend hfront hsocks
  rw [hdeliver] at hfront
  refine ⟨g', fd, (g.stampRequest a).sockfd, ?_, fun hfd => if_pos hfd, hfront, ?_, ?_⟩
  · simp only [publish, hins.granted]
    rw [hstamped, hsend]
    rfl
  · have hsent : g'.socks = Function.update g.socks q ((g.socks q).preProcess id
        { req with id := id, sockfd := (g.stampRequest a).sockfd } false) := hsocks
    rw [hsent, hsock, hnew.socks, Function.update_idem]
  · rw [hnext, hnew.nextRef]

theorem served_of_sendMessage {ins : Answers} (hins : ins.Good) {s s' : Replication} {q : Nat}
    {req : MtRequest} {rc : Int} (hreq : Plain req) (hn : s.table.g.Numbered)
    (halive : (s.table.sock q).insAlive = true) (hheld : 0 < (s.table.sock q).refct)
    (h : mwsocketSendMessage ins s q req = some (s', rc)) : rc = 0 ∧ Served s q req s' := by
  rw [mwsocketSendMessage, halive, if_neg (by decide)] at h
  obtain ⟨⟨g, ref⟩, hcreate, hsent⟩ := Option.bind_eq_some_iff.mp h
  obtain ⟨id, hnew⟩ := Globals.create_inv hcreate
  obtain ⟨g', fd, fd₀, hpub, hkept, hfront, hsocks, hnext⟩ :=
    publish_new hins hn hnew hreq.sig hreq.isRequest halive
  let reply := ins (s.posted ++ [⟨q, { req with id := id, sockfd := fd₀ }⟩])
  have hpos : 0 < reply.waited := hins.waited _
  have hstatus : reply.response.status = 0 := hins.succeeded _
  let t : Table := { s.table with g := g' }
  let resp : MtResponse := { reply.response with id := id, type := .of req.type }
  have hsock : g'.socks q = ({ s.table.sock q with refct := (s.table.sock q).refct + 1 } :
      SockInst).preProcess id { req with id := id, sockfd := fd₀ } false := by
    rw [hsocks, Function.update_self]
  have hheld' : 1 < (t.sock q).refct := by
    show 1 < (g'.socks q).refct
    rw [hsock, SockInst.refct_preProcess]
    show 1 < (s.table.sock q).refct + 1
    omega
  have hother : ∀ ty, ty ≠ .socketCreate → ty ≠ .socketBind → ty ≠ .socketListen →
      resp.type ≠ .of ty := by
    intro ty hc hb hl heq
    have hty : req.type = ty := MtResponseType.of.inj heq
    rcases hreq.type with ht | ht | ht
    · exact hc (hty.symm.trans ht)
    · exact hb (hty.symm.trans ht)
    · exact hl (hty.symm.trans ht)
  obtain ⟨g₂, hdest, hstat, hreqs, hnext₂, hlast⟩ := @Table.consume_front t _ _ resp
    hfront rfl rfl rfl rfl (hother _ (by decide) (by decide) (by decide))
    (hother _ (by decide) (by decide) (by decide)) (hother _ (by decide) (by decide) (by decide))
    (Int.le_of_eq hstatus.symm) hheld'
  let posted := s.posted ++ [⟨q, { req with id := id, sockfd := fd }⟩]
  have hfinal : some (Replication.mk { t with g := g₂ } posted, (0 : Int)) = some (s', rc) := by
    have hdest' : (t.mwsocketConsumeResponse resp).destroyAt ref = { t with g := g₂ } := hdest
    have hstat' : (t.mwsocketConsumeResponse resp).statusAt ref = 0 := hstat.trans hstatus
    simp only [hnew.reqAt, Option.map_some, hpub] at hsent
    rw [if_neg (by decide), if_neg (show ¬ reply.waited = 0 by omega),
      if_neg (show ¬ reply.waited < 0 by omega)] at hsent
    have hread : some (Replication.mk ((t.mwsocketConsumeResponse resp).destroyAt ref) posted,
        -(t.mwsocketConsumeResponse resp).statusAt ref) = some (s', rc) := hsent
    rw [hdest', hstat'] at hread
    exact hread
  cases hfinal
  have hanswered : g₂.socks = Function.update s.table.g.socks q
      (((s.table.sock q).answered id { req with id := id, sockfd := fd₀ } resp).settled id) := by
    have hdone : g₂.socks = Function.update g'.socks q ((((g'.socks q).releaseClose id
        resp).noteRemoteClosed resp).recordSuccess resp |>.settled id) := hlast
    rw [hdone, hsock, hsocks, Function.update_idem]
    rfl
  refine ⟨rfl, rfl, hreqs, ?_, ?_, ⟨reply.response.sockfd, ?_, ?_⟩, ⟨id, fd, rfl⟩⟩
  · show g₂.nextRef = _
    rw [hnext₂]
    exact hnext
  · intro c hc
    show g₂.socks c = s.table.g.socks c
    rw [hanswered, Function.update_of_ne hc]
  · show (g₂.socks q).profile = _
    rw [hanswered, Function.update_self]
    exact SockInst.profile_settled hreq _ _ rfl
  · intro hcreate hfd
    rw [← hkept hfd]
    exact hins.created s.posted ⟨q, { req with id := id, sockfd := fd₀ }⟩ hcreate

/-- An accept of instance `q` for user socket `p` is on the ring. -/
structure Accepting (s : Replication) (p q : Nat) (s' : Replication) : Prop where
  lists : s'.table = { s.table with g := s'.table.g }
  requests : ∃ b, s'.table.g.activeRequests = b :: s.table.g.activeRequests ∧ b.sockinst = q ∧
    b.request.type = .socketAccept ∧ b.responsePopulated = false
  numbered : s'.table.g.Numbered
  others : ∀ c, c ≠ q → s'.table.sock c = s.table.sock c
  self : (s'.table.sock q).profile =
    { (s.table.sock q).profile with
      mwflags := (s.table.sock q).mwflags ||| MwFlags.accept
      deferAccept := (s.table.sock p).deferAccept
      refct := (s.table.sock q).refct + 1 }
  posted : ∃ req, s'.posted = s.posted ++ [⟨q, req⟩] ∧ req.type = .socketAccept

theorem accepting_of_sendAccept {ins : Answers} (hins : ins.Good) {s s' : Replication} {p q : Nat}
    {awaits : Bool} {rc : Int} (hn : s.table.g.Numbered)
    (hflag : (s.table.sock q).mwflags.has MwFlags.accept = false)
    (halive : (s.table.sock q).insAlive = true)
    (h : sendAccept ins s p q awaits = some (s', rc)) : rc = 0 ∧ Accepting s p q s' := by
  rw [sendAccept, hflag, halive, if_neg (by decide), if_neg (by decide)] at h
  obtain ⟨⟨g, ref⟩, hcreate, hsent⟩ := Option.bind_eq_some_iff.mp h
  obtain ⟨id, hnew⟩ := Globals.create_inv hcreate
  let req := FileState.acceptRequest s.table.g p q (decide (q = p) && awaits)
  have hreq : req.isRequest = true := by
    simp only [req, FileState.acceptRequest, MtRequest.isRequest]
    decide
  obtain ⟨g', fd, fd₀, hpub, -, hfront, hsocks, hnext⟩ :=
    publish_new hins hn hnew rfl hreq halive
  have hfinal : some (Replication.mk { s.table with g := g' }
      (s.posted ++ [⟨q, { req with id := id, sockfd := fd }⟩]), (0 : Int)) = some (s', rc) := by
    simp only [hnew.reqAt, Option.map_some, hpub] at hsent
    exact hsent
  cases hfinal
  refine ⟨rfl, rfl, ⟨_, hfront.requests, rfl, rfl, rfl⟩, ?_, ?_, ?_, ⟨_, rfl, rfl⟩⟩
  · have hfiled : g.Numbered := hn.step (Globals.Filing.created hnew)
    have hkinds : g'.kinds = g.kinds := by
      rw [Globals.kinds, Globals.kinds, hfront.requests, (hnew.front hn).requests]
      rfl
    have hnext' : g'.nextRef = g.nextRef := by rw [hnext, hnew.nextRef]
    exact ⟨hkinds ▸ hfiled.refs, hkinds ▸ hfiled.ids, hkinds ▸ hfiled.set,
      hkinds ▸ hnext' ▸ hfiled.below⟩
  · intro c hc
    show g'.socks c = s.table.g.socks c
    rw [hsocks, Function.update_of_ne hc]
  · show (g'.socks q).profile = _
    rw [hsocks, Function.update_self]
    exact SockInst.profile_accept _ rfl _

/-! ## Messages that return -/

/-- As many ids as a run of the replicator can need are free. -/
def Room (s : Replication) (n : Nat) : Prop := s.table.g.activeRequests.length + n < 2 ^ 64

theorem create_returns {g : Globals} {q : Nat} (hroom : g.activeRequests.length + 1 < 2 ^ 64)
    (halive : (g.socks q).insAlive = true) (req : MtRequest) :
    ∃ x, g.mwsocketCreateActiveRequest q false true req = some x ∧ ∃ a, x.1.reqAt x.2 = some a := by
  obtain ⟨id, hid⟩ := g.mwsocketGetNextId_terminates (by omega)
  have hnew : ∃ x, g.mwsocketCreateActiveRequest q false true req = some x := by
    rw [Globals.mwsocketCreateActiveRequest, if_pos halive, hid]
    exact ⟨_, rfl⟩
  obtain ⟨⟨g', ref⟩, hnew⟩ := hnew
  obtain ⟨id', hcreated⟩ := Globals.create_inv hnew
  exact ⟨_, hnew, _, hcreated.reqAt⟩

theorem sendMessage_returns {s : Replication} {q : Nat} (ins : Answers) (hroom : Room s 1)
    (req : MtRequest) : ∃ x, mwsocketSendMessage ins s q req = some x := by
  rw [mwsocketSendMessage]
  split
  · exact ⟨_, rfl⟩
  · rename_i hdead
    have halive : (s.table.sock q).insAlive = true := by simpa using hdead
    obtain ⟨⟨g, ref⟩, hnew, a, ha⟩ := create_returns hroom halive req
    have hat : g.reqAt ref = some a := ha
    simp only [hnew, Option.bind_some, hat, Option.map_some]
    exact ⟨_, rfl⟩

/-! ## What a message returns -/

/-- The status with which an INS answered the last of some requests, if it was
announced to the INS and its response came in time. -/
def lastAnswer (ins : Answers) (posted : List Posting) : Option Int :=
  let reply := ins posted
  if reply.slot = .granted 0 ∧ 0 < reply.waited then some reply.response.status else none

theorem status_postproc (g : Globals) (a : ActReq) (resp : MtResponse) :
    (g.mwsocketPostprocNoContext a resp).2.status = resp.status := by
  have habsorb : ((g.socks a.sockinst).absorb a.id resp).2.status = resp.status := by
    rw [SockInst.absorb, SockInst.tallySend]
    split_ifs <;> rfl
  simp only [Globals.mwsocketPostprocNoContext]
  split <;> exact habsorb

theorem requests_postproc (g : Globals) (a : ActReq) {resp : MtResponse}
    (hacc : resp.type ≠ .of .socketAccept) :
    (g.mwsocketPostprocNoContext a resp).1.activeRequests = g.activeRequests := by
  simp only [Globals.mwsocketPostprocNoContext, if_neg hacc]
  split
  · rfl
  · exact Globals.activeRequests_recordAttrib _ _ _

theorem requests_settle (t : Table) (r : Nat) (g : Globals) :
    (t.settle r g).g.activeRequests = g.activeRequests := by
  rw [Table.settle]
  split
  · show (g.clearPollable r).activeRequests = _
    rw [Globals.clearPollable]
    split <;> rfl
  · rfl

/-- The request made last waits for the response to `id`. -/
structure Awaited (g : Globals) (ref : Nat) (id : MtId) : Prop where
  head : ∃ b rest, g.activeRequests = b :: rest ∧ b.ref = ref ∧ b.id = id ∧
    b.deliverResponse = true ∧ b.fromUser = false ∧ b.responsePopulated = false

theorem Awaited.modifyReq {g : Globals} {ref : Nat} {id : MtId} (h : Awaited g ref id) (r : Nat)
    {f : ActReq → ActReq} (href : ∀ b, (f b).ref = b.ref) (hid : ∀ b, (f b).id = b.id)
    (hdeliver : ∀ b, b.deliverResponse = true → (f b).deliverResponse = true)
    (huser : ∀ b, (f b).fromUser = b.fromUser)
    (hfresh : ∀ b, (f b).responsePopulated = b.responsePopulated) :
    Awaited (g.modifyReq r f) ref id := by
  obtain ⟨b, rest, hreqs, hb⟩ := h.head
  refine ⟨⟨if b.ref = r then f b else b, _, by rw [Globals.modifyReq, hreqs]; rfl, ?_⟩⟩
  split
  · rw [href, hid, huser, hfresh]
    exact ⟨hb.1, hb.2.1, hdeliver b hb.2.2.1, hb.2.2.2⟩
  · exact hb

theorem Awaited.preProcess {g : Globals} {ref : Nat} {id : MtId} (h : Awaited g ref id) (a : ActReq)
    (acquired : Bool) : Awaited (g.mwsocketPreProcessRequest a acquired) ref id := by
  let g' := g.modifySock a.sockinst fun s => s.preProcess a.id a.request acquired
  have hsame : Awaited g' ref id := ⟨h.head⟩
  refine hsame.modifyReq (f := fun x => { x with
      deliverResponse := if a.request.callerWaits then true else x.deliverResponse
      request := g.routeAccept a }) a.ref (fun _ => rfl) (fun _ => rfl) (fun b hb => ?_)
    (fun _ => rfl) (fun _ => rfl)
  simp only
  split
  · rfl
  · exact hb

/-- The response is left with the request that waits for it. -/
theorem reqAt_consume {t : Table} {ref : Nat} {id : MtId} {resp : MtResponse}
    (h : Awaited t.g ref id) (hid : resp.id = id) (hacc : resp.type ≠ .of .socketAccept) :
    ∃ b, (t.mwsocketConsumeResponse resp).g.reqAt ref = some b ∧
      b.response.status = resp.status := by
  obtain ⟨a, rest, hhead, rfl, rfl, hdeliver, huser, hfresh⟩ := h.head
  have hfind : t.g.mwsocketFindActiveRequestById resp.id = some a := by
    rw [Globals.mwsocketFindActiveRequestById, hhead, hid]
    exact List.find?_cons_of_pos (by simp)
  let post := t.g.mwsocketPostprocNoContext a resp
  have hreqs : post.1.activeRequests = a :: rest := (requests_postproc t.g a hacc).trans hhead
  have hat : post.1.reqAt a.ref = some a := by
    rw [Globals.reqAt, hreqs]
    exact List.find?_cons_of_pos (by simp)
  have hconsume : t.g.mwsocketConsumeResponse resp =
      post.1.modifyReq a.ref fun x => x.deliver post.2 := by
    rw [Globals.mwsocketConsumeResponse, hfind]
    simp only [post] at hat
    simp only [hat, Globals.deliverOrDestroy, hdeliver, huser, Bool.not_true, Bool.false_and,
      Bool.or_false, Bool.false_eq_true, if_false]
    rfl
  have hlist : (t.mwsocketConsumeResponse resp).g.activeRequests =
      a.deliver post.2 :: rest.map fun x => if x.ref = a.ref then x.deliver post.2 else x := by
    rw [Table.mwsocketConsumeResponse, hfind]
    simp only
    rw [requests_settle, hconsume, Globals.modifyReq, hreqs, List.map_cons, if_pos rfl]
  refine ⟨a.deliver post.2, ?_, ?_⟩
  · rw [Globals.reqAt, hlist]
    exact List.find?_cons_of_pos (by simp [ActReq.deliver])
  · rw [← status_postproc t.g a resp]
    simp only [ActReq.deliver, hfresh, Bool.false_eq_true, if_false]
    rfl

theorem statusAt_consume {t : Table} {ref : Nat} {id : MtId} {resp : MtResponse}
    (h : Awaited t.g ref id) (hid : resp.id = id) (hacc : resp.type ≠ .of .socketAccept) :
    (t.mwsocketConsumeResponse resp).statusAt ref = resp.status := by
  obtain ⟨b, hat, hstatus⟩ := reqAt_consume h hid hacc
  rw [Table.statusAt, hat]
  exact hstatus

/-- A request other than an accept is published as it is stamped, or not at all. -/
theorem send_cases {g : Globals} {a : ActReq} (slot : Globals.Slot) (h : Awaited g a.ref a.id)
    (hacc : a.request.type ≠ .socketAccept) :
    (g.mwsocketSendRequest a slot false).2 = (-einval, none) ∨
      ∃ n, slot = .granted n ∧
        (g.mwsocketSendRequest a slot false).2 = (n, some (g.stampRequest a)) ∧
        Awaited (g.mwsocketSendRequest a slot false).1 a.ref a.id := by
  have hroute : ∀ g' : Globals, g'.routeAccept { a with request := g.stampRequest a } =
      g.stampRequest a := by
    intro g'
    rw [Globals.routeAccept]
    split
    · rename_i htype _
      exact absurd htype hacc
    · rfl
  have hstamped : Awaited (g.modifyReq a.ref fun x => { x with request := g.stampRequest a })
      a.ref a.id :=
    h.modifyReq _ (fun _ => rfl) (fun _ => rfl) (fun _ => id) (fun _ => rfl) (fun _ => rfl)
  simp only [Globals.mwsocketSendRequest]
  split
  · exact .inl rfl
  split
  · exact .inl rfl
  cases slot with
  | refused => exact .inl rfl
  | lost => exact .inl rfl
  | granted n =>
      exact .inr ⟨n, rfl, by rw [hroute], hstamped.preProcess _ _⟩

theorem publish_cases (ins : Answers) {s : Replication} {a : ActReq}
    (h : Awaited s.table.g a.ref a.id) (hacc : a.request.type ≠ .socketAccept) :
    ((publish ins s a).1.posted = s.posted ∧ (publish ins s a).2.1 = -einval) ∨
      ((∃ post, (publish ins s a).1.posted = s.posted ++ [post]) ∧
        (publish ins s a).2.2 = ins (publish ins s a).1.posted ∧
        (publish ins s a).2.2.slot = .granted (publish ins s a).2.1 ∧
        Awaited (publish ins s a).1.table.g a.ref a.id) := by
  have hcase := send_cases (ins (s.posted ++ [⟨a.sockinst, s.table.g.stampRequest a⟩])).slot h hacc
  rw [publish]
  generalize hresult : s.table.g.mwsocketSendRequest a _ false = result at hcase ⊢
  obtain ⟨g', n, out⟩ := result
  rcases hcase with hnone | ⟨n', hslot, hsome, hwaits⟩
  · cases hnone
    exact .inl ⟨List.append_nil _, rfl⟩
  · cases hsome
    exact .inr ⟨⟨_, rfl⟩, rfl, hslot, hwaits⟩

/-- What `mwsocket_send_message` returns: a local error, or the negated status of
the INS. -/
theorem sendMessage_rc {ins : Answers} {s s' : Replication} {q : Nat} {req : MtRequest} {rc : Int}
    (hacc : req.type ≠ .socketAccept) (h : mwsocketSendMessage ins s q req = some (s', rc)) :
    (s'.posted = s.posted ∧ rc = -einval) ∨
      ∃ post, s'.posted = s.posted ++ [post] ∧
        match lastAnswer ins s'.posted with
        | some status => rc = -status
        | none => rc ≠ 0 := by
  rw [mwsocketSendMessage] at h
  split at h
  · cases h
    exact .inl ⟨rfl, rfl⟩
  obtain ⟨⟨g, ref⟩, hcreate, hsent⟩ := Option.bind_eq_some_iff.mp h
  obtain ⟨id, hnew⟩ := Globals.create_inv hcreate
  have hawaited : Awaited g ref id := by
    refine ⟨⟨_, _, hnew.requests, ?_⟩⟩
    rw [← hnew.ref_eq]
    exact ⟨rfl, rfl, rfl, rfl, rfl⟩
  have hcase := publish_cases ins (s := { s with table := { s.table with g := g } })
    (a := Globals.newRequest ref id q false true req) hawaited hacc
  simp only [hnew.reqAt, Option.map_some] at hsent
  generalize publish ins _ (Globals.newRequest ref id q false true req) = result at hsent hcase
  obtain ⟨s₁, n, reply⟩ := result
  rcases hcase with ⟨hposted, hrc⟩ | ⟨⟨post, hposted⟩, hreply, hslot, hwaits⟩
  · simp only at hposted hrc hsent
    rw [hrc, if_pos (by decide)] at hsent
    cases hsent
    exact .inl ⟨hposted, rfl⟩
  · simp only at hposted hreply hslot hwaits hsent
    refine .inr ⟨post, ?_⟩
    have hlast : lastAnswer ins s₁.posted =
        if n = 0 ∧ 0 < reply.waited then some reply.response.status else none := by
      rw [lastAnswer, ← hreply, hslot]
      simp only [Globals.Slot.granted.injEq]
    by_cases hn : n = 0
    · rw [if_neg (not_not_intro hn)] at hsent
      by_cases hzero : reply.waited = 0
      · rw [if_pos hzero] at hsent
        cases hsent
        refine ⟨hposted, ?_⟩
        rw [hlast, if_neg (by omega)]
        decide
      by_cases hneg : reply.waited < 0
      · rw [if_neg hzero, if_pos hneg] at hsent
        cases hsent
        refine ⟨hposted, ?_⟩
        rw [hlast, if_neg (by omega)]
        exact hzero
      · rw [if_neg hzero, if_neg hneg] at hsent
        cases hsent
        refine ⟨hposted, ?_⟩
        rw [hlast, if_pos ⟨hn, by omega⟩]
        refine congrArg Neg.neg (statusAt_consume hwaits rfl ?_)
        exact fun heq => hacc (MtResponseType.of.inj heq)
    · rw [if_pos hn] at hsent
      cases hsent
      refine ⟨hposted, ?_⟩
      rw [hlast, if_neg fun h => hn h.1]
      exact hn

end Replication

end MagicWand.Kernel
