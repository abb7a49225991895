import MagicWand.Kernel.Sockets

/-!
# Request routing

`mwsocket_send_request` chooses the ring by the client id in the descriptor of
the request. Afterwards `mwsocket_pre_process_request` may put another descriptor
into an accept, that of the sibling on which the monitor has seen an event: the
request then goes to the INS of the first descriptor and names a socket on the
INS of the second. A descriptor without a client id goes to any INS.
-/

namespace MagicWand.Kernel

open Foundation

/-- The request names no remote socket yet, or a socket on the INS that gets it. -/
def Message.Routed (m : Message) : Prop :=
  m.request.type = .socketCreate ∨ m.request.type = .addrBlock ∨
    mwSocketClientId m.request.sockfd = m.domid

namespace Xen

theorem domid_of_getIns {x : Xen} {domid : BitVec 16} {i : Fin maxInsCount}
    (h : x.mwXenGetInsFromDomid domid = some i) : (x.ins i).domid = domid := by
  obtain ⟨hfind, -⟩ := Option.filter_eq_some_iff.mp h
  simpa using List.find?_some hfind

/-- The ring for the id of a domain is the ring of that domain. -/
theorem domid_of_ringFor {x : Xen} {domid : BitVec 16} {i : Fin maxInsCount}
    (hreal : realDomid domid = true) (h : (x.ringFor domid).1 = some i) :
    ((x.ringFor domid).2.ins i).domid = domid := by
  simp only [ringFor, if_pos hreal] at h ⊢
  exact domid_of_getIns (Option.filter_eq_some_iff.mp h).1

end Xen

namespace Sockets

/-- The sibling to which `mwsocket_pre_process_request` routes an accept. -/
def redirect (s : Sockets) (a : ActReq) : Option Nat :=
  if a.request.type = .socketAccept ∧ (s.sock a.sockinst).pollEvents &&& Globals.pollIn ≠ 0 then
    (s.sock a.sockinst).pollActive
  else none

/-- The descriptor that chooses the ring. -/
def firstFd (s : Sockets) (a : ActReq) : MwSocketFd := (s.table.g.stampRequest a).sockfd

/-- The request names no socket; or its descriptor has a client id, and a
sibling with an event that an accept is routed to is on the same INS. -/
def Routable (s : Sockets) (a : ActReq) : Prop :=
  a.request.type = .socketCreate ∨ a.request.type = .addrBlock ∨
    realDomid (mwSocketClientId (s.firstFd a)) = true ∧
      ∀ q ∈ s.redirect a, mwSocketClientId (s.sock q).remoteFd = mwSocketClientId (s.firstFd a)

instance (s : Sockets) (a : ActReq) : Decidable (s.Routable a) :=
  inferInstanceAs (Decidable (_ ∨ _ ∨ _ ∧ ∀ q ∈ s.redirect a, _))

/-- Every request is routable when it is sent. -/
def sendsRoutable (s : Sockets) : SocketEvent → Prop
  | .send ref _ _ => ∀ a ∈ s.table.g.reqAt ref, s.Routable a
  | _ => True

/-- The descriptor in the request that is published. -/
def lastFd (s : Sockets) (a : ActReq) : MwSocketFd :=
  match s.redirect a with
  | some q => (s.sock q).remoteFd
  | none => s.firstFd a

/-- The descriptor that a request goes out with. -/
theorem published_sockfd {s : Sockets} {a : ActReq} {slot : Globals.Slot} {acquired : Bool}
    {req : MtRequest} (h : (s.table.g.mwsocketSendRequest a slot acquired).2.2 = some req) :
    req.sockfd = s.lastFd a := by
  have hroute (g : Globals) (hg : g.socks = s.table.g.socks) :
      (g.routeAccept { a with request := s.table.g.stampRequest a }).sockfd = s.lastFd a := by
    by_cases htype : a.request.type = .socketAccept
    · have hstamp : (s.table.g.stampRequest a).type = .socketAccept := htype
      simp only [Globals.routeAccept, lastFd, redirect, firstFd, sock, Table.sock, hg, hstamp,
        htype, true_and]
      by_cases hpoll : (s.table.g.socks a.sockinst).pollEvents &&& Globals.pollIn ≠ 0
      · simp only [if_pos hpoll]
        cases (s.table.g.socks a.sockinst).pollActive with
        | none => rfl
        | some q => rfl
      · simp only [if_neg hpoll]
        cases (s.table.g.socks a.sockinst).pollActive with
        | none => rfl
        | some q => rfl
    · have hnone : s.redirect a = none := if_neg fun hc => htype hc.1
      rw [lastFd, hnone, Globals.routeAccept]
      split
      · rename_i htype' _
        exact absurd htype' htype
      · rfl
  simp only [Globals.mwsocketSendRequest] at h
  split at h
  · cases h
  · split at h
    · cases h
    · split at h
      · cases h
      · cases h
      · cases h
        exact hroute _ rfl

/-- Only a send publishes, and what it publishes has the descriptor of the
request or that of the sibling. -/
theorem step_log {s s' : Sockets} {e : SocketEvent} (h : s.step e = some s') :
    s'.log = s.log ∨ ∃ ref slot acquired a p, ∃ x : Xen × Fin maxInsCount,
      e = .send ref slot acquired ∧ s.table.g.reqAt ref = some a ∧ s'.log = s.log ++ [p] ∧
      s.xen.ringFor (mwSocketClientId (s.firstFd a)) = (some x.2, x.1) ∧
      p.message.domid = (x.1.ins x.2).domid ∧ p.message.request.type = a.request.type ∧
      p.message.request.sockfd = s.lastFd a := by
  cases step_inv h with
  | @send ref slot acquired a _ ha hsend =>
      obtain ⟨-, -, hsent⟩ := send_inv hsend
      cases hsent with
      | kept => exact .inl rfl
      | published m x hring href hsock hdomid hreq =>
          refine .inr ⟨ref, slot, acquired, a, _, x, rfl, ha, rfl, hring, hdomid, ?_,
            published_sockfd hreq⟩
          obtain ⟨fd, heq⟩ := Globals.published_eq hreq
          rw [heq]
          rfl
  | _ => exact .inl rfl

/-- With a client id in its descriptor, a request is routed if and only if no
sibling on another INS has been put into it. -/
theorem routed_iff {s : Sockets} {a : ActReq} {m : Message} {x : Xen × Fin maxInsCount}
    (hreal : realDomid (mwSocketClientId (s.firstFd a)) = true)
    (hring : s.xen.ringFor (mwSocketClientId (s.firstFd a)) = (some x.2, x.1))
    (hdomid : m.domid = (x.1.ins x.2).domid) (htype : m.request.type = a.request.type)
    (hfd : m.request.sockfd = s.lastFd a) : m.Routed ↔ s.Routable a := by
  have hring' : (s.xen.ringFor (mwSocketClientId (s.firstFd a))).1 = some x.2 := by rw [hring]
  have hins : m.domid = mwSocketClientId (s.firstFd a) := by
    have := Xen.domid_of_ringFor hreal hring'
    rw [hring] at this
    rw [hdomid, this]
  rw [Message.Routed, Routable, htype, hfd, hins, lastFd]
  cases hredirect : s.redirect a with
  | none => simp [hreal]
  | some q => simp [hreal]

end Sockets

instance (s : Sockets) (e : SocketEvent) : Decidable (s.sendsRoutable e) :=
  match e with
  | .send ref _ _ => inferInstanceAs (Decidable (∀ a ∈ s.table.g.reqAt ref, s.Routable a))
  | .create _ | .accepted _ | .user _ | .replica | .join _ _ | .replicated _ _ _
  | .request _ _ _ _ | .destroy _ | .respond _ _ | .check _ _ | .process _ _ _ | .poll _ | .visit
  | .insFound _ _ | .insReady _ | .insReleased _ | .reapRequest _ _ | .reapSocket _ _
  | .release _ | .releaseSibling _ _ | .releaseSelf _ => isTrue trivial

/-- The accept request of the replicator for a socket. -/
def acceptOn (fd : MwSocketFd) : MtRequest :=
  { type := .socketAccept, size := mtRequestBaseSize + 4, sockfd := fd }

/-- A user socket on INS 5 gets a sibling on INS 6. -/
def listenTwice : List SocketEvent :=
  [.insFound insZero 5, .insReady insZero, .insFound insOne 6, .insReady insOne,
   .accepted (mwSocketCreate 5 1), .replica,
   .request 1 false true
     { type := .socketCreate, size := mtRequestBaseSize + 12,
       sockfd := mwSocketCreate 6 mtInvalidSocketFd },
   .send 0 (.granted 0) false, .respond 0 { sockfd := mwSocketCreate 6 1 }, .destroy 0, .join 0 1,
   .replicated 0 1 false]

/-- The two accepts go out, each to its own INS. -/
def acceptTwice : List SocketEvent :=
  listenTwice ++
    [.request 1 false true (acceptOn (mwSocketCreate 6 1)), .send 1 (.granted 0) false,
     .request 0 false true (acceptOn (mwSocketCreate 5 1)), .send 2 (.granted 0) false]

/-- The monitor has just seen a connection on the sibling when the accept on the
user socket goes out. -/
def acceptWhilePolled : List SocketEvent :=
  listenTwice ++
    [.poll [{ sockfd := mwSocketCreate 6 1, events := 1 }], .visit,
     .request 0 false true (acceptOn (mwSocketCreate 5 1)), .send 1 (.granted 0) false]

end MagicWand.Kernel
