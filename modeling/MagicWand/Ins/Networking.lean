import MagicWand.Ins.Native

/-!
# Request handlers of the INS

`networking.c` and `pollset.c`, one definition for each message type. A handler
is a script of native calls; a field of the response that it does not set keeps
the zero of the record, while in the program only the response base is zeroed.
-/

namespace MagicWand.Ins

open Foundation

/-! ## Common parts -/

/-- The pairs (standardised flag, native flag) of `xe_net_translate_msg_flags`. -/
def msgFlagMap : List (MtFlags × MtFlags) :=
  [(0x01, 0x0001), (0x02, 0x0002), (0x04, 0x0004), (0x08, 0x0020), (0x20, 0x0010),
   (0x40, 0x0080), (0x80, 0x0008), (0x100, 0x0040), (0x4000, 0x0400), (0x10000, 0x2000),
   (0x40000000, 0x0800)]

def xeNetTranslateMsgFlags (f : MtFlags) : MtFlags :=
  msgFlagMap.foldl (fun acc p => if f.has p.1 then acc ||| p.2 else acc) 0

/-- `xe_net_set_base_response`. -/
def xeNetSetBaseResponse (req : MtRequest) (payloadLen : Nat) (resp : MtResponse) : MtResponse :=
  { resp with
    sig := mtSignatureResponse
    sockfd := req.sockfd
    id := req.id
    type := .of req.type
    size := payloadLen % 2 ^ 16 }

/-- The options `xe_net_init_socket` sets, in its order. -/
def initOptions : List (SockOpt × MtSockfeatArg) :=
  (if soSndbuf ≠ 0 then [(.sndBuf, { v32 := soSndbuf })] else []) ++
  (if soRcvbuf ≠ 0 then [(.rcvBuf, { v32 := soRcvbuf })] else []) ++
  (if soSndtimeo.s ≠ 0 ∨ soSndtimeo.us ≠ 0 then [(.sndTimeo, soSndtimeo)] else []) ++
  (if soRcvtimeo.s ≠ 0 ∨ soRcvtimeo.us ≠ 0 then [(.rcvTimeo, soRcvtimeo)] else [])

/-- Set the options one after the other, up to the first failure. -/
def setOptions (sockFd : Int) : List (SockOpt × MtSockfeatArg) → Native Int
  | [] => pure 0
  | (opt, val) :: rest => do
      let o ← native (.setsockopt (.fd sockFd) opt val)
      if o.ret ≠ 0 then pure o.ret else setOptions sockFd rest

def xeNetInitSocket (sockFd : Int) : Native Int := setOptions sockFd initOptions

/-- With the parameters the program runs with there is nothing to set. -/
theorem xeNetInitSocket_eq (sockFd : Int) : xeNetInitSocket sockFd = pure 0 := rfl

/-! ## Create -/

/-- `do socket() while (sockfd < 0 && ENOBUFS == errno)`. -/
def socketRetry (call : NativeCall) : Native Outcome
  | [] => .error call
  | o :: os => if o.ret < 0 ∧ o.errno = enobufs then socketRetry call os else .ok (o, os)

def xeNetCreateSocket (clientId : BitVec 16) (req : MtRequest) (slot : Nat) : Native HandlerResult := do
  let fam := xeNetGetNativeProtocolFamily req.sockFam
  let type := xeNetGetNativeSockType req.sockType
  let o ← socketRetry (.socket fam type req.sockProtocol)
  let status := if o.ret < 0 then xeGetNegErrnoVal o.errno else 0
  let extsock := if o.ret < 0 then 0 else mwSocketCreate clientId (BitVec.ofNat 64 slot)
  let resp := xeNetSetBaseResponse req mtResponseBaseSize { status := status }
  let rc ← xeNetInitSocket o.ret
  if rc ≠ 0 then
    pure { rc := rc, response := resp }
  else
    pure
      { rc := 0
        response := { resp with sockfd := extsock }
        effect := fun n =>
          { n.modifySock slot (fun w =>
              { w with
                publicFd := extsock
                localFd := o.ret
                sockDomain := fam
                sockType := type
                sockProtocol := req.sockProtocol }) with
            socketCt := n.socketCt + 1 } }

/-! ## Attributes -/

/-- `xe_net_sock_fcntl`: return code and the value for the response. -/
def xeNetSockFcntl (req : MtRequest) : Native (Int × MtSockfeatArg) := do
  let g ← native (.fcntlGet .worker)
  let flags := BitVec.ofInt 32 g.ret
  if req.modify then
    let flags := if req.val.v32 ≠ 0 then flags ||| 4 else flags &&& ~~~4
    let o ← native (.fcntlSet .worker flags)
    pure (o.ret, {})
  else pure (0, { v32 := flags &&& 4 })

def attribOption : MtSockfeatName → Option SockOpt
  | .reuseaddr => some .reuseaddr
  | .reuseport => some .reuseport
  | .keepalive => some .keepalive
  | .nodelay => some .nodelay
  | .sndBuf => some .sndBuf
  | .rcvBuf => some .rcvBuf
  | .sndTimeo => some .sndTimeo
  | .rcvTimeo => some .rcvTimeo
  | .sndLoWat => some .sndLoWat
  | .rcvLoWat => some .rcvLoWat
  | .deferAccept => some .acceptFilter
  | .error => some .error
  | _ => none

/-- Is the option's value a `struct timeval`? -/
def attribTimeval : MtSockfeatName → Bool
  | .sndTimeo => true
  | .rcvTimeo => true
  | _ => false

/-- The call that sets an option. An accept filter is set whatever the value is. -/
def setCall (opt : SockOpt) (val : MtSockfeatArg) : NativeCall :=
  if opt = .acceptFilter then .setAcceptFilter .worker "dataready" else .setsockopt .worker opt val

/-- The get or set at the end of `xe_net_sock_attrib`: return code, errno and
the value for the response. -/
def attribCall (req : MtRequest) (opt : SockOpt) : Native (Int × Int × MtSockfeatArg) :=
  if req.modify then do
    let o ← native (setCall opt req.val)
    pure (o.ret, if o.ret ≠ 0 then o.errno else 0, {})
  else do
    let o ← native (.getsockopt .worker opt)
    let val : MtSockfeatArg :=
      if attribTimeval req.name then { s := o.val.s, us := o.val.us } else { v32 := o.val.v32 }
    pure (o.ret, if o.ret ≠ 0 then o.errno else 0, val)

/-- The body of `xe_net_sock_attrib` up to its `ErrorExit`. Only the last call
records an errno; on the other paths `err` is still 0. -/
def attribBody (req : MtRequest) : Native (Int × Int × MtSockfeatArg) :=
  match req.name with
  | .nonblock => do
      let r ← xeNetSockFcntl req
      pure (r.1, 0, r.2)
  | .globalCongctl => pure (0, 0, {})
  | .globalDelackTicks => pure (0, 0, {})
  | .other _ => pure (-22, 0, {})
  | .deferAccept =>
      if req.modify then do
        let o ← native (.getsockopt .worker .acceptFilter)
        -- The filter is already set: nothing to do.
        if o.ret = 0 then pure (0, 0, {}) else attribCall req .acceptFilter
      else attribCall req .acceptFilter
  | name => match attribOption name with
      | some opt => attribCall req opt
      | none => pure (-22, 0, {})

/-- Most options are got and set with one call. -/
theorem attribBody_eq {req : MtRequest} {opt : SockOpt} (hopt : attribOption req.name = some opt)
    (h : req.modify = false ∨ req.name ≠ .deferAccept) : attribBody req = attribCall req opt := by
  unfold attribBody
  unfold attribOption at hopt
  cases hname : req.name <;> rw [hname] at hopt h
  case deferAccept =>
    rcases h with h | h
    · cases hopt
      simp [h]
    · exact absurd rfl h
  all_goals first | (cases hopt; rfl) | cases hopt

def xeNetSockAttrib (req : MtRequest) : Native HandlerResult := do
  let (rc, err, val) ← attribBody req
  pure
    { rc := 0
      response := xeNetSetBaseResponse req mtResponseSocketAttribSize
        { val := val, status := if rc ≠ 0 then xeGetNegErrnoVal err else 0 } }

/-! ## Address block -/

/-- `do_npfctl_command` returns 0 on all its paths, so only an invalid `block`
value makes this handler fail. -/
def xeNetAddrBlock (req : MtRequest) : Native HandlerResult :=
  let rc : Int := if req.block = 1 then 0 else if req.block = 0 then 0 else -1
  pure
    { rc := rc
      response := xeNetSetBaseResponse req mtResponseBaseSize { status := rc } }

/-! ## Connect, bind, listen, shutdown, names -/

def xeNetConnectSocket (req : MtRequest) : Native HandlerResult := do
  let o ← native (.connect .worker (populateSockaddrIn req.sockaddr))
  pure
    { response := xeNetSetBaseResponse req mtResponseBaseSize
        { status := if o.ret < 0 then xeGetNegErrnoVal o.errno else 0 } }

/-- `ntohs` on the little-endian INS. -/
def ntohs (p : BitVec 16) : BitVec 16 := (p <<< 8) ||| (p >>> 8)

def xeNetBindSocket (req : MtRequest) (slot : Nat) : Native HandlerResult := do
  let addr := populateSockaddrIn req.sockaddr
  let o ← native (.bind .worker addr)
  pure
    { response := xeNetSetBaseResponse req mtResponseBaseSize
        { status := if o.ret < 0 then xeGetNegErrnoVal o.errno else o.ret }
      effect := fun n =>
        if o.ret < 0 then n
        else { n.modifySock slot (fun w => { w with boundPortNum := ntohs addr.sinPort }) with
          pendingPortChange := true } }

def xeNetListenSocket (req : MtRequest) : Native HandlerResult := do
  let o ← native (.listen .worker req.backlog)
  pure
    { response := xeNetSetBaseResponse req mtResponseBaseSize
        { status := if o.ret < 0 then xeGetNegErrnoVal o.errno else o.ret } }

def xeNetShutdownSocket (req : MtRequest) : Native HandlerResult := do
  let o ← native (.shutdown .worker req.how)
  pure
    { response := xeNetSetBaseResponse req mtResponseBaseSize
        { status := if o.ret = 0 then 0 else xeGetNegErrnoVal o.errno } }

/-- `xe_net_get_name` reports the bare return value, and returns it. -/
def xeNetGetName (req : MtRequest) : Native HandlerResult := do
  let call := if req.type = .socketGetPeer
    then NativeCall.getpeername .worker req.maxlen
    else NativeCall.getsockname .worker req.maxlen
  let o ← native call
  pure
    { rc := o.ret
      response := xeNetSetBaseResponse req mtResponseSocketGetnameSize
        { status := o.ret
          reslen := o.len % 2 ^ 16
          sockaddr := populateMtSockaddrIn o.addr } }

/-! ## Accept -/

/-- `xe_net_set_sock_nonblock(sockfd, true)`: return code and the errno it
leaves behind. -/
def xeNetSetSockNonblock (sockFd : Int) : Native (Int × Int) := do
  let g ← native (.fcntlGet (.fd sockFd))
  if g.ret = -1 then pure (-5, g.errno)
  else
    let o ← native (.fcntlSet (.fd sockFd) (BitVec.ofInt 32 g.ret ||| 4))
    if o.ret = -1 then pure (-5, o.errno) else pure (o.ret, 0)

/-- The tail of `xe_net_accept_socket` once the new socket is in the right
mode. A failing `xe_net_init_socket` leaves the response base unset. -/
def acceptInit (req : MtRequest) (o : Outcome) : Native HandlerResult := do
  let rc ← xeNetInitSocket o.ret
  if rc ≠ 0 then
    pure { rc := rc, response := { opFlags := req.opFlags } }
  else
    pure
      { rc := 0
        response := xeNetSetBaseResponse req mtResponseSocketAcceptSize
          { opFlags := req.opFlags
            status := o.ret
            sockaddr := populateMtSockaddrIn o.addr }
        effect := fun n => { n with socketCt := n.socketCt + 1 } }

def xeNetAcceptSocket (req : MtRequest) : Native HandlerResult := do
  let o ← native (.accept .worker)
  if o.ret < 0 then
    pure
      { response := xeNetSetBaseResponse req mtResponseSocketAcceptSize
          { opFlags := req.opFlags, status := xeGetNegErrnoVal o.errno } }
  else if req.opFlags.has mwSockNonblock then
    let (rc, err) ← xeNetSetSockNonblock o.ret
    if rc ≠ 0 then
      let _ ← native (.close (.fd o.ret))
      pure
        { rc := rc
          response :=
            { opFlags := req.opFlags
              status := xeGetNegErrnoVal err
              sockfd := mtInvalidSocketFd } }
    else acceptInit req o
  else acceptInit req o

/-! ## Receive -/

/-- `xe_pollset_query_one`: return code and the reported events. -/
def pollOneResult (o : Outcome) : Int × BitVec 32 :=
  if o.ret < 0 then (xeGetNegErrnoVal o.errno, 0)
  else if o.ret = 0 then (0, 0)
  else (0, o.revents.headD 0)

def pollOneCall : NativeCall :=
  .pollOne .worker (pollIn ||| 0x0040 ||| pollOut ||| 0x0100)

/-- What the receive loop of `xe_net_recv_socket` / `xe_net_recvfrom_socket`
ends with. -/
inductive RecvEnd where
  /-- The native call failed with this errno. -/
  | failed (errno : Int)
  /-- Bytes arrived; the outcome holds them. -/
  | data (o : Outcome)
  /-- Nothing read although `poll` reported data: the peer has closed. -/
  | remoteClosed (o : Outcome)
  /-- Nothing read and nothing to read. -/
  | nothing (o : Outcome)
  /-- `poll` failed: an internal error, the response is not set up. -/
  | internal (rc : Int)
deriving DecidableEq, Repr

/-- Whether the loop waits for the receive (with what it knows from `poll`) or
for the `poll`. -/
inductive RecvPhase where
  | recv (polled : Bool) (events : BitVec 32)
  | poll
deriving DecidableEq, Repr

/-- The loop. An interrupted call is repeated; the first call that returns 0 is
followed by a `poll` and a second call, which ends the loop. -/
def recvLoop (call : NativeCall) : RecvPhase → Native RecvEnd
  | .recv _ _, [] => .error call
  | .recv polled events, o :: os =>
      if o.ret < 0 ∧ o.errno = eintr then recvLoop call (.recv polled events) os
      else if o.ret < 0 then .ok (.failed o.errno, os)
      else if 0 < o.ret % 2 ^ 16 then .ok (.data o, os)
      else if events &&& (pollIn ||| pollRdnorm) ≠ 0 then .ok (.remoteClosed o, os)
      else if polled then .ok (.nothing o, os)
      else recvLoop call .poll os
  | .poll, [] => .error pollOneCall
  | .poll, p :: os =>
      if (pollOneResult p).1 ≠ 0 then .ok (.internal (pollOneResult p).1, os)
      else recvLoop call (.recv true (pollOneResult p).2) os

/-- The effect of a receive on the worker's connection state. -/
def recvFlags (slot : Nat) (e : RecvEnd) (n : NetState) : NetState :=
  match e with
  | .remoteClosed _ => n.modifySock slot (fun w =>
      { w with stateFlags := w.stateFlags ||| MtFlags.remoteClosed })
  | .nothing _ => n.modifySock slot (fun w => { w with stateFlags := 0 })
  | _ => n

/-- Status, count, bytes and source address the loop leaves in the response. -/
def recvResponse (e : RecvEnd) : MtResponse :=
  match e with
  | .failed errno => { status := xeGetNegErrnoVal errno }
  | .data o =>
      { count := (o.ret % 2 ^ 16).toNat, bytes := o.data
        sockaddr := populateMtSockaddrIn o.addr, addrlen := o.len }
  | .remoteClosed o => { sockaddr := populateMtSockaddrIn o.addr, addrlen := o.len }
  | .nothing o => { sockaddr := populateMtSockaddrIn o.addr, addrlen := o.len }
  | .internal _ => {}

def recvResult (req : MtRequest) (slot : Nat) (headerSize : Nat) (e : RecvEnd) : HandlerResult :=
  match e with
  | .internal rc => { rc := rc, response := {} }
  | e =>
      let resp := recvResponse e
      { response := xeNetSetBaseResponse req (headerSize + resp.count) resp
        effect := fun n =>
          { recvFlags slot e n with bytesRecv := (n.bytesRecv + resp.count) % 2 ^ 64 } }

def xeNetRecvSocket (req : MtRequest) (slot : Nat) : Native HandlerResult := do
  let e ← recvLoop (.recv .worker req.requested (xeNetTranslateMsgFlags req.opFlags))
    (.recv false 0)
  pure (recvResult req slot mtResponseSocketRecvSize e)

def xeNetRecvfromSocket (req : MtRequest) (slot : Nat) : Native HandlerResult := do
  let e ← recvLoop (.recvfrom .worker req.requested (xeNetTranslateMsgFlags req.opFlags))
    (.recv false 0)
  pure (recvResult req slot mtResponseSocketRecvfromSize e)

/-! ## Close -/

/-- `xe_net_internal_close_socket` after the native close. -/
def closedSocket (w : Socket) : Socket :=
  { w with localFd := -1, publicFd := mtInvalidSocketFd, boundPortNum := 0 }

/-- What `xe_net_internal_close_socket` does to the socket state. -/
def xeNetInternalCloseSocket (slot : Nat) (n : NetState) : NetState :=
  { n.modifySock slot closedSocket with
    socketCt := if (n.sock slot).localFd ≠ -1 then n.socketCt - 1 else n.socketCt
    pendingPortChange :=
      if (n.sock slot).boundPortNum ≠ 0 then true else n.pendingPortChange }

def xeNetCloseSocket (req : MtRequest) (slot : Nat) (w : Socket) : Native HandlerResult :=
  let done (status : Int) : HandlerResult :=
    { response := xeNetSetBaseResponse req mtResponseBaseSize { status := status }
      effect := xeNetInternalCloseSocket slot }
  if w.localFd ≠ -1 then do
    let o ← native (.close .worker)
    pure (done (if o.ret ≠ 0 then xeGetNegErrnoVal o.errno else 0))
  else pure (done 0)

/-! ## Send -/

/-- How the send loop ends: bytes handed over, and the errno of the call that
failed, if one did. -/
structure SendEnd where
  count : Nat
  failed : Option Int
deriving DecidableEq, Repr

/-- `send` until everything is handed over. A call that would block is followed
by a `poll` whose result does not matter, and repeated. -/
def sendLoop (payload : List (BitVec 8)) (flags : MtFlags) :
    (polling : Bool) → (count : Nat) → Native SendEnd
  | true, _, [] => .error (.pollOne .worker pollOut)
  | true, count, _ :: os => sendLoop payload flags false count os
  | false, count, [] =>
      if payload.length ≤ count then .ok (⟨count, none⟩, [])
      else .error (.send .worker (payload.drop count) flags)
  | false, count, o :: os =>
      if payload.length ≤ count then .ok (⟨count, none⟩, o :: os)
      else if o.ret < 0 then
        if o.errno = eagain then sendLoop payload flags true count os
        else .ok (⟨count, some o.errno⟩, os)
      else sendLoop payload flags false ((count + o.ret.toNat) % 2 ^ 16) os

/-- The payload of a send request: `base.size` minus the header. -/
def sendPayload (req : MtRequest) : List (BitVec 8) :=
  req.bytes.take (req.size - mtRequestSocketSendSize)

def xeNetSendSocket (req : MtRequest) (slot : Nat) : Native HandlerResult := do
  let e ← sendLoop (sendPayload req) (xeNetTranslateMsgFlags req.opFlags) false 0
  let status := match e.failed with
    | none => 0
    | some err => xeGetNegErrnoVal err
  pure
    { response := xeNetSetBaseResponse req mtResponseSocketSendSize
        { count := e.count, status := status, opFlags := req.opFlags }
      effect := fun n =>
        let n := if e.failed.isNone then n
          else n.modifySock slot (fun w =>
            { w with stateFlags := if status = -mwEpipe then MtFlags.remoteClosed else 0 })
        { n with bytesSent := (n.bytesSent + e.count) % 2 ^ 64 } }

end MagicWand.Ins
