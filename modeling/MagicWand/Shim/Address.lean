import MagicWand.Kernel.FileOps
import MagicWand.Shim.Recv

/-!
# Addresses between the application and the INS

`translate.h` is compiled on both sides: for the shim with the constants and
widths of Linux, for the INS with those of NetBSD (`populateSockaddrIn` and
`populateMtSockaddrIn` of `MagicWand.Message`). `bind()` and `connect()` send the
caller's address in the wire form, `accept()`, `getsockname()` and
`getpeername()` read one from the response, and `recvfrom()` copies the bytes of
the wire form as they are.
-/

namespace MagicWand.Shim

open Foundation Bytes

/-! ## translate.h on Linux -/

/-- `struct sockaddr_in` of the PVM. -/
structure LinuxSockaddrIn where
  sinFamily : BitVec 16 := 0
  sinPort : BitVec 16 := 0
  sAddr : BitVec 32 := 0
  sinZero : List (BitVec 8) := List.replicate 8 0
deriving DecidableEq, Repr

namespace LinuxSockaddrIn

/-- `AF_INET`. -/
def afInet : BitVec 16 := 2

def afInet6 : BitVec 16 := 10

def xeNetGetNativeProtocolFamily (fam : BitVec 32) : BitVec 16 :=
  if fam = 1 then afInet else if fam = 2 then afInet6 else BitVec.allOnes 16

def xeNetGetMtProtocolFamily (fam : BitVec 16) : BitVec 32 :=
  if fam = afInet then 1 else if fam = afInet6 then 2 else BitVec.allOnes 32

def populateSockaddrIn (a : MtSockaddrIn) : LinuxSockaddrIn where
  sinFamily := xeNetGetNativeProtocolFamily a.sinFamily
  sinPort := a.sinPort
  sAddr := a.sAddr.setWidth 32
  sinZero := a.sinZero

def populateMtSockaddrIn (a : LinuxSockaddrIn) : MtSockaddrIn where
  sinFamily := xeNetGetMtProtocolFamily a.sinFamily
  sinPort := a.sinPort
  sAddr := a.sAddr.setWidth 64
  sinZero := a.sinZero

/-- The structure in 16 bytes of memory. -/
def ofBytes (bs : List Byte) : LinuxSockaddrIn where
  sinFamily := BitVec.ofNat 16 (leNat (slice bs 0 2))
  sinPort := BitVec.ofNat 16 (leNat (slice bs 2 2))
  sAddr := BitVec.ofNat 32 (leNat (slice bs 4 4))
  sinZero := slice bs 8 8

end LinuxSockaddrIn

/-- `AF_INET` in the 8-bit field of the INS. -/
def insAfInet : BitVec 8 := 2

/-- One IPv4 address and port, on the INS and in the PVM. -/
structure SameAddr (n : SockaddrIn) (a : LinuxSockaddrIn) : Prop where
  insFamily : n.sinFamily = insAfInet
  family : a.sinFamily = LinuxSockaddrIn.afInet
  port : a.sinPort = n.sinPort
  addr : a.sAddr = n.sAddr

/-! ## Requests with an address -/

def mtRequestSocketBindSize : Nat := mtRequestBaseSize + 24
def mtRequestSocketConnectSize : Nat := mtRequestBaseSize + 24

/-- `mwcomms_init_request`, with the flag that `mwcomms_write_request` sets for a
caller that waits. -/
def mwcommsInitRequest (type : MtRequestType) (size sockFd : Nat) : MtRequest where
  type := type
  size := size
  sockfd := BitVec.ofNat 64 sockFd
  flags := MtFlags.pvmCallerAwaitsResponse

/-- The request of `bind()`; any other family or length is turned down. -/
def bind (sockFd : Nat) (addr : LinuxSockaddrIn) (addrLen : Nat) : Option MtRequest :=
  if addr.sinFamily ≠ LinuxSockaddrIn.afInet ∨ addrLen ≠ 16 then none
  else some { mwcommsInitRequest .socketBind mtRequestSocketBindSize sockFd with
    sockaddr := addr.populateMtSockaddrIn }

/-- The request of `connect()`. -/
def connect (sockFd : Nat) (addr : LinuxSockaddrIn) : MtRequest :=
  { mwcommsInitRequest .socketConnect mtRequestSocketConnectSize sockFd with
    sockaddr := addr.populateMtSockaddrIn }

/-- The native call that the INS makes for an active request that the driver
publishes. -/
def nativeCallOf (g : Kernel.Globals) (a : Kernel.ActReq) (slot : Kernel.Globals.Slot)
    (acquired : Bool) (clientId : BitVec 16) (ins : Ins.Globals) (worker : Nat) :
    Option Ins.NativeCall :=
  (g.mwsocketSendRequest a slot acquired).2.2.bind fun req =>
    match Ins.handler clientId req (some worker) ins [] with
    | .error c => some c
    | .ok _ => none

/-! ## Responses with an address -/

/-- What a call leaves in the caller's address and length. -/
structure NameResult where
  addr : Option LinuxSockaddrIn
  len : Nat
deriving DecidableEq, Repr

/-- A call that succeeds fills in the address, and leaves the length alone. -/
def storeName (resp : MtResponse) (len : Nat) : NameResult where
  addr := if resp.status < 0 then none else some (LinuxSockaddrIn.populateSockaddrIn resp.sockaddr)
  len := len

/-- `accept()` with an address and a length. -/
def accept (resp : MtResponse) (sockLen : Nat) : NameResult := storeName resp sockLen

def getsockname (resp : MtResponse) (addrLen : Nat) : NameResult := storeName resp addrLen

def getpeername (resp : MtResponse) (addrLen : Nat) : NameResult := storeName resp addrLen

/-- A response as the driver hands it to the reader. -/
def handOver (k : Kernel.SockInst) (id : Kernel.MtId) (fd : Nat) (resp : MtResponse) : MtResponse :=
  Kernel.FileState.mwsocketPostprocInTask (k.absorb id resp).2 fd

/-- The address and the length are those of a native call. -/
def Stored (o : Ins.Outcome) (r : NameResult) : Prop :=
  ∃ a, r.addr = some a ∧ SameAddr o.addr a ∧ r.len = o.len

/-! ## Translation -/

/-- The wire form of an IPv4 address of one side is that address on the other
side. -/
theorem sameAddr_toIns {addr : LinuxSockaddrIn} (h : addr.sinFamily = LinuxSockaddrIn.afInet) :
    SameAddr (MagicWand.populateSockaddrIn addr.populateMtSockaddrIn) addr where
  insFamily := by
    simp [MagicWand.populateSockaddrIn, LinuxSockaddrIn.populateMtSockaddrIn,
      LinuxSockaddrIn.xeNetGetMtProtocolFamily, h, xeNetGetNativeProtocolFamily, insAfInet]
  family := h
  port := rfl
  addr := by
    simp [MagicWand.populateSockaddrIn, LinuxSockaddrIn.populateMtSockaddrIn]

theorem sameAddr_toPvm {n : SockaddrIn} (h : n.sinFamily = insAfInet) :
    SameAddr n (LinuxSockaddrIn.populateSockaddrIn (MagicWand.populateMtSockaddrIn n)) where
  insFamily := h
  family := by
    simp [MagicWand.populateMtSockaddrIn, LinuxSockaddrIn.populateSockaddrIn,
      LinuxSockaddrIn.xeNetGetNativeProtocolFamily, h, xeNetGetMtProtocolFamily, insAfInet]
  port := rfl
  addr := by
    simp [MagicWand.populateMtSockaddrIn, LinuxSockaddrIn.populateSockaddrIn]

/-! ## The way of a request -/

/-- The driver does not touch type and address. -/
theorem send_keeps_sockaddr {g : Kernel.Globals} {a : Kernel.ActReq} {slot : Kernel.Globals.Slot}
    {acquired : Bool} {req : MtRequest} (h : (g.mwsocketSendRequest a slot acquired).2.2 = some req) :
    req.type = a.request.type ∧ req.sockaddr = a.request.sockaddr := by
  obtain ⟨fd, rfl⟩ := Kernel.Globals.published_eq h
  exact ⟨rfl, rfl⟩

/-! ## The way of a response -/

theorem handOver_sockaddr (k : Kernel.SockInst) (id : Kernel.MtId) (fd : Nat) (resp : MtResponse) :
    (handOver k id fd resp).sockaddr = resp.sockaddr := by
  have htally : ∀ k : Kernel.SockInst, (k.tallySend resp).2.sockaddr = resp.sockaddr := by
    intro k
    rw [Kernel.SockInst.tallySend]
    split_ifs <;> rfl
  rw [handOver, Kernel.FileState.mwsocketPostprocInTask]
  split
  · exact htally _
  · exact htally _

/-- The answer to a receive passes through the driver unchanged. -/
theorem handOver_recvfrom (k : Kernel.SockInst) (id : Kernel.MtId) (fd : Nat) {resp : MtResponse}
    (htype : resp.type = .of .socketRecvFrom) : handOver k id fd resp = resp := by
  have htally : ∀ k : Kernel.SockInst, (k.tallySend resp).2 = resp := by
    intro k
    rw [Kernel.SockInst.tallySend, if_neg (by simp [htype])]
  have habsorb : (k.absorb id resp).2 = resp := htally _
  rw [handOver, habsorb, Kernel.FileState.mwsocketPostprocInTask, if_neg]
  simp [Kernel.FileState.isConnection, htype]

theorem postProcess_sockaddr (clientId : BitVec 16) (req : MtRequest) (worker : Option Nat)
    (resp : MtResponse) (g : Ins.Globals) :
    (Ins.Globals.postProcessResponse clientId req worker resp g).1.sockaddr = resp.sockaddr := by
  simp only [Ins.Globals.postProcessResponse]
  split
  · rw [Ins.Globals.assignAccepted]
    split
    · rfl
    · rfl
  · rfl

theorem acceptInit_sockaddr {req : MtRequest} {o : Ins.Outcome} {os rest : List Ins.Outcome}
    {r : Ins.HandlerResult} (h : Ins.acceptInit req o os = .ok (r, rest)) (hrc : r.rc = 0) :
    r.response.sockaddr = MagicWand.populateMtSockaddrIn o.addr := by
  obtain ⟨rc, mid, -, h⟩ := Script.bind_ok h
  split at h
  · rename_i hne
    rw [Script.pure_ok h] at hrc
    exact absurd hrc hne
  · rw [Script.pure_ok h]
    rfl

/-- An accept that succeeds reports the address of its native call. -/
theorem accept_sockaddr {req : MtRequest} {o : Ins.Outcome} {os rest : List Ins.Outcome}
    {r : Ins.HandlerResult} (h : Ins.xeNetAcceptSocket req (o :: os) = .ok (r, rest))
    (hret : 0 ≤ o.ret) (hrc : r.rc = 0) :
    r.response.sockaddr = MagicWand.populateMtSockaddrIn o.addr := by
  obtain ⟨o', mid, hos, h⟩ := Script.ask_bind_ok h
  cases hos
  rw [if_neg (by omega)] at h
  split at h
  · obtain ⟨⟨rc, err⟩, mid', -, h⟩ := Script.bind_ok h
    simp only at h
    split at h
    · rename_i hne
      obtain ⟨_, _, -, h⟩ := Script.bind_ok h
      rw [Script.pure_ok h] at hrc
      exact absurd hrc hne
    · exact acceptInit_sockaddr h hrc
  · exact acceptInit_sockaddr h hrc

/-- So does a handler of one of the three calls. -/
theorem handler_sockaddr {clientId : BitVec 16} {req : MtRequest} {worker : Nat} {g : Ins.Globals}
    {o : Ins.Outcome} {os rest : List Ins.Outcome} {r : Ins.HandlerResult}
    (htype : req.type = .socketAccept ∨ req.type = .socketGetName ∨ req.type = .socketGetPeer)
    (h : Ins.handler clientId req (some worker) g (o :: os) = .ok (r, rest)) (hret : 0 ≤ o.ret)
    (hrc : r.rc = 0) : r.response.sockaddr = MagicWand.populateMtSockaddrIn o.addr := by
  have hname (h : Ins.xeNetGetName req (o :: os) = .ok (r, rest)) :
      r.response.sockaddr = MagicWand.populateMtSockaddrIn o.addr := by
    obtain ⟨o', mid, hos, h⟩ := Script.ask_bind_ok h
    cases hos
    rw [Script.pure_ok h]
    rfl
  rcases htype with htype | htype | htype
  · simp only [Ins.handler, htype] at h
    exact accept_sockaddr h hret hrc
  · simp only [Ins.handler, htype] at h
    exact hname h
  · simp only [Ins.handler, htype] at h
    exact hname h

/-- The call stores the address of the native call; its length only if it is
there already. -/
theorem stored_iff {o : Ins.Outcome} {resp : MtResponse} (hipv4 : o.addr.sinFamily = insAfInet)
    (haddr : resp.sockaddr = MagicWand.populateMtSockaddrIn o.addr) (hstatus : 0 ≤ resp.status)
    (len : Nat) : Stored o (storeName resp len) ↔ len = o.len := by
  constructor
  · rintro ⟨-, -, -, hlen⟩
    exact hlen
  · intro hlen
    refine ⟨LinuxSockaddrIn.populateSockaddrIn resp.sockaddr, if_neg (by omega), ?_, hlen⟩
    rw [haddr]
    exact sameAddr_toPvm hipv4

/-! ## recvfrom -/

/-- The wire form of an IPv4 address starts with the family 1, which is not
`AF_INET`. -/
theorem family_of_wire (u : Unset) (r : MtResponse) (rest : List Byte)
    (hfam : r.sockaddr.sinFamily = 1) :
    (LinuxSockaddrIn.ofBytes (slice (encodeRecvfrom u r ++ rest) 40 16)).sinFamily = 1 := by
  let tail := [0, 0] ++ (leBytes 2 r.sockaddr.sinPort.toNat ++ (leBytes 2 u.padding ++
    (leBytes 8 r.sockaddr.sAddr.toNat ++ ((r.sockaddr.sinZero ++ List.replicate 8 0).take 8 ++
    (leBytes 4 r.addrlen ++ (leBytes 2 r.count ++ (r.bytes ++ rest)))))))
  have htail : encodeRecvfrom u r ++ rest = encodeBase u r ++ ([1, 0] ++ tail) := by
    simp only [encodeRecvfrom, encodeSource, encodeSockaddr, hfam, List.append_assoc]
    rfl
  have hread : slice (slice (encodeRecvfrom u r ++ rest) 40 16) 0 2 = [1, 0] := by
    rw [slice, List.drop_zero, slice, List.take_take, htail]
    exact slice_append (encodeBase u r) [1, 0] tail (length_encodeBase u r) rfl
  rw [LinuxSockaddrIn.ofBytes, hread]
  rfl

/-- `recvfrom()` never stores the source address of the native call. -/
theorem recvfrom_wrong_source {u : Unset} {r : MtResponse} {o : Ins.Outcome}
    (hipv4 : o.addr.sinFamily = insAfInet) (hstatus : r.status = 0)
    (haddr : r.sockaddr = MagicWand.populateMtSockaddrIn o.addr)
    (hcount : 0 < r.count) (hmax : r.count < 2 ^ 16) (buf : List Byte) :
    ¬ SameAddr o.addr
      (LinuxSockaddrIn.ofBytes (recvfrom true (.response (encodeRecvfrom u r)) buf).srcAddr) := by
  have hread : receivedCount true (responseBuffer (encodeRecvfrom u r)) = r.count := by
    rw [responseBuffer, receivedCount_recvfrom, Nat.mod_eq_of_lt hmax]
  have hfam : r.sockaddr.sinFamily = 1 := by
    simp [haddr, MagicWand.populateMtSockaddrIn, xeNetGetMtProtocolFamily, hipv4, insAfInet]
  obtain ⟨-, -, hsrc⟩ := recvfrom_data (u := u) hstatus hread hcount buf
  rintro ⟨-, hfamily, -, -⟩
  rw [encodeRecvfrom, hsrc] at hfamily
  split at hfamily
  · rw [responseBuffer] at hfamily
    exact absurd ((family_of_wire u r _ hfam).symm.trans hfamily) (by decide)
  · exact absurd hfamily (by decide)

/-! ## All calls -/

/-- An IPv4 address of `bind()` or `connect()` reaches the native call of the INS
as it is. `accept()`, `getsockname()` and `getpeername()` store the address that
the native call yields, but its length only when the caller's length is the same
already. `recvfrom()` does not store it at all. -/
theorem addresses_carried_iff (g : Kernel.Globals) (a : Kernel.ActReq) (slot : Kernel.Globals.Slot)
    (acquired : Bool) (k : Kernel.SockInst) (id : Kernel.MtId) (fd : Nat) (clientId : BitVec 16)
    (ins ins' : Ins.Globals) (worker : Nat) :
    (∀ sockFd addr addrLen req published,
      addr.sinFamily = LinuxSockaddrIn.afInet →
      bind sockFd addr addrLen = some req → a.request = req →
      (Kernel.Globals.mwsocketSendRequest g a slot acquired).2.2 = some published →
      ∃ n, nativeCallOf g a slot acquired clientId ins worker = some (.bind .worker n) ∧
        SameAddr n addr) ∧
    (∀ sockFd addr published,
      addr.sinFamily = LinuxSockaddrIn.afInet → a.request = connect sockFd addr →
      (Kernel.Globals.mwsocketSendRequest g a slot acquired).2.2 = some published →
      ∃ n, nativeCallOf g a slot acquired clientId ins worker = some (.connect .worker n) ∧
        SameAddr n addr) ∧
    (∀ req o os rest r resp len,
      Ins.handler clientId req (some worker) ins (o :: os) = .ok (r, rest) →
      0 ≤ o.ret → r.rc = 0 → o.addr.sinFamily = insAfInet →
      resp = handOver k id fd
        (Ins.Globals.postProcessResponse clientId req (some worker) r.response ins').1 →
      0 ≤ resp.status →
      (req.type = .socketAccept → (Stored o (accept resp len) ↔ len = o.len)) ∧
      (req.type = .socketGetName → (Stored o (getsockname resp len) ↔ len = o.len)) ∧
      (req.type = .socketGetPeer → (Stored o (getpeername resp len) ↔ len = o.len))) ∧
    (∀ req o os rest u buf,
      req.type = .socketRecvFrom →
      Ins.recvLoop (nativeRecv req) (.recv false 0) os = .ok (.data o, rest) →
      o.ret = o.data.length → o.addr.sinFamily = insAfInet →
      0 < o.data.length → o.data.length ≤ min req.requested messageTypeMaxPayloadLen →
      ∃ r, Ins.handler clientId req (some worker) ins os = .ok (r, rest) ∧
        ¬ SameAddr o.addr (LinuxSockaddrIn.ofBytes
          (recvfrom true (.response (encodeReceived u (handOver k id fd
            (Ins.Globals.postProcessResponse clientId req (some worker) r.response ins').1)))
            buf).srcAddr)) := by
  refine ⟨?_, ?_, ?_, ?_⟩
  · intro sockFd addr addrLen req published hipv4 hbind hreq hpub
    rw [bind] at hbind
    split at hbind
    · cases hbind
    · cases hbind
      obtain ⟨htype, haddr⟩ := send_keeps_sockaddr hpub
      rw [hreq] at htype haddr
      refine ⟨MagicWand.populateSockaddrIn published.sockaddr, ?_, haddr ▸ sameAddr_toIns hipv4⟩
      rw [nativeCallOf, hpub, Option.bind_some]
      simp only [Ins.handler, htype]
      rfl
  · intro sockFd addr published hipv4 hreq hpub
    obtain ⟨htype, haddr⟩ := send_keeps_sockaddr hpub
    rw [hreq] at htype haddr
    refine ⟨MagicWand.populateSockaddrIn published.sockaddr, ?_, haddr ▸ sameAddr_toIns hipv4⟩
    rw [nativeCallOf, hpub, Option.bind_some]
    simp only [Ins.handler, htype]
    rfl
  · intro req o os rest r resp len hrun hret hrc hipv4 hresp hstatus
    have haddr (htype : req.type = .socketAccept ∨ req.type = .socketGetName ∨
        req.type = .socketGetPeer) : resp.sockaddr = MagicWand.populateMtSockaddrIn o.addr := by
      rw [hresp, handOver_sockaddr, postProcess_sockaddr]
      exact handler_sockaddr htype hrun hret hrc
    exact ⟨fun htype => stored_iff hipv4 (haddr (.inl htype)) hstatus len,
      fun htype => stored_iff hipv4 (haddr (.inr (.inl htype))) hstatus len,
      fun htype => stored_iff hipv4 (haddr (.inr (.inr htype))) hstatus len⟩
  · intro req o os rest u buf htype hloop hdata hipv4 hpos hmax
    obtain ⟨r, size, hrun, hresp⟩ := handler_data clientId ins worker (.inr htype) hloop
    obtain ⟨flags, hpost⟩ := postProcess_recv clientId ins' (.inr htype) (some worker) r.response
    refine ⟨r, hrun, ?_⟩
    have hlimit : messageTypeMaxPayloadLen = 1985 := rfl
    rw [hpost, hresp]
    let resp : MtResponse :=
      { Ins.xeNetSetBaseResponse req size (Ins.recvResponse (.data o)) with flags := flags }
    change ¬ SameAddr o.addr (LinuxSockaddrIn.ofBytes
      (recvfrom true (.response (encodeReceived u (handOver k id fd resp))) buf).srcAddr)
    have hresptype : resp.type = .of .socketRecvFrom := by
      simp [resp, Ins.xeNetSetBaseResponse, htype]
    rw [handOver_recvfrom k id fd hresptype, encodeReceived, if_pos hresptype]
    refine recvfrom_wrong_source hipv4 rfl rfl ?_ ?_ buf
    · show 0 < (o.ret % 2 ^ 16).toNat
      omega
    · show (o.ret % 2 ^ 16).toNat < 2 ^ 16
      omega

/-- 10.0.0.7, port 8080. -/
def tenSeven : LinuxSockaddrIn :=
  { sinFamily := LinuxSockaddrIn.afInet, sinPort := 0x901f, sAddr := 0x0700000a }

/-- The same address from a native `getsockname`. -/
def named : Ins.Outcome :=
  { len := 16, addr := { sinFamily := 2, sinPort := 0x901f, sAddr := 0x0700000a } }

/-- A query for the name of a socket. -/
def nameRequest : MtRequest := mwcommsInitRequest .socketGetName (mtRequestBaseSize + 2) 5

/-- The active request of a `connect()`. -/
def connecting : Kernel.ActReq :=
  { ref := 0, id := 1, sockinst := 0, request := connect 5 tenSeven }

theorem addresses_carried_iff_tenSeven :
    (∃ n, nativeCallOf {} connecting (.granted 0) false 1 {} 0 = some (.connect .worker n) ∧
      SameAddr n tenSeven) ∧
    ∃ r, Ins.handler 1 nameRequest (some 0) {} [named] = .ok (r, []) ∧
      Stored named (getsockname (handOver {} 1 0
        (Ins.Globals.postProcessResponse 1 nameRequest (some 0) r.response {}).1) 16) := by
  obtain ⟨-, hconnect, hname, -⟩ := addresses_carried_iff {} connecting (.granted 0) false {} 1 0 1
    {} {} 0
  refine ⟨hconnect 5 tenSeven _ rfl rfl rfl, _, rfl, ?_⟩
  exact ((hname nameRequest named [] [] _ _ 16 rfl (by decide) rfl rfl rfl
    (by decide)).2.1 rfl).mpr rfl

/-- The address that a receive stores, from its native call on. -/
def receiveFrom (os : List Ins.Outcome) : Option LinuxSockaddrIn :=
  match Ins.handler 1 (recvRequest .socketRecvFrom) (some 0) {} os with
  | .error _ => none
  | .ok (r, _) =>
      let resp := (Ins.Globals.postProcessResponse 1 (recvRequest .socketRecvFrom) (some 0)
        r.response {}).1
      some (LinuxSockaddrIn.ofBytes
        (recvfrom true (.response (encodeReceived {} (handOver {} 1 0 resp))) []).srcAddr)

/-- The native call yields 10.0.0.7, port 8080; the application gets family 1,
port 0 and the port for an address. And a caller of `getsockname()` with 128 bytes
of room is left with the length 128. -/
theorem addresses_not_carried :
    (receiveFrom [fourBytes]).map (fun a => (a.sinFamily, a.sinPort, a.sAddr)) =
      some (1, 0, 0x901f) ∧
    ∃ r, Ins.handler 1 nameRequest (some 0) {} [named] = .ok (r, []) ∧
      ¬ Stored named (getsockname (handOver {} 1 0
        (Ins.Globals.postProcessResponse 1 nameRequest (some 0) r.response {}).1) 128) := by
  refine ⟨by decide +kernel, _, rfl, ?_⟩
  rintro ⟨-, -, -, hlen⟩
  exact absurd hlen (by decide)

end MagicWand.Shim
