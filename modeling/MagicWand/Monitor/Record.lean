import MagicWand.Message
import MagicWand.Monitor.Feature

/-!
# Netflow records

`mwsocket_postproc_emit_netflow` fills an `mw_netflow_info_t` from the instance
of a socket and a response, and `mw_netflow.py` takes the record apart.

The instance keeps its addresses in structures of 16 bytes. An IPv6 address does
not fit: 8 of its bytes do, and the driver copies the other 8 from the fields
that follow.
-/

namespace MagicWand.Monitor

open Foundation Foundation.Bytes

/-! ## The instance -/

def afInet : BitVec 16 := 2
def afInet6 : BitVec 16 := 10

/-- The `struct timespec` of a time. -/
structure Timespec where
  sec : BitVec 64
  nsec : BitVec 64
deriving DecidableEq, Repr

/-- `struct sockaddr`. -/
abbrev Sockaddr := Block 16

def Sockaddr.family (sa : Sockaddr) : BitVec 16 := sa.read 0 2

/-- The fields of `mwsocket_instance_t` that a record is made from, and those that
stand behind the two addresses. -/
structure Instance where
  remoteFd : BitVec 64
  peer : Sockaddr
  listenPort : BitVec 16
  localBind : Sockaddr
  pollEvents : BitVec 64
  estTime : Timespec
  totSent : BitVec 64
  totRecv : BitVec 64

namespace Instance

/-- What stands in memory behind the address of the peer. -/
def behindPeer (s : Instance) : List Byte := store 2 s.listenPort ++ s.localBind.bytes

/-- What stands behind the local address. `poll_events` is aligned to 8 bytes, and
the instance was cleared when it was made. -/
def behindLocalBind (s : Instance) : List Byte := List.replicate 6 0 ++ store 8 s.pollEvents

end Instance

/-! ## The record -/

/-- `mw_endpoint_t`. -/
structure MwEndpoint where
  af : BitVec 32
  a : Block 16
  port : BitVec 16
deriving DecidableEq, Repr

structure MwNetflowInfo where
  sig : BitVec 16
  id : BitVec 32
  obs : BitVec 16
  startSec : BitVec 64
  startNs : BitVec 64
  currSec : BitVec 64
  currNs : BitVec 64
  sockfd : BitVec 64
  pvm : MwEndpoint
  remote : MwEndpoint
  bytesIn : BitVec 64
  bytesOut : BitVec 64
  extra : BitVec 64
deriving DecidableEq, Repr

/-- `mw_base_t` of a record. -/
def MwNetflowInfo.base (nf : MwNetflowInfo) : List (List Byte) := [store 2 nf.sig, store 4 nf.id]

/-- The fields behind it. -/
def MwNetflowInfo.fields (nf : MwNetflowInfo) : List (List Byte) :=
  [store 2 nf.obs, store 8 nf.startSec, store 8 nf.startNs, store 8 nf.currSec, store 8 nf.currNs,
    store 8 nf.sockfd, store 4 nf.pvm.af, nf.pvm.a.bytes, store 2 nf.pvm.port, store 4 nf.remote.af,
    nf.remote.a.bytes, store 2 nf.remote.port, store 8 nf.bytesIn, store 8 nf.bytesOut,
    store 8 nf.extra]

def MwNetflowInfo.bytes (nf : MwNetflowInfo) : List Byte := nf.base.flatten ++ nf.fields.flatten

def mwMessageSigNetflowInfo : BitVec 16 := 0xd310

/-- `mwsocket_populate_netflow_ip`, with what stands behind the address. -/
def mwsocketPopulateNetflowIp (sa : Sockaddr) (behind : List Byte) : MwEndpoint :=
  if sa.family = afInet then
    { af := swapBytes 4 4
      a := Block.zero.write 0 (slice sa.bytes 4 4) (by simp [slice, sa.size])
      port := sa.read 2 2 }
  else if sa.family = afInet6 then
    { af := swapBytes 4 6
      a := Block.zero.write 0 (slice (sa.bytes ++ behind) 8 16) (by simp [slice])
      port := sa.read 2 2 }
  else { af := 0, a := Block.zero, port := 0 }

/-- `mwsocket_populate_netflow`, on a record with its other fields. -/
def populateNetflow (s : Instance) (now : Timespec) (obs : BitVec 16) (extra : BitVec 64) :
    MwNetflowInfo where
  sig := swapBytes 2 mwMessageSigNetflowInfo
  id := 0
  obs := obs
  startSec := swapBytes 8 s.estTime.sec
  startNs := swapBytes 8 s.estTime.nsec
  currSec := swapBytes 8 now.sec
  currNs := swapBytes 8 now.nsec
  -- `__cpu_to_be32` takes the lower half of the descriptor.
  sockfd := (swapBytes 4 (lower s.remoteFd)).setWidth 64
  pvm := mwsocketPopulateNetflowIp s.localBind s.behindLocalBind
  remote := mwsocketPopulateNetflowIp s.peer s.behindPeer
  bytesIn := swapBytes 8 s.totRecv
  bytesOut := swapBytes 8 s.totSent
  extra := extra

/-- The `mw_observation_t` of a response; the others are not reported. -/
def observation : MtResponseType → Option (BitVec 16)
  | .of .socketCreate => some 1
  | .of .socketBind => some 2
  | .of .socketAccept => some 3
  | .of .socketConnect => some 4
  | .of .socketRecv => some 5
  | .of .socketRecvFrom => some 5
  | .of .socketSend => some 6
  | .of .socketClose => some 7
  | _ => none

/-- The endpoint of the connection that an accept has given. -/
def acceptEndpoint (a : Block 16) (sa : MtSockaddrIn) : MwEndpoint where
  af := swapBytes 4 4
  a := a.write 0 (store 8 sa.sAddr) (by simp)
  port := sa.sinPort

/-- `mwsocket_postproc_emit_netflow`: the bytes of the record, if there is one. -/
def mwsocketPostprocEmitNetflow (consumerExists : Bool) (s : Instance) (now : Timespec)
    (resp : MtResponse) : Option (List Byte) :=
  if consumerExists then
    (observation resp.type).map fun obs =>
      let nf := populateNetflow s now (swapBytes 2 obs) (swapBytes 8 resp.sockfd)
      let nf := if resp.type = .of .socketAccept then
          { nf with remote := acceptEndpoint nf.remote.a resp.sockaddr }
        else nf
      nf.bytes
  else none

/-! ## The monitor -/

/-- An endpoint as the monitor shows it: the version, the address and the port. -/
structure Shown where
  version : Nat
  ip : List Byte
  port : Int
deriving DecidableEq, Repr

/-- `endpoint`; the monitor stops at any other address family. -/
def endpoint (af : Int) (ip : List Byte) (port : Int) : Option Shown :=
  if af = 4 then some ⟨4, ip.take 4, port⟩
  else if af = 6 then some ⟨6, ip, port⟩
  else none

def infoFmt : Format :=
  [.unsigned 2, .unsigned 8, .unsigned 8, .unsigned 8, .unsigned 8, .unsigned 8, .unsigned 4,
    .bytes 16, .unsigned 2, .unsigned 4, .bytes 16, .unsigned 2, .unsigned 8, .unsigned 8, .unsigned 8]

/-- What the monitor takes from a record. -/
structure Info where
  obs : Int
  startSec : Int
  startNs : Int
  currSec : Int
  currNs : Int
  sockfd : Int
  pvm : Shown
  remote : Shown
  inbytes : Int
  outbytes : Int
  extra : Int
deriving DecidableEq, Repr

/-- `process_info_netflow`, on the bytes behind the base. -/
def processInfoNetflow (bs : List Byte) : Option Info :=
  match infoFmt.unpack bs with
  | some [.int o, .int ss, .int sn, .int cs, .int cn, .int fd, .int pf, .str pa, .int pp, .int rf,
      .str ra, .int rp, .int inb, .int outb, .int ex] =>
      (endpoint pf pa pp).bind fun pvm => (endpoint rf ra rp).map fun remote =>
        ⟨o, ss, sn, cs, cn, fd, pvm, remote, inb, outb, ex⟩
  | _ => none

/-- `get_msg`, for a record that has arrived as a whole. -/
def getInfo (bs : List Byte) : Option Info :=
  match baseFmt.unpack (bs.take 6) with
  | some [.int sig, .int _] =>
      if sig = mwMessageSigNetflowInfo.toNat then processInfoNetflow (bs.drop 6) else none
  | _ => none

/-! ## Taking a record apart -/

/-- A stored number as the monitor reads it. -/
def wire {w : Nat} (n : Nat) (x : BitVec w) : Int := beNat (store n x)

theorem wire_swapBytes {w n : Nat} (hw : w = 8 * n) (x : BitVec w) :
    wire n (swapBytes n x) = x.toNat := by
  have hx : x.toNat < 2 ^ (8 * n) := hw ▸ x.isLt
  rw [wire, store_swapBytes hw, beNat_beBytes, Nat.mod_eq_of_lt hx]

def MwEndpoint.show (e : MwEndpoint) : Option Shown := endpoint (wire 4 e.af) e.a.bytes (wire 2 e.port)

theorem processInfoNetflow_fields (nf : MwNetflowInfo) :
    processInfoNetflow nf.fields.flatten =
      nf.pvm.show.bind fun pvm => nf.remote.show.map fun remote =>
        ⟨wire 2 nf.obs, wire 8 nf.startSec, wire 8 nf.startNs, wire 8 nf.currSec, wire 8 nf.currNs,
          wire 8 nf.sockfd, pvm, remote, wire 8 nf.bytesIn, wire 8 nf.bytesOut, wire 8 nf.extra⟩ := by
  have hsizes : nf.fields.map List.length = infoFmt.map Field.size := by
    simp only [MwNetflowInfo.fields, infoFmt, List.map_cons, List.map_nil, length_store, Block.size,
      Field.size]
  rw [processInfoNetflow, Format.unpack_flatten hsizes]
  rfl

theorem getInfo_bytes (nf : MwNetflowInfo) (hsig : nf.sig = swapBytes 2 mwMessageSigNetflowInfo) :
    getInfo nf.bytes = processInfoNetflow nf.fields.flatten := by
  have hbase : nf.base.flatten.length = 6 := by simp [MwNetflowInfo.base]
  have hunpack : baseFmt.unpack nf.base.flatten = some [.int (wire 2 nf.sig), .int (wire 4 nf.id)] := by
    rw [Format.unpack_flatten (by simp [MwNetflowInfo.base, baseFmt, Field.size])]
    rfl
  have hsame : wire 2 nf.sig = mwMessageSigNetflowInfo.toNat := by
    rw [hsig, wire_swapBytes rfl]
  rw [getInfo, MwNetflowInfo.bytes, List.take_left' hbase, List.drop_left' hbase, hunpack]
  simp only [hsame, if_true]

/-! ## Endpoints -/

/-- The address and the port at one end of a connection. -/
inductive Endpoint where
  | v4 (addr : Block 4) (port : BitVec 16)
  | v6 (addr : Block 16) (port : BitVec 16)
deriving DecidableEq, Repr

def Endpoint.shown : Endpoint → Shown
  | .v4 addr port => ⟨4, addr.bytes, port.toNat⟩
  | .v6 addr port => ⟨6, addr.bytes, port.toNat⟩

/-- The structure holds the endpoint, as far as it goes. -/
def Sockaddr.Holds (sa : Sockaddr) : Endpoint → Prop
  | .v4 addr port => sa.family = afInet ∧ slice sa.bytes 2 2 = beBytes 2 port.toNat ∧
      slice sa.bytes 4 4 = addr.bytes
  | .v6 addr port => sa.family = afInet6 ∧ slice sa.bytes 2 2 = beBytes 2 port.toNat ∧
      slice sa.bytes 8 8 = addr.bytes.take 8

instance (sa : Sockaddr) : DecidablePred sa.Holds := fun e => by
  cases e <;> unfold Sockaddr.Holds <;> infer_instance

/-- The rest of the address happens to stand behind the structure. -/
def Endpoint.Fits (behind : List Byte) : Endpoint → Prop
  | .v4 _ _ => True
  | .v6 addr _ => behind.take 8 = addr.bytes.drop 8

theorem show_port {sa : Sockaddr} {port : BitVec 16} (h : slice sa.bytes 2 2 = beBytes 2 port.toNat) :
    wire 2 (sa.read 2 2) = port.toNat := by
  have hport : port.toNat < 2 ^ (8 * 2) := port.isLt
  rw [wire, Block.store_read sa (by decide), h, beNat_beBytes, Nat.mod_eq_of_lt hport]

theorem show_populate_v4 {sa : Sockaddr} (behind : List Byte) {addr : Block 4} {port : BitVec 16}
    (h : sa.Holds (.v4 addr port)) :
    (mwsocketPopulateNetflowIp sa behind).show = some (Endpoint.v4 addr port).shown := by
  obtain ⟨hfamily, hport, haddr⟩ := h
  have hip : (addr.bytes ++ List.replicate 12 (0 : Byte)).take 4 = addr.bytes := List.take_left' addr.size
  have ha : ((Block.zero : Block 16).write 0 (slice sa.bytes 4 4) (by simp [slice, sa.size])).bytes =
      addr.bytes ++ List.replicate 12 0 := by
    simp only [Block.write, Block.zero, haddr, addr.size, List.take_zero, List.nil_append,
      List.drop_replicate]
  have haf : wire 4 (swapBytes 4 (4 : BitVec 32)) = 4 := wire_swapBytes rfl _
  rw [mwsocketPopulateNetflowIp, if_pos hfamily, MwEndpoint.show, haf, show_port hport, ha, endpoint,
    if_pos rfl, hip]
  rfl

theorem show_populate_v6 {sa : Sockaddr} {behind : List Byte} {addr : Block 16} {port : BitVec 16}
    (h : sa.Holds (.v6 addr port)) (hbehind : 8 ≤ behind.length) :
    (mwsocketPopulateNetflowIp sa behind).show =
      some ⟨6, addr.bytes.take 8 ++ behind.take 8, port.toNat⟩ := by
  obtain ⟨hfamily, hport, haddr⟩ := h
  have hsa := sa.size
  have hne : ¬ sa.family = afInet := by
    rw [hfamily]
    decide
  have hslice : slice (sa.bytes ++ behind) 8 16 = addr.bytes.take 8 ++ behind.take 8 := by
    have hall : (sa.bytes.drop 8).take 8 = sa.bytes.drop 8 := List.take_of_length_le (by simp [hsa])
    have hlen : (sa.bytes.drop 8).length = 8 := by simp [hsa]
    rw [← haddr, slice, slice, List.drop_append_of_le_length (by omega), List.take_append, hlen, hall,
      List.take_of_length_le (by omega)]
  have hlen : (slice (sa.bytes ++ behind) 8 16).length = 16 := by
    rw [slice, List.length_take, List.length_drop, List.length_append]
    omega
  have ha : ((Block.zero : Block 16).write 0 (slice (sa.bytes ++ behind) 8 16) (by simp [slice])).bytes =
      addr.bytes.take 8 ++ behind.take 8 := by
    rw [hslice] at hlen
    simp only [Block.write, Block.zero, List.take_zero, List.nil_append, List.drop_replicate,
      Nat.zero_add, hslice, hlen, Nat.sub_self, List.replicate_zero, List.append_nil]
  rw [mwsocketPopulateNetflowIp, if_neg hne, if_pos hfamily, MwEndpoint.show, wire_swapBytes rfl,
    show_port hport, ha]
  rfl

/-- The monitor shows some endpoint, and the right one if the address fits. -/
theorem show_populate {sa : Sockaddr} {behind : List Byte} {e : Endpoint} (h : sa.Holds e)
    (hbehind : 8 ≤ behind.length) :
    ∃ shown, (mwsocketPopulateNetflowIp sa behind).show = some shown ∧
      (shown = e.shown ↔ e.Fits behind) := by
  cases e with
  | v4 addr port => exact ⟨_, show_populate_v4 behind h, iff_of_true rfl trivial⟩
  | v6 addr port =>
      refine ⟨_, show_populate_v6 h hbehind, ?_⟩
      have hsplit := List.take_append_drop 8 addr.bytes
      constructor
      · intro heq
        have hip : addr.bytes.take 8 ++ behind.take 8 = addr.bytes := congrArg Shown.ip heq
        exact List.append_cancel_left (hip.trans hsplit.symm)
      · intro hfits
        have hrest : behind.take 8 = addr.bytes.drop 8 := hfits
        rw [hrest, hsplit]
        rfl

theorem show_accept (a : Block 16) (sa : MtSockaddrIn) :
    (acceptEndpoint a sa).show = some ⟨4, (store 8 sa.sAddr).take 4, wire 2 sa.sinPort⟩ := by
  have hip : (acceptEndpoint a sa).a.bytes.take 4 = (store 8 sa.sAddr).take 4 := by
    show (a.bytes.take 0 ++ (store 8 sa.sAddr ++ a.bytes.drop _)).take 4 = _
    rw [List.take_zero, List.nil_append, List.take_append_of_le_length (by simp)]
  have haf : wire 4 (acceptEndpoint a sa).af = 4 := wire_swapBytes rfl _
  rw [MwEndpoint.show, haf, endpoint, if_pos rfl, hip]
  rfl

/-! ## Exact records -/

/-- What a record should tell. -/
def expected (s : Instance) (now : Timespec) (obs : BitVec 16) (resp : MtResponse)
    (pvm remote : Endpoint) : Info where
  obs := obs.toNat
  startSec := s.estTime.sec.toNat
  startNs := s.estTime.nsec.toNat
  currSec := now.sec.toNat
  currNs := now.nsec.toNat
  sockfd := s.remoteFd.toNat
  pvm := pvm.shown
  remote :=
    if resp.type = .of .socketAccept then
      ⟨4, (store 8 resp.sockaddr.sAddr).take 4, wire 2 resp.sockaddr.sinPort⟩
    else remote.shown
  inbytes := s.totRecv.toNat
  outbytes := s.totSent.toNat
  extra := resp.sockfd.toNat

/-- The lower half of a descriptor in the place of the upper. -/
theorem wire_sockfd_iff (fd : BitVec 64) :
    wire 8 ((swapBytes 4 (lower fd)).setWidth 64) = fd.toNat ↔ fd = 0 := by
  have hlow : ((swapBytes 4 (lower fd)).setWidth 64).toNat = (swapBytes 4 (lower fd)).toNat :=
    BitVec.toNat_setWidth_of_le (by decide)
  have hhigh : (swapBytes 4 (lower fd)).toNat / 2 ^ (8 * 4) = 0 :=
    Nat.div_eq_of_lt (swapBytes 4 (lower fd)).isLt
  have hzero : (leBytes 4 0).reverse = leBytes 4 0 := by decide
  have hstore : store 8 ((swapBytes 4 (lower fd)).setWidth 64) =
      beBytes 4 (lower fd).toNat ++ leBytes 4 0 := by
    rw [store, hlow, leBytes_add 4 4, hhigh, ← store, store_swapBytes rfl]
  have hlt : (lower fd).toNat < 2 ^ 32 := (lower fd).isLt
  have hread : beNat (beBytes 4 (lower fd).toNat ++ leBytes 4 0) = 2 ^ 32 * (lower fd).toNat := by
    have hback : (beBytes 4 (lower fd).toNat).reverse = leBytes 4 (lower fd).toNat :=
      List.reverse_reverse _
    rw [beNat, List.reverse_append, hzero, hback, leNat_append, leNat_leBytes, leNat_leBytes,
      length_leBytes, Nat.mod_eq_of_lt hlt]
    exact Nat.zero_add _
  have hlower := toNat_lower fd
  rw [wire, hstore, hread]
  constructor
  · intro heq
    have hnat : 2 ^ 32 * (lower fd).toNat = fd.toNat := Int.ofNat.inj heq
    have hfd : fd.toNat = 0 := by omega
    exact BitVec.eq_of_toNat_eq hfd
  · rintro rfl
    rfl

/-- A record is exact for descriptor 0 only, and for addresses that fit. -/
theorem netflow_record_exact_iff (s : Instance) (now : Timespec) (resp : MtResponse)
    (pvm remote : Endpoint) (obs : BitVec 16) (bs : List Byte)
    (hpvm : s.localBind.Holds pvm) (hremote : s.peer.Holds remote)
    (hobs : observation resp.type = some obs)
    (hemit : mwsocketPostprocEmitNetflow true s now resp = some bs) :
    getInfo bs = some (expected s now obs resp pvm remote) ↔
      s.remoteFd = 0 ∧ pvm.Fits s.behindLocalBind ∧
        (resp.type = .of .socketAccept ∨ remote.Fits s.behindPeer) := by
  obtain ⟨shownPvm, hshow, hfits⟩ := show_populate hpvm
    (show 8 ≤ s.behindLocalBind.length by simp [Instance.behindLocalBind])
  obtain ⟨shownRemote, hshow', hfits'⟩ := show_populate hremote
    (show 8 ≤ s.behindPeer.length by simp [Instance.behindPeer, s.localBind.size])
  let nf := populateNetflow s now (swapBytes 2 obs) (swapBytes 8 resp.sockfd)
  -- What the monitor shows for the endpoints of a record.
  have hinfo (e : MwEndpoint) (shown : Shown) (he : e.show = some shown) :
      getInfo { nf with remote := e }.bytes = some
        { expected s now obs resp pvm remote with
          sockfd := wire 8 nf.sockfd, pvm := shownPvm, remote := shown } := by
    rw [getInfo_bytes _ rfl, processInfoNetflow_fields]
    simp only [he, Option.map_some]
    rw [show nf.pvm.show = some shownPvm from hshow, Option.bind_some]
    simp only [nf, populateNetflow, expected, wire_swapBytes rfl]
  have hfd : wire 8 nf.sockfd = s.remoteFd.toNat ↔ s.remoteFd = 0 := wire_sockfd_iff s.remoteFd
  simp only [mwsocketPostprocEmitNetflow, if_true, hobs, Option.map_some, Option.some.injEq] at hemit
  by_cases hacc : resp.type = .of .socketAccept
  · rw [if_pos hacc] at hemit
    rw [← hemit, hinfo _ _ (show_accept _ _), ← hfd, ← hfits]
    simp only [expected, hacc, if_true, Option.some.injEq, Info.mk.injEq, true_and, and_true, true_or]
  · rw [if_neg hacc] at hemit
    rw [← hemit, hinfo nf.remote _ hshow', ← hfd, ← hfits, ← hfits']
    simp only [expected, hacc, if_false, Option.some.injEq, Info.mk.injEq, true_and, and_true, false_or]

/-- A connection from 10.0.0.9:4242 to 10.0.0.1:80. -/
def connected (fd : BitVec 64) : Instance where
  remoteFd := fd
  peer := ⟨[2, 0, 16, 146, 10, 0, 0, 9, 0, 0, 0, 0, 0, 0, 0, 0], rfl⟩
  listenPort := 0
  localBind := ⟨[2, 0, 0, 80, 10, 0, 0, 1, 0, 0, 0, 0, 0, 0, 0, 0], rfl⟩
  pollEvents := 0
  estTime := ⟨1500000000, 1000⟩
  totSent := 512
  totRecv := 64

def connectedLocal : Endpoint := .v4 ⟨[10, 0, 0, 1], rfl⟩ 80
def connectedPeer : Endpoint := .v4 ⟨[10, 0, 0, 9], rfl⟩ 4242

def sendResponse : MtResponse := { type := .of .socketSend, sockfd := 3 }

theorem netflow_record_exact_iff_send : ∃ bs,
    mwsocketPostprocEmitNetflow true (connected 3) ⟨1500000060, 0⟩ sendResponse = some bs ∧
      (getInfo bs =
          some (expected (connected 3) ⟨1500000060, 0⟩ 6 sendResponse connectedLocal connectedPeer) ↔
        (connected 3).remoteFd = 0 ∧ connectedLocal.Fits (connected 3).behindLocalBind ∧
          (sendResponse.type = .of .socketAccept ∨ connectedPeer.Fits (connected 3).behindPeer)) :=
  ⟨_, rfl, netflow_record_exact_iff (connected 3) ⟨1500000060, 0⟩ sendResponse connectedLocal
    connectedPeer 6 _ (by decide) (by decide) rfl rfl⟩

/-- The record of descriptor 3 tells of descriptor 3 · 2^32. -/
theorem netflow_record_descriptor : ∃ bs,
    mwsocketPostprocEmitNetflow true (connected 3) ⟨1500000060, 0⟩ sendResponse = some bs ∧
      (getInfo bs).map Info.sockfd = some (3 * 2 ^ 32) ∧
      getInfo bs ≠
        some (expected (connected 3) ⟨1500000060, 0⟩ 6 sendResponse connectedLocal connectedPeer) := by
  have hfd : (getInfo (((populateNetflow (connected 3) ⟨1500000060, 0⟩ (swapBytes 2 6)
      (swapBytes 8 sendResponse.sockfd))).bytes)).map Info.sockfd = some (3 * 2 ^ 32) := by
    decide
  refine ⟨_, rfl, hfd, fun heq => ?_⟩
  have hwrong := hfd.symm.trans (congrArg (Option.map Info.sockfd) heq)
  exact absurd hwrong (by decide)

end MagicWand.Monitor
