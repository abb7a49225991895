import Mathlib.Algebra.Ring.Int.Defs
import Mathlib.Algebra.Ring.Nat
import Mathlib.Data.List.Basic

/-!
# Messages shared by the protected VM and the INS

`common/message_types.h`, `common/mwsocket.h`, `common/translate.h`: request
and response types, flags, the fields of every message, the public socket
descriptors and the address translation. The structures are packed, so their
sizes are plain sums; `mt_sockaddr_in_t` alone keeps its natural alignment.

A request (and a response) is a C union over the per-type bodies. Every reader
uses only the view that belongs to the message type, so one record holds all
the views side by side.
-/

namespace MagicWand

/-! ## Configuration -/

def messageTargetMaxSize : Nat := 0x800

def messageTypeMaxPayloadLen : Nat := messageTargetMaxSize - 0x3e - 1

def maxInsCount : Nat := 3

/-- `MW_ERROR_REMOTE_SURPRISE_CLOSE`, which is `EPIPE`. -/
def mwErrorRemoteSurpriseClose : Int := 32

/-! ## Request types -/

inductive MtRequestType where
  | invalid
  | socketCreate
  | socketShutdown
  | socketClose
  | socketConnect
  | socketBind
  | socketListen
  | socketAccept
  | socketSend
  | socketRecv
  | socketRecvFrom
  | socketGetName
  | socketGetPeer
  | socketAttrib
  | pollsetQuery
  | addrBlock
  | unknown (code : Nat)
deriving DecidableEq, Repr

namespace MtRequestType

/-- The value on the wire, with the `ALLOC_FD` (0x100), `DEALLOC_FD` (0x200)
and `CLOSE_WAITS` (0x400) bits. -/
def code : MtRequestType → Nat
  | .invalid => 0x00
  | .socketCreate => 0x101
  | .socketShutdown => 0x02
  | .socketClose => 0x203
  | .socketConnect => 0x10
  | .socketBind => 0x11
  | .socketListen => 0x12
  | .socketAccept => 0x113
  | .socketSend => 0x420
  | .socketRecv => 0x21
  | .socketRecvFrom => 0x22
  | .socketGetName => 0x430
  | .socketGetPeer => 0x431
  | .socketAttrib => 0x32
  | .pollsetQuery => 0x33
  | .addrBlock => 0x34
  | .unknown c => c

/-- `MT_DEALLOCATES_FD`. -/
def deallocatesFd (t : MtRequestType) : Bool := t.code &&& 0x200 ≠ 0

/-- `MT_CLOSE_WAITS`. -/
def closeWaits (t : MtRequestType) : Bool := t.code &&& 0x400 ≠ 0

end MtRequestType

/-- The type field of a response: `MT_RESPONSE(t)`, or the zero a handler that
never set its response leaves there. -/
inductive MtResponseType where
  | unset
  | of (t : MtRequestType)
deriving DecidableEq, Repr

/-! ## Flags -/

abbrev MtFlags := BitVec 32

namespace MtFlags

def pvmCallerAwaitsResponse : MtFlags := 0x00000001#32
def remoteClosed : MtFlags := 0x80000000#32
def batchSendInit : MtFlags := 0x40000000#32
def batchSend : MtFlags := 0x20000000#32
def batchSendFini : MtFlags := 0x10000000#32

/-- `f & m`, as a condition. -/
def has (f m : MtFlags) : Bool := f &&& m != 0

@[simp] theorem has_zero (m : MtFlags) : has 0 m = false := by
  simp [has]

@[simp] theorem has_or (f g m : MtFlags) : has (f ||| g) m = (f.has m || g.has m) := by
  have hdistrib : (f ||| g) &&& m = (f &&& m) ||| (g &&& m) := by
    ext i
    simp [Bool.and_or_distrib_right]
  rw [has, has, has, hdistrib, Bool.eq_iff_iff]
  simp [BitVec.or_eq_zero_iff, Classical.or_iff_not_imp_left]

/-- Clearing bits that are not asked for. -/
theorem has_and_not_of_disjoint (f : MtFlags) {c m : MtFlags} (h : ~~~c &&& m = m) :
    has (f &&& ~~~c) m = f.has m := by
  rw [has, has, BitVec.and_assoc, h]

/-- Clearing all the bits that are asked for. -/
theorem has_and_not_of_covered (f : MtFlags) {c m : MtFlags} (h : ~~~c &&& m = 0) :
    has (f &&& ~~~c) m = false := by
  simp [has, BitVec.and_assoc, h]

end MtFlags

/-- `MW_SOCK_NONBLOCK`, octal 4000. -/
def mwSockNonblock : MtFlags := 0x800#32

/-! ## Public socket descriptors -/

abbrev MwSocketFd := BitVec 64

def mtInvalidSocketFd : MwSocketFd := BitVec.allOnes 64

/-- `MW_SOCKET_IS_FD`. -/
def mwSocketIsFd (x : MwSocketFd) : Bool := x >>> 56 == 0x53#64

/-- `MW_SOCKET_CREATE`. -/
def mwSocketCreate (clientid : BitVec 16) (sockfd : MwSocketFd) : MwSocketFd :=
  (0x53#64 <<< 56) ||| (clientid.setWidth 64 <<< 40) ||| (sockfd &&& 0x00000000ffffffff#64)

/-- `MW_SOCKET_GET_ID`. -/
def mwSocketGetId (x : MwSocketFd) : BitVec 64 := x &&& 0x00000000ffffffff#64

/-- `MW_SOCKET_CLIENT_ID`. -/
def mwSocketClientId (x : MwSocketFd) : BitVec 16 :=
  ((x &&& 0x00ffff0000000000#64) >>> 40).setWidth 16

theorem toNat_mwSocketCreate (clientid : BitVec 16) (x : MwSocketFd) :
    (mwSocketCreate clientid x).toNat =
      0x53 * 2 ^ 56 + clientid.toNat * 2 ^ 40 + x.toNat % 2 ^ 32 := by
  have hid : x.toNat &&& 0xffffffff = x.toNat % 2 ^ 32 := Nat.and_two_pow_sub_one_eq_mod x.toNat 32
  have hclient : (clientid.setWidth 64 <<< 40).toNat = 2 ^ 40 * clientid.toNat := by
    rw [BitVec.toNat_shiftLeft, BitVec.toNat_setWidth, Nat.shiftLeft_eq]
    omega
  have hprefix : (0x53#64 <<< 56).toNat = 2 ^ 56 * 0x53 := by decide
  have hhigh : 2 ^ 56 * 0x53 + 2 ^ 40 * clientid.toNat =
      2 ^ 40 * (2 ^ 16 * 0x53 + clientid.toNat) := by omega
  rw [mwSocketCreate, BitVec.toNat_or, BitVec.toNat_or, BitVec.toNat_and, hprefix, hclient,
    show (0x00000000ffffffff#64).toNat = 0xffffffff from rfl, hid,
    ← Nat.two_pow_add_eq_or_of_lt (show 2 ^ 40 * clientid.toNat < 2 ^ 56 by omega), hhigh,
    ← Nat.two_pow_add_eq_or_of_lt (show x.toNat % 2 ^ 32 < 2 ^ 40 by omega)]
  omega

/-! The fields of a public descriptor. -/

theorem mwSocketIsFd_create (clientid : BitVec 16) (x : MwSocketFd) :
    mwSocketIsFd (mwSocketCreate clientid x) = true := by
  rw [mwSocketIsFd, beq_iff_eq]
  apply BitVec.eq_of_toNat_eq
  rw [BitVec.toNat_ushiftRight, toNat_mwSocketCreate, Nat.shiftRight_eq_div_pow,
    show (0x53#64).toNat = 0x53 from rfl]
  omega

theorem mwSocketClientId_create (clientid : BitVec 16) (x : MwSocketFd) :
    mwSocketClientId (mwSocketCreate clientid x) = clientid := by
  apply BitVec.eq_of_toNat_eq
  rw [mwSocketClientId, BitVec.toNat_setWidth, BitVec.toNat_ushiftRight, BitVec.toNat_and,
    toNat_mwSocketCreate, Nat.shiftRight_and_distrib, Nat.shiftRight_eq_div_pow,
    show (0x00ffff0000000000#64).toNat >>> 40 = 2 ^ 16 - 1 from rfl,
    Nat.and_two_pow_sub_one_eq_mod]
  omega

theorem toNat_mwSocketGetId_create (clientid : BitVec 16) (x : MwSocketFd) :
    (mwSocketGetId (mwSocketCreate clientid x)).toNat = x.toNat % 2 ^ 32 := by
  rw [mwSocketGetId, BitVec.toNat_and, toNat_mwSocketCreate,
    show (0x00000000ffffffff#64).toNat = 2 ^ 32 - 1 from rfl, Nat.and_two_pow_sub_one_eq_mod]
  omega

/-! ## Status -/

/-- `MT_STATUS_INTERNAL_ERROR`, the critical error 0xc0000001 stored in the
signed 32-bit status. -/
def mtStatusInternalError : Int := (0xc0000001#32).toInt

/-- `IS_CRITICAL_ERROR`; the shift of a signed status is arithmetic. -/
def isCriticalError (status : Int) : Bool := status >>> (24 : Nat) == 0xc0

/-! ## Addresses -/

structure MtSockaddrIn where
  sinFamily : BitVec 32 := 0
  sinPort : BitVec 16 := 0
  sAddr : BitVec 64 := 0
  sinZero : List (BitVec 8) := List.replicate 8 0
deriving DecidableEq, Repr

structure SockaddrIn where
  sinFamily : BitVec 8 := 0
  sinPort : BitVec 16 := 0
  sAddr : BitVec 32 := 0
  sinZero : List (BitVec 8) := List.replicate 8 0
deriving DecidableEq, Repr

/-- `xe_net_get_native_protocol_family`; `AF_INET` is 2 and `AF_INET6` is 24 on
the INS, and anything else becomes the 8-bit image of -1. -/
def xeNetGetNativeProtocolFamily (fam : BitVec 32) : BitVec 8 :=
  if fam = 1 then 2 else if fam = 2 then 24 else BitVec.allOnes 8

def xeNetGetMtProtocolFamily (fam : BitVec 8) : BitVec 32 :=
  if fam = 2 then 1 else if fam = 24 then 2 else BitVec.allOnes 32

/-- `xe_net_get_native_sock_type`: `SOCK_DGRAM` is 2, `SOCK_STREAM` is 1. -/
def xeNetGetNativeSockType (type : BitVec 32) : Int :=
  if type = 1 then 2 else if type = 2 then 1 else -1

def populateSockaddrIn (a : MtSockaddrIn) : SockaddrIn where
  sinFamily := xeNetGetNativeProtocolFamily a.sinFamily
  sinPort := a.sinPort
  sAddr := a.sAddr.setWidth 32
  sinZero := a.sinZero

def populateMtSockaddrIn (a : SockaddrIn) : MtSockaddrIn where
  sinFamily := xeNetGetMtProtocolFamily a.sinFamily
  sinPort := a.sinPort
  sAddr := a.sAddr.setWidth 64
  sinZero := a.sinZero

/-! ## Socket attributes -/

/-- The attribute names the INS distinguishes (`mt_sockfeat_name_val_t`). -/
inductive MtSockfeatName where
  | nonblock
  | reuseaddr
  | reuseport
  | keepalive
  | deferAccept
  | nodelay
  | sndBuf
  | rcvBuf
  | sndTimeo
  | rcvTimeo
  | sndLoWat
  | rcvLoWat
  | error
  | globalCongctl
  | globalDelackTicks
  | other (code : Nat)
deriving DecidableEq, Repr

/-- `mt_sockfeat_arg_t`: the 32-bit view and the time view of one union. -/
structure MtSockfeatArg where
  v32 : BitVec 32 := 0
  s : BitVec 64 := 0
  us : BitVec 64 := 0
deriving DecidableEq, Repr

/-! ## Requests -/

structure MtRequest where
  sig : BitVec 16 := 0xff11
  type : MtRequestType := .invalid
  size : Nat := 0
  id : BitVec 64 := 0
  sockfd : MwSocketFd := 0
  flags : MtFlags := 0
  -- socket_create
  sockFam : BitVec 32 := 0
  sockType : BitVec 32 := 0
  sockProtocol : BitVec 32 := 0
  -- socket_bind, socket_connect
  sockaddr : MtSockaddrIn := {}
  -- socket_listen
  backlog : Int := 0
  -- socket_shutdown
  how : BitVec 32 := 0
  -- flags of accept4(), recv() and send()
  opFlags : MtFlags := 0
  -- socket_recv, socket_recvfrom
  requested : Nat := 0
  -- socket_send
  bytes : List (BitVec 8) := []
  -- socket_getname, socket_getpeer
  maxlen : Nat := 0
  -- socket_attrib
  modify : Bool := false
  name : MtSockfeatName := .other 0
  val : MtSockfeatArg := {}
  -- addr_block
  block : BitVec 32 := 0
  addr : List (BitVec 8) := []
deriving DecidableEq, Repr

def mtSignatureRequest : BitVec 16 := 0xff11
def mtSignatureResponse : BitVec 16 := 0xff33

/-- `MT_REQUEST_BASE_SIZE`. -/
def mtRequestBaseSize : Nat := 28

/-- `MT_REQUEST_SOCKET_SEND_SIZE`, the header before the payload. -/
def mtRequestSocketSendSize : Nat := mtRequestBaseSize + 4

def mtRequestSocketRecvSize : Nat := mtRequestBaseSize + 4 + 2

/-- `sizeof(mt_request_generic_t)`: the send request is the largest member. -/
def mtRequestGenericSize : Nat := mtRequestSocketSendSize + messageTypeMaxPayloadLen

namespace MtRequest

/-- `MT_IS_REQUEST`. The response bit of the type is 0x8000. -/
def isRequest (r : MtRequest) : Bool :=
  r.sig == mtSignatureRequest && r.type.code &&& 0x8000 == 0 && decide (mtRequestBaseSize ≤ r.size)

/-- `MT_REQUEST_CALLER_WAITS`. -/
def callerWaits (r : MtRequest) : Bool := r.flags.has MtFlags.pvmCallerAwaitsResponse

end MtRequest

/-! ## Responses -/

structure MtPollsetItem where
  sockfd : MwSocketFd := 0
  events : BitVec 32 := 0
deriving DecidableEq, Repr

structure MtResponse where
  sig : BitVec 16 := 0
  type : MtResponseType := .unset
  size : Nat := 0
  id : BitVec 64 := 0
  sockfd : MwSocketFd := 0
  status : Int := 0
  flags : MtFlags := 0
  -- flags copied back by accept and send
  opFlags : MtFlags := 0
  -- socket_accept, socket_recvfrom (src_addr), socket_getname
  sockaddr : MtSockaddrIn := {}
  -- socket_recvfrom
  addrlen : Nat := 0
  -- socket_send, socket_recv, socket_recvfrom: 16 bits wide
  count : Nat := 0
  bytes : List (BitVec 8) := []
  -- socket_getname
  reslen : Nat := 0
  -- socket_attrib
  name : MtSockfeatName := .other 0
  val : MtSockfeatArg := {}
  -- pollset_query
  items : List MtPollsetItem := []
deriving DecidableEq, Repr

def mtResponseBaseSize : Nat := 40
def mtResponseSocketAcceptSize : Nat := mtResponseBaseSize + 4 + 24
def mtResponseSocketSendSize : Nat := mtResponseBaseSize + 4 + 2
def mtResponseSocketRecvSize : Nat := mtResponseBaseSize + 2
def mtResponseSocketRecvfromSize : Nat := mtResponseBaseSize + 24 + 2 + 4
def mtResponseSocketGetnameSize : Nat := mtResponseBaseSize + 2 + 24
def mtResponseSocketAttribSize : Nat := mtResponseBaseSize + 2 + 16
def mtResponsePollsetQuerySize : Nat := mtResponseBaseSize + 4
def mtResponsePollsetQueryItemSize : Nat := 8 + 4

/-- `MT_POLLSET_QUERY_MAX_ITEMS`. -/
def mtPollsetQueryMaxItems : Nat := messageTypeMaxPayloadLen / mtResponsePollsetQueryItemSize

namespace MtResponse

/-- `MT_IS_RESPONSE`. -/
def isResponse (r : MtResponse) : Bool :=
  r.sig == mtSignatureResponse && r.type != .unset && decide (mtResponseBaseSize ≤ r.size)

end MtResponse

end MagicWand
