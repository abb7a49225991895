import MagicWand.Foundation.Bytes
import MagicWand.Message

/-!
# Receive responses in shared memory

The byte image of `mt_response_socket_recv_t` and `mt_response_socket_recvfrom_t`.
Both are packed and start with the same base; the first has its count right
after the base, the second a source address and its length in between. The
address keeps the natural alignment of `mt_sockaddr_in_t`, so there are two bytes
of padding after the port that no one sets.
-/

namespace MagicWand

open Foundation Bytes

/-- The value of the type field, with `MT_RESPONSE_MASK`. -/
def MtResponseType.code : MtResponseType → Nat
  | .unset => 0
  | .of t => t.code ||| 0x8000

/-- The bytes of a response that no field of the record accounts for: the time
the INS took (`ts_ins`) and the padding of the source address. -/
structure Unset where
  tsIns : Nat := 0
  padding : Nat := 0
deriving DecidableEq, Repr

/-- `mt_response_base_t`. -/
def encodeBase (u : Unset) (r : MtResponse) : List Byte :=
  leBytes 2 r.sig.toNat ++ leBytes 4 r.type.code ++ leBytes 2 r.size ++ leBytes 8 r.id.toNat ++
    leBytes 8 r.sockfd.toNat ++ leBytes 4 (BitVec.ofInt 32 r.status).toNat ++
    leBytes 4 r.flags.toNat ++ leBytes 8 u.tsIns

/-- `mt_sockaddr_in_t`, 24 bytes. -/
def encodeSockaddr (u : Unset) (a : MtSockaddrIn) : List Byte :=
  leBytes 4 a.sinFamily.toNat ++ leBytes 2 a.sinPort.toNat ++ leBytes 2 u.padding ++
    leBytes 8 a.sAddr.toNat ++ (a.sinZero ++ List.replicate 8 0).take 8

/-- What `mt_response_socket_recvfrom_t` has between the base and the data. -/
def encodeSource (u : Unset) (a : MtSockaddrIn) (addrlen count : Nat) : List Byte :=
  encodeSockaddr u a ++ leBytes 4 addrlen ++ leBytes 2 count

/-- `mt_response_socket_recv_t`. -/
def encodeRecv (u : Unset) (r : MtResponse) : List Byte :=
  encodeBase u r ++ (leBytes 2 r.count ++ r.bytes)

/-- `mt_response_socket_recvfrom_t`. -/
def encodeRecvfrom (u : Unset) (r : MtResponse) : List Byte :=
  encodeBase u r ++ (encodeSource u r.sockaddr r.addrlen r.count ++ r.bytes)

/-- What a receive handler leaves in memory. -/
def encodeReceived (u : Unset) (r : MtResponse) : List Byte :=
  if r.type = .of .socketRecvFrom then encodeRecvfrom u r else encodeRecv u r

/-! ## Offsets -/

/-- `offsetof(mt_response_socket_recv_t, count)`. -/
def recvCountOffset : Nat := mtResponseBaseSize

/-- `offsetof(mt_response_socket_recv_t, bytes)`. -/
def recvBytesOffset : Nat := mtResponseSocketRecvSize

/-- `offsetof(mt_response_socket_recvfrom_t, count)`. -/
def recvfromCountOffset : Nat := mtResponseBaseSize + 24 + 4

/-- `sizeof(mt_response_generic_t)`: the recvfrom response is the largest member. -/
def mtResponseGenericSize : Nat := mtResponseSocketRecvfromSize + messageTypeMaxPayloadLen

theorem length_encodeBase (u : Unset) (r : MtResponse) :
    (encodeBase u r).length = mtResponseBaseSize := by
  simp [encodeBase, mtResponseBaseSize]

theorem length_encodeSource (u : Unset) (a : MtSockaddrIn) (addrlen count : Nat) :
    (encodeSource u a addrlen count).length = 30 := by
  simp [encodeSource, encodeSockaddr]

end MagicWand
