import MagicWand.Ins.Dispatcher
import MagicWand.Layout

/-!
# recvfrom() in the shim

`tcp_ip_wrapper.c`: how the shim decodes the response to a receive. The request
is a Recv, or a RecvFrom when the caller asks for the source address. The count
is read from the layout that belongs to the request; the data is always copied
from where `mt_response_socket_recv_t` has it.
-/

namespace MagicWand.Shim

open Foundation Bytes

/-- How the system calls of `mwcomms_write_request` end: the write or the read
fails, or the read returns the bytes of the response. -/
inductive Reply where
  | failed (errno : Int)
  | response (bytes : List Byte)
deriving DecidableEq, Repr

/-- The response buffer: zeroed, then filled by the read. -/
def responseBuffer (bytes : List Byte) : List Byte :=
  bytes ++ List.replicate (mtResponseGenericSize - bytes.length) 0

/-- `response.base.status`. -/
def statusOf (response : List Byte) : Int :=
  (BitVec.ofNat 32 (leNat (slice response 24 4))).toInt

/-- `mwcomms_write_request` with `ReadResponse`: return code, errno and the
response buffer. -/
def mwcommsWriteRequest : Reply → Int × Int × List Byte
  -- The count -1 is compared with an unsigned size, so a failed read is not
  -- noticed, and the status of the zeroed buffer is 0.
  | .failed errno => (0, errno, responseBuffer [])
  | .response bytes =>
      let response := responseBuffer bytes
      if bytes.length < mtResponseBaseSize then (-1, 0, response)
      else if isCriticalError (statusOf response) then
        -- The status is replaced by EIO, and errno is left as it is.
        (-1, 0, response.take 24 ++ leBytes 4 5 ++ response.drop 28)
      else if statusOf response < 0 then (-1, -statusOf response, response)
      else (0, 0, response)

/-- Return value, errno, the caller's buffer, and the bytes stored in `SrcAddr`
and `AddrLen`. -/
structure RecvfromResult where
  rc : Int
  errno : Int
  buf : List Byte
  srcAddr : List Byte := []
  addrLen : List Byte := []
deriving DecidableEq, Repr

/-- `response.socket_recv.count` or `response.socket_recvfrom.count`. -/
def receivedCount (fromAddr : Bool) (response : List Byte) : Nat :=
  leNat (slice response (if fromAddr then recvfromCountOffset else recvCountOffset) 2)

/-- The type field says `MtResponseSocketRecvFrom`. -/
def isRecvfromResponse (response : List Byte) : Bool :=
  leNat (slice response 2 4) == (MtResponseType.of .socketRecvFrom).code

/-- `recvfrom` on an mwsocket; `fromAddr` tells whether `SrcAddr` is given. -/
def recvfrom (fromAddr : Bool) (reply : Reply) (buf : List Byte) : RecvfromResult :=
  let (rc, err, response) := mwcommsWriteRequest reply
  let count := receivedCount fromAddr response
  if rc ≠ 0 then
    if err = mwErrorRemoteSurpriseClose then { rc := 0, errno := 0, buf := buf }
    else { rc := rc, errno := err, buf := buf }
  else if statusOf response < 0 then { rc := -1, errno := -statusOf response, buf := buf }
  else if count = 0 then { rc := 0, errno := 0, buf := buf }
  else
    { rc := count
      errno := err
      buf := slice response recvBytesOffset count ++ buf.drop count
      srcAddr := if isRecvfromResponse response && fromAddr then slice response 40 16 else []
      addrLen := if isRecvfromResponse response then slice response 64 4 else [] }

/-! ## Reading a response back -/

theorem statusOf_encode (u : Unset) (r : MtResponse) (rest : List Byte) :
    statusOf (encodeBase u r ++ rest) = (BitVec.ofInt 32 r.status).toInt := by
  have hsplit : encodeBase u r ++ rest =
      (leBytes 2 r.sig.toNat ++ leBytes 4 r.type.code ++ leBytes 2 r.size ++ leBytes 8 r.id.toNat ++
        leBytes 8 r.sockfd.toNat) ++ (leBytes 4 (BitVec.ofInt 32 r.status).toNat ++
        (leBytes 4 r.flags.toNat ++ leBytes 8 u.tsIns ++ rest)) := by
    simp only [encodeBase, List.append_assoc]
  have hlt : (BitVec.ofInt 32 r.status).toNat % 2 ^ (8 * 4) = (BitVec.ofInt 32 r.status).toNat :=
    Nat.mod_eq_of_lt (BitVec.isLt _)
  rw [statusOf, hsplit, slice_append _ _ _ (by simp) (by simp), leNat_leBytes, hlt, BitVec.ofNat_toNat,
    BitVec.setWidth_eq]

theorem receivedCount_recv (u : Unset) (r : MtResponse) (rest : List Byte) :
    receivedCount false (encodeRecv u r ++ rest) = r.count % 2 ^ 16 := by
  have hsplit : encodeRecv u r ++ rest =
      encodeBase u r ++ (leBytes 2 r.count ++ (r.bytes ++ rest)) := by
    simp only [encodeRecv, List.append_assoc]
  show leNat (slice _ mtResponseBaseSize 2) = _
  rw [hsplit, slice_append _ _ _ (length_encodeBase u r) (by simp), leNat_leBytes]

theorem receivedCount_recvfrom (u : Unset) (r : MtResponse) (rest : List Byte) :
    receivedCount true (encodeRecvfrom u r ++ rest) = r.count % 2 ^ 16 := by
  have hsplit : encodeRecvfrom u r ++ rest =
      (encodeBase u r ++ encodeSockaddr u r.sockaddr ++ leBytes 4 r.addrlen) ++
        (leBytes 2 r.count ++ (r.bytes ++ rest)) := by
    simp only [encodeRecvfrom, encodeSource, List.append_assoc]
  have hfront : (encodeBase u r ++ encodeSockaddr u r.sockaddr ++ leBytes 4 r.addrlen).length =
      recvfromCountOffset := by
    simp [length_encodeBase, encodeSockaddr, recvfromCountOffset]
  show leNat (slice _ recvfromCountOffset 2) = _
  rw [hsplit, slice_append _ _ _ hfront (by simp), leNat_leBytes]

theorem slice_bytes_recv (u : Unset) (r : MtResponse) (rest : List Byte) :
    slice (encodeRecv u r ++ rest) recvBytesOffset r.bytes.length = r.bytes := by
  have hsplit : encodeRecv u r ++ rest =
      (encodeBase u r ++ leBytes 2 r.count) ++ (r.bytes ++ rest) := by
    simp only [encodeRecv, List.append_assoc]
  have hfront : (encodeBase u r ++ leBytes 2 r.count).length = recvBytesOffset := by
    simp [length_encodeBase, recvBytesOffset, mtResponseSocketRecvSize]
  rw [hsplit, slice_append _ _ _ hfront rfl]

/-- What the shim finds in place of the data of a RecvFrom response: the rest of
the source address, its length and the count. -/
def misreadFront (u : Unset) (a : MtSockaddrIn) (addrlen count : Nat) : List Byte :=
  (encodeSource u a addrlen count).drop 2

theorem length_misreadFront (u : Unset) (a : MtSockaddrIn) (addrlen count : Nat) :
    (misreadFront u a addrlen count).length = 28 := by
  rw [misreadFront, List.length_drop, length_encodeSource]

theorem slice_bytes_recvfrom (u : Unset) (r : MtResponse) (rest : List Byte) (n : Nat) :
    slice (encodeRecvfrom u r ++ rest) recvBytesOffset n =
      slice (misreadFront u r.sockaddr r.addrlen r.count ++ (r.bytes ++ rest)) 0 n := by
  have hsplit : encodeRecvfrom u r ++ rest =
      encodeBase u r ++ (encodeSource u r.sockaddr r.addrlen r.count ++ (r.bytes ++ rest)) := by
    simp only [encodeRecvfrom, List.append_assoc]
  have hoff : recvBytesOffset = (encodeBase u r).length + 2 := by
    rw [length_encodeBase]
    rfl
  have hdrop : (encodeSource u r.sockaddr r.addrlen r.count ++ (r.bytes ++ rest)).drop 2 =
      misreadFront u r.sockaddr r.addrlen r.count ++ (r.bytes ++ rest) :=
    List.drop_append_of_le_length (by rw [length_encodeSource]; omega)
  rw [slice, slice, hsplit, hoff, ← List.drop_drop, List.drop_left, hdrop, List.drop_zero]

/-- A response with status 0 and a count goes to the caller's buffer. -/
theorem recvfrom_data {u : Unset} {r : MtResponse} {rest : List Byte} {fromAddr : Bool} {n : Nat}
    (hstatus : r.status = 0)
    (hcount : receivedCount fromAddr (responseBuffer (encodeBase u r ++ rest)) = n) (hn : 0 < n)
    (buf : List Byte) :
    (recvfrom fromAddr (.response (encodeBase u r ++ rest)) buf).rc = n ∧
      (recvfrom fromAddr (.response (encodeBase u r ++ rest)) buf).buf =
        slice (responseBuffer (encodeBase u r ++ rest)) recvBytesOffset n ++ buf.drop n ∧
      (recvfrom fromAddr (.response (encodeBase u r ++ rest)) buf).srcAddr =
        if isRecvfromResponse (responseBuffer (encodeBase u r ++ rest)) && fromAddr
        then slice (responseBuffer (encodeBase u r ++ rest)) 40 16 else [] := by
  have hlen : ¬ (encodeBase u r ++ rest).length < mtResponseBaseSize := by
    rw [List.length_append, length_encodeBase]
    omega
  have hzero : statusOf (responseBuffer (encodeBase u r ++ rest)) = 0 := by
    rw [responseBuffer, List.append_assoc, statusOf_encode, hstatus]
    rfl
  have hwrite : mwcommsWriteRequest (.response (encodeBase u r ++ rest)) =
      (0, 0, responseBuffer (encodeBase u r ++ rest)) := by
    simp only [mwcommsWriteRequest, if_neg hlen]
    simp [hzero, isCriticalError]
  have hne : ¬ n = 0 := Nat.pos_iff_ne_zero.mp hn
  simp [recvfrom, hwrite, hzero, hcount, hne]

/-! ## A native call that returns data -/

/-- The native call behind a receive request. -/
def nativeRecv (req : MtRequest) : Ins.NativeCall :=
  if req.type = .socketRecvFrom then
    .recvfrom .worker req.requested (Ins.xeNetTranslateMsgFlags req.opFlags)
  else .recv .worker req.requested (Ins.xeNetTranslateMsgFlags req.opFlags)

/-- `recvfrom` leaves the bytes `data` at the start of the buffer and returns how
many there are. -/
def Delivers (fromAddr : Bool) (reply : Reply) (buf data : List Byte) : Prop :=
  (recvfrom fromAddr reply buf).rc = data.length ∧
    (recvfrom fromAddr reply buf).buf.take data.length = data

theorem take_slice_append {response buf data : List Byte} {off : Nat}
    (h : off + data.length ≤ response.length) :
    (slice response off data.length ++ buf).take data.length = slice response off data.length := by
  apply List.take_left'
  rw [slice, List.length_take, List.length_drop]
  omega

/-- A Recv response is decoded as it was encoded. -/
theorem delivers_recv {u : Unset} {r : MtResponse} (hstatus : r.status = 0)
    (hcount : r.count = r.bytes.length) (hpos : 0 < r.bytes.length)
    (hmax : r.bytes.length < 2 ^ 16) (buf : List Byte) :
    Delivers false (.response (encodeRecv u r)) buf r.bytes := by
  have hread : receivedCount false (responseBuffer (encodeRecv u r)) = r.bytes.length := by
    rw [responseBuffer, receivedCount_recv, hcount, Nat.mod_eq_of_lt hmax]
  obtain ⟨hrc, hbuf, -⟩ := recvfrom_data (u := u) hstatus hread hpos buf
  refine ⟨hrc, ?_⟩
  rw [encodeRecv, hbuf, take_slice_append]
  · exact slice_bytes_recv u r _
  · simp [responseBuffer, length_encodeBase, recvBytesOffset, mtResponseSocketRecvSize]
    omega

/-- The bytes the shim takes for the data of a RecvFrom response are the data
only if the data repeats what stands in front of it. -/
theorem delivers_recvfrom_iff {u : Unset} {r : MtResponse} (hstatus : r.status = 0)
    (hcount : r.count = r.bytes.length) (hpos : 0 < r.bytes.length)
    (hmax : r.bytes.length < 2 ^ 16) (buf : List Byte) :
    Delivers true (.response (encodeRecvfrom u r)) buf r.bytes ↔
      ∀ i < r.bytes.length,
        r.bytes[i]? = (misreadFront u r.sockaddr r.addrlen r.bytes.length)[i % 28]? := by
  have hread : receivedCount true (responseBuffer (encodeRecvfrom u r)) = r.bytes.length := by
    rw [responseBuffer, receivedCount_recvfrom, hcount, Nat.mod_eq_of_lt hmax]
  obtain ⟨hrc, hbuf, -⟩ := recvfrom_data (u := u) hstatus hread hpos buf
  have hroom : recvBytesOffset + r.bytes.length ≤ (responseBuffer (encodeRecvfrom u r)).length := by
    simp [responseBuffer, encodeRecvfrom, length_encodeBase, length_encodeSource, recvBytesOffset,
      mtResponseSocketRecvSize]
    omega
  have htake : (recvfrom true (.response (encodeRecvfrom u r)) buf).buf.take r.bytes.length =
      slice (responseBuffer (encodeRecvfrom u r)) recvBytesOffset r.bytes.length := by
    rw [encodeRecvfrom, hbuf]
    exact take_slice_append hroom
  have hdelivers : Delivers true (.response (encodeRecvfrom u r)) buf r.bytes ↔
      slice (responseBuffer (encodeRecvfrom u r)) recvBytesOffset r.bytes.length = r.bytes := by
    constructor
    · rintro ⟨-, h⟩
      rw [← htake, h]
    · intro h
      exact ⟨hrc, htake.trans h⟩
  have hfront : (misreadFront u r.sockaddr r.addrlen r.count).length = 28 :=
    length_misreadFront u r.sockaddr r.addrlen r.count
  rw [hdelivers, responseBuffer, slice_bytes_recvfrom, slice_front_eq_iff (by omega), hfront, hcount]

/-! ## The receive handlers of the INS -/

/-- What a receive handler answers when its native call returns data. -/
theorem handler_data (clientId : BitVec 16) (g : Ins.Globals) (slot : Nat) {req : MtRequest}
    {os rest : List Ins.Outcome} {o : Ins.Outcome}
    (htype : req.type = .socketRecv ∨ req.type = .socketRecvFrom)
    (hloop : Ins.recvLoop (nativeRecv req) (.recv false 0) os = .ok (.data o, rest)) :
    ∃ r size, Ins.handler clientId req (some slot) g os = .ok (r, rest) ∧
      r.response = Ins.xeNetSetBaseResponse req size (Ins.recvResponse (.data o)) := by
  rcases htype with htype | htype
  · refine ⟨Ins.recvResult req slot mtResponseSocketRecvSize (.data o), _, ?_, rfl⟩
    rw [nativeRecv, if_neg (by simp [htype])] at hloop
    simp only [Ins.handler, htype, Ins.xeNetRecvSocket, Script.bind_run]
    rw [hloop]
    rfl
  · refine ⟨Ins.recvResult req slot mtResponseSocketRecvfromSize (.data o), _, ?_, rfl⟩
    rw [nativeRecv, if_pos htype] at hloop
    simp only [Ins.handler, htype, Ins.xeNetRecvfromSocket, Script.bind_run]
    rw [hloop]
    rfl

/-- Post-processing only adds flags to the answer of a receive. -/
theorem postProcess_recv (clientId : BitVec 16) (g : Ins.Globals) {req : MtRequest}
    (htype : req.type = .socketRecv ∨ req.type = .socketRecvFrom) (worker : Option Nat)
    (resp : MtResponse) :
    ∃ flags, (Ins.Globals.postProcessResponse clientId req worker resp g).1 =
      { resp with flags := flags } := by
  have hne : ¬ req.type = .socketAccept := by
    rcases htype with h | h <;> simp [h]
  simp only [Ins.Globals.postProcessResponse, hne, false_and, if_false]
  exact ⟨_, rfl⟩

/-- The shim hands over the bytes that the native call of the INS returned
exactly when the request is a Recv, or when those bytes repeat the 28 bytes that
precede them in the response. -/
theorem recvfrom_delivers_iff (clientId : BitVec 16) (g g' : Ins.Globals) (slot : Nat)
    (req : MtRequest) (u : Unset) (buf : List Byte) (os rest : List Ins.Outcome) (o : Ins.Outcome)
    (htype : req.type = .socketRecv ∨ req.type = .socketRecvFrom)
    (hloop : Ins.recvLoop (nativeRecv req) (.recv false 0) os = .ok (.data o, rest))
    (hdata : o.ret = o.data.length)
    (hret : 0 < o.data.length ∧ o.data.length ≤ min req.requested messageTypeMaxPayloadLen) :
    ∃ r, Ins.handler clientId req (some slot) g os = .ok (r, rest) ∧
      (Delivers (req.type = .socketRecvFrom)
          (.response (encodeReceived u
            (Ins.Globals.postProcessResponse clientId req (some slot) r.response g').1))
          buf o.data ↔
        req.type = .socketRecv ∨
          ∀ i < o.data.length,
            o.data[i]? = (misreadFront u (populateMtSockaddrIn o.addr) o.len o.data.length)[i % 28]?) := by
  obtain ⟨r, size, hrun, hresp⟩ := handler_data clientId g slot htype hloop
  obtain ⟨flags, hpost⟩ := postProcess_recv clientId g' htype (some slot) r.response
  refine ⟨r, hrun, ?_⟩
  have hmax : o.data.length < 2 ^ 16 := by
    have hle := hret.2
    have : messageTypeMaxPayloadLen = 1985 := rfl
    omega
  have hcount : (o.ret % 2 ^ 16).toNat = o.data.length := by omega
  rw [hpost, hresp]
  let resp : MtResponse :=
    { Ins.xeNetSetBaseResponse req size (Ins.recvResponse (.data o)) with flags := flags }
  change Delivers _ (.response (encodeReceived u resp)) buf o.data ↔ _
  rcases htype with htype | htype
  · have henc : encodeReceived u resp = encodeRecv u resp := by
      rw [encodeReceived, if_neg]
      simp [resp, Ins.xeNetSetBaseResponse, htype]
    have hdel : Delivers false (.response (encodeRecv u resp)) buf o.data :=
      delivers_recv rfl hcount hret.1 hmax buf
    simp [henc, htype, hdel]
  · have henc : encodeReceived u resp = encodeRecvfrom u resp := by
      rw [encodeReceived, if_pos]
      simp [resp, Ins.xeNetSetBaseResponse, htype]
    have hiff : Delivers true (.response (encodeRecvfrom u resp)) buf o.data ↔ _ :=
      delivers_recvfrom_iff rfl hcount hret.1 hmax buf
    simp only [henc, htype, decide_true, hiff]
    simp
    rfl

/-! ## Runs -/

/-- A receive of up to 4 bytes. -/
def recvRequest (type : MtRequestType) : MtRequest :=
  { type := type, size := mtRequestSocketRecvSize, requested := 4 }

/-- The native call returns the bytes 1, 2, 3, 4 from 10.0.0.7, port 8080. -/
def fourBytes : Ins.Outcome :=
  { ret := 4, data := [1, 2, 3, 4], len := 16,
    addr := { sinFamily := 2, sinPort := 0x901f, sAddr := 0x0700000a } }

theorem recvfrom_delivers_iff_recv :
    ∃ r, Ins.handler 1 (recvRequest .socketRecv) (some 0) {} [fourBytes] = .ok (r, []) ∧
      (Delivers false
          (.response (encodeReceived {}
            (Ins.Globals.postProcessResponse 1 (recvRequest .socketRecv) (some 0) r.response {}).1))
          [0, 0, 0, 0, 0] [1, 2, 3, 4] ↔
        (recvRequest .socketRecv).type = .socketRecv ∨
          ∀ i < 4, [1, 2, 3, 4][i]? =
            (misreadFront {} (populateMtSockaddrIn fourBytes.addr) 16 4)[i % 28]?) :=
  recvfrom_delivers_iff 1 {} {} 0 (recvRequest .socketRecv) {} [0, 0, 0, 0, 0] [fourBytes] []
    fourBytes (by decide) rfl rfl (by decide)

/-- The whole way of a receive: native call, INS, ring, shim. -/
def receive (req : MtRequest) (os : List Ins.Outcome) (buf : List Byte) : Option (Int × List Byte) :=
  match Ins.handler 1 req (some 0) {} os with
  | .error _ => none
  | .ok (r, _) =>
      let resp := (Ins.Globals.postProcessResponse 1 req (some 0) r.response {}).1
      let result := recvfrom (req.type = .socketRecvFrom) (.response (encodeReceived {} resp)) buf
      some (result.rc, result.buf)

/-- With the source address asked for, the application gets the port and padding
of that address for its data. -/
theorem recvfrom_corrupts_data :
    receive (recvRequest .socketRecv) [fourBytes] [0, 0, 0, 0] = some (4, [1, 2, 3, 4]) ∧
    receive (recvRequest .socketRecvFrom) [fourBytes] [0, 0, 0, 0] = some (4, [0, 0, 0x1f, 0x90]) := by
  decide +kernel

end MagicWand.Shim
