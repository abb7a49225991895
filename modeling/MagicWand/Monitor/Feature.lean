import MagicWand.Foundation.Wire

/-!
# Feature requests of the monitor

`send_feature_request` of `mw_netflow.py` packs a request in network order. The
driver reads it into an `mw_feature_request_t`, puts the fields into host order
in `mw_netflow_handle_feat_req`, has `mw_netflow_process_feat_req` do what it
asks for, and writes a response, which the monitor takes apart again.

The swap of the argument is left to the second function, which makes it only for
a request to block an address. The socket that a request names is swapped as a
whole only under its flag.
-/

namespace MagicWand.Monitor

open Foundation Foundation.Bytes

/-! ## Messages -/

def mwMessageSigFeatureRequest : BitVec 16 := 0xd320
def mwMessageSigFeatureResponse : BitVec 16 := 0xd32f

/-- `MW_FEATURE_FLAG_WRITE`. -/
def mwFeatureFlagWrite : BitVec 16 := 0x1

/-- `MW_FEATURE_FLAG_BY_SOCK`. -/
def mwFeatureFlagBySock : BitVec 16 := 0x2

/-- The names that `mw_netflow_process_feat_req` knows. -/
inductive Feature where
  | trafficMonitorOn
  | trafficMonitorOff
  | isOpen
  | ownerRunning
  | sndBuf
  | rcvBuf
  | sndTimeo
  | rcvTimeo
  | sndLoWat
  | rcvLoWat
  | globalCongctl
  | globalDelackTicks
  | addrBlock
deriving DecidableEq, Repr

namespace Feature

def code : Feature → BitVec 16
  | trafficMonitorOn => 0x0001
  | trafficMonitorOff => 0x0002
  | isOpen => 0x0101
  | ownerRunning => 0x0102
  | sndBuf => 0x0109
  | rcvBuf => 0x010a
  | sndTimeo => 0x010b
  | rcvTimeo => 0x010c
  | sndLoWat => 0x010d
  | rcvLoWat => 0x010e
  | globalCongctl => 0x1101
  | globalDelackTicks => 0x1102
  | addrBlock => 0x1103

def all : List Feature :=
  [trafficMonitorOn, trafficMonitorOff, isOpen, ownerRunning, sndBuf, rcvBuf, sndTimeo, rcvTimeo,
    sndLoWat, rcvLoWat, globalCongctl, globalDelackTicks, addrBlock]

def ofCode (name : BitVec 16) : Option Feature := all.find? fun f => f.code = name

theorem ofCode_code (f : Feature) : ofCode f.code = some f := by
  cases f <;> rfl

theorem ofCode_eq_addrBlock {name : BitVec 16} :
    ofCode name = some addrBlock ↔ name = addrBlock.code := by
  constructor
  · intro h
    have hcode := List.find?_some h
    exact (of_decide_eq_true hcode).symm
  · rintro rfl
    rfl

end Feature

/-- `mt_sockfeat_arg_t`, a union of a number and a time. -/
abbrev MtSockfeatArg := Block 16

namespace MtSockfeatArg

def v32 (a : MtSockfeatArg) : BitVec 32 := a.read 0 4
def v64 (a : MtSockfeatArg) : BitVec 64 := a.read 0 8
def s (a : MtSockfeatArg) : BitVec 64 := a.read 0 8
def us (a : MtSockfeatArg) : BitVec 64 := a.read 8 8

def setV32 (a : MtSockfeatArg) (x : BitVec 32) : MtSockfeatArg := a.write 0 (store 4 x) (by simp)
def setV64 (a : MtSockfeatArg) (x : BitVec 64) : MtSockfeatArg := a.write 0 (store 8 x) (by simp)

def time (s us : BitVec 64) : MtSockfeatArg := ⟨store 8 s ++ store 8 us, by simp⟩

end MtSockfeatArg

/-- The identifier of a request, a union of a socket and an address. -/
abbrev Ident := Block 20

namespace Ident

def sockfd (i : Ident) : BitVec 64 := i.read 0 8
def af (i : Ident) : BitVec 32 := i.read 0 4
def a (i : Ident) : List Byte := slice i.bytes 4 16

def setSockfd (i : Ident) (fd : BitVec 64) : Ident := i.write 0 (store 8 fd) (by simp)
def setAf (i : Ident) (af : BitVec 32) : Ident := i.write 0 (store 4 af) (by simp)

end Ident

structure MwFeatureRequest where
  sig : BitVec 16
  id : BitVec 32
  flags : BitVec 16
  name : BitVec 16
  val : MtSockfeatArg
  ident : Ident
deriving DecidableEq, Repr

structure MwFeatureResponse where
  sig : BitVec 16 := 0
  id : BitVec 32 := 0
  status : BitVec 32 := 0
  val : MtSockfeatArg := Block.zero
deriving DecidableEq, Repr

/-- `sizeof( mw_feature_request_t )`. -/
def mwFeatureRequestSize : Nat := 46

namespace MwFeatureRequest

/-- The bytes of a request as the structure that they are read into. -/
def ofBytes (bs : List Byte) (h : bs.length = mwFeatureRequestSize) : MwFeatureRequest where
  sig := .ofNat 16 (leNat (slice bs 0 2))
  id := .ofNat 32 (leNat (slice bs 2 4))
  flags := .ofNat 16 (leNat (slice bs 6 2))
  name := .ofNat 16 (leNat (slice bs 8 2))
  val := ⟨slice bs 10 16, by simp [slice, h, mwFeatureRequestSize]⟩
  ident := ⟨slice bs 26 20, by simp [slice, h, mwFeatureRequestSize]⟩

def modify (req : MwFeatureRequest) : Bool := req.flags &&& mwFeatureFlagWrite != 0

def bySock (req : MwFeatureRequest) : Bool := req.flags &&& mwFeatureFlagBySock != 0

end MwFeatureRequest

def MwFeatureResponse.bytes (res : MwFeatureResponse) : List Byte :=
  [store 2 res.sig, store 4 res.id, store 4 res.status, res.val.bytes].flatten

/-! ## The driver -/

/-- The fields of the request for the INS that the driver sets from a feature request. -/
structure AttribRequest where
  sockfd : BitVec 64
  modify : Bool
  name : BitVec 16
  val : MtSockfeatArg
deriving DecidableEq, Repr

/-- What the functions that `mw_netflow_process_feat_req` calls return. -/
structure Calls where
  signalOwner : BitVec 64 → BitVec 32
  closeByRemoteFd : BitVec 64 → BitVec 32
  blockIpMitigation : MwFeatureRequest → BitVec 32
  sendBareRequest : AttribRequest → BitVec 32 × MtSockfeatArg

/-- `NETFLOW_CH_NO_MONITOR`. -/
def netflowChNoMonitor : BitVec 32 := 1

/-- What the processing of a request leaves. -/
structure Processed where
  request : MwFeatureRequest
  response : MwFeatureResponse
  channelFlags : BitVec 32
  rc : BitVec 32
deriving DecidableEq, Repr

/-- The branches of `mw_netflow_process_feat_req`. -/
def dispatch (calls : Calls) (channelFlags : BitVec 32) (req : MwFeatureRequest)
    (res : MwFeatureResponse) : Processed :=
  let yes : MwFeatureResponse := { res with val := res.val.setV32 1 }
  match Feature.ofCode req.name with
  | some .trafficMonitorOn => ⟨req, yes, channelFlags &&& ~~~netflowChNoMonitor, 0⟩
  | some .trafficMonitorOff => ⟨req, yes, channelFlags ||| netflowChNoMonitor, 0⟩
  | some .ownerRunning =>
      ⟨req, yes, channelFlags, if req.modify then calls.signalOwner req.ident.sockfd else 0⟩
  | some .isOpen =>
      ⟨req, yes, channelFlags, if req.modify then calls.closeByRemoteFd req.ident.sockfd else 0⟩
  | some .addrBlock =>
      let req := { req with val := req.val.setV64 (swapBytes 8 req.val.v64) }
      ⟨req, res, channelFlags, calls.blockIpMitigation req⟩
  | some _ =>
      let (rc, val) := calls.sendBareRequest
        { sockfd := req.ident.sockfd, modify := req.modify, name := req.name, val := req.val }
      ⟨req, if !req.modify && rc == 0 then { res with val := val } else res, channelFlags, rc⟩
  -- -EINVAL
  | none => ⟨req, res, channelFlags, -22⟩

/-- `mw_netflow_process_feat_req`. -/
def mwNetflowProcessFeatReq (calls : Calls) (channelFlags : BitVec 32) (req : MwFeatureRequest)
    (res : MwFeatureResponse) : Processed :=
  let p := dispatch calls channelFlags req res
  if p.rc ≠ 0 ∧ p.response.status = 0 then
    { p with response := { p.response with status := p.rc } }
  else p

/-- The fields of a request that `mw_netflow_handle_feat_req` puts into host order. -/
def hostOrder (req : MwFeatureRequest) : MwFeatureRequest :=
  let req : MwFeatureRequest := { req with
    sig := swapBytes 2 req.sig
    id := swapBytes 4 req.id
    flags := swapBytes 2 req.flags
    name := swapBytes 2 req.name }
  { req with
    ident := if req.bySock then req.ident.setSockfd (swapBytes 8 req.ident.sockfd)
      else req.ident.setAf (swapBytes 4 req.ident.af) }

/-- The response to a request, in network order. -/
def networkOrder (id : BitVec 32) (res : MwFeatureResponse) : MwFeatureResponse where
  sig := swapBytes 2 mwMessageSigFeatureResponse
  id := swapBytes 4 id
  status := swapBytes 4 res.status
  val := .time (swapBytes 8 res.val.s) (swapBytes 8 res.val.us)

/-- A round of `mw_netflow_handle_feat_req` for what one read gives: nothing comes
of a read that is too short. -/
def mwNetflowHandleFeatReq (calls : Calls) (channelFlags : BitVec 32) (bs : List Byte) :
    Option (Processed × List Byte) :=
  if h : bs.length = mwFeatureRequestSize then
    let p := mwNetflowProcessFeatReq calls channelFlags (hostOrder (.ofBytes bs h)) {}
    some (p, (networkOrder p.request.id p.response).bytes)
  else none

/-! ## The monitor -/

def baseFmt : Format := [.unsigned 2, .unsigned 4]

def featureReqFmt : Format :=
  baseFmt ++ [.unsigned 2, .unsigned 2, .unsigned 8, .unsigned 8, .unsigned 8, .bytes 12]

def featureReqFmtIp : Format :=
  baseFmt ++ [.unsigned 2, .unsigned 2, .unsigned 8, .unsigned 8, .unsigned 4, .bytes 16]

def featureResFmt : Format := [.signed 4, .bytes 16]

def featureResValFmt : Format := [.unsigned 8, .unsigned 8]

/-- The value of a feature: a number, or seconds and microseconds. -/
inductive FeatureValue where
  | number (v : BitVec 32)
  | time (s us : BitVec 64)
deriving DecidableEq, Repr

def FeatureValue.words : FeatureValue → BitVec 64 × BitVec 64
  | number v => (v.setWidth 64, 0)
  | time s us => (s, us)

/-- The arguments of `send_feature_request`, with the id that it draws. -/
structure FeatureCall where
  ident : BitVec 32
  sockfd : BitVec 64
  name : BitVec 16
  value : FeatureValue
  flag : BitVec 16
  addr : List Byte := []
deriving DecidableEq, Repr

/-- The number as Python has it. -/
def num {w : Nat} (x : BitVec w) : Value := .int x.toNat

/-- `send_feature_request`; `inetAton` tells the addresses that `inet_aton` takes. -/
def sendFeatureRequest (inetAton : List Byte → Bool) (c : FeatureCall) : Option (List Byte) :=
  let front := [num mwMessageSigFeatureRequest, num c.ident, num c.flag, num c.name,
    num c.value.words.1, num c.value.words.2]
  if c.name = Feature.addrBlock.code then
    if inetAton c.addr then featureReqFmtIp.pack (front ++ [.int 2, .str c.addr]) else none
  else featureReqFmt.pack (front ++ [num c.sockfd, .str []])

/-- A response as the monitor reports it. -/
structure Reply where
  ident : Int
  status : Int
  vals0 : Int
  vals1 : Int
deriving DecidableEq, Repr

/-- `get_msg` with `process_response`, for a response that has arrived as a whole.
It fails when the id is not outstanding. -/
def getMsg (outstanding : List Int) (bs : List Byte) : Option Reply :=
  match baseFmt.unpack (bs.take 6) with
  | some [.int sig, .int ident] =>
      if sig = mwMessageSigFeatureResponse.toNat ∧ ident ∈ outstanding then
        match featureResFmt.unpack (bs.drop 6) with
        | some [.int status, .str val] =>
            match featureResValFmt.unpack val with
            | some [.int vals0, .int vals1] => some ⟨ident, status, vals0, vals1⟩
            | _ => none
        | _ => none
      else none
  | _ => none

/-! ## A request on its way -/

/-- What stands in the place of the identifier. -/
def FeatureCall.identBytes (c : FeatureCall) : List Byte :=
  if c.name = Feature.addrBlock.code then
    beBytes 4 2 ++ (c.addr.take 16 ++ List.replicate (16 - c.addr.length) 0)
  else beBytes 8 c.sockfd.toNat ++ List.replicate 12 0

/-- The fields of a request as the monitor sends it. -/
def FeatureCall.wire (c : FeatureCall) : List Byte :=
  [beBytes 2 mwMessageSigFeatureRequest.toNat, beBytes 4 c.ident.toNat, beBytes 2 c.flag.toNat,
    beBytes 2 c.name.toNat, beBytes 8 c.value.words.1.toNat ++ beBytes 8 c.value.words.2.toNat,
    c.identBytes].flatten

theorem length_identBytes (c : FeatureCall) : c.identBytes.length = 20 := by
  rw [FeatureCall.identBytes]
  split
  · simp only [List.length_append, length_beBytes, List.length_take, List.length_replicate]
    omega
  · simp only [List.length_append, length_beBytes, List.length_replicate]

theorem length_wire (c : FeatureCall) : c.wire.length = mwFeatureRequestSize := by
  simp only [FeatureCall.wire, List.length_flatten, List.map_cons, List.map_nil, List.length_append,
    length_beBytes, List.sum_cons, List.sum_nil, length_identBytes]
  rfl

/-- The arguments fit; only an address may be refused. -/
theorem send_eq (inetAton : List Byte → Bool) (c : FeatureCall) :
    sendFeatureRequest inetAton c =
      if c.name = Feature.addrBlock.code ∧ inetAton c.addr = false then none else some c.wire := by
  have hnum {w n : Nat} (hw : w = 8 * n) (x : BitVec w) :
      (Field.unsigned n).pack (num x) = some (beBytes n x.toNat) := pack_unsigned hw x
  have htwo : (Field.unsigned 4).pack (.int 2) = some (beBytes 4 2) := rfl
  have hstr (n : Nat) (s : List Byte) : (Field.bytes n).pack (.str s) =
      some (s.take n ++ List.replicate (n - s.length) 0) := rfl
  simp only [sendFeatureRequest, FeatureCall.wire, FeatureCall.identBytes]
  by_cases hname : c.name = Feature.addrBlock.code
  · cases hok : inetAton c.addr with
    | false => simp only [hname, if_true, and_self, Bool.false_eq_true, if_false]
    | true =>
        simp only [hname, if_true, Bool.true_eq_false, and_false, if_false, featureReqFmtIp, baseFmt,
          List.cons_append, List.nil_append, Format.pack, hnum rfl, htwo, hstr, Option.bind_some,
          Option.map_some, List.flatten_cons, List.flatten_nil, List.append_assoc]
  · simp only [hname, if_false, false_and, featureReqFmt, baseFmt, List.cons_append, List.nil_append,
      Format.pack, hnum rfl, hstr, Option.bind_some, Option.map_some, List.flatten_cons,
      List.flatten_nil, List.append_assoc, List.take_nil, List.length_nil, Nat.sub_zero]

/-- The request as the driver has read it and put it into host order. -/
structure Received (c : FeatureCall) (req : MwFeatureRequest) : Prop where
  id : req.id = c.ident
  flags : req.flags = c.flag
  name : req.name = c.name
  val : req.val.bytes = beBytes 8 c.value.words.1.toNat ++ beBytes 8 c.value.words.2.toNat
  bySock : c.flag &&& mwFeatureFlagBySock ≠ 0 →
    ∀ i : Ident, i.bytes = c.identBytes → req.ident = i.setSockfd (swapBytes 8 i.sockfd)
  byAddr : c.flag &&& mwFeatureFlagBySock = 0 →
    ∀ i : Ident, i.bytes = c.identBytes → req.ident = i.setAf (swapBytes 4 i.af)

theorem received_wire (c : FeatureCall) :
    Received c (hostOrder (.ofBytes c.wire (length_wire c))) := by
  let bs := c.wire
  let raw := MwFeatureRequest.ofBytes bs (length_wire c)
  have hfield {w n : Nat} (hw : w = 8 * n) {off : Nat} (x : BitVec w)
      (hslice : slice bs off n = beBytes n x.toNat) :
      swapBytes n (BitVec.ofNat w (leNat (slice bs off n))) = x := by
    rw [hslice, ofNat_leNat_beBytes, swapBytes_swapBytes hw]
  have hid : slice bs 2 4 = beBytes 4 c.ident.toNat := by
    exact slice_flatten [_] [_, _, _, _] _ (by simp) (by simp)
  have hflags : slice bs 6 2 = beBytes 2 c.flag.toNat := by
    exact slice_flatten [_, _] [_, _, _] _ (by simp) (by simp)
  have hname : slice bs 8 2 = beBytes 2 c.name.toNat := by
    exact slice_flatten [_, _, _] [_, _] _ (by simp) (by simp)
  have hval : slice bs 10 16 =
      beBytes 8 c.value.words.1.toNat ++ beBytes 8 c.value.words.2.toNat := by
    exact slice_flatten [_, _, _, _] [_] _ (by simp) (by simp)
  have hident : raw.ident.bytes = c.identBytes := by
    show slice bs 26 20 = c.identBytes
    exact slice_flatten [_, _, _, _, _] [] _ (by simp) (length_identBytes c)
  have hflag : swapBytes 2 raw.flags = c.flag := hfield (w := 16) (n := 2) rfl c.flag hflags
  have hsame (i : Ident) (hi : i.bytes = c.identBytes) : raw.ident = i := by
    cases i
    exact Block.mk.injEq .. ▸ hident.trans hi.symm
  refine ⟨hfield (w := 32) (n := 4) rfl c.ident hid, hflag,
    hfield (w := 16) (n := 2) rfl c.name hname, hval, fun hsock i hi => ?_, fun haddr i hi => ?_⟩
  · have hby : (swapBytes 2 raw.flags &&& mwFeatureFlagBySock != 0) = true := by
      rw [hflag]
      exact bne_iff_ne.mpr hsock
    show (if (swapBytes 2 raw.flags &&& mwFeatureFlagBySock != 0) then _ else _) = _
    rw [if_pos hby, ← hsame i hi]
  · have hby : ¬ (swapBytes 2 raw.flags &&& mwFeatureFlagBySock != 0) = true := by
      rw [hflag, haddr]
      decide
    show (if (swapBytes 2 raw.flags &&& mwFeatureFlagBySock != 0) then _ else _) = _
    rw [if_neg hby, ← hsame i hi]

/-! ## The argument -/

namespace MtSockfeatArg

variable {a : MtSockfeatArg} {x y : BitVec 64}

/-- The argument without the swap. -/
theorem v64_of_bytes (h : a.bytes = beBytes 8 x.toNat ++ beBytes 8 y.toNat) :
    a.v64 = swapBytes 8 x := by
  have hslice : slice a.bytes 0 8 = beBytes 8 x.toNat := by
    rw [h, slice, List.drop_zero, List.take_left' (length_beBytes 8 _)]
  show BitVec.ofNat 64 (leNat (slice a.bytes 0 8)) = _
  rw [hslice, ofNat_leNat_beBytes]

theorem us_of_bytes (h : a.bytes = beBytes 8 x.toNat ++ beBytes 8 y.toNat) :
    a.us = swapBytes 8 y := by
  have hslice : slice a.bytes 8 8 = beBytes 8 y.toNat := by
    rw [h, slice, List.drop_left' (length_beBytes 8 _), List.take_of_length_le (by simp)]
  show BitVec.ofNat 64 (leNat (slice a.bytes 8 8)) = _
  rw [hslice, ofNat_leNat_beBytes]

/-- The upper half of a 32-bit number in 64 bits is what stands first. -/
theorem v32_of_bytes {v : BitVec 32}
    (h : a.bytes = beBytes 8 (v.setWidth 64).toNat ++ beBytes 8 y.toNat) : a.v32 = 0 := by
  have hv : (v.setWidth 64).toNat / 2 ^ (8 * 4) = 0 := by
    rw [BitVec.toNat_setWidth_of_le (by decide)]
    exact Nat.div_eq_of_lt v.isLt
  have hslice : slice a.bytes 0 4 = beBytes 4 0 := by
    rw [h, beBytes_add 4 4, hv, slice, List.drop_zero, List.append_assoc,
      List.take_left' (length_beBytes 4 _)]
  show BitVec.ofNat 32 (leNat (slice a.bytes 0 4)) = _
  rw [hslice]
  rfl

theorem v32_eq (a : MtSockfeatArg) : a.v32 = a.v64.setWidth 32 :=
  Block.read_prefix a 0 (by decide) (by decide)

theorem v32_setV32 (a : MtSockfeatArg) (x : BitVec 32) : (a.setV32 x).v32 = x :=
  @Block.read_write 16 a 0 4 x (by simp)

theorem v64_setV64 (a : MtSockfeatArg) (x : BitVec 64) : (a.setV64 x).v64 = x :=
  @Block.read_write 16 a 0 8 x (by simp)

theorem us_setV64 (a : MtSockfeatArg) (x : BitVec 64) : (a.setV64 x).us = a.us :=
  Block.read_write_of_le a _ (by simp)

end MtSockfeatArg

/-! ## The socket -/

/-- The halves of a descriptor. -/
def upper (fd : BitVec 64) : BitVec 32 := fd.extractLsb' 32 32
def lower (fd : BitVec 64) : BitVec 32 := fd.extractLsb' 0 32

theorem toNat_upper (fd : BitVec 64) : (upper fd).toNat = fd.toNat / 2 ^ 32 := by
  have hlt := fd.isLt
  rw [upper, BitVec.extractLsb'_toNat, Nat.shiftRight_eq_div_pow]
  omega

theorem toNat_lower (fd : BitVec 64) : (lower fd).toNat = fd.toNat % 2 ^ 32 := by
  rw [lower, BitVec.extractLsb'_toNat, Nat.shiftRight_zero]

/-- A descriptor in network order is its halves in network order. -/
theorem beBytes_halves (fd : BitVec 64) :
    beBytes 8 fd.toNat = beBytes 4 (upper fd).toNat ++ beBytes 4 (lower fd).toNat := by
  have hlower : beBytes 4 (fd.toNat % 2 ^ (8 * 4)) = beBytes 4 fd.toNat := by
    rw [beBytes, leBytes_mod, ← beBytes]
  rw [toNat_upper, toNat_lower, beBytes_add 4 4]
  exact congrArg _ hlower.symm

namespace Ident

variable {i : Ident} {fd : BitVec 64} {rest : List Byte}

theorem sockfd_of_bytes (h : i.bytes = beBytes 8 fd.toNat ++ rest) :
    (i.setSockfd (swapBytes 8 i.sockfd)).sockfd = fd := by
  have hslice : slice i.bytes 0 8 = beBytes 8 fd.toNat := by
    rw [h, slice, List.drop_zero, List.take_left' (length_beBytes 8 _)]
  have hread : i.sockfd = swapBytes 8 fd := by
    show BitVec.ofNat 64 (leNat (slice i.bytes 0 8)) = _
    rw [hslice, ofNat_leNat_beBytes]
  rw [hread, swapBytes_swapBytes rfl]
  exact @Block.read_write 20 i 0 8 fd (by simp)

/-- Only the upper half is swapped. -/
theorem bytes_setAf (h : i.bytes = beBytes 8 fd.toNat ++ rest) :
    slice (i.setAf (swapBytes 4 i.af)).bytes 0 8 =
      store 4 (upper fd) ++ beBytes 4 (lower fd).toNat := by
  rw [beBytes_halves, List.append_assoc] at h
  have hslice : slice i.bytes 0 4 = beBytes 4 (upper fd).toNat := by
    rw [h, slice, List.drop_zero, List.take_left' (length_beBytes 4 _)]
  have hread : i.af = swapBytes 4 (upper fd) := by
    show BitVec.ofNat 32 (leNat (slice i.bytes 0 4)) = _
    rw [hslice, ofNat_leNat_beBytes]
  rw [hread, swapBytes_swapBytes rfl]
  show slice (i.bytes.take 0 ++ (store 4 (upper fd) ++ i.bytes.drop (0 + (store 4 (upper fd)).length)))
    0 8 = _
  rw [length_store, h, List.take_zero, List.nil_append, Nat.zero_add,
    List.drop_left' (length_beBytes 4 _), slice, List.drop_zero, ← List.append_assoc,
    List.take_left' (by simp)]

/-- With only the upper half swapped, the descriptor is right when its halves are
the same, and the same backwards. -/
theorem sockfd_setAf_iff (h : i.bytes = beBytes 8 fd.toNat ++ rest) :
    (i.setAf (swapBytes 4 i.af)).sockfd = fd ↔
      upper fd = lower fd ∧ swapBytes 4 (lower fd) = lower fd := by
  have hfront : leNat (store 4 (upper fd)) = (upper fd).toNat := by
    rw [store, leNat_leBytes]
    exact Nat.mod_eq_of_lt (upper fd).isLt
  have hswap : (swapBytes 4 (lower fd)).toNat = leNat (beBytes 4 (lower fd).toNat) :=
    toNat_swapBytes rfl _
  have hread : leNat (slice (i.setAf (swapBytes 4 i.af)).bytes 0 8) =
      (upper fd).toNat + 2 ^ 32 * (swapBytes 4 (lower fd)).toNat := by
    rw [bytes_setAf h, leNat_append, hfront, length_store, hswap]
  have hfd : (i.setAf (swapBytes 4 i.af)).sockfd =
      BitVec.ofNat 64 (leNat (slice (i.setAf (swapBytes 4 i.af)).bytes 0 8)) := rfl
  have hupper := toNat_upper fd
  have hlower := toNat_lower fd
  have hlt := (upper fd).isLt
  have hlt' := (swapBytes 4 (lower fd)).isLt
  have hnum : (i.setAf (swapBytes 4 i.af)).sockfd = fd ↔
      (upper fd).toNat + 2 ^ 32 * (swapBytes 4 (lower fd)).toNat = fd.toNat := by
    rw [hfd, hread, ← BitVec.toNat_inj, BitVec.toNat_ofNat, Nat.mod_eq_of_lt (by omega)]
  rw [hnum]
  constructor
  · intro heq
    have hsame : (upper fd).toNat = (lower fd).toNat := by omega
    refine ⟨BitVec.eq_of_toNat_eq hsame, BitVec.eq_of_toNat_eq ?_⟩
    omega
  · rintro ⟨hsame, hsym⟩
    rw [hsym]
    have heq := congrArg BitVec.toNat hsame
    omega

end Ident

/-! ## The request that is processed -/

/-- Only the argument of a request to block an address is swapped. -/
theorem request_process (calls : Calls) (channelFlags : BitVec 32) (req : MwFeatureRequest)
    (res : MwFeatureResponse) :
    (mwNetflowProcessFeatReq calls channelFlags req res).request =
      if req.name = Feature.addrBlock.code then
        { req with val := req.val.setV64 (swapBytes 8 req.val.v64) }
      else req := by
  have hkept : (mwNetflowProcessFeatReq calls channelFlags req res).request =
      (dispatch calls channelFlags req res).request := by
    simp only [mwNetflowProcessFeatReq]
    split <;> rfl
  rw [hkept]
  by_cases hname : req.name = Feature.addrBlock.code
  · rw [if_pos hname, dispatch, Feature.ofCode_eq_addrBlock.mpr hname]
  · have hne : Feature.ofCode req.name ≠ some .addrBlock := mt Feature.ofCode_eq_addrBlock.mp hname
    rw [if_neg hname, dispatch]
    split
    case h_5 heq => exact absurd heq hne
    all_goals rfl

/-- Does the argument hold a value? -/
def MtSockfeatArg.Holds (a : MtSockfeatArg) : FeatureValue → Prop
  | .number v => a.v32 = v
  | .time s us => a.s = s ∧ a.us = us

/-- The request carries what the monitor has sent; to block an address it sends
no socket. -/
structure Carries (c : FeatureCall) (req : MwFeatureRequest) : Prop where
  id : req.id = c.ident
  flags : req.flags = c.flag
  name : req.name = c.name
  value : req.val.Holds c.value
  sockfd : c.name ≠ Feature.addrBlock.code → req.ident.sockfd = c.sockfd

/-- The words of a value that are the same backwards. -/
def FeatureValue.Symmetric : FeatureValue → Prop
  | .number v => v = 0
  | .time s us => swapBytes 8 s = s ∧ swapBytes 8 us = us

/-- The words of a value behind the first that are the same backwards. -/
def FeatureValue.TailSymmetric : FeatureValue → Prop
  | .number _ => True
  | .time _ us => swapBytes 8 us = us

/-- The requests that need no swap but those that are made. -/
def FeatureCall.Swapped (c : FeatureCall) : Prop :=
  if c.name = Feature.addrBlock.code then c.value.TailSymmetric
  else c.value.Symmetric ∧
    (c.flag &&& mwFeatureFlagBySock ≠ 0 ∨
      upper c.sockfd = lower c.sockfd ∧ swapBytes 4 (lower c.sockfd) = lower c.sockfd)

instance : DecidablePred FeatureValue.Symmetric := fun value => by
  cases value <;> unfold FeatureValue.Symmetric <;> infer_instance

instance : DecidablePred FeatureValue.TailSymmetric := fun value => by
  cases value <;> unfold FeatureValue.TailSymmetric <;> infer_instance

instance : DecidablePred FeatureCall.Swapped := fun c => by
  unfold FeatureCall.Swapped
  infer_instance

theorem holds_iff {a : MtSockfeatArg} {value : FeatureValue}
    (h : a.bytes = beBytes 8 value.words.1.toNat ++ beBytes 8 value.words.2.toNat) :
    a.Holds value ↔ value.Symmetric := by
  cases value with
  | number v =>
      show a.v32 = v ↔ v = 0
      rw [MtSockfeatArg.v32_of_bytes h]
      exact eq_comm
  | time s us =>
      show a.v64 = s ∧ a.us = us ↔ _
      rw [MtSockfeatArg.v64_of_bytes h, MtSockfeatArg.us_of_bytes h]
      rfl

theorem holds_setV64_iff {a : MtSockfeatArg} {value : FeatureValue}
    (h : a.bytes = beBytes 8 value.words.1.toNat ++ beBytes 8 value.words.2.toNat) :
    (a.setV64 (swapBytes 8 a.v64)).Holds value ↔ value.TailSymmetric := by
  have hfirst : swapBytes 8 a.v64 = value.words.1 := by
    rw [MtSockfeatArg.v64_of_bytes h, swapBytes_swapBytes rfl]
  cases value with
  | number v =>
      show (a.setV64 (swapBytes 8 a.v64)).v32 = v ↔ True
      rw [MtSockfeatArg.v32_eq, MtSockfeatArg.v64_setV64, hfirst]
      simp [FeatureValue.words]
  | time s us =>
      show (a.setV64 (swapBytes 8 a.v64)).v64 = s ∧ (a.setV64 (swapBytes 8 a.v64)).us = us ↔ _
      rw [MtSockfeatArg.v64_setV64, MtSockfeatArg.us_setV64, hfirst, MtSockfeatArg.us_of_bytes h]
      exact and_iff_right rfl

theorem carries_iff {calls : Calls} {channelFlags : BitVec 32} {c : FeatureCall}
    {req : MwFeatureRequest} (h : Received c req) :
    Carries c (mwNetflowProcessFeatReq calls channelFlags req {}).request ↔ c.Swapped := by
  rw [request_process, FeatureCall.Swapped]
  by_cases hname : c.name = Feature.addrBlock.code
  · rw [if_pos (h.name.trans hname), if_pos hname, ← holds_setV64_iff h.val]
    exact ⟨Carries.value, fun hvalue => ⟨h.id, h.flags, h.name, hvalue, absurd hname⟩⟩
  · have hident : c.identBytes = beBytes 8 c.sockfd.toNat ++ List.replicate 12 0 := if_neg hname
    let i : Ident := ⟨c.identBytes, length_identBytes c⟩
    have hfd : req.ident.sockfd = c.sockfd ↔ (c.flag &&& mwFeatureFlagBySock ≠ 0 ∨
        upper c.sockfd = lower c.sockfd ∧ swapBytes 4 (lower c.sockfd) = lower c.sockfd) := by
      by_cases hsock : c.flag &&& mwFeatureFlagBySock = 0
      · rw [h.byAddr hsock i rfl, Ident.sockfd_setAf_iff (i := i) hident]
        exact ⟨.inr, fun hor => hor.resolve_left (absurd hsock)⟩
      · rw [h.bySock hsock i rfl]
        exact iff_of_true (Ident.sockfd_of_bytes (i := i) hident) (.inl hsock)
    rw [if_neg fun heq => hname (h.name.symm.trans heq), if_neg hname, ← holds_iff h.val, ← hfd]
    exact ⟨fun hc => ⟨hc.value, hc.sockfd hname⟩,
      fun hc => ⟨h.id, h.flags, h.name, hc.1, fun _ => hc.2⟩⟩

/-! ## The response -/

/-- The response arrives as the driver has it. -/
theorem getMsg_networkOrder (outstanding : List Int) {id : BitVec 32} (res : MwFeatureResponse)
    (hid : (id.toNat : Int) ∈ outstanding) :
    getMsg outstanding (networkOrder id res).bytes =
      some ⟨id.toNat, res.status.toInt, res.val.s.toNat, res.val.us.toNat⟩ := by
  let front := [beBytes 2 mwMessageSigFeatureResponse.toNat, beBytes 4 id.toNat]
  let val := [beBytes 8 res.val.s.toNat, beBytes 8 res.val.us.toNat]
  let back := [beBytes 4 res.status.toNat, val.flatten]
  have hbytes : (networkOrder id res).bytes = front.flatten ++ back.flatten := by
    show [store 2 (swapBytes 2 mwMessageSigFeatureResponse), store 4 (swapBytes 4 id),
      store 4 (swapBytes 4 res.status),
      store 8 (swapBytes 8 res.val.s) ++ store 8 (swapBytes 8 res.val.us)].flatten = _
    rw [store_swapBytes rfl, store_swapBytes rfl, store_swapBytes rfl, store_swapBytes rfl,
      store_swapBytes rfl]
    simp only [front, back, val, List.flatten_cons, List.flatten_nil, List.append_assoc,
      List.append_nil]
  have hfront : front.flatten.length = 6 := by simp [front]
  have hbase : baseFmt.unpack front.flatten =
      some [.int mwMessageSigFeatureResponse.toNat, .int id.toNat] := by
    rw [Format.unpack_flatten (by simp [front, baseFmt, Field.size])]
    show some [(Field.unsigned 2).unpack _, (Field.unsigned 4).unpack _] = _
    rw [unpack_unsigned rfl, unpack_unsigned rfl]
  have hres : featureResFmt.unpack back.flatten = some [.int res.status.toInt, .str val.flatten] := by
    rw [Format.unpack_flatten (by simp [back, val, featureResFmt, Field.size])]
    show some [(Field.signed 4).unpack _, (Field.bytes 16).unpack _] = _
    rw [unpack_signed (n := 4) res.status]
    rfl
  have hval : featureResValFmt.unpack val.flatten =
      some [.int res.val.s.toNat, .int res.val.us.toNat] := by
    rw [Format.unpack_flatten (by simp [val, featureResValFmt, Field.size])]
    show some [(Field.unsigned 8).unpack _, (Field.unsigned 8).unpack _] = _
    rw [unpack_unsigned rfl, unpack_unsigned rfl]
  rw [getMsg, hbytes, List.take_left' hfront, List.drop_left' hfront]
  simp only [hbase, hres, hval, hid, and_self, if_true]

/-! ## Both ways -/

/-- The driver processes the request that the monitor has sent, and the monitor
gets the id of the request with the status and the value of the driver. -/
def Faithful (calls : Calls) (channelFlags : BitVec 32) (outstanding : List Int) (c : FeatureCall)
    (bs : List Byte) : Prop :=
  ∃ p out, mwNetflowHandleFeatReq calls channelFlags bs = some (p, out) ∧
    Carries c p.request ∧
    getMsg (c.ident.toNat :: outstanding) out = some
      ⟨c.ident.toNat, p.response.status.toInt, p.response.val.s.toNat, p.response.val.us.toNat⟩

theorem request_id (calls : Calls) (channelFlags : BitVec 32) (req : MwFeatureRequest)
    (res : MwFeatureResponse) :
    (mwNetflowProcessFeatReq calls channelFlags req res).request.id = req.id := by
  rw [request_process]
  split <;> rfl

/-- The response is always right, and the request when it needs no swap but
those that the driver makes. -/
theorem feature_request_faithful_iff (inetAton : List Byte → Bool) (calls : Calls)
    (channelFlags : BitVec 32) (outstanding : List Int) (c : FeatureCall) (bs : List Byte)
    (h : sendFeatureRequest inetAton c = some bs) :
    Faithful calls channelFlags outstanding c bs ↔ c.Swapped := by
  have hbs : bs = c.wire := by
    rw [send_eq] at h
    split at h
    · cases h
    · exact (Option.some.inj h).symm
  subst hbs
  have hreceived := received_wire c
  let p := mwNetflowProcessFeatReq calls channelFlags (hostOrder (.ofBytes c.wire (length_wire c))) {}
  have hhandle : mwNetflowHandleFeatReq calls channelFlags c.wire =
      some (p, (networkOrder p.request.id p.response).bytes) := by
    rw [mwNetflowHandleFeatReq, dif_pos (length_wire c)]
  have hid : p.request.id = c.ident := (request_id ..).trans hreceived.id
  rw [← @carries_iff calls channelFlags _ _ hreceived]
  constructor
  · rintro ⟨p', out, hp, hcarries, -⟩
    rw [hhandle, Option.some.injEq, Prod.mk.injEq] at hp
    rw [← hp.1] at hcarries
    exact hcarries
  · intro hcarries
    refine ⟨p, _, hhandle, hcarries, ?_⟩
    rw [hid]
    exact getMsg_networkOrder _ p.response List.mem_cons_self

/-- Calls of which none fails. -/
def quiet : Calls where
  signalOwner _ := 0
  closeByRemoteFd _ := 0
  blockIpMitigation _ := 0
  sendBareRequest _ := (0, Block.zero)

/-- A request to block an address. -/
def blockRequest : FeatureCall where
  ident := 7
  sockfd := 0
  name := Feature.addrBlock.code
  value := .number 1
  flag := mwFeatureFlagWrite
  addr := [49, 48, 46, 48, 46, 48, 46, 57]

theorem feature_request_faithful_block : ∃ bs,
    sendFeatureRequest (fun _ => true) blockRequest = some bs ∧
      (Faithful quiet 0 [] blockRequest bs ↔ blockRequest.Swapped) :=
  have hsent : sendFeatureRequest (fun _ => true) blockRequest = some blockRequest.wire :=
    (send_eq ..).trans (if_neg (by decide))
  ⟨_, hsent, feature_request_faithful_iff (fun _ => true) quiet 0 [] blockRequest _ hsent⟩

/-- A request to set the size of the send buffer of a socket. -/
def sndBufRequest : FeatureCall where
  ident := 8
  sockfd := 0x0005000000000003
  name := Feature.sndBuf.code
  value := .number 4096
  flag := mwFeatureFlagWrite ||| mwFeatureFlagBySock

/-- The driver asks the INS for a buffer of 0 bytes. -/
theorem feature_value_lost : ∃ bs,
    sendFeatureRequest (fun _ => true) sndBufRequest = some bs ∧
      ¬ Faithful quiet 0 [] sndBufRequest bs := by
  refine ⟨_, (send_eq ..).trans (if_neg (by decide)), ?_⟩
  rintro ⟨p, out, hhandle, hcarries, -⟩
  rw [mwNetflowHandleFeatReq, dif_pos (length_wire sndBufRequest), Option.some.injEq] at hhandle
  have hrequest := congrArg (fun x => x.1.request) hhandle
  simp only at hrequest
  rw [← hrequest] at hcarries
  have hswapped := (carries_iff (received_wire sndBufRequest)).mp hcarries
  exact absurd hswapped (by decide)

end MagicWand.Monitor
