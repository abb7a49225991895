import MagicWand.Ins.Answers
import MagicWand.Monitor.Feature
import MagicWand.Shim.Creation

/-!
# Socket options

An option goes through four structures: the caller's buffer, `mwsocket_attrib_t` of
the shim, the request and the response on the ring. `mwsocket_handle_attrib` copies
the value of the response when the option was set, not when it was read, and
`mwsocket_ioctl` hands it to the user on the same condition. What a get brings
back is the value that the shim's structure had before. On a set the INS passes the
value on, but for TCP_DEFER_ACCEPT, which it takes for an accept filter.
-/

namespace MagicWand.Shim

open Foundation Foundation.Bytes Ins

/-! ## The shim's names -/

/-- `mwcomms_set_sockattr`: the return code, and the name if one has been set. -/
def mwcommsSetSockattr (level optName : Int) : Int × MtSockfeatName :=
  match level, optName with
  | 1, 2 => (0, .reuseaddr)
  | 1, 9 => (0, .keepalive)
  | 1, 15 => (0, .reuseport)
  | 1, 20 => (0, .rcvTimeo)
  | 1, 21 => (0, .sndTimeo)
  | 1, 18 => (0, .rcvLoWat)
  | 1, 19 => (0, .sndLoWat)
  | 1, 4 => (0, .error)
  | 1, _ => (22, .other 0)
  | 6, 9 => (0, .deferAccept)
  | 6, 1 => (0, .nodelay)
  | 6, _ => (22, .other 0)
  -- an unknown level is only asserted against
  | _, _ => (0, .other 0)

/-! ## The driver and the INS -/

/-- `mwsocket_attrib_t`. -/
structure MwsocketAttrib where
  modify : Bool := false
  name : MtSockfeatName := .other 0
  val : Monitor.MtSockfeatArg := Block.zero
deriving DecidableEq, Repr

/-- The union in a request, as it is read. -/
def views (val : Monitor.MtSockfeatArg) : MtSockfeatArg :=
  { v32 := val.v32, s := val.s, us := val.us }

/-- The union in a response, as the INS writes it. -/
def stored (name : MtSockfeatName) (val : MtSockfeatArg) : Monitor.MtSockfeatArg :=
  if attribTimeval name then .time val.s val.us else Monitor.MtSockfeatArg.setV32 Block.zero val.v32

def mtRequestSocketAttribSize : Nat := mtRequestBaseSize + 4 + 2 + 16

def attribRequest (attr : MwsocketAttrib) : MtRequest where
  type := .socketAttrib
  size := mtRequestSocketAttribSize
  modify := attr.modify
  name := attr.name
  val := views attr.val

/-- What becomes of a request besides the code shown here: the return code of the
driver if it gives up before there is a response, errno before the call, and the
outcomes of the native calls on the INS. -/
structure World where
  lost : Int := 0
  errno : Int := 0
  outcomes : List Outcome := []
deriving DecidableEq, Repr

def etime : Int := 62

/-- The response to a request, or why there is none. -/
def World.exchange (w : World) (req : MtRequest) : Except Int MtResponse :=
  if w.lost ≠ 0 then .error w.lost
  else match xeNetSockAttrib req w.outcomes with
    | .ok (r, _) => .ok r.response
    | .error _ => .error (-etime)

/-- `mwsocket_handle_attrib`. -/
def mwsocketHandleAttrib (w : World) (attr : MwsocketAttrib) : Int × MwsocketAttrib :=
  match w.exchange (attribRequest attr) with
  | .error rc => (rc, attr)
  | .ok response =>
      if response.status < 0 then (response.status, attr)
      else if attr.modify then (0, { attr with val := stored attr.name response.val })
      else (0, attr)

/-- `mwsocket_ioctl`: the return code, and the user's structure afterwards. -/
def mwsocketIoctl (w : World) (uattrib : MwsocketAttrib) : Int × MwsocketAttrib :=
  let (rc, attrib) := mwsocketHandleAttrib w uattrib
  if rc ≠ 0 then (rc, uattrib)
  else if attrib.modify then (0, { uattrib with val := attrib.val })
  else (0, uattrib)

/-! ## The calls of the application -/

/-- What a call gives: return code, errno, and the caller's buffer. -/
structure SockoptCall where
  rc : Int
  errno : Int
  optVal : List Byte
  optLen : Nat
deriving DecidableEq, Repr

/-- `getsockopt` on an mwsocket; the buffer is as long as `*OptLen` says. -/
def getsockopt (w : World) (level optName : Int) (optVal : List Byte) : SockoptCall :=
  let (rc, name) := mwcommsSetSockattr level optName
  if rc ≠ 0 then { rc := -1, errno := rc, optVal := optVal, optLen := optVal.length }
  else
    let (rc, attr) := mwsocketIoctl w { modify := false, name := name }
    let (rc, err) := libcCall rc w.errno
    if rc ≠ 0 then { rc := rc, errno := err, optVal := optVal, optLen := optVal.length }
    else if attribTimeval attr.name then
      { rc := 0
        errno := 0
        optVal := store 8 attr.val.s ++ store 8 attr.val.us ++ optVal.drop 16
        optLen := 16 }
    else if 0 < optVal.length ∧ optVal.length ≤ 16 then
      { rc := 0, errno := 0, optVal := attr.val.bytes.take optVal.length, optLen := optVal.length }
    else { rc := 0, errno := 0, optVal := optVal, optLen := optVal.length }

/-- The value that `setsockopt` puts in its structure. -/
def optionArg (name : MtSockfeatName) (optVal : List Byte) : Monitor.MtSockfeatArg :=
  if attribTimeval name then
    .time (BitVec.ofNat 64 (leNat (slice optVal 0 8))) (BitVec.ofNat 64 (leNat (slice optVal 8 8)))
  else if h : 0 < optVal.length ∧ optVal.length ≤ 16 then
    Block.write Block.zero 0 optVal (by omega)
  else Block.zero

/-- The structure that `setsockopt` hands to the driver. -/
def setAttrib (name : MtSockfeatName) (optVal : List Byte) : MwsocketAttrib :=
  { modify := true, name := name, val := optionArg name optVal }

/-- `setsockopt` on an mwsocket. -/
def setsockopt (w : World) (level optName : Int) (optVal : List Byte) : SockoptCall :=
  let (rc, name) := mwcommsSetSockattr level optName
  if rc ≠ 0 then { rc := -1, errno := rc, optVal := optVal, optLen := optVal.length }
  else
    let (rc, _) := mwsocketIoctl w (setAttrib name optVal)
    let (rc, err) := libcCall rc w.errno
    { rc := rc
      errno := if rc ≠ 0 then err else 0
      optVal := optVal
      optLen := optVal.length }

/-- `O_NONBLOCK` of Linux, and of the INS. -/
def oNonblock : BitVec 32 := 0x800
def oNonblockIns : BitVec 32 := 4

/-- What `fcntl(F_SETFL)` asks the driver for, if `O_NONBLOCK` changes. -/
def setflAttrib (oldFlags newFlags : BitVec 32) : Option MwsocketAttrib :=
  if oldFlags &&& oNonblock = newFlags &&& oNonblock then none
  else
    some
      { modify := true
        name := .nonblock
        val := Monitor.MtSockfeatArg.setV32 Block.zero (if newFlags &&& oNonblock ≠ 0 then 1 else 0) }

/-! ## What is expected -/

/-- The option that the shim passes on, if it is one that it supports. -/
def asked (level optName : Int) : Option MtSockfeatName :=
  let (rc, name) := mwcommsSetSockattr level optName
  if rc = 0 ∧ (attribOption name).isSome then some name else none

def valueSize (name : MtSockfeatName) : Nat := if attribTimeval name then 16 else 4

/-- The value of an option as it lies in memory. -/
def valueBytes (name : MtSockfeatName) (val : MtSockfeatArg) : List Byte :=
  if attribTimeval name then store 8 val.s ++ store 8 val.us else store 4 val.v32

/-- What an application does with an option: `getsockopt` and `setsockopt`, and for the
flag that is no option the read of the attribute and `fcntl`. -/
inductive SockoptOp where
  | get (level optName : Int) (optVal : List Byte)
  | set (level optName : Int) (optVal : List Byte)
  | getFlag (val : Monitor.MtSockfeatArg)
  | setFlag (oldFlags newFlags : BitVec 32)
deriving DecidableEq, Repr

namespace SockoptOp

/-- The caller's buffer holds a value of the option's type. -/
def WellFormed : SockoptOp → Prop
  | get level optName optVal => ∀ name ∈ asked level optName, valueSize name ≤ optVal.length
  | set level optName optVal => ∀ name ∈ asked level optName, valueSize name ≤ optVal.length
  | getFlag _ => True
  | setFlag _ _ => True

/-- A get that succeeds gives the value that the native call has given. A set leaves the
caller's value as it is, and the native call that it leads to is given this value. -/
def Faithful (w : World) : SockoptOp → Prop
  | get level optName optVal =>
      ∀ name ∈ asked level optName, ∀ out ∈ w.outcomes.head?,
        (getsockopt w level optName optVal).rc = 0 →
          (getsockopt w level optName optVal).optVal.take (valueSize name) =
            valueBytes name out.val
  | set level optName optVal =>
      (setsockopt w level optName optVal).optVal = optVal ∧
        ∀ name ∈ asked level optName, ∀ out rest, ∃ opt ∈ attribOption name, ∃ val,
          valueBytes name val = optVal.take (valueSize name) ∧
            Script.trace (xeNetSockAttrib (attribRequest (setAttrib name optVal))) (out :: rest) =
              [(.setsockopt .worker opt val, out)]
  | getFlag val =>
      let r := mwsocketIoctl w { modify := false, name := .nonblock, val := val }
      ∀ out ∈ w.outcomes.head?, r.1 = 0 → r.2.val.v32 = BitVec.ofInt 32 out.ret &&& oNonblockIns
  | setFlag oldFlags newFlags =>
      ∀ attr ∈ setflAttrib oldFlags newFlags, ∀ flags out rest, ∃ flags',
        Script.trace (xeNetSockAttrib (attribRequest attr)) (flags :: out :: rest) =
          [(.fcntlGet .worker, flags), (.fcntlSet .worker flags', out)] ∧
        flags' &&& ~~~oNonblockIns = BitVec.ofInt 32 flags.ret &&& ~~~oNonblockIns ∧
        (flags' &&& oNonblockIns ≠ 0 ↔ newFlags &&& oNonblock ≠ 0)

/-- Does the value fit in the union? -/
def Fits (name : MtSockfeatName) (optVal : List Byte) : Prop :=
  attribTimeval name = true ∨ optVal.length ≤ 16

/-- A get goes well when the native value is what the shim has anyway: 0, or for a
buffer that it does not touch what the caller had in it. A set goes well but for
TCP_DEFER_ACCEPT; what does not fit is sent as 0. -/
def HoldsWhen (w : World) : SockoptOp → Prop
  | get level optName optVal =>
      w.lost = 0 → ∀ name ∈ asked level optName, ∀ out ∈ w.outcomes.head?, out.ret = 0 →
        (Fits name optVal → valueBytes name out.val = List.replicate (valueSize name) 0) ∧
        (¬ Fits name optVal → valueBytes name out.val = optVal.take (valueSize name))
  | set level optName optVal =>
      ∀ name ∈ asked level optName, name ≠ .deferAccept ∧
        (¬ Fits name optVal → optVal.take (valueSize name) = List.replicate (valueSize name) 0)
  | getFlag val =>
      w.lost = 0 → ∀ out ∈ w.outcomes.head?, val.v32 = BitVec.ofInt 32 out.ret &&& oNonblockIns
  | setFlag _ _ => True

end SockoptOp

/-! ## On the INS -/

theorem asked_iff {level optName : Int} {name : MtSockfeatName} :
    name ∈ asked level optName ↔
      mwcommsSetSockattr level optName = (0, name) ∧ ∃ opt, attribOption name = some opt := by
  rw [asked, Option.mem_def, ← Option.isSome_iff_exists]
  obtain ⟨rc, name'⟩ := mwcommsSetSockattr level optName
  dsimp only
  constructor
  · intro h
    split at h
    · rename_i hasked
      cases h
      exact ⟨by rw [hasked.1], hasked.2⟩
    · cases h
  · rintro ⟨h, hopt⟩
    cases h
    rw [if_pos ⟨rfl, hopt⟩]

section Call

variable {req : MtRequest} {opt : SockOpt}

/-- The response after the one native call that an option takes. -/
theorem xeNetSockAttrib_run (h : attribBody req = attribCall req opt) (out : Outcome)
    (rest : List Outcome) : ∃ r, xeNetSockAttrib req (out :: rest) = .ok (r, rest) ∧
      (r.response.status < 0 ↔ out.ret ≠ 0) ∧
      (req.modify = false → r.response.val =
        if attribTimeval req.name then { s := out.val.s, us := out.val.us }
        else { v32 := out.val.v32 }) := by
  have hstatus : ∀ e, (if out.ret ≠ 0 then xeGetNegErrnoVal e else 0) < 0 ↔ out.ret ≠ 0 := by
    intro e
    split
    · rename_i hne
      exact iff_of_true (xeGetNegErrnoVal_neg e) hne
    · rename_i heq
      exact iff_of_false (lt_irrefl 0) heq
  unfold xeNetSockAttrib
  rw [h]
  unfold attribCall
  cases hmodify : req.modify with
  | true => exact ⟨_, rfl, hstatus _, nofun⟩
  | false => exact ⟨_, rfl, hstatus _, fun _ => rfl⟩

theorem xeNetSockAttrib_blocked (h : attribBody req = attribCall req opt) :
    xeNetSockAttrib req [] =
      .error (if req.modify then setCall opt req.val else .getsockopt .worker opt) := by
  unfold xeNetSockAttrib
  rw [h]
  unfold attribCall
  cases req.modify <;> rfl

end Call

/-! ## Reading -/

/-- A structure that is only read comes back as it was. -/
theorem mwsocketIoctl_get (w : World) {attr : MwsocketAttrib} (h : attr.modify = false) :
    (mwsocketIoctl w attr).2 = attr := by
  have hattr : (mwsocketHandleAttrib w attr).2 = attr := by
    unfold mwsocketHandleAttrib
    split
    · rfl
    · split
      · rfl
      · rw [if_neg (by simp [h])]
  unfold mwsocketIoctl
  dsimp only
  split
  · rfl
  · rw [hattr, if_neg (by simp [h])]

/-- When the driver reports no error. -/
theorem mwsocketIoctl_rc (w : World) (attr : MwsocketAttrib) :
    (mwsocketIoctl w attr).1 = 0 ↔ w.lost = 0 ∧ ∃ r rest,
      xeNetSockAttrib (attribRequest attr) w.outcomes = .ok (r, rest) ∧ ¬ r.response.status < 0 := by
  have hrc : (mwsocketIoctl w attr).1 = (mwsocketHandleAttrib w attr).1 := by
    unfold mwsocketIoctl
    dsimp only
    split
    · rfl
    · rename_i hrc
      rw [not_not.mp hrc]
      split <;> rfl
  rw [hrc]
  unfold mwsocketHandleAttrib World.exchange
  by_cases hlost : w.lost = 0
  · rw [if_neg (not_not.mpr hlost)]
    cases hrun : xeNetSockAttrib (attribRequest attr) w.outcomes with
    | error c => simp [hlost, etime]
    | ok p =>
        obtain ⟨r, rest⟩ := p
        by_cases hstatus : r.response.status < 0
        · simp only [hlost, if_pos hstatus, true_and]
          constructor
          · intro h
            omega
          · rintro ⟨r', rest', heq, hr'⟩
            cases heq
            exact absurd hstatus hr'
        · simp only [hlost, if_neg hstatus, true_and]
          refine iff_of_true ?_ ⟨r, rest, rfl, hstatus⟩
          split <;> rfl
  · rw [if_pos hlost]
    simp [hlost]

theorem libcCall_rc (rc errno : Int) : (libcCall rc errno).1 = 0 ↔ rc = 0 := by
  unfold libcCall
  split
  · rename_i h
    exact iff_of_false (by simp) (by omega)
  · rfl

section Get

variable {w : World} {level optName : Int} {optVal : List Byte} {name : MtSockfeatName}

/-- A supported option is got when its native call succeeds. -/
theorem getsockopt_rc (optVal : List Byte) (hname : name ∈ asked level optName) {out : Outcome}
    (hout : out ∈ w.outcomes.head?) :
    (getsockopt w level optName optVal).rc = 0 ↔ w.lost = 0 ∧ out.ret = 0 := by
  obtain ⟨hset, opt, hopt⟩ := asked_iff.mp hname
  obtain ⟨rest, hos⟩ : ∃ rest, w.outcomes = out :: rest := by
    cases hos : w.outcomes with
    | nil => rw [hos] at hout; exact absurd hout (by simp)
    | cons o rest => rw [hos] at hout; exact ⟨rest, by rw [Option.some.inj hout]⟩
  have hrc : (getsockopt w level optName optVal).rc = 0 ↔
      (mwsocketIoctl w { modify := false, name := name }).1 = 0 := by
    refine Iff.trans ?_ (libcCall_rc _ w.errno)
    unfold getsockopt
    simp only [hset, ne_eq, not_true_eq_false, if_false]
    split
    · rename_i h
      exact iff_of_false h h
    · rename_i h
      refine iff_of_true ?_ (not_not.mp h)
      split
      · rfl
      · split <;> rfl
  obtain ⟨r, hrun, hstatus, -⟩ := xeNetSockAttrib_run
    (@attribBody_eq (attribRequest { modify := false, name := name }) opt hopt (.inl rfl)) out rest
  rw [hrc, mwsocketIoctl_rc, hos]
  refine and_congr_right fun _ => ?_
  constructor
  · rintro ⟨r', rest', heq, hr'⟩
    rw [hrun] at heq
    cases heq
    exact not_not.mp (mt hstatus.mpr hr')
  · intro hret
    exact ⟨r, rest, hrun, mt hstatus.mp (not_not.mpr hret)⟩

/-- The caller gets zeros, or what was in the buffer if nothing is copied. -/
theorem getsockopt_optVal (hname : name ∈ asked level optName)
    (hsize : valueSize name ≤ optVal.length) (hrc : (getsockopt w level optName optVal).rc = 0) :
    (SockoptOp.Fits name optVal → (getsockopt w level optName optVal).optVal.take (valueSize name) =
      List.replicate (valueSize name) 0) ∧
    (¬ SockoptOp.Fits name optVal → (getsockopt w level optName optVal).optVal = optVal) := by
  obtain ⟨hset, -⟩ := asked_iff.mp hname
  have hget := @mwsocketIoctl_get w { modify := false, name := name } rfl
  unfold getsockopt at hrc ⊢
  simp only [hset, ne_eq, not_true_eq_false, if_false, hget] at hrc ⊢
  split at hrc
  · rename_i h
    exact absurd hrc h
  · rename_i h
    rw [if_neg h]
    cases htime : attribTimeval name with
    | true =>
        simp only [if_true]
        refine ⟨fun _ => ?_, fun hno => absurd (.inl htime) hno⟩
        have hvalue : valueSize name = 16 := by simp [valueSize, htime]
        rw [hvalue]
        rfl
    | false =>
        have hvalue : valueSize name = 4 := by simp [valueSize, htime]
        rw [hvalue] at hsize ⊢
        simp only [Bool.false_eq_true, if_false]
        constructor
        · rintro (hno | hfits)
          · exact absurd hno (by simp [htime])
          · rw [if_pos ⟨by omega, hfits⟩]
            show ((Block.zero : Block 16).bytes.take optVal.length).take 4 = _
            rw [List.take_take, Nat.min_eq_left hsize]
            rfl
        · intro hno
          rw [if_neg fun hlen => hno (.inr hlen.2)]

theorem get_iff (hwf : SockoptOp.WellFormed (.get level optName optVal)) :
    SockoptOp.Faithful w (.get level optName optVal) ↔
      SockoptOp.HoldsWhen w (.get level optName optVal) := by
  constructor
  · intro h hlost name hname out hout hret
    have hrc := (getsockopt_rc optVal hname hout).mpr ⟨hlost, hret⟩
    obtain ⟨hfits, hno⟩ := getsockopt_optVal hname (hwf name hname) hrc
    have hvalue := h name hname out hout hrc
    constructor
    · intro hf
      rw [← hvalue, hfits hf]
    · intro hf
      rw [← hvalue, hno hf]
  · intro h name hname out hout hrc
    obtain ⟨hlost, hret⟩ := (getsockopt_rc optVal hname hout).mp hrc
    obtain ⟨hfits, hno⟩ := getsockopt_optVal hname (hwf name hname) hrc
    obtain ⟨hzero, hold⟩ := h hlost name hname out hout hret
    by_cases hf : SockoptOp.Fits name optVal
    · rw [hfits hf, hzero hf]
    · rw [hno hf, hold hf]

end Get

/-! ## Setting -/

section Set

variable {w : World} {level optName : Int} {optVal : List Byte} {name : MtSockfeatName}
  {opt : SockOpt}

/-- The value that the INS sees is the caller's if it fits, and 0 otherwise. -/
theorem valueBytes_optionArg (hsize : valueSize name ≤ optVal.length) :
    (SockoptOp.Fits name optVal →
      valueBytes name (views (optionArg name optVal)) = optVal.take (valueSize name)) ∧
    (¬ SockoptOp.Fits name optVal →
      valueBytes name (views (optionArg name optVal)) = List.replicate (valueSize name) 0) := by
  cases htime : attribTimeval name with
  | true =>
      have hvalue : valueSize name = 16 := by simp [valueSize, htime]
      rw [hvalue] at hsize ⊢
      refine ⟨fun _ => ?_, fun hno => absurd (.inl htime) hno⟩
      have hlen₀ : (slice optVal 0 8).length = 8 := by
        rw [slice, List.length_take, List.length_drop]
        omega
      have hlen₈ : (slice optVal 8 8).length = 8 := by
        rw [slice, List.length_take, List.length_drop]
        omega
      have hbytes : (optionArg name optVal).bytes = slice optVal 0 8 ++ slice optVal 8 8 := by
        rw [optionArg, if_pos htime]
        show store 8 _ ++ store 8 _ = _
        rw [store_ofNat_leNat rfl hlen₀, store_ofNat_leNat rfl hlen₈]
      calc valueBytes name (views (optionArg name optVal))
          = store 8 ((optionArg name optVal).read 0 8) ++
              store 8 ((optionArg name optVal).read 8 8) := by
            rw [valueBytes, if_pos htime]
            rfl
        _ = slice optVal 0 8 ++ slice optVal 8 8 := by
            rw [Block.store_read _ (by decide), Block.store_read _ (by decide), hbytes]
            congr 1
            · rw [slice, List.drop_zero, List.take_left' hlen₀]
            · rw [slice, List.drop_left' hlen₀, List.take_of_length_le hlen₈.le]
        _ = optVal.take 16 := by
            rw [slice, slice, List.drop_zero, show (16 : Nat) = 8 + 8 from rfl, List.take_add]
  | false =>
      have hvalue : valueSize name = 4 := by simp [valueSize, htime]
      rw [hvalue] at hsize ⊢
      have hread : valueBytes name (views (optionArg name optVal)) =
          slice (optionArg name optVal).bytes 0 4 := by
        rw [← Block.store_read _ (by decide), valueBytes, if_neg (by simp [htime])]
        rfl
      rw [hread, optionArg, if_neg (by simp [htime])]
      constructor
      · rintro (hno | hfits)
        · exact absurd hno (by simp [htime])
        · rw [dif_pos ⟨by omega, hfits⟩]
          show ((Block.zero : Block 16).bytes.take 0 ++ (optVal ++ _)).take 4 = _
          rw [List.take_zero, List.nil_append, List.take_append_of_le_length hsize]
      · intro hno
        rw [dif_neg fun hlen => hno (.inr hlen.2)]
        rfl

theorem trace_set (hopt : attribOption name = some opt) (hname : name ≠ .deferAccept)
    (out : Outcome) (rest : List Outcome) :
    Script.trace (xeNetSockAttrib (attribRequest (setAttrib name optVal))) (out :: rest) =
      [(.setsockopt .worker opt (views (optionArg name optVal)), out)] := by
  have hcall := @attribBody_eq (attribRequest (setAttrib name optVal)) opt hopt (.inr hname)
  have hfilter : opt ≠ .acceptFilter := by
    rintro rfl
    unfold attribOption at hopt
    split at hopt
    all_goals first | exact hname rfl | cases hopt
  have hblocked := xeNetSockAttrib_blocked hcall
  have hset : setCall opt (views (optionArg name optVal)) =
      .setsockopt .worker opt (views (optionArg name optVal)) := if_neg hfilter
  rw [Script.trace_cons (hblocked.trans (congrArg Except.error hset)) fun _ => rfl]
  obtain ⟨r, hrun, -⟩ := xeNetSockAttrib_run hcall out []
  rw [Script.trace_of_ok hrun]

/-- For TCP_DEFER_ACCEPT the INS first asks for the filter that there is. -/
theorem trace_deferAccept (optVal : List Byte) (out : Outcome) (rest : List Outcome) :
    ∃ calls, Script.trace
      (xeNetSockAttrib (attribRequest (setAttrib .deferAccept optVal))) (out :: rest) =
        (.getsockopt .worker .acceptFilter, out) :: calls :=
  ⟨_, Script.trace_cons rfl fun _ => rfl⟩

theorem setsockopt_optVal (w : World) (level optName : Int) (optVal : List Byte) :
    (setsockopt w level optName optVal).optVal = optVal := by
  unfold setsockopt
  dsimp only
  split <;> rfl

theorem set_iff (hwf : SockoptOp.WellFormed (.set level optName optVal)) :
    SockoptOp.Faithful w (.set level optName optVal) ↔
      SockoptOp.HoldsWhen w (.set level optName optVal) := by
  constructor
  · rintro ⟨-, h⟩ name hname
    have hdefer : name ≠ .deferAccept := by
      rintro rfl
      obtain ⟨opt, -, val, -, htrace⟩ := h _ hname {} []
      obtain ⟨calls, hcalls⟩ := trace_deferAccept optVal {} []
      rw [hcalls] at htrace
      cases htrace
    refine ⟨hdefer, fun hno => ?_⟩
    obtain ⟨opt, hopt, val, hval, htrace⟩ := h name hname {} []
    rw [trace_set hopt hdefer] at htrace
    obtain rfl : views (optionArg name optVal) = val := by
      simpa using htrace
    rw [← hval]
    exact (valueBytes_optionArg (hwf name hname)).2 hno
  · intro h
    refine ⟨setsockopt_optVal w level optName optVal, fun name hname out rest => ?_⟩
    obtain ⟨hdefer, hno⟩ := h name hname
    obtain ⟨-, opt, hopt⟩ := asked_iff.mp hname
    refine ⟨opt, hopt, _, ?_, trace_set hopt hdefer out rest⟩
    obtain ⟨hfits, hzero⟩ := valueBytes_optionArg (hwf name hname)
    by_cases hf : SockoptOp.Fits name optVal
    · exact hfits hf
    · rw [hzero hf, hno hf]

end Set

/-! ## The flag -/

theorem getFlag_iff {w : World} {val : Monitor.MtSockfeatArg} :
    SockoptOp.Faithful w (.getFlag val) ↔ SockoptOp.HoldsWhen w (.getFlag val) := by
  have hsame : (mwsocketIoctl w { modify := false, name := .nonblock, val := val }).2.val = val := by
    rw [mwsocketIoctl_get w rfl]
  have hrc : ∀ out ∈ w.outcomes.head?,
      (mwsocketIoctl w { modify := false, name := .nonblock, val := val }).1 = 0 ↔ w.lost = 0 := by
    intro out hout
    cases hos : w.outcomes with
    | nil => rw [hos] at hout; exact absurd hout (by simp)
    | cons o rest =>
        rw [mwsocketIoctl_rc, hos]
        exact and_iff_left ⟨_, rest, rfl, lt_irrefl (0 : Int)⟩
  constructor
  · intro h hlost out hout
    have := h out hout ((hrc out hout).mpr hlost)
    rwa [hsame] at this
  · intro h out hout hzero
    rw [hsame]
    exact h ((hrc out hout).mp hzero) out hout

/-- Setting the flag leaves the other flags alone. -/
theorem flag_set (flags : BitVec 32) :
    (flags ||| oNonblockIns) &&& ~~~oNonblockIns = flags &&& ~~~oNonblockIns ∧
      (flags ||| oNonblockIns) &&& oNonblockIns ≠ 0 := by
  have hor (a b m : BitVec 32) : (a ||| b) &&& m = (a &&& m) ||| (b &&& m) := by
    ext i
    simp [Bool.and_or_distrib_right]
  rw [hor, hor, BitVec.and_self, show oNonblockIns &&& ~~~oNonblockIns = 0 from by decide]
  exact ⟨BitVec.or_zero, fun h => absurd (BitVec.or_eq_zero_iff.mp h).2 (by decide)⟩

/-- So does clearing it. -/
theorem flag_cleared (flags : BitVec 32) :
    (flags &&& ~~~oNonblockIns) &&& ~~~oNonblockIns = flags &&& ~~~oNonblockIns ∧
      (flags &&& ~~~oNonblockIns) &&& oNonblockIns = 0 := by
  rw [BitVec.and_assoc, BitVec.and_assoc, BitVec.and_self,
    show ~~~oNonblockIns &&& oNonblockIns = 0 from by decide]
  exact ⟨rfl, BitVec.and_zero⟩

/-- The flags that `xe_net_sock_fcntl` sets. -/
def insFlags (flags v : BitVec 32) : BitVec 32 :=
  if v ≠ 0 then flags ||| oNonblockIns else flags &&& ~~~oNonblockIns

theorem trace_fcntl (val : Monitor.MtSockfeatArg) (flags out : Outcome) (rest : List Outcome) :
    Script.trace (xeNetSockAttrib (attribRequest { modify := true, name := .nonblock, val := val }))
        (flags :: out :: rest) =
      [(.fcntlGet .worker, flags),
        (.fcntlSet .worker (insFlags (BitVec.ofInt 32 flags.ret) val.v32), out)] := by
  let m := xeNetSockAttrib (attribRequest { modify := true, name := .nonblock, val := val })
  have hget : m [] = .error (.fcntlGet .worker) := rfl
  have hset : m [flags] =
      .error (.fcntlSet .worker (insFlags (BitVec.ofInt 32 flags.ret) val.v32)) := rfl
  obtain ⟨x, hdone⟩ : ∃ x, m [flags, out] = .ok x := ⟨_, rfl⟩
  calc Script.trace m (flags :: out :: rest)
      = (.fcntlGet .worker, flags) :: Script.trace (fun os => m (flags :: os)) (out :: rest) :=
        Script.trace_cons hget fun _ => rfl
    _ = _ := by
        rw [Script.trace_cons (m := fun os => m (flags :: os)) hset fun _ => rfl]
        rw [Script.trace_of_ok hdone]

theorem setFlag_faithful (w : World) (oldFlags newFlags : BitVec 32) :
    SockoptOp.Faithful w (.setFlag oldFlags newFlags) := by
  intro attr hattr flags out rest
  unfold setflAttrib at hattr
  split at hattr
  · cases hattr
  · obtain rfl := Option.some.inj hattr
    refine ⟨_, trace_fcntl _ flags out rest, ?_⟩
    rw [Monitor.MtSockfeatArg.v32_setV32]
    by_cases hflag : newFlags &&& oNonblock = 0
    · obtain ⟨hrest, hcleared⟩ := flag_cleared (BitVec.ofInt 32 flags.ret)
      rw [if_neg (not_not.mpr hflag), insFlags, if_neg (by decide)]
      exact ⟨hrest, iff_of_false (not_not.mpr hcleared) (not_not.mpr hflag)⟩
    · obtain ⟨hrest, hset⟩ := flag_set (BitVec.ofInt 32 flags.ret)
      rw [if_pos hflag, insFlags, if_pos (by decide)]
      exact ⟨hrest, iff_of_true hset hflag⟩

/-- SO_RCVLOWAT is 1 on the INS, and the caller's `int` becomes 0. -/
def rcvLoWatWorld : World := { outcomes := [{ val := { v32 := 1 } }] }

def rcvLoWatGet : SockoptOp := .get 1 18 [7, 0, 0, 0]

end MagicWand.Shim
