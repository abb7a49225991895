import MagicWand.Kernel.State
import MagicWand.Shim.Recv

/-!
# Status reporting in the shim

`mwcomms_write_request` with the loops around its system calls, and what it makes
of the status in a response. An INS that fails internally answers with
`CRITICAL_ERROR(x)`, a number that starts with the byte 0xc0. It is stored in a
signed status, and `IS_CRITICAL_ERROR` shifts it arithmetically, so it is never
recognised: what the caller sees is the negated number as an errno.
-/

namespace MagicWand.Shim

open Foundation Bytes Kernel

/-! ## Critical errors -/

/-- `CRITICAL_ERROR(x)`, stored in a 32-bit status. -/
def criticalError (x : BitVec 32) : BitVec 32 := (0xc0#32 <<< 24) ||| x

/-- A status that some `CRITICAL_ERROR(x)` with `x < 2^24` builds. -/
def IsCritical (s : BitVec 32) : Prop := ∃ x : BitVec 32, x.toNat < 2 ^ 24 ∧ s = criticalError x

theorem toNat_criticalError {x : BitVec 32} (hx : x.toNat < 2 ^ 24) :
    (criticalError x).toNat = 0xc0000000 + x.toNat := by
  have hprefix : (0xc0#32 <<< 24).toNat = 2 ^ 24 * 0xc0 := by decide
  rw [criticalError, BitVec.toNat_or, hprefix, ← Nat.two_pow_add_eq_or_of_lt hx]

/-- The critical errors are an interval. -/
theorem isCritical_iff (s : BitVec 32) :
    IsCritical s ↔ 0xc0000000 ≤ s.toNat ∧ s.toNat ≤ 0xc0ffffff := by
  constructor
  · rintro ⟨x, hx, rfl⟩
    rw [toNat_criticalError hx]
    omega
  · rintro ⟨hlow, hhigh⟩
    have hx : (BitVec.ofNat 32 (s.toNat - 0xc0000000)).toNat = s.toNat - 0xc0000000 := by
      rw [BitVec.toNat_ofNat]
      omega
    refine ⟨BitVec.ofNat 32 (s.toNat - 0xc0000000), by omega, ?_⟩
    apply BitVec.eq_of_toNat_eq
    rw [toNat_criticalError (by omega), hx]
    omega

/-- A signed status shifted by 24 lies between -128 and 127. -/
theorem isCriticalError_status (s : BitVec 32) : isCriticalError s.toInt = false := by
  have hlt : s.toInt < 2 ^ 31 := BitVec.toInt_lt
  rw [isCriticalError, Int.shiftRight_eq_div_pow, beq_eq_false_iff_ne]
  omega

/-! ## The system calls -/

def eagain : Int := 11

inductive SysWrite where
  | failed (errno : Int)
  | wrote (count : Nat)
deriving DecidableEq, Repr

inductive SysRead where
  | failed (errno : Int)
  | read (bytes : List Byte)
deriving DecidableEq, Repr

/-- The thread in `mwcomms_write_request`: its errno, and what its calls of
`libc_write` and `libc_read` will come to. -/
structure Caller where
  errno : Int := 0
  writes : List SysWrite
  reads : List SysRead
deriving DecidableEq, Repr

/-- The loop around `libc_write`: how it ends, and errno. It tries again when it
is interrupted or the ring is full. -/
def writeLoop (errno : Int) : List SysWrite → Option (SysWrite × Int)
  | [] => none
  | .wrote count :: _ => some (.wrote count, errno)
  | .failed e :: rest =>
      if e = eintr ∨ e = eagain then writeLoop e rest else some (.failed e, e)

/-- The loop around `libc_read`. -/
def readLoop (errno : Int) : List SysRead → Option (SysRead × Int)
  | [] => none
  | .read bytes :: _ => some (.read bytes, errno)
  | .failed e :: rest => if e = eintr then readLoop e rest else some (.failed e, e)

namespace Caller

/-- What the last part of `mwcomms_write_request` makes of the response buffer. -/
def judge (err : Int) (response : List Byte) : Int × Int × List Byte :=
  if isCriticalError (statusOf response) then
    (-1, err, response.take 24 ++ leBytes 4 eio.toNat ++ response.drop 28)
  else if statusOf response < 0 then
    -- The negation of an `int` wraps.
    (-1, (-BitVec.ofInt 32 (statusOf response)).toInt, response)
  else (0, err, response)

/-- `mwcomms_write_request`: return code, errno and the response buffer, which
was zeroed. It does not return while its calls are interrupted. -/
def mwcommsWriteRequest (c : Caller) (readResponse : Bool) : Option (Int × Int × List Byte) :=
  (writeLoop c.errno c.writes).bind fun (written, err) =>
    match written with
    | .failed _ => some (-1, err, responseBuffer [])
    | .wrote _ =>
        if !readResponse then some (0, err, responseBuffer [])
        else
          (readLoop err c.reads).map fun (got, err) =>
            match got with
            -- The count -1 is compared with an unsigned size.
            | .failed _ => judge err (responseBuffer [])
            | .read bytes =>
                if bytes.length < mtResponseBaseSize then (-1, err, responseBuffer bytes)
                else judge err (responseBuffer bytes)

end Caller

/-- The request of the caller is written and the bytes of a response are read,
with whatever interruptions on the way. -/
structure ResponseRead (c : Caller) (err : Int) (bytes : List Byte) : Prop where
  written : ∃ count e, writeLoop c.errno c.writes = some (.wrote count, e) ∧
    readLoop e c.reads = some (.read bytes, err)
  whole : mtResponseBaseSize ≤ bytes.length

/-- `response.base.status` in 32 bits. -/
def statusBits (bytes : List Byte) : BitVec 32 := BitVec.ofNat 32 (leNat (slice bytes 24 4))

theorem statusOf_responseBuffer {bytes : List Byte} (h : mtResponseBaseSize ≤ bytes.length) :
    statusOf (responseBuffer bytes) = (statusBits bytes).toInt := by
  have hlen : 40 ≤ bytes.length := h
  have hslice : slice (responseBuffer bytes) 24 4 = slice bytes 24 4 := by
    rw [slice, slice, responseBuffer, List.drop_append_of_le_length (by omega),
      List.take_append_of_le_length (by rw [List.length_drop]; omega)]
  rw [statusOf, statusBits, hslice]

/-- The call that reads a response returns what the status says. -/
theorem ResponseRead.returns {c : Caller} {err : Int} {bytes : List Byte} (h : ResponseRead c err bytes) :
    c.mwcommsWriteRequest true = some (Caller.judge err (responseBuffer bytes)) := by
  obtain ⟨count, e, hwrite, hread⟩ := h.written
  have hlen : ¬ bytes.length < mtResponseBaseSize := Nat.not_lt.mpr h.whole
  simp only [Caller.mwcommsWriteRequest, hwrite, Option.bind_some, Bool.not_true,
    Bool.false_eq_true, if_false, hread, Option.map_some, if_neg hlen]

/-- Without a critical error the status alone decides. -/
theorem Caller.judge_status {bytes : List Byte} (h : mtResponseBaseSize ≤ bytes.length) (err : Int) :
    Caller.judge err (responseBuffer bytes) =
      if (statusBits bytes).toInt < 0 then
        (-1, (-statusBits bytes).toInt, responseBuffer bytes)
      else (0, err, responseBuffer bytes) := by
  rw [Caller.judge, statusOf_responseBuffer h, isCriticalError_status, BitVec.ofInt_toInt]
  rfl

/-- Called with a clear errno and not interrupted, this is the function that the
receive calls use. -/
theorem mwcommsWriteRequest_eq {bytes : List Byte} (h : mtResponseBaseSize ≤ bytes.length)
    (hmin : statusBits bytes ≠ BitVec.intMin 32) (count : Nat) :
    Caller.mwcommsWriteRequest ⟨0, [.wrote count], [.read bytes]⟩ true =
      some (mwcommsWriteRequest (.response bytes)) := by
  have hlen : ¬ bytes.length < mtResponseBaseSize := Nat.not_lt.mpr h
  have hread : ResponseRead ⟨0, [.wrote count], [.read bytes]⟩ 0 bytes :=
    ⟨⟨count, 0, rfl, rfl⟩, h⟩
  rw [hread.returns, Caller.judge_status h]
  simp only [mwcommsWriteRequest, if_neg hlen, statusOf_responseBuffer h, isCriticalError_status,
    Bool.false_eq_true, if_false, BitVec.toInt_neg_of_ne_intMin hmin]

/-! ## What the caller is told -/

/-- The call reports status `s` as it should. -/
structure Reported (s : BitVec 32) (rc err : Int) : Prop where
  critical : IsCritical s → isCriticalError s.toInt = true ∧ rc = -1 ∧ err = eio
  negative : ¬ IsCritical s → s.toInt < 0 → rc = -1 ∧ err = -s.toInt
  success : 0 ≤ s.toInt → rc = 0

/-- A status that the shim gets right: not a critical error, and not the number
that has no negative. -/
def Reportable (s : BitVec 32) : Prop :=
  ¬ (0xc0000000 ≤ s.toNat ∧ s.toNat ≤ 0xc0ffffff) ∧ s ≠ BitVec.intMin 32

/-- A critical error is never recognised. -/
theorem Reported.not_critical {s : BitVec 32} {rc err : Int} (h : Reported s rc err) :
    ¬ IsCritical s := by
  intro hcritical
  obtain ⟨hseen, -, -⟩ := h.critical hcritical
  rw [isCriticalError_status] at hseen
  cases hseen

/-- What the call returns is right if and only if the status is reportable. -/
theorem reported_judge_iff {bytes : List Byte} (h : mtResponseBaseSize ≤ bytes.length) (err : Int) :
    Reported (statusBits bytes) (Caller.judge err (responseBuffer bytes)).1
        (Caller.judge err (responseBuffer bytes)).2.1 ↔ Reportable (statusBits bytes) := by
  rw [Caller.judge_status h]
  generalize statusBits bytes = s
  constructor
  · intro hreported
    have hplain := hreported.not_critical
    refine ⟨fun hrange => hplain ((isCritical_iff s).mpr hrange), ?_⟩
    rintro rfl
    -- -2^31 would have to be answered with errno 2^31.
    obtain ⟨-, herr⟩ := hreported.negative hplain (by decide)
    rw [if_pos (by decide)] at herr
    have hwrapped : (-BitVec.intMin 32).toInt ≠ -(BitVec.intMin 32).toInt := by decide
    exact hwrapped herr
  · rintro ⟨hrange, hmin⟩
    have hplain : ¬ IsCritical s := fun hcritical => hrange ((isCritical_iff s).mp hcritical)
    refine ⟨fun hcritical => absurd hcritical hplain, fun _ hneg => ?_, fun hpos => ?_⟩
    · rw [if_pos hneg]
      exact ⟨rfl, BitVec.toInt_neg_of_ne_intMin hmin⟩
    · rw [if_neg (by omega)]

/-- A call that reads a response returns, and it reports the status rightly if
and only if the status is reportable. -/
theorem status_reported_iff {c : Caller} {err : Int} {bytes : List Byte}
    (h : ResponseRead c err bytes) :
    ∃ rc errno response, c.mwcommsWriteRequest true = some (rc, errno, response) ∧
      (Reported (statusBits bytes) rc errno ↔ Reportable (statusBits bytes)) :=
  ⟨_, _, _, h.returns, reported_judge_iff h.whole err⟩

/-- A response that is all base, with a status. -/
def baseResponse (s : BitVec 32) : List Byte := List.replicate 24 0 ++ (leBytes 4 s.toNat ++ List.replicate 12 0)

/-- The write is interrupted once, finds the ring full and goes through. -/
def interrupted (s : BitVec 32) : Caller where
  writes := [.failed eintr, .failed eagain, .wrote 40]
  reads := [.failed eintr, .read (baseResponse s)]

theorem status_reported_iff_refused :
    ∃ rc errno response, (interrupted (-111#32)).mwcommsWriteRequest true =
      some (rc, errno, response) ∧
      (Reported (statusBits (baseResponse (-111#32))) rc errno ↔
        Reportable (statusBits (baseResponse (-111#32)))) :=
  @status_reported_iff (interrupted (-111#32)) eintr (baseResponse (-111#32))
    ⟨⟨40, eagain, by decide, by decide⟩, by decide⟩

/-- An INS out of worker threads answers with `MT_STATUS_INTERNAL_ERROR`, and
the caller finds 2^30 - 1 in errno. -/
theorem internal_error_unrecognised :
    statusBits (baseResponse (criticalError 1)) = criticalError 1 ∧
      (criticalError 1).toInt = mtStatusInternalError ∧
      ((interrupted (criticalError 1)).mwcommsWriteRequest true).map (fun r => (r.1, r.2.1)) =
        some (-1, 1073741823) ∧
      ¬ Reported (criticalError 1) (-1) 1073741823 := by
  refine ⟨by decide, by decide, by decide, fun h => ?_⟩
  exact h.not_critical ⟨1, by decide, rfl⟩

end MagicWand.Shim
