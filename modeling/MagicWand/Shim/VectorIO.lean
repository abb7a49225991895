import MagicWand.Foundation.Pieces
import MagicWand.Shim.Recv
import MagicWand.Shim.Send

/-!
# readv() and writev() on an mwsocket

`tcp_ip_wrapper.c` emulates both by a loop over the buffers, with a `recvfrom` or
a `send` for each. A `recvfrom` may be short and asks for at most
`MESSAGE_TYPE_MAX_PAYLOAD_LEN` bytes; the loop goes on with the next buffer all
the same.
-/

namespace MagicWand.Shim

open Foundation Bytes

/-! ## readv() -/

/-- A buffer and what comes back for the `recvfrom` on it, which returns at most
what was asked for. -/
structure ReadEntry where
  buf : List Byte
  reply : Reply
  within : (recvfrom false reply buf).rc ≤ (min messageTypeMaxPayloadLen buf.length : Nat)

namespace ReadEntry

def result (e : ReadEntry) : RecvfromResult := recvfrom false e.reply e.buf

/-- The buffer after a receive that did not fail. -/
def piece (e : ReadEntry) : Piece Byte where
  front := e.result.buf.take e.result.rc.toNat
  rest := e.result.buf.drop e.result.rc.toNat

end ReadEntry

/-- Return value, errno and the buffers. -/
structure ReadvResult where
  rc : Int
  errno : Int
  bufs : List (List Byte)
deriving DecidableEq, Repr

/-- The loop of `readv`, with the total so far. -/
def readvLoop (tot : Int) : List ReadEntry → ReadvResult
  | [] => { rc := tot, errno := 0, bufs := [] }
  | e :: es =>
      if e.result.rc < 0 then
        { rc := tot, errno := e.result.errno, bufs := e.result.buf :: es.map ReadEntry.buf }
      else
        let r := readvLoop (tot + e.result.rc) es
        { r with bufs := e.result.buf :: r.bufs }

def readv (es : List ReadEntry) : ReadvResult := readvLoop 0 es

/-- The receives in front of the first one that fails. -/
def receives : List ReadEntry → List (Piece Byte)
  | [] => []
  | e :: es => if e.result.rc < 0 then [] else e.piece :: receives es

/-- The error of a receive that fails when only empty buffers came before. -/
def firstError : List ReadEntry → Option Int
  | [] => none
  | e :: es =>
      if e.result.rc < 0 then some e.result.errno
      else if e.buf = [] then firstError es
      else none

/-- What one call of `readv` on a stream socket is expected to do. -/
structure Scattered (es : List ReadEntry) (r : ReadvResult) : Prop where
  count : ∀ n : Nat, r.rc = n → n = (Piece.moved (receives es)).length
  inPlace : ∀ n : Nat, r.rc = n → r.bufs.flatten.take n = Piece.moved (receives es)
  nowhereElse : ∀ n : Nat, r.rc = n → ∀ i ∈ Piece.places 0 (receives es), i < n
  reportsError : ∀ errno, firstError es = some errno → r.rc = -1 ∧ r.errno = errno

/-! ## send() -/

/-- `EPIPE`. -/
def epipe : Int := 32

/-- How `mwcomms_write_request` ends for one chunk, with the response buffer that
it leaves when it waits. -/
inductive ChunkReply where
  | failed (errno : Int) (response : MtResponse)
  | answered (response : MtResponse)

def ChunkReply.response : ChunkReply → MtResponse
  | .failed _ response => response
  | .answered response => response

/-- The loop of `send` with the replies it gets and its `err`; `none` when the
replies run out first. -/
def sendLoop (c : SendCall) (err : Int) : List ChunkReply → Option (SendCall × Int)
  | [] => if c.totSent < c.buf.length then none else some (c, err)
  | r :: rs =>
      if c.totSent < c.buf.length then
        let c := c.arrange
        let c := if c.final then { c with response := r.response } else c
        match r with
        | .answered _ => sendLoop c.advance err rs
        | .failed errno _ =>
            let err := if errno = mwErrorRemoteSurpriseClose then epipe else errno
            if c.final then some ({ c with rc := -1 }, err)
            else sendLoop { c with rc := -1, final := true } err rs
      else some (c, err)

/-- Return value and errno of `send` on an mwsocket. -/
def send (buf : List Byte) (rs : List ChunkReply) : Option (Int × Int) :=
  (sendLoop { buf := buf } 0 rs).map fun r =>
    (r.1.result,
      if 0 < r.1.response.count then 0
      else if r.1.rc = 0 then -r.1.response.status
      else r.2)

/-! ## writev() -/

/-- A buffer and how the `send` of it ends; it sends no more than the buffer. -/
structure WriteEntry where
  buf : List Byte
  replies : List ChunkReply
  rc : Int
  errno : Int
  ends : send buf replies = some (rc, errno)
  within : rc ≤ buf.length

/-- The loop of `writev`, with the total so far: return value and errno. -/
def writevLoop (tot : Int) : List WriteEntry → Int × Int
  | [] => (tot, 0)
  | e :: es => if e.rc < 0 then (e.rc, e.errno) else writevLoop (tot + e.rc) es

def writev (es : List WriteEntry) : Int × Int := writevLoop 0 es

/-- The sends in front of the first one that fails, with the bytes that they
report as accepted. -/
def accepts : List WriteEntry → List (Piece Byte)
  | [] => []
  | e :: es =>
      if e.rc < 0 then []
      else ⟨e.buf.take e.rc.toNat, e.buf.drop e.rc.toNat⟩ :: accepts es

/-- What one call of `writev` on a stream socket is expected to return. -/
structure Gathered (es : List WriteEntry) (rc : Int) : Prop where
  inOrder : ∀ n : Nat, rc = n → Piece.places 0 (accepts es) = List.range n
  noneAccepted : rc < 0 → rc = -1 ∧ Piece.moved (accepts es) = []

/-! ## The receives -/

theorem slice_responseBuffer_length {bytes : List Byte} {n : Nat}
    (h : n ≤ messageTypeMaxPayloadLen) :
    (slice (responseBuffer bytes) recvBytesOffset n).length = n := by
  have hroom : recvBytesOffset + messageTypeMaxPayloadLen ≤ mtResponseGenericSize := by decide
  rw [slice, List.length_take, List.length_drop, responseBuffer, List.length_append,
    List.length_replicate]
  omega

/-- A receive that does not fail leaves the buffer alone or stores its bytes at
the front. -/
theorem recvfrom_cases (reply : Reply) (buf : List Byte) :
    (recvfrom false reply buf).rc = -1 ∨
    ((recvfrom false reply buf).rc = 0 ∧ (recvfrom false reply buf).buf = buf) ∨
    ∃ bytes n, 0 < n ∧ (recvfrom false reply buf).rc = (n : Nat) ∧
      (recvfrom false reply buf).buf =
        slice (responseBuffer bytes) recvBytesOffset n ++ buf.drop n := by
  have hwrite : (mwcommsWriteRequest reply).1 = -1 ∨
      ((mwcommsWriteRequest reply).1 = 0 ∧
        ∃ bytes, (mwcommsWriteRequest reply).2.2 = responseBuffer bytes) := by
    cases reply with
    | failed errno => exact .inr ⟨rfl, [], rfl⟩
    | response bytes =>
        simp only [mwcommsWriteRequest]
        split
        · exact .inl rfl
        · split
          · exact .inl rfl
          · split
            · exact .inl rfl
            · exact .inr ⟨rfl, bytes, rfl⟩
  unfold recvfrom
  rcases hwrite with hfail | ⟨hok, bytes, hbytes⟩
  · simp only [hfail]
    rw [if_pos (by decide)]
    split
    · exact .inr (.inl ⟨rfl, rfl⟩)
    · exact .inl rfl
  · simp only [hok, hbytes]
    rw [if_neg (by decide)]
    split
    · exact .inl rfl
    · split
      · exact .inr (.inl ⟨rfl, rfl⟩)
      · rename_i hcount
        exact .inr (.inr ⟨bytes, _, Nat.pos_of_ne_zero hcount, rfl, rfl⟩)

namespace ReadEntry

variable (e : ReadEntry)

theorem length_buf (h : ¬ e.result.rc < 0) : e.result.buf.length = e.buf.length := by
  have hwithin := e.within
  unfold result at h ⊢
  rcases recvfrom_cases e.reply e.buf with hrc | ⟨-, hbuf⟩ | ⟨bytes, n, -, hrc, hbuf⟩
  · omega
  · rw [hbuf]
  · rw [hbuf, List.length_append, slice_responseBuffer_length (by omega), List.length_drop]
    omega

theorem length_front (h : ¬ e.result.rc < 0) : (e.piece.front.length : Int) = e.result.rc := by
  have hwithin : e.result.rc ≤ _ := e.within
  have hlen := e.length_buf h
  simp only [piece, List.length_take]
  omega

theorem whole_piece : e.piece.front ++ e.piece.rest = e.result.buf := List.take_append_drop _ _

end ReadEntry

/-! ## The loop of readv() -/

theorem readvLoop_rc (tot : Int) (es : List ReadEntry) :
    (readvLoop tot es).rc = tot + (Piece.moved (receives es)).length := by
  induction es generalizing tot with
  | nil => simp [readvLoop, receives]
  | cons e es ih =>
      by_cases hfail : e.result.rc < 0
      · simp [readvLoop, receives, hfail]
      · have hfront := e.length_front hfail
        simp only [readvLoop, receives, if_neg hfail, ih, Piece.moved_cons, List.length_append]
        omega

/-- The buffers begin with what the receives have stored. -/
theorem whole_prefix_bufs (tot : Int) (es : List ReadEntry) :
    Piece.whole (receives es) <+: (readvLoop tot es).bufs.flatten := by
  induction es generalizing tot with
  | nil => exact List.prefix_rfl
  | cons e es ih =>
      by_cases hfail : e.result.rc < 0
      · rw [receives, if_pos hfail]
        exact List.nil_prefix
      · simp only [readvLoop, receives, if_neg hfail, Piece.whole_cons, e.whole_piece,
          List.flatten_cons]
        exact (List.prefix_append_right_inj _).mpr (ih _)

/-- A receive that failed first has received nothing before it. -/
theorem moved_of_firstError {es : List ReadEntry} {errno : Int} (h : firstError es = some errno) :
    Piece.moved (receives es) = [] := by
  induction es with
  | nil => rfl
  | cons e es ih =>
      simp only [firstError] at h
      simp only [receives]
      split at h
      · rename_i hfail
        rw [if_pos hfail]
        rfl
      · rename_i hfail
        split at h
        · rename_i hempty
          have hfront : e.piece.front = [] := by
            have hlen := e.length_buf hfail
            have hle : e.piece.front.length ≤ e.result.buf.length := List.length_take_le' _ _
            apply List.eq_nil_of_length_eq_zero
            rw [hempty] at hlen
            simp only [List.length_nil] at hlen
            omega
          rw [if_neg hfail, Piece.moved_cons, hfront, List.nil_append, ih h]
        · cases h

/-- When `readv` does what one call would do. -/
theorem scattered_iff (es : List ReadEntry) :
    Scattered es (readv es) ↔ Piece.Packed (receives es) ∧ firstError es = none := by
  have hrc : (readv es).rc = (Piece.moved (receives es)).length := by
    rw [readv, readvLoop_rc, Int.zero_add]
  constructor
  · -- The return code is the sum of the pieces: no byte beyond it was written means that no
    -- piece before the last was short, and a negative code is out of reach.
    rintro ⟨-, -, helse, herror⟩
    constructor
    · rw [Piece.packed_iff_places_lt 0, Nat.zero_add]
      exact helse _ hrc
    · cases hfirst : firstError es with
      | none => rfl
      | some errno =>
          obtain ⟨hneg, -⟩ := herror errno hfirst
          omega
  · rintro ⟨hpacked, hnone⟩
    have hn : ∀ n : Nat, (readv es).rc = n → n = (Piece.moved (receives es)).length := by
      intro n h
      omega
    refine ⟨hn, ?_, ?_, ?_⟩
    · intro n h
      have hprefix : Piece.moved (receives es) <+: (readv es).bufs.flatten :=
        (Piece.moved_prefix_of_packed hpacked).trans (whole_prefix_bufs 0 es)
      rw [hn n h]
      exact (List.prefix_iff_eq_take.mp hprefix).symm
    · intro n h i hi
      have hlt := (Piece.packed_iff_places_lt 0).mp hpacked i hi
      rw [hn n h]
      omega
    · intro errno h
      rw [hnone] at h
      cases h

/-! ## The loop of writev() -/

/-- The return code of the last write is 0 or -1. -/
theorem sendLoop_rc {c c' : SendCall} {err err' : Int} {rs : List ChunkReply}
    (hrc : c.rc = 0 ∨ c.rc = -1) (h : sendLoop c err rs = some (c', err')) :
    c'.rc = 0 ∨ c'.rc = -1 := by
  induction rs generalizing c err with
  | nil =>
      unfold sendLoop at h
      split at h
      · cases h
      · cases h
        exact hrc
  | cons r rs ih =>
      unfold sendLoop at h
      split at h
      · cases r with
        | answered response => exact ih (.inl rfl) h
        | failed errno response =>
            simp only at h
            split at h
            · cases h
              exact .inr rfl
            · exact ih (.inr rfl) h
      · cases h
        exact hrc

/-- `send` on an mwsocket fails with -1, and never returns 0. -/
theorem send_rc {buf : List Byte} {rs : List ChunkReply} {rc errno : Int}
    (h : send buf rs = some (rc, errno)) : rc = -1 ∨ 0 < rc := by
  unfold send at h
  obtain ⟨⟨c, err⟩, hloop, heq⟩ := Option.map_eq_some_iff.mp h
  have hres : c.result = rc := (Prod.mk.inj heq).1
  have hlast := sendLoop_rc (.inl rfl) hloop
  unfold SendCall.result at hres
  split at hres
  · omega
  · split at hres <;> omega

/-- A `send` of no bytes makes no request and is taken for a failure. -/
theorem send_empty (rs : List ChunkReply) : send [] rs = some (-1, 0) := by
  cases rs <;> rfl

theorem WriteEntry.length_front (e : WriteEntry) (h : ¬ e.rc < 0) :
    ((e.buf.take e.rc.toNat).length : Int) = e.rc := by
  have hwithin := e.within
  rw [List.length_take]
  omega

theorem writevLoop_rc (tot : Int) (es : List WriteEntry) :
    ((∃ e ∈ es, e.rc < 0) ∧ (writevLoop tot es).1 = -1) ∨
    ((∀ e ∈ es, ¬ e.rc < 0) ∧
      (writevLoop tot es).1 = tot + (Piece.moved (accepts es)).length) := by
  induction es generalizing tot with
  | nil =>
      refine .inr ⟨by simp, ?_⟩
      simp [writevLoop, accepts]
  | cons e es ih =>
      by_cases hfail : e.rc < 0
      · refine .inl ⟨⟨e, List.mem_cons_self, hfail⟩, ?_⟩
        rw [writevLoop, if_pos hfail]
        rcases send_rc e.ends with h | h
        · exact h
        · omega
      · have hfront := e.length_front hfail
        rw [writevLoop, accepts, if_neg hfail, if_neg hfail, Piece.moved_cons, List.length_append]
        rcases ih (tot + e.rc) with ⟨⟨e', hmem, hneg⟩, hrc⟩ | ⟨hall, hrc⟩
        · exact .inl ⟨⟨e', List.mem_cons_of_mem _ hmem, hneg⟩, hrc⟩
        · refine .inr ⟨?_, ?_⟩
          · intro e' hmem
            rcases List.mem_cons.mp hmem with rfl | hmem
            · exact hfail
            · exact hall e' hmem
          · rw [hrc]
            push_cast
            omega

/-- When `writev` returns what one call would return. -/
theorem gathered_iff (es : List WriteEntry) :
    Gathered es (writev es).1 ↔
      Piece.Packed (accepts es) ∧ ((∃ e ∈ es, e.rc < 0) → Piece.moved (accepts es) = []) := by
  unfold writev
  rcases writevLoop_rc 0 es with ⟨hfail, hrc⟩ | ⟨hall, hrc⟩
  · constructor
    · rintro ⟨-, hnone⟩
      have hmoved := (hnone (by omega)).2
      exact ⟨Piece.packed_of_moved_eq_nil hmoved, fun _ => hmoved⟩
    · rintro ⟨-, hmoved⟩
      refine ⟨?_, ?_⟩
      · intro n hn
        omega
      · intro _
        exact ⟨hrc, hmoved hfail⟩
  · rw [Int.zero_add] at hrc
    constructor
    · rintro ⟨horder, -⟩
      refine ⟨Piece.packed_iff_places_eq.mpr (horder _ hrc), ?_⟩
      rintro ⟨e, hmem, hneg⟩
      exact absurd hneg (hall e hmem)
    · rintro ⟨hpacked, -⟩
      refine ⟨?_, ?_⟩
      · intro n hn
        have heq : n = (Piece.moved (accepts es)).length := by omega
        rw [heq]
        exact Piece.packed_iff_places_eq.mp hpacked
      · intro hneg
        omega

/-! ## Vector I/O -/

/-- A response to a receive, with its data. -/
def receiveResponse (status : Int) (bytes : List Byte) : Reply :=
  .response (encodeRecv {} { status := status, count := bytes.length, bytes := bytes })

/-- The first of two buffers is filled by half. -/
def shortReads : List ReadEntry :=
  [{ buf := [0, 0, 0, 0], reply := receiveResponse 0 [1, 2], within := by decide +kernel },
   { buf := [0, 0, 0, 0], reply := receiveResponse 0 [3], within := by decide +kernel }]

/-- Nothing to read on a socket that does not block. -/
def failedRead : List ReadEntry :=
  [{ buf := [0, 0, 0, 0], reply := receiveResponse (-11) [], within := by decide +kernel }]

/-- A buffer of two bytes, and one without bytes. -/
def emptySecond : List WriteEntry :=
  [{ buf := [1, 2], replies := [.answered { count := 2 }], rc := 2, errno := 0
     ends := by decide +kernel, within := by decide },
   { buf := [], replies := [], rc := -1, errno := 0, ends := rfl, within := by decide }]

end MagicWand.Shim
