import MagicWand.Foundation.SharedRing
import MagicWand.Foundation.Transition
import MagicWand.Message
import Mathlib.Data.List.Infix

/-!
# The ring of one INS

The ring that the driver (front end, `mwcomms-xen-iface.c`) and the INS (back
end, `xenevent_comms.c`) share, with the macros of Xen's `ring.h`: indices are 32
bits wide and run freely, and the ring has `2 ^ k` slots, each for a request or a
response.

Threads of the driver take turns under `request_lock`. One thread consumes the
responses. On the INS, one thread at a time is in `xe_comms_read_item` and one in
`xe_comms_write_item`. A function is split where another party can get in
between: at a lock, after a look at an index, and between a copy and the index
that announces it. A message fits its slot, and the INS is in use throughout.

`published`, `read`, `written` and `returned` are history variables: the requests
that were pushed and those the INS got, the responses that were pushed and those
the driver got. `busy` marks the slots that hold an unread message, `clobbered`
tells whether one of them was written to.
-/

namespace MagicWand

open Foundation SharedRing

abbrev RingIdx := BitVec 32

/-- What a slot holds. -/
abbrev RingItem := MtRequest ⊕ MtResponse

/-- A thread of the driver that has `request_lock`. -/
inductive RingSender where
  | unlocked
  | waiting (t : Nat) (waitForRing : Bool)
  | refused (t : Nat)
  /-- It has the slot for `currReq`. -/
  | granted (t : Nat) (currReq : RingIdx)
  | filled (t : Nat) (currReq : RingIdx) (req : MtRequest)
deriving DecidableEq, Repr

/-- The response consumer. -/
inductive RingConsumer where
  | idle
  | available
  | holding
  /-- The ring was found to be corrupt. -/
  | stopped
deriving DecidableEq, Repr

structure Ring where
  -- mwevent_sring_t
  reqProd : RingIdx := 0
  rspProd : RingIdx := 0
  slots : Nat → Cell RingItem := fun _ => {}
  -- mwevent_front_ring_t
  reqProdPvt : RingIdx := 0
  rspCons : RingIdx := 0
  -- mwevent_back_ring_t
  rspProdPvt : RingIdx := 0
  reqCons : RingIdx := 0
  sender : RingSender := .unlocked
  consumer : RingConsumer := .idle
  /-- `xe_comms_read_item` has seen a request. -/
  reading : Bool := false
  /-- `xe_comms_write_item` has copied a response. -/
  writing : Option MtResponse := none
  published : List MtRequest := []
  read : List MtRequest := []
  written : List MtResponse := []
  returned : List MtResponse := []
  clobbered : Bool := false

inductive RingEvent where
  /-- `mw_xen_get_next_request_slot` gets the lock. -/
  | lock (t : Nat) (waitForRing : Bool)
  /-- One round of its loop. -/
  | tryRing
  /-- The caller copies the request to the slot. -/
  | fill (req : MtRequest)
  /-- `mw_xen_release_request`. -/
  | release
  /-- `mw_xen_response_available`. -/
  | responseAvailable
  | getNextResponse
  | markResponseConsumed
  /-- `xe_comms_read_item` looks for a request. -/
  | requestAvailable
  | readItem
  /-- `xe_comms_write_item`, up to the copy. -/
  | writeItem (resp : MtResponse)
  | pushResponse
deriving DecidableEq, Repr

namespace Ring

variable (k : Nat)

/-! ## ring.h -/

/-- `RING_SIZE`. -/
def ringSize : RingIdx := BitVec.ofNat 32 (2 ^ k)

/-- The slot of `RING_GET_REQUEST` and `RING_GET_RESPONSE`. -/
def slotOf (idx : RingIdx) : Nat := (idx &&& (ringSize k - 1)).toNat

def ringFreeRequests (s : Ring) : RingIdx := ringSize k - (s.reqProdPvt - s.rspCons)

def ringFull (s : Ring) : Bool := s.ringFreeRequests k == 0

def ringHasUnconsumedResponses (s : Ring) : RingIdx := s.rspProd - s.rspCons

def ringHasUnconsumedRequests (s : Ring) : RingIdx :=
  let req := s.reqProd - s.reqCons
  let rsp := ringSize k - (s.reqCons - s.rspProdPvt)
  if req < rsp then req else rsp

/-! ## Slots -/

def setSlot (s : Ring) (n : Nat) (c : Cell RingItem) : Ring :=
  { s with slots := Function.update s.slots n c }

/-- Copy a message to a slot. -/
def copyTo (s : Ring) (n : Nat) (item : RingItem) : Ring :=
  { s.setSlot n ⟨some item, false⟩ with clobbered := s.clobbered || (s.slots n).busy }

def requestAt (s : Ring) (n : Nat) : Option MtRequest :=
  (s.slots n).item.bind Sum.getLeft?

def responseAt (s : Ring) (n : Nat) : Option MtResponse :=
  (s.slots n).item.bind Sum.getRight?

/-- The slot holds an unread message from now on, or no longer does. -/
def mark (s : Ring) (n : Nat) (busy : Bool) : Ring :=
  s.setSlot n { s.slots n with busy := busy }

/-! ## The front end -/

def front (s : Ring) : RingEvent → Option Ring
  | .lock t waitForRing =>
      match s.sender with
      | .unlocked => some { s with sender := .waiting t waitForRing }
      | _ => none
  | .tryRing =>
      match s.sender with
      | .waiting t waitForRing =>
          if !s.ringFull k then some { s with sender := .granted t s.reqProdPvt }
          else if !waitForRing then some { s with sender := .refused t }
          else some s
      | _ => none
  | .fill req =>
      match s.sender with
      | .granted t currReq =>
          if req.size ≤ mtRequestGenericSize then
            some { s.copyTo (slotOf k currReq) (.inl req) with sender := .filled t currReq req }
          else none
      | _ => none
  | .release =>
      match s.sender with
      -- Nothing to send: the slot was refused, or the caller gives up.
      | .refused _ | .granted _ _ => some { s with sender := .unlocked }
      | .filled _ currReq req =>
          match s.requestAt (slotOf k currReq) with
          | some r =>
              if r.isRequest then
                some { s.mark (slotOf k s.reqProdPvt) true with
                  reqProdPvt := s.reqProdPvt + 1
                  reqProd := s.reqProdPvt + 1
                  published := s.published ++ [req]
                  sender := .unlocked }
              else some { s with sender := .unlocked }
          | none => some { s with sender := .unlocked }
      | _ => none
  | .responseAvailable =>
      if s.consumer = .idle ∧ s.ringHasUnconsumedResponses ≠ 0 then
        some { s with consumer := .available }
      else none
  | .getNextResponse =>
      if s.consumer = .available then
        match s.responseAt (slotOf k s.rspCons) with
        | some r =>
            if r.isResponse then
              some { s with consumer := .holding, returned := s.returned ++ [r] }
            else some { s with consumer := .stopped }
        | none => some { s with consumer := .stopped }
      else none
  | .markResponseConsumed =>
      if s.consumer = .holding then
        some { s.mark (slotOf k s.rspCons) false with
          rspCons := s.rspCons + 1
          consumer := .idle }
      else none
  | _ => none

/-! ## The back end -/

def back (s : Ring) : RingEvent → Option Ring
  | .requestAvailable =>
      if !s.reading && decide (s.ringHasUnconsumedRequests k ≠ 0) then
        some { s with reading := true }
      else none
  | .readItem =>
      if s.reading then
        let n := slotOf k s.reqCons
        let got := (s.requestAt n).filter fun r =>
          r.isRequest && decide (r.size ≤ mtRequestGenericSize)
        some { s.mark n false with
          reqCons := s.reqCons + 1
          reading := false
          read := s.read ++ got.toList }
      else none
  | .writeItem resp =>
      match s.writing with
      | none => some { s.copyTo (slotOf k s.rspProdPvt) (.inr resp) with writing := some resp }
      | some _ => none
  | .pushResponse =>
      match s.writing with
      | none => none
      | some resp =>
          some { s.mark (slotOf k s.rspProdPvt) true with
            rspProdPvt := s.rspProdPvt + 1
            rspProd := s.rspProdPvt + 1
            written := s.written ++ [resp]
            writing := none }
  | _ => none

def step (s : Ring) (e : RingEvent) : Option Ring :=
  match e with
  | .lock .. | .tryRing | .fill .. | .release | .responseAvailable | .getNextResponse
  | .markResponseConsumed => s.front k e
  | .requestAvailable | .readItem | .writeItem .. | .pushResponse => s.back k e

/-- The INS answers a request that it has read, and each of them once. -/
def answersOnce (s : Ring) : RingEvent → Prop
  | .writeItem _ => s.written.length < s.read.length
  | _ => True

instance (s : Ring) : (e : RingEvent) → Decidable (s.answersOnce e)
  | .writeItem _ => inferInstanceAs (Decidable (s.written.length < s.read.length))
  | .lock .. | .tryRing | .fill _ | .release | .responseAvailable | .getNextResponse
  | .markResponseConsumed | .requestAvailable | .readItem | .pushResponse => isTrue trivial

end Ring

/-- A ring of `2 ^ k` slots from its initialisation on. -/
def ringProtocol (k : Nat) : System Ring RingEvent where
  init := {}
  step := Ring.step k

namespace Ring

/-! ## Indices -/

/-- The value of an index that has been advanced `n` times. -/
def idx (n : Nat) : RingIdx := BitVec.ofNat 32 n

theorem idx_succ (n : Nat) : idx (n + 1) = idx n + 1 := BitVec.ofNat_add n 1

theorem idx_sub {a b : Nat} (h : b ≤ a) : idx a - idx b = idx (a - b) := by
  have hsum : idx a = idx (a - b) + idx b := by
    rw [idx, idx, idx, ← BitVec.ofNat_add, Nat.sub_add_cancel h]
  rw [hsum, BitVec.add_sub_cancel]

theorem toNat_idx {n : Nat} (h : n < 2 ^ 32) : (idx n).toNat = n := by
  rw [idx, BitVec.toNat_ofNat, Nat.mod_eq_of_lt h]

theorem idx_ne_zero_iff {n : Nat} (h : n < 2 ^ 32) : idx n ≠ 0 ↔ 0 < n := by
  rw [Ne, ← BitVec.toNat_inj, toNat_idx h]
  exact Nat.pos_iff_ne_zero.symm

variable {k : Nat}

theorem two_pow_lt (hk : k < 32) : 2 ^ k < 2 ^ 32 := Nat.pow_lt_pow_right (by decide) hk

/-- The slot of the `n`-th message, whether or not the index has wrapped. -/
theorem slotOf_idx (hk : k < 32) (n : Nat) : slotOf k (idx n) = n % 2 ^ k := by
  have hmask : (ringSize k - 1).toNat = 2 ^ k - 1 := by
    have hone : ringSize k - 1 = idx (2 ^ k - 1) := idx_sub (Nat.one_le_two_pow)
    rw [hone, toNat_idx (by have := two_pow_lt hk; omega)]
  have hdvd : 2 ^ k ∣ 2 ^ 32 := Nat.pow_dvd_pow 2 (Nat.le_of_lt hk)
  rw [slotOf, BitVec.toNat_and, hmask, Nat.and_two_pow_sub_one_eq_mod, idx, BitVec.toNat_ofNat,
    Nat.mod_mod_of_dvd _ hdvd]

/-! ## The invariant -/

/-- Responses that are off the ring: the one that the consumer still works on is
returned, but its slot is in use. -/
def consumed (s : Ring) : Nat := s.returned.length - if s.consumer = .holding then 1 else 0

def marks (s : Ring) : Marks where
  rspCons := s.consumed
  rspProd := s.written.length
  reqCons := s.read.length
  reqProd := s.published.length

/-- What a thread with the lock knows. -/
def SenderSound (k : Nat) (s : Ring) : RingSender → Prop
  | .granted _ currReq =>
      currReq = idx s.published.length ∧ s.published.length < s.consumed + 2 ^ k
  | .filled _ currReq req =>
      currReq = idx s.published.length ∧ s.published.length < s.consumed + 2 ^ k ∧
        req.size ≤ mtRequestGenericSize ∧
        s.slots (s.published.length % 2 ^ k) = ⟨some (.inl req), false⟩
  | _ => True

/-- It stays so while nobody publishes, room is only gained and the slot is left
alone. -/
theorem SenderSound.frame {s s' : Ring} {sender : RingSender} (h : SenderSound k s sender)
    (hpub : s'.published = s.published) (hcons : s.consumed ≤ s'.consumed)
    (hslot : s.published.length < s.consumed + 2 ^ k →
      s'.slots (s.published.length % 2 ^ k) = s.slots (s.published.length % 2 ^ k)) :
    SenderSound k s' sender := by
  cases sender with
  | unlocked | waiting _ _ | refused _ => trivial
  | granted t currReq =>
      obtain ⟨hc, hroom⟩ := h
      rw [SenderSound, hpub]
      exact ⟨hc, by omega⟩
  | filled t currReq req =>
      obtain ⟨hc, hroom, hsize, hcell⟩ := h
      rw [SenderSound, hpub, hslot hroom]
      exact ⟨hc, by omega, hsize, hcell⟩

/-- The indices count the messages, the slots show them, and what each party has
seen or copied is still there. -/
structure Sound (k : Nat) (s : Ring) : Prop where
  reqProd : s.reqProd = idx s.published.length
  reqProdPvt : s.reqProdPvt = idx s.published.length
  reqCons : s.reqCons = idx s.read.length
  rspProd : s.rspProd = idx s.written.length
  rspProdPvt : s.rspProdPvt = idx s.written.length
  rspCons : s.rspCons = idx s.consumed
  pictured : Pictured (2 ^ k) s.slots (s.published.map .inl) (s.written.map .inr) s.marks
  valid : ∀ r ∈ s.published, r.isRequest = true ∧ r.size ≤ mtRequestGenericSize
  read : s.read <+: s.published
  returned : s.returned <+: s.written
  sender : SenderSound k s s.sender
  available : s.consumer = .available → s.returned.length < s.written.length
  holding : s.consumer = .holding → 0 < s.returned.length
  reading : s.reading = true → s.read.length < s.published.length
  writing : ∀ resp, s.writing = some resp → s.written.length < s.read.length ∧
    s.slots (s.written.length % 2 ^ k) = ⟨some (.inr resp), false⟩
  clean : s.clobbered = false

namespace Sound

variable {s : Ring}

theorem consumed_le (h : Sound k s) : s.consumed ≤ s.written.length := h.pictured.ordered.rsp

theorem written_le (h : Sound k s) : s.written.length ≤ s.read.length :=
  h.pictured.ordered.answered

theorem read_le (h : Sound k s) : s.read.length ≤ s.published.length := h.pictured.ordered.req

theorem published_le (h : Sound k s) : s.published.length ≤ s.consumed + 2 ^ k :=
  h.pictured.ordered.room

/-- `RING_FULL` tells whether there is a slot left. -/
theorem ringFull_iff (h : Sound k s) (hk : k < 32) :
    s.ringFull k = false ↔ s.published.length < s.consumed + 2 ^ k := by
  have h₁ := h.consumed_le
  have h₂ := h.written_le
  have h₃ := h.read_le
  have h₄ := h.published_le
  have hlt := two_pow_lt hk
  have hfree : s.ringFreeRequests k = idx (2 ^ k - (s.published.length - s.consumed)) := by
    rw [ringFreeRequests, h.reqProdPvt, h.rspCons, idx_sub (by omega)]
    exact idx_sub (by omega)
  rw [ringFull, hfree, beq_eq_false_iff_ne, idx_ne_zero_iff (by omega)]
  omega

/-- `RING_HAS_UNCONSUMED_REQUESTS` counts the requests that are not read. -/
theorem unconsumedRequests (h : Sound k s) (hk : k < 32) :
    s.ringHasUnconsumedRequests k = idx (s.published.length - s.read.length) := by
  have h₁ := h.consumed_le
  have h₂ := h.written_le
  have h₃ := h.read_le
  have h₄ := h.published_le
  have hlt := two_pow_lt hk
  have hreq : s.reqProd - s.reqCons = idx (s.published.length - s.read.length) := by
    rw [h.reqProd, h.reqCons, idx_sub h₃]
  have hrsp : ringSize k - (s.reqCons - s.rspProdPvt) =
      idx (2 ^ k - (s.read.length - s.written.length)) := by
    rw [h.reqCons, h.rspProdPvt, idx_sub h₂]
    exact idx_sub (by omega)
  rw [ringHasUnconsumedRequests, hreq, hrsp]
  split
  · rfl
  · rename_i hge
    rw [BitVec.lt_def, toNat_idx (by omega), toNat_idx (by omega)] at hge
    congr 1
    omega

theorem unconsumedRequests_iff (h : Sound k s) (hk : k < 32) :
    s.ringHasUnconsumedRequests k ≠ 0 ↔ s.read.length < s.published.length := by
  have h₁ := h.consumed_le
  have h₂ := h.written_le
  have h₄ := h.published_le
  have hlt := two_pow_lt hk
  rw [h.unconsumedRequests hk, idx_ne_zero_iff (by omega)]
  omega

theorem unconsumedResponses_iff (h : Sound k s) (hk : k < 32) :
    s.ringHasUnconsumedResponses ≠ 0 ↔ s.consumed < s.written.length := by
  have h₁ := h.consumed_le
  have h₂ := h.written_le
  have h₃ := h.read_le
  have h₄ := h.published_le
  have hlt := two_pow_lt hk
  rw [ringHasUnconsumedResponses, h.rspProd, h.rspCons, idx_sub h₁, idx_ne_zero_iff (by omega)]
  omega

/-- The request that is read next. -/
theorem requestAt_next (h : Sound k s) (hk : k < 32) (hlt : s.read.length < s.published.length) :
    s.requestAt (slotOf k s.reqCons) = some s.published[s.read.length] := by
  have hcell := h.pictured.requests s.read.length (.inl s.published[s.read.length]) (Nat.le_refl _)
    hlt (by simp)
  rw [h.reqCons, slotOf_idx hk, requestAt, hcell]
  rfl

/-- The response that is returned next. -/
theorem responseAt_next (h : Sound k s) (hk : k < 32) (hlt : s.consumed < s.written.length) :
    s.responseAt (slotOf k s.rspCons) = some s.written[s.consumed] := by
  have hcell := h.pictured.answers s.consumed (.inr s.written[s.consumed]) (Nat.le_refl _)
    hlt (by simp)
  rw [h.rspCons, slotOf_idx hk, responseAt, hcell]
  rfl

/-- The slot for the next answer is not the one for the next request. -/
theorem answer_ne_request (h : Sound k s) (howed : s.written.length < s.read.length)
    (hroom : s.published.length < s.consumed + 2 ^ k) :
    s.written.length % 2 ^ k ≠ s.published.length % 2 ^ k := by
  have h₁ := h.consumed_le
  have h₃ := h.read_le
  exact cell_ne (by omega) (by omega)

/-! ## Steps of the front end -/

theorem init (k : Nat) : Sound k (ringProtocol k).init where
  reqProd := rfl
  reqProdPvt := rfl
  reqCons := rfl
  rspProd := rfl
  rspProdPvt := rfl
  rspCons := rfl
  pictured := Pictured.init
  valid := fun _ h => absurd h List.not_mem_nil
  read := List.prefix_rfl
  returned := List.prefix_rfl
  sender := trivial
  available := fun h => by cases h
  holding := fun h => by cases h
  reading := fun h => by cases h
  writing := fun _ h => by cases h
  clean := rfl

/-- A thread that has nothing in a slot. -/
theorem setSender (h : Sound k s) {sender : RingSender} (hs : SenderSound k s sender) :
    Sound k { s with sender := sender } :=
  { h with sender := by cases sender <;> exact hs }

theorem fill (h : Sound k s) (hk : k < 32) {t : Nat} {currReq : RingIdx}
    (hs : s.sender = .granted t currReq) {req : MtRequest} (hsize : req.size ≤ mtRequestGenericSize) :
    Sound k { s.copyTo (slotOf k currReq) (.inl req) with sender := .filled t currReq req } := by
  have hsender := h.sender
  rw [hs] at hsender
  obtain ⟨rfl, hroom⟩ := hsender
  rw [slotOf_idx hk]
  obtain ⟨hfree, hpictured⟩ := h.pictured.write (h.pictured.free_request hroom) (some (.inl req))
  refine { h with
    pictured := hpictured
    sender := ⟨rfl, hroom, hsize, Function.update_self ..⟩
    writing := fun resp hresp => ?_
    clean := ?_ }
  · obtain ⟨howed, hcell⟩ := h.writing resp hresp
    exact ⟨howed, (Function.update_of_ne (h.answer_ne_request howed hroom) _ _).trans hcell⟩
  · show (s.clobbered || (s.slots (s.marks.reqProd % 2 ^ k)).busy) = false
    rw [h.clean, hfree]
    rfl

theorem publish (h : Sound k s) (hk : k < 32) {t : Nat} {currReq : RingIdx} {req : MtRequest}
    (hs : s.sender = .filled t currReq req) (hreq : req.isRequest = true) :
    Sound k { s.mark (slotOf k s.reqProdPvt) true with
      reqProdPvt := s.reqProdPvt + 1
      reqProd := s.reqProdPvt + 1
      published := s.published ++ [req]
      sender := .unlocked } := by
  have hsender := h.sender
  rw [hs] at hsender
  obtain ⟨-, hroom, hsize, hcell⟩ := hsender
  have hlen : (s.published ++ [req]).length = s.published.length + 1 := by simp
  have hnext : s.reqProdPvt + 1 = idx (s.published ++ [req]).length := by
    rw [h.reqProdPvt, hlen, idx_succ]
  refine { h with
    reqProd := hnext
    reqProdPvt := hnext
    pictured := ?_
    valid := fun r hr => ?_
    read := h.read.trans (List.prefix_append ..)
    sender := trivial
    reading := fun hr => hlen ▸ Nat.lt_succ_of_lt (h.reading hr)
    writing := fun resp hresp => ?_ }
  · show Pictured (2 ^ k) (Function.update s.slots (slotOf k s.reqProdPvt)
      { s.slots (slotOf k s.reqProdPvt) with busy := true }) ((s.published ++ [req]).map .inl)
      (s.written.map .inr) { s.marks with reqProd := (s.published ++ [req]).length }
    rw [h.reqProdPvt, slotOf_idx hk, hcell, List.map_append, hlen]
    exact h.pictured.send hroom (.inl req)
  · rcases List.mem_append.mp hr with hr | hr
    · exact h.valid r hr
    · rw [List.mem_singleton.mp hr]
      exact ⟨hreq, hsize⟩
  · obtain ⟨howed, hwritten⟩ := h.writing resp hresp
    rw [h.reqProdPvt, slotOf_idx hk]
    exact ⟨howed, (Function.update_of_ne (h.answer_ne_request howed hroom) _ _).trans hwritten⟩

theorem getNextResponse (h : Sound k s) (hs : s.consumer = .available)
    (hlt : s.returned.length < s.written.length) :
    Sound k { s with
      consumer := .holding
      returned := s.returned ++ [s.written[s.returned.length]] } := by
  have hconsumed : ({ s with
      consumer := .holding
      returned := s.returned ++ [s.written[s.returned.length]] } : Ring).consumed = s.consumed := by
    simp [consumed, hs]
  refine { h with
    rspCons := h.rspCons.trans (by rw [hconsumed])
    pictured := ?_
    returned := ?_
    sender := h.sender.frame rfl (Nat.le_of_eq hconsumed.symm) fun _ => rfl
    available := fun hc => by cases hc
    holding := fun _ => by simp }
  · show Pictured (2 ^ k) s.slots _ _ { s.marks with rspCons := consumed _ }
    rw [hconsumed]
    exact h.pictured
  · exact List.concat_get_prefix h.returned hlt

/-- A consumer that takes nothing. -/
theorem setConsumer (h : Sound k s) {c : RingConsumer}
    (hcons : ({ s with consumer := c } : Ring).consumed = s.consumed)
    (havail : c = .available → s.returned.length < s.written.length) (hfree : c ≠ .holding) :
    Sound k { s with consumer := c } := by
  refine { h with
    rspCons := h.rspCons.trans (by rw [hcons])
    pictured := ?_
    sender := h.sender.frame rfl (Nat.le_of_eq hcons.symm) fun _ => rfl
    available := havail
    holding := fun hc => absurd hc hfree }
  show Pictured (2 ^ k) s.slots _ _ { s.marks with rspCons := consumed _ }
  rw [hcons]
  exact h.pictured

theorem markResponseConsumed (h : Sound k s) (hk : k < 32) (hs : s.consumer = .holding) :
    Sound k { s.mark (slotOf k s.rspCons) false with
      rspCons := s.rspCons + 1
      consumer := .idle } := by
  have hpos := h.holding hs
  have hold : s.consumed = s.returned.length - 1 := by simp [consumed, hs]
  have hnew : s.consumed + 1 = s.returned.length := by omega
  have hwait : s.consumed < s.written.length := by
    have := h.returned.length_le
    omega
  have h₂ := h.written_le
  have h₃ := h.read_le
  refine { h with
    rspCons := ?_
    pictured := ?_
    sender := ?_
    available := fun hc => by cases hc
    holding := fun hc => by cases hc
    writing := fun resp hresp => ?_ }
  · show s.rspCons + 1 = idx s.returned.length
    rw [h.rspCons, ← idx_succ, hnew]
  · show Pictured (2 ^ k) (Function.update s.slots (slotOf k s.rspCons)
      { s.slots (slotOf k s.rspCons) with busy := false }) (s.published.map .inl)
      (s.written.map .inr) { s.marks with rspCons := s.returned.length }
    rw [h.rspCons, slotOf_idx hk, ← hnew]
    exact h.pictured.consume hwait _
  · refine h.sender.frame rfl (by show _ ≤ s.returned.length; omega) fun hroom => ?_
    rw [h.rspCons, slotOf_idx hk]
    exact Function.update_of_ne (cell_ne (by omega) hroom).symm _ _
  · obtain ⟨howed, hcell⟩ := h.writing resp hresp
    have h₄ := h.published_le
    rw [h.rspCons, slotOf_idx hk]
    exact ⟨howed, (Function.update_of_ne (cell_ne hwait (by omega)).symm _ _).trans hcell⟩

/-! ## Steps of the back end -/

theorem readItem (h : Sound k s) (hk : k < 32) (hlt : s.read.length < s.published.length) :
    Sound k { s.mark (slotOf k s.reqCons) false with
      reqCons := s.reqCons + 1
      reading := false
      read := s.read ++ [s.published[s.read.length]] } := by
  have hlen : (s.read ++ [s.published[s.read.length]]).length = s.read.length + 1 := by simp
  have h₁ := h.consumed_le
  have h₂ := h.written_le
  have h₄ := h.published_le
  refine { h with
    reqCons := ?_
    pictured := ?_
    read := List.concat_get_prefix h.read hlt
    sender := ?_
    reading := fun hr => by cases hr
    writing := fun resp hresp => ?_ }
  · rw [h.reqCons, hlen, idx_succ]
  · show Pictured (2 ^ k) (Function.update s.slots (slotOf k s.reqCons)
      { s.slots (slotOf k s.reqCons) with busy := false }) (s.published.map .inl)
      (s.written.map .inr) { s.marks with reqCons := (s.read ++ [s.published[s.read.length]]).length }
    rw [h.reqCons, slotOf_idx hk, hlen]
    exact h.pictured.read hlt _
  · refine h.sender.frame rfl (Nat.le_refl _) fun hroom => ?_
    rw [h.reqCons, slotOf_idx hk]
    exact Function.update_of_ne (cell_ne hlt (by omega)).symm _ _
  · obtain ⟨howed, hcell⟩ := h.writing resp hresp
    rw [h.reqCons, slotOf_idx hk]
    exact ⟨hlen ▸ Nat.lt_succ_of_lt howed,
      (Function.update_of_ne (cell_ne howed (by omega)) _ _).trans hcell⟩

theorem writeItem (h : Sound k s) (hk : k < 32) (howed : s.written.length < s.read.length)
    (resp : MtResponse) :
    Sound k { s.copyTo (slotOf k s.rspProdPvt) (.inr resp) with writing := some resp } := by
  rw [h.rspProdPvt, slotOf_idx hk]
  obtain ⟨hfree, hpictured⟩ := h.pictured.write (h.pictured.free_answer howed) (some (.inr resp))
  refine { h with
    pictured := hpictured
    sender := ?_
    writing := fun r hr => ?_
    clean := ?_ }
  · refine h.sender.frame rfl (Nat.le_refl _) fun hroom => ?_
    exact Function.update_of_ne (h.answer_ne_request howed hroom).symm _ _
  · cases hr
    exact ⟨howed, Function.update_self ..⟩
  · show (s.clobbered || (s.slots (s.marks.rspProd % 2 ^ k)).busy) = false
    rw [h.clean, hfree]
    rfl

theorem pushResponse (h : Sound k s) (hk : k < 32) {resp : MtResponse}
    (hs : s.writing = some resp) :
    Sound k { s.mark (slotOf k s.rspProdPvt) true with
      rspProdPvt := s.rspProdPvt + 1
      rspProd := s.rspProdPvt + 1
      written := s.written ++ [resp]
      writing := none } := by
  obtain ⟨howed, hcell⟩ := h.writing resp hs
  have hlen : (s.written ++ [resp]).length = s.written.length + 1 := by simp
  have hnext : s.rspProdPvt + 1 = idx (s.written ++ [resp]).length := by
    rw [h.rspProdPvt, hlen, idx_succ]
  refine { h with
    rspProd := hnext
    rspProdPvt := hnext
    pictured := ?_
    returned := h.returned.trans (List.prefix_append ..)
    sender := ?_
    available := fun hc => hlen ▸ Nat.lt_succ_of_lt (h.available hc)
    writing := fun r hr => by cases hr }
  · show Pictured (2 ^ k) (Function.update s.slots (slotOf k s.rspProdPvt)
      { s.slots (slotOf k s.rspProdPvt) with busy := true }) (s.published.map .inl)
      ((s.written ++ [resp]).map .inr) { s.marks with rspProd := (s.written ++ [resp]).length }
    rw [h.rspProdPvt, slotOf_idx hk, hcell, List.map_append, hlen]
    exact h.pictured.answer howed (.inr resp)
  · refine h.sender.frame rfl (Nat.le_refl _) fun hroom => ?_
    rw [h.rspProdPvt, slotOf_idx hk]
    exact Function.update_of_ne (h.answer_ne_request howed hroom).symm _ _

/-! ## Runs -/

theorem front (h : Sound k s) (hk : k < 32) {s' : Ring} {e : RingEvent}
    (hstep : s.front k e = some s') : Sound k s' := by
  cases e with
  | lock t waitForRing =>
      simp only [Ring.front] at hstep
      split at hstep
      · cases hstep
        exact h.setSender trivial
      · cases hstep
  | tryRing =>
      simp only [Ring.front] at hstep
      split at hstep
      · split_ifs at hstep with hfull hwait
        · cases hstep
          exact h.setSender ⟨h.reqProdPvt, (h.ringFull_iff hk).mp (by simpa using hfull)⟩
        · cases hstep
          exact h.setSender trivial
        · cases hstep
          exact h
      · cases hstep
  | fill req =>
      simp only [Ring.front] at hstep
      split at hstep
      · rename_i t currReq hs
        split_ifs at hstep with hsize
        cases hstep
        exact h.fill hk hs hsize
      · cases hstep
  | release =>
      simp only [Ring.front] at hstep
      split at hstep
      · cases hstep
        exact h.setSender trivial
      · cases hstep
        exact h.setSender trivial
      · rename_i t currReq req hs
        have hsender := h.sender
        rw [hs] at hsender
        have hslot : s.requestAt (slotOf k currReq) = some req := by
          rw [hsender.1, slotOf_idx hk, requestAt, hsender.2.2.2]
          rfl
        simp only [hslot] at hstep
        split_ifs at hstep with hreq
        · cases hstep
          exact h.publish hk hs hreq
        · cases hstep
          exact h.setSender trivial
      · cases hstep
  | responseAvailable =>
      simp only [Ring.front] at hstep
      split_ifs at hstep with hc
      cases hstep
      obtain ⟨hidle, havail⟩ := hc
      have hcons : s.consumed = s.returned.length := by simp [consumed, hidle]
      have hlt := (h.unconsumedResponses_iff hk).mp havail
      exact h.setConsumer (by simp [consumed, hidle]) (fun _ => hcons ▸ hlt) (by decide)
  | getNextResponse =>
      simp only [Ring.front] at hstep
      split_ifs at hstep with hc
      have hlt := h.available hc
      have hcons : s.consumed = s.returned.length := by simp [consumed, hc]
      have hnext : s.responseAt (slotOf k s.rspCons) = some s.written[s.returned.length] := by
        rw [h.responseAt_next hk (hcons ▸ hlt)]
        simp only [hcons]
      simp only [hnext] at hstep
      split_ifs at hstep
      · cases hstep
        exact h.getNextResponse hc hlt
      · cases hstep
        exact h.setConsumer (by simp [consumed, hc]) (fun h => by cases h) (by decide)
  | markResponseConsumed =>
      simp only [Ring.front] at hstep
      split_ifs at hstep with hc
      cases hstep
      exact h.markResponseConsumed hk hc
  | requestAvailable | readItem | writeItem _ | pushResponse => cases hstep

theorem back (h : Sound k s) (hk : k < 32) {s' : Ring} {e : RingEvent} (hG : s.answersOnce e)
    (hstep : s.back k e = some s') : Sound k s' := by
  cases e with
  | requestAvailable =>
      simp only [Ring.back] at hstep
      split_ifs at hstep with hc
      cases hstep
      have hne : s.ringHasUnconsumedRequests k ≠ 0 := by
        simp only [Bool.and_eq_true, decide_eq_true_eq] at hc
        exact hc.2
      exact { h with reading := fun _ => (h.unconsumedRequests_iff hk).mp hne }
  | readItem =>
      simp only [Ring.back] at hstep
      split_ifs at hstep with hc
      have hlt := h.reading hc
      obtain ⟨hvalid, hsize⟩ := h.valid _ (List.getElem_mem hlt)
      have hgot : (s.requestAt (slotOf k s.reqCons)).filter (fun r =>
          r.isRequest && decide (r.size ≤ mtRequestGenericSize)) = some s.published[s.read.length] := by
        rw [h.requestAt_next hk hlt, Option.filter_some, hvalid, decide_eq_true hsize]
        rfl
      rw [hgot] at hstep
      cases hstep
      exact h.readItem hk hlt
  | writeItem resp =>
      simp only [Ring.back] at hstep
      split at hstep
      · cases hstep
        exact h.writeItem hk hG resp
      · cases hstep
  | pushResponse =>
      simp only [Ring.back] at hstep
      split at hstep
      · cases hstep
      · rename_i resp hs
        cases hstep
        exact h.pushResponse hk hs
  | lock _ _ | tryRing | fill _ | release | responseAvailable | getNextResponse
  | markResponseConsumed => cases hstep

theorem step (h : Sound k s) (hk : k < 32) {s' : Ring} {e : RingEvent} (hG : s.answersOnce e)
    (hstep : Ring.step k s e = some s') : Sound k s' := by
  cases e with
  | lock _ _ | tryRing | fill _ | release | responseAvailable | getNextResponse
  | markResponseConsumed =>
      simp only [Ring.step] at hstep
      exact h.front hk hstep
  | requestAvailable | readItem | writeItem _ | pushResponse =>
      simp only [Ring.step] at hstep
      exact h.back hk hG hstep

/-- The order of the indices, in modular arithmetic. -/
theorem inOrder (h : Sound k s) (hk : k < 32) :
    (s.rspProd - s.rspCons).toNat + (s.reqCons - s.rspProd).toNat +
      (s.reqProd - s.reqCons).toNat ≤ 2 ^ k := by
  have h₁ := h.consumed_le
  have h₂ := h.written_le
  have h₃ := h.read_le
  have h₄ := h.published_le
  have hlt := two_pow_lt hk
  rw [h.rspProd, h.rspCons, h.reqCons, h.reqProd, idx_sub h₁, idx_sub h₂, idx_sub h₃,
    toNat_idx (by omega), toNat_idx (by omega), toNat_idx (by omega)]
  omega

end Sound

end Ring

/-- Two slots, three requests: the third waits until the first response is off
the ring. -/
def twoSlots : List RingEvent :=
  let request : MtRequest := { type := .socketRecv, size := mtRequestSocketRecvSize }
  let response : MtResponse :=
    { sig := mtSignatureResponse, type := .of .socketRecv, size := mtResponseSocketRecvSize }
  [.lock 0 true, .tryRing, .fill { request with id := 1 }, .release,
   .lock 1 false, .tryRing, .fill { request with id := 2 }, .requestAvailable, .release,
   .lock 0 false, .tryRing, .release, .lock 0 true, .tryRing, .readItem,
   .writeItem { response with id := 1 }, .requestAvailable, .pushResponse, .readItem,
   .responseAvailable, .getNextResponse, .tryRing, .markResponseConsumed, .tryRing,
   .writeItem { response with id := 2 }, .fill { request with id := 3 }, .release, .pushResponse]

end MagicWand
