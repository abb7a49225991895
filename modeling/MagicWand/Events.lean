import MagicWand.Foundation.Doorbell
import MagicWand.Kernel.RoundRobin
import MagicWand.RingSteps

/-!
# The event channels between the driver and its INSs

Each INS shares a ring and an event channel with the driver. A thread that has pushed a
request sends an event before it lets go of the lock, and so does the INS when it has
pushed a response. `xe_comms_read_item` looks at its ring and, if there is nothing on it,
downs a semaphore that the handler of its port ups; `mwsocket_response_consumer` looks at
the rings of all INSs in turn and then downs the one semaphore that the handlers of all
ports up.

An event makes the port of the other side pending until the handler runs, and a second
event before that changes nothing. The INS may bind its port after the ring is ready:
an event that is sent before that is lost, and what is pending when the INS unmasks the
port is cleared. The driver binds its handler when the INS has done so; the port keeps
an event until then. Sending does not fail, no INS dies and no thread is interrupted.
-/

namespace MagicWand

open Foundation Kernel

/-! ## One INS -/

/-- The port of the INS. -/
inductive Port where
  | unbound
  | masked
  | unmasked
deriving DecidableEq, Repr

/-- The ring and the event channel of one INS. -/
structure Link where
  ring : Ring := {}
  /-- A thread has pushed a request and holds the lock until it has sent the event. -/
  unsent : Bool := false
  port : Port := .unbound
  requestPending : Bool := false
  messagesAvailable : Nat := 0
  /-- `xe_comms_read_item` has found nothing. -/
  waiting : Bool := false
  /-- `xe_comms_write_item` has pushed a response and has yet to send the event. -/
  unnotified : Bool := false
  /-- The driver has bound its handler. -/
  irq : Bool := false
  responsePending : Bool := false

inductive LinkEvent where
  /-- A step of a thread that sends, or of the INS when it writes. -/
  | ring (e : RingEvent)
  /-- `mw_xen_send_event`. -/
  | mwXenSendEvent
  /-- `xe_comms_bind_to_interdom_chn` binds the port, … -/
  | bindInterdomain
  /-- … clears and unmasks it, and tells the driver. -/
  | unmaskEvtchn
  /-- `mw_xen_bind_evt_chn`. -/
  | mwXenBindEvtChn
  /-- `xe_comms_event_callback`. -/
  | eventCallback
  /-- `xe_comms_read_item` looks at the ring, … -/
  | requestAvailable
  /-- … waits for an event, … -/
  | semaphoreDown
  /-- … or takes the request. -/
  | readItem
  /-- `send_event`. -/
  | sendEvent
deriving DecidableEq, Repr

namespace Link

variable (k : Nat)

/-- `xe_comms_read_item` may run. -/
def reads (l : Link) : Bool := l.port == .unmasked && !l.waiting

/-- A thread that sends takes the lock when the ring is ready and nobody has an event to
send, and `xe_comms_write_item` is called when no other thread is in it. -/
def maySend (ready : Bool) (l : Link) (e : RingEvent) : Bool :=
  e.isSend && match e with
    | .lock .. => ready && !l.unsent
    | .writeItem _ => !l.unnotified
    | _ => true

def step (ready : Bool) (l : Link) : LinkEvent → Option Link
  | .ring e =>
      if l.maySend ready e then
        (l.ring.step k e).map fun r =>
          { l with
            ring := r
            unsent := l.unsent || r.reqProd != l.ring.reqProd
            unnotified := l.unnotified || r.rspProd != l.ring.rspProd }
      else none
  | .mwXenSendEvent =>
      if l.unsent then
        some { l with
          unsent := false
          requestPending := l.requestPending || l.port != .unbound }
      else none
  | .bindInterdomain => if l.port = .unbound then some { l with port := .masked } else none
  | .unmaskEvtchn =>
      if l.port = .masked then some { l with port := .unmasked, requestPending := false }
      else none
  | .mwXenBindEvtChn =>
      if l.port = .unmasked ∧ l.irq = false then some { l with irq := true } else none
  | .eventCallback =>
      if l.port = .unmasked ∧ l.requestPending = true then
        some { l with requestPending := false, messagesAvailable := l.messagesAvailable + 1 }
      else none
  | .requestAvailable =>
      if l.reads ∧ l.ring.reading = false then
        match l.ring.step k .requestAvailable with
        | some r => some { l with ring := r }
        | none => some { l with waiting := true }
      else none
  | .semaphoreDown =>
      if l.waiting = true ∧ 0 < l.messagesAvailable then
        some { l with waiting := false, messagesAvailable := l.messagesAvailable - 1 }
      else none
  | .readItem => (l.ring.step k .readItem).map fun r => { l with ring := r }
  | .sendEvent =>
      if l.unnotified then some { l with unnotified := false, responsePending := true } else none

end Link

/-! ## All INSs -/

/-- `mwsocket_response_consumer`. -/
inductive Consumer where
  /-- In `mw_xen_response_available`, with so many rounds to go. -/
  | scan (rounds : Nat)
  | found (i : Fin maxInsCount)
  | held (i : Fin maxInsCount)
  /-- The ring was found to be corrupt. -/
  | stopped
deriving DecidableEq, Repr

structure Backbone where
  ins : Fin maxInsCount → InsData := fun _ => {}
  link : Fin maxInsCount → Link := fun _ => {}
  eventChannelSem : Nat := 0
  rrIndex : Nat := 0
  consumer : Consumer := .scan maxInsCount

inductive BackboneEvent where
  /-- `mw_xen_ins_found`, when the ring is ready. -/
  | insReady (i : Fin maxInsCount) (domid : BitVec 16)
  | link (i : Fin maxInsCount) (e : LinkEvent)
  /-- `mw_xen_irq_event_handler`. -/
  | irqEventHandler (i : Fin maxInsCount)
  /-- One round of `mw_xen_response_available`. -/
  | nextRing
  /-- The consumer waits for an event. -/
  | down
  | getNextResponse
  | markResponseConsumed
deriving DecidableEq, Repr

namespace Backbone

variable (k : Nat)

def setLink (s : Backbone) (i : Fin maxInsCount) (l : Link) : Backbone :=
  { s with link := Function.update s.link i l }

def setRing (s : Backbone) (i : Fin maxInsCount) (r : Ring) : Backbone :=
  s.setLink i { s.link i with ring := r }

def step (s : Backbone) : BackboneEvent → Option Backbone
  | .insReady i domid =>
      if h : realDomid domid = true then
        if (s.ins i).inUse then none
        else
          let d : InsData :=
            { domid := domid, inUse := true, isRingReady := true, real := fun _ => h }
          some { s with ins := Function.update s.ins i d }
      else none
  | .link i e => ((s.link i).step k (s.ins i).isRingReady e).map (s.setLink i)
  | .irqEventHandler i =>
      if (s.link i).irq = true ∧ (s.link i).responsePending = true then
        some { s.setLink i { s.link i with responsePending := false } with
          eventChannelSem := s.eventChannelSem + 1 }
      else none
  | .nextRing =>
      match s.consumer with
      | .scan (rounds + 1) =>
          let (index, rrIndex) := mwXenGetNextIndexRr s.rrIndex
          if !(s.ins index).isRingReady then
            some { s with rrIndex := rrIndex, consumer := .scan rounds }
          else
            match (s.link index).ring.step k .responseAvailable with
            | some r => some { s.setRing index r with rrIndex := rrIndex, consumer := .found index }
            | none => some { s with rrIndex := rrIndex, consumer := .scan rounds }
      | _ => none
  | .down =>
      if s.consumer = .scan 0 ∧ 0 < s.eventChannelSem then
        some { s with
          eventChannelSem := s.eventChannelSem - 1
          consumer := .scan maxInsCount }
      else none
  | .getNextResponse =>
      match s.consumer with
      | .found i =>
          ((s.link i).ring.step k .getNextResponse).map fun r =>
            { s.setRing i r with
              consumer := if r.consumer = .holding then .held i else .stopped }
      | _ => none
  | .markResponseConsumed =>
      match s.consumer with
      | .held i =>
          ((s.link i).ring.step k .markResponseConsumed).map fun r =>
            { s.setRing i r with consumer := .scan maxInsCount }
      | _ => none

/-- The INS answers a request that it has read, each of them once, and with a response. -/
def answers (s : Backbone) : BackboneEvent → Prop
  | .link i (.ring (.writeItem resp)) =>
      (s.link i).ring.answersOnce (.writeItem resp) ∧ resp.isResponse = true
  | _ => True

instance (s : Backbone) : (e : BackboneEvent) → Decidable (s.answers e)
  | .link _ (.ring (.writeItem _)) => inferInstanceAs (Decidable (_ ∧ _))
  | .link _ (.ring (.lock ..)) | .link _ (.ring .tryRing) | .link _ (.ring (.fill _))
  | .link _ (.ring .release) | .link _ (.ring .responseAvailable)
  | .link _ (.ring .getNextResponse) | .link _ (.ring .markResponseConsumed)
  | .link _ (.ring .requestAvailable) | .link _ (.ring .readItem)
  | .link _ (.ring .pushResponse) => isTrue trivial
  | .link _ .mwXenSendEvent | .link _ .bindInterdomain | .link _ .unmaskEvtchn
  | .link _ .mwXenBindEvtChn | .link _ .eventCallback | .link _ .requestAvailable
  | .link _ .semaphoreDown | .link _ .readItem | .link _ .sendEvent => isTrue trivial
  | .insReady .. | .irqEventHandler _ | .nextRing | .down | .getNextResponse
  | .markResponseConsumed => isTrue trivial

/-- What goes on when no INS appears, nobody sends and no INS writes. -/
def isInternal : BackboneEvent → Bool
  | .insReady .. | .link _ (.ring _) => false
  | _ => true

end Backbone

/-- The driver and its INSs, with rings of `2 ^ k` slots. -/
def backbone (k : Nat) : System Backbone BackboneEvent where
  init := {}
  step := Backbone.step k

namespace Link

/-! ## One INS: its requests as a doorbell, its responses as a line of one -/

def requestDoor (l : Link) : Doorbell Unit where
  lines _ :=
    { work := l.ring.published.length - l.ring.read.length
      unrung := l.unsent
      pending := l.requestPending }
  count := l.messagesAvailable
  looker := if l.ring.reading then .found () else if l.waiting then .scan [] else .scan [()]

def responseLine (l : Link) : Line where
  work := l.ring.written.length - l.ring.consumed
  unrung := l.unnotified
  pending := l.responsePending

/-- How far the two sides are from being bound. -/
def stage (l : Link) : Nat :=
  match l.port with
  | .unbound => 3
  | .masked => 2
  | .unmasked => if l.irq then 0 else 1

structure Sound (k : Nat) (ready : Bool) (l : Link) : Prop where
  ring : l.ring.Sound k
  early : ready = false → l.ring.published = [] ∧ l.ring.sender = .unlocked
  reader : l.port ≠ .unmasked → l.waiting = false ∧ l.ring.reading = false
  waits : l.waiting = true → l.ring.reading = false
  form : ∀ resp ∈ l.ring.written, resp.isResponse = true
  copied : ∀ resp, l.ring.writing = some resp → resp.isResponse = true
  alert : l.requestDoor.Alert

/-- What a step that is neither of a thread that sends nor of the INS when it writes
does to the two doorbells. -/
inductive Internal (l l' : Link) : Prop where
  | request (hmove : l.requestDoor.Move 1 l'.requestDoor)
      (hline : l'.responseLine = l.responseLine) (hstage : l'.stage = l.stage)
  | bound (hdoor : l'.requestDoor = l.requestDoor ∨ l.requestDoor.Move 1 l'.requestDoor)
      (hline : l'.responseLine = l.responseLine) (hstage : l'.stage < l.stage)
  | response (hunrung : l.unnotified = true) (hdoor : l'.requestDoor = l.requestDoor)
      (hline : l'.responseLine = { l.responseLine with unrung := false, pending := true })
      (hstage : l'.stage = l.stage)

/-- The other steps at most add work to one of them. -/
inductive External (l l' : Link) : Prop where
  | nothing (hdoor : l'.requestDoor = l.requestDoor) (hline : l'.responseLine = l.responseLine)
  | request (hdoor : l'.requestDoor = l.requestDoor.produce ())
      (hline : l'.responseLine = l.responseLine)
  | response (hdoor : l'.requestDoor = l.requestDoor)
      (hline : l'.responseLine =
        { l.responseLine with work := l.responseLine.work + 1, unrung := true })

variable {k : Nat} {ready : Bool} {l l' : Link}

theorem setLine_unit (d : Doorbell Unit) (x : Line) :
    d.setLine () x = { d with lines := fun _ => x } := by
  rw [Doorbell.setLine]
  congr 1

/-- Before the INS has registered, its reader has yet to look. -/
theorem Sound.looks (h : l.Sound k ready) (hport : l.port ≠ .unmasked) :
    l.requestDoor.looker = .scan [()] := by
  obtain ⟨hwaiting, hreading⟩ := h.reader hport
  simp only [requestDoor, hwaiting, hreading, Bool.false_eq_true, if_false]

/-- What a step of the ring does to its streams decides what it does to the doorbells. -/
theorem Sound.external_doors (h : l.Sound k ready) {r : Ring} {e : RingEvent}
    (hframe : Ring.SendFrame l.ring r e) :
    External l { l with
      ring := r
      unsent := l.unsent || r.reqProd != l.ring.reqProd
      unnotified := l.unnotified || r.rspProd != l.ring.rspProd } := by
  obtain ⟨hread, hreturned, hconsumer, hreading, hsends⟩ := hframe
  have hle := h.ring.read_le
  have hconsumed : r.consumed = l.ring.consumed := by
    rw [Ring.consumed, Ring.consumed, hreturned, hconsumer]
  have hnext (i : RingIdx) : (i + 1 != i) = true := by
    rw [bne_iff_ne]
    bv_omega
  cases hsends with
  | nothing e hpublished hreqProd hwritten hrspProd hwriting =>
      apply External.nothing
      · simp only [requestDoor, hpublished, hread, hreading, hreqProd, bne_self_eq_false,
          Bool.or_false]
      · simp only [responseLine, hwritten, hconsumed, hrspProd, bne_self_eq_false, Bool.or_false]
  | copy resp hpublished hreqProd hwritten hrspProd hwriting =>
      apply External.nothing
      · simp only [requestDoor, hpublished, hread, hreading, hreqProd, bne_self_eq_false,
          Bool.or_false]
      · simp only [responseLine, hwritten, hconsumed, hrspProd, bne_self_eq_false, Bool.or_false]
  | request req hfilled hpublished hreqProd hwritten hrspProd hwriting hunlocked =>
      apply External.request
      · rw [Doorbell.produce, setLine_unit]
        simp only [requestDoor, hpublished, hread, hreading, hreqProd, h.ring.reqProd,
          h.ring.reqProdPvt, hnext, Bool.or_true, List.length_append, List.length_singleton]
        rw [Nat.sub_add_comm hle]
      · simp only [responseLine, hwritten, hconsumed, hrspProd, bne_self_eq_false, Bool.or_false]
  | response resp hcopied hpublished hreqProd hwritten hrspProd hwriting =>
      apply External.response
      · simp only [requestDoor, hpublished, hread, hreading, hreqProd, bne_self_eq_false,
          Bool.or_false]
      · simp only [responseLine, hwritten, hconsumed, hrspProd, h.ring.rspProd,
          h.ring.rspProdPvt, hnext, Bool.or_true, List.length_append, List.length_singleton]
        rw [Nat.sub_add_comm h.ring.consumed_le]

theorem Sound.external (h : l.Sound k ready) {e : RingEvent}
    (hstep : l.step k ready (.ring e) = some l')
    (hG : ∀ resp, e = .writeItem resp → l.ring.answersOnce e ∧ resp.isResponse = true)
    (hk : k < 32) :
    l'.Sound k ready ∧ External l l' ∧ l'.ring.consumer = l.ring.consumer := by
  rw [step] at hstep
  split_ifs at hstep with hmay
  obtain ⟨r, hr, rfl⟩ := Option.map_eq_some_iff.mp hstep
  obtain ⟨hsend, hturn⟩ := Bool.and_eq_true_iff.mp hmay
  have hframe := Ring.sendFrame_of_step hsend hr
  have hexternal := h.external_doors hframe
  obtain ⟨-, -, hconsumer, hreading, hsends⟩ := hframe
  have hanswers : l.ring.answersOnce e := by
    cases e with
    | writeItem resp => exact (hG resp rfl).1
    | _ => trivial
  have hring := h.ring.step hk hanswers hr
  refine ⟨⟨hring, ?_, ?_, ?_, ?_, ?_, ?_⟩, hexternal, hconsumer⟩
  · rintro rfl
    obtain ⟨hpublished, hsender⟩ := h.early rfl
    obtain ⟨hunlocked, hsame⟩ := Ring.unlocked_of_step hsender hsend
      (by rintro t waitForRing rfl; cases hturn) hr
    exact ⟨hsame.trans hpublished, hunlocked⟩
  · intro hport
    obtain ⟨hwaiting, hno⟩ := h.reader hport
    exact ⟨hwaiting, hreading.trans hno⟩
  · intro hwaiting
    exact hreading.trans (h.waits hwaiting)
  · intro q hq
    cases hsends with
    | nothing e hpublished hreqProd hwritten hrspProd hwriting => exact h.form q (hwritten ▸ hq)
    | copy resp hpublished hreqProd hwritten hrspProd hwriting => exact h.form q (hwritten ▸ hq)
    | request req hfilled hpublished hreqProd hwritten hrspProd hwriting hunlocked =>
        exact h.form q (hwritten ▸ hq)
    | response resp hcopied hpublished hreqProd hwritten hrspProd hwriting =>
        rcases List.mem_append.mp (hwritten ▸ hq) with hold | hnew
        · exact h.form q hold
        · exact List.mem_singleton.mp hnew ▸ h.copied resp hcopied
  · intro q hq
    cases hsends with
    | nothing e hpublished hreqProd hwritten hrspProd hwriting => exact h.copied q (hwriting ▸ hq)
    | copy resp hpublished hreqProd hwritten hrspProd hwriting =>
        have heq : resp = q := Option.some.inj (hwriting.symm.trans hq)
        exact heq ▸ (hG resp rfl).2
    | request req hfilled hpublished hreqProd hwritten hrspProd hwriting hunlocked =>
        exact h.copied q (hwriting ▸ hq)
    | response resp hcopied hpublished hreqProd hwritten hrspProd hwriting =>
        rw [hwriting] at hq
        cases hq
  · cases hexternal with
    | nothing hdoor hline | response hdoor hline => exact hdoor ▸ h.alert
    | request hdoor hline => exact hdoor ▸ h.alert.produce ()

theorem Internal.alert (hi : Internal l l') (h : l.requestDoor.Alert) : l'.requestDoor.Alert := by
  cases hi with
  | request hmove hline hstage => exact h.move hmove
  | bound hdoor hline hstage =>
      rcases hdoor with hsame | hmove
      · exact hsame ▸ h
      · exact h.move hmove
  | response hunrung hdoor hline hstage => exact hdoor ▸ h

theorem Sound.internal_sendEvent (h : l.Sound k ready)
    (hstep : l.step k ready .mwXenSendEvent = some l') :
    Internal l l' ∧ (l'.Sound k ready) := by
  rw [step] at hstep
  split_ifs at hstep with hunsent
  cases hstep
  have hinternal : Internal l { l with
      unsent := false, requestPending := l.requestPending || l.port != .unbound } := by
    refine .request ?_ rfl rfl
    by_cases hport : l.port = .unbound
    · have hlooks := h.looks (by rw [hport]; decide)
      have hmove := Doorbell.Move.miss (n := 1) (s := l.requestDoor) () hunsent
        (by rw [hlooks]; exact List.mem_singleton_self ())
      simpa only [setLine_unit, requestDoor, hport, bne_self_eq_false, Bool.or_false] using hmove
    · have hmove := Doorbell.Move.ring (n := 1) (s := l.requestDoor) () hunsent
      simpa only [setLine_unit, requestDoor, bne_iff_ne.mpr hport, Bool.or_true] using hmove
  exact ⟨hinternal, { h with alert := hinternal.alert h.alert }⟩

theorem Sound.internal_bind (h : l.Sound k ready) {e : LinkEvent}
    (he : e = .bindInterdomain ∨ e = .unmaskEvtchn ∨ e = .mwXenBindEvtChn)
    (hstep : l.step k ready e = some l') : Internal l l' ∧ l'.Sound k ready := by
  rcases he with rfl | rfl | rfl
  · rw [step] at hstep
    split_ifs at hstep with hport
    cases hstep
    have hinternal : Internal l { l with port := .masked } :=
      .bound (.inl rfl) rfl (by simp [stage, hport])
    refine ⟨hinternal, { h with reader := fun _ => h.reader ?_ }⟩
    rw [hport]
    decide
  · rw [step] at hstep
    split_ifs at hstep with hport
    cases hstep
    have hclosed : l.port ≠ .unmasked := by rw [hport]; decide
    have hinternal : Internal l { l with port := .unmasked, requestPending := false } := by
      refine .bound ?_ rfl ?_
      · by_cases hpending : l.requestPending = true
        · have hmove := Doorbell.Move.clear (n := 1) (s := l.requestDoor) () hpending
            (by rw [h.looks hclosed]; exact List.mem_singleton_self ())
          exact .inr (by simpa only [setLine_unit, requestDoor] using hmove)
        · have hnone : l.requestPending = false := by simpa using hpending
          exact .inl (by simp only [requestDoor, hnone])
      · simp only [stage, hport]
        split_ifs <;> decide
    refine ⟨hinternal, { h with
      reader := fun hno => absurd rfl hno
      waits := h.waits
      alert := hinternal.alert h.alert }⟩
  · rw [step] at hstep
    split_ifs at hstep with hport
    cases hstep
    have hinternal : Internal l { l with irq := true } :=
      .bound (.inl rfl) rfl (by simp [stage, hport.1, hport.2])
    exact ⟨hinternal, { h with alert := h.alert }⟩

theorem Sound.internal_eventCallback (h : l.Sound k ready)
    (hstep : l.step k ready .eventCallback = some l') :
    Internal l l' ∧ l'.Sound k ready ∧ l'.ring.consumer = l.ring.consumer := by
  rw [step] at hstep
  split_ifs at hstep with hpending
  cases hstep
  have hinternal : Internal l { l with
      requestPending := false, messagesAvailable := l.messagesAvailable + 1 } := by
    refine .request ?_ rfl rfl
    have hmove := Doorbell.Move.deliver (n := 1) (s := l.requestDoor) () hpending.2
    simpa only [setLine_unit, requestDoor] using hmove
  exact ⟨hinternal, { h with alert := hinternal.alert h.alert }, rfl⟩

/-- The INS looks at the ring: it finds a request, or waits for the semaphore. -/
theorem Sound.internal_requestAvailable (h : l.Sound k ready) (hk : k < 32)
    (hstep : l.step k ready .requestAvailable = some l') :
    Internal l l' ∧ l'.Sound k ready ∧ l'.ring.consumer = l.ring.consumer := by
  rw [step] at hstep
  split_ifs at hstep with hreads
  obtain ⟨hmay, hreading⟩ := hreads
  simp only [reads, Bool.and_eq_true, beq_iff_eq, Bool.not_eq_true'] at hmay
  obtain ⟨hport, hwaiting⟩ := hmay
  have hlooker : l.requestDoor.looker = .scan [()] := by
    simp only [requestDoor, hwaiting, hreading, Bool.false_eq_true, if_false]
  rcases Ring.step_requestAvailable h.ring hk hreading with ⟨hlt, hr⟩ | ⟨hall, hr⟩
  · rw [hr] at hstep
    cases hstep
    have hinternal : Internal l { l with ring := { l.ring with reading := true } } := by
      refine .request ?_ rfl rfl
      have hmove := Doorbell.Move.find (n := 1) (s := l.requestDoor) () [] hlooker
        (Nat.sub_pos_of_lt hlt)
      simpa only [requestDoor, if_true] using hmove
    have hring : Ring.Sound k { l.ring with reading := true } :=
      h.ring.step hk (e := .requestAvailable) trivial hr
    refine ⟨hinternal, { h with
      ring := hring
      reader := fun hno => absurd hport hno
      waits := fun hw => ?_
      alert := hinternal.alert h.alert }, rfl⟩
    rw [hwaiting] at hw
    cases hw
  · rw [hr] at hstep
    cases hstep
    have hinternal : Internal l { l with waiting := true } := by
      refine .request ?_ rfl rfl
      have hnone : (l.requestDoor.lines ()).work = 0 := Nat.sub_eq_zero_of_le (Nat.le_of_eq hall)
      have hmove := Doorbell.Move.pass (n := 1) (s := l.requestDoor) () [] hlooker hnone
      simpa only [requestDoor, hreading, Bool.false_eq_true, if_false, if_true] using hmove
    exact ⟨hinternal, { h with
      reader := fun hno => absurd hport hno
      waits := fun _ => hreading
      alert := hinternal.alert h.alert }, rfl⟩

theorem Sound.internal_semaphoreDown (h : l.Sound k ready)
    (hstep : l.step k ready .semaphoreDown = some l') :
    Internal l l' ∧ l'.Sound k ready ∧ l'.ring.consumer = l.ring.consumer := by
  rw [step] at hstep
  split_ifs at hstep with hwake
  cases hstep
  obtain ⟨hwaiting, hcount⟩ := hwake
  have hreading := h.waits hwaiting
  have hinternal : Internal l { l with
      waiting := false, messagesAvailable := l.messagesAvailable - 1 } := by
    refine .request ?_ rfl rfl
    have hlooker : l.requestDoor.looker = .scan [] := by
      simp only [requestDoor, hwaiting, hreading, Bool.false_eq_true, if_false, if_true]
    have hmove := Doorbell.Move.wake (n := 1) (s := l.requestDoor) [()] hlooker hcount
      (fun _ => List.mem_singleton_self ()) (Nat.le_refl 1)
    simpa only [requestDoor, hreading, Bool.false_eq_true, if_false] using hmove
  exact ⟨hinternal, { h with
    reader := fun hno => ⟨rfl, (h.reader hno).2⟩
    waits := fun _ => hreading
    alert := hinternal.alert h.alert }, rfl⟩

theorem Sound.internal_readItem (h : l.Sound k ready) (hk : k < 32)
    (hstep : l.step k ready .readItem = some l') :
    Internal l l' ∧ l'.Sound k ready ∧ l'.ring.consumer = l.ring.consumer := by
  rw [step] at hstep
  obtain ⟨r, hr, rfl⟩ := Option.map_eq_some_iff.mp hstep
  obtain ⟨req, -, -, hreads⟩ := Ring.reads_of_step h.ring hk hr
  obtain ⟨hreading, hdone, hread, hpublished, hwritten, hreturned, hconsumer, hwriting, hsender⟩ :=
    hreads
  have hlt := h.ring.reading hreading
  have hwaiting : l.waiting = false := by
    by_contra hw
    have hno := h.waits (by simpa using hw)
    rw [hreading] at hno
    cases hno
  have hport : l.port = .unmasked := by
    by_contra hno
    have hnot := (h.reader hno).2
    rw [hreading] at hnot
    cases hnot
  have hinternal : Internal l { l with ring := r } := by
    refine .request ?_ ?_ rfl
    · have hlooker : l.requestDoor.looker = .found () := by
        simp only [requestDoor, hreading, if_true]
      have hmove := Doorbell.Move.take (n := 1) (s := l.requestDoor) () [()] (.inl hlooker)
        (Nat.sub_pos_of_lt hlt) (fun _ => List.mem_singleton_self ()) (Nat.le_refl 1)
      simpa only [setLine_unit, requestDoor, hpublished, hread, hdone, hwaiting,
        List.length_append, List.length_singleton, Bool.false_eq_true, if_false,
        Nat.sub_sub] using hmove
    · simp only [responseLine, hwritten, Ring.consumed, hreturned, hconsumer]
  refine ⟨hinternal, ⟨h.ring.step hk (e := .readItem) trivial hr, ?_, ?_, ?_, ?_, ?_, ?_⟩, hconsumer⟩
  · intro hready
    exact ⟨hpublished.trans (h.early hready).1, hsender.trans (h.early hready).2⟩
  · exact fun hno => absurd hport hno
  · exact fun _ => hdone
  · exact fun resp hresp => h.form resp (hwritten ▸ hresp)
  · exact fun resp hresp => h.copied resp (hwriting ▸ hresp)
  · exact hinternal.alert h.alert

/-- Each step of the others is one of a doorbell, or brings the two sides closer to
being bound. -/
theorem Sound.internal (h : l.Sound k ready) (hk : k < 32) {e : LinkEvent}
    (he : ∀ r, e ≠ .ring r) (hstep : l.step k ready e = some l') :
    Internal l l' ∧ l'.Sound k ready ∧ l'.ring.consumer = l.ring.consumer := by
  cases e with
  | ring r => exact absurd rfl (he r)
  | mwXenSendEvent =>
      obtain ⟨hinternal, hsound⟩ := h.internal_sendEvent hstep
      rw [step] at hstep
      split_ifs at hstep
      cases hstep
      exact ⟨hinternal, hsound, rfl⟩
  | bindInterdomain | unmaskEvtchn | mwXenBindEvtChn =>
      obtain ⟨hinternal, hsound⟩ := h.internal_bind (by simp) hstep
      rw [step] at hstep
      split_ifs at hstep
      cases hstep
      exact ⟨hinternal, hsound, rfl⟩
  | eventCallback => exact h.internal_eventCallback hstep
  | requestAvailable => exact h.internal_requestAvailable hk hstep
  | semaphoreDown => exact h.internal_semaphoreDown hstep
  | readItem => exact h.internal_readItem hk hstep
  | sendEvent =>
      rw [step] at hstep
      split_ifs at hstep with hunrung
      cases hstep
      exact ⟨.response hunrung rfl rfl rfl, { h with alert := h.alert }, rfl⟩

/-- What the consumer does at the ring is nothing to the reader. -/
theorem requestDoor_consume {r : Ring} (hframe : Ring.ConsumeFrame l.ring r) :
    requestDoor { l with ring := r } = l.requestDoor := by
  simp only [requestDoor, hframe.published, hframe.read, hframe.reading]

theorem Sound.consume (h : l.Sound k ready) {r : Ring} (hring : r.Sound k)
    (hframe : Ring.ConsumeFrame l.ring r) : Sound k ready { l with ring := r } where
  ring := hring
  early hready :=
    ⟨hframe.published.trans (h.early hready).1, hframe.sender.trans (h.early hready).2⟩
  reader hport := ⟨(h.reader hport).1, hframe.reading.trans (h.reader hport).2⟩
  waits hwaiting := hframe.reading.trans (h.waits hwaiting)
  form resp hresp := h.form resp (hframe.written ▸ hresp)
  copied resp hresp := h.copied resp (hframe.writing ▸ hresp)
  alert := requestDoor_consume hframe ▸ h.alert

end Link

/-! ## All INSs: the responses as a doorbell -/

namespace Consumer

/-- The rings that the consumer has still to look at. -/
def looksAt (rounds rrIndex : Nat) : List (Fin maxInsCount) :=
  (List.range rounds).map fun n => place (rrIndex + n)

theorem looksAt_succ (rounds rrIndex : Nat) :
    looksAt (rounds + 1) rrIndex =
      (mwXenGetNextIndexRr rrIndex).1 :: looksAt rounds (mwXenGetNextIndexRr rrIndex).2 := by
  rw [looksAt, List.range_succ_eq_map, List.map_cons, List.map_map]
  refine congrArg₂ _ rfl (List.map_congr_left fun n _ => Fin.ext ?_)
  exact (RoundRobin.mod_add_one_add rrIndex n).symm

theorem mem_looksAt (rrIndex : Nat) (i : Fin maxInsCount) : i ∈ looksAt maxInsCount rrIndex := by
  have hround := RoundRobin.round_perm (n := maxInsCount) (by decide) rrIndex
  obtain ⟨n, hn, heq⟩ := List.mem_map.mp (hround.mem_iff.mpr (List.mem_range.mpr i.isLt))
  exact List.mem_map.mpr ⟨n, hn, Fin.ext heq⟩

theorem length_looksAt (rounds rrIndex : Nat) : (looksAt rounds rrIndex).length = rounds := by
  rw [looksAt, List.length_map, List.length_range]

def looker (rrIndex : Nat) : Consumer → Looker (Fin maxInsCount)
  | .scan rounds => .scan (looksAt rounds rrIndex)
  | .found i => .found i
  | .held i => .held i
  | .stopped => .scan []

/-- Where the consumer is at the ring of INS `i`. -/
def on (i : Fin maxInsCount) : Consumer → RingConsumer
  | .found j => if j = i then .available else .idle
  | .held j => if j = i then .holding else .idle
  | .scan _ | .stopped => .idle

end Consumer

namespace Backbone

def responseDoor (s : Backbone) : Doorbell (Fin maxInsCount) where
  lines i := (s.link i).responseLine
  count := s.eventChannelSem
  looker := s.consumer.looker s.rrIndex

structure Sound (k : Nat) (s : Backbone) : Prop where
  link : ∀ i, (s.link i).Sound k (s.ins i).isRingReady
  consumer : ∀ i, (s.link i).ring.consumer = s.consumer.on i
  running : s.consumer ≠ .stopped
  alert : s.responseDoor.Alert

/-- More steps than this are not possible before somebody sends or an INS writes. -/
def potential (s : Backbone) : Nat :=
  ∑ i, ((s.link i).requestDoor.potential 1 + (s.link i).stage) +
    s.responseDoor.potential maxInsCount

variable {k : Nat} {s s' : Backbone}

theorem setLink_self (s : Backbone) (i : Fin maxInsCount) (l : Link) :
    (s.setLink i l).link i = l := Function.update_self ..

theorem setLink_ne (s : Backbone) {i j : Fin maxInsCount} (l : Link) (h : j ≠ i) :
    (s.setLink i l).link j = s.link j := Function.update_of_ne h ..

theorem responseDoor_setLink (s : Backbone) (i : Fin maxInsCount) (l : Link) :
    (s.setLink i l).responseDoor = s.responseDoor.setLine i l.responseLine := by
  rw [responseDoor, Doorbell.setLine]
  congr 1
  funext j
  by_cases hj : j = i
  · rw [hj, setLink_self, Function.update_self]
  · rw [setLink_ne _ _ hj, Function.update_of_ne hj]
    rfl

theorem responseDoor_same (s : Backbone) (i : Fin maxInsCount) {l : Link}
    (hline : l.responseLine = (s.link i).responseLine) :
    (s.setLink i l).responseDoor = s.responseDoor := by
  rw [responseDoor_setLink, hline]
  exact s.responseDoor.setLine_lines i

/-- What a step of one INS does to the doorbells of the others: nothing. -/
theorem Sound.setLink (h : s.Sound k) {i : Fin maxInsCount} {l : Link}
    (hl : l.Sound k (s.ins i).isRingReady) (hconsumer : l.ring.consumer = (s.link i).ring.consumer)
    (halert : (s.setLink i l).responseDoor.Alert) : (s.setLink i l).Sound k where
  link := by
    intro j
    by_cases hj : j = i
    · rw [hj, setLink_self]
      exact hl
    · rw [setLink_ne _ _ hj]
      exact h.link j
  consumer := by
    intro j
    by_cases hj : j = i
    · rw [hj, setLink_self]
      exact hconsumer.trans (h.consumer i)
    · rw [setLink_ne _ _ hj]
      exact h.consumer j
  running := h.running
  alert := halert

/-- A step of the consumer, or of the handlers that wake it. -/
structure Consumes (k : Nat) (s s' : Backbone) : Prop where
  sound : s'.Sound k
  move : s.responseDoor.Move maxInsCount s'.responseDoor
  request : ∀ i, (s'.link i).requestDoor = (s.link i).requestDoor
  stage : ∀ i, (s'.link i).stage = (s.link i).stage

/-- It takes no more than the ring of one INS, … -/
theorem Sound.consumes (h : s.Sound k) {i : Fin maxInsCount} {l : Link} {sem rrIndex : Nat}
    {consumer : Consumer} (hl : l.Sound k (s.ins i).isRingReady)
    (hrequest : l.requestDoor = (s.link i).requestDoor) (hstage : l.stage = (s.link i).stage)
    (hother : ∀ j, j ≠ i → s.consumer.on j = consumer.on j)
    (hhere : l.ring.consumer = consumer.on i) (hrunning : consumer ≠ .stopped)
    (hmove : s.responseDoor.Move maxInsCount { s.responseDoor.setLine i l.responseLine with
      count := sem, looker := consumer.looker rrIndex }) :
    Consumes k s { s.setLink i l with
      eventChannelSem := sem, rrIndex := rrIndex, consumer := consumer } := by
  let s' : Backbone := { s.setLink i l with
    eventChannelSem := sem, rrIndex := rrIndex, consumer := consumer }
  have hself : s'.link i = l := setLink_self s i l
  have hne {j : Fin maxInsCount} (hj : j ≠ i) : s'.link j = s.link j := setLink_ne s l hj
  have hdoor : s'.responseDoor = { s.responseDoor.setLine i l.responseLine with
      count := sem, looker := consumer.looker rrIndex } :=
    congrArg (fun d : Doorbell (Fin maxInsCount) =>
      { d with count := sem, looker := consumer.looker rrIndex }) (responseDoor_setLink s i l)
  rw [← hdoor] at hmove
  refine ⟨⟨?_, ?_, hrunning, h.alert.move hmove⟩, hmove, ?_, ?_⟩
  · intro j
    by_cases hj : j = i
    · subst hj
      show (s'.link j).Sound k _
      rw [hself]
      exact hl
    · exact hne hj ▸ h.link j
  · intro j
    by_cases hj : j = i
    · subst hj
      show (s'.link j).ring.consumer = _
      rw [hself]
      exact hhere
    · exact hne hj ▸ (h.consumer j).trans (hother j hj)
  · intro j
    by_cases hj : j = i
    · subst hj
      show (s'.link j).requestDoor = _
      rw [hself]
      exact hrequest
    · rw [hne hj]
  · intro j
    by_cases hj : j = i
    · subst hj
      show (s'.link j).stage = _
      rw [hself]
      exact hstage
    · rw [hne hj]

/-- … of which it need not take a response, … -/
theorem Sound.consumes_same (h : s.Sound k) {i : Fin maxInsCount} {r : Ring} {rrIndex : Nat}
    {consumer : Consumer} (hring : r.Sound k) (hframe : Ring.ConsumeFrame (s.link i).ring r)
    (hconsumed : r.consumed = (s.link i).ring.consumed)
    (hother : ∀ j, j ≠ i → s.consumer.on j = consumer.on j) (hhere : r.consumer = consumer.on i)
    (hrunning : consumer ≠ .stopped)
    (hmove : s.responseDoor.Move maxInsCount
      { s.responseDoor with looker := consumer.looker rrIndex }) :
    Consumes k s { s.setRing i r with rrIndex := rrIndex, consumer := consumer } := by
  have hline : Link.responseLine { s.link i with ring := r } = (s.link i).responseLine := by
    simp only [Link.responseLine, hframe.written, hconsumed]
  refine h.consumes ((h.link i).consume hring hframe) (Link.requestDoor_consume hframe) rfl hother
    hhere hrunning ?_
  rw [hline]
  exact (s.responseDoor.setLine_lines i).symm ▸ hmove

/-- … or of none. -/
theorem Sound.looks (h : s.Sound k) {sem rrIndex rounds rounds' : Nat}
    (hscan : s.consumer = .scan rounds)
    (hmove : s.responseDoor.Move maxInsCount { s.responseDoor with
      count := sem, looker := Consumer.looker rrIndex (.scan rounds') }) :
    Consumes k s { s with
      eventChannelSem := sem, rrIndex := rrIndex, consumer := .scan rounds' } where
  sound :=
    { link := h.link
      consumer := fun i => (h.consumer i).trans (by rw [hscan]; rfl)
      running := fun hstop => by cases hstop
      alert := h.alert.move hmove }
  move := hmove
  request _ := rfl
  stage _ := rfl

theorem Sound.irqEventHandler (h : s.Sound k) {i : Fin maxInsCount}
    (hstep : s.step k (.irqEventHandler i) = some s') : Consumes k s s' := by
  rw [step] at hstep
  split_ifs at hstep with hpending
  cases hstep
  have hmove := Doorbell.Move.deliver (n := maxInsCount) (s := s.responseDoor) i hpending.2
  exact h.consumes { h.link i with alert := (h.link i).alert } rfl rfl (fun _ _ => rfl)
    (h.consumer i) h.running hmove

theorem Sound.nextRing (h : s.Sound k) (hk : k < 32) (hstep : s.step k .nextRing = some s') :
    Consumes k s s' := by
  simp only [step] at hstep
  split at hstep
  · rename_i rounds hscan
    have hlooker : s.responseDoor.looker = Consumer.looker s.rrIndex (.scan (rounds + 1)) := by
      rw [responseDoor, hscan]
    rw [Consumer.looker, Consumer.looksAt_succ] at hlooker
    generalize mwXenGetNextIndexRr s.rrIndex = next at hstep hlooker
    obtain ⟨index, rrIndex⟩ := next
    dsimp only at hstep hlooker
    have hidle : (s.link index).ring.consumer = .idle := by
      rw [h.consumer index, hscan]
      rfl
    have hlink := h.link index
    have hpass (hnone : (s.responseDoor.lines index).work = 0) :=
      h.looks hscan (Doorbell.Move.pass (n := maxInsCount) index _ hlooker hnone)
    by_cases hready : (s.ins index).isRingReady = true
    · rw [hready] at hstep
      rcases Ring.step_responseAvailable hlink.ring hk hidle with
        ⟨hlt, r, hr, havailable, hconsumed⟩ | ⟨hall, hr⟩
      · rw [hr] at hstep
        cases hstep
        have hmove := Doorbell.Move.find (n := maxInsCount) (s := s.responseDoor) index _ hlooker
          (Nat.sub_pos_of_lt hlt)
        refine h.consumes_same (hlink.ring.step hk (e := .responseAvailable) trivial hr)
          (Ring.consumeFrame_of_step hr (.inl rfl)) hconsumed ?_ ?_ (by simp) hmove
        · intro j hj
          rw [hscan]
          exact (if_neg hj.symm).symm
        · exact havailable.trans (if_pos rfl).symm
      · rw [hr] at hstep
        cases hstep
        exact hpass (Nat.sub_eq_zero_of_le (Nat.le_of_eq hall))
    · -- Nothing has been sent on a ring that is not ready.
      have hready' : (s.ins index).isRingReady = false := by simpa using hready
      rw [hready'] at hstep
      cases hstep
      obtain ⟨hnone, -⟩ := hlink.early hready'
      have h₂ := hlink.ring.written_le
      have h₃ := hlink.ring.read_le
      rw [hnone, List.length_nil] at h₃
      exact hpass (Nat.sub_eq_zero_of_le (by omega))
  · cases hstep

theorem Sound.down (h : s.Sound k) (hstep : s.step k .down = some s') : Consumes k s s' := by
  simp only [step] at hstep
  split_ifs at hstep with hwake
  cases hstep
  obtain ⟨hscan, hcount⟩ := hwake
  have hlooker : s.responseDoor.looker = .scan [] := by
    rw [responseDoor, hscan]
    rfl
  exact h.looks hscan (Doorbell.Move.wake (Consumer.looksAt maxInsCount s.rrIndex) hlooker hcount
    (Consumer.mem_looksAt s.rrIndex) (Nat.le_of_eq (Consumer.length_looksAt _ _)))

theorem Sound.getNextResponse (h : s.Sound k) (hk : k < 32)
    (hstep : s.step k .getNextResponse = some s') : Consumes k s s' := by
  simp only [step] at hstep
  split at hstep
  · rename_i i hfound
    obtain ⟨r, hr, rfl⟩ := Option.map_eq_some_iff.mp hstep
    obtain ⟨hholding, hconsumed⟩ :=
      Ring.of_step_getNextResponse (h.link i).ring hk (h.link i).form hr
    have hlooker : s.responseDoor.looker = .found i := by
      rw [responseDoor, hfound]
      rfl
    simp only [hholding, if_true]
    refine h.consumes_same ((h.link i).ring.step hk (e := .getNextResponse) trivial hr)
      (Ring.consumeFrame_of_step hr (.inr (.inl rfl))) hconsumed ?_ ?_ (by simp)
      (Doorbell.Move.fetch i hlooker)
    · intro j hj
      rw [hfound]
      exact (if_neg hj.symm).trans (if_neg hj.symm).symm
    · exact hholding.trans (if_pos rfl).symm
  · cases hstep

theorem Sound.markResponseConsumed (h : s.Sound k) (hk : k < 32)
    (hstep : s.step k .markResponseConsumed = some s') : Consumes k s s' := by
  simp only [step] at hstep
  split at hstep
  · rename_i i hheld
    obtain ⟨r, hr, rfl⟩ := Option.map_eq_some_iff.mp hstep
    obtain ⟨hidle, hconsumed, hlt⟩ := Ring.of_step_markResponseConsumed (h.link i).ring hr
    have hframe := Ring.consumeFrame_of_step hr (.inr (.inr rfl))
    have hlooker : s.responseDoor.looker = .held i := by
      rw [responseDoor, hheld]
      rfl
    have hmove := Doorbell.Move.take (s := s.responseDoor) i
      (Consumer.looksAt maxInsCount s.rrIndex) (.inr hlooker) (Nat.sub_pos_of_lt hlt)
      (Consumer.mem_looksAt s.rrIndex) (Nat.le_of_eq (Consumer.length_looksAt _ _))
    have hline : Link.responseLine { s.link i with ring := r } =
        { s.responseDoor.lines i with work := (s.responseDoor.lines i).work - 1 } := by
      simp only [responseDoor, Link.responseLine, hframe.written, hconsumed, Nat.sub_sub]
    refine h.consumes ((h.link i).consume
      ((h.link i).ring.step hk (e := .markResponseConsumed) trivial hr) hframe)
      (Link.requestDoor_consume hframe) rfl ?_ hidle (by simp) ?_
    · intro j hj
      rw [hheld]
      exact if_neg hj.symm
    · rw [hline]
      exact hmove
  · cases hstep

/-! ## Steps and runs -/

theorem Sound.init (k : Nat) : (backbone k).init.Sound k where
  link _ :=
    { ring := Ring.Sound.init k
      early := fun _ => ⟨rfl, rfl⟩
      reader := fun _ => ⟨rfl, rfl⟩
      waits := fun _ => rfl
      form := fun _ h => absurd h List.not_mem_nil
      copied := fun _ h => by cases h
      alert := fun _ h => absurd h (Nat.lt_irrefl 0) }
  consumer _ := rfl
  running h := by cases h
  alert _ h := absurd h (Nat.lt_irrefl 0)

theorem Sound.external (h : s.Sound k) (hk : k < 32) {i : Fin maxInsCount} {e : RingEvent}
    (hG : s.answers (.link i (.ring e))) (hstep : s.step k (.link i (.ring e)) = some s') :
    s'.Sound k := by
  rw [step] at hstep
  obtain ⟨l, hl, rfl⟩ := Option.map_eq_some_iff.mp hstep
  obtain ⟨hlink, hexternal, hconsumer⟩ := (h.link i).external hl (by rintro resp rfl; exact hG) hk
  refine h.setLink hlink hconsumer ?_
  cases hexternal with
  | nothing hdoor hline | request hdoor hline =>
      rw [responseDoor_same s i hline]
      exact h.alert
  | response hdoor hline =>
      rw [responseDoor_setLink, hline]
      exact h.alert.produce i

/-- A step of one INS that is neither of a thread that sends nor of the INS when it
writes. -/
theorem Sound.linked (h : s.Sound k) (hk : k < 32) {i : Fin maxInsCount} {e : LinkEvent}
    (he : ∀ r, e ≠ .ring r) (hstep : s.step k (.link i e) = some s') :
    s'.Sound k ∧ s'.potential < s.potential := by
  rw [step] at hstep
  obtain ⟨l, hl, rfl⟩ := Option.map_eq_some_iff.mp hstep
  obtain ⟨hinternal, hlink, hconsumer⟩ := (h.link i).internal hk he hl
  have hsum := sum_change (Finset.mem_univ i)
    (f := fun j => (s.link j).requestDoor.potential 1 + (s.link j).stage)
    (k := fun j => ((s.setLink i l).link j).requestDoor.potential 1 + ((s.setLink i l).link j).stage)
    fun j hj => by rw [setLink_ne _ _ hj]
  simp only [setLink_self] at hsum
  cases hinternal with
  | request hmove hline hstage =>
      have hdoor := responseDoor_same s i hline
      have hless := hmove.potential_lt
      refine ⟨h.setLink hlink hconsumer (hdoor ▸ h.alert), ?_⟩
      rw [potential, potential, hdoor]
      omega
  | bound hdoor hline hstage =>
      have hsame := responseDoor_same s i hline
      have hless : l.requestDoor.potential 1 ≤ (s.link i).requestDoor.potential 1 := by
        rcases hdoor with hdoor | hmove
        · rw [hdoor]
        · exact Nat.le_of_lt hmove.potential_lt
      refine ⟨h.setLink hlink hconsumer (hsame ▸ h.alert), ?_⟩
      rw [potential, potential, hsame]
      omega
  | response hunrung hdoor hline hstage =>
      have hmove : s.responseDoor.Move maxInsCount (s.setLink i l).responseDoor := by
        rw [responseDoor_setLink, hline]
        exact Doorbell.Move.ring i hunrung
      have hless := hmove.potential_lt
      refine ⟨h.setLink hlink hconsumer (h.alert.move hmove), ?_⟩
      rw [potential, potential]
      rw [hdoor, hstage] at hsum
      omega

theorem Consumes.potential_lt (h : Consumes k s s') : s'.potential < s.potential := by
  have hless := h.move.potential_lt
  have hsame : ∑ i, ((s'.link i).requestDoor.potential 1 + (s'.link i).stage) =
      ∑ i, ((s.link i).requestDoor.potential 1 + (s.link i).stage) :=
    Finset.sum_congr rfl fun i _ => by rw [h.request i, h.stage i]
  rw [potential, potential, hsame]
  omega

/-- Every step that neither sends nor writes brings the end closer. -/
theorem Sound.internal (h : s.Sound k) (hk : k < 32) {e : BackboneEvent}
    (he : isInternal e = true) (hstep : s.step k e = some s') :
    s'.Sound k ∧ s'.potential < s.potential := by
  have hconsumes (hc : Consumes k s s') : s'.Sound k ∧ s'.potential < s.potential :=
    ⟨hc.sound, hc.potential_lt⟩
  cases e with
  | insReady i domid => cases he
  | link i e =>
      refine h.linked hk ?_ hstep
      rintro r rfl
      cases he
  | irqEventHandler i => exact hconsumes (h.irqEventHandler hstep)
  | nextRing => exact hconsumes (h.nextRing hk hstep)
  | down => exact hconsumes (h.down hstep)
  | getNextResponse => exact hconsumes (h.getNextResponse hk hstep)
  | markResponseConsumed => exact hconsumes (h.markResponseConsumed hk hstep)

theorem Sound.insReady (h : s.Sound k) {i : Fin maxInsCount} {domid : BitVec 16}
    (hstep : s.step k (.insReady i domid) = some s') : s'.Sound k := by
  simp only [step] at hstep
  split_ifs at hstep
  cases hstep
  refine { h with link := fun j => ?_ }
  by_cases hj : j = i
  · subst hj
    show Link.Sound k (Function.update s.ins j _ j).isRingReady (s.link j)
    rw [Function.update_self]
    exact { h.link j with early := fun hno => by cases hno }
  · show Link.Sound k (Function.update s.ins i _ j).isRingReady (s.link j)
    rw [Function.update_of_ne hj]
    exact h.link j

theorem Sound.step (h : s.Sound k) (hk : k < 32) {e : BackboneEvent} (hG : s.answers e)
    (hstep : s.step k e = some s') : s'.Sound k := by
  cases e with
  | insReady i domid => exact h.insReady hstep
  | link i e =>
      cases e with
      | ring r => exact h.external hk hG hstep
      | _ => exact (h.internal hk rfl hstep).1
  | irqEventHandler _ | nextRing | down | getNextResponse | markResponseConsumed =>
      exact (h.internal hk rfl hstep).1

theorem Sound.run (hk : k < 32) {es : List BackboneEvent}
    (hG : (backbone k).Guarded answers es) (hrun : (backbone k).run es = some s) : s.Sound k :=
  (backbone k).guarded_invariant (Sound.init k) (fun _ _ _ hG hstep h => h.step hk hG hstep) hG hrun

/-! ## Rest -/

theorem Sound.read_all (h : s.Sound k) {i : Fin maxInsCount} (hwaiting : (s.link i).waiting = true)
    (hcount : (s.link i).messagesAvailable = 0) (hunsent : (s.link i).unsent = false)
    (hpending : (s.link i).requestPending = false) :
    (s.link i).ring.read = (s.link i).ring.published := by
  have hlink := h.link i
  have hlooker : (s.link i).requestDoor.looker = .scan [] := by
    simp only [Link.requestDoor, hwaiting, hlink.waits hwaiting, Bool.false_eq_true, if_false,
      if_true]
  have hnone := hlink.alert.idle (fun _ => hunsent) (fun _ => hpending) hcount hlooker ()
  exact hlink.ring.read.eq_of_length_le (Nat.sub_eq_zero_iff_le.mp hnone)

theorem Sound.returned_all (h : s.Sound k) (hscan : s.consumer = .scan 0)
    (hcount : s.eventChannelSem = 0) (hquiet : ∀ i, (s.link i).unnotified = false ∧
      (s.link i).responsePending = false) (i : Fin maxInsCount) :
    (s.link i).ring.returned = (s.link i).ring.written := by
  have hidle : (s.link i).ring.consumer = .idle := by
    rw [h.consumer i, hscan]
    rfl
  have hlooker : s.responseDoor.looker = .scan [] := by
    rw [responseDoor, hscan]
    rfl
  have hnone := h.alert.idle (fun j => (hquiet j).1) (fun j => (hquiet j).2) hcount hlooker i
  have hconsumed : (s.link i).ring.consumed = (s.link i).ring.returned.length := by
    simp [Ring.consumed, hidle]
  refine (h.link i).ring.returned.eq_of_length_le ?_
  rw [← hconsumed]
  exact Nat.sub_eq_zero_iff_le.mp hnone

/-- Nothing is left to do but to send and to write. -/
def AtRest (k : Nat) (s : Backbone) : Prop := ∀ e, isInternal e = true → s.step k e = none

def internalEvents : List BackboneEvent :=
  ((List.finRange maxInsCount).flatMap fun i =>
    .irqEventHandler i :: [.mwXenSendEvent, .bindInterdomain, .unmaskEvtchn, .mwXenBindEvtChn,
      .eventCallback, .requestAvailable, .semaphoreDown, .readItem, .sendEvent].map (.link i)) ++
  [.nextRing, .down, .getNextResponse, .markResponseConsumed]

theorem mem_internalEvents {e : BackboneEvent} (he : isInternal e = true) : e ∈ internalEvents := by
  cases e with
  | insReady i domid => cases he
  | link i e =>
      refine List.mem_append_left _ (List.mem_flatMap.mpr ⟨i, List.mem_finRange i, ?_⟩)
      cases e with
      | ring r => cases he
      | _ => simp
  | irqEventHandler i =>
      exact List.mem_append_left _ (List.mem_flatMap.mpr ⟨i, List.mem_finRange i, List.mem_cons_self⟩)
  | nextRing | down | getNextResponse | markResponseConsumed =>
      exact List.mem_append_right _ (by simp)

instance (s : Backbone) : Decidable (s.AtRest k) :=
  decidable_of_iff (∀ e ∈ internalEvents, isInternal e = true → s.step k e = none)
    ⟨fun h e he => h e (mem_internalEvents he) he, fun h e _ => h e⟩

theorem AtRest.link (hrest : s.AtRest k) (i : Fin maxInsCount) :
    (s.link i).waiting = true ∧ (s.link i).messagesAvailable = 0 ∧ (s.link i).unsent = false ∧
      (s.link i).requestPending = false ∧ (s.link i).unnotified = false ∧
      (s.link i).responsePending = false ∧ (s.link i).irq = true := by
  have hlink (e : LinkEvent) (he : isInternal (.link i e) = true) :
      (s.link i).step k (s.ins i).isRingReady e = none :=
    Option.map_eq_none_iff.mp (hrest (.link i e) he)
  have hport : (s.link i).port = .unmasked := by
    have hbind := hlink .bindInterdomain rfl
    have hunmask := hlink .unmaskEvtchn rfl
    simp only [Link.step] at hbind hunmask
    split_ifs at hbind hunmask with hunbound hmasked
    cases hp : (s.link i).port with
    | unbound => exact absurd hp hunbound
    | masked => exact absurd hp hmasked
    | unmasked => rfl
  have hirq : (s.link i).irq = true := by
    have hbind := hlink .mwXenBindEvtChn rfl
    simp only [Link.step, hport, true_and] at hbind
    split_ifs at hbind with hno
    simpa using hno
  have hreading : (s.link i).ring.reading = false := by
    by_contra hyes
    have hread := Option.map_eq_none_iff.mp (hlink .readItem rfl)
    simp only [Ring.step, Ring.back, if_pos (by simpa using hyes : (s.link i).ring.reading = true)]
      at hread
    cases hread
  have hwaiting : (s.link i).waiting = true := by
    by_contra hno
    have hlook := hlink .requestAvailable rfl
    have hreads : (s.link i).reads = true := by simpa [Link.reads, hport] using hno
    simp only [Link.step, hreads, hreading, and_self, if_true] at hlook
    split at hlook <;> cases hlook
  refine ⟨hwaiting, ?_, ?_, ?_, ?_, ?_, hirq⟩
  · have hdown := hlink .semaphoreDown rfl
    simp only [Link.step, hwaiting, true_and] at hdown
    split_ifs at hdown with hcount
    omega
  · have hsend := hlink .mwXenSendEvent rfl
    simp only [Link.step] at hsend
    split_ifs at hsend with hunsent
    simpa using hunsent
  · have hcallback := hlink .eventCallback rfl
    simp only [Link.step, hport, true_and] at hcallback
    split_ifs at hcallback with hpending
    simpa using hpending
  · have hsend := hlink .sendEvent rfl
    simp only [Link.step] at hsend
    split_ifs at hsend with hunnotified
    simpa using hunnotified
  · have hhandler := hrest (.irqEventHandler i) rfl
    simp only [Backbone.step, hirq, true_and] at hhandler
    split_ifs at hhandler with hpending
    simpa using hpending

theorem Sound.consumer_of_atRest (h : s.Sound k) (hrest : s.AtRest k) :
    s.consumer = .scan 0 ∧ s.eventChannelSem = 0 := by
  cases hc : s.consumer with
  | scan rounds =>
      cases rounds with
      | zero =>
          have hdown := hrest .down rfl
          simp only [Backbone.step, hc, true_and] at hdown
          split_ifs at hdown with hcount
          exact ⟨rfl, by omega⟩
      | succ rounds =>
          have hnext := hrest .nextRing rfl
          simp only [Backbone.step, hc] at hnext
          split at hnext
          · cases hnext
          · split at hnext <;> cases hnext
  | found i =>
      have hget := hrest .getNextResponse rfl
      have havailable : (s.link i).ring.consumer = .available := by
        rw [h.consumer i, hc]
        exact if_pos rfl
      simp only [Backbone.step, hc, Option.map_eq_none_iff, Ring.step, Ring.front, havailable,
        if_true] at hget
      split at hget
      · split_ifs at hget
      · cases hget
  | held i =>
      have hmark := hrest .markResponseConsumed rfl
      have hholding : (s.link i).ring.consumer = .holding := by
        rw [h.consumer i, hc]
        exact if_pos rfl
      simp only [Backbone.step, hc, Option.map_eq_none_iff, Ring.step, Ring.front, hholding,
        if_true] at hmark
      cases hmark
  | stopped => exact absurd hc h.running

end Backbone

/-- The INS binds its port only after the event for the first request is lost. -/
def lateBind : List BackboneEvent :=
  let request : MtRequest := { type := .socketRecv, size := mtRequestSocketRecvSize, id := 1 }
  let response : MtResponse :=
    { sig := mtSignatureResponse, type := .of .socketRecv, size := mtResponseSocketRecvSize, id := 1 }
  [.insReady insZero 5, .nextRing] ++
    [.ring (.lock 7 true), .ring .tryRing, .ring (.fill request), .ring .release, .mwXenSendEvent,
     .bindInterdomain, .unmaskEvtchn, .requestAvailable, .readItem, .requestAvailable,
     .ring (.writeItem response), .ring .pushResponse].map (.link insZero)

/-- The driver hears of the response, whose event it has not seen, and finds it. -/
def lateBindRest : List BackboneEvent :=
  [.nextRing, .nextRing, .link insZero .sendEvent, .link insZero .mwXenBindEvtChn,
   .irqEventHandler insZero, .down, .nextRing, .getNextResponse, .markResponseConsumed,
   .nextRing, .nextRing, .nextRing]

/-- The other two INSs register as well. -/
def allBound : List BackboneEvent :=
  lateBindRest ++ ([.bindInterdomain, .unmaskEvtchn, .mwXenBindEvtChn, .requestAvailable].flatMap
    fun e => [.link insOne e, .link ⟨2, by decide⟩ e])

end MagicWand
