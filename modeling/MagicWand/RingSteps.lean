import MagicWand.Ring

/-!
# What each party does at a ring

The steps at a ring belong to three parties: those of a thread that sends and of the INS
when it writes, which only add to a stream; those of the reader; and those of the
consumer. Each leaves alone what belongs to the others.
-/

namespace MagicWand

open Foundation

/-- A step of a thread that sends, or of the INS when it writes. -/
def RingEvent.isSend : RingEvent → Bool
  | .lock .. | .tryRing | .fill _ | .release | .writeItem _ | .pushResponse => true
  | .responseAvailable | .getNextResponse | .markResponseConsumed | .requestAvailable
  | .readItem => false

namespace Ring

variable {k : Nat} {r r' : Ring}

/-- What a thread that sends, and the INS when it writes, do to the two streams. -/
inductive Sends (r r' : Ring) : RingEvent → Prop where
  | nothing (e : RingEvent) (hpublished : r'.published = r.published)
      (hreqProd : r'.reqProd = r.reqProd) (hwritten : r'.written = r.written)
      (hrspProd : r'.rspProd = r.rspProd) (hwriting : r'.writing = r.writing) : Sends r r' e
  | copy (resp : MtResponse) (hpublished : r'.published = r.published)
      (hreqProd : r'.reqProd = r.reqProd) (hwritten : r'.written = r.written)
      (hrspProd : r'.rspProd = r.rspProd) (hwriting : r'.writing = some resp) :
      Sends r r' (.writeItem resp)
  | request (req : MtRequest) (hfilled : ∃ t currReq, r.sender = .filled t currReq req)
      (hpublished : r'.published = r.published ++ [req])
      (hreqProd : r'.reqProd = r.reqProdPvt + 1) (hwritten : r'.written = r.written)
      (hrspProd : r'.rspProd = r.rspProd) (hwriting : r'.writing = r.writing)
      (hunlocked : r'.sender = .unlocked) : Sends r r' .release
  | response (resp : MtResponse) (hcopied : r.writing = some resp)
      (hpublished : r'.published = r.published) (hreqProd : r'.reqProd = r.reqProd)
      (hwritten : r'.written = r.written ++ [resp]) (hrspProd : r'.rspProd = r.rspProdPvt + 1)
      (hwriting : r'.writing = none) : Sends r r' .pushResponse

/-- What they leave alone. -/
structure SendFrame (r r' : Ring) (e : RingEvent) : Prop where
  read : r'.read = r.read
  returned : r'.returned = r.returned
  consumer : r'.consumer = r.consumer
  reading : r'.reading = r.reading
  sends : Sends r r' e

theorem sendFrame_of_step {e : RingEvent} (hsend : e.isSend = true)
    (hstep : r.step k e = some r') : SendFrame r r' e := by
  cases e with
  | lock t waitForRing =>
      simp only [Ring.step, Ring.front] at hstep
      split at hstep
      · cases hstep
        exact ⟨rfl, rfl, rfl, rfl, .nothing _ rfl rfl rfl rfl rfl⟩
      · cases hstep
  | tryRing =>
      simp only [Ring.step, Ring.front] at hstep
      split at hstep
      · split_ifs at hstep <;> cases hstep <;>
          exact ⟨rfl, rfl, rfl, rfl, .nothing _ rfl rfl rfl rfl rfl⟩
      · cases hstep
  | fill req =>
      simp only [Ring.step, Ring.front] at hstep
      split at hstep
      · split_ifs at hstep
        cases hstep
        exact ⟨rfl, rfl, rfl, rfl, .nothing _ rfl rfl rfl rfl rfl⟩
      · cases hstep
  | release =>
      simp only [Ring.step, Ring.front] at hstep
      split at hstep
      · cases hstep
        exact ⟨rfl, rfl, rfl, rfl, .nothing _ rfl rfl rfl rfl rfl⟩
      · cases hstep
        exact ⟨rfl, rfl, rfl, rfl, .nothing _ rfl rfl rfl rfl rfl⟩
      · rename_i t currReq req hfilled
        split at hstep
        · split_ifs at hstep
          · cases hstep
            exact ⟨rfl, rfl, rfl, rfl, .request req ⟨t, currReq, hfilled⟩ rfl rfl rfl rfl rfl rfl⟩
          · cases hstep
            exact ⟨rfl, rfl, rfl, rfl, .nothing _ rfl rfl rfl rfl rfl⟩
        · cases hstep
          exact ⟨rfl, rfl, rfl, rfl, .nothing _ rfl rfl rfl rfl rfl⟩
      · cases hstep
  | writeItem resp =>
      simp only [Ring.step, Ring.back] at hstep
      split at hstep
      · cases hstep
        exact ⟨rfl, rfl, rfl, rfl, .copy resp rfl rfl rfl rfl rfl⟩
      · cases hstep
  | pushResponse =>
      simp only [Ring.step, Ring.back] at hstep
      split at hstep
      · cases hstep
      · rename_i resp hcopied
        cases hstep
        exact ⟨rfl, rfl, rfl, rfl, .response resp hcopied rfl rfl rfl rfl rfl⟩
  | responseAvailable | getNextResponse | markResponseConsumed | requestAvailable | readItem =>
      cases hsend

/-- Before the ring is ready, no thread sends. -/
theorem unlocked_of_step {e : RingEvent} (hsender : r.sender = .unlocked)
    (hsend : e.isSend = true) (hlock : ∀ t waitForRing, e ≠ .lock t waitForRing) (hstep : r.step k e = some r') :
    r'.sender = .unlocked ∧ r'.published = r.published := by
  cases e with
  | tryRing | fill _ | release =>
      simp only [Ring.step, Ring.front, hsender] at hstep
      cases hstep
  | writeItem resp =>
      simp only [Ring.step, Ring.back] at hstep
      split at hstep
      · cases hstep
        exact ⟨hsender, rfl⟩
      · cases hstep
  | pushResponse =>
      simp only [Ring.step, Ring.back] at hstep
      split at hstep
      · cases hstep
      · cases hstep
        exact ⟨hsender, rfl⟩
  | lock t waitForRing => exact absurd rfl (hlock t waitForRing)
  | responseAvailable | getNextResponse | markResponseConsumed | requestAvailable | readItem =>
      cases hsend

/-- A slot is filled by the thread that has been granted it. -/
theorem filled_of_step {e : RingEvent} (hstep : r.step k e = some r') {t : Nat} {currReq : RingIdx}
    {req : MtRequest} (hfilled : r'.sender = .filled t currReq req) :
    r.sender = .filled t currReq req ∨ e = .fill req := by
  cases e with
  | lock t waitForRing =>
      simp only [Ring.step, Ring.front] at hstep
      split at hstep
      · cases hstep
        cases hfilled
      · cases hstep
  | tryRing =>
      simp only [Ring.step, Ring.front] at hstep
      split at hstep
      · split_ifs at hstep <;> cases hstep
        · cases hfilled
        · cases hfilled
        · exact .inl hfilled
      · cases hstep
  | fill req' =>
      simp only [Ring.step, Ring.front] at hstep
      split at hstep
      · split_ifs at hstep
        cases hstep
        cases hfilled
        exact .inr rfl
      · cases hstep
  | release =>
      simp only [Ring.step, Ring.front] at hstep
      split at hstep
      · cases hstep
        cases hfilled
      · cases hstep
        cases hfilled
      · split at hstep
        · split_ifs at hstep <;> cases hstep <;> cases hfilled
        · cases hstep
          cases hfilled
      · cases hstep
  | writeItem resp =>
      simp only [Ring.step, Ring.back] at hstep
      split at hstep
      · cases hstep
        exact .inl hfilled
      · cases hstep
  | pushResponse =>
      simp only [Ring.step, Ring.back] at hstep
      split at hstep
      · cases hstep
      · cases hstep
        exact .inl hfilled
  | responseAvailable | markResponseConsumed =>
      simp only [Ring.step, Ring.front] at hstep
      split_ifs at hstep
      cases hstep
      exact .inl hfilled
  | getNextResponse =>
      simp only [Ring.step, Ring.front] at hstep
      split_ifs at hstep
      split at hstep
      · split_ifs at hstep <;> cases hstep <;> exact .inl hfilled
      · cases hstep
        exact .inl hfilled
  | requestAvailable | readItem =>
      simp only [Ring.step, Ring.back] at hstep
      split_ifs at hstep
      cases hstep
      exact .inl hfilled

/-- What the consumer leaves alone. -/
structure ConsumeFrame (r r' : Ring) : Prop where
  published : r'.published = r.published
  read : r'.read = r.read
  written : r'.written = r.written
  reading : r'.reading = r.reading
  writing : r'.writing = r.writing
  sender : r'.sender = r.sender

theorem consumeFrame_of_step {e : RingEvent} (hstep : r.step k e = some r')
    (he : e = .responseAvailable ∨ e = .getNextResponse ∨ e = .markResponseConsumed) :
    ConsumeFrame r r' := by
  rcases he with rfl | rfl | rfl
  · simp only [Ring.step, Ring.front] at hstep
    split_ifs at hstep
    cases hstep
    exact ⟨rfl, rfl, rfl, rfl, rfl, rfl⟩
  · simp only [Ring.step, Ring.front] at hstep
    split_ifs at hstep
    split at hstep
    · split_ifs at hstep <;> cases hstep <;> exact ⟨rfl, rfl, rfl, rfl, rfl, rfl⟩
    · cases hstep
      exact ⟨rfl, rfl, rfl, rfl, rfl, rfl⟩
  · simp only [Ring.step, Ring.front] at hstep
    split_ifs at hstep
    cases hstep
    exact ⟨rfl, rfl, rfl, rfl, rfl, rfl⟩

/-! The steps of the reader and of the consumer. -/

theorem step_requestAvailable (h : Sound k r) (hk : k < 32) (hreading : r.reading = false) :
    (r.read.length < r.published.length ∧
      r.step k .requestAvailable = some { r with reading := true }) ∨
    (r.published.length = r.read.length ∧ r.step k .requestAvailable = none) := by
  have hread := h.read_le
  simp only [Ring.step, Ring.back, hreading, Bool.not_false, Bool.true_and, decide_eq_true_eq]
  by_cases hne : r.ringHasUnconsumedRequests k ≠ 0
  · exact .inl ⟨(h.unconsumedRequests_iff hk).mp hne, if_pos hne⟩
  · refine .inr ⟨?_, if_neg hne⟩
    rw [h.unconsumedRequests_iff hk] at hne
    omega

/-- What the reader finds in the slot, unless there is something wrong with it. -/
def validRequest (k : Nat) (r : Ring) : Option MtRequest :=
  (r.requestAt (slotOf k r.reqCons)).filter fun q =>
    q.isRequest && decide (q.size ≤ mtRequestGenericSize)

/-- What a step of the reader does to the ring. -/
structure Reads (r r' : Ring) (req : MtRequest) : Prop where
  reading : r.reading = true
  done : r'.reading = false
  read : r'.read = r.read ++ [req]
  published : r'.published = r.published
  written : r'.written = r.written
  returned : r'.returned = r.returned
  consumer : r'.consumer = r.consumer
  writing : r'.writing = r.writing
  sender : r'.sender = r.sender

theorem reads_of_step (h : Sound k r) (hk : k < 32) (hstep : r.step k .readItem = some r') :
    ∃ req, validRequest k r = some req ∧ req ∈ r.published ∧ Reads r r' req := by
  simp only [Ring.step, Ring.back] at hstep
  split_ifs at hstep with hreading
  have hlt := h.reading hreading
  obtain ⟨hvalid, hsize⟩ := h.valid _ (List.getElem_mem hlt)
  have hgot : validRequest k r = some r.published[r.read.length] := by
    rw [validRequest, h.requestAt_next hk hlt, Option.filter_some, hvalid, decide_eq_true hsize]
    rfl
  rw [validRequest] at hgot
  rw [hgot] at hstep
  cases hstep
  exact ⟨_, hgot, List.getElem_mem hlt, ⟨hreading, rfl, rfl, rfl, rfl, rfl, rfl, rfl, rfl⟩⟩

theorem step_responseAvailable (h : Sound k r) (hk : k < 32) (hidle : r.consumer = .idle) :
    (r.consumed < r.written.length ∧ ∃ r', r.step k .responseAvailable = some r' ∧
      r'.consumer = .available ∧ r'.consumed = r.consumed) ∨
    (r.written.length = r.consumed ∧ r.step k .responseAvailable = none) := by
  have hle := h.consumed_le
  simp only [Ring.step, Ring.front, hidle, true_and]
  by_cases hne : r.ringHasUnconsumedResponses ≠ 0
  · refine .inl ⟨(h.unconsumedResponses_iff hk).mp hne, _, if_pos hne, rfl, ?_⟩
    simp [consumed, hidle]
  · refine .inr ⟨?_, if_neg hne⟩
    rw [h.unconsumedResponses_iff hk] at hne
    omega

theorem of_step_getNextResponse (h : Sound k r) (hk : k < 32)
    (hform : ∀ q ∈ r.written, q.isResponse = true) (hstep : r.step k .getNextResponse = some r') :
    r'.consumer = .holding ∧ r'.consumed = r.consumed := by
  simp only [Ring.step, Ring.front] at hstep
  split_ifs at hstep with havailable
  have hlt := h.available havailable
  have hcons : r.consumed = r.returned.length := by simp [consumed, havailable]
  have hnext : r.responseAt (slotOf k r.rspCons) = some r.written[r.returned.length] := by
    rw [h.responseAt_next hk (hcons ▸ hlt)]
    simp only [hcons]
  simp only [hnext, hform _ (List.getElem_mem hlt), if_true] at hstep
  cases hstep
  exact ⟨rfl, by simp [consumed, havailable]⟩

theorem of_step_markResponseConsumed (h : Sound k r)
    (hstep : r.step k .markResponseConsumed = some r') :
    r'.consumer = .idle ∧ r'.consumed = r.consumed + 1 ∧ r.consumed < r.written.length := by
  simp only [Ring.step, Ring.front] at hstep
  split_ifs at hstep with hholding
  cases hstep
  have hpos := h.holding hholding
  have hle := h.returned.length_le
  have hcons : r.consumed = r.returned.length - 1 := by simp [consumed, hholding]
  refine ⟨rfl, ?_, by omega⟩
  show r.returned.length = r.consumed + 1
  omega

end Ring

end MagicWand
