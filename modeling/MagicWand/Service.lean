import MagicWand.Ins.Order
import MagicWand.Ins.ResponseForm
import MagicWand.RingSteps
import Mathlib.Data.List.Perm.Subperm

/-!
# An INS behind its ring

The ring and the application of an INS put together: the dispatcher reads what
`xe_comms_read_item` takes off the ring, and what the application writes is what
`xe_comms_write_item` copies to it.

Each party relies on the others. The ring relies on the INS, which must not answer more
requests than it has read; the INS on the driver, whose requests must be well formed and
have new ids; and the consumer on the INS, whose responses must be responses. Here only
the driver's part and the outcomes of native calls are assumed.
-/

namespace MagicWand

open Foundation

structure Service where
  ring : Ring := {}
  app : Ins.State := {}

inductive ServiceEvent where
  /-- A step of the driver, a look of `xe_comms_read_item` at the ring, or the push of a
  response that has been copied to it. -/
  | ring (e : RingEvent)
  | app (e : Ins.Event)

namespace Service

variable (k : Nat) (clientId : BitVec 16)

/-- What `xe_comms_read_item` returns: the request in the slot and its size, or an error. -/
def returns (r : Ring) (size : Int) (req : MtRequest) : Bool :=
  match r.validRequest k with
  | some q => decide (req = q ∧ size = q.size)
  | none => decide (size < 0)

/-- A step of the application that does not read; what it writes is copied to the ring. -/
def appStep (s : Service) (e : Ins.Event) : Option Service :=
  ((Ins.ins clientId).step s.app e).bind fun app =>
    match app.g.ring.drop s.app.g.ring.length with
    | [] => some { s with app := app }
    | resp :: _ => (s.ring.step k (.writeItem resp)).map fun r => { ring := r, app := app }

def step (s : Service) : ServiceEvent → Option Service
  | .ring .readItem | .ring (.writeItem _) => none
  | .ring e => (s.ring.step k e).map fun r => { s with ring := r }
  | .app (.disp (.read size req)) =>
      if returns k s.ring size req then
        (s.ring.step k .readItem).bind fun r =>
          ((Ins.ins clientId).step s.app (.disp (.read size req))).map fun app =>
            { ring := r, app := app }
      else none
  | .app e => s.appStep k clientId e

/-- The driver sends requests that the dispatcher can process, with new ids, and the
application does not reserve a buffer item that is about to be released again and gets
outcomes that its handlers can report. -/
def orderly (s : Service) : ServiceEvent → Prop
  | .ring (.fill req) => Ins.goodRequest req ∧ ∀ r ∈ s.ring.published, r.id ≠ req.id
  | .ring _ | .app (.disp (.read ..)) => True
  | .app e => Ins.goodStep s.app e ∧ Ins.reportableStep s.app e

instance (s : Service) : (e : ServiceEvent) → Decidable (s.orderly e)
  | .ring (.fill _) => inferInstanceAs (Decidable (_ ∧ _))
  | .ring (.lock ..) | .ring .tryRing | .ring .release | .ring .responseAvailable
  | .ring .getNextResponse | .ring .markResponseConsumed | .ring .requestAvailable
  | .ring .readItem | .ring (.writeItem _) | .ring .pushResponse => isTrue trivial
  | .app (.disp (.read ..)) => isTrue trivial
  | .app (.disp .tau) | .app (.disp (.outcome _)) | .app (.worker ..) =>
      inferInstanceAs (Decidable (_ ∧ _))

end Service

/-- An INS with client id `clientId` and a ring of `2 ^ k` slots. -/
def service (k : Nat) (clientId : BitVec 16) : System Service ServiceEvent where
  init := {}
  step := Service.step k clientId

/-! ## What a step of the application adds -/

namespace Ins

variable {clientId : BitVec 16} {g g' : Globals} {f : Frame} {i : Input} {next : ProcNext}
  {s s' : State} {e : Event}

/-- At most one response. -/
def Adds (g g' : Globals) : Prop := g'.ring = g.ring ∨ ∃ resp, g'.ring = g.ring ++ [resp]

theorem ProcMove.adds (h : ProcMove clientId g f i g' next) : Adds g g' := by
  cases h with
  | issue | receive | retire => exact .inl rfl
  | finish => exact .inl (Quiet.finishHandler f _ g).ring
  | unlock => exact .inl (Quiet.unlockWorker g f.worker).ring
  | post => exact .inl (Quiet.postProcessResponse clientId f.req f.worker _ g).ring
  | @write rc resp hstage => exact .inr ⟨resp, rfl⟩
  | release => exact .inl rfl
  | retireSlot => exact .inl (Quiet.releaseWorkerThread g _).ring

theorem adds_of_step (h : (ins clientId).step s e = some s') : Adds s.g s'.g := by
  refine step_rule h (P := fun t => Adds s.g t.g) ?_ ?_
  · intro i g pc reads he hmove
    cases hmove with
    | running hpc hproc | returned hpc hproc => exact hproc.adds
    | failed => exact .inr ⟨_, rfl⟩
    | existing hpc ht hw => exact .inl (getWorkerThreadForFd_spec hw).2.ring
    | queueFull => exact .inl (Quiet.releaseOplock s.g _).ring
    | _ => exact .inl rfl
  · intro w i g pc he hw hmove
    cases hmove with
    | running hpc hproc | returned hpc hproc => exact hproc.adds
    | _ => exact .inl rfl

/-- The dispatcher reads in one place. -/
theorem read_of_step {size : Int} {req : MtRequest}
    (h : (ins clientId).step s (.disp (.read size req)) = some s') :
    (∃ b, s.disp = .read b) ∧ s'.g.ring = s.g.ring ∧
      s'.reads = if size < (mtRequestBaseSize : Int) ∨ oneRequestRegionSize < req.size then s.reads
        else s.reads ++ [req] := by
  obtain ⟨hmove, -⟩ := dispStep_move clientId h
  generalize s'.g = g, s'.disp = pc, s'.reads = reads at hmove ⊢
  cases hmove with
  | stop hpc hsize => exact ⟨⟨_, hpc⟩, rfl, (if_pos hsize).symm⟩
  | read hpc hsize => exact ⟨⟨_, hpc⟩, rfl, (if_neg hsize).symm⟩
  | running hpc hproc | returned hpc hproc => cases hproc

theorem reads_of_step (h : (ins clientId).step s e = some s')
    (he : ∀ size req, e ≠ .disp (.read size req)) : s'.reads = s.reads := by
  refine step_rule h (P := fun t => t.reads = s.reads) ?_ ?_
  · intro i g pc reads hi hmove
    cases hmove with
    | read hpc hsize => exact absurd hi (he _ _)
    | _ => rfl
  · intro w i g pc hi hw hmove
    rfl

theorem count_ring (hform : ∀ resp ∈ s.g.ring, resp.isResponse = true) {id : BitVec 64} :
    (s.g.ring.map MtResponse.id).count id = answered s.g id := by
  rw [answered, List.count_eq_countP, List.countP_map]
  refine List.countP_congr fun resp hresp => ?_
  have hsig := ((isResponse_iff resp).mp (hform resp hresp)).1
  simp [carries, hsig]

/-- The responses with an id are at most as many as the requests, so the responses are. -/
theorem length_ring_le (hbalanced : Balanced s)
    (hform : ∀ resp ∈ s.g.ring, resp.isResponse = true) : s.g.ring.length ≤ s.reads.length := by
  have hsub : (s.g.ring.map MtResponse.id).Subperm (s.reads.map MtRequest.id) := by
    refine List.subperm_ext_iff.mpr fun id _ => ?_
    have hreads : (s.reads.map MtRequest.id).count id = requested s id := by
      rw [requested, List.count_eq_countP, List.countP_map]
      rfl
    rw [count_ring hform, hreads]
    exact Nat.le.intro (hbalanced id)
  simpa only [List.length_map] using hsub.length_le

end Ins

namespace Service

/-! ## The invariant -/

structure Sound (k : Nat) (clientId : BitVec 16) (s : Service) : Prop where
  ring : s.ring.Sound k
  app : Ins.Sound clientId s.app
  formed : Ins.Formed clientId s.app
  running : s.ring.consumer ≠ .stopped
  reads : s.app.reads = s.ring.read
  writes : s.app.g.ring = s.ring.written ++ s.ring.writing.toList
  good : ∀ r ∈ s.ring.published, Ins.goodRequest r
  distinct : (s.ring.published.map MtRequest.id).Nodup
  filled : ∀ t currReq req, s.ring.sender = .filled t currReq req →
    Ins.goodRequest req ∧ ∀ r ∈ s.ring.published, r.id ≠ req.id

variable {k : Nat} {clientId : BitVec 16} {s s' : Service}

theorem Sound.init (k : Nat) (clientId : BitVec 16) : (service k clientId).init.Sound k clientId where
  ring := Ring.Sound.init k
  app := Ins.sound_init clientId
  formed := Ins.Formed.init clientId
  running h := by cases h
  reads := rfl
  writes := rfl
  good _ h := absurd h List.not_mem_nil
  distinct := List.nodup_nil
  filled _ _ _ h := by cases h

theorem Sound.isResponse (h : s.Sound k clientId) {resp : MtResponse}
    (hresp : resp ∈ s.ring.written ++ s.ring.writing.toList) : resp.isResponse = true :=
  (h.formed.ring resp (h.writes ▸ hresp)).1

/-- The consumer gets a response when it takes one. -/
theorem Sound.not_stopped (h : s.Sound k clientId) (hk : k < 32) {r : Ring} {e : RingEvent}
    (hstep : s.ring.step k e = some r) : r.consumer ≠ .stopped := by
  cases e with
  | lock _ _ | tryRing | fill _ | release | writeItem _ | pushResponse =>
      rw [(Ring.sendFrame_of_step rfl hstep).consumer]
      exact h.running
  | responseAvailable =>
      have hidle : s.ring.consumer = .idle := by
        by_contra hne
        simp only [Ring.step, Ring.front, hne, false_and, if_false] at hstep
        cases hstep
      rcases Ring.step_responseAvailable h.ring hk hidle with ⟨-, r', hr, havailable, -⟩ | ⟨-, hr⟩
      · cases hr.symm.trans hstep
        rw [havailable]
        decide
      · rw [hr] at hstep
        cases hstep
  | getNextResponse =>
      rw [(Ring.of_step_getNextResponse h.ring hk
        (fun q hq => h.isResponse (List.mem_append_left _ hq)) hstep).1]
      decide
  | markResponseConsumed =>
      rw [(Ring.of_step_markResponseConsumed h.ring hstep).1]
      decide
  | requestAvailable =>
      simp only [Ring.step, Ring.back] at hstep
      split_ifs at hstep
      cases hstep
      exact h.running
  | readItem =>
      obtain ⟨req, -, -, hreads⟩ := Ring.reads_of_step h.ring hk hstep
      rw [hreads.consumer]
      exact h.running

/-- A step at the ring that the application takes no part in. -/
theorem Sound.setRing (h : s.Sound k clientId) (hk : k < 32) {e : RingEvent} {r : Ring}
    (hstep : s.ring.step k e = some r) (hanswers : s.ring.answersOnce e)
    (hread : r.read = s.ring.read)
    (hwrites : r.written ++ r.writing.toList = s.ring.written ++ s.ring.writing.toList)
    (hpublished : r.published = s.ring.published) (hG : s.orderly (.ring e)) :
    Sound k clientId { s with ring := r } where
  ring := h.ring.step hk hanswers hstep
  app := h.app
  formed := h.formed
  running := h.not_stopped hk hstep
  reads := h.reads.trans hread.symm
  writes := h.writes.trans hwrites.symm
  good := hpublished ▸ h.good
  distinct := hpublished ▸ h.distinct
  filled := by
    intro t currReq req hfilled
    show _ ∧ ∀ q ∈ r.published, _
    rw [hpublished]
    rcases Ring.filled_of_step hstep hfilled with hold | rfl
    · exact h.filled t currReq req hold
    · exact hG

/-- The request in the slot is published. -/
theorem Sound.release (h : s.Sound k clientId) (hk : k < 32) {r : Ring} {req : MtRequest}
    (hstep : s.ring.step k .release = some r) (hframe : Ring.SendFrame s.ring r .release)
    (hfilled : ∃ t currReq, s.ring.sender = .filled t currReq req)
    (hpublished : r.published = s.ring.published ++ [req])
    (hwrites : r.written ++ r.writing.toList = s.ring.written ++ s.ring.writing.toList)
    (hunlocked : r.sender = .unlocked) : Sound k clientId { s with ring := r } := by
  obtain ⟨t, currReq, hfilled⟩ := hfilled
  obtain ⟨hgood, hnew⟩ := h.filled t currReq req hfilled
  refine
    { ring := h.ring.step hk (e := .release) trivial hstep
      app := h.app
      formed := h.formed
      running := h.not_stopped hk hstep
      reads := h.reads.trans hframe.read.symm
      writes := h.writes.trans hwrites.symm
      good := ?_
      distinct := ?_
      filled := ?_ }
  · intro q hq
    rcases List.mem_append.mp (hpublished ▸ hq) with hold | hlast
    · exact h.good q hold
    · exact List.mem_singleton.mp hlast ▸ hgood
  · show (r.published.map MtRequest.id).Nodup
    rw [hpublished, List.map_append]
    refine List.Nodup.append h.distinct (List.nodup_singleton _) ?_
    rintro id hid hlast
    obtain ⟨q, hq, rfl⟩ := List.mem_map.mp hid
    exact hnew q hq (List.mem_singleton.mp hlast)
  · intro t' currReq' req' hstill
    exact absurd (hunlocked.symm.trans hstill) (by simp)

theorem Sound.ringStep (h : s.Sound k clientId) (hk : k < 32) {e : RingEvent}
    (hG : s.orderly (.ring e)) (hstep : s.step k clientId (.ring e) = some s') :
    s'.Sound k clientId := by
  have hsend (hsend : e.isSend = true) (hwrite : ∀ resp, e ≠ .writeItem resp) {r : Ring}
      (hr : s.ring.step k e = some r) : Sound k clientId { s with ring := r } := by
    have hframe := Ring.sendFrame_of_step hsend hr
    have hanswers : s.ring.answersOnce e := by
      cases e with
      | writeItem resp => exact absurd rfl (hwrite resp)
      | _ => trivial
    cases hframe.sends with
    | nothing e hpublished hreqProd hwritten hrspProd hwriting =>
        exact h.setRing hk hr hanswers hframe.read (by rw [hwritten, hwriting]) hpublished hG
    | copy resp => exact absurd rfl (hwrite resp)
    | request req hfilled hpublished hreqProd hwritten hrspProd hwriting hunlocked =>
        exact h.release hk hr hframe hfilled hpublished (by rw [hwritten, hwriting]) hunlocked
    | response resp hcopied hpublished hreqProd hwritten hrspProd hwriting =>
        refine h.setRing hk hr hanswers hframe.read ?_ hpublished hG
        rw [hwritten, hwriting, hcopied]
        exact List.append_nil _
  have hconsume (he : e = .responseAvailable ∨ e = .getNextResponse ∨ e = .markResponseConsumed)
      (hanswers : s.ring.answersOnce e) {r : Ring} (hr : s.ring.step k e = some r) :
      Sound k clientId { s with ring := r } := by
    have hframe := Ring.consumeFrame_of_step hr he
    exact h.setRing hk hr hanswers hframe.read (by rw [hframe.written, hframe.writing])
      hframe.published hG
  cases e with
  | readItem => cases hstep
  | writeItem resp => cases hstep
  | lock _ _ | tryRing | fill _ | release | pushResponse =>
      obtain ⟨r, hr, rfl⟩ := Option.map_eq_some_iff.mp hstep
      exact hsend rfl (by simp) hr
  | responseAvailable | getNextResponse | markResponseConsumed =>
      obtain ⟨r, hr, rfl⟩ := Option.map_eq_some_iff.mp hstep
      exact hconsume (by simp) trivial hr
  | requestAvailable =>
      obtain ⟨r, hr, rfl⟩ := Option.map_eq_some_iff.mp hstep
      have hr' := hr
      simp only [Ring.step, Ring.back] at hr'
      split_ifs at hr'
      cases hr'
      exact h.setRing hk hr trivial rfl rfl rfl hG

/-- What the ring hands out is what the dispatcher relies on. -/
theorem Sound.handsOut (h : s.Sound k clientId) (hk : k < 32) {size : Int} {req : MtRequest}
    {r : Ring} {app : Ins.State} (hreturns : returns k s.ring size req = true)
    (hr : s.ring.step k .readItem = some r)
    (happ : (Ins.ins clientId).step s.app (.disp (.read size req)) = some app) :
    Ring.Reads s.ring r req ∧ app.reads = s.app.reads ++ [req] ∧ app.g.ring = s.app.g.ring ∧
      Ins.goodStep s.app (.disp (.read size req)) ∧
      Ins.reportableStep s.app (.disp (.read size req)) := by
  obtain ⟨q, hslot, hpublished, hreads⟩ := Ring.reads_of_step h.ring hk hr
  rw [returns, hslot, decide_eq_true_eq] at hreturns
  obtain ⟨rfl, rfl⟩ := hreturns
  obtain ⟨hrequest, hsize⟩ := h.ring.valid req hpublished
  have hadmitted : ¬ ((req.size : Int) < (mtRequestBaseSize : Int) ∨
      Ins.oneRequestRegionSize < req.size) := by
    simp only [MtRequest.isRequest, Bool.and_eq_true, decide_eq_true_eq] at hrequest
    have hbase := hrequest.2
    rw [Ins.oneRequestRegionSize]
    omega
  obtain ⟨⟨b, hpc⟩, hsame, hread⟩ := Ins.read_of_step happ
  rw [if_neg hadmitted] at hread
  -- What is read is new, since what has been published is.
  have hnew : ∀ q ∈ s.app.reads, q.id ≠ req.id := by
    have hstart := (h.ring.step hk (e := .readItem) trivial hr).read
    rw [hreads.read, hreads.published] at hstart
    have hnodup := (hstart.sublist.map MtRequest.id).nodup h.distinct
    rw [List.map_append, List.map_singleton] at hnodup
    intro q hq heq
    exact List.disjoint_of_nodup_append hnodup (List.mem_map_of_mem (h.reads ▸ hq))
      (List.mem_singleton.mpr heq)
  refine ⟨hreads, hread, hsame, ?_, ?_⟩
  · simp only [Ins.goodStep, hpc]
    exact ⟨h.good req hpublished, hnew⟩
  · simp only [Ins.reportableStep, hpc]

theorem Sound.read (h : s.Sound k clientId) (hk : k < 32) {size : Int} {req : MtRequest}
    (hstep : s.step k clientId (.app (.disp (.read size req))) = some s') :
    s'.Sound k clientId := by
  simp only [step] at hstep
  split_ifs at hstep with hreturns
  obtain ⟨r, hr, hstep⟩ := Option.bind_eq_some_iff.mp hstep
  obtain ⟨app, happ, rfl⟩ := Option.map_eq_some_iff.mp hstep
  obtain ⟨hreads, hread, hsame, hgood, hreportable⟩ := h.handsOut hk hreturns hr happ
  exact
    { ring := h.ring.step hk (e := .readItem) trivial hr
      app := Ins.sound_step clientId _ _ _ hgood happ h.app
      formed := Ins.Formed.step clientId _ _ _ hreportable happ h.formed
      running := h.not_stopped hk hr
      reads := by rw [hread, hreads.read, h.reads]
      writes := by rw [hsame, hreads.written, hreads.writing, h.writes]
      good := hreads.published ▸ h.good
      distinct := hreads.published ▸ h.distinct
      filled := fun t currReq q hfilled => by
        rw [hreads.sender] at hfilled
        exact hreads.published ▸ h.filled t currReq q hfilled }

/-- What the application writes answers a request that it has read, so there is a slot
for it. -/
theorem Sound.owed (h : s.Sound k clientId) {e : Ins.Event} {app : Ins.State} {resp : MtResponse}
    {r : Ring} (he : ∀ size req, e ≠ .disp (.read size req)) (hgood : Ins.goodStep s.app e)
    (hreportable : Ins.reportableStep s.app e) (happ : (Ins.ins clientId).step s.app e = some app)
    (hresp : app.g.ring = s.app.g.ring ++ [resp])
    (hr : s.ring.step k (.writeItem resp) = some r) :
    s.ring.writing = none ∧ s.ring.written.length < s.ring.read.length := by
  have hfree : s.ring.writing = none := by
    cases hw : s.ring.writing with
    | none => rfl
    | some resp' =>
        simp only [Ring.step, Ring.back, hw] at hr
        cases hr
  have hformed := Ins.Formed.step clientId _ _ _ hreportable happ h.formed
  have hlen := Ins.length_ring_le (Ins.sound_step clientId _ _ _ hgood happ h.app).balanced
    fun q hq => (hformed.ring q hq).1
  rw [hresp, Ins.reads_of_step happ he, h.reads, h.writes, hfree, List.length_append,
    List.length_append] at hlen
  exact ⟨hfree, Nat.lt_of_succ_le hlen⟩

theorem Sound.appStep (h : s.Sound k clientId) (hk : k < 32) {e : Ins.Event}
    (he : ∀ size req, e ≠ .disp (.read size req)) (hgood : Ins.goodStep s.app e)
    (hreportable : Ins.reportableStep s.app e) (hstep : s.appStep k clientId e = some s') :
    s'.Sound k clientId := by
  obtain ⟨app, happ, hstep⟩ := Option.bind_eq_some_iff.mp hstep
  have hsound := Ins.sound_step clientId _ _ _ hgood happ h.app
  have hformed := Ins.Formed.step clientId _ _ _ hreportable happ h.formed
  have hreads := Ins.reads_of_step happ he
  rcases Ins.adds_of_step happ with hsame | ⟨resp, hresp⟩
  · rw [hsame, List.drop_length] at hstep
    cases hstep
    exact { h with
      app := hsound
      formed := hformed
      reads := hreads.trans h.reads
      writes := hsame.trans h.writes }
  · rw [hresp, List.drop_left] at hstep
    obtain ⟨r, hr, rfl⟩ := Option.map_eq_some_iff.mp hstep
    obtain ⟨hfree, howed⟩ := h.owed he hgood hreportable happ hresp hr
    have hring := h.ring.step hk (e := .writeItem resp) howed hr
    have hrunning := h.not_stopped hk hr
    have hwrites := h.writes
    rw [hfree] at hwrites
    simp only [Ring.step, Ring.back, hfree] at hr
    cases hr
    exact
      { ring := hring
        app := hsound
        formed := hformed
        running := hrunning
        reads := hreads.trans h.reads
        writes := by rw [hresp, hwrites]; exact congrArg (· ++ [resp]) (List.append_nil _)
        good := h.good
        distinct := h.distinct
        filled := h.filled }

theorem Sound.step (h : s.Sound k clientId) (hk : k < 32) {e : ServiceEvent} (hG : s.orderly e)
    (hstep : s.step k clientId e = some s') : s'.Sound k clientId := by
  cases e with
  | ring e => exact h.ringStep hk hG hstep
  | app e =>
      cases e with
      | worker w i => exact h.appStep hk (by simp) hG.1 hG.2 hstep
      | disp i =>
          cases i with
          | read size req => exact h.read hk hstep
          | tau | outcome o => exact h.appStep hk (by simp) hG.1 hG.2 hstep

/-- A request that has been read is being processed, or there is a response to it. -/
theorem Sound.answered (h : s.Sound k clientId) {r : MtRequest} (hr : r ∈ s.ring.read) :
    Ins.InProgress s.app r.id ∨
      ∃ resp ∈ s.ring.written ++ s.ring.writing.toList, resp.id = r.id := by
  by_cases howed : 0 < Ins.owed s.app r.id
  · exact .inl (Ins.inProgress_of_owed h.app.orderly howed)
  · right
    have hbalanced := h.app.balanced r.id
    have hread : 0 < Ins.requested s.app r.id :=
      List.countP_pos_iff.mpr ⟨r, h.reads ▸ hr, by simp⟩
    obtain ⟨resp, hresp, hid⟩ := List.countP_pos_iff.mp (show 0 < Ins.answered s.app.g r.id by omega)
    simp only [Ins.carries, Bool.and_eq_true, beq_iff_eq] at hid
    exact ⟨resp, h.writes ▸ hresp, hid.2⟩

/-- No two responses have one id, and each has that of a request that was read. -/
theorem Sound.ids (h : s.Sound k clientId) :
    ((s.ring.written ++ s.ring.writing.toList).map MtResponse.id).Nodup ∧
    ∀ resp ∈ s.ring.written ++ s.ring.writing.toList, ∃ r ∈ s.ring.read, r.id = resp.id := by
  have hcount (id : BitVec 64) :
      ((s.ring.written ++ s.ring.writing.toList).map MtResponse.id).count id ≤
        Ins.requested s.app id := by
    have hbalanced := h.app.balanced id
    have hanswered : ((s.ring.written ++ s.ring.writing.toList).map MtResponse.id).count id =
        Ins.answered s.app.g id := by
      rw [← h.writes]
      exact Ins.count_ring fun q hq => (h.formed.ring q hq).1
    omega
  constructor
  · refine List.nodup_iff_count_le_one.mpr fun id => ?_
    exact (hcount id).trans (Ins.requested_le_one h.app.orderly.distinct id)
  · intro resp hresp
    have hpos : 0 < ((s.ring.written ++ s.ring.writing.toList).map MtResponse.id).count resp.id :=
      List.count_pos_iff.mpr (List.mem_map_of_mem hresp)
    obtain ⟨r, hr, hid⟩ := List.countP_pos_iff.mp (hpos.trans_le (hcount resp.id))
    exact ⟨r, h.reads ▸ hr, by simpa using hid⟩

theorem Sound.run (hk : k < 32) {es : List ServiceEvent}
    (hG : (service k clientId).Guarded orderly es) (hrun : (service k clientId).run es = some s) :
    s.Sound k clientId :=
  (service k clientId).guarded_invariant (Sound.init k clientId)
    (fun _ _ _ hG hstep h => h.step hk hG hstep) hG hrun

/-! ## What each party sees -/

/-- What a step is to the ring, … -/
def ringPart (k : Nat) (clientId : BitVec 16) (s : Service) : ServiceEvent → List RingEvent
  | .ring e => [e]
  | .app (.disp (.read ..)) => [.readItem]
  | .app e =>
      match (Ins.ins clientId).step s.app e with
      | some app => (app.g.ring.drop s.app.g.ring.length).map .writeItem
      | none => []

/-- … and to the application. -/
def appPart : ServiceEvent → List Ins.Event
  | .ring _ => []
  | .app e => [e]

/-- What the application relies on, the requests that it reads included. -/
def served (s : Ins.State) (e : Ins.Event) : Prop := Ins.goodStep s e ∧ Ins.reportableStep s e

/-- The two parts of a step, each of which meets what its party relies on. -/
structure Parts (k : Nat) (clientId : BitVec 16) (s s' : Service) (e : ServiceEvent) : Prop where
  ring : (ringProtocol k).runFrom s.ring (s.ringPart k clientId e) = some s'.ring
  answers : (ringProtocol k).GuardedFrom Ring.answersOnce s.ring (s.ringPart k clientId e)
  app : (Ins.ins clientId).runFrom s.app (appPart e) = some s'.app
  served : (Ins.ins clientId).GuardedFrom served s.app (appPart e)

theorem Sound.parts_app (h : s.Sound k clientId) {e : Ins.Event}
    (he : ∀ size req, e ≠ .disp (.read size req)) (hG : served s.app e)
    (hpart : s.ringPart k clientId (.app e) = match (Ins.ins clientId).step s.app e with
      | some app => (app.g.ring.drop s.app.g.ring.length).map .writeItem
      | none => [])
    (hstep : s.appStep k clientId e = some s') : Parts k clientId s s' (.app e) := by
  obtain ⟨app, happ, hstep⟩ := Option.bind_eq_some_iff.mp hstep
  rw [happ] at hpart
  change s.ringPart k clientId (.app e) = (app.g.ring.drop s.app.g.ring.length).map .writeItem at hpart
  have hserved := (Ins.ins clientId).guardedFrom_singleton (G := served) hG
  rcases Ins.adds_of_step happ with hsame | ⟨resp, hresp⟩
  · rw [hsame, List.drop_length] at hstep hpart
    cases hstep
    exact ⟨hpart ▸ rfl, hpart ▸ trivial, (Ins.ins clientId).runFrom_singleton happ, hserved⟩
  · rw [hresp, List.drop_left] at hstep hpart
    obtain ⟨r, hr, rfl⟩ := Option.map_eq_some_iff.mp hstep
    have howed := (h.owed he hG.1 hG.2 happ hresp hr).2
    refine ⟨?_, ?_, (Ins.ins clientId).runFrom_singleton happ, hserved⟩
    · rw [hpart]
      exact (ringProtocol k).runFrom_singleton hr
    · rw [hpart]
      exact (ringProtocol k).guardedFrom_singleton howed

theorem Sound.parts (h : s.Sound k clientId) (hk : k < 32) {e : ServiceEvent} (hG : s.orderly e)
    (hstep : s.step k clientId e = some s') : Parts k clientId s s' e := by
  cases e with
  | app e =>
      cases e with
      | worker w i => exact h.parts_app (by simp) hG rfl hstep
      | disp i =>
          cases i with
          | tau | outcome o => exact h.parts_app (by simp) hG rfl hstep
          | read size req =>
              simp only [Service.step] at hstep
              split_ifs at hstep with hreturns
              obtain ⟨r, hr, hstep⟩ := Option.bind_eq_some_iff.mp hstep
              obtain ⟨app, happ, rfl⟩ := Option.map_eq_some_iff.mp hstep
              obtain ⟨-, -, -, hserved⟩ := h.handsOut hk hreturns hr happ
              exact ⟨(ringProtocol k).runFrom_singleton hr,
                (ringProtocol k).guardedFrom_singleton trivial,
                (Ins.ins clientId).runFrom_singleton happ,
                (Ins.ins clientId).guardedFrom_singleton hserved⟩
  | ring e =>
      have hparts {r : Ring} (hr : s.ring.step k e = some r) (hanswers : s.ring.answersOnce e) :
          Parts k clientId s { s with ring := r } (.ring e) :=
        ⟨(ringProtocol k).runFrom_singleton hr, (ringProtocol k).guardedFrom_singleton hanswers,
          rfl, trivial⟩
      cases e with
      | readItem => cases hstep
      | writeItem resp => cases hstep
      | _ =>
          obtain ⟨r, hr, rfl⟩ := Option.map_eq_some_iff.mp hstep
          exact hparts hr trivial

/-- What a run is to the application. -/
theorem app_run (hk : k < 32) {es : List ServiceEvent}
    (hG : (service k clientId).Guarded orderly es) (hrun : (service k clientId).run es = some s) :
    (Ins.ins clientId).run ((service k clientId).history (fun _ => appPart) es) = some s.app ∧
      (Ins.ins clientId).Guarded served
        ((service k clientId).history (fun _ => appPart) es) := by
  have happ : s.Sound k clientId ∧
      (Ins.ins clientId).run ((service k clientId).history (fun _ => appPart) es) = some s.app ∧
      (Ins.ins clientId).Guarded served ((service k clientId).history (fun _ => appPart) es) := by
    refine (service k clientId).guarded_history (I := fun seen (t : Service) =>
      t.Sound k clientId ∧ (Ins.ins clientId).run seen = some t.app ∧
        (Ins.ins clientId).Guarded served seen)
      ⟨Sound.init k clientId, rfl, trivial⟩ ?_ hG hrun
    rintro seen t e t' hguard hstep ⟨h, hseen, hserved⟩
    have hparts := h.parts hk hguard hstep
    exact ⟨h.step hk hguard hstep, (Ins.ins clientId).run_append hseen hparts.app,
      (Ins.ins clientId).guardedFrom_append hseen hserved hparts.served⟩
  exact happ.2

theorem served.releasedOnce {t : Ins.State} {e : Ins.Event} (h : served t e) :
    Ins.releasedOnce t e := by
  have hgood := h.1
  cases e with
  | worker w i => trivial
  | disp i =>
      cases hpc : t.disp with
      | reserve =>
          simp only [Ins.goodStep, hpc] at hgood
          simp only [Ins.releasedOnce, hpc]
          exact hgood
      | _ => simp only [Ins.releasedOnce, hpc]

/-- What the dispatcher and the workers of a run do with the requests. -/
def orders (k : Nat) (clientId : BitVec 16) (es : List ServiceEvent) : List Ins.OrderMark :=
  (Ins.ins clientId).history (Ins.orderMarks clientId)
    ((service k clientId).history (fun _ => appPart) es)

end Service

/-- The ring and the INS together: no unread message is overwritten and the consumer is
never stopped; no two responses have one id, and each has that of a request that the INS
has read; and a request that was sent waits on the ring, or is being processed, or has a
response, and the driver gets the responses in the order in which they are written. -/
theorem service_exactly_once (k : Nat) (hk : k < 32) (clientId : BitVec 16)
    (es : List ServiceEvent) (s : Service) (hG : (service k clientId).Guarded Service.orderly es)
    (hrun : (service k clientId).run es = some s) :
    s.ring.clobbered = false ∧ s.ring.consumer ≠ .stopped ∧
    s.ring.returned <+: s.ring.written ∧ s.ring.read <+: s.ring.published ∧
    (s.ring.written.map MtResponse.id).Nodup ∧
    (∀ resp ∈ s.ring.written, resp.isResponse = true ∧ ∃ r ∈ s.ring.read, r.id = resp.id) ∧
    ∀ r ∈ s.ring.published, r ∈ s.ring.published.drop s.ring.read.length ∨
      Ins.InProgress s.app r.id ∨
      ∃ resp ∈ s.ring.written ++ s.ring.writing.toList, resp.id = r.id := by
  have h := Service.Sound.run hk hG hrun
  obtain ⟨hnodup, hids⟩ := h.ids
  refine ⟨h.ring.clean, h.running, h.ring.returned, h.ring.read, ?_, ?_, ?_⟩
  · rw [List.map_append] at hnodup
    exact hnodup.of_append_left
  · intro resp hresp
    have hmem : resp ∈ s.ring.written ++ s.ring.writing.toList := List.mem_append_left _ hresp
    exact ⟨h.isResponse hmem, hids resp hmem⟩
  · intro r hr
    obtain ⟨rest, hrest⟩ := h.ring.read
    rw [← hrest] at hr
    rcases List.mem_append.mp hr with hread | hwaiting
    · exact .inr (h.answered hread)
    · left
      rw [← hrest, List.drop_left]
      exact hwaiting

/-- A socket is created. -/
def createServed : List ServiceEvent :=
  [.ring (.lock 0 true), .ring .tryRing, .ring (.fill (Ins.createRequest 1)), .ring .release,
   .ring .requestAvailable] ++ (Ins.serveEvents (Ins.createRequest 1) { ret := 3 }).map .app ++
  [.ring .pushResponse, .ring .responseAvailable, .ring .getNextResponse,
   .ring .markResponseConsumed]

theorem service_exactly_once_createServed :
    ∃ s, (service 1 1).run createServed = some s ∧
      s.ring.published.map MtRequest.id = [1] ∧ s.ring.returned.map MtResponse.id = [1] ∧
      s.ring.clobbered = false ∧ (s.ring.written.map MtResponse.id).Nodup := by
  have hsome : ((service 1 1).run createServed).map (fun s =>
      (s.ring.published.map MtRequest.id, s.ring.returned.map MtResponse.id)) =
        some ([1], [1]) := by
    decide +kernel
  obtain ⟨s, hs, hview⟩ := Option.map_eq_some_iff.mp hsome
  obtain ⟨hreqs, hrsps⟩ := Prod.mk.inj hview
  have hsafe := service_exactly_once 1 (by decide) 1 createServed s (by decide +kernel) hs
  exact ⟨s, hs, hreqs, hrsps, hsafe.1, hsafe.2.2.2.2.1⟩

/-- Each party gets what it relies on: what a run is to the ring is a run in which the INS
answers each request that it has read at most once, and what it is to the application is a
run in which the requests that it reads are new and can be processed. -/
theorem service_parts (k : Nat) (hk : k < 32) (clientId : BitVec 16) (es : List ServiceEvent)
    (s : Service) (hG : (service k clientId).Guarded Service.orderly es)
    (hrun : (service k clientId).run es = some s) :
    ((ringProtocol k).run ((service k clientId).history (Service.ringPart k clientId) es) =
        some s.ring ∧
      (ringProtocol k).Guarded Ring.answersOnce
        ((service k clientId).history (Service.ringPart k clientId) es)) ∧
    (Ins.ins clientId).run ((service k clientId).history (fun _ => Service.appPart) es) =
        some s.app ∧
      (Ins.ins clientId).Guarded Service.served
        ((service k clientId).history (fun _ => Service.appPart) es) := by
  have hinit := Service.Sound.init k clientId
  constructor
  · have hring : s.Sound k clientId ∧
        (ringProtocol k).run ((service k clientId).history (Service.ringPart k clientId) es) =
          some s.ring ∧
        (ringProtocol k).Guarded Ring.answersOnce
          ((service k clientId).history (Service.ringPart k clientId) es) := by
      refine (service k clientId).guarded_history (I := fun seen (t : Service) =>
        t.Sound k clientId ∧ (ringProtocol k).run seen = some t.ring ∧
          (ringProtocol k).Guarded Ring.answersOnce seen) ⟨hinit, rfl, trivial⟩ ?_ hG hrun
      rintro seen t e t' hguard hstep ⟨h, hseen, hanswers⟩
      have hparts := h.parts hk hguard hstep
      exact ⟨h.step hk hguard hstep, (ringProtocol k).run_append hseen hparts.ring,
        (ringProtocol k).guardedFrom_append hseen hanswers hparts.answers⟩
    exact hring.2
  · exact Service.app_run hk hG hrun

theorem service_parts_createServed :
    ∃ s, (service 1 1).run createServed = some s ∧
      ((ringProtocol 1).run ((service 1 1).history (Service.ringPart 1 1) createServed)).map
        (fun r => r.returned.map MtResponse.id) = some [1] ∧
      (ringProtocol 1).Guarded Ring.answersOnce
        ((service 1 1).history (Service.ringPart 1 1) createServed) := by
  have hsome : ((service 1 1).run createServed).map (fun s => s.ring.returned.map MtResponse.id) =
      some [1] := by
    decide +kernel
  obtain ⟨s, hs, hview⟩ := Option.map_eq_some_iff.mp hsome
  obtain ⟨⟨hrun, hguarded⟩, -⟩ := service_parts 1 (by decide) 1 createServed s (by decide +kernel) hs
  exact ⟨s, hs, by rw [hrun, Option.map_some, hview], hguarded⟩

/-- The dispatcher settles the requests one after the other in the order in which they were
sent, and the requests that it queues for a worker are those that the worker has started, in
that order, and those that are waiting for it; of the requests that were sent on one socket
the workers start each at most once, in the order in which they were sent. -/
theorem requests_start_in_order (k : Nat) (hk : k < 32) (clientId : BitVec 16)
    (es : List ServiceEvent) (s : Service) (hG : (service k clientId).Guarded Service.orderly es)
    (hrun : (service k clientId).run es = some s) :
    ((((Service.orders k clientId es).filterMap Ins.OrderMark.settled).map Prod.fst ++
        s.app.disp.pending s.app.g <+: s.ring.published) ∧
      ∀ w < Ins.maxThreadCount,
        (Service.orders k clientId es).filterMap (Ins.OrderMark.startedBy w) ++
          Ins.waitingFor s.app.g w =
        (Service.orders k clientId es).filterMap (Ins.OrderMark.queuedFor w)) ∧
    (((Service.orders k clientId es).filterMap Ins.OrderMark.started).map MtRequest.id).Nodup ∧
    ∀ fd, mwSocketIsFd fd = true →
      (((Service.orders k clientId es).filterMap Ins.OrderMark.started).filter
        (·.sockfd = fd)).Sublist (s.ring.published.filter (·.sockfd = fd)) := by
  have h := Service.Sound.run hk hG hrun
  obtain ⟨happ, hserved⟩ := Service.app_run hk hG hrun
  have horder : Ins.InOrder clientId (Service.orders k clientId es) s.app :=
    .run (System.GuardedFrom.mono _ (fun _ _ => Service.served.releasedOnce) hserved) happ
  have hread : s.app.reads <+: s.ring.published := h.reads ▸ h.ring.read
  refine ⟨⟨horder.settled ▸ hread, horder.started⟩, ?_, fun fd hfd => ?_⟩
  · exact horder.started_nodup ((hread.sublist.map MtRequest.id).nodup h.distinct)
  · exact (horder.started_on_socket hfd).trans (hread.sublist.filter _)

def sendEvents (req : MtRequest) : List ServiceEvent :=
  [.ring (.lock 0 true), .ring .tryRing, .ring (.fill req), .ring .release,
   .ring .requestAvailable]

/-- A socket is created and two receives on it are queued; its worker has started one. -/
def receivesQueued : List ServiceEvent :=
  sendEvents (Ins.createRequest 1) ++
  (Ins.serveEvents (Ins.createRequest 1) { ret := 3 }).map .app ++
  [.ring .pushResponse, .ring .responseAvailable, .ring .getNextResponse,
   .ring .markResponseConsumed] ++
  [2, 3].flatMap (fun id => sendEvents (Ins.recvRequest id) ++
    (Ins.queueEvents (Ins.recvRequest id)).map .app) ++
  (Ins.workEvents 0 []).map .app

theorem requests_start_in_order_receivesQueued :
    ∃ s, (service 2 1).run receivesQueued = some s ∧
      ((Service.orders 2 1 receivesQueued).filterMap Ins.OrderMark.started).map MtRequest.id =
        [2] ∧
      (Ins.waitingFor s.app.g 0).map MtRequest.id = [3] ∧
      (((Service.orders 2 1 receivesQueued).filterMap Ins.OrderMark.started).filter
        (·.sockfd = mwSocketCreate 1 0)).Sublist
          (s.ring.published.filter (·.sockfd = mwSocketCreate 1 0)) := by
  have hsome : ((service 2 1).run receivesQueued).map (fun s =>
      (((Service.orders 2 1 receivesQueued).filterMap Ins.OrderMark.started).map MtRequest.id,
        (Ins.waitingFor s.app.g 0).map MtRequest.id)) = some ([2], [3]) := by
    decide +kernel
  obtain ⟨s, hs, hview⟩ := Option.map_eq_some_iff.mp hsome
  obtain ⟨hstarted, hwaiting⟩ := Prod.mk.inj hview
  have horder := requests_start_in_order 2 (by decide) 1 receivesQueued s (by decide +kernel) hs
  exact ⟨s, hs, hstarted, hwaiting, horder.2.2 _ (by decide)⟩

end MagicWand
