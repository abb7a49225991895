import Mathlib.Data.Fintype.Card
import MagicWand.Foundation.Collect
import MagicWand.Kernel.Polling
import MagicWand.Kernel.Sending

/-!
# The poll queries of a round

`mwsocket_poll_handle_notifications` collects the client ids of the open sockets
in a table of `MAX_INS_COUNT` places and sends one query for each of them, with
a descriptor made of that id. A socket that no INS knows yet has the id 0xffff,
which is an id as any other to the table, and "any INS" to the sender.
-/

namespace MagicWand.Kernel

open Foundation

/-- `MT_REQUEST_POLLSET_QUERY_SIZE`. -/
def mtRequestPollsetQuerySize : Nat := mtRequestBaseSize

/-- The query for one place of the table. -/
def pollQuery (domid : BitVec 16) : MtRequest where
  type := .pollsetQuery
  size := mtRequestPollsetQuerySize
  sockfd := mwSocketCreate domid 0

namespace RequestRings

/-- The second loop of `mwsocket_poll_handle_notifications`: the queries to the
INSs, made for the monitor's own instance. `course` is what each of them meets. -/
def sendQueries (mon : Nat) (course : BitVec 16 → Course) :
    List (BitVec 16) → Globals → RequestRings → Option (Int × Globals × RequestRings)
  | [], g, s => some (0, g, s)
  | d :: rest, g, s =>
      match g.mwsocketCreateActiveRequest mon false true (pollQuery d) with
      | none => some (-einval, g, s)
      | some (g, ref) =>
          (g.reqAt ref).bind fun a =>
            (s.mwsocketSendRequest g a true (course d)).bind fun (rc, g, s) =>
              if rc ≠ 0 then some (rc, g, s) else sendQueries mon course rest g s

/-- The queries of a round: the INSs with an open socket are collected, and each
gets a query. -/
def pollRound (s : RequestRings) (t : Table) (mon : Nat) (course : BitVec 16 → Course) :
    Option (Int × Globals × RequestRings) :=
  let (t, domids) := t.pollTargets mon [] t.sockinsts
  sendQueries mon course domids t.g s

end RequestRings

/-! ## The ids that are collected -/

namespace Table

/-- What the first loop looks at. -/
def pollState (k : SockInst) : Bool × Bool × MwSocketFd :=
  (k.insAlive, k.mwflags.has (MwFlags.closed ||| MwFlags.released), k.remoteFd)

/-- Neither closed nor released, and not the monitor's own. -/
def isOpen (t : Table) (mon c : Nat) : Bool :=
  !(decide (c = mon) || (t.sock c).mwflags.has (MwFlags.closed ||| MwFlags.released))

/-- The id of an open socket whose INS is not known to be dead. An id of 0 marks
an empty place. -/
def askedId (t : Table) (mon c : Nat) : Option (BitVec 16) :=
  if (t.sock c).insAlive && t.isOpen mon c then
    if mwSocketClientId (t.sock c).remoteFd = 0 then none
    else some (mwSocketClientId (t.sock c).remoteFd)
  else none

def askedIds (t : Table) (mon : Nat) (l : List Nat) : List (BitVec 16) :=
  l.filterMap (t.askedId mon)

theorem pollState_clearPollable (g : Globals) (r x : Nat) :
    (g.clearPollable r).view pollState x = g.view pollState x := by
  rw [Globals.clearPollable]
  split
  · refine Globals.view_modifySock_of_eq g r
      (f := fun k => { k with mwflags := k.mwflags &&& ~~~MwFlags.pollable }) (fun k => ?_) x
    rw [pollState, MwFlags.has, BitVec.and_assoc]
    rfl
  · rfl

theorem askedIds_congr {t t' : Table} (h : ∀ x, t'.g.view pollState x = t.g.view pollState x)
    (mon : Nat) (l : List Nat) : t'.askedIds mon l = t.askedIds mon l := by
  have hstate (c : Nat) : (t'.sock c).insAlive = (t.sock c).insAlive ∧
      (t'.sock c).mwflags.has (MwFlags.closed ||| MwFlags.released) =
        (t.sock c).mwflags.has (MwFlags.closed ||| MwFlags.released) ∧
      (t'.sock c).remoteFd = (t.sock c).remoteFd := by
    have hc := h c
    simp only [Globals.view, pollState, Prod.mk.injEq] at hc
    exact hc
  rw [askedIds, askedIds]
  refine List.filterMap_congr fun c _ => ?_
  obtain ⟨halive, hflags, hfd⟩ := hstate c
  rw [askedId, askedId, isOpen, isOpen, halive, hflags, hfd]

/-- The first loop collects these ids, and changes nothing that it looks at. -/
theorem pollTargets_spec (mon : Nat) (t : Table) (domids : List (BitVec 16)) (l : List Nat) :
    (pollTargets mon t domids l).2 = collect maxInsCount domids (t.askedIds mon l) ∧
      (∀ x, (pollTargets mon t domids l).1.g.view pollState x = t.g.view pollState x) ∧
      (pollTargets mon t domids l).1.g.activeRequests = t.g.activeRequests := by
  induction l generalizing t domids with
  | nil => exact ⟨rfl, fun _ => rfl, rfl⟩
  | cons c rest ih =>
      have hskip (hnone : t.askedId mon c = none) :
          t.askedIds mon (c :: rest) = t.askedIds mon rest := List.filterMap_cons_none hnone
      rw [pollTargets]
      by_cases halive : (t.sock c).insAlive = true
      · rw [if_neg (by simp [halive])]
        by_cases hclosed : (decide (c = mon) ||
            (t.sock c).mwflags.has (MwFlags.closed ||| MwFlags.released)) = true
        · have hnone : t.askedId mon c = none := by
            rw [askedId, isOpen, hclosed, halive]
            rfl
          rw [if_pos hclosed, hskip hnone]
          exact ih t domids
        · rw [if_neg hclosed]
          rw [Bool.not_eq_true] at hclosed
          by_cases hfull : domids.length = maxInsCount
          · rw [if_pos hfull, Collect.collect_full hfull]
            exact ⟨rfl, fun _ => rfl, rfl⟩
          · rw [if_neg hfull]
            by_cases hzero : mwSocketClientId (t.sock c).remoteFd = 0
            · have hnone : t.askedId mon c = none := by
                rw [askedId, isOpen, hclosed, halive, if_pos hzero]
                rfl
              simp only [hzero, true_or, if_true, hskip hnone]
              exact ih t domids
            · have hsome : t.askedId mon c = some (mwSocketClientId (t.sock c).remoteFd) := by
                rw [askedId, isOpen, hclosed, halive, if_neg hzero]
                rfl
              simp only [hzero, false_or]
              rw [askedIds, List.filterMap_cons_some hsome, collect, if_neg hfull]
              split_ifs
              · exact ih t domids
              · exact ih t _
      · have hnone : t.askedId mon c = none := by
          rw [askedId, if_neg]
          simp [halive]
        have hclear (x : Nat) : ({ t with g := t.g.clearPollable c } : Table).g.view pollState x =
            t.g.view pollState x := pollState_clearPollable t.g c x
        obtain ⟨hids, hview, hreqs⟩ := ih { t with g := t.g.clearPollable c } domids
        rw [if_pos (by simp [halive])]
        refine ⟨?_, fun x => (hview x).trans (hclear x), hreqs.trans ?_⟩
        · rw [hids, askedIds_congr hclear, hskip hnone]
        · rw [Globals.clearPollable]
          split
          · rfl
          · rfl

end Table

/-! ## The queries that are sent -/

theorem SockInst.insAlive_preProcess (k : SockInst) (id : MtId) (req : MtRequest)
    (acquired : Bool) : (k.preProcess id req acquired).insAlive = k.insAlive := by
  have hprepare (k : SockInst) : (k.prepare req).insAlive = k.insAlive := by
    rw [prepare]
    split
    all_goals first | rfl | (split_ifs <;> rfl)
  have hacquire (k : SockInst) : (k.acquireClose id req.type acquired).insAlive = k.insAlive := by
    rw [acquireClose]
    split_ifs <;> rfl
  rw [preProcess, hprepare, hacquire]
  split_ifs <;> rfl

namespace RequestRings

def Live (s : RequestRings) (i : Fin maxInsCount) : Prop :=
  (s.xen.ins i).inUse = true ∧ (s.xen.ins i).isRingReady = true

instance (s : RequestRings) (i : Fin maxInsCount) : Decidable (s.Live i) :=
  inferInstanceAs (Decidable (_ ∧ _))

/-- So many poll queries have been published on the rings, and nothing else. -/
def Queried (s s' : RequestRings) (n : Fin maxInsCount → Nat) : Prop :=
  ∀ i, ∃ reqs : List MtRequest, s'.pushed i = s.pushed i ++ reqs.map some ∧ reqs.length = n i ∧
    ∀ req ∈ reqs, req.type = .pollsetQuery

/-- A slot comes free, the INS stays, and its notification works. -/
def Smooth (c : Course) : Prop :=
  grants true c.rounds = true ∧ c.acquired = false ∧ c.fate = .same ∧ c.notified = 0

instance (c : Course) : Decidable (Smooth c) := inferInstanceAs (Decidable (_ ∧ _ ∧ _ ∧ _))

/-- The INSs go by ids of their own, none of them 0, and take a query. -/
structure Reachable (s : RequestRings) (course : BitVec 16 → Course) : Prop where
  named : ∀ i, s.Live i → s.xen.mwXenGetInsFromDomid (s.xen.ins i).domid = some i
  nonzero : ∀ i, s.Live i → (s.xen.ins i).domid ≠ 0
  smooth : ∀ i, s.Live i → s.locked i = false ∧ Smooth (course (s.xen.ins i).domid)

variable {s : RequestRings} {course : BitVec 16 → Course} {mon : Nat}

/-- An active request of an instance whose INS is alive. -/
theorem create_alive {g : Globals} (halive : (g.socks mon).insAlive = true)
    (hids : g.activeRequests.length < 2 ^ 64 - 1) (fromUser deliver : Bool) (req : MtRequest) :
    ∃ g' a, g.mwsocketCreateActiveRequest mon fromUser deliver req = some (g', a.ref) ∧
      g'.reqAt a.ref = some a ∧ a.sockinst = mon ∧ a.request = req ∧
      (g'.socks mon).insAlive = true ∧ g'.activeRequests.length = g.activeRequests.length + 1 := by
  obtain ⟨id, hid⟩ := g.mwsocketGetNextId_terminates hids
  let a : ActReq :=
    { ref := g.nextRef
      id := id
      sockinst := mon
      fromUser := fromUser
      deliverResponse := deliver
      request := req }
  rw [Globals.mwsocketCreateActiveRequest, if_pos halive, hid]
  refine ⟨_, a, rfl, ?_, rfl, rfl, ?_, rfl⟩
  · exact List.find?_cons_of_pos (decide_eq_true rfl)
  · have hview := Globals.view_modifySock_of_eq (F := SockInst.insAlive) g mon
      (f := fun k => { k with refct := k.refct + 1 }) (fun _ => rfl) mon
    exact hview.trans halive

/-- One round of the second loop. -/
theorem query_sent (h : s.Reachable course) {i : Fin maxInsCount} (hlive : s.Live i) {g : Globals}
    (halive : (g.socks mon).insAlive = true) (hids : g.activeRequests.length < 2 ^ 64 - 1)
    (rest : List (BitVec 16)) :
    ∃ g' s', sendQueries mon course ((s.xen.ins i).domid :: rest) g s =
        sendQueries mon course rest g' s' ∧
      (g'.socks mon).insAlive = true ∧
      g'.activeRequests.length = g.activeRequests.length + 1 ∧
      s'.xen = s.xen ∧ s'.locked = s.locked ∧
      ∃ req : MtRequest, req.type = .pollsetQuery ∧
        s'.pushed = Function.update s.pushed i (s.pushed i ++ [some req]) := by
  obtain ⟨hfree, hgrants, hacquired, hfate, hnotified⟩ := h.smooth i hlive
  have hreal : realDomid (s.xen.ins i).domid = true := (s.xen.ins i).real hlive.1
  have hring : s.xen.ringFor (s.xen.ins i).domid = (some i, s.xen) := by
    rw [Xen.ringFor, if_pos hreal]
    simp only [h.named i hlive, Option.filter_some, hlive.2, if_true]
  obtain ⟨g1, a, hcreate, hat, hsock, hreq, halive', hlen⟩ :=
    create_alive halive hids false true (pollQuery (s.xen.ins i).domid)
  subst hsock
  have hfd : (g1.stampRequest a).sockfd = mwSocketCreate (s.xen.ins i).domid 0 := by
    rw [Globals.stampRequest, hreq]
    exact if_pos (mwSocketIsFd_create _ _)
  have htype : (g1.stampRequest a).type = .pollsetQuery := by
    rw [Globals.stampRequest, hreq]
    rfl
  have hvalid : (g1.stampRequest a).isRequest = true := by
    rw [Globals.stampRequest, hreq]
    simp [MtRequest.isRequest, pollQuery, mtRequestPollsetQuerySize, MtRequestType.code]
  have hclient : s.xen.ringFor (mwSocketClientId (g1.stampRequest a).sockfd) = (some i, s.xen) := by
    rw [hfd, mwSocketClientId_create, hring]
  have hlock : closeLockFree (g1.socks a.sockinst) (g1.stampRequest a).type
      (course (s.xen.ins i).domid).acquired = true := by
    rw [htype, hacquired]
    rfl
  obtain ⟨s', hsend, hxen, hlocked, hpushed⟩ := send_granted (c := course (s.xen.ins i).domid)
    hvalid halive' (congrArg Prod.fst hclient) hfree hgrants hlock hfate
  refine ⟨(stamped g1 a).mwsocketPreProcessRequest { a with request := g1.stampRequest a }
    (course (s.xen.ins i).domid).acquired, s', ?_, ?_, ?_,
    hxen.trans (congrArg Prod.snd hclient), hlocked, _, ?_, hpushed⟩
  · simp only [sendQueries, hcreate, hat, hsend, hnotified, Option.bind_some]
    rfl
  · have hview := Globals.view_preProcess (F := SockInst.insAlive) (stamped g1 a)
      { a with request := g1.stampRequest a } (course (s.xen.ins i).domid).acquired a.sockinst
    rw [if_pos rfl, SockInst.insAlive_preProcess] at hview
    exact hview.trans halive'
  · rw [← hlen]
    exact (List.length_map ..).trans (List.length_map ..)
  · rw [← htype, Globals.routeAccept]
    split
    · split_ifs <;> rfl
    · rfl

theorem Reachable.congr {s' : RequestRings} (h : s.Reachable course) (hxen : s'.xen = s.xen)
    (hlocked : s'.locked = s.locked) : s'.Reachable course where
  named i hi := by
    rw [Live, hxen] at hi
    rw [hxen]
    exact h.named i hi
  nonzero i hi := by
    rw [Live, hxen] at hi
    rw [hxen]
    exact h.nonzero i hi
  smooth i hi := by
    rw [Live, hxen] at hi
    rw [hxen, hlocked]
    exact h.smooth i hi

/-- The query of INS `i` comes before those that follow. -/
theorem Queried.cons {s' s'' : RequestRings} {i : Fin maxInsCount} {req : MtRequest}
    {n n' : Fin maxInsCount → Nat} (htype : req.type = .pollsetQuery)
    (hpushed : s'.pushed = Function.update s.pushed i (s.pushed i ++ [some req]))
    (h : s'.Queried s'' n) (hn : ∀ j, n' j = if j = i then n j + 1 else n j) :
    s.Queried s'' n' := by
  intro j
  obtain ⟨reqs, heq, hlen, htypes⟩ := h j
  rw [hpushed, Function.update_apply] at heq
  rw [hn]
  by_cases hj : j = i
  · subst hj
    rw [if_pos rfl, List.append_assoc] at heq
    rw [if_pos rfl]
    refine ⟨req :: reqs, heq, congrArg (· + 1) hlen, ?_⟩
    intro req' hreq'
    rcases List.mem_cons.mp hreq' with rfl | hreq'
    · exact htype
    · exact htypes req' hreq'
  · rw [if_neg hj] at heq
    rw [if_neg hj]
    exact ⟨reqs, heq, hlen, htypes⟩

/-- The second loop, for INSs that can be reached: each of them gets its query. -/
theorem sendQueries_reach (domids : List (BitVec 16)) {s : RequestRings} (h : s.Reachable course)
    {g : Globals} (hnodup : domids.Nodup)
    (hlive : ∀ d ∈ domids, ∃ i, s.Live i ∧ (s.xen.ins i).domid = d)
    (halive : (g.socks mon).insAlive = true)
    (hids : g.activeRequests.length + domids.length < 2 ^ 64) :
    ∃ g' s', sendQueries mon course domids g s = some (0, g', s') ∧
      s.Queried s' fun i => if s.Live i ∧ (s.xen.ins i).domid ∈ domids then 1 else 0 := by
  induction domids generalizing g s with
  | nil =>
      refine ⟨g, s, rfl, fun i => ⟨[], ?_, ?_, ?_⟩⟩
      · exact (List.append_nil _).symm
      · simp
      · simp
  | cons d rest ih =>
      obtain ⟨i, hi, rfl⟩ := hlive d List.mem_cons_self
      obtain ⟨hnew, hrest⟩ := List.nodup_cons.mp hnodup
      rw [List.length_cons] at hids
      obtain ⟨g1, s1, hround, halive1, hlen1, hxen1, hlocked1, req, htype, hpushed⟩ :=
        query_sent h hi halive (by omega) rest
      have hlive1 : ∀ d ∈ rest, ∃ j, s1.Live j ∧ (s1.xen.ins j).domid = d := by
        intro d hd
        obtain ⟨j, hj, heq⟩ := hlive d (List.mem_cons_of_mem _ hd)
        refine ⟨j, ?_, ?_⟩
        · rw [Live, hxen1]
          exact hj
        · rw [hxen1]
          exact heq
      obtain ⟨g', s', hrun, hqueried⟩ :=
        ih (h.congr hxen1 hlocked1) hrest hlive1 halive1 (by omega)
      refine ⟨g', s', hround.trans hrun, hqueried.cons htype hpushed ?_⟩
      intro j
      have hbehind : (if s1.Live j ∧ (s1.xen.ins j).domid ∈ rest then 1 else 0) =
          if s.Live j ∧ (s.xen.ins j).domid ∈ rest then 1 else 0 := by
        refine if_congr ?_ rfl rfl
        rw [Live, hxen1]
        exact Iff.rfl
      rw [hbehind]
      by_cases hj : j = i
      · subst hj
        have hmem : s.Live j ∧ (s.xen.ins j).domid ∈ (s.xen.ins j).domid :: rest :=
          ⟨hi, List.mem_cons_self⟩
        have hnot : ¬ (s.Live j ∧ (s.xen.ins j).domid ∈ rest) := fun hmem => hnew hmem.2
        rw [if_pos hmem, if_neg hnot, if_pos rfl]
      · have hother : s.Live j → (s.xen.ins j).domid ≠ (s.xen.ins i).domid := by
          intro hlivej heq
          have hsame := h.named j hlivej
          rw [heq, h.named i hi] at hsame
          exact hj (Option.some.inj hsame).symm
        rw [if_neg hj]
        refine if_congr (and_congr_right fun hlivej => ?_) rfl rfl
        rw [List.mem_cons]
        exact or_iff_right (hother hlivej)

/-- The INS has an open socket. -/
def Backs (s : RequestRings) (t : Table) (mon : Nat) (i : Fin maxInsCount) : Prop :=
  ∃ c ∈ t.sockinsts, t.isOpen mon c = true ∧
    mwSocketClientId (t.sock c).remoteFd = (s.xen.ins i).domid

instance (s : RequestRings) (t : Table) (mon : Nat) (i : Fin maxInsCount) :
    Decidable (s.Backs t mon i) :=
  inferInstanceAs (Decidable (∃ c ∈ t.sockinsts, _ ∧ _))

/-- Each live INS with an open socket has got one query, and no other INS any. -/
def OneQueryEach (s : RequestRings) (t : Table) (mon : Nat) (s' : RequestRings) : Prop :=
  s.Queried s' fun i => if s.Live i ∧ s.Backs t mon i then 1 else 0

/-- Every open socket is known to an INS that is alive; no INS is taken for dead
by all its sockets; and nothing is in the way of the queries. -/
structure QueriesFit (s : RequestRings) (t : Table) (mon : Nat) (course : BitVec 16 → Course) :
    Prop extends s.Reachable course where
  known : ∀ c ∈ t.sockinsts, t.isOpen mon c = true → (t.sock c).insAlive = true →
    ∃ i, s.Live i ∧ (s.xen.ins i).domid = mwSocketClientId (t.sock c).remoteFd
  told : ∀ i, s.Live i → s.Backs t mon i →
    ∃ c ∈ t.sockinsts, t.isOpen mon c = true ∧ (t.sock c).insAlive = true ∧
      mwSocketClientId (t.sock c).remoteFd = (s.xen.ins i).domid
  monitor : (t.sock mon).insAlive = true
  ids : t.g.activeRequests.length + maxInsCount < 2 ^ 64

theorem mem_askedIds {t : Table} {mon : Nat} {l : List Nat} {d : BitVec 16} :
    d ∈ t.askedIds mon l ↔ d ≠ 0 ∧ ∃ c ∈ l, t.isOpen mon c = true ∧
      (t.sock c).insAlive = true ∧ mwSocketClientId (t.sock c).remoteFd = d := by
  rw [Table.askedIds, List.mem_filterMap]
  constructor
  · rintro ⟨c, hc, hd⟩
    rw [Table.askedId] at hd
    split_ifs at hd with hask hzero
    rw [Bool.and_eq_true] at hask
    cases hd
    exact ⟨hzero, c, hc, hask.2, hask.1, rfl⟩
  · rintro ⟨hzero, c, hc, hopen, halive, rfl⟩
    refine ⟨c, hc, ?_⟩
    rw [Table.askedId, halive, hopen, if_neg hzero]
    rfl

/-- The ids of the INSs that are alive. There are no more than places for INSs. -/
def liveIds (s : RequestRings) : Finset (BitVec 16) :=
  (Finset.univ.filter fun i => s.Live i).image fun i => (s.xen.ins i).domid

theorem mem_liveIds {d : BitVec 16} : d ∈ s.liveIds ↔ ∃ i, s.Live i ∧ (s.xen.ins i).domid = d := by
  simp [liveIds]

theorem card_liveIds (s : RequestRings) : s.liveIds.card ≤ maxInsCount := by
  refine Finset.card_image_le.trans ((Finset.card_filter_le _ _).trans ?_)
  rw [Finset.card_univ, Fintype.card_fin]

/-- The ids that are collected are those of the INSs with an open socket. -/
theorem mem_targets {t : Table} (h : s.QueriesFit t mon course) :
    ((t.pollTargets mon [] t.sockinsts).2).Nodup ∧
      (∀ d ∈ (t.pollTargets mon [] t.sockinsts).2, ∃ i, s.Live i ∧ (s.xen.ins i).domid = d) ∧
      ∀ i, s.Live i → ((s.xen.ins i).domid ∈ (t.pollTargets mon [] t.sockinsts).2 ↔
        s.Backs t mon i) := by
  rw [(Table.pollTargets_spec mon t [] t.sockinsts).1]
  have hknown : ∀ d ∈ t.askedIds mon t.sockinsts, ∃ i, s.Live i ∧ (s.xen.ins i).domid = d := by
    intro d hd
    obtain ⟨-, c, hc, hopen, halive, rfl⟩ := mem_askedIds.mp hd
    exact h.known c hc hopen halive
  have hcollected {d : BitVec 16} (hd : d ∈ collect maxInsCount [] (t.askedIds mon t.sockinsts)) :
      d ∈ t.askedIds mon t.sockinsts :=
    (Collect.mem_of_mem_collect hd).resolve_left List.not_mem_nil
  refine ⟨Collect.nodup_collect List.nodup_nil _, fun d hd => hknown d (hcollected hd), ?_⟩
  intro i hi
  constructor
  · intro hd
    obtain ⟨-, c, hc, hopen, -, heq⟩ := mem_askedIds.mp (hcollected hd)
    exact ⟨c, hc, hopen, heq⟩
  · intro hbacks
    obtain ⟨c, hc, hopen, halive, heq⟩ := h.told i hi hbacks
    exact Collect.mem_collect s.card_liveIds List.nodup_nil
      (fun d hd => absurd hd List.not_mem_nil) (fun d hd => mem_liveIds.mpr (hknown d hd))
      (.inr (mem_askedIds.mpr ⟨h.nonzero i hi, c, hc, hopen, halive, heq⟩))

end RequestRings

/-- INSs 5 and 6, with nothing on their rings. -/
def twoRings : RequestRings where
  xen :=
    { ins := fun i =>
        if i = insZero then
          { domid := 5, inUse := true, isRingReady := true, real := fun _ => realDomid_five }
        else if i = insOne then
          { domid := 6, inUse := true, isRingReady := true, real := fun _ => realDomid_six }
        else {} }

/-- The monitor's own instance 0, and sockets with these descriptors. -/
def socketsWith (fds : List MwSocketFd) : Table where
  g := { socks := fun r => match r with
    | 0 => {}
    | r + 1 => { remoteFd := fds.getD r mtInvalidSocketFd, mwflags := MwFlags.user } }
  sockinsts := List.range (fds.length + 1)
  nextSock := fds.length + 1

end MagicWand.Kernel
