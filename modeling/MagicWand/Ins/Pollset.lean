import MagicWand.Foundation.RoundRobin
import MagicWand.Ins.Networking

/-!
# The pollset query

`pollset.c`. Only the dispatcher runs the query, and a worker slot that is in
use keeps its socket while the dispatcher is busy, so the public descriptors are
those of the state in which the query starts.
-/

namespace MagicWand.Ins

open Foundation

/-- The pairs (native event, event of the message) in the order of the source;
`POLLWRNORM` is `POLLOUT` on the INS. -/
def pollEventMap : List (BitVec 32 × BitVec 32) :=
  [(pollIn, 0x001), (pollRdnorm, 0x040), (pollHup, 0x010), (pollOut, 0x004),
   (pollWrnorm, 0x100), (pollErr, 0x008), (pollPri, 0x002), (pollNval, 0x020)]

def mwPollEvents (revents : BitVec 32) : BitVec 32 :=
  pollEventMap.foldl (fun acc p => if revents &&& p.1 ≠ 0 then acc ||| p.2 else acc) 0

/-- The scan of `xe_pollset_query` over the slots, from the cursor on. It
returns the new cursor and the slots visited, each with the events reported for
it (`none` when there is nothing to report). -/
def pollsetScan (revents : Nat → BitVec 32) (pollct : Int) :
    (rounds curPos itemIdx : Nat) → Nat × List (Nat × Option (BitVec 32))
  | 0, curPos, _ => (curPos, [])
  | rounds + 1, curPos, itemIdx =>
      if (itemIdx : Int) < pollct ∧ itemIdx < mtPollsetQueryMaxItems then
        let pos := curPos % maxThreadCount
        if revents pos = 0 then
          let r := pollsetScan revents pollct rounds (pos + 1) itemIdx
          (r.1, (pos, none) :: r.2)
        else
          let r := pollsetScan revents pollct rounds (pos + 1) (itemIdx + 1)
          (r.1, (pos, some (mwPollEvents (revents pos))) :: r.2)
      else (curPos, [])

/-- The items of the response. -/
def pollsetItems (publicFd : Nat → MwSocketFd) (visited : List (Nat × Option (BitVec 32))) :
    List MtPollsetItem :=
  visited.filterMap fun v => v.2.map fun events => { sockfd := publicFd v.1, events := events }

/-! ### Translation of the events -/

theorem foldl_pollEvents (revents m : BitVec 32) (l : List (BitVec 32 × BitVec 32))
    (acc : BitVec 32) :
    l.foldl (fun acc p => if revents &&& p.1 ≠ 0 then acc ||| p.2 else acc) acc &&& m ≠ 0 ↔
      acc &&& m ≠ 0 ∨ ∃ p ∈ l, revents &&& p.1 ≠ 0 ∧ p.2 &&& m ≠ 0 := by
  induction l generalizing acc with
  | nil => simp
  | cons p l ih =>
      rw [List.foldl_cons, ih]
      have hor : (acc ||| p.2) &&& m ≠ 0 ↔ acc &&& m ≠ 0 ∨ p.2 &&& m ≠ 0 := by
        rw [BitVec.and_or_distrib_right]
        exact (not_congr BitVec.or_eq_zero_iff).trans not_and_or
      by_cases hp : revents &&& p.1 = 0
      · simp [hp]
      · rw [if_pos hp, hor, List.exists_mem_cons_iff, or_assoc, and_iff_right hp]

/-- An event is in the message if and only if its native event is reported. -/
theorem mwPollEvents_and (revents : BitVec 32) {p : BitVec 32 × BitVec 32}
    (hp : p ∈ pollEventMap) : mwPollEvents revents &&& p.2 ≠ 0 ↔ revents &&& p.1 ≠ 0 := by
  have hdistinct : pollEventMap.all (fun p => p.2 &&& p.2 != 0 &&
      pollEventMap.all fun q => q.2 &&& p.2 == 0 || q == p) = true := by decide
  obtain ⟨hself, hothers⟩ := Bool.and_eq_true_iff.mp (List.all_eq_true.mp hdistinct p hp)
  have hother : ∀ q ∈ pollEventMap, q.2 &&& p.2 ≠ 0 → q = p := by
    intro q hq hand
    rcases Bool.or_eq_true_iff.mp (List.all_eq_true.mp hothers q hq) with hzero | heq
    · exact absurd (eq_of_beq hzero) hand
    · exact eq_of_beq heq
  rw [mwPollEvents, foldl_pollEvents]
  constructor
  · rintro (hzero | ⟨q, hq, hrevents, hand⟩)
    · exact absurd (BitVec.zero_and) hzero
    · rwa [← hother q hq hand]
  · intro hrevents
    exact .inr ⟨p, hp, hrevents, bne_iff_ne.mp hself⟩

/-- Nothing else is in the message. -/
theorem mwPollEvents_other (revents m : BitVec 32)
    (hm : ∀ p ∈ pollEventMap, p.2 &&& m = 0) : mwPollEvents revents &&& m = 0 := by
  by_contra hne
  rw [mwPollEvents] at hne
  rcases (foldl_pollEvents revents m pollEventMap 0).mp hne with hzero | ⟨q, hq, -, hand⟩
  · exact hzero BitVec.zero_and
  · exact hand (hm q hq)

/-- Record the events of every visited slot. -/
def recordPollEvents (visited : List (Nat × Option (BitVec 32))) (n : NetState) : NetState :=
  visited.foldl (fun n v => n.modifySock v.1 fun w => { w with pollEvents := v.2.getD 0 }) n

/-- `xe_pollset_query` on the slots in use, `none` for the others. -/
def xePollsetQuery (req : MtRequest) (fds : List (Option Int)) (net : NetState) :
    Native HandlerResult := do
  let o ← native (.pollAll fds)
  if o.ret < 0 then
    pure { rc := xeGetNegErrnoVal o.errno, response := {} }
  else
    let scan := pollsetScan (fun i => o.revents.getD i 0) o.ret maxThreadCount net.pollPos 0
    let items := pollsetItems (fun i => (net.sock i).publicFd) scan.2
    pure
      { rc := 0
        response := xeNetSetBaseResponse req
          (mtResponsePollsetQuerySize + mtResponsePollsetQueryItemSize * items.length)
          { items := items }
        effect := fun n => { recordPollEvents scan.2 n with pollPos := scan.1 } }

/-! ## What a query reports -/

/-- One query: the request, the slots in use with their sockets, and the answer of
`poll`. -/
structure PollsetQuery where
  req : MtRequest
  inUse : Nat → Bool
  net : NetState
  answer : Outcome

namespace PollsetQuery

def fds (q : PollsetQuery) : List (Option Int) :=
  (List.range maxThreadCount).map fun i =>
    if q.inUse i then some (q.net.sock i).localFd else none

def revents (q : PollsetQuery) (i : Nat) : BitVec 32 := q.answer.revents.getD i 0

def ready (q : PollsetQuery) (i : Nat) : Bool := q.revents i != 0

def readyCount (q : PollsetQuery) : Nat := (List.range maxThreadCount).countP q.ready

/-- The item that reports the worker of slot `i`. -/
def item (q : PollsetQuery) (i : Nat) : MtPollsetItem where
  sockfd := (q.net.sock i).publicFd
  events := mwPollEvents (q.revents i)

/-- `poll` returns the number of non-zero `revents`, and zero `revents` for a negative
descriptor. -/
structure Answered (q : PollsetQuery) : Prop where
  ret : q.answer.ret = q.readyCount
  notInUse : ∀ i < maxThreadCount, q.inUse i = false → q.ready i = false

/-- The query, run with the cursor where the query before it left it. -/
def run (q : PollsetQuery) (cursor : Nat) : Except NativeCall (HandlerResult × List Outcome) :=
  xePollsetQuery q.req q.fds { q.net with pollPos := cursor } [q.answer]

end PollsetQuery

/-- Successive queries, and what each of them returns. -/
def runQueries (cursor : Nat) : List PollsetQuery → Except NativeCall (List HandlerResult)
  | [] => pure []
  | q :: qs => do
      let (r, _) ← q.run cursor
      let rs ← runQueries (r.effect { q.net with pollPos := cursor }).pollPos qs
      pure (r :: rs)

/-- The scan goes as a batch does that wants what is missing of both bounds. -/
theorem pollsetScan_eq_batch (publicFd : Nat → MwSocketFd) (revents : Nat → BitVec 32)
    (pollct rounds curPos itemIdx : Nat) :
    let b := RoundRobin.batch maxThreadCount (fun i => revents i != 0) rounds
      (min pollct mtPollsetQueryMaxItems - itemIdx) curPos
    let scan := pollsetScan revents pollct rounds curPos itemIdx
    scan.1 = b.2 ∧ pollsetItems publicFd scan.2 =
      b.1.map fun i => { sockfd := publicFd i, events := mwPollEvents (revents i) } := by
  induction rounds generalizing curPos itemIdx with
  | zero => exact ⟨rfl, rfl⟩
  | succ rounds ih =>
      rw [pollsetScan]
      by_cases hgo : (itemIdx : Int) < pollct ∧ itemIdx < mtPollsetQueryMaxItems
      · obtain ⟨want, hwant⟩ : ∃ want, min pollct mtPollsetQueryMaxItems - itemIdx = want + 1 :=
          ⟨min pollct mtPollsetQueryMaxItems - itemIdx - 1, by omega⟩
        have hless : min pollct mtPollsetQueryMaxItems - (itemIdx + 1) = want := by omega
        rw [hwant, if_pos hgo, RoundRobin.batch]
        by_cases hzero : revents (curPos % maxThreadCount) = 0
        · have hnext := ih (curPos % maxThreadCount + 1) itemIdx
          rw [hwant] at hnext
          rw [if_pos hzero, if_neg (by simp [hzero])]
          exact hnext
        · have hnext := ih (curPos % maxThreadCount + 1) (itemIdx + 1)
          rw [hless] at hnext
          rw [if_neg hzero, if_pos (by simpa using hzero)]
          refine ⟨hnext.1, ?_⟩
          rw [List.map_cons, ← hnext.2]
          rfl
      · have hwant : min pollct mtPollsetQueryMaxItems - itemIdx = 0 := by omega
        rw [hwant, if_neg hgo]
        exact ⟨rfl, rfl⟩

namespace PollsetQuery

variable {q : PollsetQuery}

/-- The workers in the order in which the cursor comes to them. -/
def order (q : PollsetQuery) (cursor : Nat) : List Nat :=
  (RoundRobin.walk maxThreadCount maxThreadCount cursor).filter q.ready

theorem order_length (q : PollsetQuery) (cursor : Nat) :
    (q.order cursor).length = q.readyCount := by
  have hperm := RoundRobin.walk_perm (n := maxThreadCount) (by decide) cursor
  rw [order, ← List.countP_eq_length_filter, hperm.countP_eq]
  rfl

theorem order_nodup (q : PollsetQuery) (cursor : Nat) : (q.order cursor).Nodup := by
  have hperm := RoundRobin.walk_perm (n := maxThreadCount) (by decide) cursor
  exact List.Nodup.filter _ (hperm.nodup_iff.mpr List.nodup_range)

theorem mem_order {cursor i : Nat} : i ∈ q.order cursor ↔ i < maxThreadCount ∧ q.ready i := by
  have hperm := RoundRobin.walk_perm (n := maxThreadCount) (by decide) cursor
  rw [order, List.mem_filter, hperm.mem_iff, List.mem_range]

/-- A batch that wants no more than what is ready takes the first of the order. -/
theorem batch_eq (q : PollsetQuery) (cursor : Nat) :
    (RoundRobin.batch maxThreadCount q.ready maxThreadCount
      (min q.readyCount mtPollsetQueryMaxItems) cursor).1 =
      (q.order cursor).take mtPollsetQueryMaxItems := by
  have hall : (q.order cursor).take q.readyCount = q.order cursor := by
    rw [← q.order_length cursor, List.take_length]
  rw [RoundRobin.batch_eq_take, Nat.min_comm, ← List.take_take]
  exact congrArg (fun l => l.take mtPollsetQueryMaxItems) hall

/-- What a query returns, and where it leaves the cursor. -/
theorem run_eq (h : q.Answered) (cursor : Nat) :
    ∃ r, q.run cursor = .ok (r, []) ∧ r.rc = 0 ∧
      r.response.items = (RoundRobin.batch maxThreadCount q.ready maxThreadCount
        (min q.readyCount mtPollsetQueryMaxItems) cursor).1.map q.item ∧
      (r.effect { q.net with pollPos := cursor }).pollPos =
        (RoundRobin.batch maxThreadCount q.ready maxThreadCount
          (min q.readyCount mtPollsetQueryMaxItems) cursor).2 := by
  obtain ⟨hcursor, hitems⟩ := pollsetScan_eq_batch (fun i => (q.net.sock i).publicFd) q.revents
    q.readyCount maxThreadCount cursor 0
  have hsuccess : ¬ q.answer.ret < 0 := by
    rw [h.ret]
    exact Int.not_lt.mpr (Int.natCast_nonneg _)
  have hrun : q.run cursor =
      (if q.answer.ret < 0 then pure _ else pure _ : Native HandlerResult) [] := rfl
  rw [hrun, if_neg hsuccess]
  refine ⟨_, rfl, rfl, ?_, ?_⟩
  · rw [h.ret]
    exact hitems
  · show (pollsetScan q.revents q.answer.ret maxThreadCount cursor 0).1 = _
    rw [h.ret, hcursor]
    rfl

end PollsetQuery

/-- Queries that find the same workers ready report what successive batches find. -/
theorem runQueries_batches {ready : Nat → Bool} (qs : List PollsetQuery) (cursor : Nat)
    (h : ∀ q ∈ qs, q.Answered ∧ ∀ i < maxThreadCount, q.ready i = ready i) :
    ∃ rs, runQueries cursor qs = .ok rs ∧
      ∀ found ∈ RoundRobin.batches maxThreadCount ready
        (min ((List.range maxThreadCount).countP ready) mtPollsetQueryMaxItems) qs.length cursor,
        ∃ q r, (q, r) ∈ qs.zip rs ∧ r.response.items = found.map q.item := by
  induction qs generalizing cursor with
  | nil => exact ⟨[], rfl, fun _ hfound => nomatch hfound⟩
  | cons q qs ih =>
      obtain ⟨hq, hready⟩ := h q List.mem_cons_self
      obtain ⟨r, hrun, -, hitems, hcursor⟩ := q.run_eq hq cursor
      obtain ⟨rs, hruns, hrs⟩ := ih (r.effect { q.net with pollPos := cursor }).pollPos
        fun q' hq' => h q' (List.mem_cons_of_mem q hq')
      have hcount : q.readyCount = (List.range maxThreadCount).countP ready := by
        apply List.countP_congr
        intro i hi
        rw [hready i (List.mem_range.mp hi)]
      have hsame := RoundRobin.batch_congr (by decide) hready maxThreadCount
        (min q.readyCount mtPollsetQueryMaxItems) cursor
      refine ⟨r :: rs, ?_, ?_⟩
      · rw [runQueries, hrun]
        simp only [bind, Except.bind, hruns]
        rfl
      · rw [hcursor, hsame, hcount] at hrs
        rw [hsame, hcount] at hitems
        intro found hfound
        rcases List.mem_cons.mp hfound with rfl | hlater
        · exact ⟨q, r, List.mem_cons_self, hitems⟩
        · obtain ⟨q', r', hzip, hitems'⟩ := hrs found hlater
          exact ⟨q', r', List.mem_cons_of_mem _ hzip, hitems'⟩

theorem enough_calls {ready limit calls : Nat} (hready : 0 < ready) (hlimit : 0 < limit)
    (hcalls : (ready + limit - 1) / limit ≤ calls) : ready ≤ min ready limit * calls := by
  have hceil : ready ≤ limit * ((ready + limit - 1) / limit) := by
    have hmod := Nat.mod_lt (ready + limit - 1) hlimit
    have hdiv := Nat.div_add_mod (ready + limit - 1) limit
    omega
  have hlimited : ready ≤ limit * calls := hceil.trans (Nat.mul_le_mul_left limit hcalls)
  rcases Nat.le_total ready limit with hle | hge
  · have hone : 1 ≤ calls := Nat.pos_of_mul_pos_left (hready.trans_le hlimited)
    rw [Nat.min_eq_left hle]
    exact Nat.le_mul_of_pos_right ready hone
  · rwa [Nat.min_eq_right hge]

/-- A query reports the workers that are ready in the order in which the cursor comes to
them, as many as fit, each once and with its events translated bit by bit; while the same
workers are ready, queries enough to name them all report each of them. -/
theorem pollset_query_reports :
    (∀ (q : PollsetQuery) (cursor : Nat), q.Answered →
      ∃ r workers, q.run cursor = .ok (r, []) ∧ r.rc = 0 ∧
        r.response.items = workers.map q.item ∧
        workers = (q.order cursor).take mtPollsetQueryMaxItems ∧
        workers.length = min q.readyCount mtPollsetQueryMaxItems ∧ workers.Nodup ∧
        ∀ i ∈ workers, i < maxThreadCount ∧ q.inUse i ∧ q.ready i) ∧
    (∀ revents : BitVec 32,
      (∀ p ∈ pollEventMap, mwPollEvents revents &&& p.2 ≠ 0 ↔ revents &&& p.1 ≠ 0) ∧
      ∀ m, (∀ p ∈ pollEventMap, p.2 &&& m = 0) → mwPollEvents revents &&& m = 0) ∧
    ∀ (ready : Nat → Bool) (cursor : Nat) (qs : List PollsetQuery),
      (∀ q ∈ qs, q.Answered ∧ ∀ i < maxThreadCount, q.ready i = ready i) →
      ((List.range maxThreadCount).countP ready + mtPollsetQueryMaxItems - 1) /
        mtPollsetQueryMaxItems ≤ qs.length →
      ∃ rs, runQueries cursor qs = .ok rs ∧ ∀ i < maxThreadCount, ready i = true →
        ∃ q r, (q, r) ∈ qs.zip rs ∧ q.item i ∈ r.response.items := by
  refine ⟨?_, ?_, ?_⟩
  · intro q cursor hq
    obtain ⟨r, hrun, hrc, hitems, -⟩ := q.run_eq hq cursor
    refine ⟨r, _, hrun, hrc, hitems, q.batch_eq cursor, ?_, ?_, ?_⟩
    · rw [q.batch_eq, List.length_take, q.order_length, Nat.min_comm]
    · rw [q.batch_eq]
      exact (q.order_nodup cursor).sublist (List.take_sublist _ _)
    · intro i hi
      rw [q.batch_eq] at hi
      obtain ⟨hlt, hready⟩ := PollsetQuery.mem_order.mp (List.mem_of_mem_take hi)
      refine ⟨hlt, ?_, hready⟩
      by_contra hfree
      have hquiet := hq.notInUse i hlt (Bool.eq_false_iff.mpr hfree)
      rw [hready] at hquiet
      cases hquiet
  · intro revents
    exact ⟨fun p hp => mwPollEvents_and revents hp, mwPollEvents_other revents⟩
  · intro ready cursor qs h hcalls
    obtain ⟨rs, hruns, hitems⟩ := runQueries_batches qs cursor h
    refine ⟨rs, hruns, ?_⟩
    intro i hi hready
    have hperm := RoundRobin.walk_perm (n := maxThreadCount) (by decide) cursor
    have hmem : i ∈ (RoundRobin.walk maxThreadCount maxThreadCount cursor).filter ready := by
      rw [List.mem_filter, hperm.mem_iff, List.mem_range]
      exact ⟨hi, hready⟩
    have hlength : ((RoundRobin.walk maxThreadCount maxThreadCount cursor).filter ready).length =
        (List.range maxThreadCount).countP ready := by
      rw [← List.countP_eq_length_filter, hperm.countP_eq]
    have hpos := List.length_pos_of_mem hmem
    rw [hlength] at hpos
    have henough := enough_calls hpos (by decide) hcalls
    rw [← List.take_of_length_le (hlength.trans_le henough)] at hmem
    obtain ⟨found, hfound, hi'⟩ := RoundRobin.mem_batches (by decide) hmem
    obtain ⟨q, r, hzip, hr⟩ := hitems found hfound
    exact ⟨q, r, hzip, hr ▸ List.mem_map_of_mem hi'⟩

/-- Three slots in use, two of them ready. -/
def threeWorkers : PollsetQuery where
  req := { type := .pollsetQuery }
  inUse := fun i => i < 3
  net := { sock := fun i => { publicFd := 0x10 + BitVec.ofNat 64 i } }
  answer := { ret := 2, revents := [pollIn, 0, pollOut] }

theorem threeWorkers_answered : threeWorkers.Answered :=
  ⟨by decide, by decide⟩

/-- From slot 1 on: the worker of slot 2, then that of slot 0. -/
theorem pollset_query_reports_threeWorkers :
    (∃ r, threeWorkers.run 1 = .ok (r, []) ∧
      r.response.items = [⟨0x12, 0x104⟩, ⟨0x10, 0x001⟩]) ∧
    ∃ rs, runQueries 1 [threeWorkers] = .ok rs ∧ ∀ i < maxThreadCount, threeWorkers.ready i →
      ∃ q r, (q, r) ∈ [threeWorkers].zip rs ∧ q.item i ∈ r.response.items := by
  obtain ⟨hone, -, hcalls⟩ := pollset_query_reports
  constructor
  · obtain ⟨r, workers, hrun, -, hitems, hworkers, -⟩ := hone threeWorkers 1 threeWorkers_answered
    have horder : (threeWorkers.order 1).take mtPollsetQueryMaxItems = [2, 0] := by decide
    refine ⟨r, hrun, ?_⟩
    rw [hitems, hworkers, horder]
    decide
  · apply hcalls threeWorkers.ready 1 [threeWorkers]
    · intro q hq
      rw [List.mem_singleton.mp hq]
      exact ⟨threeWorkers_answered, fun _ _ => rfl⟩
    · decide

end MagicWand.Ins
