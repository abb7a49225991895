import MagicWand.Foundation.Stream
import MagicWand.Foundation.Transition
import MagicWand.Monitor.Feature
import Mathlib.Data.List.Forall2

/-!
# Requests on a stream

A netflow connection as the driver reads it. The peer's bytes arrive in pieces
of any size, at any time. `mw_netflow_monitor` polls the connection, and as long
as it gets a request `mw_netflow_handle_feat_req` reads on, each time what is
there of the bytes of one request. A read that gets fewer ends the loop, and what
it has read is gone.

The connection stays open, and responses are written as a whole.
-/

namespace MagicWand.Monitor

open Foundation Foundation.Bytes

/-! ## The connection -/

/-- A request that was processed, and the bytes of its response. -/
abbrev Answer := Processed × List Byte

structure Channel where
  avail : List Byte := []
  flags : BitVec 32 := 0
  /-- `mw_netflow_handle_feat_req` is in its loop. -/
  reading : Bool := false
  answers : List Answer := []
deriving DecidableEq, Repr

inductive ChannelEvent where
  | arrive (bs : List Byte)
  | poll
  | read
deriving DecidableEq, Repr

namespace Channel

/-- The steps; `calls i` is what the called functions return for the request that
is processed as number `i`. -/
def step (calls : Nat → Calls) (c : Channel) : ChannelEvent → Option Channel
  | .arrive bs => some { c with avail := c.avail ++ bs }
  | .poll => if c.reading = false ∧ c.avail ≠ [] then some { c with reading := true } else none
  | .read =>
      if c.reading then
        -- `mw_netflow_read`, for at most the size of a request
        let bs := c.avail.take mwFeatureRequestSize
        let c := { c with avail := c.avail.drop mwFeatureRequestSize }
        match mwNetflowHandleFeatReq (calls c.answers.length) c.flags bs with
        | none => some { c with reading := false }
        | some a => some { c with flags := a.1.channelFlags, answers := c.answers ++ [a] }
      else none

end Channel

def channel (calls : Nat → Calls) : System Channel ChannelEvent where
  init := {}
  step := Channel.step calls

/-- The bytes that have arrived. -/
def arrivals (es : List ChannelEvent) : List Byte :=
  es.flatMap fun
    | .arrive bs => bs
    | _ => []

@[simp] theorem arrivals_nil : arrivals [] = [] := rfl

@[simp] theorem arrivals_append (es fs : List ChannelEvent) :
    arrivals (es ++ fs) = arrivals es ++ arrivals fs := by
  rw [arrivals, List.flatMap_append, ← arrivals, ← arrivals]

/-! ## Requests that arrive whole -/

/-- The driver processes a request that one read has given. -/
def serve (calls : Nat → Calls) (s : BitVec 32 × List Answer) (bs : List Byte) :
    BitVec 32 × List Answer :=
  match mwNetflowHandleFeatReq (calls s.2.length) s.1 bs with
  | none => s
  | some a => (a.1.channelFlags, s.2 ++ [a])

/-- What the driver does with requests that come one in each read. -/
def serveEach (calls : Nat → Calls) (reqs : List (List Byte)) : BitVec 32 × List Answer :=
  reqs.foldl (serve calls) (0, [])

/-- The id of a request as it is on the wire. -/
def wireId (bs : List Byte) : BitVec 32 := swapBytes 4 (BitVec.ofNat 32 (leNat (slice bs 2 4)))

/-- The answer to a request is a response with its id. -/
def Answers (bs : List Byte) (a : Answer) : Prop :=
  ∃ reply, getMsg [((wireId bs).toNat : Int)] a.2 = some reply ∧ reply.ident = (wireId bs).toNat

/-- Of the requests in the stream, as many as there are answers have been
processed, once and in order, as if they had come one in each read, and nothing
else of what has arrived is gone. -/
structure Framed (calls : Nat → Calls) (reqs : List (List Byte)) (arrived : List Byte)
    (c : Channel) : Prop where
  consumed : arrived = (reqs.take c.answers.length).flatten ++ c.avail
  served : serveEach calls (reqs.take c.answers.length) = (c.flags, c.answers)
  answered : List.Forall₂ Answers (reqs.take c.answers.length) c.answers

/-- A read finds nothing, or the bytes of a request. -/
def WholeRead (c : Channel) (e : ChannelEvent) : Prop :=
  e = .read → c.avail = [] ∨ mwFeatureRequestSize ≤ c.avail.length

instance (c : Channel) (e : ChannelEvent) : Decidable (WholeRead c e) := by
  unfold WholeRead
  infer_instance

/-! ## Whole reads -/

theorem id_process {bs : List Byte} (hlen : bs.length = mwFeatureRequestSize) (calls : Calls)
    (flags : BitVec 32) :
    (mwNetflowProcessFeatReq calls flags (hostOrder (.ofBytes bs hlen)) {}).request.id = wireId bs := by
  rw [request_id]
  rfl

theorem answers_of_handle {calls : Calls} {flags : BitVec 32} {bs : List Byte} {a : Answer}
    (h : mwNetflowHandleFeatReq calls flags bs = some a) : Answers bs a := by
  rw [mwNetflowHandleFeatReq] at h
  split at h
  · rename_i hlen
    have hid := id_process hlen calls flags
    have ha := Option.some.inj h
    generalize mwNetflowProcessFeatReq calls flags (hostOrder (.ofBytes bs hlen)) {} = p at hid ha
    have hmsg := getMsg_networkOrder [((wireId bs).toNat : Int)] p.response (List.mem_singleton_self _)
    rw [Answers, ← ha, hid]
    exact ⟨_, hmsg, rfl⟩
  · cases h

/-- A whole request is processed. -/
theorem handle_isSome (calls : Calls) (flags : BitVec 32) {bs : List Byte}
    (h : bs.length = mwFeatureRequestSize) : ∃ a, mwNetflowHandleFeatReq calls flags bs = some a := by
  rw [mwNetflowHandleFeatReq, dif_pos h]
  exact ⟨_, rfl⟩

theorem handle_eq_none (calls : Calls) (flags : BitVec 32) {bs : List Byte}
    (h : bs.length ≠ mwFeatureRequestSize) : mwNetflowHandleFeatReq calls flags bs = none := by
  rw [mwNetflowHandleFeatReq, dif_neg h]

/-- The next request of the stream, once all its bytes are there. -/
theorem next_request {reqs : List (List Byte)} (hreqs : ∀ r ∈ reqs, r.length = mwFeatureRequestSize)
    {k : Nat} {avail : List Byte} (h : (reqs.take k).flatten ++ avail <+: reqs.flatten)
    (hmany : mwFeatureRequestSize ≤ avail.length) :
    reqs.take (k + 1) = reqs.take k ++ [avail.take mwFeatureRequestSize] := by
  have hne : avail ≠ [] := by
    rintro rfl
    exact absurd hmany (by decide)
  obtain ⟨r, rest, hr, hbegins⟩ := Stream.next h hne
  have hlen := hreqs r (List.mem_of_getElem? hr)
  have hfirst := Stream.take_next hbegins hmany (Nat.le_of_eq hlen.symm)
  rw [← hlen, List.take_length] at hfirst
  rw [List.take_add_one, hr, ← hlen, hfirst]
  rfl

theorem framed_step {calls : Nat → Calls} {reqs : List (List Byte)}
    (hreqs : ∀ r ∈ reqs, r.length = mwFeatureRequestSize) {past : List ChannelEvent}
    {e : ChannelEvent} {c c' : Channel} (hwhole : WholeRead c e)
    (hs : (channel calls).step c e = some c') (hpre : arrivals (past ++ [e]) <+: reqs.flatten)
    (h : Framed calls reqs (arrivals past) c) : Framed calls reqs (arrivals (past ++ [e])) c' := by
  obtain ⟨hconsumed, hserved, hanswered⟩ := h
  cases e with
  | arrive bs =>
      cases hs
      refine ⟨?_, hserved, hanswered⟩
      rw [arrivals_append, hconsumed, List.append_assoc]
      simp [arrivals]
  | poll =>
      simp only [channel, Channel.step] at hs
      split at hs
      · cases hs
        refine ⟨?_, hserved, hanswered⟩
        rw [arrivals_append, hconsumed]
        simp [arrivals]
      · cases hs
  | read =>
      have harr : arrivals (past ++ [.read]) = arrivals past := by simp [arrivals]
      rw [harr] at hpre ⊢
      simp only [channel, Channel.step] at hs
      split at hs
      · rcases hwhole rfl with hnone | hmany
        · rw [handle_eq_none _ _ (by rw [hnone]; decide)] at hs
          cases hs
          refine ⟨?_, hserved, hanswered⟩
          rw [hconsumed, hnone, List.drop_nil]
        · have hlen : (c.avail.take mwFeatureRequestSize).length = mwFeatureRequestSize := by
            rw [List.length_take, Nat.min_eq_left hmany]
          obtain ⟨a, ha⟩ := handle_isSome (calls c.answers.length) c.flags hlen
          rw [ha] at hs
          cases hs
          rw [hconsumed] at hpre
          have hnext := next_request hreqs hpre hmany
          have hmore : (c.answers ++ [a]).length = c.answers.length + 1 := List.length_append
          refine ⟨?_, ?_, ?_⟩
          · show _ = (reqs.take (c.answers ++ [a]).length).flatten ++ _
            rw [hmore, hnext, List.flatten_append, List.flatten_singleton, List.append_assoc,
              List.take_append_drop, hconsumed]
          · show serveEach calls (reqs.take (c.answers ++ [a]).length) = _
            rw [hmore, hnext, serveEach, List.foldl_append, ← serveEach, hserved]
            simp only [List.foldl_cons, List.foldl_nil, serve, ha]
          · show List.Forall₂ Answers (reqs.take (c.answers ++ [a]).length) (c.answers ++ [a])
            rw [hmore, hnext]
            exact List.rel_append hanswered (.cons (answers_of_handle ha) .nil)
      · cases hs

/-! ## Runs -/

/-- The bytes that are processed, or still there. -/
def Channel.total (c : Channel) : Nat :=
  mwFeatureRequestSize * c.answers.length + c.avail.length

/-- A step loses bytes unless its read is whole. -/
theorem channel_balance {calls : Nat → Calls} {c c' : Channel} {e : ChannelEvent}
    (hs : (channel calls).step c e = some c') :
    ∃ lost, c.total + (arrivals [e]).length = c'.total + lost ∧ (lost = 0 → WholeRead c e) := by
  cases e with
  | arrive bs =>
      cases hs
      refine ⟨0, ?_, fun _ h => nomatch h⟩
      simp only [Channel.total, arrivals, List.flatMap_cons, List.flatMap_nil, List.append_nil,
        List.length_append]
      omega
  | poll =>
      simp only [channel, Channel.step] at hs
      split at hs
      · cases hs
        exact ⟨0, rfl, fun _ h => nomatch h⟩
      · cases hs
  | read =>
      have hnone : (arrivals [.read]).length = 0 := rfl
      rw [hnone, Nat.add_zero]
      simp only [channel, Channel.step] at hs
      split at hs
      · by_cases hmany : mwFeatureRequestSize ≤ c.avail.length
        · have hlen : (c.avail.take mwFeatureRequestSize).length = mwFeatureRequestSize := by
            rw [List.length_take, Nat.min_eq_left hmany]
          obtain ⟨a, ha⟩ := handle_isSome (calls c.answers.length) c.flags hlen
          rw [ha] at hs
          cases hs
          refine ⟨0, ?_, fun _ _ => .inr hmany⟩
          simp only [Channel.total, List.length_append, List.length_cons, List.length_nil,
            List.length_drop, Nat.mul_add]
          omega
        · have hshort : (c.avail.take mwFeatureRequestSize).length ≠ mwFeatureRequestSize := by
            rw [List.length_take]
            omega
          rw [handle_eq_none _ _ hshort] at hs
          cases hs
          refine ⟨c.avail.length, ?_, fun hzero _ => .inl (List.eq_nil_of_length_eq_zero hzero)⟩
          simp only [Channel.total, List.length_drop]
          omega
      · cases hs

theorem length_arrivals (es : List ChannelEvent) :
    (arrivals es).length = (es.map fun e => (arrivals [e]).length).sum := by
  rw [arrivals, List.length_flatMap]
  congr 1
  refine List.map_congr_left fun e _ => ?_
  rw [arrivals, List.flatMap_singleton]

theorem length_flatten_take {reqs : List (List Byte)}
    (hreqs : ∀ r ∈ reqs, r.length = mwFeatureRequestSize) (k : Nat) :
    (reqs.take k).flatten.length = mwFeatureRequestSize * min k reqs.length := by
  have hmap : (reqs.take k).map List.length = List.replicate (min k reqs.length) mwFeatureRequestSize := by
    rw [List.eq_replicate_iff]
    refine ⟨by simp, fun n hn => ?_⟩
    obtain ⟨r, hr, rfl⟩ := List.mem_map.mp hn
    exact hreqs r (List.mem_of_mem_take hr)
  rw [List.length_flatten, hmap, List.sum_replicate_nat, Nat.mul_comm]

/-- The requests are framed exactly as long as no read is too short. -/
theorem requests_framed_iff (calls : Nat → Calls) (reqs : List (List Byte))
    (hreqs : ∀ r ∈ reqs, r.length = mwFeatureRequestSize) (es : List ChannelEvent) (c : Channel)
    (hrun : (channel calls).run es = some c) (hpre : arrivals es <+: reqs.flatten) :
    Framed calls reqs (arrivals es) c ↔ (channel calls).Guarded WholeRead es := by
  constructor
  · intro h
    obtain ⟨lost, hbal, hwhole⟩ := (channel calls).guardedFrom_of_balance (G := WholeRead)
      (fun _ _ _ _ hs => ⟨trivial, channel_balance hs⟩) trivial hrun
    rw [← length_arrivals] at hbal
    have harrived := congrArg List.length h.consumed
    rw [List.length_append, length_flatten_take hreqs] at harrived
    refine hwhole ?_
    have hmin : mwFeatureRequestSize * min c.answers.length reqs.length ≤
        mwFeatureRequestSize * c.answers.length := Nat.mul_le_mul_left _ (Nat.min_le_left _ _)
    have hinit : (channel calls).init.total = 0 := rfl
    rw [hinit, Channel.total] at hbal
    omega
  · intro hG
    have hinit : arrivals [] <+: reqs.flatten → Framed calls reqs (arrivals []) (channel calls).init :=
      fun _ => ⟨rfl, rfl, .nil⟩
    refine (channel calls).guardedFrom_history
      (I := fun past c => arrivals past <+: reqs.flatten → Framed calls reqs (arrivals past) c)
      (fun past e c c' hwhole hs ih hpre => ?_) [] hG hrun hinit hpre
    have hpast : arrivals past <+: reqs.flatten := by
      rw [arrivals_append] at hpre
      exact (List.prefix_append _ _).trans hpre
    exact framed_step hreqs hwhole hs hpre (ih hpast)

/-- Once all has arrived and has been read, every request has its answer. -/
theorem Framed.all {calls : Nat → Calls} {reqs : List (List Byte)} {c : Channel}
    (hreqs : ∀ r ∈ reqs, r.length = mwFeatureRequestSize)
    (h : Framed calls reqs reqs.flatten c) (hread : c.avail = []) :
    serveEach calls reqs = (c.flags, c.answers) := by
  have hlen := congrArg List.length h.consumed
  have hall := length_flatten_take hreqs reqs.length
  rw [List.take_length, Nat.min_self] at hall
  rw [hread, List.append_nil, hall, length_flatten_take hreqs] at hlen
  have hmin := Nat.eq_of_mul_eq_mul_left (by decide) hlen
  have hserved := h.served
  rwa [List.take_of_length_le (by omega)] at hserved

/-- Two requests in one piece. -/
def coalesced : List ChannelEvent :=
  [.arrive (blockRequest.wire ++ sndBufRequest.wire), .poll, .read, .read, .read]

theorem requests_framed_iff_coalesced : ∃ c,
    (channel fun _ => quiet).run coalesced = some c ∧
      (Framed (fun _ => quiet) [blockRequest.wire, sndBufRequest.wire] (arrivals coalesced) c ↔
        (channel fun _ => quiet).Guarded WholeRead coalesced) := by
  have hreqs : ∀ r ∈ [blockRequest.wire, sndBufRequest.wire], r.length = mwFeatureRequestSize := by
    intro r hr
    rcases List.mem_cons.mp hr with rfl | hr
    · exact length_wire _
    · rw [List.mem_singleton.mp hr]
      exact length_wire _
  exact ⟨_, rfl, requests_framed_iff (fun _ => quiet) [blockRequest.wire, sndBufRequest.wire] hreqs
    coalesced _ rfl (by simp [coalesced, arrivals])⟩

/-- A request in two pieces, the first of which is read before the second comes. -/
def torn : List ChannelEvent :=
  [.arrive (blockRequest.wire.take 20), .poll, .read, .arrive (blockRequest.wire.drop 20), .poll, .read]

/-- All of the request has arrived and been read, and there is no answer. -/
theorem request_lost : ∃ c, (channel fun _ => quiet).run torn = some c ∧
    arrivals torn = blockRequest.wire ∧ c.avail = [] ∧ c.answers = [] ∧
      ¬ Framed (fun _ => quiet) [blockRequest.wire] (arrivals torn) c := by
  have harr : arrivals torn = blockRequest.wire := by
    simp [torn, arrivals]
  refine ⟨{}, by decide, harr, rfl, rfl, fun h => ?_⟩
  have hlen := congrArg List.length h.consumed
  rw [harr, length_wire] at hlen
  exact absurd hlen (by decide)

end MagicWand.Monitor
