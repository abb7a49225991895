import MagicWand.Ins.Answers

/-!
# What a send request hands over

The send loop counts in the 16-bit field of the response what the native calls have
taken. The calls may take a part of what they are offered, or nothing for now, in any
order.
-/

namespace MagicWand.Ins

open Foundation

/-- A native `send` takes some of the bytes, or fails with an errno. -/
def sendAnswer : NativeCall → Outcome → Prop
  | .send _ bytes _, o => (0 < o.ret ∧ o.ret ≤ bytes.length) ∨ (o.ret < 0 ∧ 0 < o.errno)
  | _, _ => True

/-- The bytes that a native call has taken. -/
def takenBy : NativeCall × Outcome → List (BitVec 8)
  | (.send _ bytes _, o) => bytes.take o.ret.toNat
  | _ => []

def handedOver (calls : List (NativeCall × Outcome)) : List (BitVec 8) := calls.flatMap takenBy

theorem takenBy_failed (c : NativeCall) {o : Outcome} (h : o.ret < 0) : takenBy (c, o) = [] := by
  cases c with
  | send fd bytes flags =>
      rw [takenBy, Int.toNat_of_nonpos (Int.le_of_lt h)]
      exact List.take_zero
  | _ => rfl

/-- Nothing went wrong but that a call would have blocked. -/
def onlyBlocked (calls : List (NativeCall × Outcome)) : Prop :=
  ∀ c o, (c, o) ∈ calls → c ≠ .pollOne .worker pollOut → o.ret < 0 → o.errno = eagain

/-! ## The loop -/

section Loop

variable {p : List (BitVec 8)} {flags : MtFlags}

/-- What the loop has come to when it has handed over `k` bytes. -/
def SentTo (p : List (BitVec 8)) (flags : MtFlags) (k : Nat)
    (calls : List (NativeCall × Outcome)) : Except NativeCall (SendEnd × List Outcome) → Prop
  | .error _ => k < p.length ∧ onlyBlocked calls
  | .ok (e, _) =>
      e.count = k ∧
        match e.failed with
        | none => k = p.length
        | some err => k < p.length ∧ 0 < err ∧ err ≠ eagain ∧
            ∃ o, calls.getLast? = some (.send .worker (p.drop k) flags, o) ∧ o.ret < 0 ∧
              o.errno = err

/-- One more call in front that took some bytes, waited or would have blocked. -/
theorem SentTo.cons {k : Nat} {calls : List (NativeCall × Outcome)}
    {res : Except NativeCall (SendEnd × List Outcome)} (h : SentTo p flags k calls res) {c : NativeCall}
    {o : Outcome} (hfirst : onlyBlocked [(c, o)]) : SentTo p flags k ((c, o) :: calls) res := by
  rcases res with c' | ⟨⟨count, failed⟩, rest⟩
  · refine ⟨h.1, ?_⟩
    intro c₁ o₁ hmem
    rcases List.mem_cons.mp hmem with heq | hmem
    · exact hfirst c₁ o₁ (by rw [heq]; exact List.mem_cons_self)
    · exact h.2 c₁ o₁ hmem
  · obtain ⟨hcount, hend⟩ := h
    refine ⟨hcount, ?_⟩
    rcases failed with _ | err
    · exact hend
    · obtain ⟨hk, hpos, hne, o₁, hlast, hret⟩ := hend
      refine ⟨hk, hpos, hne, o₁, ?_, hret⟩
      rw [List.getLast?_cons, hlast]
      rfl

/-- The bytes up to `count`, and those that the loop hands over from there on, are a
prefix of the payload. -/
theorem sendLoop_prefix (hp : p.length < 2 ^ 16) (os : List Outcome) (polling : Bool)
    (count : Nat) (hcount : count ≤ p.length) (hpolling : polling = true → count < p.length)
    (h : Script.Along sendAnswer (sendLoop p flags polling count) os) :
    ∃ k ≤ p.length,
      p.take count ++ handedOver (Script.trace (sendLoop p flags polling count) os) = p.take k ∧
      SentTo p flags k (Script.trace (sendLoop p flags polling count) os)
        (sendLoop p flags polling count os) := by
  induction os generalizing polling count with
  | nil =>
      refine ⟨count, hcount, List.append_nil _, ?_⟩
      rcases polling with _ | _
      · rw [sendLoop]
        by_cases hall : p.length ≤ count
        · rw [if_pos hall]
          exact ⟨rfl, Nat.le_antisymm hcount hall⟩
        · rw [if_neg hall]
          exact ⟨Nat.lt_of_not_le hall, fun _ _ hmem => nomatch hmem⟩
      · exact ⟨hpolling rfl, fun _ _ hmem => nomatch hmem⟩
  | cons o os ih =>
      rcases polling with _ | _
      · by_cases hall : p.length ≤ count
        · have hdone (os : List Outcome) : sendLoop p flags false count os =
              .ok (⟨count, none⟩, os) := by
            rcases os with _ | _ <;> rw [sendLoop, if_pos hall]
          rw [Script.trace_of_ok (hdone []), hdone]
          exact ⟨count, hcount, List.append_nil _, rfl, Nat.le_antisymm hcount hall⟩
        have hlt : count < p.length := Nat.lt_of_not_le hall
        have hblocked : sendLoop p flags false count [] =
            .error (.send .worker (p.drop count) flags) := by
          rw [sendLoop, if_neg hall]
        have hanswer : sendAnswer (.send .worker (p.drop count) flags) o :=
          h [] o os _ rfl hblocked
        by_cases hneg : o.ret < 0
        · have hnone := takenBy_failed (.send .worker (p.drop count) flags) hneg
          by_cases hagain : o.errno = eagain
          · -- The descriptor would block: the loop polls and tries the same bytes again.
            have hnext (os : List Outcome) : sendLoop p flags false count (o :: os) =
                sendLoop p flags true count os := by
              rw [sendLoop, if_neg hall, if_pos hneg, if_pos hagain]
            rw [Script.along_cons hblocked hnext] at h
            obtain ⟨k, hk, htaken, hend⟩ := ih true count hcount (fun _ => hlt) h.2
            rw [Script.trace_cons hblocked hnext, hnext]
            refine ⟨k, hk, ?_, hend.cons ?_⟩
            · rw [handedOver, List.flatMap_cons, hnone, List.nil_append]
              exact htaken
            · intro c' o' hmem _ _
              cases List.mem_singleton.mp hmem
              exact hagain
          · -- Any other errno ends the loop with the bytes that were taken before.
            have hnext (os : List Outcome) : sendLoop p flags false count (o :: os) =
                .ok (⟨count, some o.errno⟩, os) := by
              rw [sendLoop, if_neg hall, if_pos hneg, if_neg hagain]
            have herrno : 0 < o.errno := by
              rcases hanswer with ⟨hpos, -⟩ | ⟨-, herrno⟩
              · exact absurd hpos (Int.not_lt.mpr (Int.le_of_lt hneg))
              · exact herrno
            rw [Script.trace_cons (k := fun os => .ok (⟨count, some o.errno⟩, os)) hblocked hnext,
              hnext, Script.trace_of_ok rfl]
            refine ⟨count, hcount, ?_, rfl, hlt, herrno, hagain, o, rfl, hneg, rfl⟩
            rw [handedOver, List.flatMap_singleton, hnone]
            exact List.append_nil _
        · obtain ⟨hpos, hle⟩ : 0 < o.ret ∧ o.ret ≤ (p.drop count).length := by
            rcases hanswer with hsome | ⟨hneg', -⟩
            · exact hsome
            · exact absurd hneg' hneg
          rw [List.length_drop] at hle
          have hsum : count + o.ret.toNat ≤ p.length := by omega
          have hnext (os : List Outcome) : sendLoop p flags false count (o :: os) =
              sendLoop p flags false (count + o.ret.toNat) os := by
            rw [sendLoop, if_neg hall, if_neg hneg, Nat.mod_eq_of_lt (hsum.trans_lt hp)]
          rw [Script.along_cons hblocked hnext] at h
          obtain ⟨k, hk, htaken, hend⟩ := ih false (count + o.ret.toNat) hsum nofun h.2
          rw [Script.trace_cons hblocked hnext, hnext]
          refine ⟨k, hk, ?_, hend.cons ?_⟩
          · rw [List.take_add, List.append_assoc] at htaken
            exact htaken
          · intro c' o' hmem _ hneg'
            cases List.mem_singleton.mp hmem
            exact absurd hneg' hneg
      · -- The poll hands no bytes over, whatever it returns.
        have hblocked : sendLoop p flags true count [] = .error (.pollOne .worker pollOut) := rfl
        have hnext (os : List Outcome) : sendLoop p flags true count (o :: os) =
            sendLoop p flags false count os := rfl
        rw [Script.along_cons hblocked hnext] at h
        obtain ⟨k, hk, htaken, hend⟩ := ih false count hcount nofun h.2
        rw [Script.trace_cons hblocked hnext, hnext]
        refine ⟨k, hk, htaken, hend.cons ?_⟩
        intro c' o' hmem hne
        cases List.mem_singleton.mp hmem
        exact absurd rfl hne

end Loop

/-! ## The request -/

/-- `MW_EAGAIN`. -/
def mwEagain : Int := 11

/-- Only the native errno of a call that would block is translated to that of the message. -/
theorem xeGetMwerrno_ne_again {e : Int} (hpos : 0 < e) (hne : e ≠ eagain) :
    xeGetMwerrno e ≠ mwEagain := by
  have honly : ∀ p ∈ emap, p.2 = mwEagain → p.1 = eagain := by decide
  rw [xeGetMwerrno, if_neg (Int.ne_of_gt hpos)]
  rcases hlookup : emap.lookup e with _ | m
  · decide
  · intro heq
    obtain ⟨before, after, hsplit, -⟩ := List.lookup_eq_some_iff.mp hlookup
    have hmem : (e, m) ∈ emap := by
      rw [hsplit]
      exact List.mem_append_right _ List.mem_cons_self
    exact hne (honly _ hmem heq)

/-- Whatever part the native sends take, and however often they would block, the bytes
handed over are the prefix of the payload that the response counts. The loop goes on only
while there are bytes left and nothing but blocking went wrong. -/
theorem send_hands_over_prefix {req : MtRequest} {p rest : List (BitVec 8)} (slot : Nat)
    (hbytes : req.bytes = p ++ rest) (hsize : req.size = mtRequestSocketSendSize + p.length)
    (hslot : req.size ≤ oneRequestRegionSize) (os : List Outcome)
    (h : Script.Along sendAnswer (xeNetSendSocket req slot) os) :
    match xeNetSendSocket req slot os with
    | .ok (r, _) =>
        handedOver (Script.trace (xeNetSendSocket req slot) os) = p.take r.response.count ∧
          r.response.count ≤ p.length ∧
          (r.response.status = 0 ↔ r.response.count = p.length) ∧
          r.response.status ≠ -mwEagain ∧
          (r.response.status ≠ 0 → ∃ o,
            (Script.trace (xeNetSendSocket req slot) os).getLast? = some
              (.send .worker (p.drop r.response.count) (xeNetTranslateMsgFlags req.opFlags), o) ∧
              o.ret < 0 ∧ r.response.status = -xeGetMwerrno o.errno)
    | .error _ =>
        onlyBlocked (Script.trace (xeNetSendSocket req slot) os) ∧
          ∃ k < p.length, handedOver (Script.trace (xeNetSendSocket req slot) os) = p.take k := by
  have hpayload : sendPayload req = p := by
    rw [sendPayload, hbytes, hsize, Nat.add_sub_cancel_left, List.take_left]
  have hsmall : p.length < 2 ^ 16 := by
    have hregion : oneRequestRegionSize < 2 ^ 16 := by decide
    omega
  rw [xeNetSendSocket, Script.along_bind_pure, hpayload] at h
  obtain ⟨k, hk, htaken, hend⟩ := sendLoop_prefix hsmall os false 0 (Nat.zero_le _) nofun h
  rw [List.take_zero, List.nil_append] at htaken
  rw [xeNetSendSocket, Script.trace_bind_pure, hpayload, htaken, Script.bind_run]
  rcases hrun : sendLoop p (xeNetTranslateMsgFlags req.opFlags) false 0 os with
    c | ⟨⟨count, failed⟩, later⟩
  · rw [hrun] at hend
    exact ⟨hend.2, k, hend.1, rfl⟩
  · rw [hrun] at hend
    obtain ⟨rfl, hend⟩ := hend
    refine ⟨rfl, hk, ?_⟩
    rcases failed with _ | err
    · have hzero : (0 : Int) ≠ -mwEagain := by decide
      exact ⟨iff_of_true rfl hend, hzero, fun hne => absurd rfl hne⟩
    · obtain ⟨hlt, hpos, hagain, o, hlast, hret, rfl⟩ := hend
      have hstatus : xeGetNegErrnoVal o.errno = -xeGetMwerrno o.errno := if_pos hpos
      refine ⟨?_, ?_, fun _ => ⟨o, hlast, hret, hstatus⟩⟩
      · exact iff_of_false (xeGetNegErrnoVal_ne_zero _) (Nat.ne_of_lt hlt)
      · show xeGetNegErrnoVal o.errno ≠ -mwEagain
        rw [hstatus, ne_eq, neg_inj]
        exact xeGetMwerrno_ne_again hpos hagain

/-- Five bytes: two go out, the next call would block, one more byte goes out, and then
the peer is gone. -/
theorem send_hands_over_prefix_parts :
    let req : MtRequest :=
      { type := .socketSend, bytes := [1, 2, 3, 4, 5], size := mtRequestSocketSendSize + 5 }
    let os : List Outcome :=
      [{ ret := 2 }, { ret := -1, errno := eagain }, { ret := 1 }, { ret := 1 },
        { ret := -1, errno := 32 }]
    ∃ r rest, xeNetSendSocket req 0 os = .ok (r, rest) ∧
      handedOver (Script.trace (xeNetSendSocket req 0) os) = [1, 2, 3, 4, 5].take r.response.count ∧
      r.response.count = 3 ∧ r.response.status = -mwEpipe := by
  intro req os
  have halong : Script.Along sendAnswer (xeNetSendSocket req 0) os := by
    rw [xeNetSendSocket, Script.along_bind_pure]
    show Script.Along sendAnswer (sendLoop [1, 2, 3, 4, 5] (xeNetTranslateMsgFlags 0) false 0)
      [{ ret := 2 }, { ret := -1, errno := eagain }, { ret := 1 }, { ret := 1 },
        { ret := -1, errno := 32 }]
    have hpart : sendAnswer (.send .worker [1, 2, 3, 4, 5] (xeNetTranslateMsgFlags 0)) { ret := 2 } := .inl (by decide)
    have hwould : sendAnswer (.send .worker [3, 4, 5] (xeNetTranslateMsgFlags 0)) { ret := -1, errno := eagain } :=
      .inr (by decide)
    have hmore : sendAnswer (.send .worker [3, 4, 5] (xeNetTranslateMsgFlags 0)) { ret := 1 } := .inl (by decide)
    have hgone : sendAnswer (.send .worker [4, 5] (xeNetTranslateMsgFlags 0)) { ret := -1, errno := 32 } := .inr (by decide)
    refine Iff.mpr (Script.along_cons rfl fun _ => rfl) ⟨hpart, ?_⟩
    refine Iff.mpr (Script.along_cons rfl fun _ => rfl) ⟨hwould, ?_⟩
    refine Iff.mpr (Script.along_cons rfl fun _ => rfl) ⟨trivial, ?_⟩
    refine Iff.mpr (Script.along_cons rfl fun _ => rfl) ⟨hmore, ?_⟩
    refine Iff.mpr (Script.along_cons rfl fun _ => rfl) ⟨hgone, ?_⟩
    exact Script.along_nil _ _
  have htaken := send_hands_over_prefix (p := [1, 2, 3, 4, 5]) 0 (List.append_nil _).symm rfl
    (by decide) os halong
  exact ⟨_, [], rfl, htaken.1, rfl, rfl⟩

end MagicWand.Ins
