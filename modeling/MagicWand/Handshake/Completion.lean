import MagicWand.Handshake.Agreement

/-!
# The handshake comes to its end

When neither the driver nor an INS can go on, the INS is registered and the driver has bound
the event channel, unless the INS wrote its id before there was a watch or found all entries
taken. And they cannot go on for ever: every step uses up some of what there is to do.
-/

namespace MagicWand

open Foundation Kernel

namespace Handshake

variable {me : BitVec 16} {count chunkSize hz : Nat} {s s' : Handshake} {d : BitVec 16}
  {i : Fin maxInsCount}

/-! ## Entries are taken and not given back -/

/-- The entries that a call has passed are in use. -/
def Probed (t : InsTable) : Prop :=
  ∀ id n, t.found 0 = .probing id n → ∀ j : Fin maxInsCount, j.val < n → (t.ins j).inUse = true

theorem inUse_setEntry {t : InsTable} (huse : (t.ins i).inUse = true) (j : Fin maxInsCount)
    (f : InsEntry → InsEntry) (hf : ∀ e : InsEntry, e.inUse = true → (f e).inUse = true) :
    ((t.setEntry j f).ins i).inUse = true := by
  have hins : (t.setEntry j f).ins i = if i = j then f (t.ins j) else t.ins i :=
    Function.update_apply ..
  rw [hins]
  split
  · next hij => exact hf _ (hij ▸ huse)
  · exact huse

/-- No step of a call gives an entry back, and each passes an entry only if it is in use. -/
theorem of_move {t t' : InsTable} (h : Probed t)
    (hs : t.insFound 0 true (t.found 0) = some t') :
    Probed t' ∧ ∀ i, (t.ins i).inUse = true → (t'.ins i).inUse = true := by
  have quiet {u : InsTable} (hpc : ∀ id n, u.found 0 ≠ .probing id n) : Probed u :=
    fun id n hat => absurd hat (hpc id n)
  unfold InsTable.insFound at hs
  split at hs
  · cases hs
  · next id n hpc =>
      split at hs
      · next hn =>
          split at hs
          · next huse =>
              obtain rfl := Option.some.inj hs
              refine ⟨fun id' n' hat j hj => ?_, fun i hi => hi⟩
              simp only [InsTable.goto, Function.update_self, Found.probing.injEq] at hat
              obtain ⟨rfl, rfl⟩ := hat
              rcases Nat.lt_succ_iff_lt_or_eq.mp hj with hlt | heq
              · exact h id n hpc j hlt
              · obtain rfl : j = ⟨n, hn⟩ := Fin.ext heq
                exact huse
          · obtain rfl := Option.some.inj hs
            refine ⟨quiet (by simp [InsTable.goto]), fun i hi => ?_⟩
            exact inUse_setEntry hi ⟨n, hn⟩ (fun e => { e with inUse := true }) fun _ _ => rfl
      · obtain rfl := Option.some.inj hs
        exact ⟨quiet (by simp [InsTable.goto]), fun i hi => hi⟩
  · next id j hpc =>
      obtain rfl := Option.some.inj hs
      refine ⟨quiet (by simp [InsTable.goto]), fun i hi => ?_⟩
      exact inUse_setEntry hi j (fun e => { e with domid := BitVec.ofInt 16 (simpleStrtol id) })
        fun _ he => he
  · next j stage todo hpc =>
      obtain rfl := Option.some.inj hs
      refine ⟨quiet fun id n => ?_, fun i hi => hi⟩
      simp only [InsTable.goto, Function.update_self]
      split <;> simp
  · next j hpc =>
      obtain rfl := Option.some.inj hs
      refine ⟨quiet (by simp [InsTable.goto]), fun i hi => ?_⟩
      exact inUse_setEntry hi j
        (fun e => { e with lastSeenTime := t.jiffies, missedHeartbeats := 0 }) fun _ he => he
  · next j hpc =>
      obtain rfl := Option.some.inj hs
      refine ⟨quiet (by simp [InsTable.goto]), fun i hi => ?_⟩
      exact inUse_setEntry hi j (fun e => { e with isRingReady := true }) fun _ he => he

theorem of_tableStep {t t' : InsTable} {e : InsEvent} (h : Probed t) (hG : t.orderly hz e)
    (hs : t.step hz e = some t') (hcall : SingleCall e) :
    Probed t' ∧ ∀ i, (t.ins i).inUse = true → (t'.ins i).inUse = true := by
  rcases hcall with hpassive | rfl | ⟨id, rfl⟩
  · have hidles := idles_of_step hpassive hG hs
    refine ⟨fun id n hpc j hj => ?_, fun i hi => (hidles.inUse i).trans hi⟩
    rw [hidles.found] at hpc
    exact (hidles.inUse j).trans (h id n hpc j hj)
  · exact of_move h hs
  · simp only [InsTable.step] at hs
    split at hs
    · cases hs
      exact ⟨h, fun i hi => hi⟩
    · split at hs
      · cases hs
        exact ⟨h, fun i hi => hi⟩
      · cases hs
        refine ⟨fun id' n hat j hj => ?_, fun i hi => hi⟩
        simp only [InsTable.goto, Function.update_self, Found.probing.injEq] at hat
        obtain ⟨-, rfl⟩ := hat
        exact absurd hj (Nat.not_lt_zero _)
    · cases hs

/-- An INS is refused only if there is no entry for it. -/
structure Crowded (s : Handshake) : Prop where
  probed : Probed s.table
  full : s.refused ≠ [] → ∀ i, (s.table.ins i).inUse = true

theorem Crowded.step (h : s.Crowded) (hsound : s.Sound me count) (hcount : 2 ≤ count)
    (hfit : count ≤ 2 ^ 30) {e : HandshakeEvent} (hG : s.orderly count hz e)
    (hs : Handshake.step me count chunkSize hz s e = some s') : s'.Crowded := by
  have htable : Probed s'.table ∧ ∀ i, (s.table.ins i).inUse = true →
      (s'.table.ins i).inUse = true := by
    rcases hsound.table_step hcount hfit hG hs with hsame | ⟨e', hcall, horderly, hstep⟩
    · rw [hsame]
      exact ⟨h.probed, fun _ hi => hi⟩
    · exact of_tableStep h.probed horderly hstep hcall
  refine ⟨htable.1, fun hne i => htable.2 i ?_⟩
  have stays (hrefused : s'.refused = s.refused) : (s.table.ins i).inUse = true :=
    h.full (hrefused ▸ hne) i
  have passes {e : InsEvent}
      (hs : (s.table.step hz e).map (fun t => { s with table := t }) = some s') :
      (s.table.ins i).inUse = true := by
    obtain ⟨t, -, rfl⟩ := Option.map_eq_some_iff.mp hs
    exact stays rfl
  cases e with
  | init ok => exact stays (apart_of_init hs).refused
  | xenwatch irq => exact stays (watchStep hs).refused
  | found ok err port refs =>
      obtain ⟨rfl, rfl, -⟩ := hG
      cases hsound.callStep hcount hfit hs with
      | moves _ _ _ hrefused =>
          rcases hrefused with hsame | ⟨id, n, hpc, hn⟩
          · exact stays hsame
          · exact h.probed id n hpc i (lt_of_lt_of_le i.isLt hn)
      | writes _ _ _ _ hrefused => exact stays hrefused
  | register d ok => exact stays (apart_of_register hs).refused
  | heartbeat d value => exact stays (apart_of_heartbeat hs).refused
  | tick n => exact passes (e := .tick n) hs
  | reap => exact passes (e := .reap) hs
  | visit => exact passes (e := .visit) hs

theorem sound_crowded_of_run (hcount : 2 ≤ count) (hfit : count ≤ 2 ^ 30) {jiffies : BitVec 64}
    {es : List HandshakeEvent}
    (hG : (handshake me count chunkSize hz jiffies).Guarded (Handshake.orderly count hz) es)
    (hrun : (handshake me count chunkSize hz jiffies).run es = some s) :
    s.Sound me count ∧ s.Crowded := by
  refine @System.guarded_invariant _ _ (handshake me count chunkSize hz jiffies) _
    (fun s => s.Sound me count ∧ s.Crowded) ⟨Sound.init hz jiffies, ?_, ?_⟩ ?_ es s hG hrun
  · intro id n hpc
    cases hpc
  · intro hne
    exact absurd rfl hne
  · rintro s e s' hguard hs ⟨hsound, h⟩
    exact ⟨hsound.step hcount hfit hguard hs, h.step hsound hcount hfit hguard hs⟩

/-! ## At rest -/

/-- An event of the driver's load and calls, or a step of INS `d`. -/
def concerns (d : BitVec 16) : HandshakeEvent → Bool
  | .init _ => true
  | .xenwatch _ => true
  | .found _ _ _ _ => true
  | .register d' _ => d' = d
  | _ => false

/-- Neither the driver nor INS `d` can go on. -/
def AtRest (me : BitVec 16) (count chunkSize hz : Nat) (s : Handshake) (d : BitVec 16) : Prop :=
  ∀ e, concerns d e = true → s.orderly count hz e →
    Handshake.step me count chunkSize hz s e = none

theorem moveFound_ne_none {u : Handshake} {ok : Bool} (h : u.table.found 0 ≠ .idle) :
    u.moveFound ok ≠ none := by
  intro hnone
  rw [moveFound, Option.map_eq_none_iff] at hnone
  cases hpc : u.table.found 0 with
  | idle => exact h hpc
  | probing id n =>
      simp only [hpc, InsTable.insFound] at hnone
      split at hnone
      · split at hnone <;> cases hnone
      · cases hnone
  | naming id i =>
      rw [hpc] at hnone
      cases hnone
  | setup i todo =>
      rw [hpc] at hnone
      cases todo <;> cases hnone
  | ready i =>
      rw [hpc] at hnone
      cases hnone

theorem write_ne_none {ok : Bool} {err : Int} (h : s.table.found 0 ≠ .idle) :
    s.writeGrantRefsToKey count chunkSize i ok err ≠ none := by
  unfold writeGrantRefsToKey
  simp only []
  split
  · split
    · exact Option.some_ne_none _
    · exact moveFound_ne_none h
  · split
    · exact moveFound_ne_none h
    · exact Option.some_ne_none _
  · generalize (if 0 < _ then storeChunk _ _ _ else _) = r
    split
    · exact moveFound_ne_none h
    · exact Option.some_ne_none _
  · split
    · exact moveFound_ne_none h
    · exact moveFound_ne_none h

/-- A call can always go on. -/
theorem found_ne_none {port : Nat} {refs : InsGrantRefs} (h : s.table.found 0 ≠ .idle) :
    s.mwXenInsFound count chunkSize true 0 port refs ≠ none := by
  unfold mwXenInsFound
  split
  · unfold createUnboundEvtChn
    split
    · exact moveFound_ne_none h
    · exact moveFound_ne_none (u := Handshake.write _ _ _) h
  · exact moveFound_ne_none h
  · exact moveFound_ne_none h
  · exact write_ne_none h
  · split
    · exact moveFound_ne_none h
    · exact moveFound_ne_none h
  · exact moveFound_ne_none h

/-- An event can always be handled when the call before has returned. -/
theorem xenwatch_ne_none {irq : Int} (hidle : s.table.found 0 = .idle)
    (hevents : s.watchEvents ≠ []) : s.xenwatch hz irq ≠ none := by
  obtain ⟨path, events, hcons⟩ := List.exists_cons_of_ne_nil hevents
  have hfound (id : Option (List Char)) : ∃ t, s.table.step hz (.found 0 id) = some t := by
    cases id with
    | none => exact ⟨s.table, by simp only [InsTable.step, hidle]⟩
    | some id =>
        simp only [InsTable.step, hidle]
        split <;> exact ⟨_, rfl⟩
  have hbound (d : BitVec 16) : ∃ t, s.table.step hz (.bound d) = some t := by
    simp only [InsTable.step]
    split <;> exact ⟨_, rfl⟩
  have hbeat (d : BitVec 16) : ∃ t, s.table.step hz (.heartbeat d) = some t := by
    simp only [InsTable.step]
    split
    · exact ⟨_, rfl⟩
    · split <;> exact ⟨_, rfl⟩
  simp only [Handshake.xenwatch, hidle, hcons]
  split
  · obtain ⟨t, ht⟩ := hfound (s.store path)
    simp only [ht, Option.map_some, ne_eq, reduceCtorEq, not_false_eq_true]
  · simp only [Handshake.mwXenBindEvtChn]
    split
    · exact Option.some_ne_none _
    · next d _ =>
        obtain ⟨t, ht⟩ := hbound d
        simp only [ht]
        split
        · split
          · exact Option.some_ne_none _
          · split <;> exact Option.some_ne_none _
        · simp only [Option.map_some, ne_eq, reduceCtorEq, not_false_eq_true]
  · split
    · exact Option.some_ne_none _
    · next d _ =>
        obtain ⟨t, ht⟩ := hbeat d
        simp only [ht, Option.map_some, ne_eq, reduceCtorEq, not_false_eq_true]
  · exact Option.some_ne_none _

theorem Sound.driver_rests (h : s.Sound me count) (hcount : 2 ≤ count) (hfit : count ≤ 2 ^ 30)
    (hrest : s.AtRest me count chunkSize hz d) :
    s.init = .done ∧ s.table.found 0 = .idle ∧ s.watchEvents = [] := by
  have hidle : s.table.found 0 = .idle := by
    by_contra hne
    have hstep := hrest (.found true 0 1 ⟨List.replicate count 0, by simp; omega, by simpa⟩) rfl
      ⟨rfl, rfl, by omega, by omega, List.length_replicate, by simp⟩
    exact found_ne_none hne hstep
  refine ⟨?_, hidle, ?_⟩
  · have hstep := hrest (.init true) rfl rfl
    have hloaded := h.loaded
    simp only [Handshake.step, Handshake.mwXenInit] at hstep
    split at hstep
    all_goals first
      | assumption
      | contradiction
  · by_contra hne
    exact xenwatch_ne_none hidle hne (hrest (.xenwatch 1) rfl Int.one_pos)

/-- An INS that can go no further is registered, unless it can not be served. -/
theorem Sound.registered_of_rest (h : s.Sound me count) (hme : me ≠ 0)
    (hinit : s.init = .done)
    (hserved : s.ins d ≠ .start → ∃ i, serving s.table i = some (d, []))
    (hrest : s.xeCommsRegister count d true = none) :
    ∃ r refs port, s.ins d = .registered r refs port := by
  have hport : ownPath d vmEvtChnPortKey = insPath d vmEvtChnPortKey := ownPath_eq (by decide)
  have htotal : ownPath d gntRefChunks = insPath d gntRefChunks := ownPath_eq (by decide)
  have htold := (h.each d).told
  cases hpc : s.ins d with
  | start =>
      simp only [Handshake.xeCommsRegister, hpc, if_true, reduceCtorEq] at hrest
  | server =>
      have hread := h.server.published (.inr hinit)
      have hpos : (me.toNat : Int) ≠ 0 := by
        intro hzero
        exact hme (BitVec.eq_of_toNat_eq (by simpa using hzero))
      simp only [Handshake.xeCommsRegister, hpc, hread, hpos, if_false, reduceCtorEq] at hrest
  | chunks r =>
      obtain ⟨i, hi⟩ := hserved (by simp [hpc])
      have hoffered : s.Offered count d (s.grantRefs i) :=
        ((h.each d).offers i [] hi).total List.not_mem_nil
      obtain ⟨v, hv, hhead, -⟩ := hoffered.readChunks
      simp only [Handshake.xeCommsRegister, hpc, htotal] at hrest
      split at hrest
      · next hnone =>
          rw [hv] at hnone
          cases hnone
      · next hzero =>
          rw [hv] at hzero
          cases hzero
          exact absurd rfl hhead
      · cases hrest
  | total r =>
      simp only [Handshake.xeCommsRegister, hpc] at hrest
      split at hrest <;> cases hrest
  | refs r left gnt acc =>
      cases left with
      | zero =>
          simp only [Handshake.xeCommsRegister, hpc, reduceCtorEq] at hrest
      | succ left =>
          simp only [Handshake.xeCommsRegister, hpc] at hrest
          split at hrest
          · cases hrest
          · split at hrest <;> cases hrest
  | map r refs =>
      simp only [Handshake.xeCommsRegister, hpc, reduceCtorEq] at hrest
  | port r refs =>
      obtain ⟨i, hi⟩ := hserved (by simp [hpc])
      obtain ⟨hstore, hpos, hlt⟩ := ((h.each d).offers i [] hi).port List.not_mem_nil
      have hne : (s.commonEvtchn i : Int) ≠ 0 := by omega
      simp only [Handshake.xeCommsRegister, hpc, hport, hstore, readInt_toDigits hlt, hne, if_false,
        reduceCtorEq] at hrest
  | bind r refs port =>
      simp only [Handshake.xeCommsRegister, hpc, reduceCtorEq] at hrest
  | announce r refs port =>
      simp only [Handshake.xeCommsRegister, hpc, if_true, reduceCtorEq] at hrest
  | registered r refs port => exact ⟨r, refs, port, rfl⟩
  | failed =>
      rw [hpc] at htold
      exact htold.elim

theorem Sound.serving_of_rest (h : s.Sound me count) (hidle : s.table.found 0 = .idle)
    (hevents : s.watchEvents = []) (hearly : d ∉ s.early) (hrefused : d ∉ s.refused)
    (hstart : s.ins d ≠ .start) : ∃ i, serving s.table i = some (d, []) := by
  have honce := (h.each d).once
  have htokens : s.tokens d = 0 := by
    simp only [tokens, hevents, hidle, MagicWand.carried, List.count_nil,
      List.count_eq_zero.mpr hearly, List.count_eq_zero.mpr hrefused, reduceCtorEq, if_false]
  rw [if_neg hstart, htokens] at honce
  by_contra hno
  push Not at hno
  have hzero : entries s.table d = 0 := by
    refine entries_eq_zero fun i todo hi => hno i ?_
    obtain rfl : todo = leftFor s.table i := congrArg Prod.snd (serving_eq_some.mp hi).2.2
    rw [hi, leftFor, hidle]
  omega

/-- What there is of an INS when neither it nor the driver can go on. -/
inductive Outcome (me : BitVec 16) (count : Nat) (s : Handshake) (d : BitVec 16) : Prop where
  /-- It wrote its id before there was a watch. -/
  | missed (hearly : d ∈ s.early)
  /-- Other INSs have all entries. -/
  | refused (hfull : ∀ i, (s.table.ins i).inUse = true ∧ (s.table.ins i).domid ≠ d)
  /-- It is registered, and the driver has bound the event channel. -/
  | met {i : Fin maxInsCount} {r : BitVec 16} {refs : List (BitVec 32)} {port : Int}
      (hpc : s.ins d = .registered r refs port) (hagreed : s.Agreed me count i d r refs port)
      (hready : (s.table.ins i).isRingReady = true) (hirq : s.irq i ≠ 0)

/-- With no call under way, an entry in use is that of an INS that has been announced. -/
theorem Calls.ready_of_idle {t : InsTable} (h : Calls t) (hidle : t.found 0 = .idle)
    (huse : (t.ins i).inUse = true) : (t.ins i).isRingReady = true := by
  have hnone : ∀ n b, (t.found n).hold ≠ some (i, b) := by
    intro n b hhold
    have hpc : t.found n = .idle := by
      by_cases hn : n = 0
      · rw [hn, hidle]
      · exact h.single n hn
    rw [hpc] at hhold
    cases hhold
  cases h.sound.entries i with
  | free hnot => exact absurd (hnot.symm.trans huse) (by decide)
  | naming _ _ _ hhold => exact absurd hhold (hnone _ _)
  | setup _ _ _ hhold => exact absurd hhold (hnone _ _)
  | live _ hready => exact hready

theorem Sound.outcome (h : s.Sound me count) (hcrowded : s.Crowded) (hcount : 2 ≤ count)
    (hfit : count ≤ 2 ^ 30) (hme : me ≠ 0) (hvalid : validDomid d.toNat = true)
    (hrest : s.AtRest me count chunkSize hz d) : s.Outcome me count d := by
  obtain ⟨hinit, hidle, hevents⟩ := h.driver_rests hcount hfit hrest
  have hserves {i : Fin maxInsCount} (huse : (s.table.ins i).inUse = true) :
      serving s.table i = some ((s.table.ins i).domid, leftFor s.table i) :=
    serving_eq_some.mpr ⟨huse, by rw [hidle]; simp [Found.hold], rfl⟩
  by_cases hearly : d ∈ s.early
  · exact .missed hearly
  by_cases hrefused : d ∈ s.refused
  · refine .refused fun i => ?_
    have huse := hcrowded.full (List.ne_nil_of_mem hrefused) i
    refine ⟨huse, fun heq => ?_⟩
    have hpos : 0 < s.tokens d := by
      have := List.count_pos_iff.mpr hrefused
      rw [tokens]
      omega
    exact ((h.each d).unserved_of_tokens hpos).2.2 i _ (heq ▸ hserves huse)
  · have hins : s.xeCommsRegister count d true = none :=
      hrest (.register d true) (by simp [concerns]) ⟨rfl, hvalid⟩
    obtain ⟨r, refs, port, hpc⟩ := h.registered_of_rest hme hinit
      (h.serving_of_rest hidle hevents hearly hrefused) hins
    obtain ⟨i, hagreed⟩ := h.agreed hpc
    refine .met hpc hagreed (h.calls.ready_of_idle hidle hagreed.inUse) ?_
    rcases (h.each d).ends (by rw [hpc]; rfl) with hmem | ⟨j, todo, hj, hirq⟩
    · rw [hevents] at hmem
      cases hmem
    · have hi := hserves hagreed.inUse
      rw [hagreed.domid] at hi
      exact h.calls.serving_inj hj hi ▸ hirq

/-! ## What there is to do -/

def stageCost (count : Nat) : Setup → Nat
  | .evtChn => 2
  | .grantRefs => 2 * count + 5
  | _ => 1

def setUpCost (count : Nat) (todo : List Setup) : Nat := (todo.map (stageCost count)).sum + 2

/-- The steps that a call that is in the loop over the entries can still take, and the events
that they make. -/
def probeCost (count n : Nat) : Nat := maxInsCount - n + 2 + setUpCost count allSetups

/-- The steps and events that a call still makes. -/
def callCost (count : Nat) : Found → Option Publishing → Nat
  | _, some (.refs _ todo) => 2 * todo.length + 6
  | _, some (.total _) => 4
  | .idle, none => 0
  | .probing _ n, none => probeCost count n
  | .naming _ _, none => 1 + setUpCost count allSetups
  | .setup _ todo, none => setUpCost count todo
  | .ready _, none => 1

/-- An event has to be handled; that of a new INS starts a call. -/
def eventCost (count : Nat) (path : List Char) : Nat :=
  if mwXenXenstoreStateChanged path = .insFound then 1 + probeCost count 0 else 1

def initCost : DriverInit → Nat
  | .mkdir => 5
  | .reset => 4
  | .publish => 3
  | .watch => 2
  | .done => 0
  | .failed => 0

def insCost (count : Nat) : Registering → Nat
  | .start => count + 11 + probeCost count 0
  | .server => count + 9
  | .chunks _ => count + 8
  | .total _ => count + 7
  | .refs _ left _ _ => left + 6
  | .map _ _ => 5
  | .port _ _ => 4
  | .bind _ _ _ => 3
  | .announce _ _ _ => 2
  | .registered _ _ _ => 0
  | .failed => 0

/-- What is left to do for the INSs, of which there is one for each id. -/
def insCosts (count : Nat) (ins : BitVec 16 → Registering) : Nat :=
  ∑ x : Fin (2 ^ 16), insCost count (ins (BitVec.ofFin x))

def cost (count : Nat) (s : Handshake) : Nat :=
  initCost s.init + (s.watchEvents.map (eventCost count)).sum +
    callCost count (s.table.found 0) s.publishing + insCosts count s.ins

theorem insCosts_update (count : Nat) (ins : BitVec 16 → Registering) (d : BitVec 16)
    (pc : Registering) :
    insCosts count (Function.update ins d pc) + insCost count (ins d) =
      insCosts count ins + insCost count pc := by
  have hd : BitVec.ofFin d.toFin = d := rfl
  have hsame : ∀ x ∈ Finset.univ.erase d.toFin,
      insCost count (Function.update ins d pc (BitVec.ofFin x)) =
        insCost count (ins (BitVec.ofFin x)) := by
    intro x hx
    rw [Function.update_of_ne]
    rintro rfl
    exact Finset.ne_of_mem_erase hx rfl
  rw [insCosts, insCosts, ← Finset.add_sum_erase _ _ (Finset.mem_univ d.toFin),
    ← Finset.add_sum_erase _ _ (Finset.mem_univ d.toFin), Finset.sum_congr rfl hsame, hd,
    Function.update_self]
  omega

theorem eventCost_of_ne (count : Nat) {path : List Char}
    (h : mwXenXenstoreStateChanged path ≠ .insFound) :
    eventCost count path = 1 := if_neg h

theorem sum_append_event {events : List (List Char)} {path : List Char}
    (h : mwXenXenstoreStateChanged path ≠ .insFound) :
    ((events ++ [path]).map (eventCost count)).sum = (events.map (eventCost count)).sum + 1 := by
  rw [List.map_append, List.sum_append, List.map_singleton, List.sum_singleton,
    eventCost_of_ne count h]

/-- The events that a call makes before it writes the references. -/
def callEvents : Found → Nat
  | .setup _ (.evtChn :: _) => 1
  | _ => 0

theorem QuietEvents.sum_le (count : Nat) (h : QuietEvents s s') :
    (s'.watchEvents.map (eventCost count)).sum ≤ (s.watchEvents.map (eventCost count)).sum + 1 := by
  rcases h with hsame | ⟨-, path, hpath, happ⟩
  · rw [hsame]
    exact Nat.le_succ _
  · rw [happ, sum_append_event (by rw [hpath]; decide)]

theorem QuietEvents.sum_le_callEvents (count : Nat) (h : QuietEvents s s')
    (hnone : s.publishing = none) :
    (s'.watchEvents.map (eventCost count)).sum ≤
      (s.watchEvents.map (eventCost count)).sum + callEvents (s.table.found 0) := by
  rcases h with hsame | ⟨⟨i, todo, hpc⟩ | hsome, path, hpath, happ⟩
  · rw [hsame]
    exact Nat.le_add_right _ _
  · rw [happ, sum_append_event (by rw [hpath]; decide), hpc]
    rfl
  · exact absurd hnone hsome

/-- What a step of a call in the table costs, with the event that it may make. -/
theorem callCost_move (count : Nat) {t t' : InsTable}
    (hs : t.insFound 0 true (t.found 0) = some t') :
    callCost count (t'.found 0) none + 1 + callEvents (t.found 0) ≤
      callCost count (t.found 0) none := by
  cases hpc : t.found 0 with
  | idle =>
      rw [hpc] at hs
      cases hs
  | probing id n =>
      rw [hpc] at hs
      simp only [InsTable.insFound] at hs
      split at hs
      · next hn =>
          split at hs
          · obtain rfl := Option.some.inj hs
            simp only [InsTable.goto, Function.update_self, callCost, probeCost, callEvents]
            omega
          · obtain rfl := Option.some.inj hs
            simp only [InsTable.goto, Function.update_self, callCost, probeCost, callEvents]
            omega
      · obtain rfl := Option.some.inj hs
        simp only [InsTable.goto, Function.update_self, callCost, probeCost, callEvents]
        omega
  | naming id i =>
      rw [hpc] at hs
      obtain rfl := Option.some.inj hs
      simp only [InsTable.goto, Function.update_self, callCost, callEvents, allSetups]
      omega
  | setup i todo =>
      rw [hpc] at hs
      cases todo with
      | nil =>
          obtain rfl := Option.some.inj hs
          simp only [InsTable.goto, Function.update_self, callCost, callEvents, setUpCost]
          simp
      | cons stage todo =>
          have hfails : InsTable.setupFails (t.ins i) stage true = false := by
            cases stage <;> rfl
          simp only [InsTable.insFound, hfails, Bool.false_eq_true, if_false] at hs
          obtain rfl := Option.some.inj hs
          simp only [InsTable.goto, Function.update_self, callCost, setUpCost, List.map_cons,
            List.sum_cons]
          cases stage <;> simp only [stageCost, callEvents] <;> omega
  | ready i =>
      rw [hpc] at hs
      obtain rfl := Option.some.inj hs
      simp only [InsTable.goto, Function.update_self, callCost, callEvents]
      omega

theorem Sound.idle_publishing (h : s.Sound me count) (hidle : s.table.found 0 = .idle) :
    s.publishing = none := h.no_publishing (by simp [hidle])

theorem CallStep.pays (h : s.Sound me count) (hs : CallStep s s') :
    s'.cost count + 1 ≤ s.cost count := by
  cases hs with
  | moves hmove hwriter hdone _ hevents hins hinit =>
      have hcall := callCost_move count hmove
      rcases hwriter with ⟨hnone, -⟩ | ⟨w, hp⟩
      · have hsum := hevents.sum_le_callEvents count hnone
        rw [cost, cost, hins, hinit, hdone, hnone]
        omega
      · have hsum := hevents.sum_le count
        obtain ⟨i, hpc, -⟩ := h.publishing _ hp
        rw [hpc] at hmove
        have hfound : s'.table.found 0 = .setup i [] := by
          rw [← Option.some.inj hmove]
          simp only [InsTable.goto, Function.update_self]
          rfl
        rw [cost, cost, hins, hinit, hdone, hp, hfound]
        simp only [callCost, setUpCost, List.map_nil, List.sum_nil]
        omega
  | @writes i p hpc htable hgoes hp _ hevents hins hinit =>
      have hsum := hevents.sum_le count
      rw [cost, cost, hins, hinit, htable, hp]
      cases hold : s.publishing with
      | none =>
          rw [hold] at hgoes
          have hquiet := hevents.sum_le_callEvents count hold
          cases p with
          | refs w todo =>
              obtain rfl : todo = s.grantRefs i := hgoes
              have hlen := (((h.each _).offers i _ (h.calls.serving_setup hpc)).refs (by decide)).1
              rw [hpc] at hquiet ⊢
              simp only [callCost, callEvents, setUpCost, stageCost, List.map_cons, List.map_nil,
                List.sum_cons, List.sum_nil, hlen] at hquiet ⊢
              omega
          | total w => exact hgoes.elim
      | some q =>
          rw [hold] at hgoes
          cases q with
          | refs w refs =>
              cases refs with
              | nil =>
                  cases p with
                  | refs w' todo => exact hgoes.elim
                  | total w' =>
                      simp only [callCost, List.length_nil]
                      omega
              | cons ref refs =>
                  cases p with
                  | refs w' todo =>
                      obtain rfl : todo = refs := hgoes
                      simp only [callCost, List.length_cons]
                      omega
                  | total w' => exact hgoes.elim
          | total w => exact hgoes.elim

/-- The driver takes an event. -/
theorem WatchStep.pays (h : s.Sound me count) (hs : WatchStep hz s s') :
    s'.cost count + 1 ≤ s.cost count := by
  obtain ⟨path, hevents, hother⟩ := hs.events
  have hnone := h.idle_publishing hs.idle
  rw [cost, cost, hs.ins, hs.init, hs.publishing, hnone, hevents, hs.idle, List.map_cons,
    List.sum_cons]
  by_cases hfound : mwXenXenstoreStateChanged path = .insFound
  · rw [eventCost, if_pos hfound]
    rcases hs.found with hidle | ⟨id, hpc⟩
    · rw [hidle]
      omega
    · rw [hpc]
      simp only [callCost]
      omega
  · rw [hother hfound, hs.idle, eventCost_of_ne count hfound]
    omega

theorem init_pays (count : Nat) (hs : s.mwXenInit me true = some s') :
    s'.cost count + 1 ≤ s.cost count := by
  have hroot : mwXenXenstoreStateChanged xeneventXenstoreRoot = .nothing := by decide
  have hapart := apart_of_init hs
  rw [cost, cost, hapart.table, hapart.publishing]
  unfold Handshake.mwXenInit at hs
  split at hs
  · next hinit =>
      obtain rfl := Option.some.inj hs
      simp only [if_true, write, hinit, reduceCtorEq, if_false, initCost]
      omega
  · next hinit =>
      obtain rfl := Option.some.inj hs
      simp only [if_true, write, hinit, reduceCtorEq, if_false, initCost]
      omega
  · next hinit =>
      obtain rfl := Option.some.inj hs
      simp only [if_true, write, hinit, reduceCtorEq, if_false, initCost]
      omega
  · next hinit =>
      obtain rfl := Option.some.inj hs
      simp only [if_true, hinit, initCost]
      rw [sum_append_event (by rw [hroot]; decide)]
      omega
  · cases hs
  · cases hs

/-- INS `d` goes on, and may make an event. -/
theorem goto_pays {pc : Registering} (hins : s'.ins = Function.update s.ins d pc)
    (hapart : Apart s s') (hinit : s'.init = s.init)
    (hevents : (s'.watchEvents.map (eventCost count)).sum + insCost count pc + 1 ≤
      (s.watchEvents.map (eventCost count)).sum + insCost count (s.ins d)) :
    s'.cost count + 1 ≤ s.cost count := by
  have hupdate := insCosts_update count s.ins d pc
  rw [cost, cost, hins, hapart.table, hapart.publishing, hinit]
  omega

theorem sum_write_le (count : Nat) (s : Handshake) (path value : List Char) :
    ((s.write path value).watchEvents.map (eventCost count)).sum ≤
      (s.watchEvents.map (eventCost count)).sum + eventCost count path := by
  rcases s.watchEvents_write path value with hsame | happ
  · rw [hsame]
    exact Nat.le_add_right _ _
  · rw [happ, List.map_append, List.sum_append, List.map_singleton, List.sum_singleton]

/-- There are not more chunks than references. -/
theorem Offered.chunks_le (h : s.Sound me count) {refs : List (BitVec 32)}
    (hoffered : s.Offered count d refs) {v : List Char}
    (hv : s.store (insPath d gntRefChunks) = some v) : (readInt (some v)).toNat ≤ count := by
  obtain ⟨i, todo, hi, hmem, hrefs⟩ := h.served hoffered
  obtain rfl := h.setUp hi hmem
  have hlen := (((h.each d).offers i [] hi).refs List.not_mem_nil).1
  obtain ⟨v', hv', -, hread⟩ := hoffered.readChunks
  obtain rfl : v' = v := Option.some.inj (hv'.symm.trans hv)
  have hle := le_of_readChunks hread
  rw [List.length_nil, Nat.zero_add, ← hrefs, hlen] at hle
  exact hle

theorem Sound.register_pays (h : s.Sound me count) (hs : s.xeCommsRegister count d true = some s') :
    s'.cost count + 1 ≤ s.cost count := by
  have htotal : ownPath d gntRefChunks = insPath d gntRefChunks := ownPath_eq (by decide)
  have hapart := apart_of_register hs
  have htold := (h.each d).told
  have goes {pc : Registering} (hs : some (s.goto d pc) = some s')
      (hless : insCost count pc + 1 ≤ insCost count (s.ins d)) :
      s'.cost count + 1 ≤ s.cost count := by
    obtain rfl := Option.some.inj hs
    have hsame : (s.goto d pc).watchEvents = s.watchEvents := rfl
    exact goto_pays rfl hapart rfl (by rw [hsame]; omega)
  have writes {u : Handshake} {path value : List Char} {pc : Registering}
      (hs : some ((u.write path value).goto d pc) = some s') (hins : u.ins = s.ins)
      (hinit : u.init = s.init) (hevents : u.watchEvents = s.watchEvents)
      (hless : insCost count pc + eventCost count path + 1 ≤ insCost count (s.ins d)) :
      s'.cost count + 1 ≤ s.cost count := by
    obtain rfl := Option.some.inj hs
    have hins' : ((u.write path value).goto d pc).ins = Function.update s.ins d pc := by
      rw [← hins]
      rfl
    refine goto_pays hins' hapart hinit ?_
    have hsame : ((u.write path value).goto d pc).watchEvents = (u.write path value).watchEvents :=
      rfl
    have hle := sum_write_le count u path value
    rw [hsame]
    rw [hevents] at hle
    omega
  cases hpc : s.ins d with
  | start =>
      have hcost : eventCost count (ownPath d insIdKey) ≤ 1 + probeCost count 0 := by
        unfold eventCost
        split <;> omega
      simp only [Handshake.xeCommsRegister, hpc, if_true] at hs
      refine writes hs ?_ ?_ ?_ (by rw [hpc]; simp only [insCost]; omega)
      · split <;> rfl
      · split <;> rfl
      · split <;> rfl
  | server =>
      simp only [Handshake.xeCommsRegister, hpc] at hs
      split at hs
      · cases hs
      · exact goes hs (by rw [hpc]; simp only [insCost]; omega)
  | chunks r =>
      simp only [Handshake.xeCommsRegister, hpc] at hs
      split at hs
      · cases hs
      · cases hs
      · exact goes hs (by rw [hpc]; simp only [insCost]; omega)
  | total r =>
      rw [hpc] at htold
      obtain ⟨-, refs, hoffered⟩ := htold
      obtain ⟨v, hv, -⟩ := hoffered.readChunks
      have hle := hoffered.chunks_le h hv
      simp only [Handshake.xeCommsRegister, hpc, htotal, hv] at hs
      exact goes hs (by rw [hpc]; simp only [insCost]; omega)
  | refs r left gnt acc =>
      cases left with
      | zero =>
          simp only [Handshake.xeCommsRegister, hpc] at hs
          exact goes hs (by rw [hpc]; simp only [insCost]; omega)
      | succ left =>
          simp only [Handshake.xeCommsRegister, hpc] at hs
          split at hs
          · exact goes hs (by rw [hpc]; simp only [insCost]; omega)
          · split at hs
            · exact goes hs (by rw [hpc]; simp only [insCost]; omega)
            · exact goes hs (by rw [hpc]; simp only [insCost]; omega)
  | map r refs =>
      simp only [Handshake.xeCommsRegister, hpc, if_true] at hs
      exact goes hs (by rw [hpc]; simp only [insCost]; omega)
  | port r refs =>
      simp only [Handshake.xeCommsRegister, hpc] at hs
      split at hs
      · cases hs
      · exact goes hs (by rw [hpc]; simp only [insCost]; omega)
  | bind r refs port =>
      simp only [Handshake.xeCommsRegister, hpc, if_true] at hs
      exact goes hs (by rw [hpc]; simp only [insCost]; omega)
  | announce r refs port =>
      have hbound : mwXenXenstoreStateChanged (ownPath d vmEvtChnBoundKey) = .bindEvtChn := by
        rw [ownPath_eq (by decide), stateChanged_insPath]
        decide
      have hcost := eventCost_of_ne count (by rw [hbound]; decide)
      simp only [Handshake.xeCommsRegister, hpc, if_true] at hs
      exact writes hs rfl rfl rfl (by rw [hpc, hcost]; simp only [insCost]; omega)
  | registered r refs port =>
      simp only [Handshake.xeCommsRegister, hpc] at hs
      cases hs
  | failed =>
      simp only [Handshake.xeCommsRegister, hpc] at hs
      cases hs

/-- A step of the handshake proper, which heartbeats and the reaper are not. -/
def isStep : HandshakeEvent → Bool
  | .init _ => true
  | .xenwatch _ => true
  | .found _ _ _ _ => true
  | .register _ _ => true
  | _ => false

def isHeartbeat : HandshakeEvent → Bool
  | .heartbeat _ _ => true
  | _ => false

theorem Sound.pays (h : s.Sound me count) (hcount : 2 ≤ count) (hfit : count ≤ 2 ^ 30)
    {e : HandshakeEvent} (hG : s.orderly count hz e)
    (hs : Handshake.step me count chunkSize hz s e = some s') :
    (isStep e).toNat + s'.cost count ≤ s.cost count + (isHeartbeat e).toNat := by
  have passes {e : InsEvent} (hpassive : Handshake.passive e = true) (hG : s.table.orderly hz e)
      (hs : (s.table.step hz e).map (fun t => { s with table := t }) = some s') :
      s'.cost count = s.cost count := by
    obtain ⟨t, ht, rfl⟩ := Option.map_eq_some_iff.mp hs
    have hfound : t.found 0 = s.table.found 0 := congrFun (idles_of_step hpassive hG ht).found 0
    simp only [cost, hfound]
  cases e with
  | init ok =>
      obtain rfl : ok = true := hG
      have := init_pays count hs
      simp only [isStep, isHeartbeat, Bool.toNat_true, Bool.toNat_false]
      omega
  | xenwatch irq =>
      have := (watchStep hs).pays h
      simp only [isStep, isHeartbeat, Bool.toNat_true, Bool.toNat_false]
      omega
  | found ok err port refs =>
      obtain ⟨rfl, rfl, -⟩ := hG
      have := (h.callStep hcount hfit hs).pays h
      simp only [isStep, isHeartbeat, Bool.toNat_true, Bool.toNat_false]
      omega
  | register d ok =>
      obtain ⟨rfl, -⟩ := hG
      have := h.register_pays hs
      simp only [isStep, isHeartbeat, Bool.toNat_true, Bool.toNat_false]
      omega
  | heartbeat d value =>
      have hbeat : mwXenXenstoreStateChanged (ownPath d insHeartbeatKey) = .insHeartbeat := by
        rw [ownPath_eq (by decide), stateChanged_insPath]
        decide
      have hcost := eventCost_of_ne count (by rw [hbeat]; decide)
      have hle := sum_write_le count s (ownPath d insHeartbeatKey) value
      rw [hcost] at hle
      simp only [Handshake.step] at hs
      split at hs
      · obtain rfl := Option.some.inj hs
        have hsame : (s.write (ownPath d insHeartbeatKey) value).cost count +
            (s.watchEvents.map (eventCost count)).sum = s.cost count +
            ((s.write (ownPath d insHeartbeatKey) value).watchEvents.map
              (eventCost count)).sum := by
          simp only [cost, write]
          omega
        simp only [isStep, isHeartbeat, Bool.toNat_true, Bool.toNat_false]
        omega
      · cases hs
  | tick n =>
      have := passes (e := .tick n) rfl trivial hs
      simp only [isStep, isHeartbeat, Bool.toNat_false]
      omega
  | reap =>
      have := passes (e := .reap) rfl trivial hs
      simp only [isStep, isHeartbeat, Bool.toNat_false]
      omega
  | visit =>
      have := passes (e := .visit) rfl hG hs
      simp only [isStep, isHeartbeat, Bool.toNat_false]
      omega

theorem sum_toNat {α : Type} (p : α → Bool) (l : List α) :
    (l.map fun a => (p a).toNat).sum = l.countP p := by
  induction l with
  | nil => rfl
  | cons a l ih =>
      rw [List.map_cons, List.sum_cons, ih, List.countP_cons, Nat.add_comm]
      cases p a <;> rfl

theorem cost_init (jiffies : BitVec 64) :
    (handshake me count chunkSize hz jiffies).init.cost count =
      5 + 2 ^ 16 * (3 * count + maxInsCount + 25) := by
  have hstart : insCost count .start = 3 * count + maxInsCount + 25 := by
    simp only [insCost, probeCost, setUpCost, allSetups, stageCost, List.map_cons, List.map_nil,
      List.sum_cons, List.sum_nil]
    omega
  have hsum : insCosts count (fun _ => .start) = 2 ^ 16 * (3 * count + maxInsCount + 25) := by
    simp only [insCosts, hstart, Finset.sum_const, Finset.card_univ, Fintype.card_fin, smul_eq_mul]
  simp only [handshake, cost, initCost, callCost, List.map_nil, List.sum_nil, hsum, Nat.add_zero]

end Handshake

/-- In every run in which nothing that the environment does fails, the driver and the INSs
take a bounded number of steps besides those that heartbeats ask for; and when neither the
driver nor an INS can go on, the INS is registered, its entry is announced and the driver has
bound the event channel, unless the INS wrote its id before there was a watch or other INSs
have all entries. -/
theorem handshake_completes (me : BitVec 16) (hme : me ≠ 0) {count chunkSize hz : Nat}
    (hcount : 2 ≤ count) (hfit : count ≤ 2 ^ 30) (jiffies : BitVec 64) (es : List HandshakeEvent)
    (hG : (handshake me count chunkSize hz jiffies).Guarded (Handshake.orderly count hz) es)
    (s : Handshake) (hrun : (handshake me count chunkSize hz jiffies).run es = some s) :
    es.countP Handshake.isStep ≤
      5 + 2 ^ 16 * (3 * count + maxInsCount + 25) + es.countP Handshake.isHeartbeat ∧
    ∀ d : BitVec 16, validDomid d.toNat = true → s.AtRest me count chunkSize hz d →
      s.Outcome me count d := by
  obtain ⟨h, hcrowded⟩ := Handshake.sound_crowded_of_run hcount hfit hG hrun
  refine ⟨?_, fun d hvalid hrest => h.outcome hcrowded hcount hfit hme hvalid hrest⟩
  have hpays := (handshake me count chunkSize hz jiffies).guardedFrom_amortized
    (fun s e s' hguard hs hsound => ⟨Handshake.Sound.step hsound hcount hfit hguard hs,
      Handshake.Sound.pays hsound hcount hfit hguard hs⟩) hG hrun (Handshake.Sound.init hz jiffies)
  rw [Handshake.sum_toNat, Handshake.sum_toNat, Handshake.cost_init] at hpays
  omega

theorem handshake_completes_meetFive :
    ∃ s, (handshake 2 3 2 250 0).run meetFive = some s ∧ s.Outcome 2 3 5 := by
  obtain ⟨s, hs, hpc, hinit, hevents, hidle⟩ := meetFive_run
  refine ⟨s, hs, (handshake_completes 2 (by decide) (by decide) (by decide) 0 meetFive
    meetFive_orderly s hs).2 5 (by decide) ?_⟩
  intro e he _
  cases e with
  | init ok => simp only [Handshake.step, Handshake.mwXenInit, hinit]
  | xenwatch irq => simp only [Handshake.step, Handshake.xenwatch, hidle, hevents]
  | found ok err port refs =>
      simp only [Handshake.step, Handshake.mwXenInsFound, hidle, Handshake.moveFound,
        InsTable.insFound, Option.map_none]
  | register d ok =>
      obtain rfl : d = 5 := by simpa [Handshake.concerns] using he
      simp only [Handshake.step, Handshake.xeCommsRegister, hpc]
  | _ => cases he

end MagicWand
