import MagicWand.Handshake.Invariant
import Mathlib.Algebra.Order.BigOperators.Group.Finset

/-!
# The steps that no INS notices

The driver is loaded, is called by the watch, and looks for an entry; time passes, the reaper
passes, and INSs write heartbeats. None of these changes what an INS reads or what has been
set up for it.
-/

namespace MagicWand

open Foundation Kernel

namespace Handshake

variable {me : BitVec 16} {count chunkSize hz : Nat} {s s' : Handshake} {d : BitVec 16}
  {i : Fin maxInsCount}

/-! ## Entries -/

theorem serving_eq_some {t : InsTable} {x : BitVec 16 × List Setup} :
    serving t i = some x ↔ (t.ins i).inUse = true ∧ (t.found 0).hold ≠ some (i, false) ∧
      x = ((t.ins i).domid, leftFor t i) := by
  unfold serving
  split_ifs with h
  · simp only [Option.some.injEq, h, true_and, ne_eq, not_false_eq_true]
    exact eq_comm
  · constructor
    · intro hx
      cases hx
    · rintro ⟨huse, hhold, -⟩
      exact absurd ⟨huse, hhold⟩ h

/-- What an entry serves depends on the entry and on the claim of the call. -/
theorem serving_congr {t t' : InsTable} (huse : (t'.ins i).inUse = (t.ins i).inUse)
    (hdomid : (t'.ins i).domid = (t.ins i).domid)
    (hhold : (t'.found 0).hold = some (i, false) ↔ (t.found 0).hold = some (i, false))
    (hleft : leftFor t' i = leftFor t i) : serving t' i = serving t i := by
  unfold serving
  simp only [huse, hdomid, ne_eq, hhold, hleft]

/-- A table in which times and the reaper have moved. -/
structure Idles (t t' : InsTable) : Prop where
  inUse : ∀ i, (t'.ins i).inUse = (t.ins i).inUse
  domid : ∀ i, (t'.ins i).domid = (t.ins i).domid
  found : t'.found = t.found

theorem Idles.serving {t t' : InsTable} (h : Idles t t') : serving t' = serving t := by
  funext i
  exact serving_congr (h.inUse i) (h.domid i) (by rw [h.found]) (by rw [leftFor, leftFor, h.found])

theorem Idles.calls {t t' : InsTable} (h : Idles t t') (ht : Calls t) (hsound : t'.Sound) :
    Calls t' where
  sound := hsound
  single := by
    rw [h.found]
    exact ht.single
  carries := by
    rw [h.found]
    exact ht.carries
  suffix := by
    rw [h.found]
    exact ht.suffix

theorem Idles.alive (t : InsTable) (i : Fin maxInsCount) : Idles t (t.mwXenInsAlive i) := by
  have hins (j : Fin maxInsCount) : (t.mwXenInsAlive i).ins j =
      if j = i then { t.ins i with lastSeenTime := t.jiffies, missedHeartbeats := 0 }
      else t.ins j := Function.update_apply ..
  refine ⟨fun j => ?_, fun j => ?_, rfl⟩
  · rw [hins]
    split
    · next hj => rw [hj]
    · rfl
  · rw [hins]
    split
    · next hj => rw [hj]
    · rfl

/-- An entry in use that is not being named serves the INS of its id, which is a domain. -/
theorem Calls.valid {t : InsTable} (h : Calls t) {todo : List Setup}
    (hi : serving t i = some (d, todo)) : validDomid d.toNat = true := by
  obtain ⟨huse, hhold, heq⟩ := serving_eq_some.mp hi
  have hd : d = (t.ins i).domid := congrArg Prod.fst heq
  rw [hd]
  cases h.sound.entries i with
  | free hno => exact absurd (hno.symm.trans huse) (by decide)
  | @naming n _ _ _ hnaming =>
      by_cases hn : n = 0
      · exact absurd (hn ▸ hnaming) hhold
      · rw [h.single n hn] at hnaming
        cases hnaming
  | setup _ _ hnamed => exact hnamed.1
  | live _ _ hnamed => exact hnamed.1

/-- A call at an entry holds it. -/
theorem Calls.serving_setup {t : InsTable} (h : Calls t) {todo : List Setup}
    (hpc : t.found 0 = .setup i todo) : serving t i = some ((t.ins i).domid, todo) := by
  have huse : (t.ins i).inUse = true :=
    (h.sound.holder (t := 0) (b := true) (by rw [hpc]; rfl)).1
  refine serving_eq_some.mpr ⟨huse, ?_, ?_⟩
  · rw [hpc]
    simp [Found.hold]
  · rw [leftFor, hpc]
    simp

/-! ## The table is what it relies on -/

/-- Does INS `d` have no entry? -/
theorem Meeting.unserved_of_tokens (h : s.Meeting me count d) (hpos : 0 < s.tokens d) :
    s.tokens d = 1 ∧ s.ins d ≠ .start ∧ ∀ i todo, serving s.table i ≠ some (d, todo) := by
  have honce := h.once
  have hstart : s.ins d ≠ .start := by
    intro hs
    rw [if_pos hs] at honce
    omega
  rw [if_neg hstart] at honce
  refine ⟨by omega, hstart, fun i todo hi => ?_⟩
  have hle : 1 ≤ entries s.table d := by
    calc 1 = if (serving s.table i).map Prod.fst = some d then 1 else 0 := by rw [hi]; simp
      _ ≤ entries s.table d := Finset.single_le_sum
          (f := fun j => if (serving s.table j).map Prod.fst = some d then 1 else 0)
          (fun _ _ => Nat.zero_le _) (Finset.mem_univ i)
  omega

theorem tokens_of_carried (hd : carried (s.table.found 0) = some (Nat.toDigits 10 d.toNat)) :
    0 < s.tokens d := by
  rw [tokens, if_pos hd]
  omega

/-- The call that carries an id is for an INS that waits and has no entry. -/
theorem Sound.carried (h : s.Sound me count) {id : List Char}
    (hid : carried (s.table.found 0) = some id) :
    ∃ d : BitVec 16, id = Nat.toDigits 10 d.toNat ∧ s.tokens d = 1 ∧ s.ins d ≠ .start ∧
      validDomid d.toNat = true ∧ ∀ i todo, serving s.table i ≠ some (d, todo) := by
  obtain ⟨d, rfl⟩ := h.calls.carries id hid
  obtain ⟨htokens, hstart, hno⟩ := (h.each d).unserved_of_tokens (tokens_of_carried hid)
  exact ⟨d, rfl, htokens, hstart, (h.each d).valid hstart, hno⟩

/-- The steps of the driver are steps that keep the table. -/
theorem Sound.orderly_move (h : s.Sound me count) : s.table.orderly hz (.move 0 true) := by
  unfold InsTable.orderly
  simp only []
  split
  · next id n hpc =>
      intro hn hfree j hj heq
      have hserving : serving s.table j = some ((s.table.ins j).domid, leftFor s.table j) :=
        serving_eq_some.mpr ⟨hj, by rw [hpc]; simp [Found.hold], rfl⟩
      have hvalid := h.calls.valid hserving
      rw [heq] at hvalid
      cases h.calls.sound.entries ⟨n, hn⟩ with
      | free _ _ hstale => exact absurd (hstale.symm.trans hvalid) (by decide)
      | naming huse => exact absurd (hfree.symm.trans huse) (by decide)
      | setup huse => exact absurd (hfree.symm.trans huse) (by decide)
      | live huse => exact absurd (hfree.symm.trans huse) (by decide)
  · next id i hpc =>
      have hid : MagicWand.carried (s.table.found 0) = some id := by rw [hpc]; rfl
      obtain ⟨d, rfl, -, -, hvalid, hno⟩ := h.carried hid
      rw [simpleStrtol_toDigits]
      refine ⟨hvalid, fun j hji huse heq => ?_⟩
      have hd : BitVec.ofInt 16 (d.toNat : Int) = d := by
        rw [BitVec.ofInt_natCast, BitVec.ofNat_toNat, BitVec.setWidth_eq]
      refine hno j (leftFor s.table j) (serving_eq_some.mpr ⟨huse, ?_, by rw [heq, hd]⟩)
      rw [hpc]
      simpa [Found.hold] using Ne.symm hji
  · next i stage todo hpc =>
      cases stage <;> rfl
  · trivial

/-! ## What an INS can rely on -/

/-- The references that an INS can read are those of its entry. -/
theorem Sound.served (h : s.Sound me count) {refs : List (BitVec 32)}
    (hoffered : s.Offered count d refs) :
    ∃ i todo, serving s.table i = some (d, todo) ∧ .grantRefs ∉ todo ∧ s.grantRefs i = refs := by
  have hno : s.store (insPath d gntRefChunks) ≠ none := by
    intro hnone
    rw [Offered, rcvGrantRefs_none hnone] at hoffered
    cases hoffered
  by_cases hserved : ∀ i todo, serving s.table i ≠ some (d, todo)
  · exact absurd ((h.each d).unserved hserved).2 hno
  · push Not at hserved
    obtain ⟨i, todo, hi⟩ := hserved
    have hoffers := (h.each d).offers i todo hi
    have hmem : .grantRefs ∉ todo := fun hmem => hno (hoffers.noTotal hmem)
    have hsame : xeCommsRcvGrantRefs count s.store d = .received (s.grantRefs i) :=
      hoffers.total hmem
    rw [Offered, hsame] at hoffered
    cases hoffered
    exact ⟨i, todo, hi, hmem, rfl⟩

theorem Told.of_registered (h : s.Told me count d (s.ins d))
    (hreg : isRegistered (s.ins d) = true) : ∃ refs, s.Offered count d refs := by
  cases hpc : s.ins d with
  | registered r refs port =>
      rw [hpc] at h
      exact ⟨refs, h.2.1⟩
  | _ =>
      rw [hpc] at hreg
      cases hreg

theorem Sound.done_of_serving (h : s.Sound me count) {todo : List Setup}
    (hi : serving s.table i = some (d, todo)) : s.init = .done := by
  by_contra hinit
  rw [(h.before hinit).2.2 i] at hi
  cases hi

theorem Sound.done_of_registered (h : s.Sound me count) (hreg : isRegistered (s.ins d) = true) :
    s.init = .done := by
  obtain ⟨refs, hoffered⟩ := (h.each d).told.of_registered hreg
  obtain ⟨i, todo, hi, -⟩ := h.served hoffered
  exact h.done_of_serving hi

/-! ## Steps that no INS notices -/

structure Steady (s s' : Handshake) : Prop where
  ins : s'.ins = s.ins
  irq : s'.irq = s.irq
  serves : serving s'.table = serving s.table
  grantRefs : s'.grantRefs = s.grantRefs
  commonEvtchn : s'.commonEvtchn = s.commonEvtchn
  sringInit : s'.sringInit = s.sringInit
  keys : ∀ d key, key ≠ insHeartbeatKey → s'.store (insPath d key) = s.store (insPath d key)
  tokens : ∀ d, s'.tokens d = s.tokens d
  events : ∀ d, insPath d vmEvtChnBoundKey ∈ s.watchEvents →
    insPath d vmEvtChnBoundKey ∈ s'.watchEvents

theorem Steady.same (h : Steady s s') (d : BitVec 16) : SameFor s s' d where
  keys := h.keys d
  ins := congrFun h.ins d
  tokens := h.tokens d
  serves _ _ := by rw [h.serves]
  grantRefs _ _ _ := congrFun h.grantRefs _
  commonEvtchn _ _ _ := congrFun h.commonEvtchn _
  sringInit _ _ _ := congrFun h.sringInit _

theorem Steady.ends (h : Steady s s') (hends : s.Ends d) : s'.Ends d := by
  unfold Ends at hends ⊢
  rw [h.serves, h.irq]
  exact hends.imp_left (h.events d)

theorem Sound.steady (h : s.Sound me count) (hs : Steady s s') (hcalls : Calls s'.table)
    (hevents : ∀ path ∈ s'.watchEvents, path ∈ s.watchEvents ∨
      mwXenXenstoreStateChanged path = .nothing ∨ mwXenXenstoreStateChanged path = .insHeartbeat)
    (hserver : s'.ServerId me) (hloaded : s'.init ≠ .failed)
    (hbefore : s'.init ≠ .done → s'.watchEvents = [] ∧ s'.table.found 0 = .idle ∧
      s.init ≠ .done)
    (hpublishing : ∀ p, s'.publishing = some p → ∃ i, s'.table.found 0 = .setup i [.grantRefs] ∧
      s'.Publishes i (s'.table.ins i).domid p) : s'.Sound me count where
  calls := hcalls
  events path hpath := by
    rcases hevents path hpath with hold | hnone | hbeat
    · have hknown := h.events path hold
      refine ⟨hknown.found, fun hbind => ?_⟩
      obtain ⟨d, hd, hreg⟩ := hknown.bound hbind
      exact ⟨d, hd, by rwa [hs.ins]⟩
    · exact ⟨fun hc => absurd (hnone.symm.trans hc) (by decide),
        fun hc => absurd (hnone.symm.trans hc) (by decide)⟩
    · exact ⟨fun hc => absurd (hbeat.symm.trans hc) (by decide),
        fun hc => absurd (hbeat.symm.trans hc) (by decide)⟩
  server := hserver
  loaded := hloaded
  before hinit := by
    obtain ⟨hevents, hfound, hold⟩ := hbefore hinit
    refine ⟨hevents, hfound, fun i => ?_⟩
    rw [hs.serves]
    exact (h.before hold).2.2 i
  publishing := hpublishing
  irq i hirq := by
    rw [hs.irq] at hirq
    rw [hs.serves, hs.ins]
    exact h.irq i hirq
  each d := (hs.same d).meeting (h.each d) fun hreg => hs.ends ((h.each d).ends hreg)

/-- The paths of other keys do not tell of a new INS. -/
theorem count_append_of_ne {events more : List (List Char)}
    (h : insPath d insIdKey ∉ more) :
    (events ++ more).count (insPath d insIdKey) = events.count (insPath d insIdKey) := by
  rw [List.count_append, List.count_eq_zero.mpr h, Nat.add_zero]

theorem not_mem_of_nothing {path : List Char} (h : mwXenXenstoreStateChanged path ≠ .insFound) :
    insPath d insIdKey ∉ [path] := by
  intro hmem
  rw [← List.mem_singleton.mp hmem, stateChanged_insPath] at h
  exact h rfl

/-- `mw_xen_init`: the driver writes a key that is not of an INS. -/
theorem Sound.serverId (h : s.Sound me count) {value : List Char} {init : DriverInit}
    (hinit : s.init ≠ .done) (hdone : init ≠ .done) (hfailed : init ≠ .failed)
    (hread : readInt (some value) = 0 ∨ readInt (some value) = me.toNat)
    (hpublished : init = .watch → readInt (some value) = me.toNat) :
    Handshake.Sound me count { s.write serverIdPath value with init := init } := by
  have hstore := s.store_write_self serverIdPath value
  have hnone : (s.write serverIdPath value).watchEvents = s.watchEvents := if_neg hinit
  have hquiet := h.before hinit
  refine h.steady ⟨rfl, rfl, rfl, rfl, rfl, rfl, fun d key _ => ?_, fun d => ?_, fun d hmem => ?_⟩
    h.calls (fun path hpath => .inl (hnone ▸ hpath)) ⟨?_, ?_⟩ hfailed
    (fun _ => ⟨hnone.trans hquiet.1, hquiet.2.1, hinit⟩) ?_
  · exact s.store_write_ne value (Ne.symm (serverIdPath_ne d key))
  · simp only [tokens, hnone]
    rfl
  · exact hnone.symm ▸ hmem
  · show readInt ((s.write serverIdPath value).store serverIdPath) = 0 ∨ _
    rw [hstore]
    exact hread
  · rintro (hw | hd)
    · show readInt ((s.write serverIdPath value).store serverIdPath) = _
      rw [hstore]
      exact hpublished hw
    · exact absurd hd hdone
  · intro p hp
    obtain ⟨i, hpc, -⟩ := h.publishing p hp
    rw [hquiet.2.1] at hpc
    cases hpc

theorem Sound.mwXenInit (h : s.Sound me count) (hs : s.mwXenInit me true = some s') :
    s'.Sound me count := by
  have hzero : readInt (some []) = 0 := by decide
  have hreset : readInt (some ['0']) = 0 := by decide
  have hread : readInt (some (Nat.toDigits 10 me.toNat)) = me.toNat :=
    readInt_toDigits (lt_trans me.isLt (by decide))
  unfold Handshake.mwXenInit at hs
  split at hs
  · next hinit =>
      cases hs
      exact h.serverId (by simp [hinit]) (by decide) (by decide) (.inl hzero) (by simp)
  · next hinit =>
      cases hs
      exact h.serverId (by simp [hinit]) (by decide) (by decide) (.inl hreset) (by simp)
  · next hinit =>
      cases hs
      exact h.serverId (by simp [hinit]) (by decide) (by decide) (.inr hread) fun _ => hread
  · next hinit =>
      cases hs
      have hroot : mwXenXenstoreStateChanged xeneventXenstoreRoot = .nothing := by decide
      refine h.steady ⟨rfl, rfl, rfl, rfl, rfl, rfl, fun _ _ _ => rfl, fun d => ?_,
        fun d hmem => List.mem_append_left _ hmem⟩ h.calls (fun path hpath => ?_)
        ⟨h.server.read, fun _ => h.server.published (.inl hinit)⟩ (by simp)
        (fun hne => absurd rfl hne) h.publishing
      · simp only [if_true, tokens]
        rw [count_append_of_ne (not_mem_of_nothing (by rw [hroot]; decide))]
      · rcases List.mem_append.mp hpath with hold | hnew
        · exact .inl hold
        · rw [List.mem_singleton.mp hnew]
          exact .inr (.inl hroot)
  · cases hs
  · cases hs

/-! ## Time, heartbeats and the reaper -/

/-- The steps of the table that are none of a call. -/
def passive : InsEvent → Bool
  | .found _ _ => false
  | .move _ _ => false
  | _ => true

theorem Idles.visit {t : InsTable} {now : BitVec 64} (h : InsTable.dies hz now (t.ins i) = false) :
    Idles t (t.visitEntry hz now i) := by
  unfold InsTable.visitEntry
  simp only []
  split
  · exact ⟨fun _ => rfl, fun _ => rfl, rfl⟩
  · next hdue =>
      simp only [Bool.or_eq_true, Bool.not_eq_true', not_or, Bool.not_eq_false] at hdue
      have hmiss : ¬ (t.ins i).missedHeartbeats + 1 = heartbeatMaxMisses := by
        rw [InsTable.dies, hdue.1, hdue.2] at h
        simpa using h
      rw [if_neg hmiss]
      have hins (j : Fin maxInsCount) :
          (t.setEntry i fun e => { e with missedHeartbeats := e.missedHeartbeats + 1 }).ins j =
            if j = i then { t.ins i with missedHeartbeats := (t.ins i).missedHeartbeats + 1 }
            else t.ins j := Function.update_apply ..
      refine ⟨fun j => ?_, fun j => ?_, rfl⟩
      · rw [hins]
        split
        · next hj => rw [hj]
        · rfl
      · rw [hins]
        split
        · next hj => rw [hj]
        · rfl

theorem idles_of_step {t t' : InsTable} {e : InsEvent} (hpassive : passive e = true)
    (hG : t.orderly hz e) (hs : t.step hz e = some t') : Idles t t' := by
  have unmoved : Idles t t := ⟨fun _ => rfl, fun _ => rfl, rfl⟩
  cases e with
  | found n id => cases hpassive
  | move n ok => cases hpassive
  | tick n =>
      cases hs
      exact ⟨fun _ => rfl, fun _ => rfl, rfl⟩
  | heartbeat domid =>
      simp only [InsTable.step] at hs
      split at hs
      · cases hs
        exact unmoved
      · split at hs <;> cases hs
        · exact .alive t _
        · exact unmoved
  | bound domid =>
      simp only [InsTable.step] at hs
      split at hs <;> cases hs
      · exact unmoved
      · exact .alive t _
  | reap =>
      simp only [InsTable.step] at hs
      split at hs <;> cases hs
      exact ⟨fun _ => rfl, fun _ => rfl, rfl⟩
  | visit =>
      simp only [InsTable.step] at hs
      split at hs
      · cases hs
      · next n now hreaper =>
          rw [InsTable.orderly, hreaper] at hG
          split at hs
          · next hn =>
              cases hs
              have hvisit := Idles.visit (hG hn)
              exact ⟨hvisit.inUse, hvisit.domid, hvisit.found⟩
          · cases hs
            exact ⟨fun _ => rfl, fun _ => rfl, rfl⟩

/-- A step of the table that is none of a call. -/
theorem Sound.passive (h : s.Sound me count) {t : InsTable} {e : InsEvent}
    {events : List (List Char)} (hpassive : passive e = true) (hG : s.table.orderly hz e)
    (hs : s.table.step hz e = some t) (hsub : ∀ path ∈ events, path ∈ s.watchEvents)
    (hfound : ∀ d, events.count (insPath d insIdKey) = s.watchEvents.count (insPath d insIdKey))
    (hbound : ∀ d, insPath d vmEvtChnBoundKey ∈ s.watchEvents →
      insPath d vmEvtChnBoundKey ∈ events) :
    Handshake.Sound me count { s with table := t, watchEvents := events } := by
  have hidles := idles_of_step hpassive hG hs
  refine h.steady ⟨rfl, rfl, hidles.serving, rfl, rfl, rfl, fun _ _ _ => rfl, fun d => ?_, hbound⟩
    (hidles.calls h.calls (h.calls.sound.step hG hs)) (fun path hpath => .inl (hsub path hpath))
    ⟨h.server.read, h.server.published⟩ h.loaded (fun hinit => ?_) fun p hp => ?_
  · simp only [tokens, hfound d, hidles.found]
  · obtain ⟨hevents, hidle, -⟩ := h.before hinit
    refine ⟨List.eq_nil_iff_forall_not_mem.mpr fun path hpath => ?_, ?_, hinit⟩
    · exact absurd (hevents ▸ hsub path hpath) List.not_mem_nil
    · show t.found 0 = .idle
      rw [hidles.found]
      exact hidle
  · obtain ⟨j, hpc, hpub⟩ := h.publishing p hp
    refine ⟨j, hidles.found ▸ hpc, ?_⟩
    show s.Publishes j (t.ins j).domid p
    rw [hidles.domid]
    exact hpub

/-- An INS writes its heartbeat. -/
theorem Sound.heartbeat (h : s.Sound me count) (hreg : isRegistered (s.ins d) = true)
    {value : List Char} : (s.write (ownPath d insHeartbeatKey) value).Sound me count := by
  have hpath : ownPath d insHeartbeatKey = insPath d insHeartbeatKey := ownPath_eq (by decide)
  have hbeat : mwXenXenstoreStateChanged (insPath d insHeartbeatKey) = .insHeartbeat := by
    rw [stateChanged_insPath]
    decide
  have hnew : ∀ path ∈ (s.write (insPath d insHeartbeatKey) value).watchEvents,
      path ∈ s.watchEvents ∨ path = insPath d insHeartbeatKey := by
    intro path hmem
    rcases s.watchEvents_write (insPath d insHeartbeatKey) value with hsame | happ
    · exact .inl (hsame ▸ hmem)
    · rw [happ, List.mem_append, List.mem_singleton] at hmem
      exact hmem
  have hdone := h.done_of_registered hreg
  rw [hpath]
  refine h.steady ⟨rfl, rfl, rfl, rfl, rfl, rfl, fun d' key hkey => ?_, fun d' => ?_,
    fun d' hmem => ?_⟩ h.calls (fun path hmem => ?_) ⟨?_, ?_⟩ h.loaded (fun hinit => absurd hdone hinit) fun p hp => ?_
  · refine s.store_write_ne value fun heq => hkey ?_
    exact (insPath_inj.mp heq).2
  · rcases s.watchEvents_write (insPath d insHeartbeatKey) value with hsame | happ
    · simp only [tokens, hsame]
      rfl
    · simp only [tokens, happ]
      rw [count_append_of_ne (not_mem_of_nothing (by rw [hbeat]; decide))]
      rfl
  · rcases s.watchEvents_write (insPath d insHeartbeatKey) value with hsame | happ
    · exact hsame.symm ▸ hmem
    · exact happ.symm ▸ List.mem_append_left _ hmem
  · rcases hnew path hmem with hold | rfl
    · exact .inl hold
    · exact .inr (.inr hbeat)
  · rw [s.store_write_ne value (serverIdPath_ne d insHeartbeatKey)]
    exact h.server.read
  · rw [s.store_write_ne value (serverIdPath_ne d insHeartbeatKey)]
    exact h.server.published
  · obtain ⟨j, hpc, hpub⟩ := h.publishing p hp
    refine ⟨j, hpc, hpub.congr (fun path hpath' => s.store_write_ne value ?_) rfl⟩
    rintro rfl
    exact absurd (gntPath_insPath.mp hpath').2 (by decide)

/-! ## The watch calls the driver -/

theorem pathDomid_insPath (d : BitVec 16) (key : List Char) :
    pathDomid (insPath d key) = some d := by
  have hlt : (d.toNat : Int) < 2 ^ 16 := by exact_mod_cast d.isLt
  simp only [pathDomid, domidOfPath_insPath, Int.natCast_nonneg, hlt, true_and, if_true]
  rw [BitVec.ofInt_natCast, BitVec.ofNat_toNat, BitVec.setWidth_eq]

/-- An event that the driver does not act on. -/
theorem Sound.pop (h : s.Sound me count) {path : List Char} {events : List (List Char)}
    (hevents : s.watchEvents = path :: events)
    (hfound : mwXenXenstoreStateChanged path ≠ .insFound)
    (hbound : mwXenXenstoreStateChanged path ≠ .bindEvtChn) :
    Handshake.Sound me count { s with watchEvents := events } := by
  have hcount : ∀ d, events.count (insPath d insIdKey) =
      s.watchEvents.count (insPath d insIdKey) := by
    intro d
    rw [hevents, List.count_cons_of_ne]
    rintro rfl
    rw [stateChanged_insPath] at hfound
    exact hfound rfl
  refine h.steady ⟨rfl, rfl, rfl, rfl, rfl, rfl, fun _ _ _ => rfl, fun d => ?_, fun d hmem => ?_⟩
    h.calls (fun path hpath => .inl (hevents ▸ List.mem_cons_of_mem _ hpath))
    ⟨h.server.read, h.server.published⟩ h.loaded (fun hinit => ?_) h.publishing
  · simp only [tokens, hcount d]
  · rw [hevents] at hmem
    rcases List.mem_cons.mp hmem with rfl | hmem
    · rw [stateChanged_insPath] at hbound
      exact absurd rfl hbound
    · exact hmem
  · have hnil := (h.before hinit).1
    rw [hevents] at hnil
    cases hnil

/-- The driver reads the id of an INS and starts to look for an entry. -/
theorem Sound.startFound (h : s.Sound me count) {events : List (List Char)}
    (hevents : s.watchEvents = insPath d insIdKey :: events)
    (hidle : s.table.found 0 = .idle) {t : InsTable}
    (ht : s.table.step hz (.found 0 (s.store (insPath d insIdKey))) = some t) :
    Handshake.Sound me count { s with table := t, watchEvents := events } := by
  have hpos : 0 < s.tokens d := by
    rw [tokens, hevents, List.count_cons_self]
    omega
  obtain ⟨-, hstart, -⟩ := (h.each d).unserved_of_tokens hpos
  have hvalid := (h.each d).valid hstart
  have hid := (h.each d).id
  rw [if_neg hstart] at hid
  have hne : Nat.toDigits 10 d.toNat ≠ ['0'] := by
    refine toDigits_ne_zero ?_
    rw [validDomid, decide_eq_true_eq] at hvalid
    omega
  obtain rfl : s.table.goto 0 (.probing (Nat.toDigits 10 d.toNat) 0) = t := by
    simp only [hid, InsTable.step, hidle, if_neg hne] at ht
    exact Option.some.inj ht
  have hserving : serving (s.table.goto 0 (.probing (Nat.toDigits 10 d.toNat) 0)) =
      serving s.table := by
    funext i
    refine serving_congr rfl rfl ?_ ?_
    · simp [InsTable.goto, Found.hold, hidle]
    · simp [leftFor, InsTable.goto, hidle]
  have hcalls : Calls (s.table.goto 0 (.probing (Nat.toDigits 10 d.toNat) 0)) :=
    { sound := h.calls.sound.goto (by rw [hidle]; rfl)
      single := fun n hn => (Function.update_of_ne hn _ _).trans (h.calls.single n hn)
      carries := fun id hid => ⟨d, by simpa [InsTable.goto, MagicWand.carried] using hid.symm⟩
      suffix := fun i todo hpc => by simp [InsTable.goto] at hpc }
  refine h.steady ⟨rfl, rfl, hserving, rfl, rfl, rfl, fun _ _ _ => rfl, fun d' => ?_,
    fun d' hmem => ?_⟩ hcalls
    (fun path hpath => .inl (hevents ▸ List.mem_cons_of_mem _ hpath))
    ⟨h.server.read, h.server.published⟩ h.loaded (fun hinit => ?_) fun p hp => ?_
  · simp only [tokens, hevents, hidle, InsTable.goto, Function.update_self, MagicWand.carried]
    by_cases hd : d' = d
    · subst hd
      simp only [List.count_cons_self, if_true, reduceCtorEq, if_false]
    · have hdig : ¬ Nat.toDigits 10 d.toNat = Nat.toDigits 10 d'.toNat := fun heq =>
        hd (BitVec.eq_of_toNat_eq (toDigits_inj heq).symm)
      rw [List.count_cons_of_ne (by simpa using Ne.symm hd)]
      simp [hdig]
  · rw [hevents] at hmem
    rcases List.mem_cons.mp hmem with heq | hmem
    · exact absurd (insPath_inj.mp heq).2 (by decide)
    · exact hmem
  · have hnil := (h.before hinit).1
    rw [hevents] at hnil
    cases hnil
  · obtain ⟨i, hpc, -⟩ := h.publishing p hp
    rw [hidle] at hpc
    cases hpc

/-- The entry that a path names serves the INS, if one does. -/
theorem Calls.fromPath {t : InsTable} (h : Calls t) {j : Fin maxInsCount} {todo : List Setup}
    (hj : serving t j = some (d, todo)) :
    ∃ i todo, t.mwXenGetInsFromXsPath d = some i ∧ serving t i = some (d, todo) := by
  have hdomid : (t.ins j).domid = d := (congrArg Prod.fst (serving_eq_some.mp hj).2.2).symm
  obtain ⟨i, hi⟩ : ∃ i, t.mwXenGetInsFromXsPath d = some i := by
    rw [← Option.isSome_iff_exists, InsTable.mwXenGetInsFromXsPath, List.find?_isSome]
    exact ⟨j, List.mem_finRange j, by rw [hdomid]; exact beq_self_eq_true d⟩
  have hsame : (t.ins i).domid = d :=
    eq_of_beq (List.find?_some (p := fun i => (t.ins i).domid == d) hi)
  have hvalid : validDomid (t.ins i).domid.toNat = true := hsame ▸ h.valid hj
  refine ⟨i, leftFor t i, hi, serving_eq_some.mpr ?_⟩
  cases h.sound.entries i with
  | free _ _ hstale => exact absurd (hstale.symm.trans hvalid) (by decide)
  | naming _ _ hstale => exact absurd (hstale.symm.trans hvalid) (by decide)
  | @setup n huse _ _ hhold hsole =>
      refine ⟨huse, fun hnaming => ?_, by rw [hsame]⟩
      obtain rfl := hsole 0 false hnaming
      rw [hhold] at hnaming
      cases hnaming
  | live huse _ _ hnone => exact ⟨huse, hnone 0 false, by rw [hsame]⟩

/-- The driver binds its end of the event channel. -/
theorem Sound.bindEvtChn (h : s.Sound me count) {events : List (List Char)} {irq : Int}
    (hevents : s.watchEvents = insPath d vmEvtChnBoundKey :: events)
    (hreg : isRegistered (s.ins d) = true) (hirq : 0 < irq)
    (hs : Handshake.mwXenBindEvtChn hz { s with watchEvents := events }
      (insPath d vmEvtChnBoundKey) irq = some s') : s'.Sound me count := by
  obtain ⟨refs, hoffered⟩ := (h.each d).told.of_registered hreg
  obtain ⟨j, todo, hj, -⟩ := h.served hoffered
  obtain ⟨i, todo, hpath, hi⟩ := h.calls.fromPath hj
  have hbound := (h.each d).bound
  rw [if_pos hreg] at hbound
  obtain rfl : { s with
      watchEvents := events
      table := s.table.mwXenInsAlive i
      irq := Function.update s.irq i irq } = s' := by
    simp only [Handshake.mwXenBindEvtChn, pathDomid_insPath, hpath, InsTable.step, hbound] at hs
    rw [if_neg (by simpa using hirq)] at hs
    exact Option.some.inj hs
  have halive := Idles.alive s.table i
  have hcount : ∀ d', events.count (insPath d' insIdKey) =
      s.watchEvents.count (insPath d' insIdKey) := by
    intro d'
    rw [hevents, List.count_cons_of_ne]
    simp only [ne_eq, insPath_inj]
    exact fun heq => absurd heq.2 (by decide)
  have hends (d' : BitVec 16) (hreg' : isRegistered (s.ins d') = true) :
      Handshake.Ends { s with
        watchEvents := events
        table := s.table.mwXenInsAlive i
        irq := Function.update s.irq i irq } d' := by
    unfold Ends
    rw [halive.serving]
    by_cases hd : d' = d
    · subst hd
      refine .inr ⟨i, todo, hi, ?_⟩
      simp only [Function.update_self]
      omega
    · rcases (h.each d').ends hreg' with hmem | ⟨k, todo', hk, hk'⟩
      · rw [hevents] at hmem
        rcases List.mem_cons.mp hmem with heq | hmem
        · exact absurd (insPath_inj.mp heq).1 hd
        · exact .inl hmem
      · refine .inr ⟨k, todo', hk, ?_⟩
        have hki : k ≠ i := by
          rintro rfl
          rw [hi] at hk
          cases hk
          exact hd rfl
        simpa only [Function.update_of_ne hki] using hk'
  refine
    { calls := halive.calls h.calls
        (h.calls.sound.touch i (fun _ => rfl) (fun _ => rfl) (fun _ => rfl))
      events := fun path hmem => ?_
      server := ⟨h.server.read, h.server.published⟩
      loaded := h.loaded
      before := fun hinit => ?_
      publishing := fun p hp => ?_
      irq := fun k hk => ?_
      each := fun d' => ?_ }
  · have hknown := h.events path (hevents ▸ List.mem_cons_of_mem _ hmem)
    exact ⟨hknown.found, hknown.bound⟩
  · exact absurd (h.done_of_serving hi) hinit
  · obtain ⟨k, hpc, hpub⟩ := h.publishing p hp
    refine ⟨k, hpc, ?_⟩
    show s.Publishes k ((s.table.mwXenInsAlive i).ins k).domid p
    rw [halive.domid]
    exact hpub
  · simp only [halive.serving]
    by_cases hki : k = i
    · subst hki
      exact ⟨d, todo, hi, hreg⟩
    · exact h.irq k (by simpa only [Function.update_of_ne hki] using hk)
  · refine SameFor.meeting (s := s) ⟨fun _ _ => rfl, rfl, ?_, fun _ _ => ?_, fun _ _ _ => rfl,
      fun _ _ _ => rfl, fun _ _ _ => rfl⟩ (h.each d') (hends d')
    · simp only [tokens, hcount d']
      rfl
    · show serving (s.table.mwXenInsAlive i) _ = _ ↔ _
      rw [halive.serving]

theorem Sound.xenwatch (h : s.Sound me count) {irq : Int} (hirq : 0 < irq)
    (hs : s.xenwatch hz irq = some s') : s'.Sound me count := by
  unfold Handshake.xenwatch at hs
  split at hs
  · next path events hidle hevents =>
      simp only [] at hs
      have hknown := h.events path (hevents ▸ List.mem_cons_self)
      split at hs
      · next hpath =>
          obtain ⟨d, rfl⟩ := hknown.found hpath
          obtain ⟨t, ht, rfl⟩ := Option.map_eq_some_iff.mp hs
          exact h.startFound hevents hidle ht
      · next hpath =>
          obtain ⟨d, rfl, hreg⟩ := hknown.bound hpath
          exact h.bindEvtChn hevents hreg hirq hs
      · next hpath =>
          have hpop := h.pop hevents (by rw [hpath]; decide) (by rw [hpath]; decide)
          split at hs
          · cases hs
            exact hpop
          · obtain ⟨t, ht, rfl⟩ := Option.map_eq_some_iff.mp hs
            exact hpop.passive rfl (e := .heartbeat _) trivial ht (fun _ hmem => hmem)
              (fun _ => rfl) fun _ hmem => hmem
      · next hpath =>
          cases hs
          exact h.pop hevents (by rw [hpath]; decide) (by rw [hpath]; decide)
  · cases hs

/-! ## A call looks for an entry -/

theorem found_of_move {t t' : InsTable} {ok : Bool} (hs : t.insFound 0 ok (t.found 0) = some t')
    {n : Nat} (hn : n ≠ 0) : t'.found n = t.found n := by
  have hgoto (u : InsTable) (pc : Found) : (u.goto 0 pc).found n = u.found n := by
    simp only [InsTable.goto, Function.update_of_ne hn]
  unfold InsTable.insFound at hs
  split at hs
  · cases hs
  · split at hs
    · split at hs
      · cases hs
        exact hgoto t _
      · cases hs
        exact hgoto _ _
    · cases hs
      exact hgoto t _
  · cases hs
    exact hgoto _ _
  · cases hs
    exact hgoto t _
  · cases hs
    exact hgoto _ _
  · cases hs
    exact hgoto _ _

theorem Sound.calls_move (h : s.Sound me count) {t : InsTable}
    (hs : s.table.insFound 0 true (s.table.found 0) = some t)
    (hcarries : ∀ id, MagicWand.carried (t.found 0) = some id →
      MagicWand.carried (s.table.found 0) = some id)
    (hsuffix : ∀ i todo, t.found 0 = .setup i todo → todo <:+ allSetups) : Calls t where
  sound := h.calls.sound.step (e := .move 0 true)
    (h.orderly_move : s.table.orderly 0 (.move 0 true)) hs
  single n hn := (found_of_move hs hn).trans (h.calls.single n hn)
  carries id hid := h.calls.carries id (hcarries id hid)
  suffix := hsuffix

/-- A call moves on in the table, and no INS notices. -/
theorem Sound.quietMove (h : s.Sound me count) {t : InsTable} (refused : List (BitVec 16))
    (hs : s.table.insFound 0 true (s.table.found 0) = some t)
    (hcarries : ∀ id, MagicWand.carried (t.found 0) = some id →
      MagicWand.carried (s.table.found 0) = some id)
    (hsetup : ∀ i todo, t.found 0 ≠ .setup i todo) (hbusy : s.table.found 0 ≠ .idle)
    (hnone : s.publishing = none) (hserving : serving t = serving s.table)
    (htokens : ∀ d, Handshake.tokens { s with table := t, refused := refused } d = s.tokens d) :
    Handshake.Sound me count { s with table := t, refused := refused } := by
  have hcalls := h.calls_move hs hcarries fun i todo hpc => absurd hpc (hsetup i todo)
  refine h.steady ⟨rfl, rfl, hserving, rfl, rfl, rfl, fun _ _ _ => rfl, htokens, fun _ hmem => hmem⟩
    hcalls (fun path hmem => .inl hmem) ⟨h.server.read, h.server.published⟩ h.loaded
    (fun hinit => absurd (h.before hinit).2.1 hbusy) fun p hp => ?_
  rw [hnone] at hp
  cases hp

/-- Nothing is published but by the last step of a call. -/
theorem Sound.no_publishing (h : s.Sound me count)
    (hpc : ∀ i, s.table.found 0 ≠ .setup i [.grantRefs]) : s.publishing = none := by
  cases hp : s.publishing with
  | none => rfl
  | some p =>
      obtain ⟨i, hat, -⟩ := h.publishing p hp
      exact absurd hat (hpc i)

theorem Sound.probe (h : s.Sound me count) {id : List Char} {n : Nat}
    (hpc : s.table.found 0 = .probing id n) {t : InsTable} (hn : n < maxInsCount)
    (hs : s.table.insFound 0 true (s.table.found 0) = some t) :
    Handshake.Sound me count { s with table := t } := by
  have hnone := h.no_publishing (by simp [hpc])
  have hmove := hs
  rw [hpc] at hs
  simp only [InsTable.insFound, hn, dif_pos] at hs
  split at hs
  · -- the entry is in use
    obtain rfl := Option.some.inj hs
    refine h.quietMove s.refused hmove ?_ (by simp [InsTable.goto]) (by simp [hpc])
      hnone ?_ fun d => ?_
    · simp [InsTable.goto, MagicWand.carried, hpc]
    · funext i
      refine serving_congr rfl rfl ?_ ?_
      · simp [InsTable.goto, Found.hold, hpc]
      · simp [leftFor, InsTable.goto, hpc]
    · simp [tokens, InsTable.goto, MagicWand.carried, hpc]
  · next hfree =>
      obtain rfl := Option.some.inj hs
      refine h.quietMove s.refused hmove ?_ (by simp [InsTable.goto]) (by simp [hpc])
        hnone ?_ fun d => ?_
      · simp [InsTable.goto, MagicWand.carried, hpc]
      · funext i
        by_cases hi : i = ⟨n, hn⟩
        · subst hi
          have hfree : (s.table.ins ⟨n, hn⟩).inUse = false := by simpa using hfree
          simp [serving, InsTable.goto, Found.hold, hfree]
        · refine serving_congr ?_ ?_ ?_ ?_
          · simp [InsTable.goto, InsTable.setEntry, Function.update_of_ne hi]
          · simp [InsTable.goto, InsTable.setEntry, Function.update_of_ne hi]
          · simp [InsTable.goto, Found.hold, hpc, Ne.symm hi]
          · simp [leftFor, InsTable.goto, hpc]
      · simp [tokens, InsTable.goto, MagicWand.carried, hpc]

/-- There is no entry for the INS. -/
theorem Sound.refuse (h : s.Sound me count) {id : List Char} {n : Nat}
    (hpc : s.table.found 0 = .probing id n) {t : InsTable} (hn : ¬ n < maxInsCount)
    (hs : s.table.insFound 0 true (s.table.found 0) = some t) :
    Handshake.Sound me count
      { s with table := t, refused := s.refused ++ [BitVec.ofInt 16 (simpleStrtol id)] } := by
  have hid : MagicWand.carried (s.table.found 0) = some id := by rw [hpc]; rfl
  obtain ⟨d, rfl, -⟩ := h.carried hid
  have hd : BitVec.ofInt 16 (simpleStrtol (Nat.toDigits 10 d.toNat)) = d := by
    rw [simpleStrtol_toDigits, BitVec.ofInt_natCast, BitVec.ofNat_toNat, BitVec.setWidth_eq]
  have hmove := hs
  rw [hpc] at hs
  simp only [InsTable.insFound, hn, dif_neg, not_false_eq_true] at hs
  obtain rfl := Option.some.inj hs
  refine h.quietMove _ hmove ?_ (by simp [InsTable.goto]) (by simp [hpc])
    (h.no_publishing (by simp [hpc])) ?_ fun d' => ?_
  · simp [InsTable.goto, MagicWand.carried]
  · funext i
    refine serving_congr rfl rfl ?_ ?_
    · simp [InsTable.goto, Found.hold, hpc]
    · simp [leftFor, InsTable.goto, hpc]
  · simp only [tokens, InsTable.goto, Function.update_self, MagicWand.carried, hpc, hd,
      List.count_append, Option.some.injEq]
    by_cases hdd : d' = d
    · subst hdd
      simp only [List.count_singleton_self, if_true, reduceCtorEq, if_false]
      omega
    · have hdig : ¬ Nat.toDigits 10 d.toNat = Nat.toDigits 10 d'.toNat := fun heq =>
        hdd (BitVec.eq_of_toNat_eq (toDigits_inj heq).symm)
      simp [hdig, Ne.symm hdd]

/-- The ring is set up: the call says so and returns. -/
theorem Sound.announceReady (h : s.Sound me count) {t : InsTable}
    (hpc : s.table.found 0 = .setup i [] ∨ s.table.found 0 = .ready i)
    (hs : s.table.insFound 0 true (s.table.found 0) = some t) :
    Handshake.Sound me count { s with table := t } := by
  have hmove := hs
  rcases hpc with hpc | hpc
  · rw [hpc] at hs
    obtain rfl := Option.some.inj hs
    have halive := Idles.alive s.table i
    refine h.quietMove s.refused hmove ?_ (by simp [InsTable.goto]) (by simp [hpc])
      (h.no_publishing (by simp [hpc])) ?_ fun d => ?_
    · simp [InsTable.goto, MagicWand.carried]
    · funext j
      refine serving_congr (halive.inUse j) (halive.domid j) ?_ ?_
      · simp [InsTable.goto, Found.hold, hpc]
      · simp [leftFor, InsTable.goto, hpc]
    · simp [tokens, InsTable.goto, MagicWand.carried, hpc]
  · rw [hpc] at hs
    obtain rfl := Option.some.inj hs
    refine h.quietMove s.refused hmove ?_ (by simp [InsTable.goto]) (by simp [hpc])
      (h.no_publishing (by simp [hpc])) ?_ fun d => ?_
    · simp [InsTable.goto, MagicWand.carried]
    · funext j
      have hins : (s.table.setEntry i fun e => { e with isRingReady := true }).ins j =
          if j = i then { s.table.ins i with isRingReady := true } else s.table.ins j :=
        Function.update_apply ..
      refine serving_congr ?_ ?_ ?_ ?_
      · simp only [InsTable.goto, hins]
        split
        · next hj => rw [hj]
        · rfl
      · simp only [InsTable.goto, hins]
        split
        · next hj => rw [hj]
        · rfl
      · simp [InsTable.goto, Found.hold, hpc]
      · simp [leftFor, InsTable.goto, hpc]
    · simp [tokens, InsTable.goto, MagicWand.carried, hpc]

end Handshake

end MagicWand
