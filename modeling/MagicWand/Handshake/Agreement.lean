import MagicWand.Handshake.SetUp

/-!
# What the INS reads is what the driver has written

Every step of the handshake keeps the invariant, so an INS that is registered maps the pages
that the driver has granted it and has bound the event channel that the driver has made for
it. The driver's table is what `InsTable` relies on: no step claims an entry for an INS that
has one.
-/

namespace MagicWand

open Foundation Kernel

namespace Handshake

variable {me : BitVec 16} {count chunkSize hz : Nat} {s s' : Handshake} {d : BitVec 16}
  {i : Fin maxInsCount}

/-! ## An INS moves on -/

/-- INS `d` moves on and may write the keys that it owns. -/
structure Moves (s s' : Handshake) (d : BitVec 16) : Prop where
  table : s'.table = s.table
  init : s'.init = s.init
  publishing : s'.publishing = s.publishing
  grantRefs : s'.grantRefs = s.grantRefs
  commonEvtchn : s'.commonEvtchn = s.commonEvtchn
  sringInit : s'.sringInit = s.sringInit
  irq : s'.irq = s.irq
  others : ∀ d', d' ≠ d → s'.ins d' = s.ins d'
  tokens : ∀ d', d' ≠ d → s'.tokens d' = s.tokens d'
  registered : isRegistered (s.ins d) = true → isRegistered (s'.ins d) = true
  store : ∀ path, path ≠ insPath d insIdKey → path ≠ insPath d vmEvtChnBoundKey →
    s'.store path = s.store path
  events : s'.watchEvents = s.watchEvents ∨
    ∃ path, s.init = .done ∧ s'.watchEvents = s.watchEvents ++ [path] ∧ s'.Known path

namespace Moves

variable (hm : Moves s s' d)

include hm

theorem keys {d' : BitVec 16} {key : List Char}
    (hkey : d' ≠ d ∨ (key ≠ insIdKey ∧ key ≠ vmEvtChnBoundKey)) :
    s'.store (insPath d' key) = s.store (insPath d' key) := by
  refine hm.store _ ?_ ?_
  all_goals
    rw [Ne, insPath_inj]
    rintro ⟨hd, hk⟩
    rcases hkey with hne | ⟨hid, hbound⟩
  · exact hne hd
  · exact hid hk
  · exact hne hd
  · exact hbound hk

theorem gnt (d' : BitVec 16) : ∀ path, GntPath d' path → s'.store path = s.store path := by
  rintro path ⟨key, rfl, hg⟩
  refine hm.keys (.inr ⟨?_, ?_⟩)
  · rintro rfl
    exact absurd hg (by decide)
  · rintro rfl
    exact absurd hg (by decide)

theorem mem_events {path : List Char} (hmem : path ∈ s.watchEvents) : path ∈ s'.watchEvents := by
  rcases hm.events with hsame | ⟨new, -, happ, -⟩
  · exact hsame.symm ▸ hmem
  · exact happ.symm ▸ List.mem_append_left _ hmem

theorem isRegistered {d' : BitVec 16} (hreg : isRegistered (s.ins d') = true) :
    MagicWand.Handshake.isRegistered (s'.ins d') = true := by
  by_cases hd : d' = d
  · exact hd.symm ▸ hm.registered (hd ▸ hreg)
  · rw [hm.others d' hd]
    exact hreg

theorem ends {d' : BitVec 16} (h : s.Ends d') : s'.Ends d' := by
  unfold Ends at h ⊢
  rw [hm.table, hm.irq]
  exact h.imp_left hm.mem_events

theorem sound (h : s.Sound me count) (hmeeting : s'.Meeting me count d) : s'.Sound me count where
  calls := hm.table ▸ h.calls
  events path hpath := by
    have hold (hold : path ∈ s.watchEvents) : s'.Known path := by
      have hknown := h.events path hold
      refine ⟨hknown.found, fun hbind => ?_⟩
      obtain ⟨d', hd', hreg⟩ := hknown.bound hbind
      exact ⟨d', hd', hm.isRegistered hreg⟩
    rcases hm.events with hsame | ⟨new, -, happ, hknown⟩
    · exact hold (hsame ▸ hpath)
    · rw [happ, List.mem_append, List.mem_singleton] at hpath
      rcases hpath with hmem | rfl
      · exact hold hmem
      · exact hknown
  server := by
    have hkey := hm.store serverIdPath (serverIdPath_ne _ _) (serverIdPath_ne _ _)
    refine ⟨?_, ?_⟩
    · rw [hkey]
      exact h.server.read
    · rw [hkey, hm.init]
      exact h.server.published
  loaded := hm.init ▸ h.loaded
  before hinit := by
    rw [hm.init] at hinit
    rw [hm.table]
    rcases hm.events with hsame | ⟨_, hdone, -⟩
    · rw [hsame]
      exact h.before hinit
    · exact absurd hdone hinit
  publishing p hp := by
    rw [hm.publishing] at hp
    obtain ⟨j, hpc, hpub⟩ := h.publishing p hp
    rw [hm.table]
    exact ⟨j, hpc, hpub.congr (hm.gnt _) (congrFun hm.grantRefs j)⟩
  irq j hj := by
    rw [hm.irq] at hj
    obtain ⟨d', todo, hserves, hreg⟩ := h.irq j hj
    rw [hm.table]
    exact ⟨d', todo, hserves, hm.isRegistered hreg⟩
  each d' := by
    by_cases hd : d' = d
    · exact hd.symm ▸ hmeeting
    · refine SameFor.meeting (s := s) ⟨fun key _ => hm.keys (.inl hd), hm.others d' hd,
        hm.tokens d' hd, fun _ _ => ?_, fun j _ _ => congrFun hm.grantRefs j,
        fun j _ _ => congrFun hm.commonEvtchn j, fun j _ _ => congrFun hm.sringInit j⟩
        (h.each d') fun hreg => hm.ends ((h.each d').ends hreg)
      rw [hm.table]

theorem offers {todo : List Setup} (h : s.Offers count i d todo) : s'.Offers count i d todo where
  noPort hmem := (hm.keys (.inr (by decide))).trans (h.noPort hmem)
  port hmem := by
    rw [hm.commonEvtchn, hm.keys (.inr (by decide))]
    exact h.port hmem
  refs hmem := by
    rw [hm.grantRefs]
    exact h.refs hmem
  ring hmem := by
    rw [hm.sringInit]
    exact h.ring hmem
  noTotal hmem := (hm.keys (.inr (by decide))).trans (h.noTotal hmem)
  total hmem := by
    rw [hm.grantRefs, Offered.congr (hm.gnt d)]
    exact h.total hmem

/-- What holds of the INS afterwards, besides the keys that it has written. -/
theorem meeting (h : s.Meeting me count d) (hvalid : validDomid d.toNat = true)
    (hid : s'.store (insPath d insIdKey) = some (Nat.toDigits 10 d.toNat))
    (hbound : s'.store (insPath d vmEvtChnBoundKey) =
      if MagicWand.Handshake.isRegistered (s'.ins d) = true then some ['1'] else none)
    (hstart : s'.ins d ≠ .start) (htokens : s'.tokens d + entries s.table d = 1)
    (htold : s.Told me count d (s'.ins d))
    (hends : MagicWand.Handshake.isRegistered (s'.ins d) = true → s'.Ends d) :
    s'.Meeting me count d where
  valid _ := hvalid
  id := by rw [if_neg hstart, hid]
  bound := hbound
  once := by rw [if_neg hstart, hm.table, htokens]
  offers j todo hj := hm.offers (h.offers j todo (hm.table ▸ hj))
  unserved hno := by
    rw [hm.keys (.inr (by decide)), hm.keys (.inr (by decide))]
    exact h.unserved (hm.table ▸ hno)
  told := (Told.congr (hm.gnt d) (hm.keys (.inr (by decide)))).mpr htold
  ends := hends

end Moves

/-- The INS has read something. -/
theorem Sound.reads (h : s.Sound me count) (hstart : s.ins d ≠ .start)
    (hreg : isRegistered (s.ins d) = false) {pc : Registering} (hpc : pc ≠ .start)
    (hpc' : isRegistered pc = false) (htold : s.Told me count d pc) :
    (s.goto d pc).Sound me count := by
  have hself : (s.goto d pc).ins d = pc := Function.update_self ..
  have hold := h.each d
  have hm : Moves s (s.goto d pc) d :=
    ⟨rfl, rfl, rfl, rfl, rfl, rfl, rfl, fun d' hd => Function.update_of_ne hd .., fun _ _ => rfl,
      fun hr => absurd (hreg.symm.trans hr) (by decide), fun _ _ _ => rfl, .inl rfl⟩
  have hid := hold.id
  rw [if_neg hstart] at hid
  have hbound := hold.bound
  rw [hreg] at hbound
  have honce := hold.once
  rw [if_neg hstart] at honce
  refine hm.sound h (hm.meeting hold (hold.valid hstart) hid ?_ ?_ honce ?_ fun hr => ?_)
  · rw [hself, hpc']
    exact hbound
  · rw [hself]
    exact hpc
  · rw [hself]
    exact htold
  · rw [hself, hpc'] at hr
    cases hr

theorem events_write {path value : List Char} (hknown : s.init = .done → s'.Known path)
    (hevents : s'.watchEvents = (s.write path value).watchEvents) :
    s'.watchEvents = s.watchEvents ∨
      ∃ path, s.init = .done ∧ s'.watchEvents = s.watchEvents ++ [path] ∧ s'.Known path := by
  by_cases hinit : s.init = .done
  · exact .inr ⟨path, hinit, hevents.trans (if_pos hinit), hknown hinit⟩
  · exact .inl (hevents.trans (if_neg hinit))

theorem entries_of_start (h : s.Meeting me count d) (hstart : s.ins d = .start) :
    s.tokens d = 0 ∧ entries s.table d = 0 := by
  have honce := h.once
  rw [if_pos hstart] at honce
  omega

/-- When the INS writes its id there is a token for it: an event, or the note that there was no
watch yet. -/
theorem writesId_effect (htokens : s.tokens d = 0)
    (hs : some ((Handshake.write (if s.init = .done then s else { s with early := s.early ++ [d] })
      (insPath d insIdKey) (Nat.toDigits 10 d.toNat)).goto d .server) = some s') :
    s'.ins d = .server ∧ (∀ d', d' ≠ d → s'.ins d' = s.ins d') ∧
    s'.store = Function.update s.store (insPath d insIdKey) (some (Nat.toDigits 10 d.toNat)) ∧
    s'.watchEvents = (s.write (insPath d insIdKey) (Nat.toDigits 10 d.toNat)).watchEvents ∧
    (∀ d', d' ≠ d → s'.tokens d' = s.tokens d') ∧ s'.tokens d = 1 := by
  have hother {d' : BitVec 16} (hd : d' ≠ d) : insPath d' insIdKey ∉ [insPath d insIdKey] := by
    rw [List.mem_singleton, insPath_inj]
    exact fun heq => hd heq.1
  by_cases hinit : s.init = .done
  · rw [if_pos hinit] at hs
    obtain rfl := Option.some.inj hs
    refine ⟨Function.update_self .., fun d' hd => Function.update_of_ne hd .., rfl, rfl,
      fun d' hd => ?_, ?_⟩
    · simp only [tokens, goto, write, hinit, if_true, count_append_of_ne (hother hd)]
    · rw [← Nat.zero_add 1, ← htokens]
      simp only [tokens, goto, write, hinit, if_true, List.count_append,
        List.count_singleton_self]
      omega
  · rw [if_neg hinit] at hs
    obtain rfl := Option.some.inj hs
    refine ⟨Function.update_self .., fun d' hd => Function.update_of_ne hd .., rfl, ?_,
      fun d' hd => ?_, ?_⟩
    · simp only [goto, write, hinit, if_false]
    · have hnone : [d].count d' = 0 := List.count_eq_zero.mpr (by simpa using hd)
      have hcount : (s.early ++ [d]).count d' = s.early.count d' := by
        rw [List.count_append, hnone, Nat.add_zero]
      simp only [tokens, goto, write, hinit, if_false, hcount]
    · rw [← Nat.zero_add 1, ← htokens]
      simp only [tokens, goto, write, hinit, if_false, List.count_append,
        List.count_singleton_self]
      omega

/-- The INS writes its id. -/
theorem Sound.writesId (h : s.Sound me count) (hvalid : validDomid d.toNat = true)
    (hstart : s.ins d = .start)
    (hs : some ((Handshake.write (if s.init = .done then s else { s with early := s.early ++ [d] })
      (insPath d insIdKey) (Nat.toDigits 10 d.toNat)).goto d .server) = some s') :
    s'.Sound me count := by
  have hold := h.each d
  obtain ⟨htokens, hentries⟩ := entries_of_start hold hstart
  have hnew : mwXenXenstoreStateChanged (insPath d insIdKey) = .insFound := by
    rw [stateChanged_insPath]
    decide
  have hbound : s.store (insPath d vmEvtChnBoundKey) = none := by
    rw [hold.bound, hstart]
    rfl
  obtain ⟨hself, hothers, hstore, hevents, htokens', htoken⟩ := writesId_effect htokens hs
  have hfields : s'.table = s.table ∧ s'.init = s.init ∧ s'.publishing = s.publishing ∧
      s'.grantRefs = s.grantRefs ∧ s'.commonEvtchn = s.commonEvtchn ∧
      s'.sringInit = s.sringInit ∧ s'.irq = s.irq := by
    obtain rfl := Option.some.inj hs
    split <;> exact ⟨rfl, rfl, rfl, rfl, rfl, rfl, rfl⟩
  obtain ⟨htable, hinit, hpub, hrefs, hport, hring, hirq⟩ := hfields
  have hknown : s'.Known (insPath d insIdKey) :=
    ⟨fun _ => ⟨d, rfl⟩, fun hbind => absurd (hnew.symm.trans hbind) (by decide)⟩
  have hunregistered : isRegistered (s.ins d) ≠ true := by
    rw [hstart]
    exact Bool.false_ne_true
  have hm : Moves s s' d :=
    ⟨htable, hinit, hpub, hrefs, hport, hring, hirq, hothers, htokens',
      fun hreg => absurd hreg hunregistered,
      fun path hid _ => by rw [hstore, Function.update_of_ne hid],
      events_write (fun _ => hknown) hevents⟩
  refine hm.sound h (hm.meeting hold hvalid ?_ ?_ ?_ ?_ ?_ fun hreg => ?_)
  · rw [hstore, Function.update_self]
  · rw [hstore, Function.update_of_ne, hbound, hself]
    · rfl
    · rw [Ne, insPath_inj]
      exact fun heq => absurd heq.2 (by decide)
  · rw [hself]
    exact Registering.noConfusion
  · rw [htoken, hentries]
  · rw [hself]
    trivial
  · rw [hself] at hreg
    cases hreg

/-- The INS says that it has bound the event channel. -/
theorem Sound.registers (h : s.Sound me count) {r : BitVec 16} {refs : List (BitVec 32)}
    {port : Int} (hpc : s.ins d = .announce r refs port) :
    ((s.write (insPath d vmEvtChnBoundKey) ['1']).goto d (.registered r refs port)).Sound me
      count := by
  have hold := h.each d
  have hstart : s.ins d ≠ .start := by
    rw [hpc]
    exact Registering.noConfusion
  have hbind : mwXenXenstoreStateChanged (insPath d vmEvtChnBoundKey) = .bindEvtChn := by
    rw [stateChanged_insPath]
    decide
  have htold := hold.told
  rw [hpc] at htold
  obtain ⟨j, todo, hj, -⟩ := h.served htold.2.1
  have hdone := h.done_of_serving hj
  have hevents : (s.write (insPath d vmEvtChnBoundKey) ['1']).watchEvents =
      s.watchEvents ++ [insPath d vmEvtChnBoundKey] := if_pos hdone
  have hself : ((s.write (insPath d vmEvtChnBoundKey) ['1']).goto d (.registered r refs port)).ins d
      = .registered r refs port := Function.update_self ..
  have htokens (d' : BitVec 16) : ((s.write (insPath d vmEvtChnBoundKey) ['1']).goto d
      (.registered r refs port)).tokens d' = s.tokens d' := by
    simp only [tokens, goto, hevents]
    rw [count_append_of_ne (not_mem_of_nothing (by rw [hbind]; decide))]
    rfl
  have hm : Moves s ((s.write (insPath d vmEvtChnBoundKey) ['1']).goto d
      (.registered r refs port)) d := by
    refine ⟨rfl, rfl, rfl, rfl, rfl, rfl, rfl, fun d' hd => Function.update_of_ne hd ..,
      fun d' _ => htokens d', fun _ => ?_, fun path _ hpath => s.store_write_ne _ hpath,
      .inr ⟨_, hdone, hevents, fun hfound => ?_, fun _ => ⟨d, rfl, ?_⟩⟩⟩
    · rw [hself]
      rfl
    · exact absurd (hbind.symm.trans hfound) (by decide)
    · rw [hself]
      rfl
  have hid := hold.id
  rw [if_neg hstart] at hid
  have honce := hold.once
  rw [if_neg hstart] at honce
  refine hm.sound h (hm.meeting hold (hold.valid hstart) ?_ ?_ ?_ ?_ ?_ fun _ => .inl ?_)
  · refine (s.store_write_ne _ ?_).trans hid
    rw [Ne, insPath_inj]
    exact fun heq => absurd heq.2 (by decide)
  · rw [hself]
    exact s.store_write_self _ _
  · rw [hself]
    exact Registering.noConfusion
  · rw [htokens, honce]
  · rw [hself]
    exact htold
  · exact hevents.symm ▸ List.mem_append_right _ List.mem_cons_self

/-! ## What the INS reads -/

/-- The number of the chunks is there: so are the chunks. -/
theorem Sound.offered (h : s.Sound me count) (hsome : s.store (insPath d gntRefChunks) ≠ none) :
    ∃ refs, s.Offered count d refs := by
  by_cases hno : ∀ j todo, serving s.table j ≠ some (d, todo)
  · exact absurd ((h.each d).unserved hno).2 hsome
  · push Not at hno
    obtain ⟨j, todo, hj⟩ := hno
    have hoffers := (h.each d).offers j todo hj
    exact ⟨s.grantRefs j, hoffers.total fun hmem => hsome (hoffers.noTotal hmem)⟩

/-- How the reader goes on when it has read the number of the chunks. -/
theorem Offered.readChunks {refs : List (BitVec 32)} (h : s.Offered count d refs) :
    ∃ v, s.store (insPath d gntRefChunks) = some v ∧ v.head? ≠ some '0' ∧
      readChunks count s.store d (readInt (some v)).toNat 1 [] = .received refs := by
  rw [Offered, xeCommsRcvGrantRefs, show snprintf xeneventPathStrLen (join (insDir d) gntRefChunks)
    = insPath d gntRefChunks from snprintf_insPath (by decide)] at h
  split at h
  · cases h
  · cases h
  · next v hnot hv =>
      refine ⟨v, hv, fun hhead => ?_, h⟩
      obtain ⟨rest, rfl⟩ := List.head?_eq_some_iff.mp hhead
      exact hnot rest rfl

/-- A step of `xe_comms_register`. -/
theorem Sound.xeCommsRegister (h : s.Sound me count) (hvalid : validDomid d.toNat = true)
    (hs : s.xeCommsRegister count d true = some s') : s'.Sound me count := by
  have hport : ownPath d vmEvtChnPortKey = insPath d vmEvtChnPortKey := ownPath_eq (by decide)
  have htotal : ownPath d gntRefChunks = insPath d gntRefChunks := ownPath_eq (by decide)
  have hid : ownPath d insIdKey = insPath d insIdKey := ownPath_eq (by decide)
  have hbound : ownPath d vmEvtChnBoundKey = insPath d vmEvtChnBoundKey := ownPath_eq (by decide)
  have htold := (h.each d).told
  have goes {pc : Registering} (hs : some (s.goto d pc) = some s') (hstart : s.ins d ≠ .start)
      (hreg : isRegistered (s.ins d) = false) (hpc : pc ≠ .start) (hpc' : isRegistered pc = false)
      (htold : s.Told me count d pc) : s'.Sound me count :=
    Option.some.inj hs ▸ h.reads hstart hreg hpc hpc' htold
  cases hpc : s.ins d with
  | start =>
      simp only [Handshake.xeCommsRegister, hpc, if_true, hid] at hs
      exact h.writesId hvalid hpc hs
  | server =>
      simp only [Handshake.xeCommsRegister, hpc] at hs
      split at hs
      · cases hs
      · next hne =>
          refine goes hs (by simp [hpc]) (by rw [hpc]; rfl) (by simp) rfl ?_
          rcases h.server.read with hzero | hme
          · exact absurd hzero hne
          · rw [hme, BitVec.ofInt_natCast, BitVec.ofNat_toNat, BitVec.setWidth_eq]
            rfl
  | chunks r =>
      rw [hpc] at htold
      simp only [Handshake.xeCommsRegister, hpc, htotal] at hs
      split at hs
      · cases hs
      · cases hs
      · next v _ hv =>
          exact goes hs (by simp [hpc]) (by rw [hpc]; rfl) (by simp) rfl
            ⟨htold, h.offered (by simp [hv])⟩
  | total r =>
      rw [hpc] at htold
      obtain ⟨hme, refs, hoffered⟩ := htold
      obtain ⟨v, hv, -, hread⟩ := hoffered.readChunks
      simp only [Handshake.xeCommsRegister, hpc, htotal, hv] at hs
      exact goes hs (by simp [hpc]) (by rw [hpc]; rfl) (by simp) rfl ⟨hme, refs, hoffered, hread⟩
  | refs r left gnt acc =>
      rw [hpc] at htold
      obtain ⟨hme, refs, hoffered, hread⟩ := htold
      cases left with
      | zero =>
          simp only [Handshake.xeCommsRegister, hpc] at hs
          cases hread
          exact goes hs (by simp [hpc]) (by rw [hpc]; rfl) (by simp) rfl ⟨hme, hoffered⟩
      | succ left =>
          have hkey : ownPath d (gntKey gnt) =
              snprintf xeneventPathStrLen (join (insDir d) (gntKey gnt)) := rfl
          simp only [Handshake.xeCommsRegister, hpc, hkey] at hs
          rw [MagicWand.readChunks] at hread
          cases hstore : s.store (snprintf xeneventPathStrLen (join (insDir d) (gntKey gnt))) with
          | none =>
              rw [hstore] at hread
              cases hread
          | some gntstr =>
              rw [hstore] at hread hs
              cases hchunk : readChunk count gntstr acc with
              | received acc' =>
                  simp only [hchunk] at hread hs
                  exact goes hs (by simp [hpc]) (by rw [hpc]; rfl) (by simp) rfl
                    ⟨hme, refs, hoffered, hread⟩
              | _ =>
                  simp only [hchunk] at hread
                  cases hread
  | map r refs =>
      rw [hpc] at htold
      simp only [Handshake.xeCommsRegister, hpc, if_true] at hs
      exact goes hs (by simp [hpc]) (by rw [hpc]; rfl) (by simp) rfl htold
  | port r refs =>
      rw [hpc] at htold
      simp only [Handshake.xeCommsRegister, hpc, hport] at hs
      split at hs
      · cases hs
      · next hne =>
          exact goes hs (by simp [hpc]) (by rw [hpc]; rfl) (by simp) rfl
            ⟨htold.1, htold.2, rfl, hne⟩
  | bind r refs port =>
      rw [hpc] at htold
      simp only [Handshake.xeCommsRegister, hpc, if_true] at hs
      exact goes hs (by simp [hpc]) (by rw [hpc]; rfl) (by simp) rfl htold
  | announce r refs port =>
      simp only [Handshake.xeCommsRegister, hpc, if_true, hbound] at hs
      exact Option.some.inj hs ▸ h.registers hpc
  | registered r refs port =>
      simp only [Handshake.xeCommsRegister, hpc] at hs
      cases hs
  | failed =>
      rw [hpc] at htold
      exact htold.elim

/-! ## Runs -/

theorem Sound.init (hz : Nat) (jiffies : BitVec 64) :
    (handshake me count chunkSize hz jiffies).init.Sound me count where
  calls :=
    { sound := InsTable.sound_init hz jiffies
      single := fun _ _ => rfl
      carries := fun id hid => by cases hid
      suffix := fun i todo hpc => by cases hpc }
  events path hpath := absurd hpath List.not_mem_nil
  server := ⟨.inl rfl, fun hinit => by rcases hinit with hw | hd <;> contradiction⟩
  loaded := by simp [handshake]
  before _ := ⟨rfl, rfl, fun _ => rfl⟩
  publishing p hp := by cases hp
  irq i hi := absurd rfl hi
  each d :=
    { valid := fun hstart => absurd rfl hstart
      id := rfl
      bound := rfl
      once := by
        have hentries : entries ({ jiffies := jiffies } : InsTable) d = 0 :=
          entries_eq_zero fun j todo hj => by cases hj
        exact hentries
      offers := fun i todo hi => by cases hi
      unserved := fun _ => ⟨rfl, rfl⟩
      told := trivial
      ends := fun hreg => by cases hreg }

theorem Sound.step (h : s.Sound me count) (hcount : 2 ≤ count) (hfit : count ≤ 2 ^ 30)
    {e : HandshakeEvent} (hG : s.orderly count hz e)
    (hs : Handshake.step me count chunkSize hz s e = some s') : s'.Sound me count := by
  have passes {e : InsEvent} (hpassive : Handshake.passive e = true) (hG : s.table.orderly hz e)
      (hs : (s.table.step hz e).map (fun t => { s with table := t }) = some s') :
      s'.Sound me count := by
    obtain ⟨t, ht, rfl⟩ := Option.map_eq_some_iff.mp hs
    exact h.passive hpassive hG ht (fun _ hmem => hmem) (fun _ => rfl) fun _ hmem => hmem
  cases e with
  | init ok =>
      obtain rfl : ok = true := hG
      exact h.mwXenInit hs
  | xenwatch irq => exact h.xenwatch hG hs
  | found ok err port refs =>
      obtain ⟨rfl, rfl, hpos, hlt, hlen, hrefs⟩ := hG
      exact h.mwXenInsFound hcount hfit hpos hlt hlen hrefs hs
  | register d ok =>
      obtain ⟨rfl, hvalid⟩ := hG
      exact h.xeCommsRegister hvalid hs
  | heartbeat d value =>
      simp only [Handshake.step] at hs
      split at hs
      · next hreg =>
          obtain rfl := Option.some.inj hs
          exact h.heartbeat hreg
      · cases hs
  | tick n => exact passes (e := .tick n) rfl trivial hs
  | reap => exact passes (e := .reap) rfl trivial hs
  | visit => exact passes (e := .visit) rfl hG hs

theorem Sound.of_run (hcount : 2 ≤ count) (hfit : count ≤ 2 ^ 30) {jiffies : BitVec 64}
    {es : List HandshakeEvent}
    (hG : (handshake me count chunkSize hz jiffies).Guarded (Handshake.orderly count hz) es)
    (hrun : (handshake me count chunkSize hz jiffies).run es = some s) : s.Sound me count :=
  (handshake me count chunkSize hz jiffies).guarded_invariant (Sound.init hz jiffies)
    (fun _ _ _ hG hs h => Sound.step h hcount hfit hG hs) hG hrun

/-! ## Agreement -/

theorem leftFor_suffix {t : InsTable} (h : Calls t) (i : Fin maxInsCount) :
    leftFor t i <:+ allSetups := by
  unfold leftFor
  split
  · next j todo hpc =>
      split
      · exact h.suffix j todo hpc
      · exact List.nil_suffix
  · exact List.nil_suffix

/-- An entry that has its references published is set up. -/
theorem Sound.setUp (h : s.Sound me count) {todo : List Setup}
    (hi : serving s.table i = some (d, todo)) (hmem : .grantRefs ∉ todo) : todo = [] := by
  obtain rfl : todo = leftFor s.table i := congrArg Prod.snd (serving_eq_some.mp hi).2.2
  have hsuffix := leftFor_suffix h.calls i
  cases htodo : leftFor s.table i with
  | nil => rfl
  | cons stage todo =>
      rw [htodo] at hsuffix hmem
      obtain rfl := eq_afterSetup hsuffix
      refine absurd ?_ hmem
      cases stage <;> decide

/-- Entry `i` is that of INS `d`, and they mean the same ring and the same event channel. -/
structure Agreed (me : BitVec 16) (count : Nat) (s : Handshake) (i : Fin maxInsCount)
    (d remoteId : BitVec 16) (refs : List (BitVec 32)) (port : Int) : Prop where
  inUse : (s.table.ins i).inUse = true
  domid : (s.table.ins i).domid = d
  remote : remoteId = me
  refs : refs = s.grantRefs i ∧ refs.length = count
  port : port = s.commonEvtchn i
  ring : s.sringInit i = true

theorem Sound.agreed (h : s.Sound me count) {r : BitVec 16} {refs : List (BitVec 32)} {port : Int}
    (hpc : s.ins d = .registered r refs port) : ∃ i, s.Agreed me count i d r refs port := by
  have htold := (h.each d).told
  rw [hpc] at htold
  obtain ⟨hme, hoffered, hport, -⟩ := htold
  obtain ⟨i, todo, hi, hmem, hrefs⟩ := h.served hoffered
  obtain rfl := h.setUp hi hmem
  have hoffers := (h.each d).offers i [] hi
  obtain ⟨hstore, -, hlt⟩ := hoffers.port List.not_mem_nil
  obtain ⟨huse, -, heq⟩ := serving_eq_some.mp hi
  refine ⟨i, huse, (congrArg Prod.fst heq).symm, hme, ⟨hrefs.symm, ?_⟩, ?_, ?_⟩
  · rw [← hrefs]
    exact (hoffers.refs List.not_mem_nil).1
  · rw [← hport, hstore, readInt_toDigits hlt]
  · exact hoffers.ring List.not_mem_nil

/-! ## The table -/

/-- How the writer goes on while it does not yet write the number of the chunks. -/
def WriterGoes (refs : List (BitVec 32)) : Option Publishing → Publishing → Prop
  | none, .refs _ todo => todo = refs
  | some (.refs _ (_ :: todo)), .refs _ todo' => todo' = todo
  | some (.refs _ []), .total _ => True
  | _, _ => False

/-- A step of a call makes one event at most, and one that the driver ignores. -/
def QuietEvents (s s' : Handshake) : Prop :=
  s'.watchEvents = s.watchEvents ∨
    ((∃ i todo, s.table.found 0 = .setup i (.evtChn :: todo)) ∨ s.publishing ≠ none) ∧
      ∃ path, mwXenXenstoreStateChanged path = .nothing ∧ s'.watchEvents = s.watchEvents ++ [path]

/-- A step of a call moves the call on in the table, or it writes references. -/
inductive CallStep (s s' : Handshake) : Prop where
  | moves (hmove : s.table.insFound 0 true (s.table.found 0) = some s'.table)
      (hwriter : (s.publishing = none ∧ ∀ i, s.table.found 0 ≠ .setup i [.grantRefs]) ∨
        ∃ w, s.publishing = some (.total w))
      (hdone : s'.publishing = none)
      (hrefused : s'.refused = s.refused ∨
        ∃ id n, s.table.found 0 = .probing id n ∧ maxInsCount ≤ n)
      (hevents : QuietEvents s s') (hins : s'.ins = s.ins) (hinit : s'.init = s.init)
  | writes {i : Fin maxInsCount} {p : Publishing}
      (hpc : s.table.found 0 = .setup i [.grantRefs]) (htable : s'.table = s.table)
      (hgoes : WriterGoes (s.grantRefs i) s.publishing p) (hp : s'.publishing = some p)
      (hrefused : s'.refused = s.refused) (hevents : QuietEvents s s') (hins : s'.ins = s.ins)
      (hinit : s'.init = s.init)

theorem CallStep.of_moveFound {u : Handshake} (hs : u.moveFound true = some s')
    (hu : u.table = s.table)
    (hwriter : (s.publishing = none ∧ ∀ i, s.table.found 0 ≠ .setup i [.grantRefs]) ∨
      ∃ w, s.publishing = some (.total w))
    (hdone : u.publishing = none)
    (hrefused : u.refused = s.refused ∨
      ∃ id n, s.table.found 0 = .probing id n ∧ maxInsCount ≤ n)
    (hevents : QuietEvents s u) (hins : u.ins = s.ins) (hinit : u.init = s.init) :
    CallStep s s' := by
  obtain ⟨t, ht, rfl⟩ := Option.map_eq_some_iff.mp hs
  rw [hu] at ht
  exact .moves ht hwriter hdone hrefused hevents hins hinit

theorem quietEvents_write {u : Handshake} {key : List Char} (value : List Char)
    (hu : u.watchEvents = s.watchEvents)
    (hloud : (∃ i todo, s.table.found 0 = .setup i (.evtChn :: todo)) ∨ s.publishing ≠ none)
    (hkey : mwXenXenstoreStateChanged (insPath d key) = .nothing) :
    QuietEvents s (u.write (insPath d key) value) := by
  unfold QuietEvents
  rw [← hu]
  exact (events_write_own value hkey).imp_right fun hnew => ⟨hloud, hnew⟩

theorem Sound.callStep_write (h : s.Sound me count) (hcount : 2 ≤ count) (hfit : count ≤ 2 ^ 30)
    (hpc : s.table.found 0 = .setup i [.grantRefs])
    (hs : s.writeGrantRefsToKey count chunkSize i true 0 = some s') : CallStep s s' := by
  have hdir : s.dirOf i = insDir (s.table.ins i).domid := snprintf_insDir _
  cases hp : s.publishing with
  | none =>
      simp only [Handshake.writeGrantRefsToKey, hp, if_true] at hs
      obtain rfl := Option.some.inj hs
      exact .writes hpc rfl (hp.symm ▸ rfl) rfl rfl (.inl rfl) rfl rfl
  | some p =>
      have hloud : s.publishing ≠ none := by simp [hp]
      cases p with
      | refs w refs =>
          have hfitted : w.gntChunk < 2 ^ 31 := by
            obtain ⟨chunks, rest, hall, hpacked⟩ := h.writer hpc hp
            exact (publishes_fit h hfit hpc hall hpacked).2.1
          have goes {w' : Writing} {p : Publishing}
              (hs : some { s.synced i { w with store := s.store } w' with publishing := some p } =
                some s')
              (hgoes : WriterGoes (s.grantRefs i) (some (.refs w refs)) p) : CallStep s s' := by
            obtain rfl := Option.some.inj hs
            exact .writes hpc rfl (hp.symm ▸ hgoes) rfl rfl
              ((events_synced w' hfitted).imp_right fun hnew => ⟨.inr hloud, hnew⟩) rfl rfl
          cases refs with
          | nil =>
              simp only [Handshake.writeGrantRefsToKey, hp, storeChunk_writes, ne_eq,
                apply_ite Prod.fst, ite_self, not_true_eq_false, if_false] at hs
              exact goes hs trivial
          | cons ref refs =>
              have hok := @Sound.writes me count chunkSize s i h hcount hfit hpc w ref refs hp
              simp only [Handshake.writeGrantRefsToKey, hp, hdir, hok, ne_eq, not_true_eq_false,
                if_false] at hs
              exact goes hs rfl
      | total w =>
          have hnothing : mwXenXenstoreStateChanged
              (insPath (s.table.ins i).domid gntRefChunks) = .nothing := by
            rw [stateChanged_insPath]
            decide
          have hpath : join (s.dirOf i) gntRefChunks =
              insPath (s.table.ins i).domid gntRefChunks := by
            rw [hdir]
            rfl
          simp only [Handshake.writeGrantRefsToKey, hp, ne_eq, not_true_eq_false, if_false,
            hpath] at hs
          exact .of_moveFound hs rfl (.inr ⟨w, hp⟩) rfl (.inl rfl)
            (quietEvents_write (snprintf xeneventPathStrLen (Nat.toDigits 10 (w.gntChunk - 1)))
              (u := s) rfl (.inr hloud) hnothing) rfl rfl

/-- What a step of the call does, when nothing that the environment does fails. -/
theorem Sound.callStep (h : s.Sound me count) (hcount : 2 ≤ count) (hfit : count ≤ 2 ^ 30)
    {port : Nat} {refs : InsGrantRefs}
    (hs : s.mwXenInsFound count chunkSize true 0 port refs = some s') : CallStep s s' := by
  have moves {u : Handshake} (hs : u.moveFound true = some s') (hu : u.table = s.table)
      (hpc : ∀ i, s.table.found 0 ≠ .setup i [.grantRefs]) (hp : u.publishing = s.publishing)
      (hrefused : u.refused = s.refused ∨
        ∃ id n, s.table.found 0 = .probing id n ∧ maxInsCount ≤ n)
      (hevents : QuietEvents s u) (hins : u.ins = s.ins) (hinit : u.init = s.init) :
      CallStep s s' := by
    have hnone := h.no_publishing hpc
    exact .of_moveFound hs hu (.inl ⟨hnone, hpc⟩) (hp.trans hnone) hrefused hevents hins hinit
  unfold Handshake.mwXenInsFound at hs
  split at hs
  · next i todo hpc =>
      have hno : ∀ j, s.table.found 0 ≠ .setup j [.grantRefs] := by simp [hpc]
      unfold createUnboundEvtChn at hs
      split at hs
      · exact moves hs rfl hno rfl (.inl rfl) (.inl rfl) rfl rfl
      · have hnothing : mwXenXenstoreStateChanged (insPath (s.table.ins i).domid vmEvtChnPortKey) =
            .nothing := by
          rw [stateChanged_insPath]
          decide
        simp only [if_true, ne_eq, not_true_eq_false, if_false] at hs
        refine moves hs rfl hno rfl (.inl rfl) ?_ rfl rfl
        have hpath : join (s.dirOf i) vmEvtChnPortKey =
            insPath (s.table.ins i).domid vmEvtChnPortKey := by
          rw [dirOf, snprintf_insDir]
          rfl
        change QuietEvents s (Handshake.write _ (join (s.dirOf i) vmEvtChnPortKey) _)
        rw [hpath]
        exact quietEvents_write _ rfl (.inl ⟨i, todo, hpc⟩) hnothing
  · next i todo hpc =>
      exact moves hs rfl (by simp [hpc]) rfl (.inl rfl) (.inl rfl) rfl rfl
  · next i todo hpc =>
      exact moves hs rfl (by simp [hpc]) rfl (.inl rfl) (.inl rfl) rfl rfl
  · next i todo hpc =>
      obtain rfl := eq_afterSetup (h.calls.suffix i _ hpc)
      exact h.callStep_write hcount hfit hpc hs
  · next id n hpc =>
      split at hs
      · exact moves hs rfl (by simp [hpc]) rfl (.inl rfl) (.inl rfl) rfl rfl
      · next hn =>
          exact moves hs rfl (by simp [hpc]) rfl (.inr ⟨id, n, hpc, Nat.le_of_not_lt hn⟩) (.inl rfl)
            rfl rfl
  · next hgrant _ =>
      exact moves hs rfl (fun i hpc => hgrant i [] hpc) rfl (.inl rfl) (.inl rfl) rfl rfl

/-- The events of the table when there is one call and nothing fails. -/
def SingleCall (e : InsEvent) : Prop :=
  passive e = true ∨ e = .move 0 true ∨ ∃ id, e = .found 0 id

theorem eq_of_bindEvtChn {path : List Char} {irq : Int}
    (hs : s.mwXenBindEvtChn hz path irq = some s') :
    ∃ t irq', { s with table := t, irq := irq' } = s' ∧
      (t = s.table ∨ ∃ d, s.table.step hz (.bound d) = some t) := by
  unfold Handshake.mwXenBindEvtChn at hs
  split at hs
  · exact ⟨s.table, s.irq, Option.some.inj hs, .inl rfl⟩
  · next d _ =>
      split at hs
      · next i t _ ht =>
          simp only [] at hs
          split at hs
          · exact ⟨t, s.irq, Option.some.inj hs, .inr ⟨d, ht⟩⟩
          · split at hs
            · exact ⟨t, s.irq, Option.some.inj hs, .inr ⟨d, ht⟩⟩
            · exact ⟨t, _, Option.some.inj hs, .inr ⟨d, ht⟩⟩
      · obtain ⟨t, ht, heq⟩ := Option.map_eq_some_iff.mp hs
        exact ⟨t, s.irq, heq, .inr ⟨d, ht⟩⟩

/-- What the driver does about an event. -/
structure WatchStep (hz : Nat) (s s' : Handshake) : Prop where
  idle : s.table.found 0 = .idle
  events : ∃ path, s.watchEvents = path :: s'.watchEvents ∧
    (mwXenXenstoreStateChanged path ≠ .insFound → s'.table.found = s.table.found)
  table : s'.table = s.table ∨
    ∃ e, SingleCall e ∧ s.table.orderly hz e ∧ s.table.step hz e = some s'.table
  found : s'.table.found 0 = .idle ∨ ∃ id, s'.table.found 0 = .probing id 0
  publishing : s'.publishing = s.publishing
  refused : s'.refused = s.refused
  ins : s'.ins = s.ins
  init : s'.init = s.init

theorem watchStep {irq : Int} (hs : s.xenwatch hz irq = some s') : WatchStep hz s s' := by
  have passes {path : List Char} {events : List (List Char)} {e : InsEvent} {t : InsTable}
      {irq' : Fin maxInsCount → Int} (hidle : s.table.found 0 = .idle)
      (hevents : s.watchEvents = path :: events) (hpassive : passive e = true)
      (horderly : s.table.orderly hz e) (ht : s.table.step hz e = some t) :
      WatchStep hz s { s with watchEvents := events, table := t, irq := irq' } := by
    have hidles := idles_of_step hpassive horderly ht
    exact ⟨hidle, ⟨path, hevents, fun _ => hidles.found⟩,
      .inr ⟨e, .inl hpassive, horderly, ht⟩, .inl ((congrFun hidles.found 0).trans hidle), rfl,
      rfl, rfl, rfl⟩
  have ignores {path : List Char} {events : List (List Char)} {irq' : Fin maxInsCount → Int}
      (hidle : s.table.found 0 = .idle) (hevents : s.watchEvents = path :: events) :
      WatchStep hz s { s with watchEvents := events, irq := irq' } :=
    ⟨hidle, ⟨path, hevents, fun _ => rfl⟩, .inl rfl, .inl hidle, rfl, rfl, rfl, rfl⟩
  unfold Handshake.xenwatch at hs
  split at hs
  · next path events hidle hevents =>
      simp only [] at hs
      split at hs
      · next hfound =>
          obtain ⟨t, ht, rfl⟩ := Option.map_eq_some_iff.mp hs
          refine ⟨hidle, ⟨path, hevents, fun hne => absurd hfound hne⟩,
            .inr ⟨.found 0 (s.store path), .inr (.inr ⟨_, rfl⟩), trivial, ht⟩, ?_, rfl, rfl, rfl,
            rfl⟩
          simp only [InsTable.step, hidle] at ht
          cases hid : s.store path with
          | none =>
              simp only [hid] at ht
              cases ht
              exact .inl hidle
          | some id =>
              simp only [hid] at ht
              split at ht
              · cases ht
                exact .inl hidle
              · cases ht
                exact .inr ⟨id, by simp only [InsTable.goto, Function.update_self]⟩
      · obtain ⟨t, irq', rfl, hsame | ⟨d, hd⟩⟩ := eq_of_bindEvtChn hs
        · rw [hsame]
          exact ignores hidle hevents
        · exact passes (e := .bound d) hidle hevents rfl trivial hd
      · split at hs
        · obtain rfl := Option.some.inj hs
          exact ignores hidle hevents
        · next d _ =>
            obtain ⟨t, ht, rfl⟩ := Option.map_eq_some_iff.mp hs
            exact passes (e := .heartbeat d) hidle hevents rfl trivial ht
      · obtain rfl := Option.some.inj hs
        exact ignores hidle hevents
  · cases hs

/-- A step that has nothing to do with the calls of the driver. -/
structure Apart (s s' : Handshake) : Prop where
  table : s'.table = s.table
  publishing : s'.publishing = s.publishing
  refused : s'.refused = s.refused

theorem apart_of_init {ok : Bool} (hs : s.mwXenInit me ok = some s') : Apart s s' := by
  unfold Handshake.mwXenInit at hs
  split at hs
  all_goals cases hs
  all_goals cases ok <;> exact ⟨rfl, rfl, rfl⟩

theorem apart_of_register {ok : Bool} (hs : s.xeCommsRegister count d ok = some s') :
    Apart s s' := by
  unfold Handshake.xeCommsRegister at hs
  split at hs
  all_goals try simp only [] at hs
  all_goals repeat' split at hs
  all_goals cases hs
  all_goals exact ⟨rfl, rfl, rfl⟩

theorem apart_of_heartbeat {value : List Char}
    (hs : Handshake.step me count chunkSize hz s (.heartbeat d value) = some s') : Apart s s' := by
  simp only [Handshake.step] at hs
  split at hs
  · obtain rfl := Option.some.inj hs
    exact ⟨rfl, rfl, rfl⟩
  · cases hs

/-- The table does nothing or takes a step that it may take. -/
theorem Sound.table_step (h : s.Sound me count) (hcount : 2 ≤ count) (hfit : count ≤ 2 ^ 30)
    {e : HandshakeEvent} (hG : s.orderly count hz e)
    (hs : Handshake.step me count chunkSize hz s e = some s') :
    s'.table = s.table ∨
      ∃ e, SingleCall e ∧ s.table.orderly hz e ∧ s.table.step hz e = some s'.table := by
  have passes {e : InsEvent} (hpassive : Handshake.passive e = true)
      (horderly : s.table.orderly hz e)
      (hs : (s.table.step hz e).map (fun t => { s with table := t }) = some s') :
      s'.table = s.table ∨
        ∃ e, SingleCall e ∧ s.table.orderly hz e ∧ s.table.step hz e = some s'.table := by
    obtain ⟨t, ht, rfl⟩ := Option.map_eq_some_iff.mp hs
    exact .inr ⟨e, .inl hpassive, horderly, ht⟩
  cases e with
  | init ok => exact .inl (apart_of_init hs).table
  | xenwatch irq => exact (watchStep hs).table
  | found ok err port refs =>
      obtain ⟨rfl, rfl, -⟩ := hG
      cases h.callStep hcount hfit hs with
      | moves hmove => exact .inr ⟨.move 0 true, .inr (.inl rfl), h.orderly_move, hmove⟩
      | writes _ htable => exact .inl htable
  | register d ok => exact .inl (apart_of_register hs).table
  | heartbeat d value => exact .inl (apart_of_heartbeat hs).table
  | tick n => exact passes (e := .tick n) rfl trivial hs
  | reap => exact passes (e := .reap) rfl trivial hs
  | visit => exact passes (e := .visit) rfl hG hs

end Handshake

/-- In every run in which nothing that the environment does fails, an INS that is registered
has exactly one entry, and maps the pages and has bound the port of that entry. No INS reads
what it cannot use, and the driver has bound its end only for an INS that is registered. -/
theorem handshake_agrees (me : BitVec 16) {count chunkSize hz : Nat} (hcount : 2 ≤ count)
    (hfit : count ≤ 2 ^ 30) (jiffies : BitVec 64) (es : List HandshakeEvent)
    (hG : (handshake me count chunkSize hz jiffies).Guarded (Handshake.orderly count hz) es)
    (s : Handshake) (hrun : (handshake me count chunkSize hz jiffies).run es = some s) :
    (∀ d r refs port, s.ins d = .registered r refs port →
      ∃! i, s.Agreed me count i d r refs port) ∧
    (∀ d, s.ins d ≠ .failed) ∧
    ∀ i, s.irq i ≠ 0 → (s.table.ins i).inUse = true ∧
      Handshake.isRegistered (s.ins (s.table.ins i).domid) = true := by
  have h : s.Sound me count := .of_run hcount hfit hG hrun
  refine ⟨fun d r refs port hpc => ?_, fun d hpc => ?_, fun i hi => ?_⟩
  · obtain ⟨i, hi⟩ := h.agreed hpc
    refine ⟨i, hi, fun j hj => ?_⟩
    exact h.calls.sound.distinct j i hj.inUse hi.inUse (hj.domid.trans hi.domid.symm)
  · have htold := (h.each d).told
    rw [hpc] at htold
    exact htold
  · obtain ⟨d, todo, hserves, hreg⟩ := h.irq i hi
    obtain ⟨huse, -, heq⟩ := Handshake.serving_eq_some.mp hserves
    have hd : d = (s.table.ins i).domid := congrArg Prod.fst heq
    exact ⟨huse, hd ▸ hreg⟩

/-- The driver is loaded in domain 2, and domain 5 registers. -/
def meetFive : List HandshakeEvent :=
  List.replicate 4 (.init true) ++ [.register 5 true, .xenwatch 33, .xenwatch 33] ++
    List.replicate 14 (.found true 0 14 threeRefs) ++ List.replicate 10 (.register 5 true) ++
    List.replicate 5 (.xenwatch 33)

theorem meetFive_orderly : (handshake 2 3 2 250 0).Guarded (Handshake.orderly 3 250) meetFive := by
  have hwatch (s : Handshake) : s.orderly 3 250 (.xenwatch 33) :=
    show (0 : Int) < 33 by omega
  have hrefs : ∀ ref ∈ threeRefs.refs, ref.toNat < 2 ^ 28 := by
    intro ref hmem
    simp only [threeRefs, List.mem_cons, List.not_mem_nil, or_false] at hmem
    rcases hmem with rfl | rfl | rfl <;> simp
  have hmem : ∀ e ∈ meetFive, ∀ s : Handshake, s.orderly 3 250 e := by
    intro e he s
    simp only [meetFive, List.mem_append, List.mem_replicate, List.mem_cons, List.not_mem_nil,
      or_false] at he
    rcases he with (((⟨-, rfl⟩ | rfl | rfl | rfl) | ⟨-, rfl⟩) | ⟨-, rfl⟩) | ⟨-, rfl⟩
    · exact rfl
    · exact ⟨rfl, rfl⟩
    · exact hwatch s
    · exact hwatch s
    · exact ⟨rfl, rfl, by omega, by omega, rfl, hrefs⟩
    · exact ⟨rfl, rfl⟩
    · exact hwatch s
  exact System.GuardedFrom.mono _ (G := fun _ e => ∀ s : Handshake, s.orderly 3 250 e)
    (fun s _ h => h s) (System.guardedFrom_of_mem _ _ hmem)

theorem meetFive_run :
    ∃ s, (handshake 2 3 2 250 0).run meetFive = some s ∧
      s.ins 5 = .registered 2 threeRefs.refs 14 ∧ s.init = .done ∧ s.watchEvents = [] ∧
      s.table.found 0 = .idle := by
  have hview : ((handshake 2 3 2 250 0).run meetFive).map (fun s =>
      (s.ins 5, s.init, s.watchEvents, s.table.found 0)) =
        some (.registered 2 threeRefs.refs 14, .done, [], .idle) := by decide +kernel
  obtain ⟨s, hs, hleft⟩ := Option.map_eq_some_iff.mp hview
  simp only [Prod.mk.injEq] at hleft
  exact ⟨s, hs, hleft⟩

theorem handshake_agrees_meetFive :
    ∃ s, (handshake 2 3 2 250 0).run meetFive = some s ∧
      ∃! i, s.Agreed 2 3 i 5 2 threeRefs.refs 14 := by
  obtain ⟨s, hs, hpc, -⟩ := meetFive_run
  exact ⟨s, hs, (handshake_agrees 2 (by decide) (by decide) 0 meetFive meetFive_orderly s hs).1 5 2
    threeRefs.refs 14 hpc⟩

/-- In such a run the steps that the table takes are a run of the table alone, in which ids are
those of domains and in no other use, every discovery that claims an entry succeeds and no
INS dies: so the table is consistent. -/
theorem handshake_keeps_table (me : BitVec 16) {count chunkSize hz : Nat} (hcount : 2 ≤ count)
    (hfit : count ≤ 2 ^ 30) (jiffies : BitVec 64) (es : List HandshakeEvent)
    (hG : (handshake me count chunkSize hz jiffies).Guarded (Handshake.orderly count hz) es)
    (s : Handshake) (hrun : (handshake me count chunkSize hz jiffies).run es = some s) :
    (∃ fs, (insTable hz jiffies).run fs = some s.table ∧
      (insTable hz jiffies).Guarded (InsTable.orderly hz) fs) ∧ s.table.Consistent := by
  have h : s.Sound me count := .of_run hcount hfit hG hrun
  refine ⟨?_, h.calls.sound.consistent⟩
  refine (handshake me count chunkSize hz jiffies).guarded_simulation (insTable hz jiffies)
    (Handshake.Sound.init hz jiffies) rfl ?_ hG hrun
  intro s e s' hguard hs hsound
  refine ⟨hsound.step hcount hfit hguard hs, ?_⟩
  rcases hsound.table_step hcount hfit hguard hs with htable | ⟨e, -, horderly, hstep⟩
  · exact ⟨[], congrArg some htable.symm, trivial⟩
  · exact ⟨[e], System.runFrom_singleton _ hstep, System.guardedFrom_singleton _ horderly⟩

theorem handshake_keeps_table_meetFive :
    ∃ s, (handshake 2 3 2 250 0).run meetFive = some s ∧
      Handshake.isRegistered (s.ins 5) = true ∧ s.table.Consistent := by
  obtain ⟨s, hs, hpc, -⟩ := meetFive_run
  refine ⟨s, hs, by rw [hpc]; rfl, ?_⟩
  exact (handshake_keeps_table 2 (by decide) (by decide) 0 meetFive meetFive_orderly s hs).2

end MagicWand
