import MagicWand.Handshake.Steady

/-!
# The driver sets up an entry

The call of `mw_xen_ins_found` stores the id of an INS in the entry that it has claimed and
then works for this INS alone: it writes keys of this INS that no one else writes, and the
number of the chunks last.
-/

namespace MagicWand

open Foundation Kernel

/-! ## The writer of the references -/

theorem length_oneRef {ref : BitVec 32} (h : ref.toNat < 2 ^ 28) : (oneRef ref).length ≤ 8 := by
  have hdig : (Nat.toDigits 16 ref.toNat).length ≤ 7 :=
    (Nat.length_toDigits_le_iff (by decide) (by decide)).mpr h
  rw [oneRef, List.length_append, List.length_singleton]
  omega

theorem length_oneRefs {refs : List (BitVec 32)} (h : ∀ ref ∈ refs, ref.toNat < 2 ^ 28) :
    (refs.flatMap oneRef).length ≤ 8 * refs.length := by
  induction refs with
  | nil => simp
  | cons ref refs ih =>
      have hone := length_oneRef (h ref List.mem_cons_self)
      have hrest := ih fun ref' hmem => h ref' (List.mem_cons_of_mem _ hmem)
      rw [List.flatMap_cons, List.length_append, List.length_cons]
      omega

theorem storeChunk_writes (path : List Char) (w : Writing) :
    (storeChunk (fun _ => 0) path w).1 = 0 := by
  simp [storeChunk, mwXenWriteToKey]

/-- A chunk has been stored, or XenStore is as it was. -/
def Stored (path : List Char) (w w' : Writing) : Prop :=
  (w'.store = w.store ∧ w'.gntChunk = w.gntChunk) ∨
    ∃ value, w'.store = Function.update w.store
        (join path (snprintf xeneventPathStrLen (gntKey w.gntChunk))) (some value) ∧
      w'.gntChunk = w.gntChunk + 1

namespace Packed

variable {path : List Char} {chunkSize count : Nat} {chunks : List (List (BitVec 32))}
  {rest : List (BitVec 32)} {w : Writing}

/-- There is room for every reference. -/
theorem writes (h : Packed path chunks rest w) {ref : BitVec 32} (hcount : 2 ≤ count)
    (hrefs : ∀ ref' ∈ rest ++ [ref], ref'.toNat < 2 ^ 28) (hlen : rest.length < count) :
    (MagicWand.writeRef (fun _ => 0) path chunkSize (count * oneRefSize) w ref).1 = 0 := by
  have hone := length_oneRef (hrefs ref (by simp))
  have hroom : w.gntRefs.length ≤ 8 * rest.length := by
    rw [h.gntRefs]
    exact length_oneRefs fun ref' hmem => hrefs ref' (List.mem_append_left _ hmem)
  have hsize : oneRefSize = 9 := rfl
  unfold MagicWand.writeRef
  rw [hsize, if_neg (by omega), if_neg (by omega)]
  simp only [storeChunk_writes, ne_eq, not_true_eq_false, if_false]
  split <;> rfl

theorem writeRef_stored {xenbus : List Char → Int} {size : Nat} {ref : BitVec 32}
    (hok : (MagicWand.writeRef xenbus path chunkSize size w ref).1 = 0) :
    Stored path w (MagicWand.writeRef xenbus path chunkSize size w ref).2 := by
  rcases writeRef_ok hok with ⟨hchunk, heq⟩ | heq
  · rw [heq, storeChunk_ok hchunk]
    exact .inr ⟨_, rfl, rfl⟩
  · rw [heq]
    exact .inl ⟨rfl, rfl⟩

end Packed

namespace Handshake

variable {me : BitVec 16} {count chunkSize hz : Nat} {s s' : Handshake} {d : BitVec 16}
  {i : Fin maxInsCount} {stage : Setup} {todo todo' : List Setup}

/-! ## A step of the set-up -/

/-- Each INS has one entry. -/
theorem Calls.serving_inj {t : InsTable} (h : Calls t) {j : Fin maxInsCount}
    (hi : serving t i = some (d, todo)) (hj : serving t j = some (d, todo')) : i = j := by
  obtain ⟨huse, -, heq⟩ := serving_eq_some.mp hi
  obtain ⟨huse', -, heq'⟩ := serving_eq_some.mp hj
  exact h.sound.distinct i j huse huse'
    ((congrArg Prod.fst heq).symm.trans (congrArg Prod.fst heq'))

/-- The call at entry `i`, which serves INS `d`, has set something up. -/
structure Works (s s' : Handshake) (i : Fin maxInsCount) (d : BitVec 16) : Prop where
  ins : s'.ins = s.ins
  irq : s'.irq = s.irq
  init : s'.init = s.init
  early : s'.early = s.early
  refused : s'.refused = s.refused
  carried : carried (s'.table.found 0) = carried (s.table.found 0)
  serves : ∀ j, j ≠ i → serving s'.table j = serving s.table j
  grantRefs : ∀ j, j ≠ i → s'.grantRefs j = s.grantRefs j
  commonEvtchn : ∀ j, j ≠ i → s'.commonEvtchn j = s.commonEvtchn j
  sringInit : ∀ j, j ≠ i → s'.sringInit j = s.sringInit j
  events : s'.watchEvents = s.watchEvents ∨ ∃ path, mwXenXenstoreStateChanged path = .nothing ∧
    s'.watchEvents = s.watchEvents ++ [path]
  store : ∀ path, (∀ key, path = insPath d key → key = insIdKey ∨ key = vmEvtChnBoundKey) →
    s'.store path = s.store path

namespace Works

variable (hw : Works s s' i d)

include hw

theorem mem_events {path : List Char} (hmem : path ∈ s.watchEvents) : path ∈ s'.watchEvents := by
  rcases hw.events with hsame | ⟨new, -, happ⟩
  · exact hsame.symm ▸ hmem
  · exact happ.symm ▸ List.mem_append_left _ hmem

theorem tokens (d' : BitVec 16) : s'.tokens d' = s.tokens d' := by
  rw [Handshake.tokens, Handshake.tokens, hw.carried, hw.early, hw.refused]
  rcases hw.events with hsame | ⟨new, hnew, happ⟩
  · rw [hsame]
  · rw [happ, count_append_of_ne (not_mem_of_nothing (by rw [hnew]; decide))]

theorem serves_fst (hi : serving s.table i = some (d, todo))
    (hi' : serving s'.table i = some (d, todo')) (j : Fin maxInsCount) :
    (serving s'.table j).map Prod.fst = (serving s.table j).map Prod.fst := by
  by_cases hj : j = i
  · rw [hj, hi, hi']
    rfl
  · rw [hw.serves j hj]

theorem same (hi : serving s.table i = some (d, todo))
    (hi' : serving s'.table i = some (d, todo')) {d' : BitVec 16} (hd : d' ≠ d) :
    SameFor s s' d' := by
  have hne {j : Fin maxInsCount} {todo'' : List Setup}
      (hj : serving s.table j = some (d', todo'')) : j ≠ i := by
    rintro rfl
    rw [hi] at hj
    cases hj
    exact hd rfl
  refine
    { keys := fun key _ => hw.store _ fun key' heq => absurd (insPath_inj.mp heq).1 hd
      ins := congrFun hw.ins d'
      tokens := hw.tokens d'
      serves := fun j todo'' => ?_
      grantRefs := fun j _ hj => hw.grantRefs j (hne hj)
      commonEvtchn := fun j _ hj => hw.commonEvtchn j (hne hj)
      sringInit := fun j _ hj => hw.sringInit j (hne hj) }
  by_cases hj : j = i
  · rw [hj, hi, hi']
    simp only [Option.some.injEq, Prod.mk.injEq, Ne.symm hd, false_and]
  · rw [hw.serves j hj]

theorem ends (hi : serving s.table i = some (d, todo))
    (hi' : serving s'.table i = some (d, todo')) {d' : BitVec 16} (h : s.Ends d') : s'.Ends d' := by
  rcases h with hmem | ⟨j, todo'', hj, hirq⟩
  · exact .inl (hw.mem_events hmem)
  · refine .inr ⟨j, if j = i then todo' else todo'', ?_, by rwa [hw.irq]⟩
    by_cases hji : j = i
    · rw [hji, hi] at hj
      cases hj
      rw [hji, if_pos rfl, hi']
    · rw [if_neg hji, hw.serves j hji, hj]

/-- The INS that is served cannot have read the references, so that its keys may change. -/
theorem sound (h : s.Sound me count) (hi : serving s.table i = some (d, todo))
    (hi' : serving s'.table i = some (d, todo')) (hmem : .grantRefs ∈ todo)
    (hcalls : Calls s'.table)
    (hpublishing : ∀ p, s'.publishing = some p → ∃ j, s'.table.found 0 = .setup j [.grantRefs] ∧
      s'.Publishes j (s'.table.ins j).domid p)
    (hoffers : s'.Offers count i d todo') : s'.Sound me count where
  calls := hcalls
  events path hpath := by
    have hold (hold : path ∈ s.watchEvents) : s'.Known path := by
      have hknown := h.events path hold
      refine ⟨hknown.found, fun hbind => ?_⟩
      rw [hw.ins]
      exact hknown.bound hbind
    rcases hw.events with hsame | ⟨new, hnew, happ⟩
    · exact hold (hsame ▸ hpath)
    · rw [happ, List.mem_append, List.mem_singleton] at hpath
      rcases hpath with hmem | rfl
      · exact hold hmem
      · exact ⟨fun hc => absurd (hnew.symm.trans hc) (by decide),
          fun hc => absurd (hnew.symm.trans hc) (by decide)⟩
  server := by
    have hkey : s'.store serverIdPath = s.store serverIdPath :=
      hw.store _ fun key heq => absurd heq (serverIdPath_ne d key)
    refine ⟨?_, ?_⟩
    · rw [hkey]
      exact h.server.read
    · rw [hkey, hw.init]
      exact h.server.published
  loaded := hw.init ▸ h.loaded
  before hinit := absurd (h.done_of_serving hi) (hw.init ▸ hinit)
  publishing := hpublishing
  irq j hj := by
    rw [hw.irq] at hj
    obtain ⟨d', todo'', hserves, hreg⟩ := h.irq j hj
    rw [← hw.ins] at hreg
    by_cases hji : j = i
    · rw [hji, hi] at hserves
      cases hserves
      exact ⟨d, todo', hji ▸ hi', hreg⟩
    · exact ⟨d', todo'', (hw.serves j hji).trans hserves, hreg⟩
  each d' := by
    have hd := h.each d'
    by_cases hdd : d' = d
    · subst hdd
      have hid : s'.store (insPath d' insIdKey) = s.store (insPath d' insIdKey) :=
        hw.store _ fun key heq => .inl (insPath_inj.mp heq).2.symm
      have hbound : s'.store (insPath d' vmEvtChnBoundKey) =
          s.store (insPath d' vmEvtChnBoundKey) :=
        hw.store _ fun key heq => .inr (insPath_inj.mp heq).2.symm
      refine
        { valid := hw.ins ▸ hd.valid
          id := ?_
          bound := ?_
          once := ?_
          offers := fun j todo'' hj => ?_
          unserved := fun hno => absurd hi' (hno i todo')
          told := ?_
          ends := fun hreg => hw.ends hi hi' (hd.ends (hw.ins ▸ hreg)) }
      · rw [hid, hw.ins]
        exact hd.id
      · rw [hbound, hw.ins]
        exact hd.bound
      · rw [hw.tokens, hw.ins, entries, Finset.sum_congr rfl fun j _ => by
          rw [hw.serves_fst hi hi' j]]
        exact hd.once
      · obtain rfl := hcalls.serving_inj hi' hj
        rw [hi'] at hj
        cases hj
        exact hoffers
      · rw [hw.ins]
        exact hd.told.of_noTotal ((hd.offers i todo hi).noTotal hmem)
    · exact (hw.same hi hi' hdd).meeting hd fun hreg => hw.ends hi hi' (hd.ends hreg)

end Works

/-! ## The stages -/

/-- What is left after a stage. -/
def afterSetup : Setup → List Setup
  | .ringBlock => [.evtChn, .grant, .ring, .grantRefs]
  | .evtChn => [.grant, .ring, .grantRefs]
  | .grant => [.ring, .grantRefs]
  | .ring => [.grantRefs]
  | .grantRefs => []

theorem eq_afterSetup (h : stage :: todo <:+ allSetups) : todo = afterSetup stage := by
  have htails : stage :: todo ∈ [allSetups, afterSetup .ringBlock, afterSetup .evtChn,
      afterSetup .grant, afterSetup .ring, []] := (List.mem_tails _ _).mpr h
  simp only [allSetups, afterSetup, List.mem_cons, List.cons.injEq, reduceCtorEq,
    List.not_mem_nil, or_false] at htails
  rcases htails with ⟨rfl, rfl⟩ | ⟨rfl, rfl⟩ | ⟨rfl, rfl⟩ | ⟨rfl, rfl⟩ | ⟨rfl, rfl⟩ <;> rfl

theorem eq_of_moveFound (hs : s.moveFound true = some s')
    (hpc : s.table.found 0 = .setup i (stage :: todo)) :
    { s with table := s.table.goto 0 (.setup i todo) } = s' := by
  have hfails : InsTable.setupFails (s.table.ins i) stage true = false := by
    cases stage <;> rfl
  simp only [moveFound, hpc, InsTable.insFound, hfails, Bool.false_eq_true, if_false,
    Option.map_some] at hs
  exact Option.some.inj hs

theorem carried_goto {t : InsTable} (hpc : t.found 0 = .setup i (stage :: todo)) :
    carried ((t.goto 0 (.setup i todo)).found 0) = carried (t.found 0) := by
  simp only [InsTable.goto, Function.update_self, carried, hpc]

theorem serving_goto {t : InsTable} (hpc : t.found 0 = .setup i (stage :: todo))
    {j : Fin maxInsCount} (hj : j ≠ i) :
    serving (t.goto 0 (.setup i todo)) j = serving t j := by
  refine serving_congr rfl rfl ?_ ?_
  · simp [InsTable.goto, Found.hold, hpc]
  · simp [leftFor, InsTable.goto, hpc, Ne.symm hj]

theorem Calls.goto {t : InsTable} (h : Calls t) (hpc : t.found 0 = .setup i (stage :: todo)) :
    Calls (t.goto 0 (.setup i todo)) where
  sound := h.sound.goto (by rw [hpc]; rfl)
  single n hn := by
    simp only [InsTable.goto, Function.update_of_ne hn]
    exact h.single n hn
  carries id hid := by
    rw [carried_goto hpc, hpc] at hid
    cases hid
  suffix j todo' hj := by
    simp only [InsTable.goto, Function.update_self, Found.setup.injEq] at hj
    obtain ⟨rfl, rfl⟩ := hj
    exact (List.suffix_cons stage todo).trans (h.suffix i _ hpc)

/-- The call has done a stage. -/
theorem Sound.afterStage (h : s.Sound me count)
    (hpc : s.table.found 0 = .setup i (stage :: todo))
    (hw : Works s s' i (s.table.ins i).domid)
    (htable : s'.table = s.table.goto 0 (.setup i todo)) (hnone : s'.publishing = none)
    (hoffers : s'.Offers count i (s.table.ins i).domid todo) : s'.Sound me count := by
  have hcalls : Calls s'.table := htable ▸ h.calls.goto hpc
  have hat : s'.table.found 0 = .setup i todo := by
    simp only [htable, InsTable.goto, Function.update_self]
  have hserving := hcalls.serving_setup hat
  have hdomid : (s'.table.ins i).domid = (s.table.ins i).domid := by rw [htable]; rfl
  rw [hdomid] at hserving
  refine hw.sound h (h.calls.serving_setup hpc) hserving ?_ hcalls (fun p hp => ?_) hoffers
  · have htodo := eq_afterSetup (h.calls.suffix i _ hpc)
    subst htodo
    cases stage <;> decide
  · rw [hnone] at hp
    cases hp

theorem Sound.stageRingBlock (h : s.Sound me count)
    (hpc : s.table.found 0 = .setup i (.ringBlock :: todo)) (hs : s.moveFound true = some s') :
    s'.Sound me count := by
  obtain rfl := eq_afterSetup (h.calls.suffix i _ hpc)
  have hold := (h.each _).offers i _ (h.calls.serving_setup hpc)
  obtain rfl := eq_of_moveFound hs hpc
  refine h.afterStage hpc ⟨rfl, rfl, rfl, rfl, rfl, carried_goto hpc,
    fun j hj => serving_goto hpc hj, fun _ _ => rfl, fun _ _ => rfl, fun _ _ => rfl, .inl rfl,
    fun _ _ => rfl⟩ rfl (h.no_publishing (by simp [hpc, afterSetup])) ?_
  exact
    { noPort := fun _ => hold.noPort (by decide)
      port := fun hno => absurd (by decide) hno
      refs := fun hno => absurd (by decide) hno
      ring := fun hno => absurd (by decide) hno
      noTotal := fun _ => hold.noTotal (by decide)
      total := fun hno => absurd (by decide) hno }

/-- A key of the INS that the driver writes, other than those that it waits for. -/
theorem store_write_own {key value path : List Char} (hid : key ≠ insIdKey)
    (hbound : key ≠ vmEvtChnBoundKey)
    (hpath : ∀ key, path = insPath d key → key = insIdKey ∨ key = vmEvtChnBoundKey) :
    (s.write (insPath d key) value).store path = s.store path := by
  refine s.store_write_ne value fun heq => ?_
  rcases hpath key heq with hkey | hkey
  · exact hid hkey
  · exact hbound hkey

theorem events_write_own {key : List Char} (value : List Char)
    (hkey : mwXenXenstoreStateChanged (insPath d key) = .nothing) :
    (s.write (insPath d key) value).watchEvents = s.watchEvents ∨
      ∃ path, mwXenXenstoreStateChanged path = .nothing ∧
        (s.write (insPath d key) value).watchEvents = s.watchEvents ++ [path] :=
  (s.watchEvents_write (insPath d key) value).imp_right fun happ => ⟨_, hkey, happ⟩

theorem Sound.stageEvtChn (h : s.Sound me count) {port : Nat}
    (hpc : s.table.found 0 = .setup i (.evtChn :: todo)) (hpos : 0 < port) (hlt : port < 2 ^ 31)
    (hs : s.createUnboundEvtChn i true 0 port = some s') : s'.Sound me count := by
  obtain rfl := eq_afterSetup (h.calls.suffix i _ hpc)
  have hold := (h.each _).offers i _ (h.calls.serving_setup hpc)
  have hdomid : (s.table.ins i).domid ≠ 0 := by
    intro hzero
    have hvalid := h.calls.valid (h.calls.serving_setup hpc)
    rw [hzero] at hvalid
    exact absurd hvalid (by decide)
  have hport : snprintf maxGntRefWidth (Nat.toDigits 10 port) = Nat.toDigits 10 port := by
    have hlen : (Nat.toDigits 10 port).length ≤ 10 :=
      length_decimal (by decide) (lt_trans hlt (by decide))
    exact snprintf_eq (hlen.trans (by decide))
  have hdir : join (s.dirOf i) vmEvtChnPortKey = insPath (s.table.ins i).domid vmEvtChnPortKey := by
    rw [dirOf, snprintf_insDir]
    rfl
  have hnothing : mwXenXenstoreStateChanged (insPath (s.table.ins i).domid vmEvtChnPortKey) =
      .nothing := by
    rw [stateChanged_insPath]
    decide
  rw [createUnboundEvtChn, if_neg hdomid, if_pos rfl] at hs
  simp only [ne_eq, not_true_eq_false, if_false, hport] at hs
  change (Handshake.write _ (join (s.dirOf i) vmEvtChnPortKey) _).moveFound true = _ at hs
  rw [hdir] at hs
  obtain rfl := eq_of_moveFound hs hpc
  have hstore (path : List Char) (hpath : ∀ key, path = insPath (s.table.ins i).domid key →
      key = insIdKey ∨ key = vmEvtChnBoundKey) : (s.write (insPath (s.table.ins i).domid
        vmEvtChnPortKey) (Nat.toDigits 10 port)).store path = s.store path :=
    store_write_own (by decide) (by decide) hpath
  have hself : Function.update s.commonEvtchn i port i = port := Function.update_self ..
  refine h.afterStage hpc ⟨rfl, rfl, rfl, rfl, rfl, carried_goto hpc,
    fun j hj => serving_goto hpc hj, fun _ _ => rfl, fun j hj => Function.update_of_ne hj _ _,
    fun _ _ => rfl, events_write_own (s := s) (Nat.toDigits 10 port) hnothing, hstore⟩ rfl
    (h.no_publishing (by simp [hpc, afterSetup])) ?_
  exact
    { noPort := fun hmem => absurd hmem (by decide)
      port := fun _ => ⟨(s.store_write_self _ _).trans
          (congrArg (fun n => some (Nat.toDigits 10 n)) hself.symm),
        lt_of_lt_of_eq hpos hself.symm, lt_of_eq_of_lt hself hlt⟩
      refs := fun hno => absurd (by decide) hno
      ring := fun hno => absurd (by decide) hno
      noTotal := fun _ => (s.store_write_ne _ (by simp [insPath_inj]; decide)).trans
        (hold.noTotal (by decide))
      total := fun hno => absurd (by decide) hno }

theorem Sound.stageGrant (h : s.Sound me count) {refs : List (BitVec 32)}
    (hpc : s.table.found 0 = .setup i (.grant :: todo)) (hlen : refs.length = count)
    (hrefs : ∀ ref ∈ refs, ref.toNat < 2 ^ 28)
    (hs : moveFound { s with grantRefs := Function.update s.grantRefs i refs } true = some s') :
    s'.Sound me count := by
  obtain rfl := eq_afterSetup (h.calls.suffix i _ hpc)
  have hold := (h.each _).offers i _ (h.calls.serving_setup hpc)
  obtain rfl := eq_of_moveFound hs hpc
  refine h.afterStage hpc ⟨rfl, rfl, rfl, rfl, rfl, carried_goto hpc,
    fun j hj => serving_goto hpc hj, fun j hj => Function.update_of_ne hj _ _, fun _ _ => rfl,
    fun _ _ => rfl, .inl rfl, fun _ _ => rfl⟩ rfl (h.no_publishing (by simp [hpc, afterSetup])) ?_
  exact
    { noPort := fun hmem => absurd hmem (by decide)
      port := fun _ => hold.port (by decide)
      refs := fun _ => by
        simp only [Function.update_self]
        exact ⟨hlen, hrefs⟩
      ring := fun hno => absurd (by decide) hno
      noTotal := fun _ => hold.noTotal (by decide)
      total := fun hno => absurd (by decide) hno }

theorem Sound.stageRing (h : s.Sound me count)
    (hpc : s.table.found 0 = .setup i (.ring :: todo))
    (hs : moveFound { s with sringInit := Function.update s.sringInit i true } true = some s') :
    s'.Sound me count := by
  obtain rfl := eq_afterSetup (h.calls.suffix i _ hpc)
  have hold := (h.each _).offers i _ (h.calls.serving_setup hpc)
  obtain rfl := eq_of_moveFound hs hpc
  have hnone : s.publishing = none := by
    refine h.no_publishing ?_
    rw [hpc]
    intro j hj
    cases hj
  refine h.afterStage hpc ⟨rfl, rfl, rfl, rfl, rfl, carried_goto hpc,
    fun j hj => serving_goto hpc hj, fun _ _ => rfl, fun _ _ => rfl,
    fun j hj => Function.update_of_ne hj _ _, .inl rfl, fun _ _ => rfl⟩ rfl hnone ?_
  exact
    { noPort := fun hmem => absurd hmem (by decide)
      port := fun _ => hold.port (by decide)
      refs := fun _ => hold.refs (by decide)
      ring := fun _ => Function.update_self ..
      noTotal := fun _ => hold.noTotal (by decide)
      total := fun hno => absurd (by decide) hno }

/-! ## The references are published -/

/-- The driver ignores the keys of the chunks. -/
theorem events_synced {w : Writing} (w' : Writing) (hfit : w.gntChunk < 2 ^ 31) :
    (s.synced i w w').watchEvents = s.watchEvents ∨
      ∃ path, mwXenXenstoreStateChanged path = .nothing ∧
        (s.synced i w w').watchEvents = s.watchEvents ++ [path] := by
  have hpath : join (s.dirOf i) (snprintf xeneventPathStrLen (gntKey w.gntChunk)) =
      insPath (s.table.ins i).domid (gntKey w.gntChunk) := by
    rw [dirOf, snprintf_insDir, snprintf_eq ((length_gntKey hfit).trans (by decide))]
    rfl
  simp only [synced, hpath]
  split
  · exact .inr ⟨_, stateChanged_gntKey _ w.gntChunk, rfl⟩
  · exact .inl rfl

theorem works_synced {w w' : Writing} {p : Option Publishing} (hw : w.store = s.store)
    (hstored : Stored (insDir (s.table.ins i).domid) w w') (hfit : w.gntChunk < 2 ^ 31) :
    Works s { s.synced i w w' with publishing := p } i (s.table.ins i).domid := by
  have hkey : snprintf xeneventPathStrLen (gntKey w.gntChunk) = gntKey w.gntChunk :=
    snprintf_eq ((length_gntKey hfit).trans (by decide))
  refine ⟨rfl, rfl, rfl, rfl, rfl, rfl, fun _ _ => rfl, fun _ _ => rfl, fun _ _ => rfl,
    fun _ _ => rfl, events_synced w' hfit, fun path hother => ?_⟩
  show w'.store path = s.store path
  rcases hstored with ⟨hsame, -⟩ | ⟨value, hnew, -⟩
  · rw [hsame, hw]
  · rw [hnew, hkey, ← hw]
    refine Function.update_of_ne ?_ _ _
    rintro rfl
    rcases hother _ rfl with hid | hbound
    · exact absurd (congrArg List.head? hid) (by simp [gntKey, gntRefKey, insIdKey])
    · exact absurd (congrArg List.head? hbound) (by simp [gntKey, gntRefKey, vmEvtChnBoundKey])

/-- A step of the writer that does not yet write the number of the chunks. -/
theorem Sound.publish (h : s.Sound me count) (hpc : s.table.found 0 = .setup i [.grantRefs])
    {p : Publishing} (hw : Works s s' i (s.table.ins i).domid) (htable : s'.table = s.table)
    (hgrant : s'.grantRefs = s.grantRefs) (hport : s'.commonEvtchn = s.commonEvtchn)
    (hring : s'.sringInit = s.sringInit) (hp : s'.publishing = some p)
    (hpub : s'.Publishes i (s.table.ins i).domid p)
    (hkeys : ∀ key, key = vmEvtChnPortKey ∨ key = gntRefChunks →
      s'.store (insPath (s.table.ins i).domid key) = s.store (insPath (s.table.ins i).domid key)) :
    s'.Sound me count := by
  have hi := h.calls.serving_setup hpc
  have hold := (h.each _).offers i _ hi
  have hi' : serving s'.table i = some ((s.table.ins i).domid, [.grantRefs]) := by
    rw [htable]
    exact hi
  refine hw.sound h hi hi' (by decide) (htable ▸ h.calls) (fun q hq => ?_) ?_
  · rw [hp] at hq
    cases hq
    rw [htable]
    exact ⟨i, hpc, hpub⟩
  · exact
      { noPort := fun hmem => absurd hmem (by decide)
        port := fun hno => by
          rw [hport, hkeys _ (.inl rfl)]
          exact hold.port hno
        refs := fun hno => by
          rw [hgrant]
          exact hold.refs hno
        ring := fun hno => by
          rw [hring]
          exact hold.ring hno
        noTotal := fun hmem => (hkeys _ (.inr rfl)).trans (hold.noTotal hmem)
        total := fun hno => absurd (by decide) hno }

theorem stored_keys {w w' : Writing} (hstored : Stored (insDir d) w w') (hfit : w.gntChunk < 2 ^ 31)
    {key : List Char} (hkey : key = vmEvtChnPortKey ∨ key = gntRefChunks) :
    w'.store (insPath d key) = w.store (insPath d key) := by
  rcases hstored with ⟨hsame, -⟩ | ⟨value, hnew, -⟩
  · rw [hsame]
  · rw [hnew]
    refine Function.update_of_ne ?_ _ _
    rw [insPath, Ne, join_inj]
    rcases hkey with rfl | rfl
    · rw [snprintf_eq ((length_gntKey hfit).trans (by decide))]
      exact fun heq => absurd (congrArg List.head? heq)
        (by simp [gntKey, gntRefKey, vmEvtChnPortKey])
    · exact (node_ne_total hfit).symm

/-- Where the writer stands, if it is at work. -/
theorem Sound.writer (h : s.Sound me count) (hpc : s.table.found 0 = .setup i [.grantRefs])
    {p : Publishing} (hp : s.publishing = some p) : s.Publishes i (s.table.ins i).domid p := by
  obtain ⟨j, hat, hpub⟩ := h.publishing p hp
  rw [hpc] at hat
  cases hat
  exact hpub

theorem Sound.publishStart (h : s.Sound me count)
    (hpc : s.table.found 0 = .setup i [.grantRefs]) :
    Handshake.Sound me count
      { s with publishing := some (.refs { store := s.store } (s.grantRefs i)) } :=
  h.publish hpc ⟨rfl, rfl, rfl, rfl, rfl, rfl, fun _ _ => rfl, fun _ _ => rfl, fun _ _ => rfl,
    fun _ _ => rfl, .inl rfl, fun _ _ => rfl⟩ rfl rfl rfl rfl rfl
    ⟨[], [], by simp, Packed.init s.store⟩ fun _ _ => rfl

/-- The writer goes on, and has stored a chunk or nothing. -/
theorem Sound.publishMore (h : s.Sound me count) (hpc : s.table.found 0 = .setup i [.grantRefs])
    {w w' : Writing} {p : Publishing} (hw : w.store = s.store)
    (hstored : Stored (insDir (s.table.ins i).domid) w w') (hfit : w.gntChunk < 2 ^ 31)
    (hpub : Handshake.Publishes { s.synced i w w' with publishing := some p } i
      (s.table.ins i).domid p) :
    Handshake.Sound me count { s.synced i w w' with publishing := some p } := by
  refine h.publish hpc (works_synced hw hstored hfit) rfl rfl rfl rfl rfl hpub fun key hkey => ?_
  show w'.store _ = s.store _
  rw [stored_keys hstored hfit hkey, hw]

/-- How far the writer has come. -/
theorem publishes_fit (h : s.Sound me count) (hcount : count ≤ 2 ^ 30)
    (hpc : s.table.found 0 = .setup i [.grantRefs]) {chunks : List (List (BitVec 32))}
    {rest todo : List (BitVec 32)} {w : Writing}
    (hall : chunks.flatten ++ rest ++ todo = s.grantRefs i)
    (hpacked : Packed (insDir d) chunks rest w) :
    chunks.flatten.length + rest.length + todo.length = count ∧ w.gntChunk < 2 ^ 31 ∧
      ∀ ref ∈ rest ++ todo, ref.toNat < 2 ^ 28 := by
  obtain ⟨hlen, hrefs⟩ := ((h.each _).offers i _ (h.calls.serving_setup hpc)).refs (by decide)
  rw [← hall, List.length_append, List.length_append] at hlen
  have hle := hpacked.length_le
  refine ⟨hlen, ?_, fun ref hmem => hrefs ref ?_⟩
  · rw [hpacked.gntChunk]
    omega
  · rw [← hall, List.append_assoc]
    exact List.mem_append_right _ hmem

/-- The writer has room for the next reference. -/
theorem Sound.writes (h : s.Sound me count) (hcount : 2 ≤ count) (hfit : count ≤ 2 ^ 30)
    (hpc : s.table.found 0 = .setup i [.grantRefs]) {w : Writing} {ref : BitVec 32}
    {refs : List (BitVec 32)} (hp : s.publishing = some (.refs w (ref :: refs))) :
    (writeRef (fun _ => 0) (insDir (s.table.ins i).domid) chunkSize (count * oneRefSize)
      { w with store := s.store } ref).1 = 0 := by
  obtain ⟨chunks, rest, hall, hpacked⟩ := h.writer hpc hp
  obtain ⟨hlen, -, hrefs⟩ := publishes_fit h hfit hpc hall hpacked
  rw [List.length_cons] at hlen
  refine hpacked.writes hcount (fun ref' hmem => hrefs ref' ?_) (by omega)
  simp only [List.mem_append, List.mem_cons, List.not_mem_nil, or_false] at hmem ⊢
  tauto

theorem Sound.publishRef (h : s.Sound me count) (hcount : 2 ≤ count) (hfit : count ≤ 2 ^ 30)
    (hpc : s.table.found 0 = .setup i [.grantRefs]) {w : Writing} {ref : BitVec 32}
    {refs : List (BitVec 32)} (hp : s.publishing = some (.refs w (ref :: refs)))
    (hs : s.writeGrantRefsToKey count chunkSize i true 0 = some s') : s'.Sound me count := by
  obtain ⟨chunks, rest, hall, hpacked⟩ := h.writer hpc hp
  obtain ⟨hlen, hchunk, -⟩ := publishes_fit h hfit hpc hall hpacked
  rw [List.length_cons] at hlen
  have hdir : s.dirOf i = insDir (s.table.ins i).domid := snprintf_insDir _
  have hok := @Sound.writes me count chunkSize s i h hcount hfit hpc w ref refs hp
  have hstored := Packed.writeRef_stored hok
  obtain ⟨chunks', rest', hall', hpacked'⟩ := hpacked.writeRef (by omega) hok
  simp only [writeGrantRefsToKey, hp, hdir, hok, ne_eq, not_true_eq_false, if_false] at hs
  obtain rfl := Option.some.inj hs
  refine h.publishMore hpc rfl hstored hchunk ⟨chunks', rest', ?_, hpacked'⟩
  rw [hall', List.append_assoc, List.singleton_append, hall]
  rfl

theorem Sound.publishLast (h : s.Sound me count) (hfit : count ≤ 2 ^ 30)
    (hpc : s.table.found 0 = .setup i [.grantRefs]) {w : Writing}
    (hp : s.publishing = some (.refs w []))
    (hs : s.writeGrantRefsToKey count chunkSize i true 0 = some s') : s'.Sound me count := by
  obtain ⟨chunks, rest, hall, hpacked⟩ := h.writer hpc hp
  obtain ⟨hlen, hchunk, -⟩ := publishes_fit h hfit hpc hall hpacked
  rw [List.append_nil] at hall
  have hdir : s.dirOf i = insDir (s.table.ins i).domid := snprintf_insDir _
  by_cases hcnt : 0 < w.gntCnt
  · have hrest : rest ≠ [] := by
      rintro rfl
      exact absurd (hpacked.gntCnt ▸ hcnt) (by simp)
    have hok := storeChunk_writes (insDir (s.table.ins i).domid) { w with store := s.store }
    have hstored : Stored (insDir (s.table.ins i).domid) { w with store := s.store }
        (storeChunk (fun _ => 0) (insDir (s.table.ins i).domid) { w with store := s.store }).2 := by
      rw [storeChunk_ok hok]
      exact .inr ⟨_, rfl, rfl⟩
    have hpacked' := hpacked.storeChunk hrest (by
      have := hpacked.gntChunk
      omega) hok
    simp only [writeGrantRefsToKey, hp, hdir, hcnt, if_true, hok, ne_eq, not_true_eq_false,
      if_false] at hs
    obtain rfl := Option.some.inj hs
    have hall' : (chunks ++ [rest]).flatten = s.grantRefs i := by simpa using hall
    exact h.publishMore hpc rfl hstored hchunk ⟨chunks ++ [rest], hall', hpacked'⟩
  · have hrest : rest = [] := by
      have hlen : w.gntCnt = rest.length := hpacked.gntCnt
      exact List.eq_nil_of_length_eq_zero (by omega)
    subst hrest
    simp only [writeGrantRefsToKey, hp, hcnt, if_false, ne_eq, not_true_eq_false] at hs
    obtain rfl := Option.some.inj hs
    have hall' : chunks.flatten = s.grantRefs i := by simpa using hall
    refine h.publishMore hpc rfl (.inl ⟨rfl, rfl⟩) hchunk ⟨chunks, hall', ?_⟩
    exact ⟨hpacked.full, rfl, rfl, hpacked.gntChunk, hpacked.stored⟩

/-- With the number of the chunks, the references are there to read. -/
theorem Sound.publishTotal (h : s.Sound me count) (hcount : 2 ≤ count) (hfit : count ≤ 2 ^ 30)
    (hpc : s.table.found 0 = .setup i [.grantRefs]) {w : Writing}
    (hp : s.publishing = some (.total w))
    (hs : s.writeGrantRefsToKey count chunkSize i true 0 = some s') : s'.Sound me count := by
  obtain ⟨chunks, hall, hpacked⟩ := h.writer hpc hp
  have hold := (h.each _).offers i _ (h.calls.serving_setup hpc)
  obtain ⟨hlen, hrefs⟩ := hold.refs (by decide)
  have hdir : join (s.dirOf i) gntRefChunks = insPath (s.table.ins i).domid gntRefChunks := by
    rw [dirOf, snprintf_insDir]
    rfl
  have hread := @received_of_packed (fun _ => 0) (s.table.ins i).domid
    ⟨s.grantRefs i, by omega, by omega⟩ chunks { w with store := s.store }
    ((snprintf_insDir _).symm ▸ hpacked) hall count hlen.le rfl
  rw [snprintf_insDir] at hread
  have hnothing : mwXenXenstoreStateChanged (insPath (s.table.ins i).domid gntRefChunks) =
      .nothing := by
    rw [stateChanged_insPath]
    decide
  simp only [writeGrantRefsToKey, hp, ne_eq, not_true_eq_false, if_false, hdir] at hs
  obtain rfl := eq_of_moveFound hs hpc
  refine h.afterStage hpc ⟨rfl, rfl, rfl, rfl, rfl, carried_goto hpc,
    fun j hj => serving_goto hpc hj, fun _ _ => rfl, fun _ _ => rfl, fun _ _ => rfl,
    events_write_own (snprintf xeneventPathStrLen (Nat.toDigits 10 (w.gntChunk - 1))) hnothing,
    fun path => store_write_own (by decide) (by decide)⟩ rfl rfl ?_
  exact
    { noPort := fun hmem => absurd hmem (by decide)
      port := fun _ => by
        obtain ⟨hport, hbounds⟩ := hold.port (by decide)
        exact ⟨(s.store_write_ne _ (by simp [insPath_inj]; decide)).trans hport, hbounds⟩
      refs := fun _ => hold.refs (by decide)
      ring := fun _ => hold.ring (by decide)
      noTotal := fun hmem => absurd hmem (by decide)
      total := fun _ => hread }

/-! ## The id is stored -/

theorem entries_eq_zero {t : InsTable} (h : ∀ j todo, serving t j ≠ some (d, todo)) :
    entries t d = 0 := by
  refine Finset.sum_eq_zero fun j _ => if_neg ?_
  rw [Option.map_eq_some_iff]
  rintro ⟨⟨d', todo⟩, hj, rfl⟩
  exact h j todo hj

theorem entries_eq_one {t : InsTable} (hcalls : Calls t) (hi : serving t i = some (d, todo)) :
    entries t d = 1 := by
  rw [entries, Finset.sum_eq_single i]
  · rw [hi]
    simp
  · intro j _ hj
    refine if_neg ?_
    rw [Option.map_eq_some_iff]
    rintro ⟨⟨d', todo'⟩, hserves, rfl⟩
    exact hj (hcalls.serving_inj hserves hi)
  · intro hmem
    exact absurd (Finset.mem_univ i) hmem

theorem serving_named {t : InsTable} {id : List Char} (hpc : t.found 0 = .naming id i)
    (huse : (t.ins i).inUse = true) :
    serving ((t.setEntry i fun e => { e with domid := d }).goto 0 (.setup i allSetups)) =
      Function.update (serving t) i (some (d, allSetups)) := by
  funext j
  have hins : (t.setEntry i fun e => { e with domid := d }).ins j =
      if j = i then { t.ins i with domid := d } else t.ins j := Function.update_apply ..
  by_cases hj : j = i
  · subst hj
    rw [Function.update_self, serving_eq_some]
    simp [InsTable.goto, hins, huse, Found.hold, leftFor]
  · rw [Function.update_of_ne hj]
    refine serving_congr ?_ ?_ ?_ ?_
    · simp only [InsTable.goto, hins, if_neg hj]
    · simp only [InsTable.goto, hins, if_neg hj]
    · simp [InsTable.goto, Found.hold, hpc, Ne.symm hj]
    · simp [InsTable.goto, leftFor, hpc, Ne.symm hj]

/-- What the step that stores the id of INS `d` does: entry `i` serves it from now on. -/
structure Names (s : Handshake) (t : InsTable) (i : Fin maxInsCount) (d : BitVec 16) : Prop where
  pc : s.table.found 0 = .naming (Nat.toDigits 10 d.toNat) i
  free : serving s.table i = none
  calls : Calls t
  found : t.found 0 = .setup i allSetups
  serves : serving t = Function.update (serving s.table) i (some (d, allSetups))

theorem Sound.names (h : s.Sound me count)
    (hpc : s.table.found 0 = .naming (Nat.toDigits 10 d.toNat) i) {t : InsTable}
    (hs : s.table.insFound 0 true (s.table.found 0) = some t) : s.Names t i d := by
  have horderly : s.table.orderly 0 (.move 0 true) := h.orderly_move
  have hsound := h.calls.sound.step (e := .move 0 true) horderly hs
  have hothers (n : Nat) (hn : n ≠ 0) : t.found n = s.table.found n := found_of_move hs hn
  have huse : (s.table.ins i).inUse = true :=
    (h.calls.sound.holder (t := 0) (b := false) (by rw [hpc]; rfl)).1
  have hd : BitVec.ofInt 16 (simpleStrtol (Nat.toDigits 10 d.toNat)) = d := by
    rw [simpleStrtol_toDigits, BitVec.ofInt_natCast, BitVec.ofNat_toNat, BitVec.setWidth_eq]
  rw [hpc] at hs
  simp only [InsTable.insFound, hd] at hs
  obtain rfl := Option.some.inj hs
  refine ⟨hpc, ?_, ⟨hsound, fun n hn => (hothers n hn).trans (h.calls.single n hn), ?_, ?_⟩, ?_,
    serving_named hpc huse⟩
  · rw [serving, if_neg]
    rw [hpc]
    simp [Found.hold]
  · intro id hid
    simp [InsTable.goto, MagicWand.carried] at hid
  · intro j todo hj
    simp only [InsTable.goto, Function.update_self, Found.setup.injEq] at hj
    obtain ⟨-, rfl⟩ := hj
    exact List.suffix_rfl
  · simp [InsTable.goto, allSetups]

theorem Names.self {t : InsTable} (h : s.Names t i d) : serving t i = some (d, allSetups) := by
  rw [h.serves, Function.update_self]

theorem Names.other {t : InsTable} (h : s.Names t i d) {j : Fin maxInsCount} (hj : j ≠ i) :
    serving t j = serving s.table j := by
  rw [h.serves, Function.update_of_ne hj]

/-- An entry that has served an INS serves it still. -/
theorem Names.keeps {t : InsTable} (h : s.Names t i d) {j : Fin maxInsCount} {d' : BitVec 16}
    {todo : List Setup} (hj : serving s.table j = some (d', todo)) :
    serving t j = some (d', todo) := by
  refine (h.other ?_).trans hj
  rintro rfl
  rw [h.free] at hj
  cases hj

theorem Names.ends {t : InsTable} (h : s.Names t i d) {d' : BitVec 16} (hends : s.Ends d') :
    Ends { s with table := t } d' := by
  rcases hends with hmem | ⟨j, todo, hj, hirq⟩
  · exact .inl hmem
  · exact .inr ⟨j, todo, h.keeps hj, hirq⟩

/-- The INS has an entry now, with nothing in it. -/
theorem Names.meeting_self {t : InsTable} (h : s.Names t i d) (hd : s.Meeting me count d)
    (htokens : s.tokens d = 1) (hstart : s.ins d ≠ .start)
    (hno : ∀ j todo, serving s.table j ≠ some (d, todo)) :
    Handshake.Meeting me count { s with table := t } d := by
  have hempty := hd.unserved hno
  refine
    { valid := hd.valid
      id := hd.id
      bound := hd.bound
      once := ?_
      offers := fun j todo hj => ?_
      unserved := fun hno => absurd h.self (hno i allSetups)
      told := hd.told.of_noTotal hempty.2
      ends := fun hreg => h.ends (hd.ends hreg) }
  · have htoken : Handshake.tokens { s with table := t } d + 1 = s.tokens d := by
      simp only [tokens, h.found, MagicWand.carried, h.pc, reduceCtorEq, if_false, if_true]
      omega
    rw [if_neg hstart, entries_eq_one h.calls h.self]
    omega
  · obtain rfl := h.calls.serving_inj h.self hj
    have hsame := hj.symm.trans h.self
    cases hsame
    exact
      { noPort := fun _ => hempty.1
        port := fun hmem => absurd (by decide) hmem
        refs := fun hmem => absurd (by decide) hmem
        ring := fun hmem => absurd (by decide) hmem
        noTotal := fun _ => hempty.2
        total := fun hmem => absurd (by decide) hmem }

/-- Another INS does not see the step. -/
theorem Names.meeting_other {t : InsTable} (h : s.Names t i d) {d' : BitVec 16}
    (hd : s.Meeting me count d') (hdd : d' ≠ d) :
    Handshake.Meeting me count { s with table := t } d' := by
  refine SameFor.meeting (s := s) ⟨fun _ _ => rfl, rfl, ?_, fun j todo => ?_, fun _ _ _ => rfl,
    fun _ _ _ => rfl, fun _ _ _ => rfl⟩ hd fun hreg => h.ends (hd.ends hreg)
  · have hdig : ¬ Nat.toDigits 10 d.toNat = Nat.toDigits 10 d'.toNat := fun heq =>
      hdd (BitVec.eq_of_toNat_eq (toDigits_inj heq).symm)
    simp only [tokens, h.found, MagicWand.carried, h.pc, reduceCtorEq, if_false,
      Option.some.injEq, hdig]
  · by_cases hj : j = i
    · subst hj
      rw [h.self, h.free]
      simp only [Option.some.injEq, Prod.mk.injEq, Ne.symm hdd, false_and, reduceCtorEq]
    · rw [h.other hj]

/-- The entry serves the INS from now on. -/
theorem Sound.named (h : s.Sound me count) {id : List Char}
    (hpc : s.table.found 0 = .naming id i) {t : InsTable}
    (hs : s.table.insFound 0 true (s.table.found 0) = some t) :
    Handshake.Sound me count { s with table := t } := by
  have hid : MagicWand.carried (s.table.found 0) = some id := by rw [hpc]; rfl
  obtain ⟨d, rfl, htokens, hstart, hvalid, hno⟩ := h.carried hid
  have hnames := h.names hpc hs
  refine
    { calls := hnames.calls
      events := fun path hmem => ⟨(h.events path hmem).found, (h.events path hmem).bound⟩
      server := ⟨h.server.read, h.server.published⟩
      loaded := h.loaded
      before := fun hinit => ?_
      publishing := fun p hp => ?_
      irq := fun j hj => ?_
      each := fun d' => ?_ }
  · have hidle := (h.before hinit).2.1
    rw [hpc] at hidle
    cases hidle
  · rw [h.no_publishing (by simp [hpc])] at hp
    cases hp
  · obtain ⟨d', todo, hserves, hreg⟩ := h.irq j hj
    exact ⟨d', todo, hnames.keeps hserves, hreg⟩
  · by_cases hdd : d' = d
    · subst hdd
      exact hnames.meeting_self (h.each d') htokens hstart hno
    · exact hnames.meeting_other (h.each d') hdd

theorem Sound.writeGrantRefsToKey (h : s.Sound me count) (hcount : 2 ≤ count)
    (hfit : count ≤ 2 ^ 30) (hpc : s.table.found 0 = .setup i [.grantRefs])
    (hs : s.writeGrantRefsToKey count chunkSize i true 0 = some s') : s'.Sound me count := by
  cases hp : s.publishing with
  | none =>
      rw [Handshake.writeGrantRefsToKey, hp] at hs
      obtain rfl := Option.some.inj hs
      exact h.publishStart hpc
  | some p =>
      cases p with
      | refs w refs =>
          cases refs with
          | nil => exact h.publishLast hfit hpc hp hs
          | cons ref refs => exact h.publishRef hcount hfit hpc hp hs
      | total w => exact h.publishTotal hcount hfit hpc hp hs

/-- A step of the call. -/
theorem Sound.mwXenInsFound (h : s.Sound me count) (hcount : 2 ≤ count) (hfit : count ≤ 2 ^ 30)
    {port : Nat} {refs : InsGrantRefs} (hpos : 0 < port) (hlt : port < 2 ^ 31)
    (hlen : refs.refs.length = count) (hrefs : ∀ ref ∈ refs.refs, ref.toNat < 2 ^ 28)
    (hs : s.mwXenInsFound count chunkSize true 0 port refs = some s') : s'.Sound me count := by
  cases hpc : s.table.found 0 with
  | idle =>
      simp only [Handshake.mwXenInsFound, hpc, moveFound, InsTable.insFound, Option.map_none] at hs
      cases hs
  | probing id n =>
      simp only [Handshake.mwXenInsFound, hpc] at hs
      split at hs
      · next hn =>
          obtain ⟨t, ht, rfl⟩ := Option.map_eq_some_iff.mp hs
          exact h.probe hpc hn ht
      · next hn =>
          obtain ⟨t, ht, rfl⟩ := Option.map_eq_some_iff.mp hs
          exact h.refuse hpc hn ht
  | naming id i =>
      simp only [Handshake.mwXenInsFound, hpc] at hs
      obtain ⟨t, ht, rfl⟩ := Option.map_eq_some_iff.mp hs
      exact h.named hpc ht
  | setup i todo =>
      cases todo with
      | nil =>
          simp only [Handshake.mwXenInsFound, hpc] at hs
          obtain ⟨t, ht, rfl⟩ := Option.map_eq_some_iff.mp hs
          exact h.announceReady (.inl hpc) ht
      | cons stage todo =>
          simp only [Handshake.mwXenInsFound, hpc] at hs
          cases stage with
          | ringBlock => exact h.stageRingBlock hpc hs
          | evtChn => exact h.stageEvtChn hpc hpos hlt hs
          | grant => exact h.stageGrant hpc hlen hrefs hs
          | ring => exact h.stageRing hpc hs
          | grantRefs =>
              obtain rfl := eq_afterSetup (h.calls.suffix i _ hpc)
              exact h.writeGrantRefsToKey hcount hfit hpc hs
  | ready i =>
      simp only [Handshake.mwXenInsFound, hpc] at hs
      obtain ⟨t, ht, rfl⟩ := Option.map_eq_some_iff.mp hs
      exact h.announceReady (.inr hpc) ht

end Handshake

end MagicWand
