import MagicWand.Handshake.Protocol

/-!
# What the INS reads is what the driver has written

The invariant says for each INS which of its keys are in XenStore, as far as the driver has
come with the entry of the INS, and what the INS has read so far. The number of chunks is
written after the chunks, so an INS that sees it reads all of them; no one else writes these
keys. Of each INS there is one event, one call or one entry, so that no INS gets two entries.
-/

namespace MagicWand

open Foundation Kernel

/-! ## Reading -/

/-- The paths under which the grant references of an INS are. -/
def GntPath (d : BitVec 16) (path : List Char) : Prop :=
  ∃ key, path = insPath d key ∧ key.head? = some 'g'

theorem gntPath_insPath {d d' : BitVec 16} {key : List Char} :
    GntPath d (insPath d' key) ↔ d' = d ∧ key.head? = some 'g' := by
  constructor
  · rintro ⟨key', hpath, hg⟩
    obtain ⟨rfl, rfl⟩ := insPath_inj.mp hpath
    exact ⟨rfl, hg⟩
  · rintro ⟨rfl, hg⟩
    exact ⟨key, rfl, hg⟩

theorem gntPath_chunk (d : BitVec 16) (gnt : Nat) :
    GntPath d (snprintf xeneventPathStrLen (join (insDir d) (gntKey gnt))) := by
  have hdir := length_insDir d
  have htake : snprintf xeneventPathStrLen (join (insDir d) (gntKey gnt)) =
      insPath d ((gntKey gnt).take (30 - (insDir d).length)) := by
    have hlen : 31 - (insDir d).length = 30 - (insDir d).length + 1 := by omega
    rw [snprintf, join, insPath, join, show xeneventPathStrLen - 1 = 31 from rfl, List.take_append,
      List.take_of_length_le (by omega), hlen, List.take_succ_cons]
  refine ⟨_, htake, ?_⟩
  obtain ⟨m, hm⟩ : ∃ m, 30 - (insDir d).length = m + 1 :=
    Nat.exists_eq_succ_of_ne_zero (by omega)
  rw [hm]
  rfl

theorem ownPath_eq {d : BitVec 16} {key : List Char} (h : key.length ≤ 21) :
    Handshake.ownPath d key = insPath d key := snprintf_insPath h

theorem gntPath_total (d : BitVec 16) :
    GntPath d (snprintf xeneventPathStrLen (join (insDir d) gntRefChunks)) :=
  ⟨gntRefChunks, snprintf_insPath (by decide), rfl⟩

/-- What the reader makes of the chunks depends on the keys of its INS. -/
theorem readChunks_congr {d : BitVec 16} {store store' : XenStore}
    (h : ∀ path, GntPath d path → store' path = store path) (fuel : Nat) :
    ∀ (left gnt : Nat) (refs : List (BitVec 32)),
      readChunks fuel store' d left gnt refs = readChunks fuel store d left gnt refs := by
  intro left
  induction left with
  | zero =>
      intro gnt refs
      rfl
  | succ left ih =>
      intro gnt refs
      rw [readChunks, readChunks, h _ (gntPath_chunk d gnt)]
      simp only [ih]

theorem rcvGrantRefs_congr {d : BitVec 16} {store store' : XenStore}
    (h : ∀ path, GntPath d path → store' path = store path) (fuel : Nat) :
    xeCommsRcvGrantRefs fuel store' d = xeCommsRcvGrantRefs fuel store d := by
  rw [xeCommsRcvGrantRefs, xeCommsRcvGrantRefs, h _ (gntPath_total d)]
  simp only [readChunks_congr h]

/-- Nothing is read before the number of the chunks is there. -/
theorem rcvGrantRefs_none {d : BitVec 16} {store : XenStore} {fuel : Nat}
    (h : store (insPath d gntRefChunks) = none) :
    xeCommsRcvGrantRefs fuel store d = .waits := by
  rw [xeCommsRcvGrantRefs, show snprintf xeneventPathStrLen (join (insDir d) gntRefChunks) =
    insPath d gntRefChunks from snprintf_insPath (by decide), h]

/-- Reading adds at least one reference for each chunk. -/
theorem lt_of_readChunk {refs refs' : List (BitVec 32)} :
    ∀ {fuel : Nat} {msgptr : List Char}, readChunk fuel msgptr refs = .received refs' →
      refs.length < refs'.length := by
  intro fuel
  induction fuel generalizing refs with
  | zero =>
      intro msgptr h
      cases h
  | succ fuel ih =>
      intro msgptr h
      simp only [readChunk] at h
      split at h
      · cases h
        simp
      · have hlt := ih h
        rw [List.length_append, List.length_singleton] at hlt
        omega
      · cases h

theorem le_of_readChunks {d : BitVec 16} {store : XenStore} {fuel : Nat}
    {refs' : List (BitVec 32)} : ∀ {left gnt : Nat} {refs : List (BitVec 32)},
      readChunks fuel store d left gnt refs = .received refs' →
        refs.length + left ≤ refs'.length := by
  intro left
  induction left with
  | zero =>
      intro gnt refs h
      cases h
      exact le_refl _
  | succ left ih =>
      intro gnt refs h
      rw [readChunks] at h
      split at h
      · cases h
      · split at h
        · next hchunk =>
            have hlt := lt_of_readChunk hchunk
            have hle := ih h
            omega
        · next hnot => exact absurd h (hnot _)

/-- A number that was written is read. -/
theorem readInt_toDigits {n : Nat} (h : n < 2 ^ 31) :
    readInt (some (Nat.toDigits 10 n)) = (n : Int) := by
  have hread : bmkStrtoul 10 (Nat.toDigits 10 n) = (n, []) := by
    have hnum : bmkStrtoul 10 (List.replicate 0 ' ' ++ (Nat.toDigits 10 n ++ [])) = (n, []) :=
      bmkStrtoul_toDigits (by decide) (by decide) 0 (h.le.trans (by decide)) (by simp)
    simpa using hnum
  rw [readInt, hread, BitVec.toInt_eq_toNat_of_lt (by rw [BitVec.toNat_ofNat]; omega),
    BitVec.toNat_ofNat, Nat.mod_eq_of_lt (by omega)]

theorem simpleStrtol_toDigits (n : Nat) : simpleStrtol (Nat.toDigits 10 n) = (n : Int) := by
  have hread := takeDigits_decimal n
  unfold simpleStrtol
  split
  · next heq => exact absurd (heq ▸ List.mem_cons_self) (not_mem_digits n (c := '-') (by decide))
  · rw [hread]

theorem toDigits_ne_zero {n : Nat} (h : 0 < n) : Nat.toDigits 10 n ≠ ['0'] := by
  intro hz
  have := Numerals.eq_zero_of_head?_toDigits (b := 10) (by decide) (by decide) (n := n)
    (by rw [hz]; rfl)
  omega

/-! ## The invariant -/

/-- The id that a call of `mw_xen_ins_found` has read and not yet stored. -/
def carried : Found → Option (List Char)
  | .probing id _ => some id
  | .naming id _ => some id
  | _ => none

/-- What the driver has still to set up for entry `i`. -/
def leftFor (t : InsTable) (i : Fin maxInsCount) : List Setup :=
  match t.found 0 with
  | .setup j todo => if j = i then todo else []
  | _ => []

/-- The INS that entry `i` serves, and what is left to set up; an entry that has been
claimed serves none before the id is stored. -/
def serving (t : InsTable) (i : Fin maxInsCount) : Option (BitVec 16 × List Setup) :=
  if (t.ins i).inUse = true ∧ (t.found 0).hold ≠ some (i, false) then
    some ((t.ins i).domid, leftFor t i)
  else none

def allSetups : List Setup := [.ringBlock, .evtChn, .grant, .ring, .grantRefs]

namespace Handshake

variable (me : BitVec 16) (count chunkSize hz : Nat)

/-- The events and calls for INS `d`, and what has come to nothing. -/
def tokens (s : Handshake) (d : BitVec 16) : Nat :=
  s.watchEvents.count (insPath d insIdKey) +
    (if carried (s.table.found 0) = some (Nat.toDigits 10 d.toNat) then 1 else 0) +
    (s.early.count d + s.refused.count d)

/-- The entries for INS `d`. -/
def entries (t : InsTable) (d : BitVec 16) : Nat :=
  ∑ i, if (serving t i).map Prod.fst = some d then 1 else 0

/-- These references are there for INS `d` to read. -/
def Offered (s : Handshake) (d : BitVec 16) (refs : List (BitVec 32)) : Prop :=
  xeCommsRcvGrantRefs count s.store d = .received refs

/-- What entry `i`, with `todo` left, has for INS `d`. -/
structure Offers (s : Handshake) (i : Fin maxInsCount) (d : BitVec 16) (todo : List Setup) :
    Prop where
  noPort : .evtChn ∈ todo → s.store (insPath d vmEvtChnPortKey) = none
  port : .evtChn ∉ todo →
    s.store (insPath d vmEvtChnPortKey) = some (Nat.toDigits 10 (s.commonEvtchn i)) ∧
      0 < s.commonEvtchn i ∧ s.commonEvtchn i < 2 ^ 31
  refs : .grant ∉ todo →
    (s.grantRefs i).length = count ∧ ∀ ref ∈ s.grantRefs i, ref.toNat < 2 ^ 28
  ring : .ring ∉ todo → s.sringInit i = true
  noTotal : .grantRefs ∈ todo → s.store (insPath d gntRefChunks) = none
  total : .grantRefs ∉ todo → s.Offered count d (s.grantRefs i)

/-- What INS `d` has been told, where it stands. -/
def Told (s : Handshake) (d : BitVec 16) : Registering → Prop
  | .start => True
  | .server => True
  | .chunks r => r = me
  | .total r => r = me ∧ ∃ refs, s.Offered count d refs
  | .refs r left gnt acc => r = me ∧ ∃ refs, s.Offered count d refs ∧
      readChunks count s.store d left gnt acc = .received refs
  | .map r refs => r = me ∧ s.Offered count d refs
  | .port r refs => r = me ∧ s.Offered count d refs
  | .bind r refs port => r = me ∧ s.Offered count d refs ∧
      readInt (s.store (insPath d vmEvtChnPortKey)) = port ∧ port ≠ 0
  | .announce r refs port => r = me ∧ s.Offered count d refs ∧
      readInt (s.store (insPath d vmEvtChnPortKey)) = port ∧ port ≠ 0
  | .registered r refs port => r = me ∧ s.Offered count d refs ∧
      readInt (s.store (insPath d vmEvtChnPortKey)) = port ∧ port ≠ 0
  | .failed => False

/-- The driver has bound its end of the event channel, or is about to be told to. -/
def Ends (s : Handshake) (d : BitVec 16) : Prop :=
  insPath d vmEvtChnBoundKey ∈ s.watchEvents ∨
    ∃ i todo, serving s.table i = some (d, todo) ∧ s.irq i ≠ 0

/-- What holds of INS `d`. -/
structure Meeting (s : Handshake) (d : BitVec 16) : Prop where
  valid : s.ins d ≠ .start → validDomid d.toNat = true
  id : s.store (insPath d insIdKey) =
    if s.ins d = .start then none else some (Nat.toDigits 10 d.toNat)
  bound : s.store (insPath d vmEvtChnBoundKey) =
    if isRegistered (s.ins d) = true then some ['1'] else none
  once : s.tokens d + entries s.table d = if s.ins d = .start then 0 else 1
  offers : ∀ i todo, serving s.table i = some (d, todo) → s.Offers count i d todo
  unserved : (∀ i todo, serving s.table i ≠ some (d, todo)) →
    s.store (insPath d vmEvtChnPortKey) = none ∧ s.store (insPath d gntRefChunks) = none
  told : s.Told me count d (s.ins d)
  ends : isRegistered (s.ins d) = true → s.Ends d

/-- Where the writer of the references of entry `i` stands. -/
def Publishes (s : Handshake) (i : Fin maxInsCount) (d : BitVec 16) : Publishing → Prop
  | .refs w todo => ∃ chunks rest, chunks.flatten ++ rest ++ todo = s.grantRefs i ∧
      Packed (insDir d) chunks rest { w with store := s.store }
  | .total w => ∃ chunks, chunks.flatten = s.grantRefs i ∧
      Packed (insDir d) chunks [] { w with gntRefs := [], gntCnt := 0, store := s.store }

/-- The driver makes one call at a time, for an INS that has written its id. -/
structure Calls (t : InsTable) : Prop where
  sound : t.Sound
  single : ∀ n, n ≠ 0 → t.found n = .idle
  carries : ∀ id, carried (t.found 0) = some id → ∃ d : BitVec 16, id = Nat.toDigits 10 d.toNat
  suffix : ∀ i todo, t.found 0 = .setup i todo → todo <:+ allSetups

/-- An event that the driver acts on comes from the INS that it names. -/
structure Known (s : Handshake) (path : List Char) : Prop where
  found : mwXenXenstoreStateChanged path = .insFound → ∃ d, path = insPath d insIdKey
  bound : mwXenXenstoreStateChanged path = .bindEvtChn →
    ∃ d, path = insPath d vmEvtChnBoundKey ∧ isRegistered (s.ins d) = true

/-- The INSs read the id of the driver or none. -/
structure ServerId (s : Handshake) : Prop where
  read : readInt (s.store serverIdPath) = 0 ∨ readInt (s.store serverIdPath) = me.toNat
  published : s.init = .watch ∨ s.init = .done → readInt (s.store serverIdPath) = me.toNat

structure Sound (s : Handshake) : Prop where
  calls : Calls s.table
  events : ∀ path ∈ s.watchEvents, s.Known path
  server : s.ServerId me
  loaded : s.init ≠ .failed
  before : s.init ≠ .done → s.watchEvents = [] ∧ s.table.found 0 = .idle ∧
    ∀ i, serving s.table i = none
  publishing : ∀ p, s.publishing = some p → ∃ i, s.table.found 0 = .setup i [.grantRefs] ∧
    s.Publishes i (s.table.ins i).domid p
  irq : ∀ i, s.irq i ≠ 0 → ∃ d todo, serving s.table i = some (d, todo) ∧
    isRegistered (s.ins d) = true
  each : ∀ d, s.Meeting me count d

variable {me count chunkSize hz} {s s' : Handshake} {d : BitVec 16}

/-! ### What does not change -/

/-- Nothing that INS `d` can see changes. -/
structure SameFor (s s' : Handshake) (d : BitVec 16) : Prop where
  keys : ∀ key, key ≠ insHeartbeatKey → s'.store (insPath d key) = s.store (insPath d key)
  ins : s'.ins d = s.ins d
  tokens : s'.tokens d = s.tokens d
  serves : ∀ i todo, serving s'.table i = some (d, todo) ↔ serving s.table i = some (d, todo)
  grantRefs : ∀ i todo, serving s.table i = some (d, todo) →
    s'.grantRefs i = s.grantRefs i
  commonEvtchn : ∀ i todo, serving s.table i = some (d, todo) →
    s'.commonEvtchn i = s.commonEvtchn i
  sringInit : ∀ i todo, serving s.table i = some (d, todo) →
    s'.sringInit i = s.sringInit i

theorem gnt_of_keys
    (h : ∀ key, key ≠ insHeartbeatKey → s'.store (insPath d key) = s.store (insPath d key)) :
    ∀ path, GntPath d path → s'.store path = s.store path := by
  rintro path ⟨key, rfl, hg⟩
  refine h key ?_
  rintro rfl
  exact absurd hg (by decide)

/-- The key of a chunk, as the writer prints it. -/
theorem gntPath_written (d : BitVec 16) (gnt : Nat) :
    GntPath d (insPath d (snprintf xeneventPathStrLen (gntKey gnt))) :=
  ⟨_, rfl, rfl⟩

theorem packed_congr {chunks : List (List (BitVec 32))} {rest : List (BitVec 32)} {w : Writing}
    {store : XenStore} (h : Packed (insDir d) chunks rest w)
    (hgnt : ∀ path, GntPath d path → store path = w.store path) :
    Packed (insDir d) chunks rest { w with store := store } where
  full := h.full
  gntRefs := h.gntRefs
  gntCnt := h.gntCnt
  gntChunk := h.gntChunk
  stored n hn := (hgnt _ (gntPath_written d (n + 1))).trans (h.stored n hn)

theorem Publishes.congr {i : Fin maxInsCount} {p : Publishing} (h : s.Publishes i d p)
    (hgnt : ∀ path, GntPath d path → s'.store path = s.store path)
    (hrefs : s'.grantRefs i = s.grantRefs i) : s'.Publishes i d p := by
  cases p with
  | refs w todo =>
      obtain ⟨chunks, rest, hall, hpacked⟩ := h
      exact ⟨chunks, rest, hrefs.symm ▸ hall,
        packed_congr (w := { w with store := s.store }) hpacked hgnt⟩
  | total w =>
      obtain ⟨chunks, hall, hpacked⟩ := h
      exact ⟨chunks, hrefs.symm ▸ hall, packed_congr
        (w := { w with gntRefs := [], gntCnt := 0, store := s.store }) hpacked hgnt⟩

theorem Offered.congr {refs : List (BitVec 32)}
    (hgnt : ∀ path, GntPath d path → s'.store path = s.store path) :
    s'.Offered count d refs ↔ s.Offered count d refs := by
  rw [Offered, Offered, rcvGrantRefs_congr hgnt]

theorem Told.congr (hgnt : ∀ path, GntPath d path → s'.store path = s.store path)
    (hport : s'.store (insPath d vmEvtChnPortKey) = s.store (insPath d vmEvtChnPortKey))
    {pc : Registering} : s'.Told me count d pc ↔ s.Told me count d pc := by
  cases pc <;> simp only [Told, Offered.congr hgnt, readChunks_congr hgnt, hport]

/-- An INS that cannot see the references has been told no more than who the driver is. -/
theorem Told.of_noTotal {pc : Registering} (h : s.Told me count d pc)
    (hnone : s.store (insPath d gntRefChunks) = none) : s'.Told me count d pc := by
  have hno : ∀ refs, ¬ s.Offered count d refs := by
    intro refs hoffered
    rw [Offered, rcvGrantRefs_none hnone] at hoffered
    cases hoffered
  cases pc with
  | start => trivial
  | server => trivial
  | chunks r => exact h
  | total r => exact absurd h.2.choose_spec (hno _)
  | refs r left gnt acc => exact absurd h.2.choose_spec.1 (hno _)
  | map r refs => exact absurd h.2 (hno _)
  | port r refs => exact absurd h.2 (hno _)
  | bind r refs port => exact absurd h.2.1 (hno _)
  | announce r refs port => exact absurd h.2.1 (hno _)
  | registered r refs port => exact absurd h.2.1 (hno _)
  | failed => exact h.elim

theorem entries_congr {t t' : InsTable}
    (h : ∀ i todo, serving t' i = some (d, todo) ↔ serving t i = some (d, todo)) :
    entries t' d = entries t d := by
  refine Finset.sum_congr rfl fun i _ => ?_
  have hiff : (serving t' i).map Prod.fst = some d ↔ (serving t i).map Prod.fst = some d := by
    simp only [Option.map_eq_some_iff, Prod.exists, exists_and_right, exists_eq_right]
    exact exists_congr fun todo => h i todo
  simp only [hiff]

theorem SameFor.offers (h : SameFor s s' d) {i : Fin maxInsCount} {todo : List Setup}
    (hi : serving s.table i = some (d, todo)) (hoffers : s.Offers count i d todo) :
    s'.Offers count i d todo where
  noPort hmem := (h.keys _ (by decide)).trans (hoffers.noPort hmem)
  port hmem := by
    rw [h.commonEvtchn i todo hi, h.keys _ (by decide)]
    exact hoffers.port hmem
  refs hmem := by
    rw [h.grantRefs i todo hi]
    exact hoffers.refs hmem
  ring hmem := (h.sringInit i todo hi).trans (hoffers.ring hmem)
  noTotal hmem := (h.keys _ (by decide)).trans (hoffers.noTotal hmem)
  total hmem := by
    rw [h.grantRefs i todo hi, Offered.congr (gnt_of_keys h.keys)]
    exact hoffers.total hmem

theorem SameFor.meeting (h : SameFor s s' d) (hd : s.Meeting me count d)
    (hends : isRegistered (s.ins d) = true → s'.Ends d) : s'.Meeting me count d where
  valid hne := hd.valid (h.ins ▸ hne)
  id := by
    rw [h.keys _ (by decide), h.ins]
    exact hd.id
  bound := by
    rw [h.keys _ (by decide), h.ins]
    exact hd.bound
  once := by
    rw [h.tokens, entries_congr h.serves, h.ins]
    exact hd.once
  offers i todo hi := by
    have hi' := (h.serves i todo).mp hi
    exact h.offers hi' (hd.offers i todo hi')
  unserved hno := by
    rw [h.keys _ (by decide), h.keys _ (by decide)]
    exact hd.unserved fun i todo hi => hno i todo ((h.serves i todo).mpr hi)
  told := by
    rw [h.ins]
    exact (Told.congr (gnt_of_keys h.keys) (h.keys _ (by decide))).mpr hd.told
  ends hreg := hends (h.ins ▸ hreg)

end Handshake

end MagicWand
