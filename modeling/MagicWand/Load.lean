import MagicWand.Distro.Balance
import MagicWand.GrantRefs
import MagicWand.Ins.ListeningPorts
import MagicWand.Ins.SocketCount

/-!
# The load that the balancer sees

An INS writes statistics beside its heartbeat. `heartbeat_thread_func` prints them,
`xe_comms_heartbeat` stores the text in XenStore, and `mw_distro_ins.py`, which watches the
key, reads what is stored when it gets to the event. Meanwhile the INS goes on, so that the
balancer looks at a state that is past.

The INS is not shut down, and its object in the script is not replaced.
-/

namespace MagicWand

open Foundation

/-! ## The text -/

def insNetworkStatsMaxLen : Nat := 64

/-- The numbers that `heartbeat_thread_func` prints, all as unsigned ones of 64 bits. -/
def networkStats (n : Ins.NetState) : List Nat :=
  [Ins.maxThreadCount, (BitVec.ofInt 64 n.socketCt).toNat, n.bytesRecv % 2 ^ 64,
    n.bytesSent % 2 ^ 64]

/-- `snprintf( stats, sizeof(stats), "%lx:%lx:%llx:%llx", ... )`. -/
def networkStatsText (n : Ins.NetState) : List Char :=
  snprintf insNetworkStatsMaxLen ([':'].intercalate ((networkStats n).map (Nat.toDigits 16)))

/-- `[ int( x, 16 ) for x in stats_str.split( ':' ) ]`, for digits. -/
def decodeStats (text : List Char) : Option (List Nat) :=
  (text.splitOn ':').mapM fun x => if x.isEmpty then none else Ins.hexNumber x

/-- What `update_stats` notes, unless it raises an exception. -/
def updateStats (text : List Char) : Option Distro.Stats :=
  match decodeStats text with
  | some (maxSockets :: usedSockets :: _ :: _ :: _) =>
      some { maxSockets := maxSockets, usedSockets := usedSockets }
  | _ => none

/-- The statistics of a state, as the balancer should see them. -/
def reported (n : Ins.NetState) : Distro.Stats where
  maxSockets := Ins.maxThreadCount
  usedSockets := n.socketCt

theorem length_toDigits_le {n : Nat} (h : n < 2 ^ 64) : (Nat.toDigits 16 n).length ≤ 16 :=
  (Nat.length_toDigits_le_iff (by decide) (by decide)).mpr h

/-- The text fits in its buffer. -/
theorem networkStatsText_eq (n : Ins.NetState) :
    networkStatsText n = [':'].intercalate ((networkStats n).map (Nat.toDigits 16)) := by
  have hmax : (Nat.toDigits 16 Ins.maxThreadCount).length = 2 := by decide
  have hct := length_toDigits_le (BitVec.ofInt 64 n.socketCt).isLt
  have hrecv := length_toDigits_le (Nat.mod_lt n.bytesRecv (Nat.two_pow_pos 64))
  have hsent := length_toDigits_le (Nat.mod_lt n.bytesSent (Nat.two_pow_pos 64))
  refine List.take_of_length_le ?_
  have hlen : insNetworkStatsMaxLen - 1 = 63 := rfl
  simp only [networkStats, List.map_cons, List.map_nil, List.intercalate_cons_cons,
    List.intercalate_singleton, List.length_append, List.length_cons, List.length_nil]
  omega

/-- What was printed is read back. -/
theorem decodeStats_networkStatsText (n : Ins.NetState) :
    decodeStats (networkStatsText n) = some (networkStats n) := by
  have hplain : ∀ l ∈ (networkStats n).map (Nat.toDigits 16), ':' ∉ l := by
    intro l hl hcolon
    obtain ⟨k, -, rfl⟩ := List.mem_map.mp hl
    have hdigit := Numerals.isDigit_of_mem_toDigits (by decide) (by decide) hcolon
    exact absurd hdigit (by decide)
  rw [decodeStats, networkStatsText_eq, List.splitOn_intercalate ':' hplain (List.cons_ne_nil _ _)]
  have hread (k : Nat) : (if (Nat.toDigits 16 k).isEmpty then none
      else Ins.hexNumber (Nat.toDigits 16 k)) = some k := by
    rw [if_neg (by simp [Nat.toDigits_ne_nil]), Ins.hexNumber_toDigits]
  simp only [networkStats, List.map_cons, List.map_nil, List.mapM_cons, List.mapM_nil, hread,
    Option.bind_eq_bind, Option.bind_some, Option.pure_def]

/-- A count that fits is told as it is. -/
theorem updateStats_networkStatsText {n : Ins.NetState} (hnonneg : 0 ≤ n.socketCt)
    (hfits : n.socketCt < 2 ^ 31) : updateStats (networkStatsText n) = some (reported n) := by
  have hct : ((BitVec.ofInt 64 n.socketCt).toNat : Int) = n.socketCt := by
    rw [BitVec.toNat_ofInt]
    omega
  simp only [updateStats, decodeStats_networkStatsText, networkStats, reported, hct]

/-! ## The report -/

/-- An INS, the statistics on their way, and the object of the INS in the script. `taken` and
`written` are the history: the states whose statistics have been printed, and stored. -/
structure Reporting where
  app : Ins.State := {}
  /-- The buffer of the heartbeat thread, until it is stored. -/
  stats : Option (List Char) := none
  key : Option (List Char) := none
  /-- The events of the key that the watcher has not got to. -/
  events : Nat := 0
  object : Distro.Ins := { ref := 0 }
  /-- The watcher has not ended by an exception. -/
  watching : Bool := true
  taken : List Ins.State := []
  written : List Ins.State := []

inductive ReportEvent where
  | app (e : Ins.Event)
  | print
  /-- `INS_HEARTBEAT_IOCTL`. -/
  | heartbeat (ok : Bool)
  | watch

namespace Reporting

variable (clientId : BitVec 16)

def step (s : Reporting) : ReportEvent → Option Reporting
  | .app e => ((Ins.ins clientId).step s.app e).map fun a => { s with app := a }
  | .print =>
      match s.stats with
      | none => some { s with
          stats := some (networkStatsText s.app.g.net), taken := s.taken ++ [s.app] }
      | some _ => none
  | .heartbeat ok =>
      match s.stats with
      | none => none
      | some text => some (if ok then { s with
          stats := none, key := some text, events := s.events + 1,
          written := s.written ++ s.taken.getLast?.toList }
        else { s with stats := none })
  | .watch =>
      match s.watching, s.events with
      | true, events + 1 =>
          match s.key.bind updateStats with
          | none => some { s with events := events, watching := false }
          | some v => some { s with events := events, object := { s.object with stats := some v } }
      | _, _ => none

/-- The application is used as in the account of its sockets, and `network_stats_socket_ct`
has not overflowed when it is printed. -/
def orderly (s : Reporting) : ReportEvent → Prop
  | .app e => Ins.namedStep s.app e
  | .print => s.app.g.net.socketCt < 2 ^ 31
  | .heartbeat _ => True
  | .watch => True

instance (s : Reporting) : (e : ReportEvent) → Decidable (orderly s e)
  | .app e => inferInstanceAs (Decidable (Ins.namedStep s.app e))
  | .print => inferInstanceAs (Decidable (s.app.g.net.socketCt < 2 ^ 31))
  | .heartbeat _ => instDecidableTrue
  | .watch => instDecidableTrue

/-- What a step is to the application. -/
def appPart : ReportEvent → List Ins.Event
  | .app e => [e]
  | _ => []

end Reporting

def reporting (clientId : BitVec 16) : System Reporting ReportEvent where
  init := {}
  step := Reporting.step clientId

namespace Reporting

/-- The application has been in state `a`. -/
def Past (clientId : BitVec 16) (past : List ReportEvent) (a : Ins.State) : Prop :=
  ∃ fs, fs <+: past.flatMap appPart ∧ (Ins.ins clientId).Guarded Ins.namedStep fs ∧
    (Ins.ins clientId).run fs = some a

/-- The script knows what has been stored, but for the events it has not got to. -/
structure Sound (clientId : BitVec 16) (past : List ReportEvent) (s : Reporting) : Prop where
  app : (Ins.ins clientId).run (past.flatMap appPart) = some s.app
  guarded : (Ins.ins clientId).Guarded Ins.namedStep (past.flatMap appPart)
  taken : ∀ a ∈ s.taken, Past clientId past a ∧ a.g.net.socketCt < 2 ^ 31
  stats : ∀ text ∈ s.stats, ∃ a, s.taken.getLast? = some a ∧ text = networkStatsText a.g.net
  written : ∀ a ∈ s.written, a ∈ s.taken
  key : s.key = s.written.getLast?.map fun a => networkStatsText a.g.net
  pending : 0 < s.events → s.written ≠ []
  told : ∀ v ∈ s.object.stats, ∃ a ∈ s.written, v = reported a.g.net
  current : s.events = 0 → s.object.stats = s.written.getLast?.map fun a => reported a.g.net
  watching : s.watching = true

variable {clientId : BitVec 16} {past : List ReportEvent} {s s' : Reporting} {a : Ins.State}

theorem Past.snoc (h : Past clientId past a) (e : ReportEvent) :
    Past clientId (past ++ [e]) a := by
  obtain ⟨fs, hpre, hrest⟩ := h
  refine ⟨fs, hpre.trans ?_, hrest⟩
  rw [List.flatMap_append]
  exact List.prefix_append _ _

theorem Past.nonneg (h : Past clientId past a) : 0 ≤ a.g.net.socketCt := by
  obtain ⟨fs, -, hG, hrun⟩ := h
  have hct := (Ins.account_of_run clientId hG hrun).2.1
  omega

/-- What is stored can be read. -/
theorem Sound.readable (h : Sound clientId past s) (ha : a ∈ s.written) :
    updateStats (networkStatsText a.g.net) = some (reported a.g.net) :=
  have htaken := h.taken a (h.written a ha)
  updateStats_networkStatsText htaken.1.nonneg htaken.2

theorem Sound.init (clientId : BitVec 16) : Sound clientId [] (reporting clientId).init where
  app := rfl
  guarded := trivial
  taken _ ha := nomatch ha
  stats _ htext := nomatch htext
  written _ ha := nomatch ha
  key := rfl
  pending hevents := absurd hevents (Nat.lt_irrefl 0)
  told _ hv := nomatch hv
  current _ := rfl
  watching := rfl

theorem Sound.appStep (h : Sound clientId past s) {e : Ins.Event} (hG : Ins.namedStep s.app e)
    (hstep : (Ins.ins clientId).step s.app e = some a) :
    Sound clientId (past ++ [.app e]) { s with app := a } where
  app := by
    rw [List.flatMap_append]
    exact (Ins.ins clientId).run_append h.app ((Ins.ins clientId).runFrom_singleton hstep)
  guarded := by
    rw [List.flatMap_append]
    exact (Ins.ins clientId).guardedFrom_append h.app h.guarded
      ((Ins.ins clientId).guardedFrom_singleton hG)
  taken b hb := ⟨(h.taken b hb).1.snoc _, (h.taken b hb).2⟩
  stats := h.stats
  written := h.written
  key := h.key
  pending := h.pending
  told := h.told
  current := h.current
  watching := h.watching

/-- A step that the application takes no part in. -/
theorem Sound.quiet (h : Sound clientId past s) {e : ReportEvent} (he : appPart e = []) :
    Sound clientId (past ++ [e]) s := by
  have hpart : (past ++ [e]).flatMap appPart = past.flatMap appPart := by
    rw [List.flatMap_append, List.flatMap_singleton, he, List.append_nil]
  refine { h with app := ?_, guarded := ?_, taken := ?_ }
  · rw [hpart]
    exact h.app
  · rw [hpart]
    exact h.guarded
  · exact fun b hb => ⟨(h.taken b hb).1.snoc e, (h.taken b hb).2⟩

theorem Sound.print (h : Sound clientId past s) (hfits : s.app.g.net.socketCt < 2 ^ 31) :
    Sound clientId past { s with
      stats := some (networkStatsText s.app.g.net), taken := s.taken ++ [s.app] } := by
  refine { h with taken := ?_, stats := ?_, written := ?_ }
  · intro b hb
    rcases List.mem_append.mp hb with hb | hb
    · exact h.taken b hb
    · obtain rfl := List.mem_singleton.mp hb
      exact ⟨⟨_, List.prefix_refl _, h.guarded, h.app⟩, hfits⟩
  · rintro text ⟨rfl⟩
    exact ⟨s.app, List.getLast?_concat, rfl⟩
  · exact fun b hb => List.mem_append_left _ (h.written b hb)

theorem Sound.store (h : Sound clientId past s) {text : List Char} (hstats : s.stats = some text) :
    Sound clientId past { s with
      stats := none, key := some text, events := s.events + 1,
      written := s.written ++ s.taken.getLast?.toList } := by
  obtain ⟨b, hlast, rfl⟩ := h.stats text hstats
  simp only [hlast, Option.toList_some]
  refine { h with
    stats := ?_, written := ?_, key := ?_, pending := ?_, told := ?_, current := ?_ }
  · rintro text ⟨⟩
  · intro d hd
    rcases List.mem_append.mp hd with hd | hd
    · exact h.written d hd
    · obtain rfl := List.mem_singleton.mp hd
      exact List.mem_of_getLast? hlast
  · rw [List.getLast?_concat, Option.map_some]
  · exact fun _ => List.append_ne_nil_of_right_ne_nil _ (List.cons_ne_nil _ _)
  · intro v hv
    obtain ⟨d, hd, heq⟩ := h.told v hv
    exact ⟨d, List.mem_append_left _ hd, heq⟩
  · exact fun hevents => absurd hevents (Nat.succ_ne_zero _)

theorem Sound.watch (h : Sound clientId past s) {events : Nat} (hevents : s.events = events + 1) :
    ∃ v, s.key.bind updateStats = some v ∧ Sound clientId past { s with
      events := events, object := { s.object with stats := some v } } := by
  have hne : s.written ≠ [] := h.pending (by omega)
  obtain ⟨b, hlast⟩ : ∃ b, s.written.getLast? = some b :=
    ⟨_, List.getLast?_eq_some_getLast hne⟩
  have hb : b ∈ s.written := List.mem_of_getLast? hlast
  refine ⟨reported b.g.net, ?_, { h with pending := ?_, told := ?_, current := ?_ }⟩
  · rw [h.key, hlast, Option.map_some, Option.bind_some, h.readable hb]
  · exact fun _ => hne
  · rintro v ⟨rfl⟩
    exact ⟨b, hb, rfl⟩
  · intro _
    rw [hlast, Option.map_some]

theorem Sound.step (h : Sound clientId past s) {e : ReportEvent} (hG : s.orderly e)
    (hs : s.step clientId e = some s') : Sound clientId (past ++ [e]) s' := by
  cases e with
  | app e =>
      obtain ⟨a, hstep, rfl⟩ := Option.map_eq_some_iff.mp hs
      exact h.appStep hG hstep
  | print =>
      simp only [Reporting.step] at hs
      split at hs
      · obtain rfl := Option.some.inj hs
        exact (h.print hG).quiet rfl
      · cases hs
  | heartbeat ok =>
      simp only [Reporting.step] at hs
      split at hs
      · cases hs
      · next text hstats =>
          obtain rfl := Option.some.inj hs
          cases ok with
          | true => exact (h.store hstats).quiet rfl
          | false =>
              have hsound : Sound clientId past { s with stats := none } :=
                { h with stats := fun text htext => nomatch htext }
              exact hsound.quiet rfl
  | watch =>
      simp only [Reporting.step] at hs
      split at hs
      · next events _ hevents =>
          obtain ⟨v, hv, hsound⟩ := h.watch hevents
          rw [hv] at hs
          obtain rfl := Option.some.inj hs
          exact hsound.quiet rfl
      · cases hs

theorem Sound.of_run {es : List ReportEvent}
    (hG : (reporting clientId).Guarded Reporting.orderly es)
    (hrun : (reporting clientId).run es = some s) : Sound clientId es s :=
  (reporting clientId).guarded_past (Sound.init clientId)
    (fun _ _ _ _ _ hguard hs h => h.step hguard hs) hG hrun

end Reporting

/-- A listening socket and an accepted one are served, and the statistics are told. -/
def acceptedTold : List ReportEvent :=
  Ins.acceptedSocket.map .app ++ [.print, .heartbeat true, .watch]

end MagicWand
