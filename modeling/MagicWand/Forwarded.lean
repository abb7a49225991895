import MagicWand.Distro.Tables
import MagicWand.Ins.ListeningPorts

/-!
# The ports that are forwarded to an INS

An INS publishes the ports that its sockets are bound to in XenStore, and `mw_distro_ins.py`,
which watches the key, makes a forwarder for each port that it reads there. It reads what is
published when it gets to the event.

The INS is not shut down, and its object in the script is not replaced.
-/

namespace MagicWand

open Foundation

structure Forwarded where
  app : Ins.PortState := {}
  /-- The events of the key that the watcher has not got to. -/
  events : Nat := 0
  object : Distro.Ins := { ref := 0 }
  /-- The watcher has not ended by an exception. -/
  watching : Bool := true

inductive ForwardedEvent where
  /-- A step of the INS, and what the `ioctl` returns if it publishes. -/
  | app (e : Ins.Event × Int)
  | watch

/-- The INS with the buffer of the source. -/
def portPublisher (clientId : BitVec 16) : System Ins.PortState (Ins.Event × Int) :=
  Ins.publisher Ins.Globals.insListeningPortsMaxLen clientId

namespace Forwarded

variable (clientId : BitVec 16)

def step (s : Forwarded) : ForwardedEvent → Option Forwarded
  | .app e => ((portPublisher clientId).step s.app e).map fun x =>
      { s with
        app := x
        events := if Ins.publishing s.app.ins e.1 && !x.failed then s.events + 1 else s.events }
  | .watch =>
      match s.watching, s.events with
      | true, events + 1 =>
          match Ins.decodePorts s.app.published with
          | none => some { s with events := events, watching := false }
          | some ports =>
              some { s with events := events, object := s.object.setListeningPorts ports }
      | _, _ => none

/-- No buffer is reserved inside a release window, and what the INS publishes is stored. -/
def orderly (s : Forwarded) : ForwardedEvent → Prop
  | .app e => Ins.releasedOnce s.app.ins e.1 ∧ e.2 = 0
  | .watch => True

instance (s : Forwarded) : (e : ForwardedEvent) → Decidable (orderly s e)
  | .app _ => inferInstanceAs (Decidable (_ ∧ _))
  | .watch => instDecidableTrue

/-- What a step is to the INS. -/
def appPart : ForwardedEvent → List (Ins.Event × Int)
  | .app e => [e]
  | .watch => []

/-- The ports of the forwarders. -/
def ports (s : Forwarded) : List Nat := s.object.forwarders.map Distro.PortForwarder.port

end Forwarded

def forwarded (clientId : BitVec 16) : System Forwarded ForwardedEvent where
  init := {}
  step := Forwarded.step clientId

theorem mem_setListeningPorts (x : Distro.Ins) (l : List Nat) (n : Nat) :
    n ∈ (x.setListeningPorts l).forwarders.map Distro.PortForwarder.port ↔
      n ∈ x.forwarders.map Distro.PortForwarder.port ∨ n ∈ l := by
  induction l generalizing x with
  | nil => simp [Distro.Ins.setListeningPorts]
  | cons p l ih =>
      have hone : n ∈ (x.addPort p).forwarders.map Distro.PortForwarder.port ↔
          n ∈ x.forwarders.map Distro.PortForwarder.port ∨ n = p := by
        rw [Distro.Ins.addPort]
        split
        · next hmem =>
            refine ⟨.inl, ?_⟩
            rintro (h | rfl)
            · exact h
            · exact hmem
        · simp
      have hrest := ih (x.addPort p)
      rw [Distro.Ins.setListeningPorts] at hrest ⊢
      rw [List.foldl_cons, hrest, hone, List.mem_cons, or_assoc]

namespace Forwarded

/-- A socket of the INS has been bound to port `n`. -/
def WasBound (clientId : BitVec 16) (past : List ForwardedEvent) (n : Nat) : Prop :=
  ∃ fs y, fs <+: past.flatMap appPart ∧ (portPublisher clientId).run fs = some y ∧
    ∃ p ∈ y.ins.g.boundPorts, p.toNat = n

/-- The forwarders are for the ports that are published, but for the events to come. -/
structure Sound (clientId : BitVec 16) (past : List ForwardedEvent) (s : Forwarded) : Prop where
  app : (portPublisher clientId).run (past.flatMap appPart) = some s.app
  inv : Ins.PortInv clientId s.app
  told : Ins.PortsTold s.app
  tracked : ∃ closed, Ins.Tracked clientId closed s.app.ins
  readable : ∃ ns, Ins.decodePorts s.app.published = some ns ∧ ∀ n ∈ ns, WasBound clientId past n
  current : s.events = 0 → ∀ ns, Ins.decodePorts s.app.published = some ns →
    ∀ n ∈ ns, n ∈ s.ports
  bound : ∀ n ∈ s.ports, WasBound clientId past n
  watching : s.watching = true

variable {clientId : BitVec 16} {past : List ForwardedEvent} {s s' : Forwarded}

theorem WasBound.snoc {n : Nat} (h : WasBound clientId past n) (e : ForwardedEvent) :
    WasBound clientId (past ++ [e]) n := by
  obtain ⟨fs, y, hpre, hrest⟩ := h
  refine ⟨fs, y, hpre.trans ?_, hrest⟩
  rw [List.flatMap_append]
  exact List.prefix_append _ _

theorem Sound.init (clientId : BitVec 16) : Sound clientId [] (forwarded clientId).init where
  app := rfl
  inv := @Ins.portInv_init Ins.Globals.insListeningPortsMaxLen clientId
  told := @Ins.portsTold_init clientId Ins.Globals.insListeningPortsMaxLen
  tracked := ⟨[], Ins.Tracked.init clientId⟩
  readable := ⟨[], rfl, fun _ hn => nomatch hn⟩
  current _ ns hns n hn := by
    cases hns
    cases hn
  bound _ hn := nomatch hn
  watching := rfl

/-- Without a publication the text stays. -/
theorem published_of_quiet {x x' : Ins.PortState} {e : Ins.Event × Int}
    (hstep : (portPublisher clientId).step x e = some x')
    (hquiet : Ins.publishing x.ins e.1 = false) : x'.published = x.published := by
  have hins := Ins.ins_step_of_portStep hstep
  simp only [portPublisher, Ins.publisher, Ins.portStep, hins, hquiet, Bool.false_eq_true,
    if_false] at hstep
  rw [← Option.some.inj hstep]

theorem Sound.appStep (h : Sound clientId past s) {e : Ins.Event × Int} {x : Ins.PortState}
    (hreleased : Ins.releasedOnce s.app.ins e.1) (hrc : e.2 = 0)
    (hstep : (portPublisher clientId).step s.app e = some x) :
    Sound clientId (past ++ [.app e]) { s with
      app := x
      events := if Ins.publishing s.app.ins e.1 && !x.failed then s.events + 1
        else s.events } := by
  obtain ⟨closed, htracked⟩ := h.tracked
  have hins := Ins.ins_step_of_portStep hstep
  have hbind : Ins.bindsInUse s.app.ins e.1 :=
    Ins.bindsInUse_of_tracked htracked h.inv.handlers (by rw [hins]; rfl)
  have htold : Ins.PortsTold x := (Ins.portsTold_step_iff (by decide) hbind h.inv h.told hstep).mpr
    fun _ => ⟨hrc, Ins.fits_boundPorts s.app.ins.g⟩
  have hrun : (portPublisher clientId).run ((past ++ [ForwardedEvent.app e]).flatMap appPart) =
      some x := by
    rw [List.flatMap_append]
    exact (portPublisher clientId).run_append h.app
      ((portPublisher clientId).runFrom_singleton hstep)
  obtain ⟨ns, hns, hbound⟩ := h.readable
  refine
    { app := hrun
      inv := Ins.PortInv.step hbind h.inv hstep
      told := htold
      tracked := ⟨_, Ins.Tracked.step clientId closed _ _ _ hreleased hins htracked⟩
      readable := ?_
      current := ?_
      bound := fun n hn => (h.bound n hn).snoc _
      watching := h.watching }
  · cases hp : Ins.publishing s.app.ins e.1 with
    | false =>
        simp only [published_of_quiet hstep hp]
        exact ⟨ns, hns, fun n hn => (hbound n hn).snoc _⟩
    | true =>
        have hpub := (Ins.step_ports h.inv.handlers hins hbind).1 hp
        obtain ⟨ms, hms, hperm⟩ := htold.current hpub.unmarked
        refine ⟨ms, hms, fun n hn => ⟨_, x, List.prefix_refl _, hrun, ?_⟩⟩
        exact List.mem_map.mp (hperm.mem_iff.mp hn)
  · cases hp : Ins.publishing s.app.ins e.1 with
    | false =>
        simp only [published_of_quiet hstep hp, Bool.false_and, Bool.false_eq_true, if_false]
        exact h.current
    | true =>
        have hpub := (Ins.step_ports h.inv.handlers hins hbind).1 hp
        have hstored : x.failed = false := by
          by_contra hfailed
          have hpending := htold.retried (by simpa using hfailed)
          rw [hpub.unmarked] at hpending
          cases hpending
        simp only [hstored, Bool.not_false, Bool.and_self, if_true]
        exact fun hevents => absurd hevents (Nat.succ_ne_zero _)

theorem Sound.watch (h : Sound clientId past s) (events : Nat) {e : ForwardedEvent}
    (he : appPart e = []) :
    ∃ ns, Ins.decodePorts s.app.published = some ns ∧ Sound clientId (past ++ [e]) { s with
      events := events, object := s.object.setListeningPorts ns } := by
  obtain ⟨ns, hns, hbound⟩ := h.readable
  have hpart : (past ++ [e]).flatMap appPart = past.flatMap appPart := by
    rw [List.flatMap_append, List.flatMap_singleton, he, List.append_nil]
  refine ⟨ns, hns,
    { app := hpart ▸ h.app
      inv := h.inv
      told := h.told
      tracked := h.tracked
      readable := ⟨ns, hns, fun n hn => (hbound n hn).snoc e⟩
      current := fun _ ms hms n hn => ?_
      bound := fun n hn => ?_
      watching := h.watching }⟩
  · obtain rfl := Option.some.inj (hns.symm.trans hms)
    exact (mem_setListeningPorts s.object ns n).mpr (.inr hn)
  · rcases (mem_setListeningPorts s.object ns n).mp hn with hn | hn
    · exact (h.bound n hn).snoc e
    · exact (hbound n hn).snoc e

theorem Sound.step (h : Sound clientId past s) {e : ForwardedEvent} (hG : s.orderly e)
    (hs : s.step clientId e = some s') : Sound clientId (past ++ [e]) s' := by
  cases e with
  | app e =>
      obtain ⟨x, hstep, rfl⟩ := Option.map_eq_some_iff.mp hs
      exact h.appStep hG.1 hG.2 hstep
  | watch =>
      simp only [Forwarded.step] at hs
      split at hs
      · next events _ _ =>
          obtain ⟨ns, hns, hsound⟩ := h.watch events (e := .watch) rfl
          rw [hns] at hs
          obtain rfl := Option.some.inj hs
          exact hsound
      · cases hs

theorem Sound.of_run {es : List ForwardedEvent}
    (hG : (forwarded clientId).Guarded Forwarded.orderly es)
    (hrun : (forwarded clientId).run es = some s) : Sound clientId es s :=
  (forwarded clientId).guarded_past (Sound.init clientId)
    (fun _ _ _ _ _ hguard hs h => h.step hguard hs) hG hrun

end Forwarded

/-- In every run the watcher can read the ports of the INS, and makes forwarders only for ports
that a socket of the INS has been bound to. When no change is left to publish and no event of
the key is to come, there is a forwarder for each port that a socket of the INS is bound to. -/
theorem bound_ports_forwarded (clientId : BitVec 16) (es : List ForwardedEvent)
    (hG : (forwarded clientId).Guarded Forwarded.orderly es) (s : Forwarded)
    (hrun : (forwarded clientId).run es = some s) :
    s.watching = true ∧
    (∀ n ∈ s.ports, ∃ fs y, fs <+: es.flatMap Forwarded.appPart ∧
      (portPublisher clientId).run fs = some y ∧ ∃ p ∈ y.ins.g.boundPorts, p.toNat = n) ∧
    (s.events = 0 → s.app.ins.g.net.pendingPortChange = false →
      ∀ p ∈ s.app.ins.g.boundPorts, p.toNat ∈ s.ports) := by
  have h : s.Sound clientId es := .of_run hG hrun
  refine ⟨h.watching, h.bound, fun hevents hpending p hp => ?_⟩
  obtain ⟨ns, hns, hperm⟩ := h.told.current hpending
  exact h.current hevents ns hns _ (hperm.mem_iff.mpr (List.mem_map_of_mem hp))

/-- A socket is created, bound and listened on, and the port is told. -/
def boundTold : List ForwardedEvent := Ins.bindEvents.map (fun e => .app (e, 0)) ++ [.watch]

theorem bound_ports_forwarded_boundTold :
    ∃ s, (forwarded 1).run boundTold = some s ∧ s.app.ins.g.boundPorts = [80] ∧
      80 ∈ s.ports := by
  have hsome : ((forwarded 1).run boundTold).map (fun s =>
      (s.app.ins.g.boundPorts, s.events, s.app.ins.g.net.pendingPortChange)) =
      some ([80], 0, false) := by
    decide +kernel
  obtain ⟨s, hs, hobs⟩ := Option.map_eq_some_iff.mp hsome
  simp only [Prod.mk.injEq] at hobs
  obtain ⟨hports, hevents, hpending⟩ := hobs
  have hall := (bound_ports_forwarded 1 boundTold (by decide +kernel) s hs).2.2 hevents hpending
  exact ⟨s, hs, hports, hall 80 (by rw [hports]; exact List.mem_singleton_self _)⟩

end MagicWand
