import MagicWand.Foundation.Transition
import MagicWand.Monitor.Feature

/-!
# The connections of the netflow channel

`mwcomms-netflow.c`. The monitor thread accepts connections, polls them for
feature requests and purges those that have ended; every thread that emits a
netflow record writes it to all of them. A step here is one access to the list,
one send or one receive, so that the steps of the threads interleave as their
locks allow: the list does not change while it is read, and nobody writes to it
while the monitor purges it.

A channel keeps a history of what was written to it. The id and the peer of a
channel, which are only printed, are left out.
-/

namespace MagicWand.Monitor.Connections

open Foundation Bytes

def eagain : Int := 11

def efault : Int := 14

def epipe : Int := 32

/-! ## Channels -/

/-- A message that was handed to `sock_sendmsg`, and how many of its bytes were
taken. -/
structure Written where
  message : List Byte
  taken : Nat
deriving DecidableEq, Repr

/-- `mwcomms_netflow_channel_t`. -/
structure NetflowChannel where
  active : Bool := true
  flags : BitVec 32 := 0
  log : List Written := []
deriving DecidableEq, Repr

/-- How `import_single_range` and `sock_sendmsg` end. -/
inductive SendOutcome where
  | notImported
  | returned (rc : Int)
deriving DecidableEq, Repr

/-- How `import_single_range` and `sock_recvmsg` end; a receive that returns 0 has
received no bytes. -/
inductive ReadOutcome where
  | notImported
  | failed (rc : Int)
  | received (bs : List Byte)
deriving DecidableEq, Repr

namespace NetflowChannel

/-- Monitoring data is sent to the channel. -/
def monitored (c : NetflowChannel) : Bool := c.flags &&& netflowChNoMonitor == 0

end NetflowChannel

/-- `mw_netflow_write_one`: return code, and the channel. -/
def mwNetflowWriteOne (c : NetflowChannel) (message : List Byte) :
    SendOutcome → Int × NetflowChannel
  | .notImported => (-efault, c)
  | .returned rc =>
      let c := { c with log := c.log ++ [⟨message, rc.toNat⟩] }
      if rc = message.length then (0, c)
      else if 0 < rc then (-eagain, c)
      else (rc, { c with active := false })

/-- `mw_netflow_write_all`; `outcomes i` is how the send to channel `i` ends. -/
def mwNetflowWriteAll (message : List Byte) (outcomes : Nat → SendOutcome) (i : Nat) (rc : Int) :
    List NetflowChannel → Int × List NetflowChannel
  | [] => (rc, [])
  | c :: cs =>
      let (rc, c) :=
        if c.monitored then
          let (rc2, c) := mwNetflowWriteOne c message (outcomes i)
          (if rc2 ≠ 0 then rc2 else rc, c)
        else (rc, c)
      let (rc, cs) := mwNetflowWriteAll message outcomes (i + 1) rc cs
      (rc, c :: cs)

/-- `mw_netflow_read`: what was read or the return code, and the channel. -/
def mwNetflowRead (c : NetflowChannel) : ReadOutcome → Except Int (List Byte) × NetflowChannel
  | .notImported => (.error (-efault), c)
  | .failed rc => (.error rc, if rc = -eagain then c else { c with active := false })
  | .received [] => (.error (-epipe), { c with active := false })
  | .received bs => (.ok bs, c)

/-! ## The component -/

/-- Where the monitor thread is. In `polling` and what follows from it the thread
holds the lock of the list for reading, in `purging` and `unlinking` for writing. -/
inductive MonitorPc where
  | top
  | accepting
  /-- In `mw_netflow_add_conn`, with the connection counted. -/
  | naming
  | linking
  | polling (i : Nat)
  /-- In the loop of `mw_netflow_handle_feat_req`. -/
  | reading (i : Nat)
  | responding (i : Nat) (response : List Byte)
  | purging (i : Nat)
  /-- The connection is not counted any more. -/
  | unlinking (i : Nat)
  | exited
deriving DecidableEq, Repr

namespace MonitorPc

/-- Holds the lock of the list for writing. -/
def writesList : MonitorPc → Bool
  | purging _ | unlinking _ => true
  | _ => false

/-- Holds the lock of the list. -/
def holdsList : MonitorPc → Bool
  | polling _ | reading _ | responding .. => true
  | pc => pc.writesList

end MonitorPc

/-- `mwcomms_netflow_state_t` and the monitor thread. `forgotten` counts the
connections that were counted and of which no list entry was made or is left. -/
structure NetflowState where
  connList : List NetflowChannel := []
  activeConns : Int := 0
  exitPending : Bool := false
  finished : Bool := false
  monitor : MonitorPc := .top
  forgotten : Nat := 0

inductive AcceptOutcome where
  | accepted (allocated : Bool)
  | nothing
  | failed
deriving DecidableEq, Repr

inductive PollOutcome where
  | hangup
  | readable
  | quiet
deriving DecidableEq, Repr

inductive Event where
  /-- A thread in `mw_netflow_write_all` gets to channel `i`. -/
  | record (i : Nat) (message : List Byte) (o : SendOutcome)
  | top
  | accept (o : AcceptOutcome)
  | getname (ok : Bool)
  | link
  | poll (o : PollOutcome)
  | read (o : ReadOutcome) (calls : Calls)
  | respond (o : SendOutcome)
  | purge
  | unlink
  /-- `mw_netflow_fini`, up to its wait for the monitor. -/
  | fini
  /-- The rest of `mw_netflow_fini`, when the wait is over or has timed out. -/
  | drain

/-- `sock_sendmsg` takes no more than there is. -/
def SendOutcome.possible (o : SendOutcome) (message : List Byte) : Bool :=
  match o with
  | .notImported => true
  | .returned rc => decide (rc ≤ message.length)

/-- `mw_netflow_consumer_exists`. -/
def mwNetflowConsumerExists (s : NetflowState) : Bool := decide (0 < s.activeConns)

namespace NetflowState

/-- Write to channel `i`: return code, and the state. -/
def writeTo (s : NetflowState) (i : Nat) (c : NetflowChannel) (message : List Byte)
    (o : SendOutcome) : Int × NetflowState :=
  let (rc, c) := mwNetflowWriteOne c message o
  (rc, { s with connList := s.connList.set i c })

/-- The event is not what the thread does next. -/
def step (s : NetflowState) : Event → Option NetflowState
  | .record i message o =>
      match s.connList[i]? with
      | some c =>
          if c.monitored && !s.monitor.writesList && o.possible message then
            some (s.writeTo i c message o).2
          else none
      | none => none
  | .top =>
      match s.monitor with
      | .top => some { s with monitor := if s.exitPending then .exited else .accepting }
      | _ => none
  | .accept o =>
      match s.monitor with
      | .accepting =>
          -- afterwards the listening socket is gone
          if s.finished then none
          else match o with
            | .accepted true =>
                some { s with activeConns := s.activeConns + 1, monitor := .naming }
            | .accepted false => some { s with monitor := .exited }
            | .nothing => some { s with monitor := .polling 0 }
            | .failed => some { s with monitor := .exited }
      | _ => none
  | .getname ok =>
      match s.monitor with
      | .naming =>
          if ok then some { s with monitor := .linking }
          -- the channel is not freed, and the monitor gives up
          else some { s with monitor := .exited, forgotten := s.forgotten + 1 }
      | _ => none
  | .link =>
      match s.monitor with
      | .linking => some { s with connList := {} :: s.connList, monitor := .polling 0 }
      | _ => none
  | .poll o =>
      match s.monitor with
      | .polling i =>
          match s.connList[i]? with
          | none => some { s with monitor := .purging 0 }
          | some c =>
              match o with
              | .hangup =>
                  some { s with
                    connList := s.connList.set i { c with active := false }
                    monitor := .polling (i + 1) }
              | .readable => some { s with monitor := .reading i }
              | .quiet => some { s with monitor := .polling (i + 1) }
      | _ => none
  | .read o calls =>
      match s.monitor with
      | .reading i =>
          match s.connList[i]? with
          | none => none
          | some c =>
              let (r, c) := mwNetflowRead c o
              let s := { s with connList := s.connList.set i c, monitor := .polling (i + 1) }
              match r with
              | .error _ => some s
              | .ok bs =>
                  match mwNetflowHandleFeatReq calls c.flags bs with
                  | none => some s
                  | some (p, response) =>
                      some { s with
                        connList := s.connList.set i { c with flags := p.channelFlags }
                        monitor := .responding i response }
      | _ => none
  | .respond o =>
      match s.monitor with
      | .responding i response =>
          match s.connList[i]? with
          | none => none
          | some c =>
              if o.possible response then
                let (rc, s) := s.writeTo i c response o
                some { s with monitor := if rc ≠ 0 then .polling (i + 1) else .reading i }
              else none
      | _ => none
  | .purge =>
      match s.monitor with
      | .purging i =>
          match s.connList[i]? with
          -- the end of the round, with the sleep
          | none => some { s with monitor := .top }
          | some c =>
              if c.active then some { s with monitor := .purging (i + 1) }
              else some { s with activeConns := s.activeConns - 1, monitor := .unlinking i }
      | _ => none
  | .unlink =>
      match s.monitor with
      | .unlinking i => some { s with connList := s.connList.eraseIdx i, monitor := .purging i }
      | _ => none
  | .fini => if s.exitPending then none else some { s with exitPending := true }
  | .drain =>
      if s.exitPending && !s.finished && !s.monitor.holdsList then
        some { s with
          connList := []
          finished := true
          forgotten := s.forgotten + s.connList.length }
      else none

end NetflowState

/-- The component from `mw_netflow_init` on. -/
def netflow : System NetflowState Event where
  init := {}
  step := NetflowState.step

/-! ## One round of `mw_netflow_write_all` -/

/-- The writes that `mw_netflow_write_all` makes from channel `i` on. -/
def records (message : List Byte) (outcomes : Nat → SendOutcome) (i : Nat) :
    List NetflowChannel → List Event
  | [] => []
  | c :: cs =>
      if c.monitored then .record i message (outcomes i) :: records message outcomes (i + 1) cs
      else records message outcomes (i + 1) cs

/-- `mw_netflow_write_all` is a run of its writes. -/
theorem runFrom_records {message : List Byte} {outcomes : Nat → SendOutcome}
    (hpossible : ∀ i, (outcomes i).possible message = true) {s : NetflowState}
    (hlock : s.monitor.writesList = false) {before cs : List NetflowChannel}
    (hlist : s.connList = before ++ cs) (rc : Int) :
    netflow.runFrom s (records message outcomes before.length cs) =
      some { s with
        connList := before ++ (mwNetflowWriteAll message outcomes before.length rc cs).2 } := by
  induction cs generalizing s before rc with
  | nil =>
      have hsame : s = { s with connList := before ++ [] } := by rw [← hlist]
      exact congrArg some hsame
  | cons c cs ih =>
      have hnext : ∀ (c' : NetflowChannel) (rc' : Int),
          netflow.runFrom { s with connList := before ++ c' :: cs }
              (records message outcomes (before.length + 1) cs) =
            some { s with
              connList := before ++ c' ::
                (mwNetflowWriteAll message outcomes (before.length + 1) rc' cs).2 } := by
        intro c' rc'
        have h := @ih { s with connList := before ++ c' :: cs } hlock (before ++ [c']) (by simp) rc'
        simpa using h
      by_cases hmon : c.monitored
      · have hget : s.connList[before.length]? = some c := by simp [hlist]
        have hstep : netflow.step s (.record before.length message (outcomes before.length)) =
            some { s with
              connList := before ++
                (mwNetflowWriteOne c message (outcomes before.length)).2 :: cs } := by
          simp [netflow, NetflowState.step, hmon, hlock, hpossible, NetflowState.writeTo, hlist]
        simp only [records, hmon, if_true, System.runFrom_cons, hstep, Option.bind_some,
          mwNetflowWriteAll]
        exact hnext _ _
      · have hsame : s = { s with connList := before ++ c :: cs } := by rw [← hlist]
        simp only [records, hmon, mwNetflowWriteAll]
        rw [hsame]
        exact hnext c rc

/-! ## What a step does -/

namespace MonitorPc

/-- A connection is counted and not in the list yet. -/
def entering : MonitorPc → Nat
  | naming | linking => 1
  | _ => 0

/-- A channel is in the list and not counted any more. -/
def leaving : MonitorPc → Nat
  | unlinking _ => 1
  | _ => 0

end MonitorPc

namespace NetflowState

/-- The message that an event writes, and the channel that it goes to. -/
def writing (s : NetflowState) : Event → Option (Nat × List Byte × SendOutcome)
  | .record i message o => some (i, message, o)
  | .respond o =>
      match s.monitor with
      | .responding i response => some (i, response, o)
      | _ => none
  | _ => none

/-- The steps, by what they do to the list and to the count. -/
inductive Move (s : NetflowState) : Event → NetflowState → Prop where
  /-- A write to a channel; the monitor may go on behind it. -/
  | write {e i message o c pc} (hwrite : s.writing e = some (i, message, o))
      (hget : s.connList[i]? = some c) (hpossible : o.possible message = true)
      (hpc : pc = s.monitor ∨ s.monitor.entering = 0 ∧ s.monitor.leaving = 0 ∧
        pc.entering = 0 ∧ pc.leaving = 0) :
      Move s e { (s.writeTo i c message o).2 with monitor := pc }
  /-- The monitor goes on. -/
  | go {e pc} (hwrite : s.writing e = none) (hentering : pc.entering = s.monitor.entering)
      (hleaving : pc.leaving = 0 ∧ s.monitor.leaving = 0) : Move s e { s with monitor := pc }
  /-- The monitor goes on, with a channel that may have ended or got other flags. -/
  | touch {e i c c' pc} (hwrite : s.writing e = none) (hget : s.connList[i]? = some c)
      (hlog : c'.log = c.log) (hactive : c'.active = true → c.active = true)
      (hpc : s.monitor.entering = 0 ∧ s.monitor.leaving = 0 ∧ pc.entering = 0 ∧ pc.leaving = 0) :
      Move s e { s with connList := s.connList.set i c', monitor := pc }
  | accepted (hpc : s.monitor = .accepting) :
      Move s (.accept (.accepted true)) { s with
        activeConns := s.activeConns + 1
        monitor := .naming }
  | nameless (hpc : s.monitor = .naming) :
      Move s (.getname false) { s with monitor := .exited, forgotten := s.forgotten + 1 }
  | link (hpc : s.monitor = .linking) :
      Move s .link { s with connList := {} :: s.connList, monitor := .polling 0 }
  | uncount {i c} (hpc : s.monitor = .purging i) (hget : s.connList[i]? = some c) :
      Move s .purge { s with activeConns := s.activeConns - 1, monitor := .unlinking i }
  | unlink {i} (hpc : s.monitor = .unlinking i) :
      Move s .unlink { s with connList := s.connList.eraseIdx i, monitor := .purging i }
  | fini : Move s .fini { s with exitPending := true }
  | drain (hlock : s.monitor.holdsList = false) :
      Move s .drain { s with
        connList := []
        finished := true
        forgotten := s.forgotten + s.connList.length }

/-- A read writes nothing, and does not bring a channel back. -/
theorem read_keeps (c : NetflowChannel) (o : ReadOutcome) : (mwNetflowRead c o).2.log = c.log ∧
    ((mwNetflowRead c o).2.active = true → c.active = true) := by
  cases o with
  | notImported => exact ⟨rfl, id⟩
  | failed rc =>
      unfold mwNetflowRead
      dsimp only
      split
      · exact ⟨rfl, id⟩
      · exact ⟨rfl, fun h => nomatch h⟩
  | received bs =>
      cases bs with
      | nil => exact ⟨rfl, fun h => nomatch h⟩
      | cons b bs => exact ⟨rfl, id⟩

variable {s s' : NetflowState}

theorem step_poll (o : PollOutcome) (h : s.step (.poll o) = some s') : Move s (.poll o) s' := by
  simp only [step] at h
  split at h
  · rename_i i hpc
    have hquiet : s.monitor.entering = 0 ∧ s.monitor.leaving = 0 := by
      rw [hpc]
      exact ⟨rfl, rfl⟩
    split at h
    · cases h
      exact .go rfl hquiet.1.symm ⟨rfl, hquiet.2⟩
    · rename_i c hget
      split at h <;> cases h
      · exact .touch rfl hget rfl (fun h => nomatch h) ⟨hquiet.1, hquiet.2, rfl, rfl⟩
      · exact .go rfl hquiet.1.symm ⟨rfl, hquiet.2⟩
      · exact .go rfl hquiet.1.symm ⟨rfl, hquiet.2⟩
  · cases h

theorem step_read (o : ReadOutcome) (calls : Calls) (h : s.step (.read o calls) = some s') :
    Move s (.read o calls) s' := by
  simp only [step] at h
  split at h
  · rename_i i hpc
    have hquiet : s.monitor.entering = 0 ∧ s.monitor.leaving = 0 := by
      rw [hpc]
      exact ⟨rfl, rfl⟩
    split at h
    · cases h
    · rename_i c hget
      obtain ⟨hlog, hactive⟩ := read_keeps c o
      split at h
      · cases h
        exact .touch rfl hget hlog hactive ⟨hquiet.1, hquiet.2, rfl, rfl⟩
      · split at h <;> cases h
        · exact .touch rfl hget hlog hactive ⟨hquiet.1, hquiet.2, rfl, rfl⟩
        · -- the channel is stored after the read, and again with the flags of the request
          rw [List.set_set]
          exact .touch rfl hget hlog hactive ⟨hquiet.1, hquiet.2, rfl, rfl⟩
  · cases h

theorem step_respond (o : SendOutcome) (h : s.step (.respond o) = some s') :
    Move s (.respond o) s' := by
  simp only [step] at h
  split at h
  · rename_i i response hpc
    have hwrite : s.writing (.respond o) = some (i, response, o) := by simp only [writing, hpc]
    split at h
    · cases h
    · rename_i c hget
      split at h
      · rename_i hpossible
        cases h
        refine .write hwrite hget hpossible (.inr ?_)
        rw [hpc]
        refine ⟨rfl, rfl, ?_⟩
        split <;> exact ⟨rfl, rfl⟩
      · cases h
  · cases h

theorem step_purge (h : s.step .purge = some s') : Move s .purge s' := by
  simp only [step] at h
  split at h
  · rename_i i hpc
    have hquiet : s.monitor.entering = 0 ∧ s.monitor.leaving = 0 := by
      rw [hpc]
      exact ⟨rfl, rfl⟩
    split at h
    · cases h
      exact .go rfl hquiet.1.symm ⟨rfl, hquiet.2⟩
    · rename_i c hget
      split at h <;> cases h
      · exact .go rfl hquiet.1.symm ⟨rfl, hquiet.2⟩
      · exact .uncount hpc hget
  · cases h

theorem step_move {e : Event} (h : s.step e = some s') : Move s e s' := by
  cases e with
  | poll o => exact step_poll o h
  | read o calls => exact step_read o calls h
  | respond o => exact step_respond o h
  | purge => exact step_purge h
  | record i message o =>
      simp only [step] at h
      split at h
      · rename_i c hget
        split at h
        · rename_i hif
          cases h
          rw [Bool.and_eq_true] at hif
          exact .write rfl hget hif.2 (.inl rfl)
        · cases h
      · cases h
  | top =>
      simp only [step] at h
      split at h
      · rename_i hpc
        cases h
        refine .go rfl ?_ ?_
        · rw [hpc]
          split <;> rfl
        · rw [hpc]
          split <;> exact ⟨rfl, rfl⟩
      · cases h
  | accept o =>
      simp only [step] at h
      split at h
      · rename_i hpc
        have hgo : ∀ pc : MonitorPc, pc.entering = 0 → pc.leaving = 0 → ∀ o,
            Move s (.accept o) { s with monitor := pc } := by
          intro pc hentering hleaving o
          refine .go rfl ?_ ⟨hleaving, ?_⟩ <;> rw [hpc]
          · exact hentering
          · rfl
        split at h
        · cases h
        · split at h <;> cases h
          · exact .accepted hpc
          · exact hgo _ rfl rfl _
          · exact hgo _ rfl rfl _
          · exact hgo _ rfl rfl _
      · cases h
  | getname ok =>
      simp only [step] at h
      split at h
      · rename_i hpc
        cases ok with
        | true =>
            cases h
            refine .go rfl ?_ ⟨rfl, ?_⟩ <;> rw [hpc] <;> rfl
        | false =>
            cases h
            exact .nameless hpc
      · cases h
  | link =>
      simp only [step] at h
      split at h
      · rename_i hpc
        cases h
        exact .link hpc
      · cases h
  | unlink =>
      simp only [step] at h
      split at h
      · rename_i i hpc
        cases h
        exact .unlink hpc
      · cases h
  | fini =>
      simp only [step] at h
      split at h <;> cases h
      exact .fini
  | drain =>
      simp only [step] at h
      split at h
      · rename_i hif
        cases h
        simp only [Bool.and_eq_true, Bool.not_eq_true'] at hif
        exact .drain hif.2
      · cases h

end NetflowState

/-! ## Whole messages -/

namespace Written

def bytes (w : Written) : List Byte := w.message.take w.taken

/-- A part of the message was taken. -/
def Cut (w : Written) : Prop := 0 < w.taken ∧ w.taken < w.message.length

instance (w : Written) : Decidable w.Cut := inferInstanceAs (Decidable (_ ∧ _))

end Written

namespace NetflowChannel

/-- The bytes put on the channel. -/
def sent (c : NetflowChannel) : List Byte := c.log.flatMap Written.bytes

/-- The messages written to it. -/
def messages (c : NetflowChannel) : List (List Byte) := c.log.map Written.message

/-- An active channel carries whole messages, and the channel is not used after a
message was cut short. -/
structure Framed (c : NetflowChannel) : Prop where
  whole : c.active = true → c.sent = c.messages.flatten
  last : ∀ before w after, c.log = before ++ w :: after → w.Cut → after = []

/-- No message has been cut short on the channel, nor is this one while it is active. -/
def Careful (c : NetflowChannel) (message : List Byte) : SendOutcome → Prop
  | .notImported => True
  | .returned rc =>
      (∀ w ∈ c.log, ¬ w.Cut) ∧ (c.active = true → ¬ (0 < rc ∧ rc < message.length))

instance (c : NetflowChannel) (message : List Byte) (o : SendOutcome) :
    Decidable (c.Careful message o) :=
  match o with
  | .notImported => inferInstanceAs (Decidable True)
  | .returned _ => inferInstanceAs (Decidable (_ ∧ _))

variable {c : NetflowChannel}

theorem framed_new : ({} : NetflowChannel).Framed where
  whole _ := rfl
  last before w after h := by
    have hlen := congrArg List.length h
    simp at hlen

/-- A channel stays framed as long as nothing is written to it. -/
theorem Framed.keep {c' : NetflowChannel} (h : c.Framed) (hlog : c'.log = c.log)
    (hactive : c'.active = true → c.active = true) : c'.Framed where
  whole hnow := by
    rw [sent, messages, hlog]
    exact h.whole (hactive hnow)
  last := by
    rw [hlog]
    exact h.last

/-- One more message is only the last one cut short if none was before. -/
theorem last_append_iff {log : List Written} {w : Written}
    (h : ∀ before v after, log = before ++ v :: after → v.Cut → after = []) :
    (∀ before v after, log ++ [w] = before ++ v :: after → v.Cut → after = []) ↔
      ∀ v ∈ log, ¬ v.Cut := by
  constructor
  · intro hnew v hv hcut
    obtain ⟨before, after, rfl⟩ := List.append_of_mem hv
    have hnil := hnew before v (after ++ [w]) (by simp) hcut
    simp at hnil
  · intro hnone before v after heq hcut
    rcases List.eq_nil_or_concat after with rfl | ⟨init, last, rfl⟩
    · rfl
    · -- the message that was cut is one of the earlier ones
      have hsplit : log ++ [w] = (before ++ v :: init) ++ [last] := by simpa using heq
      obtain ⟨rfl, -⟩ := List.append_inj' hsplit rfl
      exact absurd hcut (hnone v (by simp))

/-- What a write leaves of the framing of a channel. -/
theorem framed_writeOne_iff (h : c.Framed) {message : List Byte} {o : SendOutcome}
    (hpossible : o.possible message = true) :
    (mwNetflowWriteOne c message o).2.Framed ↔ c.Careful message o := by
  cases o with
  | notImported => exact iff_of_true h trivial
  | returned rc =>
      have hle : rc ≤ message.length := of_decide_eq_true hpossible
      have hlast := last_append_iff (w := ⟨message, rc.toNat⟩) h.last
      unfold mwNetflowWriteOne Careful
      simp only
      split
      · rename_i hwhole
        constructor
        · intro hnew
          exact ⟨hlast.mp hnew.last, fun _ => by omega⟩
        · rintro ⟨hnone, -⟩
          refine ⟨?_, hlast.mpr hnone⟩
          intro hactive
          have hold := h.whole hactive
          simp only [sent, messages] at hold ⊢
          simp [hold, Written.bytes, hwhole]
      · rename_i hshort
        split
        · rename_i hpos
          constructor
          · intro hnew
            refine ⟨hlast.mp hnew.last, ?_⟩
            rintro hactive -
            have hold := h.whole hactive
            have hnow := hnew.whole hactive
            simp only [sent, messages] at hold hnow
            simp only [List.flatMap_append, List.map_append, List.flatten_append, hold,
              List.append_cancel_left_eq] at hnow
            have hlen := congrArg List.length hnow
            simp [Written.bytes] at hlen
            omega
          · rintro ⟨hnone, hcut⟩
            refine ⟨?_, hlast.mpr hnone⟩
            intro hactive
            exact absurd ⟨hpos, by omega⟩ (hcut hactive)
        · rename_i hpos
          constructor
          · intro hnew
            exact ⟨hlast.mp hnew.last, fun _ => by omega⟩
          · rintro ⟨hnone, -⟩
            refine ⟨?_, hlast.mpr hnone⟩
            intro hactive
            cases hactive

end NetflowChannel

namespace NetflowState

/-- Every channel in the list is framed. -/
def Framed (s : NetflowState) : Prop := ∀ c ∈ s.connList, c.Framed

/-- The write of an event, if it makes one, is careful. -/
def Careful (s : NetflowState) (e : Event) : Prop :=
  ∀ w ∈ s.writing e, ∀ c ∈ s.connList[w.1]?, c.Careful w.2.1 w.2.2

instance (s : NetflowState) (e : Event) : Decidable (s.Careful e) :=
  inferInstanceAs (Decidable (∀ w ∈ s.writing e, _))

variable {s s' : NetflowState}

theorem Framed.set (h : s.Framed) {c : NetflowChannel} (hc : c.Framed) (i : Nat) :
    ∀ d ∈ s.connList.set i c, d.Framed := by
  intro d hd
  rcases List.mem_or_eq_of_mem_set hd with hmem | rfl
  · exact h d hmem
  · exact hc

/-- A write to one channel leaves the others as they are. -/
theorem framed_writeTo_iff (h : s.Framed) {i : Nat} {c : NetflowChannel}
    (hget : s.connList[i]? = some c) {message : List Byte} {o : SendOutcome}
    (hpossible : o.possible message = true) :
    (∀ d ∈ (s.writeTo i c message o).2.connList, d.Framed) ↔ c.Careful message o := by
  obtain ⟨hlt, -⟩ := List.getElem?_eq_some_iff.mp hget
  have hc : c.Framed := h c (List.mem_of_getElem? hget)
  rw [← NetflowChannel.framed_writeOne_iff hc hpossible]
  constructor
  · intro hnew
    exact hnew _ (List.mem_set hlt _)
  · intro hnew
    exact h.set hnew i

theorem careful_iff {e : Event} {i : Nat} {message : List Byte} {o : SendOutcome}
    (hwrite : s.writing e = some (i, message, o)) {c : NetflowChannel}
    (hget : s.connList[i]? = some c) : s.Careful e ↔ c.Careful message o := by
  simp [Careful, hwrite, hget]

theorem careful_of_not_writing {e : Event} (h : s.writing e = none) : s.Careful e := by
  simp [Careful, h]

/-- A step leaves all channels framed exactly if its write was careful. -/
theorem framed_step_iff (h : s.Framed) {e : Event} (hstep : s.step e = some s') :
    s'.Framed ↔ s.Careful e := by
  cases step_move hstep with
  | write hwrite hget hpossible =>
      rw [careful_iff hwrite hget]
      exact framed_writeTo_iff h hget hpossible
  | go hwrite => exact iff_of_true h (careful_of_not_writing hwrite)
  | touch hwrite hget hlog hactive =>
      have hc := (h _ (List.mem_of_getElem? hget)).keep hlog hactive
      exact iff_of_true (h.set hc _) (careful_of_not_writing hwrite)
  | link =>
      refine iff_of_true ?_ (careful_of_not_writing rfl)
      intro c hc
      rcases List.mem_cons.mp hc with rfl | hmem
      · exact NetflowChannel.framed_new
      · exact h c hmem
  | unlink =>
      refine iff_of_true ?_ (careful_of_not_writing rfl)
      intro c hc
      exact h c (List.mem_of_mem_eraseIdx hc)
  | drain =>
      refine iff_of_true ?_ (careful_of_not_writing rfl)
      intro c hc
      cases hc
  | accepted => exact iff_of_true h (careful_of_not_writing rfl)
  | nameless => exact iff_of_true h (careful_of_not_writing rfl)
  | uncount => exact iff_of_true h (careful_of_not_writing rfl)
  | fini => exact iff_of_true h (careful_of_not_writing rfl)

theorem framed_init : ({} : NetflowState).Framed := fun _ hc => nomatch hc

end NetflowState

/-- In a run every channel in the list stays framed exactly if no send on an active
channel is partial and no channel is written to after a partial send. -/
theorem outbound_framed_iff (es : List Event) (s : NetflowState)
    (hrun : netflow.run es = some s) :
    (∀ past t, past <+: es → netflow.run past = some t → t.Framed) ↔
      netflow.Guarded NetflowState.Careful es :=
  @System.guardedFrom_iff_always _ _ netflow (fun _ _ => True) _ (fun _ => True) _
    (fun _ _ _ _ _ _ => trivial)
    (fun _ _ _ _ _ h hstep => NetflowState.framed_step_iff h hstep) es _ s
    (netflow.guardedFrom_true es _) hrun trivial NetflowState.framed_init

/-- A consumer connects. -/
def connecting : List Event := [.top, .accept (.accepted true), .getname true, .link]

/-- A record is written whole to the only consumer. -/
theorem outbound_framed_iff_record :
    ∃ s, netflow.run (connecting ++ [.record 0 [1, 2] (.returned 2)]) = some s ∧
      ∀ past t, past <+: connecting ++ [.record 0 [1, 2] (.returned 2)] →
        netflow.run past = some t → t.Framed := by
  refine ⟨_, rfl, ?_⟩
  exact (outbound_framed_iff _ _ rfl).mpr (by decide +kernel)

/-- One of the two bytes of a record is taken: the channel stays active, and the next
record follows that byte. -/
theorem outbound_cut_short :
    (netflow.run (connecting ++
      [.record 0 [1, 2] (.returned 1), .record 0 [3, 4] (.returned 2)])).map
        (fun s => s.connList.map fun c => (c.active, c.sent)) = some [(true, [1, 3, 4])] ∧
      ¬ ∀ past t, past <+: connecting ++ [.record 0 [1, 2] (.returned 1),
          .record 0 [3, 4] (.returned 2)] → netflow.run past = some t → t.Framed := by
  refine ⟨by decide +kernel, ?_⟩
  intro h
  have hframed := h _ _ (List.prefix_refl _) rfl _ List.mem_cons_self
  exact absurd (hframed.whole rfl) (by decide)

/-! ## The number of connections -/

namespace NetflowState

/-- The count is the number of channels, and tells whether there is one. -/
structure Counted (s : NetflowState) : Prop where
  count : s.activeConns = s.connList.length
  consumer : mwNetflowConsumerExists s = true ↔ s.connList ≠ []

/-- Where the count and the list differ. -/
structure Accounted (s : NetflowState) : Prop where
  balance : s.activeConns + s.monitor.leaving =
    s.connList.length + s.forgotten + s.monitor.entering
  inList : ∀ i, s.monitor = .unlinking i → i < s.connList.length

variable {s s' : NetflowState}

theorem counted_iff : s.Counted ↔ s.activeConns = s.connList.length := by
  constructor
  · exact Counted.count
  · intro h
    refine ⟨h, ?_⟩
    unfold mwNetflowConsumerExists
    rw [decide_eq_true_eq, h, ← List.length_pos_iff]
    exact Int.natCast_pos

/-- A step that changes neither the count nor the number of channels, nor makes or
ends a difference between them. -/
theorem Accounted.same (h : s.Accounted) (hcount : s'.activeConns = s.activeConns)
    (hlist : s'.connList.length = s.connList.length)
    (hforgotten : s'.forgotten = s.forgotten)
    (hentering : s'.monitor.entering = s.monitor.entering)
    (hleaving : s'.monitor.leaving = s.monitor.leaving)
    (hplace : ∀ i, s'.monitor = .unlinking i → s.monitor = .unlinking i) : s'.Accounted where
  balance := by
    rw [hcount, hlist, hforgotten, hentering, hleaving]
    exact h.balance
  inList i hi := by
    rw [hlist]
    exact h.inList i (hplace i hi)

theorem not_unlinking {pc : MonitorPc} (h : pc.leaving = 0) (i : Nat) : pc ≠ .unlinking i := by
  rintro rfl
  exact Nat.one_ne_zero h

theorem accounted_step (h : s.Accounted) {e : Event} (hstep : s.step e = some s') :
    s'.Accounted := by
  have hbalance := h.balance
  cases step_move hstep with
  | write hwrite hget hpossible hpc =>
      rcases hpc with rfl | ⟨hentering, hleaving, hentering', hleaving'⟩
      · exact h.same rfl (List.length_set ..) rfl rfl rfl fun _ => id
      · refine h.same rfl (List.length_set ..) rfl (hentering'.trans hentering.symm)
          (hleaving'.trans hleaving.symm) ?_
        intro i hi
        exact absurd hi (not_unlinking hleaving' i)
  | go hwrite hentering hleaving =>
      refine h.same rfl rfl rfl hentering (hleaving.1.trans hleaving.2.symm) ?_
      intro i hi
      exact absurd hi (not_unlinking hleaving.1 i)
  | touch hwrite hget hlog hactive hpc =>
      obtain ⟨hentering, hleaving, hentering', hleaving'⟩ := hpc
      refine h.same rfl (List.length_set ..) rfl (hentering'.trans hentering.symm)
        (hleaving'.trans hleaving.symm) ?_
      intro i hi
      exact absurd hi (not_unlinking hleaving' i)
  | accepted hpc =>
      rw [hpc] at hbalance
      refine ⟨?_, fun i hi => nomatch hi⟩
      simp only [MonitorPc.entering, MonitorPc.leaving] at hbalance ⊢
      omega
  | nameless hpc =>
      rw [hpc] at hbalance
      refine ⟨?_, fun i hi => nomatch hi⟩
      simp only [MonitorPc.entering, MonitorPc.leaving] at hbalance ⊢
      omega
  | link hpc =>
      rw [hpc] at hbalance
      refine ⟨?_, fun i hi => nomatch hi⟩
      simp only [MonitorPc.entering, MonitorPc.leaving, List.length_cons] at hbalance ⊢
      omega
  | uncount hpc hget =>
      rw [hpc] at hbalance
      refine ⟨?_, ?_⟩
      · simp only [MonitorPc.entering, MonitorPc.leaving] at hbalance ⊢
        omega
      · rintro j ⟨⟩
        exact (List.getElem?_eq_some_iff.mp hget).1
  | unlink hpc =>
      have hlt := h.inList _ hpc
      rw [hpc] at hbalance
      refine ⟨?_, fun i hi => nomatch hi⟩
      simp only [MonitorPc.entering, MonitorPc.leaving, List.length_eraseIdx_of_lt hlt]
        at hbalance ⊢
      omega
  | fini => exact h.same rfl rfl rfl rfl rfl fun _ => id
  | drain hlock =>
      refine ⟨?_, ?_⟩
      · simp only [List.length_nil]
        push_cast
        omega
      · -- the monitor, which would hold the lock, is not at an unlinking
        intro i hi
        rw [show s.monitor = .unlinking i from hi] at hlock
        cases hlock

theorem accounted_of_run {es : List Event} (hrun : netflow.run es = some s) : s.Accounted :=
  netflow.run_invariant ⟨rfl, fun _ hi => nomatch hi⟩
    (fun _ _ _ hstep h => accounted_step h hstep) hrun

end NetflowState

/-- In every reachable state the count is right exactly if as many connections are
missing from the list (forgotten, or on their way into it) as are on their way out of it. -/
theorem connections_counted_iff (es : List Event) (s : NetflowState)
    (hrun : netflow.run es = some s) :
    s.Counted ↔ s.forgotten + s.monitor.entering = s.monitor.leaving := by
  have hbalance := (NetflowState.accounted_of_run hrun).balance
  rw [NetflowState.counted_iff]
  omega

/-- A consumer connects and hangs up, and is purged. -/
def hangingUp : List Event :=
  connecting ++ [.poll .hangup, .poll .quiet, .purge, .unlink, .purge]

theorem connections_counted_iff_hangingUp :
    ∃ s, netflow.run hangingUp = some s ∧ s.Counted := by
  refine ⟨_, rfl, ?_⟩
  exact (connections_counted_iff hangingUp _ rfl).mpr rfl

/-- The name of the peer cannot be had; or the driver is unloaded with a consumer: in
both cases the count stays at 1 with no channel in the list. -/
theorem connections_miscounted :
    (∃ s, netflow.run [.top, .accept (.accepted true), .getname false] = some s ∧
      s.activeConns = 1 ∧ s.connList = [] ∧ ¬ s.Counted) ∧
    (∃ s, netflow.run (connecting ++ [.poll .quiet, .poll .quiet, .purge, .purge, .fini, .drain]) =
        some s ∧
      s.activeConns = 1 ∧ s.connList = [] ∧ ¬ s.Counted) := by
  refine ⟨⟨_, rfl, rfl, rfl, ?_⟩, ⟨_, rfl, rfl, rfl, ?_⟩⟩
  · intro h
    exact absurd h.count (by decide)
  · intro h
    exact absurd h.count (by decide)

end MagicWand.Monitor.Connections
