import MagicWand.Handshake.Paths
import MagicWand.Kernel.InsTable

/-!
# How the driver and the INSs find each other

The parties meet in XenStore. An INS writes its id and waits; the driver, which watches the
keys, claims an entry for it, sets up the ring, and writes the port of the event channel, the
grant references and at last their number; the INS reads them, maps the ring, binds the event
channel and says so; then the driver binds its end.

The driver's calls are run by one thread, one for each event of the watch, in the order of
the events. Its table of INSs is the one of `InsTable`.
-/

namespace MagicWand

open Foundation Kernel

/-! ## State -/

/-- Where `mw_xen_init` stands. -/
inductive DriverInit where
  | mkdir
  | reset
  | publish
  | watch
  | done
  | failed
deriving DecidableEq, Repr

/-- Where `mw_xen_write_grant_refs_to_key` stands: in its loop, with these references to
go, or about to write the number of the chunks. -/
inductive Publishing where
  | refs (w : Writing) (todo : List (BitVec 32))
  | total (w : Writing)

/-- Where `xe_comms_register` stands, with what the INS has read. -/
inductive Registering where
  | start
  | server
  | chunks (remoteId : BitVec 16)
  | total (remoteId : BitVec 16)
  | refs (remoteId : BitVec 16) (left gnt : Nat) (refs : List (BitVec 32))
  | map (remoteId : BitVec 16) (refs : List (BitVec 32))
  | port (remoteId : BitVec 16) (refs : List (BitVec 32))
  | bind (remoteId : BitVec 16) (refs : List (BitVec 32)) (port : Int)
  | announce (remoteId : BitVec 16) (refs : List (BitVec 32)) (port : Int)
  | registered (remoteId : BitVec 16) (refs : List (BitVec 32)) (port : Int)
  | failed
deriving DecidableEq, Repr

/-- XenStore with the events of the driver's watch, the driver, and the INSs by their ids.
`early` and `refused` are the history of the INSs that wrote their id before there was a
watch and of those for which no entry was free. -/
structure Handshake where
  store : XenStore := fun _ => none
  watchEvents : List (List Char) := []
  init : DriverInit := .mkdir
  table : InsTable := {}
  publishing : Option Publishing := none
  grantRefs : Fin maxInsCount → List (BitVec 32) := fun _ => []
  commonEvtchn : Fin maxInsCount → Nat := fun _ => 0
  sringInit : Fin maxInsCount → Bool := fun _ => false
  irq : Fin maxInsCount → Int := fun _ => 0
  ins : BitVec 16 → Registering := fun _ => .start
  early : List (BitVec 16) := []
  refused : List (BitVec 16) := []

inductive HandshakeEvent where
  /-- The driver is loaded. -/
  | init (ok : Bool)
  /-- The watch calls the driver; `irq` is what binding the event channel returns. -/
  | xenwatch (irq : Int)
  /-- `mw_xen_ins_found` moves on: what its step comes to, what a write returns, and the
  port and the grant references that it gets from Xen. -/
  | found (ok : Bool) (err : Int) (port : Nat) (refs : InsGrantRefs)
  /-- `xe_comms_register` of an INS moves on. -/
  | register (domid : BitVec 16) (ok : Bool)
  /-- A registered INS writes its heartbeat. -/
  | heartbeat (domid : BitVec 16) (value : List Char)
  /-- Time passes, and the reaper looks at the table. -/
  | tick (n : BitVec 64)
  | reap
  | visit

def maxGntRefWidth : Nat := 15

/-- The number under a key, as `xe_comms_read_int_from_key` reads it; 0 if there is none. -/
def readInt : Option (List Char) → Int
  | none => 0
  | some s => (BitVec.ofNat 32 (bmkStrtoul 10 s).1).toInt

namespace Handshake

/-- A key is written; the watch is told. -/
def write (s : Handshake) (path value : List Char) : Handshake :=
  { s with
    store := Function.update s.store path (some value)
    watchEvents := if s.init = .done then s.watchEvents ++ [path] else s.watchEvents }

theorem store_write_self (s : Handshake) (path value : List Char) :
    (s.write path value).store path = some value := by
  simp only [write, Function.update_self]

theorem store_write_ne (s : Handshake) {path path' : List Char} (value : List Char)
    (h : path' ≠ path) : (s.write path value).store path' = s.store path' := by
  simp only [write, Function.update_of_ne h]

theorem watchEvents_write (s : Handshake) (path value : List Char) :
    (s.write path value).watchEvents = s.watchEvents ∨
      (s.write path value).watchEvents = s.watchEvents ++ [path] := by
  unfold write
  by_cases hinit : s.init = .done
  · exact .inr (if_pos hinit)
  · exact .inl (if_neg hinit)

/-! ## The driver -/

-- The id of the driver's domain, the number of the references, and that in a chunk.
variable (me : BitVec 16) (count chunkSize hz : Nat)

/-- `mw_xen_init`. -/
def mwXenInit (s : Handshake) (ok : Bool) : Option Handshake :=
  match s.init with
  | .mkdir => some (if ok then { s.write serverIdPath [] with init := .reset }
      else { s with init := .failed })
  | .reset => some (if ok then { s.write serverIdPath ['0'] with init := .publish }
      else { s with init := .failed })
  | .publish => some (if ok then
        { s.write serverIdPath (Nat.toDigits 10 me.toNat) with init := .watch }
      else { s with init := .failed })
  | .watch => some (if ok then
        -- a watch that is new fires once
        { s with watchEvents := s.watchEvents ++ [xeneventXenstoreRoot], init := .done }
      else { s with init := .failed })
  | .done => none
  | .failed => none

/-- The call of `mw_xen_ins_found` moves on in the table. -/
def moveFound (s : Handshake) (ok : Bool) : Option Handshake :=
  (s.table.insFound 0 ok (s.table.found 0)).map fun t => { s with table := t }

/-- The directory of the INS that has entry `i`. -/
def dirOf (s : Handshake) (i : Fin maxInsCount) : List Char :=
  snprintf xeneventPathStrLen (insDir (s.table.ins i).domid)

/-- `mw_xen_create_unbound_evt_chn`. -/
def createUnboundEvtChn (s : Handshake) (i : Fin maxInsCount) (ok : Bool) (err : Int)
    (port : Nat) : Option Handshake :=
  if (s.table.ins i).domid = 0 then s.moveFound true
  else if ok then
    let s := { s with commonEvtchn := Function.update s.commonEvtchn i port }
    if err ≠ 0 then s.moveFound false
    else (s.write (join (s.dirOf i) vmEvtChnPortKey)
      (snprintf maxGntRefWidth (Nat.toDigits 10 port))).moveFound true
  else s.moveFound false

/-- What the writer has done to XenStore: it has stored a chunk or nothing. -/
def synced (s : Handshake) (i : Fin maxInsCount) (w w' : Writing) : Handshake :=
  { s with
    store := w'.store
    watchEvents :=
      if s.init = .done ∧ w'.gntChunk ≠ w.gntChunk then
        s.watchEvents ++ [join (s.dirOf i) (snprintf xeneventPathStrLen (gntKey w.gntChunk))]
      else s.watchEvents }

/-- `mw_xen_write_grant_refs_to_key`. -/
def writeGrantRefsToKey (s : Handshake) (i : Fin maxInsCount) (kmalloc : Bool) (err : Int) :
    Option Handshake :=
  let xenbus : List Char → Int := fun _ => err
  match s.publishing with
  | none =>
      if kmalloc then
        some { s with publishing := some (.refs { store := s.store } (s.grantRefs i)) }
      else s.moveFound false
  | some (.refs w (ref :: todo)) =>
      let w := { w with store := s.store }
      let (rc, w') := writeRef xenbus (s.dirOf i) chunkSize (count * oneRefSize) w ref
      if rc ≠ 0 then { s.synced i w w' with publishing := none }.moveFound false
      else some { s.synced i w w' with publishing := some (.refs w' todo) }
  | some (.refs w []) =>
      let w := { w with store := s.store }
      let (rc, w') := if 0 < w.gntCnt then storeChunk xenbus (s.dirOf i) w else (0, w)
      if rc ≠ 0 then { s.synced i w w' with publishing := none }.moveFound false
      else some { s.synced i w w' with publishing := some (.total w') }
  | some (.total w) =>
      if err ≠ 0 then { s with publishing := none }.moveFound false
      else
        { s.write (join (s.dirOf i) gntRefChunks)
            (snprintf xeneventPathStrLen (Nat.toDigits 10 (w.gntChunk - 1))) with
          publishing := none }.moveFound true

/-- `mw_xen_ins_found`, after it has read the id. -/
def mwXenInsFound (s : Handshake) (ok : Bool) (err : Int) (port : Nat) (refs : InsGrantRefs) :
    Option Handshake :=
  match s.table.found 0 with
  | .setup i (.evtChn :: _) => s.createUnboundEvtChn i ok err port
  | .setup i (.grant :: _) =>
      if ok then { s with grantRefs := Function.update s.grantRefs i refs.refs }.moveFound true
      else s.moveFound false
  | .setup i (.ring :: _) =>
      { s with sringInit := Function.update s.sringInit i true }.moveFound true
  | .setup i (.grantRefs :: _) => s.writeGrantRefsToKey count chunkSize i ok err
  | .probing id n =>
      if n < maxInsCount then s.moveFound ok
      else { s with refused := s.refused ++ [BitVec.ofInt 16 (simpleStrtol id)] }.moveFound ok
  | _ => s.moveFound ok

/-- The id that the path of an event names, as far as it can be one of the table. -/
def pathDomid (path : List Char) : Option (BitVec 16) :=
  match domidOfPath path with
  | some n => if 0 ≤ n ∧ n < 2 ^ 16 then some (BitVec.ofInt 16 n) else none
  | none => none

/-- `mw_xen_bind_evt_chn`. -/
def mwXenBindEvtChn (s : Handshake) (path : List Char) (irq : Int) : Option Handshake :=
  match pathDomid path with
  | none => some s
  | some d =>
      match s.table.mwXenGetInsFromXsPath d, s.table.step hz (.bound d) with
      | some i, some t =>
          let s := { s with table := t }
          match s.store path with
          | none => some s
          | some v =>
              if v = ['0'] ∨ irq ≤ 0 then some s
              else some { s with irq := Function.update s.irq i irq }
      | _, t => t.map fun t => { s with table := t }

/-- The watch calls `mw_xen_xenstore_state_changed`, when the call before has returned. -/
def xenwatch (s : Handshake) (irq : Int) : Option Handshake :=
  match s.table.found 0, s.watchEvents with
  | .idle, path :: events =>
      let s := { s with watchEvents := events }
      match mwXenXenstoreStateChanged path with
      | .insFound =>
          (s.table.step hz (.found 0 (s.store path))).map fun t => { s with table := t }
      | .bindEvtChn => s.mwXenBindEvtChn hz path irq
      | .insHeartbeat =>
          match pathDomid path with
          | none => some s
          | some d => (s.table.step hz (.heartbeat d)).map fun t => { s with table := t }
      | .nothing => some s
  | _, _ => none

/-! ## An INS -/

/-- Where the INS goes to. -/
def goto (s : Handshake) (d : BitVec 16) (pc : Registering) : Handshake :=
  { s with ins := Function.update s.ins d pc }

/-- A path that the INS prints into a buffer. -/
def ownPath (d : BitVec 16) (key : List Char) : List Char :=
  snprintf xeneventPathStrLen (join (insDir d) key)

/-- `xe_comms_register`. -/
def xeCommsRegister (s : Handshake) (d : BitVec 16) (ok : Bool) : Option Handshake :=
  match s.ins d with
  | .start =>
      if ok then
        let s := if s.init = .done then s else { s with early := s.early ++ [d] }
        some ((s.write (ownPath d insIdKey) (Nat.toDigits 10 d.toNat)).goto d .server)
      else some (s.goto d .failed)
  | .server =>
      if readInt (s.store serverIdPath) = 0 then none
      else some (s.goto d (.chunks (BitVec.ofInt 16 (readInt (s.store serverIdPath)))))
  | .chunks r =>
      match s.store (ownPath d gntRefChunks) with
      | none => none
      | some ('0' :: _) => none
      | some _ => some (s.goto d (.total r))
  | .total r =>
      match s.store (ownPath d gntRefChunks) with
      | none => some (s.goto d .failed)
      | some v => some (s.goto d (.refs r (readInt (some v)).toNat 1 []))
  | .refs r 0 _ refs => some (s.goto d (.map r refs))
  | .refs r (left + 1) gnt refs =>
      match s.store (ownPath d (gntKey gnt)) with
      | none => some (s.goto d .failed)
      | some gntstr =>
          match readChunk count gntstr refs with
          | .received refs => some (s.goto d (.refs r left (gnt + 1) refs))
          | _ => some (s.goto d .failed)
  | .map r refs => some (s.goto d (if ok then .port r refs else .failed))
  | .port r refs =>
      if readInt (s.store (ownPath d vmEvtChnPortKey)) = 0 then none
      else some (s.goto d (.bind r refs (readInt (s.store (ownPath d vmEvtChnPortKey)))))
  | .bind r refs port => some (s.goto d (if ok then .announce r refs port else .failed))
  | .announce r refs port =>
      if ok then
        some ((s.write (ownPath d vmEvtChnBoundKey) ['1']).goto d (.registered r refs port))
      else some (s.goto d .failed)
  | .registered _ _ _ => none
  | .failed => none

def isRegistered : Registering → Bool
  | .registered _ _ _ => true
  | _ => false

def step (s : Handshake) : HandshakeEvent → Option Handshake
  | .init ok => s.mwXenInit me ok
  | .xenwatch irq => s.xenwatch hz irq
  | .found ok err port refs => s.mwXenInsFound count chunkSize ok err port refs
  | .register d ok => s.xeCommsRegister count d ok
  | .heartbeat d value =>
      if isRegistered (s.ins d) then some (s.write (ownPath d insHeartbeatKey) value) else none
  | .tick n => (s.table.step hz (.tick n)).map fun t => { s with table := t }
  | .reap => (s.table.step hz .reap).map fun t => { s with table := t }
  | .visit => (s.table.step hz .visit).map fun t => { s with table := t }

/-- Nothing that the environment does fails: writes, allocations and hypercalls succeed, and
the reaper finds no INS dead. An INS has the id of a domain, Xen hands out ports from 1, one
grant reference for each page, and references of at most seven hexadecimal digits. -/
def orderly (s : Handshake) : HandshakeEvent → Prop
  | .init ok => ok = true
  | .xenwatch irq => 0 < irq
  | .found ok err port refs => ok = true ∧ err = 0 ∧ 0 < port ∧ port < 2 ^ 31 ∧
      refs.refs.length = count ∧ ∀ ref ∈ refs.refs, ref.toNat < 2 ^ 28
  | .register d ok => ok = true ∧ validDomid d.toNat = true
  | .heartbeat _ _ => True
  | .tick _ => True
  | .reap => True
  | .visit => s.table.orderly hz .visit

end Handshake

/-- The driver in domain `me` and the INSs, from the start of the driver. -/
def handshake (me : BitVec 16) (count chunkSize hz : Nat) (jiffies : BitVec 64) :
    System Handshake HandshakeEvent where
  init := { table := { jiffies := jiffies } }
  step := Handshake.step me count chunkSize hz

end MagicWand
