import MagicWand.Distro.Balance
import MagicWand.Foundation.Holdings
import MagicWand.Foundation.Transition

/-!
# Forwarding to the active INS

Two threads work on `ins_map`: the watcher, which handles the events of XenStore,
and `ins_runner`, which starts INSs, drops those whose heartbeats are missing and
balances the load. An event, a death and a call of `balance_load` are a step each.

An object lives as long as something refers to it: the map, the queue of INSs that
have just been started, or the variable `i` of `ins_runner`, which has the INS that
was started last. When an object goes, its forwarders delete their rules.
-/

namespace MagicWand.Distro

open Foundation

variable {α : Type} [LinearOrder α]

/-! ## The steps -/

structure World where
  pool : Pool := { insMap := [] }
  /-- `ins_queue`. -/
  queue : List Ins := []
  /-- The object that `i` refers to. -/
  last : Option Nat := none
  /-- An object that nothing but `i` refers to. -/
  orphan : Option Ins := none
  next : Nat := 0
  /-- The watcher has not ended by an exception. -/
  watching : Bool := true
  /-- The ports that an INS has published last. -/
  ports : Nat → List Nat := fun _ => []
  /-- The address that an INS has published last. -/
  address : Nat → Option String := fun _ => none

/-- `PortForwarder._deactivate`. -/
def PortForwarder.deactivate (f : PortForwarder) (rules : List Rule) : List Rule :=
  if f.active then rules.diff f.ruleList else rules

/-- The rules after the forwarders of an object are gone. -/
def Ins.destroy (x : Ins) (rules : List Rule) : List Rule :=
  x.forwarders.foldl (fun rules f => f.deactivate rules) rules

inductive Event where
  /-- `i = INS()`. -/
  | spawn
  /-- The watcher sees `ins_dom_id`. -/
  | insDomId (domid : Nat) (value : Option Nat)
  /-- The watcher sees `ip_addrs`, with these addresses other than the loopback one. -/
  | ipAddrs (domid : Nat) (value : Option (List String))
  | networkStats (domid : Nat) (value : Option Stats)
  | heartbeat (domid : Nat)
  /-- The watcher sees `listening_ports`; there is no value if a word of it is no number. -/
  | listeningPorts (domid : Nat) (value : Option (List Nat))
  /-- `check_heartbeat` tells that an INS is dead. -/
  | died (domid : Nat)
  | balanceLoad
  /-- `get_load` with `print_msg`. -/
  | printLoad (domid : Nat)
  /-- The trigger file is made. -/
  | touchTrigger
  /-- A dictionary may be iterated in another order when a key has been added. -/
  | rehash (insMap : List Ins)

namespace World

/-- `ins_map[domid]`. -/
def at? (w : World) (domid : Nat) : Option Ins :=
  w.pool.insMap.find? fun x => x.domid = some domid

def modify (w : World) (ref : Nat) (f : Ins → Ins) : World :=
  { w with pool := w.pool.modify ref f }

/-- The map does not refer to an object any longer. -/
def discard (w : World) (x : Ins) : World :=
  if w.last = some x.ref then { w with orphan := some x }
  else { w with pool := { w.pool with rules := x.destroy w.pool.rules } }

def spawn (w : World) : World :=
  { w with
    pool := { w.pool with
      rules := (w.orphan.map fun x => x.destroy w.pool.rules).getD w.pool.rules }
    queue := w.queue ++ [{ ref := w.next }]
    last := some w.next
    orphan := none
    next := w.next + 1 }

/-- An exception ends the watcher. -/
def raise (w : World) : World := { w with watching := false }

/-- The object for an INS that registers: one that waits, or a new one. -/
def register (w : World) (domid : Nat) : Ins × World :=
  match w.queue with
  | [] => ({ ref := w.next, domid := some domid }, { w with next := w.next + 1 })
  | x :: rest => ({ x with domid := some domid }, { w with queue := rest })

def insDomId (w : World) (domid : Nat) (value : Option Nat) : World :=
  if value = some domid then
    let (x, w) := w.register domid
    match w.at? domid with
    | none => { w with pool := { w.pool with insMap := w.pool.insMap ++ [x] } }
    | some old => (w.modify old.ref fun _ => x).discard old
  else w.raise

/-- The handler of a change under the path of an INS that is in the map. -/
def change {β : Type} (w : World) (domid : Nat) (value : Option β) (f : β → Ins → Ins) : World :=
  match value, w.at? domid with
  | some v, some x => w.modify x.ref (f v)
  | _, _ => w.raise

def single : List String → Option String
  | [ip] => some ip
  | _ => none

/-- What an INS of the map has published is noted, whether it is handled or not. -/
def publishPorts (w : World) (domid : Nat) (value : Option (List Nat)) : World :=
  match value, w.at? domid with
  | some l, some x => { w with ports := Function.update w.ports x.ref l }
  | _, _ => w

def publishAddress (w : World) (domid : Nat) (value : Option String) : World :=
  match value, w.at? domid with
  | some ip, some x => { w with address := Function.update w.address x.ref (some ip) }
  | _, _ => w

def died (w : World) (domid : Nat) : World :=
  match w.at? domid with
  | none => w
  | some x =>
      ({ w with pool := { w.pool with
          insMap := w.pool.insMap.filter fun y => y.ref ≠ x.ref } } : World).discard x

def printLoad (c : Settings α) (w : World) (domid : Nat) : World :=
  match w.at? domid with
  | none => w
  | some x =>
      match w.pool.loaded c x.ref with
      | none => w
      | some _ => { w with pool := (w.pool.overloaded c x.ref).2 }

/-- A step of the watcher, as long as it runs. -/
def watch (w : World) (handler : World → World) : World := if w.watching then handler w else w

def step (c : Settings α) (w : World) : Event → Option World
  | .spawn => some w.spawn
  | .insDomId domid value => some (w.watch fun w => w.insDomId domid value)
  | .ipAddrs domid value =>
      let ip := value.bind single
      some ((w.publishAddress domid ip).watch fun w =>
        w.change domid ip fun ip x => { x with ip := some ip })
  | .networkStats domid value =>
      some (w.watch fun w => w.change domid value fun v x => { x with stats := some v })
  | .heartbeat domid => some (w.watch fun w => w.change domid (some ()) fun _ x => x)
  | .listeningPorts domid value =>
      some ((w.publishPorts domid value).watch fun w =>
        w.change domid value fun l x => x.setListeningPorts l)
  | .died domid => some (w.died domid)
  | .balanceLoad => some { w with pool := (w.pool.balanceLoad c).2 }
  | .printLoad domid => some (w.printLoad c domid)
  | .touchTrigger => some { w with pool := { w.pool with trigger := true } }
  | .rehash insMap =>
      if insMap.Perm w.pool.insMap then some { w with pool := { w.pool with insMap := insMap } }
      else none

end World

/-- `mw_distro_ins.py`, from its start on. -/
def distro (c : Settings α) : System World Event where
  init := {}
  step := World.step c

/-! ## What the rules should be -/

namespace World

/-- The forwarders of an INS are those of the ports it has published last, to the
address it has published last. -/
def Current (w : World) (x : Ins) : Prop :=
  (∀ p, p ∈ x.forwarders.map PortForwarder.port ↔ p ∈ w.ports x.ref) ∧
    ∀ f ∈ x.forwarders, f.dest = w.address x.ref

/-- The active INS has this address and has published this port. -/
def Published (w : World) (dest : Option String) (port : Nat) : Prop :=
  ∃ x ∈ w.pool.insMap, x.active = true ∧ w.address x.ref = dest ∧ port ∈ w.ports x.ref

/-- The rules in the tables are those for the ports of the active INS. The rule for
established connections has no port: each forwarder puts in one of its own. -/
structure Follows (w : World) : Prop where
  one : (w.pool.insMap.filter Ins.active).length ≤ 1
  forward : ∀ dest port, .dnat dest port ∈ w.pool.rules ↔ w.Published dest port
  accept : ∀ dest port, .accept dest port ∈ w.pool.rules ↔ w.Published dest port
  once : ∀ dest port, w.pool.rules.count (.dnat dest port) ≤ 1 ∧
    w.pool.rules.count (.accept dest port) ≤ 1
  established : ∀ dest, .established dest ∈ w.pool.rules ↔ ∃ port, w.Published dest port

end World

/-- An INS that a call of `balance_load` may activate. -/
def Pool.Activates (c : Settings α) (s : Pool) (r : Nat) : Prop :=
  match s.insMap, s.insMap.filter Ins.active with
  | first :: _, [] => s.hasForwarders first.ref = true ∧
      (r = first.ref ∨ (s.setInsActive first.ref true).Picked c first.ref r)
  | _, [curr] => s.Picked c curr.ref r
  | _, _ => False

/-- An active INS publishes no other ports and no other address, and is not the one
that `i` refers to when it goes; and an INS that is activated has forwarders for
just the ports it has published. -/
def Orderly (c : Settings α) (w : World) : Event → Prop
  | .insDomId domid value => w.watching = true → value = some domid →
      ∀ x, w.at? domid = some x → x.active = true → w.last ≠ some x.ref
  | .ipAddrs domid value => ∀ x, w.at? domid = some x → x.active = true →
      ∀ ip, value.bind World.single = some ip → w.address x.ref = some ip
  | .listeningPorts domid value => ∀ x, w.at? domid = some x → x.active = true →
      ∀ l, value = some l → ∀ p, p ∈ l ↔ p ∈ w.ports x.ref
  | .died domid => ∀ x, w.at? domid = some x → x.active = true → w.last ≠ some x.ref
  | .balanceLoad => ∀ x ∈ w.pool.insMap, w.pool.Activates c x.ref → w.Current x
  | _ => True

/-! ## The rules of a forwarder and of an INS -/

/-- The rules that are in the tables for a forwarder. -/
def PortForwarder.held (f : PortForwarder) : List Rule := if f.active then f.ruleList else []

def Ins.held (x : Ins) : List Rule := x.forwarders.flatMap PortForwarder.held

theorem setPfActive_rules {f : PortForwarder} {rules : List Rule} (activated : Bool) (r : Rule)
    (h : f.held.count r ≤ rules.count r) :
    (f.setPfActive activated rules).2.count r + f.held.count r =
      rules.count r + (f.setPfActive activated rules).1.held.count r := by
  rw [PortForwarder.setPfActive]
  split
  · rfl
  · rename_i hne
    rcases activated with _ | _
    · have hon : f.active = true := by simpa using hne
      rw [PortForwarder.held, hon, if_pos rfl] at h ⊢
      simp only [Bool.false_eq_true, if_false, PortForwarder.held, List.count_diff,
        List.count_nil]
      omega
    · have hoff : f.active = false := by simpa using hne
      simp only [PortForwarder.held, hoff, Bool.false_eq_true, if_false, if_true, List.count_nil,
        List.count_append, List.count_reverse, PortForwarder.ruleList]
      omega

theorem setForwarders_rules {fs : List PortForwarder} {rules : List Rule} (activated : Bool)
    (r : Rule) (h : (fs.flatMap PortForwarder.held).count r ≤ rules.count r) :
    (Ins.setForwarders activated fs rules).2.count r + (fs.flatMap PortForwarder.held).count r =
      rules.count r +
        ((Ins.setForwarders activated fs rules).1.flatMap PortForwarder.held).count r := by
  induction fs generalizing rules with
  | nil => rfl
  | cons f fs ih =>
      rw [List.flatMap_cons, List.count_append] at h
      have hone := setPfActive_rules (f := f) activated r (le_trans (Nat.le_add_right _ _) h)
      have hle : (fs.flatMap PortForwarder.held).count r ≤
          (f.setPfActive activated rules).2.count r := by
        omega
      have hrest := ih hle
      simp only [Ins.setForwarders, List.flatMap_cons, List.count_append]
      omega

theorem Ins.setInsActive_rules {x : Ins} {rules : List Rule} (activated : Bool)
    (h : x.held.Subperm rules) :
    ((x.setInsActive activated rules).2 ++ x.held).Perm
      (rules ++ (x.switched activated).held) := by
  refine List.perm_iff_count.mpr fun r => ?_
  have hforwarders := setForwarders_rules activated r (h.count_le r)
  rw [List.count_append, List.count_append, ← Ins.setInsActive_fst x activated rules,
    Ins.setInsActive]
  split
  · rfl
  · exact hforwarders

theorem Ins.destroy_rules {x : Ins} {rules : List Rule} (h : x.held.Subperm rules) :
    (x.destroy rules ++ x.held).Perm rules := by
  have hfold (fs : List PortForwarder) : ∀ rules : List Rule,
      fs.foldl (fun rules f => f.deactivate rules) rules =
        rules.diff (fs.flatMap PortForwarder.held) := by
    induction fs with
    | nil => exact fun _ => rfl
    | cons f fs ih =>
        intro rules
        rw [List.foldl_cons, ih, List.flatMap_cons, List.diff_append]
        congr 1
        rw [PortForwarder.deactivate, PortForwarder.held]
        split
        · rfl
        · rfl
  refine List.perm_iff_count.mpr fun r => ?_
  have hle := h.count_le r
  rw [Ins.destroy, hfold, List.count_append, List.count_diff]
  rw [Ins.held] at hle ⊢
  omega

end MagicWand.Distro
