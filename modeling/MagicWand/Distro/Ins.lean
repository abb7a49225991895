import Mathlib.Data.List.MinMax
import Mathlib.Order.Defs.LinearOrder

/-!
# INSs and their port forwarders

`mw_distro_ins.py` keeps an object for each INS, with a `PortForwarder` for each
port that the INS listens on. The forwarders of the active INS have their rules
in the tables of the kernel.

A rule of either chain is a member of one list: a rule is put in front, and the
first one that matches is deleted.
-/

namespace MagicWand.Distro

/-! ## Rules -/

/-- The three rules of a forwarder. -/
inductive Rule where
  /-- NAT, `PREROUTING`: send the port to the INS. -/
  | dnat (dest : Option String) (port : Nat)
  /-- FILTER, `FORWARD`: let the port pass. -/
  | accept (dest : Option String) (port : Nat)
  /-- FILTER, `FORWARD`: let established connections pass. -/
  | established (dest : Option String)
deriving DecidableEq, Repr

/-- `PortForwarder`. A forwarder that is made before the address of its INS is
known has none. -/
structure PortForwarder where
  port : Nat
  dest : Option String
  active : Bool := false
deriving DecidableEq, Repr

namespace PortForwarder

def ruleList (f : PortForwarder) : List Rule :=
  [.dnat f.dest f.port, .accept f.dest f.port, .established f.dest]

/-- `set_pf_active`. -/
def setPfActive (f : PortForwarder) (activate : Bool) (rules : List Rule) :
    PortForwarder × List Rule :=
  if f.active = activate then (f, rules)
  else if activate then ({ f with active := true }, f.ruleList.reverse ++ rules)
  else ({ f with active := false }, rules.diff f.ruleList)

end PortForwarder

/-! ## INSs -/

/-- The part of the statistics that `get_load` looks at. -/
structure Stats where
  maxSockets : Int
  usedSockets : Int
deriving DecidableEq, Repr

/-- `INS`; `ref` tells the objects apart. -/
structure Ins where
  ref : Nat
  domid : Option Nat := none
  ip : Option String := none
  stats : Option Stats := none
  forwarders : List PortForwarder := []
  active : Bool := false
  /-- `_overloaded`. -/
  overloadedFlag : Bool := false
deriving DecidableEq, Repr

namespace Ins

/-- A round of `set_listening_ports`. -/
def addPort (x : Ins) (p : Nat) : Ins :=
  if p ∈ x.forwarders.map PortForwarder.port then x
  else { x with forwarders := x.forwarders ++ [{ port := p, dest := x.ip }] }

def setListeningPorts (x : Ins) (portList : List Nat) : Ins := portList.foldl addPort x

/-- The loop of `set_ins_active`. -/
def setForwarders (activated : Bool) : List PortForwarder → List Rule →
    List PortForwarder × List Rule
  | [], rules => ([], rules)
  | f :: fs, rules =>
      let (f, rules) := f.setPfActive activated rules
      let (fs, rules) := setForwarders activated fs rules
      (f :: fs, rules)

def setInsActive (x : Ins) (activated : Bool) (rules : List Rule) : Ins × List Rule :=
  -- An INS without listeners is not activated.
  if activated && x.forwarders.isEmpty then (x, rules)
  else
    let (fs, rules) := setForwarders activated x.forwarders rules
    ({ x with
        forwarders := fs
        active := activated
        overloadedFlag := activated && x.overloadedFlag },
      rules)

theorem setForwarders_fst (activated : Bool) (fs : List PortForwarder) (rules : List Rule) :
    (setForwarders activated fs rules).1 = fs.map fun f => { f with active := activated } := by
  induction fs generalizing rules with
  | nil => rfl
  | cons f fs ih =>
      have hone : (f.setPfActive activated rules).1 = { f with active := activated } := by
        rw [PortForwarder.setPfActive]
        split
        · rename_i heq
          rw [← heq]
        · rcases activated with _ | _
          · rfl
          · rfl
      rw [setForwarders, List.map_cons]
      simp only
      rw [ih, hone]

end Ins

end MagicWand.Distro
