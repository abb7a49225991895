import Mathlib.Algebra.Order.BigOperators.Group.List
import MagicWand.Foundation.Numerals
import MagicWand.Ins.SocketCount

/-!
# The listening ports

The INS publishes the ports its sockets are bound to in a string that a script in
Dom0 decodes. A bind and a close mark a change; `post_process_response` publishes
while a change is marked. `update_listening_ports` takes the mark away before it
builds the string and writes it, both of which may fail. What Dom0 decodes is then
right, and stays right, exactly if neither ever does.
-/

namespace MagicWand.Ins

open Foundation Globals

/-! ## The string -/

/-- One round of the loop of `update_listening_ports`, with a buffer of `maxLen`
characters; `none` when the text is too long. -/
def appendPort (maxLen : Nat) (acc : List Char) (port : BitVec 16) : Option (List Char) :=
  let text := portText port
  -- The differences of the test are unsigned: in a buffer that has no room for the
  -- text alone the difference is huge, the test passes, and `strncat` cuts the text.
  if text.length + 1 ≤ maxLen ∧ maxLen - text.length - 1 < acc.length then none
  else some (acc ++ text.take (maxLen - acc.length - 1))

/-- The string that `update_listening_ports` builds. -/
def portsString (maxLen : Nat) : List (BitVec 16) → List Char → Option (List Char)
  | [], acc => some acc
  | p :: ps, acc => (appendPort maxLen acc p).bind (portsString maxLen ps)

/-- `int( p, 16 )`, for digits. -/
def hexNumber (p : List Char) : Option Nat :=
  match Numerals.takeDigits 16 0 p with
  | (n, []) => some n
  | _ => none

/-- `[ int( p, 16 ) for p in newval.split() ]`. -/
def decodePorts (newval : List Char) : Option (List Nat) :=
  ((newval.splitOnP (· == ' ')).filter (!·.isEmpty)).mapM hexNumber

/-- The string is decoded to these ports, in some order. -/
def Tells (text : List Char) (ports : List (BitVec 16)) : Prop :=
  ∃ ns, decodePorts text = some ns ∧ ns.Perm (ports.map BitVec.toNat)

/-- The texts of the ports fit in the buffer with a terminating zero; the blank of a
single port may be cut off where the buffer is just its text. -/
def Fits (maxLen : Nat) (ports : List (BitVec 16)) : Prop :=
  (ports.flatMap portText).length < maxLen ∨ ∃ p, ports = [p] ∧ (portText p).length = maxLen

theorem length_portText (port : BitVec 16) : (portText port).length ≤ 5 := by
  have hlen : (Nat.toDigits 16 port.toNat).length ≤ 4 :=
    (Nat.length_toDigits_le_iff (by decide) (by decide)).mpr port.isLt
  rw [portText, List.length_append, List.length_singleton]
  omega

/-- With the length of the source the loop is that of `listeningPortsText`. -/
theorem portsString_eq (ports : List (BitVec 16)) (acc : List Char) :
    portsString insListeningPortsMaxLen ports acc = listeningPortsText ports acc := by
  induction ports generalizing acc with
  | nil => rfl
  | cons p ps ih =>
      have hlen := length_portText p
      have hmax : insListeningPortsMaxLen = 1024 := rfl
      rw [portsString, appendPort, listeningPortsText]
      by_cases hlong : insListeningPortsMaxLen - (portText p).length - 1 < acc.length
      · rw [if_pos ⟨by omega, hlong⟩, if_pos hlong]
        rfl
      · rw [if_neg (fun h => hlong h.2), if_neg hlong, List.take_of_length_le (by omega)]
        exact ih _

/-- Texts that fit are put together whole. -/
theorem portsString_of_lt {maxLen : Nat} {ports : List (BitVec 16)} {acc : List Char}
    (h : acc.length + (ports.flatMap portText).length < maxLen) :
    portsString maxLen ports acc = some (acc ++ ports.flatMap portText) := by
  induction ports generalizing acc with
  | nil => simp [portsString]
  | cons p ps ih =>
      rw [List.flatMap_cons, List.length_append] at h
      rw [portsString, appendPort, if_neg (by omega), List.take_of_length_le (by omega),
        Option.bind_some, ih (by rw [List.length_append]; omega), List.flatMap_cons,
        List.append_assoc]

theorem not_blank_of_mem_toDigits {n : Nat} {c : Char} (h : c ∈ Nat.toDigits 16 n) :
    (c == ' ') = false := by
  rw [beq_eq_false_iff_ne]
  rintro rfl
  have hdigit := Numerals.isDigit_of_mem_toDigits (by decide) (by decide) h
  exact absurd hdigit (by decide)

theorem toDigits_nonempty (n : Nat) : (!(Nat.toDigits 16 n).isEmpty) = true := by
  simp [Nat.toDigits_ne_nil]

theorem hexNumber_toDigits (n : Nat) : hexNumber (Nat.toDigits 16 n) = some n := by
  have hread := @Numerals.takeDigits_numeral 16 (by decide) (by decide) n [] fun c hc =>
    nomatch hc
  rw [List.append_nil] at hread
  rw [hexNumber, hread]

/-- What was written is read back. -/
theorem decodePorts_flatMap (ports : List (BitVec 16)) :
    decodePorts (ports.flatMap portText) = some (ports.map BitVec.toNat) := by
  induction ports with
  | nil => rfl
  | cons p ps ih =>
      have hsplit : ((p :: ps).flatMap portText).splitOnP (· == ' ') =
          Nat.toDigits 16 p.toNat :: (ps.flatMap portText).splitOnP (· == ' ') := by
        rw [List.flatMap_cons, portText, List.append_assoc, List.singleton_append]
        exact List.splitOnP_append_cons_of_forall_mem
          (fun c hc => not_blank_of_mem_toDigits hc) ' ' rfl _
      unfold decodePorts at ih ⊢
      rw [hsplit, List.filter_cons, if_pos (toDigits_nonempty p.toNat), List.mapM_cons,
        hexNumber_toDigits, ih]
      rfl

/-- Without its last blank a single port is read back too. -/
theorem decodePorts_toDigits (n : Nat) : decodePorts (Nat.toDigits 16 n) = some [n] := by
  have hsplit : (Nat.toDigits 16 n).splitOnP (· == ' ') = [Nat.toDigits 16 n] :=
    List.splitOnP_eq_singleton fun c hc => not_blank_of_mem_toDigits hc
  unfold decodePorts
  rw [hsplit, List.filter_cons, if_pos (toDigits_nonempty n), List.filter_nil, List.mapM_cons,
    hexNumber_toDigits]
  rfl

/-- Ports that fit are told by the string that is built. -/
theorem portsString_of_fits {maxLen : Nat} {ports : List (BitVec 16)} (h : Fits maxLen ports) :
    ∃ text, portsString maxLen ports [] = some text ∧
      decodePorts text = some (ports.map BitVec.toNat) := by
  rcases h with hlt | ⟨p, rfl, hlen⟩
  · refine ⟨ports.flatMap portText, portsString_of_lt (by simpa using hlt), ?_⟩
    exact decodePorts_flatMap ports
  · refine ⟨Nat.toDigits 16 p.toNat, ?_, decodePorts_toDigits p.toNat⟩
    have hdigits : (portText p).length = (Nat.toDigits 16 p.toNat).length + 1 := by
      rw [portText, List.length_append, List.length_singleton]
    rw [portsString, appendPort, if_neg (by omega), List.length_nil, Option.bind_some, portsString,
      List.nil_append, portText, List.take_left' (by omega)]

/-- A number has no more digits than it was read from. -/
theorem length_toDigits_le {p : List Char} {n : Nat} (h : hexNumber p = some n) (hne : p ≠ []) :
    (Nat.toDigits 16 n).length ≤ p.length := by
  unfold hexNumber at h
  split at h
  · rename_i m hread
    cases h
    have hlt := Numerals.takeDigits_lt (b := 16) (by decide) 0 p
    rw [hread, Nat.zero_add, Nat.one_mul] at hlt
    exact (Nat.length_toDigits_le_iff (by decide) (List.length_pos_of_ne_nil hne)).mpr hlt
  · cases h

theorem sum_length_splitOnP {α : Type*} (p : α → Bool) (xs : List α) :
    ((xs.splitOnP p).map fun w => w.length + 1).sum = xs.length + 1 := by
  induction xs with
  | nil => simp
  | cons x xs ih =>
      rw [List.splitOnP_cons_eq_if_modifyHead]
      split
      · rw [List.map_cons, List.sum_cons, ih, List.length_nil, List.length_cons]
        omega
      · obtain ⟨w, ws, hsplit⟩ := List.exists_cons_of_ne_nil (List.splitOnP_ne_nil p xs)
        rw [hsplit, List.map_cons, List.sum_cons] at ih
        rw [hsplit, List.modifyHead_cons, List.map_cons, List.sum_cons, List.length_cons,
          List.length_cons]
        omega

theorem length_read {ws : List (List Char)} {ns : List Nat} (h : ws.mapM hexNumber = some ns)
    (hne : ∀ w ∈ ws, w ≠ []) :
    (ns.map fun n => (Nat.toDigits 16 n).length + 1).sum ≤ (ws.map fun w => w.length + 1).sum := by
  induction ws generalizing ns with
  | nil =>
      cases h
      exact Nat.le_refl _
  | cons w ws ih =>
      rw [List.mapM_cons] at h
      obtain ⟨n, hn, h⟩ := Option.bind_eq_some_iff.mp h
      obtain ⟨ms, hms, h⟩ := Option.bind_eq_some_iff.mp h
      cases h
      have hone := length_toDigits_le hn (hne w List.mem_cons_self)
      have hrest := ih hms fun v hv => hne v (List.mem_cons_of_mem w hv)
      rw [List.map_cons, List.map_cons, List.sum_cons, List.sum_cons]
      omega

/-- A text that tells the ports has room for theirs, the last blank apart. -/
theorem length_flatMap_of_tells {text : List Char} {ports : List (BitVec 16)}
    (h : Tells text ports) : (ports.flatMap portText).length ≤ text.length + 1 := by
  obtain ⟨ns, hread, hperm⟩ := h
  have hwords := length_read hread (by
    intro w hw
    simpa using (List.mem_filter.mp hw).2)
  have hfilter : (((text.splitOnP (· == ' ')).filter (!·.isEmpty)).map fun w => w.length + 1).sum ≤
      ((text.splitOnP (· == ' ')).map fun w => w.length + 1).sum :=
    List.Sublist.sum_le_sum (List.filter_sublist.map _) fun _ _ => Nat.zero_le _
  rw [sum_length_splitOnP] at hfilter
  calc (ports.flatMap portText).length
      = ((ports.map BitVec.toNat).map fun n => (Nat.toDigits 16 n).length + 1).sum := by
        rw [List.length_flatMap, List.map_map]
        congr 2
        funext p
        rw [portText, List.length_append, List.length_singleton]
        rfl
    _ = (ns.map fun n => (Nat.toDigits 16 n).length + 1).sum :=
        (hperm.map fun n => (Nat.toDigits 16 n).length + 1).sum_eq.symm
    _ ≤ text.length + 1 := hwords.trans hfilter

theorem portsString_append (maxLen : Nat) (ps qs : List (BitVec 16)) (acc : List Char) :
    portsString maxLen (ps ++ qs) acc =
      (portsString maxLen ps acc).bind (portsString maxLen qs) := by
  induction ps generalizing acc with
  | nil => rfl
  | cons p ps ih =>
      rw [List.cons_append, portsString, portsString, Option.bind_assoc]
      congr 1
      funext acc'
      exact ih acc'

/-- The string stays within the buffer, with its terminating zero. -/
theorem length_portsString {maxLen : Nat} {ports : List (BitVec 16)} {acc text : List Char}
    (h : portsString maxLen ports acc = some text) (hacc : acc.length < maxLen) :
    text.length < maxLen := by
  induction ports generalizing acc with
  | nil =>
      cases h
      exact hacc
  | cons p ps ih =>
      rw [portsString, appendPort] at h
      obtain ⟨acc', hone, hrest⟩ := Option.bind_eq_some_iff.mp h
      split at hone
      · cases hone
      · cases hone
        refine ih hrest ?_
        rw [List.length_append, List.length_take]
        omega

/-- Only ports that fit are told. -/
theorem fits_of_tells {maxLen : Nat} {ports : List (BitVec 16)} {text : List Char}
    (hpos : 0 < maxLen) (h : portsString maxLen ports [] = some text) (htells : Tells text ports) :
    Fits maxLen ports := by
  have hshort := length_portsString h hpos
  have hlong := length_flatMap_of_tells htells
  by_cases hlt : (ports.flatMap portText).length < maxLen
  · exact .inl hlt
  right
  have hfull : (ports.flatMap portText).length = maxLen := by omega
  rcases List.eq_nil_or_concat ports with rfl | ⟨before, last, rfl⟩
  · rw [List.flatMap_nil, List.length_nil] at hfull
    omega
  · rw [List.concat_eq_append] at *
    rw [List.flatMap_append, List.length_append, List.flatMap_singleton] at hfull
    have hlast : 0 < (portText last).length := by
      rw [portText, List.length_append, List.length_singleton]
      omega
    cases before with
    | nil => exact ⟨last, rfl, by simpa using hfull⟩
    | cons p ps =>
        -- With a second port the test of the last one sees that its text is too long.
        have hbefore : portsString maxLen (p :: ps) [] = some ((p :: ps).flatMap portText) :=
          portsString_of_lt (by rw [List.length_nil]; omega)
        have hacc : 0 < ((p :: ps).flatMap portText).length := by
          rw [List.flatMap_cons, portText, List.length_append, List.length_append,
            List.length_singleton]
          omega
        rw [portsString_append, hbefore, Option.bind_some, portsString, appendPort,
          if_pos (by omega)] at h
        cases h

/-- The ports of all slots fit in the buffer of the source. -/
theorem fits_boundPorts (g : Globals) : Fits insListeningPortsMaxLen g.boundPorts := by
  have hports : g.boundPorts.length ≤ maxThreadCount := by
    have hle := List.length_filterMap_le (fun i =>
      if (g.workers i).inUse ∧ (g.net.sock i).boundPortNum ≠ 0
      then some (g.net.sock i).boundPortNum else none) (List.range maxThreadCount)
    rwa [List.length_range] at hle
  have htext : ∀ ports : List (BitVec 16), (ports.flatMap portText).length ≤ 5 * ports.length := by
    intro ports
    induction ports with
    | nil => exact Nat.le_refl _
    | cons p ps ih =>
        have hlen := length_portText p
        rw [List.flatMap_cons, List.length_append, List.length_cons]
        omega
  have hall := htext g.boundPorts
  have hmax : 5 * maxThreadCount < insListeningPortsMaxLen := by decide
  exact .inl (by omega)

/-! ## Publication -/

/-- The program with what its publications have come to. -/
structure PortState where
  ins : State := {}
  published : List Char := []
  /-- The publication of the last step has failed. -/
  failed : Bool := false

/-- Is the activation about to publish? -/
def Frame.publishing (f : Frame) (g : Globals) : Bool :=
  match f.stage with
  | .post _ _ => g.net.pendingPortChange
  | _ => false

/-- Does the event take the mark of a change and publish? -/
def publishing (s : State) (e : Event) : Bool :=
  match acting s e with
  | some (f, _) => f.publishing s.g
  | none => false

/-- A step of the program, and the return code of the `ioctl` if it publishes. -/
def portStep (maxLen : Nat) (clientId : BitVec 16) (x : PortState) (e : Event × Int) :
    Option PortState :=
  match (ins clientId).step x.ins e.1 with
  | none => none
  | some s' =>
      if publishing x.ins e.1 then
        match portsString maxLen s'.g.boundPorts [] with
        | none => some { x with ins := s', failed := true }
        | some text =>
            if e.2 = 0 then some { ins := s', published := text, failed := false }
            else some { x with ins := s', failed := true }
      else some { x with ins := s', failed := false }

/-- The INS with `INS_LISTENING_PORTS_MAX_LEN` as `maxLen`. -/
def publisher (maxLen : Nat) (clientId : BitVec 16) : System PortState (Event × Int) where
  init := {}
  step := portStep maxLen clientId

/-- Without a pending change the string published last tells the ports, and a change
whose publication has failed is still pending. -/
structure PortsTold (x : PortState) : Prop where
  current : x.ins.g.net.pendingPortChange = false → Tells x.published x.ins.g.boundPorts
  retried : x.failed = true → x.ins.g.net.pendingPortChange = true

/-- A bind that is about to return has its slot in use. -/
def bindsInUse (s : State) (e : Event) : Prop :=
  ∀ x ∈ acting s e, x.1.inCall = true → x.1.req.type = .socketBind →
    (s.g.workers (x.1.worker.getD 0)).inUse = true

/-- A publication succeeds, with ports that fit. -/
def publishesWell (maxLen : Nat) (x : PortState) (e : Event × Int) : Prop :=
  publishing x.ins e.1 = true → e.2 = 0 ∧ Fits maxLen x.ins.g.boundPorts

/-! ## What a step does to the ports -/

/-- The mark and the ports are the same. -/
def SamePorts (n n' : NetState) : Prop :=
  n'.pendingPortChange = n.pendingPortChange ∧
    ∀ w, (n'.sock w).boundPortNum = (n.sock w).boundPortNum

theorem SamePorts.refl (n : NetState) : SamePorts n n := ⟨rfl, fun _ => rfl⟩

theorem SamePorts.trans {n n' n'' : NetState} (h : SamePorts n n') (h' : SamePorts n' n'') :
    SamePorts n n'' := ⟨h'.1.trans h.1, fun w => (h'.2 w).trans (h.2 w)⟩

theorem samePorts_modifySock (n : NetState) (w : Nat) (f : Socket → Socket)
    (hf : ∀ x, (f x).boundPortNum = x.boundPortNum) : SamePorts n (n.modifySock w f) := by
  refine ⟨rfl, fun v => ?_⟩
  by_cases hv : v = w
  · subst hv
    rw [sock_modifySock_self, hf]
  · rw [sock_modifySock_ne n f hv]

/-- A slot that is not in use is not bound. -/
def FreeUnbound (g : Globals) : Prop :=
  ∀ w, (g.workers w).inUse = false → (g.net.sock w).boundPortNum = 0

/-- Every change of the ports is marked. -/
structure Marks (g g' : Globals) : Prop where
  free : FreeUnbound g → FreeUnbound g'
  marked : g'.net.pendingPortChange = false → g.net.pendingPortChange = false ∧
    ∀ w, (g'.net.sock w).boundPortNum = (g.net.sock w).boundPortNum

/-- Only the ports matter for what is published, as long as free slots have none. -/
theorem boundPorts_congr {g g' : Globals} (h : FreeUnbound g) (h' : FreeUnbound g')
    (hport : ∀ w, (g'.net.sock w).boundPortNum = (g.net.sock w).boundPortNum) :
    g'.boundPorts = g.boundPorts := by
  have hslot : ∀ {g : Globals}, FreeUnbound g → ∀ w,
      ((g.workers w).inUse = true ∧ (g.net.sock w).boundPortNum ≠ 0) ↔
        (g.net.sock w).boundPortNum ≠ 0 := by
    intro g hfree w
    constructor
    · exact And.right
    · intro hport
      refine ⟨?_, hport⟩
      by_contra huse
      exact hport (hfree w (Bool.eq_false_iff.mpr huse))
  unfold Globals.boundPorts
  apply List.filterMap_congr
  intro w _
  simp only [hslot h w, hslot h' w]
  rw [hport w]

namespace Marks

variable {g g' g'' : Globals}

theorem refl (g : Globals) : Marks g g := ⟨id, fun h => ⟨h, fun _ => rfl⟩⟩

theorem trans (h : Marks g g') (h' : Marks g' g'') : Marks g g'' where
  free hfree := h'.free (h.free hfree)
  marked hpending := by
    obtain ⟨hpending', hport'⟩ := h'.marked hpending
    obtain ⟨hpending, hport⟩ := h.marked hpending'
    exact ⟨hpending, fun w => (hport' w).trans (hport w)⟩

/-- The ports stay as they are, and no slot is set free. -/
theorem of_same (hports : SamePorts g.net g'.net)
    (huse : ∀ w, (g'.workers w).inUse = false → (g.workers w).inUse = false) : Marks g g' where
  free hfree w hw := by
    rw [hports.2]
    exact hfree w (huse w hw)
  marked hpending := ⟨hports.1 ▸ hpending, hports.2⟩

theorem modifyWorker (g : Globals) (w : Nat) {f : ThreadItem → ThreadItem}
    (hf : (f (g.workers w)).inUse = false → (g.workers w).inUse = false) :
    Marks g (g.modifyWorker w f) := by
  refine of_same (SamePorts.refl g.net) ?_
  intro v hv
  by_cases hvw : v = w
  · subst hvw
    simp only [Globals.modifyWorker, Function.update_self] at hv
    exact hf hv
  · simpa only [Globals.modifyWorker, Function.update_of_ne hvw] using hv

theorem acquireSlot (g : Globals) (w : Nat) : Marks g (g.acquireSlot w) :=
  modifyWorker g w fun h => nomatch h

theorem releaseOplock (g : Globals) (w : Nat) : Marks g (g.releaseOplock w) := by
  unfold Globals.releaseOplock
  split
  · exact modifyWorker g w id
  · exact refl g

theorem unlockWorker (g : Globals) (worker : Option Nat) : Marks g (Ins.unlockWorker worker g) := by
  cases worker with
  | none => exact refl g
  | some w => exact releaseOplock g w

/-- A close gives up the port of its slot. -/
theorem internalClose (g : Globals) (w : Nat) :
    Marks g { g with net := xeNetInternalCloseSocket w g.net } where
  free hfree v hv := by
    by_cases hvw : v = w
    · subst hvw
      simp only [xeNetInternalCloseSocket, sock_modifySock_self, closedSocket]
    · simp only [xeNetInternalCloseSocket, sock_modifySock_ne _ _ hvw]
      exact hfree v hv
  marked hpending := by
    have hmark : (if (g.net.sock w).boundPortNum ≠ 0 then true else g.net.pendingPortChange) =
        false := hpending
    split at hmark
    · cases hmark
    · rename_i hport
      refine ⟨hmark, fun v => ?_⟩
      by_cases hvw : v = w
      · subst hvw
        simp only [xeNetInternalCloseSocket, sock_modifySock_self, closedSocket]
        exact (not_not.mp hport).symm
      · simp only [xeNetInternalCloseSocket, sock_modifySock_ne _ _ hvw]

/-- A slot is set free after the close has given up its port. -/
theorem releaseWorkerThread (g : Globals) (w : Nat) : Marks g (g.releaseWorkerThread w) := by
  -- the port has been given up, and marked, when the slot is set free
  refine (internalClose g w).trans ⟨?_, ?_⟩
  · intro hfree v hv
    by_cases hvw : v = w
    · subst hvw
      simp only [Globals.releaseWorkerThread, Globals.modifyWorker, sock_modifySock_self]
    · simp only [Globals.releaseWorkerThread, Globals.modifyWorker, Function.update_of_ne hvw]
        at hv
      simp only [Globals.releaseWorkerThread, Globals.modifyWorker, sock_modifySock_ne _ _ hvw]
      exact hfree v hv
  · intro hpending
    refine ⟨hpending, fun v => ?_⟩
    by_cases hvw : v = w
    · subst hvw
      simp only [Globals.releaseWorkerThread, Globals.modifyWorker, xeNetInternalCloseSocket,
        sock_modifySock_self, closedSocket]
    · simp only [Globals.releaseWorkerThread, Globals.modifyWorker, sock_modifySock_ne _ _ hvw]

end Marks

/-! ## The steps of an activation -/

section Activation

variable {clientId : BitVec 16} {g g' : Globals} {f : Frame} {i : Input} {next : ProcNext}

theorem samePorts_recordPollEvents (visited : List (Nat × Option (BitVec 32))) (n : NetState) :
    SamePorts n (recordPollEvents visited n) := by
  induction visited generalizing n with
  | nil => exact SamePorts.refl n
  | cons x xs ih =>
      have hone := samePorts_modifySock n x.1 (fun w => { w with pollEvents := x.2.getD 0 })
        fun _ => rfl
      exact hone.trans (ih _)

theorem samePorts_stateFlags (n : NetState) (slot : Nat) (f : MtFlags → MtFlags) :
    SamePorts n (n.modifySock slot fun w => { w with stateFlags := f w.stateFlags }) :=
  samePorts_modifySock n slot (fun w => { w with stateFlags := f w.stateFlags }) fun _ => rfl

theorem samePorts_recvResult (req : MtRequest) (slot size : Nat) (e : RecvEnd) (n : NetState) :
    SamePorts n ((recvResult req slot size e).effect n) := by
  cases e with
  | remoteClosed o => exact samePorts_stateFlags n slot (· ||| MtFlags.remoteClosed)
  | nothing o => exact samePorts_stateFlags n slot fun _ => 0
  | failed o => exact SamePorts.refl n
  | data o => exact SamePorts.refl n
  | internal o => exact SamePorts.refl n

theorem create_samePorts {req : MtRequest} {slot : Nat} {os rest : List Outcome}
    {r : HandlerResult} (h : xeNetCreateSocket clientId req slot os = .ok (r, rest))
    (n : NetState) : SamePorts n (r.effect n) := by
  obtain ⟨o, mid, -, h⟩ := Script.bind_ok h
  simp only [xeNetInitSocket_eq] at h
  cases Script.pure_ok h
  refine ⟨rfl, fun v => ?_⟩
  by_cases hv : v = slot
  · subst hv
    simp only [sock_modifySock_self]
  · simp only [sock_modifySock_ne n _ hv]

/-- Only a bind and a close change a port. -/
theorem handler_samePorts {req : MtRequest} {worker : Option Nat} {g₀ : Globals}
    {os rest : List Outcome} {r : HandlerResult} (hbind : req.type ≠ .socketBind)
    (hclose : req.type ≠ .socketClose) (h : handler clientId req worker g₀ os = .ok (r, rest))
    (n : NetState) : SamePorts n (r.effect n) := by
  have haccept : ∀ {o : Outcome} {os : List Outcome}, acceptInit req o os = .ok (r, rest) →
      SamePorts n (r.effect n) := by
    intro o os h
    simp only [acceptInit, xeNetInitSocket_eq] at h
    cases Script.pure_ok h
    exact SamePorts.refl n
  unfold handler at h
  cases ht : req.type <;> rw [ht] at h <;> simp only [] at h
  case socketBind => exact absurd ht hbind
  case socketClose => exact absurd ht hclose
  case socketCreate => exact create_samePorts h n
  case socketAccept =>
    obtain ⟨o, mid, -, ho⟩ := Script.ask_bind_ok h
    split at ho
    · cases Script.pure_ok ho
      exact SamePorts.refl n
    split at ho
    · obtain ⟨⟨rc, err⟩, mid', -, ho⟩ := Script.bind_ok ho
      by_cases hrc : rc = 0
      · subst hrc
        exact haccept ho
      · simp only [hrc, ne_eq, not_false_iff, if_true] at ho
        obtain ⟨_, _, -, ho⟩ := Script.ask_bind_ok ho
        cases Script.pure_ok ho
        exact SamePorts.refl n
    · exact haccept ho
  case socketSend =>
    obtain ⟨e, mid, -, h⟩ := Script.bind_ok h
    cases Script.pure_ok h
    cases e.failed with
    | none => exact SamePorts.refl n
    | some err =>
        exact samePorts_stateFlags n _ fun _ =>
          if xeGetNegErrnoVal err = -mwEpipe then MtFlags.remoteClosed else 0
  case pollsetQuery =>
    obtain ⟨o, mid, -, h⟩ := Script.ask_bind_ok h
    split at h
    · cases Script.pure_ok h
      exact SamePorts.refl n
    · cases Script.pure_ok h
      exact samePorts_recordPollEvents _ n
  case socketRecv =>
    obtain ⟨e, mid, -, h⟩ := Script.bind_ok h
    cases Script.pure_ok h
    exact samePorts_recvResult _ _ _ e n
  case socketRecvFrom =>
    obtain ⟨e, mid, -, h⟩ := Script.bind_ok h
    cases Script.pure_ok h
    exact samePorts_recvResult _ _ _ e n
  case addrBlock => cases Script.pure_ok h; exact SamePorts.refl n
  case invalid => cases Script.pure_ok h; exact SamePorts.refl n
  case unknown => cases Script.pure_ok h; exact SamePorts.refl n
  all_goals
    obtain ⟨_, _, -, h⟩ := Script.bind_ok h
    cases Script.pure_ok h
    exact SamePorts.refl n

theorem finishHandler_workers (f : Frame) (r : HandlerResult) (g : Globals) :
    (finishHandler f r g).workers = g.workers := by
  unfold finishHandler
  simp only []
  split <;> rfl

theorem bind_effect {req : MtRequest} {slot : Nat} {os rest : List Outcome} {r : HandlerResult}
    (h : xeNetBindSocket req slot os = .ok (r, rest)) :
    (∀ n, r.effect n = n) ∨ ∃ port, ∀ n, r.effect n =
      { n.modifySock slot (fun w => { w with boundPortNum := port }) with
        pendingPortChange := true } := by
  obtain ⟨o, mid, -, h⟩ := Script.ask_bind_ok h
  cases Script.pure_ok h
  by_cases hfail : o.ret < 0
  · left
    intro n
    exact if_pos hfail
  · right
    exact ⟨_, fun n => if_neg hfail⟩

/-- A bind marks its change, and a slot in use may be bound. -/
theorem marks_bind {slot : Nat} {os rest : List Outcome} {r : HandlerResult}
    (h : xeNetBindSocket f.req slot os = .ok (r, rest))
    (huse : (g.workers slot).inUse = true) : Marks g (finishHandler f r g) := by
  have hworkers := finishHandler_workers f r g
  have hnet := finishHandler_net f r g
  rcases bind_effect h with hsame | ⟨port, heffect⟩
  · rw [hsame] at hnet
    refine Marks.of_same (hnet ▸ SamePorts.refl g.net) ?_
    intro w hw
    rwa [hworkers] at hw
  · rw [heffect] at hnet
    constructor
    · intro hfree w hw
      rw [hworkers] at hw
      have hne : w ≠ slot := by
        rintro rfl
        rw [huse] at hw
        cases hw
      rw [hnet]
      have hother := sock_modifySock_ne g.net (fun w => { w with boundPortNum := port }) hne
      exact (congrArg Socket.boundPortNum hother).trans (hfree w hw)
    · intro hpending
      rw [hnet] at hpending
      cases hpending

/-- A handler that returns marks what it does to the ports. -/
theorem marks_finish {m : Native HandlerResult} {os rest : List Outcome} {r : HandlerResult}
    {issued : Option (NativeCall × Int)} (hstage : f.stage = .call m os issued)
    (hm : m os = .ok (r, rest)) (hfrom : f.FromHandler clientId)
    (huse : f.req.type = .socketBind → (g.workers (f.worker.getD 0)).inUse = true) :
    Marks g (finishHandler f r g) := by
  obtain ⟨g₀, rfl⟩ := hfrom m os issued hstage
  have huse' : ∀ w, ((finishHandler f r g).workers w).inUse = false →
      (g.workers w).inUse = false := by
    intro w hw
    rwa [finishHandler_workers] at hw
  have hnet := finishHandler_net f r g
  by_cases hbind : f.req.type = .socketBind
  · simp only [handler, hbind] at hm
    exact marks_bind hm (huse hbind)
  · by_cases hclose : f.req.type = .socketClose
    · simp only [handler, hclose] at hm
      rw [close_effect hm] at hnet
      refine (Marks.internalClose g (f.worker.getD 0)).trans (Marks.of_same ?_ huse')
      exact hnet ▸ SamePorts.refl _
    · have hsame := handler_samePorts hbind hclose hm g.net
      exact Marks.of_same (hnet ▸ hsame) huse'

theorem samePorts_assignAccepted (resp : MtResponse) (g : Globals) :
    SamePorts g.net (Globals.assignAccepted clientId resp g).2.net := by
  unfold Globals.assignAccepted
  split
  · exact SamePorts.refl g.net
  · rename_i w hw
    exact samePorts_modifySock g.net w (fun x =>
      { x with publicFd := mwSocketCreate clientId (BitVec.ofNat 64 w), localFd := resp.status })
      fun _ => rfl

theorem inUse_assignAccepted (resp : MtResponse) (g : Globals) (w : Nat)
    (hw : ((Globals.assignAccepted clientId resp g).2.workers w).inUse = false) :
    (g.workers w).inUse = false := by
  unfold Globals.assignAccepted at hw
  split at hw
  · exact hw
  · rename_i v hv
    by_cases hwv : w = v
    · subst hwv
      simp [Globals.acquireSlot, Globals.modifyWorker, Globals.setNative] at hw
    · simpa [Globals.acquireSlot, Globals.modifyWorker, Globals.setNative, hwv] using hw

/-- The mark is taken away with the publication, and nothing else is done to the ports. -/
theorem updateListeningPorts_ports (g : Globals) :
    g.updateListeningPorts.workers = g.workers ∧
      g.updateListeningPorts.net.pendingPortChange = false ∧
      g.updateListeningPorts.net.sock = g.net.sock := by
  unfold Globals.updateListeningPorts
  split
  · exact ⟨rfl, rfl, rfl⟩
  · rename_i hpending
    exact ⟨rfl, Bool.eq_false_iff.mpr hpending, rfl⟩

/-- The mark is gone, and the ports are those that were published. -/
structure Publishes (g g' : Globals) : Prop where
  free : FreeUnbound g → FreeUnbound g'
  unmarked : g'.net.pendingPortChange = false
  ports : ∀ w, (g'.net.sock w).boundPortNum = (g.net.sock w).boundPortNum

/-- With a change pending `post_process_response` publishes; without one it leaves the
ports as they are. An accept may take an available slot before. -/
theorem postProcessResponse_ports (req : MtRequest) (worker : Option Nat) (resp : MtResponse)
    (g : Globals) :
    (g.net.pendingPortChange = true →
      Publishes g (Globals.postProcessResponse clientId req worker resp g).2) ∧
    (g.net.pendingPortChange = false →
      Marks g (Globals.postProcessResponse clientId req worker resp g).2) := by
  have hupdate : ∀ g₁ : Globals, SamePorts g.net g₁.net →
      (∀ w, (g₁.workers w).inUse = false → (g.workers w).inUse = false) →
      (g.net.pendingPortChange = true → Publishes g g₁.updateListeningPorts) ∧
      (g.net.pendingPortChange = false → Marks g g₁.updateListeningPorts) := by
    intro g₁ hports huse
    obtain ⟨hworkers, hunmarked, hsock⟩ := updateListeningPorts_ports g₁
    have hfree : FreeUnbound g → FreeUnbound g₁.updateListeningPorts := by
      intro hfree w hw
      rw [hworkers] at hw
      rw [hsock, hports.2]
      exact hfree w (huse w hw)
    have hsame : ∀ w, (g₁.updateListeningPorts.net.sock w).boundPortNum =
        (g.net.sock w).boundPortNum := by
      intro w
      rw [hsock, hports.2]
    constructor
    · intro _
      exact ⟨hfree, hunmarked, hsame⟩
    · intro hpending
      exact ⟨hfree, fun _ => ⟨hpending, hsame⟩⟩
  unfold Globals.postProcessResponse
  simp only []
  split
  · exact hupdate _ (samePorts_assignAccepted _ g) (inUse_assignAccepted _ g)
  · exact hupdate g (SamePorts.refl g.net) fun _ => id

/-- What a step of an activation does to the ports. -/
theorem ProcMove.ports (h : ProcMove clientId g f i g' next) (hfrom : f.FromHandler clientId)
    (huse : f.inCall = true → f.req.type = .socketBind →
      (g.workers (f.worker.getD 0)).inUse = true) :
    (f.publishing g = true → Publishes g g') ∧ (f.publishing g = false → Marks g g') := by
  have quiet : (∀ rc resp, f.stage ≠ .post rc resp) → Marks g g' →
      (f.publishing g = true → Publishes g g') ∧ (f.publishing g = false → Marks g g') := by
    intro hstage hmarks
    constructor
    · intro hpublish
      unfold Frame.publishing at hpublish
      split at hpublish
      · rename_i rc resp hpost
        exact absurd hpost (hstage rc resp)
      · cases hpublish
    · intro _
      exact hmarks
  cases h with
  | post hstage =>
      -- the only place at which the ports are published
      simp only [Frame.publishing, hstage]
      exact postProcessResponse_ports f.req f.worker _ g
  | issue hstage => exact quiet (by simp [hstage]) (Marks.refl g)
  | receive hstage => exact quiet (by simp [hstage]) (Marks.refl g)
  | finish hstage hm =>
      refine quiet (by simp [hstage]) (marks_finish hstage hm hfrom ?_)
      intro hbind
      exact huse (by simp [Frame.inCall, hstage]) hbind
  | unlock hstage => exact quiet (by simp [hstage]) (Marks.unlockWorker g f.worker)
  | write hstage =>
      exact quiet (by simp [hstage]) (Marks.of_same (SamePorts.refl g.net) fun _ => id)
  | release hstage =>
      exact quiet (by simp [hstage]) (Marks.of_same (SamePorts.refl g.net) fun _ => id)
  | @retireSlot rc resp w hstage =>
      exact quiet (by simp [hstage]) (Marks.releaseWorkerThread g w)
  | retire hstage => exact quiet (by simp [hstage]) (Marks.refl g)

end Activation

/-! ## The steps of the program -/

section Steps

variable {clientId : BitVec 16} {s s' : State} {g : Globals} {i : Input}

/-- The activation runs the handler of its request, with a worker if that needs one. -/
structure Frame.Proper (clientId : BitVec 16) (f : Frame) : Prop where
  fromHandler : f.FromHandler clientId
  worker : usesWorker f.req.type = true → ∃ w, f.worker = some w

theorem Frame.proper_start {g : Globals} {b : Nat} (hcan : canStart g b = true) :
    (Frame.start clientId g b).Proper clientId where
  fromHandler := Frame.fromHandler_start b
  worker huses := by
    have huses : usesWorker (g.bufs b).request.type = true := huses
    have hsome : (g.bufs b).assignedThread.isSome = true := by
      simpa only [canStart, huses, Bool.not_true, Bool.or_false] using hcan
    exact Option.isSome_iff_exists.mp hsome

theorem ProcMove.proper {g g' : Globals} {f f' : Frame}
    (h : ProcMove clientId g f i g' (.running f')) (hf : f.Proper clientId) :
    f'.Proper clientId where
  fromHandler := h.fromHandler hf.fromHandler
  worker huses := by
    obtain ⟨-, hreq, hworker, -⟩ := h.same_request
    rw [hworker]
    exact hf.worker (hreq ▸ huses)

structure Handlers (clientId : BitVec 16) (s : State) : Prop where
  disp : ∀ f, s.disp = .process f → f.Proper clientId
  worker : ∀ w f, s.pcs w = .process f → f.Proper clientId

theorem Handlers.step {e : Event} (h : Handlers clientId s)
    (hstep : (ins clientId).step s e = some s') : Handlers clientId s' := by
  refine step_rule hstep (fun i g pc reads _ hmove => ?_) fun w i g pc _ _ hmove => ?_
  · refine ⟨?_, h.worker⟩
    rintro f ⟨⟩
    generalize hpc' : DispPc.process f = pc at hmove
    cases hmove with
    | start hpc hnow hcan => cases hpc'; exact Frame.proper_start hcan
    | running hpc hproc => cases hpc'; exact hproc.proper (h.disp _ hpc)
    | returned => split at hpc' <;> cases hpc'
    | existing => unfold afterLookup at hpc'; split at hpc' <;> cases hpc'
    | newWorker => unfold afterLookup at hpc'; split at hpc' <;> cases hpc'
    | _ => cases hpc'
  · refine ⟨h.disp, ?_⟩
    intro v f hf
    by_cases hv : v = w
    · subst hv
      simp only [Function.update_self] at hf
      subst hf
      generalize hpc' : WorkerPc.process f = pc at hmove
      cases hmove with
      | dequeue hpc hq hcan => cases hpc'; exact Frame.proper_start hcan
      | running hpc hproc => cases hpc'; exact hproc.proper (h.worker _ _ hpc)
      | empty => split at hpc' <;> cases hpc'
      | _ => cases hpc'
    · exact h.worker v f (by simpa only [Function.update_of_ne hv] using hf)

/-- A step that moves no activation only marks changes. -/
theorem ports_of_idle {e : Event} {g : Globals} (hacting : acting s e = none)
    (hmarks : Marks s.g g) : (publishing s e = true → Publishes s.g g) ∧
      (publishing s e = false → Marks s.g g) := by
  have hquiet : publishing s e = false := by simp only [publishing, hacting]
  constructor
  · intro hpublish
    rw [hquiet] at hpublish
    cases hpublish
  · intro _
    exact hmarks

theorem marks_lookup {fd : MwSocketFd} {w : Nat} {g g' : Globals}
    (h : g.getWorkerThreadForFd fd = .found w g') : Marks g g' := by
  unfold Globals.getWorkerThreadForFd at h
  simp only [] at h
  repeat' split at h
  all_goals cases h
  · exact Marks.acquireSlot g w
  · exact Marks.refl g

/-- A step publishes, or it marks what it changes. -/
theorem step_ports {e : Event} (h : Handlers clientId s)
    (hstep : (ins clientId).step s e = some s') (hbind : bindsInUse s e) :
    (publishing s e = true → Publishes s.g s'.g) ∧
      (publishing s e = false → Marks s.g s'.g) := by
  refine step_rule (P := fun s' => (publishing s e = true → Publishes s.g s'.g) ∧
    (publishing s e = false → Marks s.g s'.g)) hstep
    (fun i g pc reads he hmove => ?_) fun w i g pc he _ hmove => ?_
  · subst he
    have same : ∀ g' : Globals, g'.net = s.g.net → g'.workers = s.g.workers → Marks s.g g' := by
      intro g' hnet hworkers
      refine Marks.of_same (hnet ▸ SamePorts.refl s.g.net) ?_
      intro w hw
      rwa [hworkers] at hw
    have active : ∀ f next, s.disp = .process f → ProcMove clientId s.g f i g next →
        (publishing s (.disp i) = true → Publishes s.g g) ∧
          (publishing s (.disp i) = false → Marks s.g g) := by
      intro f next hpc hproc
      have hacting : acting s (.disp i) = some (f, i) := by simp only [acting, hpc]
      simp only [publishing, hacting]
      exact hproc.ports (h.disp f hpc).fromHandler (hbind (f, i) hacting)
    show (publishing s (.disp i) = true → Publishes s.g g) ∧
      (publishing s (.disp i) = false → Marks s.g g)
    cases hmove with
    | running hpc hproc => exact active _ _ hpc hproc
    | returned hpc hproc => exact active _ _ hpc hproc
    | existing hpc _ hw =>
        -- without a socket in the request the lookup takes a free slot
        refine ports_of_idle (by simp only [acting, hpc]) ((marks_lookup hw).trans ?_)
        exact Marks.of_same (SamePorts.refl _) fun _ => id
    | @newWorker _ w hpc =>
        refine ports_of_idle (by simp only [acting, hpc]) ((Marks.acquireSlot s.g w).trans ?_)
        exact Marks.of_same (SamePorts.refl _) fun _ => id
    | lock hpc =>
        refine ports_of_idle (by simp only [acting, hpc]) (Marks.modifyWorker s.g _ ?_)
        exact id
    | enqueue hpc =>
        refine ports_of_idle (by simp only [acting, hpc]) (Marks.modifyWorker s.g _ ?_)
        exact id
    | wake hpc =>
        refine ports_of_idle (by simp only [acting, hpc]) (Marks.modifyWorker s.g _ ?_)
        exact id
    | finiPost hpc =>
        refine ports_of_idle (by simp only [acting, hpc]) (Marks.modifyWorker s.g _ ?_)
        exact id
    | queueFull hpc =>
        exact ports_of_idle (by simp only [acting, hpc]) (Marks.releaseOplock s.g _)
    | _ hpc => exact ports_of_idle (by simp only [acting, hpc]) (same _ rfl rfl)
  · subst he
    have active : ∀ f next, s.pcs w = .process f → ProcMove clientId s.g f i g next →
        (publishing s (.worker w i) = true → Publishes s.g g) ∧
          (publishing s (.worker w i) = false → Marks s.g g) := by
      intro f next hpc hproc
      have hacting : acting s (.worker w i) = some (f, i) := by simp only [acting, hpc]
      simp only [publishing, hacting]
      exact hproc.ports (h.worker w f hpc).fromHandler (hbind (f, i) hacting)
    show (publishing s (.worker w i) = true → Publishes s.g g) ∧
      (publishing s (.worker w i) = false → Marks s.g g)
    cases hmove with
    | running hpc hproc => exact active _ _ hpc hproc
    | returned hpc hproc => exact active _ _ hpc hproc
    | wait hpc =>
        refine ports_of_idle (by simp only [acting, hpc]) (Marks.modifyWorker s.g w ?_)
        exact id
    | dequeue hpc =>
        refine ports_of_idle (by simp only [acting, hpc]) (Marks.modifyWorker s.g w ?_)
        exact id
    | empty hpc => exact ports_of_idle (by simp only [acting, hpc]) (Marks.refl s.g)
    | cleanup hpc =>
        exact ports_of_idle (by simp only [acting, hpc])
          (Marks.of_same (SamePorts.refl _) fun _ => id)

end Steps

/-! ## Runs -/

section Runs

variable {clientId : BitVec 16} {maxLen : Nat} {x x' : PortState} {e : Event × Int}

/-- What holds whatever becomes of the publications. -/
structure PortInv (clientId : BitVec 16) (x : PortState) : Prop where
  handlers : Handlers clientId x.ins
  free : FreeUnbound x.ins.g

theorem portInv_init (clientId : BitVec 16) :
    PortInv clientId (publisher maxLen clientId).init where
  handlers := { disp := fun _ h => (by cases h), worker := fun _ _ h => (by cases h) }
  free := fun _ _ => rfl

theorem portsTold_init : PortsTold (publisher maxLen clientId).init where
  current := fun _ => ⟨[], rfl, List.Perm.refl _⟩
  retried := fun h => nomatch h

/-- A step of the publisher is one of the program. -/
theorem ins_step_of_portStep (h : (publisher maxLen clientId).step x e = some x') :
    (ins clientId).step x.ins e.1 = some x'.ins := by
  simp only [publisher, portStep] at h
  split at h
  · cases h
  · rename_i s' hs'
    rw [hs']
    split at h
    · split at h
      · cases h
        rfl
      · split at h <;> cases h <;> rfl
    · cases h
      rfl

theorem PortInv.step (hbind : bindsInUse x.ins e.1) (h : PortInv clientId x)
    (hstep : (publisher maxLen clientId).step x e = some x') : PortInv clientId x' := by
  have hins := ins_step_of_portStep hstep
  obtain ⟨hpublish, hquiet⟩ := step_ports h.handlers hins hbind
  refine ⟨h.handlers.step hins, ?_⟩
  cases hp : publishing x.ins e.1 with
  | true => exact (hpublish hp).free h.free
  | false => exact (hquiet hp).free h.free

/-- While buffers are released once, a bind is processed by the dispatcher in the slot
that the lookup has found. -/
theorem bindsInUse_of_tracked {closed : List (Nat × Nat)} {s : State} {ev : Event}
    (h : Tracked clientId closed s) (hproper : Handlers clientId s)
    (henabled : ((ins clientId).step s ev).isSome = true) : bindsInUse s ev := by
  rintro ⟨f, i⟩ hacting - htype
  cases ev with
  | disp j =>
      simp only [acting] at hacting
      split at hacting
      · rename_i f' hpc
        cases hacting
        obtain ⟨w, hw⟩ := (hproper.disp f hpc).worker (by rw [htype]; rfl)
        have hten : f.Tenured closed s.g := by
          have hdisp := h.tenured
          rwa [hpc] at hdisp
        rw [hw]
        exact (hten.held w hw).1
      · cases hacting
  | worker w j =>
      simp only [acting] at hacting
      split at hacting
      · rename_i f' hpc
        cases hacting
        have hw : w < maxThreadCount := by
          by_contra hw
          simp [ins, Ins.step, hw] at henabled
        -- a worker has only requests from its queue, and a bind is never queued
        have hemp := h.placed.working w hw f hpc
        have hqueued := hemp.type
        rw [htype] at hqueued
        cases hqueued
      · cases hacting

theorem bindsInUse_of_releasedOnce {es : List (Event × Int)}
    (hrun : (publisher maxLen clientId).run es = some x)
    (h : (publisher maxLen clientId).Guarded (fun y e => releasedOnce y.ins e.1) es) :
    (publisher maxLen clientId).Guarded (fun y e => bindsInUse y.ins e.1) es := by
  have hinit : (∃ closed, Tracked clientId closed (publisher maxLen clientId).init.ins) ∧
      Handlers clientId (publisher maxLen clientId).init.ins :=
    ⟨⟨[], Tracked.init clientId⟩, (portInv_init clientId).handlers⟩
  refine (@System.guardedFrom_iff_always _ _ (publisher maxLen clientId)
    (fun y e => releasedOnce y.ins e.1) (fun y e => bindsInUse y.ins e.1)
    (fun y => (∃ closed, Tracked clientId closed y.ins) ∧ Handlers clientId y.ins) (fun _ => True)
    ?_ ?_ es _ x h hrun hinit trivial).mp fun _ _ _ _ => trivial
  · rintro y ev y' hguard ⟨⟨closed, htracked⟩, hproper⟩ hstep
    have hins := ins_step_of_portStep hstep
    exact ⟨⟨_, Tracked.step clientId closed _ _ _ hguard hins htracked⟩, hproper.step hins⟩
  · rintro y ev y' - ⟨⟨closed, htracked⟩, hproper⟩ - hstep
    refine iff_of_true trivial (bindsInUse_of_tracked htracked hproper ?_)
    rw [ins_step_of_portStep hstep]
    rfl

/-- Without a publication the string is as good as it was. -/
theorem portsTold_step_quiet (hbind : bindsInUse x.ins e.1) (h : PortInv clientId x)
    (htold : PortsTold x) (hstep : (publisher maxLen clientId).step x e = some x')
    (hquiet : publishing x.ins e.1 = false) : PortsTold x' := by
  have hins := ins_step_of_portStep hstep
  have hmarks := (step_ports h.handlers hins hbind).2 hquiet
  have hfree := (PortInv.step hbind h hstep).free
  have hx' : x' = { x with ins := x'.ins, failed := false } := by
    simp only [publisher, portStep, hins, hquiet, Bool.false_eq_true, if_false] at hstep
    exact (Option.some.inj hstep).symm
  constructor
  · intro hpending
    obtain ⟨hpending', hports⟩ := hmarks.marked hpending
    rw [boundPorts_congr h.free hfree hports, hx']
    exact htold.current hpending'
  · intro hfailed
    rw [hx'] at hfailed
    cases hfailed

/-- A publication takes the mark away, so it is to succeed with the ports as they are. -/
theorem portsTold_step_publishing (hpos : 0 < maxLen) (hbind : bindsInUse x.ins e.1)
    (h : PortInv clientId x) (hstep : (publisher maxLen clientId).step x e = some x')
    (hpublish : publishing x.ins e.1 = true) :
    PortsTold x' ↔ e.2 = 0 ∧ Fits maxLen x.ins.g.boundPorts := by
  have hins := ins_step_of_portStep hstep
  have hpub := (step_ports h.handlers hins hbind).1 hpublish
  have hfree := (PortInv.step hbind h hstep).free
  have hports := boundPorts_congr h.free hfree hpub.ports
  -- behind a failure no mark is left that would have the publication tried again
  have lost : x'.failed = true → ¬ PortsTold x' := by
    intro hfailed htold
    have hpending := htold.retried hfailed
    rw [hpub.unmarked] at hpending
    cases hpending
  simp only [publisher, portStep, hins, hpublish, if_true, hports] at hstep
  cases hbuilt : portsString maxLen x.ins.g.boundPorts [] with
  | none =>
      rw [hbuilt] at hstep
      refine iff_of_false (lost ?_) ?_
      · rw [← Option.some.inj hstep]
      · rintro ⟨-, hfits⟩
        obtain ⟨text, htext, -⟩ := portsString_of_fits hfits
        rw [hbuilt] at htext
        cases htext
  | some text =>
      rw [hbuilt] at hstep
      simp only [] at hstep
      by_cases hrc : e.2 = 0
      · rw [if_pos hrc] at hstep
        have hx' : x' = { ins := x'.ins, published := text, failed := false } :=
          (Option.some.inj hstep).symm
        constructor
        · intro htold
          refine ⟨hrc, fits_of_tells hpos hbuilt ?_⟩
          have htells := htold.current hpub.unmarked
          rw [hports, hx'] at htells
          exact htells
        · rintro ⟨-, hfits⟩
          constructor
          · intro _
            obtain ⟨text', htext', hread⟩ := portsString_of_fits hfits
            rw [hbuilt] at htext'
            cases htext'
            rw [hports, hx']
            exact ⟨_, hread, List.Perm.refl _⟩
          · intro hfailed
            rw [hx'] at hfailed
            cases hfailed
      · rw [if_neg hrc] at hstep
        refine iff_of_false (lost ?_) fun hgood => hrc hgood.1
        rw [← Option.some.inj hstep]

theorem portsTold_step_iff (hpos : 0 < maxLen) (hbind : bindsInUse x.ins e.1)
    (h : PortInv clientId x) (htold : PortsTold x)
    (hstep : (publisher maxLen clientId).step x e = some x') :
    PortsTold x' ↔ publishesWell maxLen x e := by
  cases hp : publishing x.ins e.1 with
  | false =>
      refine iff_of_true (portsTold_step_quiet hbind h htold hstep hp) fun hpublish => ?_
      rw [hp] at hpublish
      cases hpublish
  | true =>
      rw [portsTold_step_publishing hpos hbind h hstep hp]
      exact ⟨fun hgood _ => hgood, fun hgood => hgood hp⟩

/-- In a run whose binds find their slot in use, what was published tells the ports
whenever no change is pending, and a publication that failed is tried again, exactly if
every publication succeeds with ports that fit. -/
theorem listening_ports_published_iff (hpos : 0 < maxLen) (clientId : BitVec 16)
    (es : List (Event × Int)) (x : PortState)
    (hrun : (publisher maxLen clientId).run es = some x)
    (hbind : (publisher maxLen clientId).Guarded (fun y e => bindsInUse y.ins e.1) es) :
    (∀ past y, past <+: es → (publisher maxLen clientId).run past = some y → PortsTold y) ↔
      (publisher maxLen clientId).Guarded (publishesWell maxLen) es :=
  (publisher maxLen clientId).guardedFrom_iff_always
    (fun _ _ _ hb h hstep => PortInv.step hb h hstep)
    (fun _ _ _ hb h htold hstep => portsTold_step_iff hpos hb h htold hstep)
    hbind hrun (portInv_init clientId) portsTold_init

end Runs

/-- In the buffer of the source all ports fit, so only the `ioctl` decides. -/
theorem guarded_publishesWell {clientId : BitVec 16} {es : List (Event × Int)}
    (h : ∀ e ∈ es, e.2 = 0) : (publisher insListeningPortsMaxLen clientId).Guarded
      (publishesWell insListeningPortsMaxLen) es := by
  refine System.GuardedFrom.mono _ ?_ (System.guardedFrom_of_mem _ _ h)
  intro x e hrc _
  exact ⟨hrc, fits_boundPorts x.ins.g⟩

instance (s : State) (e : Event) : Decidable (bindsInUse s e) := by
  unfold bindsInUse
  infer_instance

/-- Port 80 on the socket of slot 0 of client 1. -/
def bindRequest (id : BitVec 64) : MtRequest :=
  { type := .socketBind, size := 60, id := id, sockfd := mwSocketCreate 1 0,
    sockaddr := { sinFamily := 1, sinPort := 0x5000 } }

/-- A socket is created, bound and listened on. -/
def bindEvents : List Event :=
  serveEvents (createRequest 1) { ret := 3 } ++ serveEvents (bindRequest 2) {} ++
    serveEvents { type := .socketListen, size := 48, id := 3, sockfd := mwSocketCreate 1 0 } {}

/-- All publications succeed, and the port is told. -/
theorem listening_ports_published_iff_bindEvents :
    ∃ x, (publisher 1024 1).run (bindEvents.map (·, 0)) = some x ∧
      x.published = ['5', '0', ' '] ∧
      ∀ past y, past <+: bindEvents.map (·, 0) → (publisher 1024 1).run past = some y →
        PortsTold y := by
  have hsome : ((publisher 1024 1).run (bindEvents.map (·, 0))).map PortState.published =
      some ['5', '0', ' '] := by
    decide +kernel
  obtain ⟨x, hrun, hpublished⟩ := Option.map_eq_some_iff.mp hsome
  refine ⟨x, hrun, hpublished, ?_⟩
  refine (listening_ports_published_iff (by decide) 1 _ x hrun (by decide +kernel)).mpr ?_
  apply guarded_publishesWell
  simp

/-- The publication of the bind fails: no change is pending any more, the request after it
does not publish, and the port is never told. -/
theorem listening_port_lost :
    ((publisher 1024 1).run (bindEvents.map (·, -5))).map (fun x =>
      (x.published, x.ins.g.net.pendingPortChange, x.ins.g.boundPorts)) = some ([], false, [80]) ∧
    ¬ ∀ past y, past <+: bindEvents.map (·, -5) → (publisher 1024 1).run past = some y →
      PortsTold y := by
  have hsome : ((publisher 1024 1).run (bindEvents.map (·, -5))).map (fun x =>
      (x.published, x.ins.g.net.pendingPortChange, x.ins.g.boundPorts)) =
        some ([], false, [80]) := by
    decide +kernel
  refine ⟨hsome, ?_⟩
  intro h
  obtain ⟨x, hrun, hx⟩ := Option.map_eq_some_iff.mp hsome
  simp only [Prod.mk.injEq] at hx
  obtain ⟨hpublished, hpending, hports⟩ := hx
  obtain ⟨ns, hread, hperm⟩ := (h _ x (List.prefix_refl _) hrun).current hpending
  rw [hpublished] at hread
  rw [hports] at hperm
  cases hread
  exact absurd hperm.length_eq (by decide)

end MagicWand.Ins
