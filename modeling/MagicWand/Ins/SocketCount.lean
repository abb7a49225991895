import MagicWand.Ins.NativeSockets
import MagicWand.Ins.SlotAccount

/-!
# The number of open sockets

`network_stats_socket_ct` goes up when a create or an accept has been processed,
and down when a slot gives up its native socket. A native socket that a request
has opened is in the hands of the request until it is given to a slot or closed
again. Neither a create whose call of `socket` has failed nor an accepted
connection that finds no slot takes back its increment.
-/

namespace MagicWand.Ins

open Foundation

/-! ## The sockets of the requests in progress -/

/-- The native sockets that an activation has opened and not given to a slot. -/
def Frame.inHand (f : Frame) : List Int :=
  match f.stage with
  | .call m os _ => keptOpen (Script.trace m os)
  | .unlock _ resp => if f.req.type = .socketAccept ∧ 0 ≤ resp.status then [resp.status] else []
  | .post _ resp => if f.req.type = .socketAccept ∧ 0 ≤ resp.status then [resp.status] else []
  | _ => []

/-- Those among them that are counted: the handler has returned. -/
def Frame.countedInHand (f : Frame) : List Int := if f.inCall then [] else f.inHand

/-- A quantity of the activation of a thread. -/
def DispPc.sum (φ : Frame → Nat) : DispPc → Nat
  | .process f => φ f
  | _ => 0

def WorkerPc.sum (φ : Frame → Nat) : WorkerPc → Nat
  | .process f => φ f
  | _ => 0

def ProcNext.sum (φ : Frame → Nat) : ProcNext → Nat
  | .running f => φ f
  | .returned _ => 0

def overFrames (φ : Frame → Nat) (s : State) : Nat :=
  s.disp.sum φ + tally maxThreadCount fun w => (s.pcs w).sum φ

/-- How often `n` is in the hands of requests in progress. -/
def inHands (n : Int) (s : State) : Nat := overFrames (fun f => f.inHand.count n) s

/-- The accepted connections that are counted and on their way to a slot. -/
def onTheWay (s : State) : Nat := overFrames (fun f => f.countedInHand.length) s

theorem overFrames_disp (φ : Frame → Nat) (s : State) (g : Globals) (pc : DispPc)
    (reads : List MtRequest) :
    overFrames φ ⟨g, pc, s.pcs, reads⟩ + s.disp.sum φ = overFrames φ s + pc.sum φ := by
  simp only [overFrames]
  omega

theorem overFrames_worker (φ : Frame → Nat) (s : State) (g : Globals) {w : Nat}
    (hw : w < maxThreadCount) (pc : WorkerPc) :
    overFrames φ ⟨g, s.disp, Function.update s.pcs w pc, s.reads⟩ + (s.pcs w).sum φ =
      overFrames φ s + pc.sum φ := by
  have hchange := tally_change hw (f := fun v => (s.pcs v).sum φ)
    (k := fun v => (Function.update s.pcs w pc v).sum φ)
    fun v hv => by simp only [Function.update_of_ne hv]
  simp only [Function.update_self] at hchange
  simp only [overFrames]
  omega

/-! ## The sockets of the slots -/

/-- What the open socket of a slot contributes. -/
def slotSocket (φ : Int → Nat) (closed : List (Nat × Nat)) (g : Globals) (v : Nat) : Nat :=
  if IsOpen closed g v (g.workers v).gen then φ (g.net.sock v).localFd else 0

def slotSockets (φ : Int → Nat) (closed : List (Nat × Nat)) (g : Globals) : Nat :=
  tally maxThreadCount (slotSocket φ closed g)

/-- The slots that hold the native socket `n`. -/
def slotsHolding (n : Int) (closed : List (Nat × Nat)) (s : State) : Nat :=
  slotSockets (fun fd => if fd = n then 1 else 0) closed s.g

theorem openSockets_eq (closed : List (Nat × Nat)) (s : State) :
    openSockets closed s = slotSockets (fun _ => 1) closed s.g := rfl

section Slots

variable {clientId : BitVec 16} {closed cl : List (Nat × Nat)} {g g' : Globals} {v w : Nat}
  {φ : Int → Nat}

theorem slotSocket_keeps (hk : Keeps g g' v) (hcl : ∀ n, (v, n) ∉ cl) :
    slotSocket φ (closed ++ cl) g' v = slotSocket φ closed g v := by
  have hopen : IsOpen (closed ++ cl) g' v (g'.workers v).gen ↔
      IsOpen closed g v (g.workers v).gen := by
    simp only [IsOpen, hk.natives, hk.gen, List.mem_append, hcl, or_false]
  rw [slotSocket, slotSocket, hk.fds.2]
  exact if_congr hopen rfl rfl

theorem slotSockets_keeps (hk : ∀ v, Keeps g g' v) (hcl : cl = []) :
    slotSockets φ (closed ++ cl) g' = slotSockets φ closed g := by
  subst hcl
  exact tally_congr fun v _ => slotSocket_keeps (hk v) fun _ => List.not_mem_nil

theorem slotSockets_one (φ : Int → Nat) (closed : List (Nat × Nat)) (hw : w < maxThreadCount)
    (hk : ∀ v, v ≠ w → Keeps g g' v) (hcl : ∀ v n, v ≠ w → (v, n) ∉ cl) :
    slotSockets φ (closed ++ cl) g' + slotSocket φ closed g w =
      slotSockets φ closed g + slotSocket φ (closed ++ cl) g' w :=
  tally_change hw fun v hv => slotSocket_keeps (hk v hv) fun n => hcl v n hv

theorem slotSocket_open (h : IsOpen closed g v (g.workers v).gen) :
    slotSocket φ closed g v = φ (g.net.sock v).localFd := if_pos h

theorem slotSocket_shut (h : ¬ IsOpen closed g v (g.workers v).gen) :
    slotSocket φ closed g v = 0 := if_neg h

theorem SlotOk.slotSocket_isFd (h : SlotOk clientId closed g v)
    (hfd : mwSocketIsFd (g.net.sock v).publicFd = true) :
    slotSocket φ closed g v = φ (g.net.sock v).localFd :=
  slotSocket_open (h.open_iff_isFd.mpr hfd)

theorem SlotOk.slotSocket_notFd (h : SlotOk clientId closed g v)
    (hfd : mwSocketIsFd (g.net.sock v).publicFd = false) : slotSocket φ closed g v = 0 := by
  refine slotSocket_shut fun hopen => ?_
  rw [h.open_iff_isFd.mp hopen] at hfd
  cases hfd

theorem SlotOk.localFd_nonneg (h : SlotOk clientId closed g v)
    (hopen : IsOpen closed g v (g.workers v).gen) : 0 ≤ (g.net.sock v).localFd := by
  obtain ⟨fd, hfd⟩ := Option.isSome_iff_exists.mp hopen.1
  obtain ⟨-, hnonneg, hlocal, -⟩ := h.live fd hfd hopen.2
  rw [hlocal]
  exact hnonneg

end Slots

/-! ## What a step opens, closes and miscounts -/

/-- The socket that the next outcome opens. -/
def Frame.opens (f : Frame) (i : Input) : List Int :=
  match f.stage, i with
  | .call _ _ (some (c, _)), .outcome o => (c.opened o).toList
  | _, _ => []

/-- The native socket that `xe_net_internal_close_socket` closes. -/
def Globals.slotNative (g : Globals) (w : Nat) : List Int :=
  if (g.net.sock w).localFd ≠ -1 then [(g.net.sock w).localFd] else []

/-- The native sockets that the next step of an activation closes: an accept gives
its connection up in its handler or for lack of a slot; the socket of a slot goes
with the end of a close, or with the release of the slot. -/
def Frame.nativeCloses (g : Globals) (f : Frame) (i : Input) : List Int :=
  match f.stage, i with
  | .call _ _ (some (c, _)), .outcome _ => c.closed.toList
  | .call m os none, .tau =>
      match m os with
      | .ok _ => if f.req.type = .socketClose then g.slotNative (f.worker.getD 0) else []
      | .error _ => []
  | .post _ resp, .tau =>
      if f.req.type = .socketAccept ∧ 0 ≤ resp.status ∧ g.availableSlot = none then [resp.status]
      else []
  | .retire _ resp, .tau => if releasesWorker f.req resp then g.slotNative (f.worker.getD 0) else []
  | _, _ => []

/-- A request that makes the count too high: a create that returns although no call
of `socket` has succeeded, or an accept whose connection finds no slot. -/
def Frame.miscounts (g : Globals) (f : Frame) : List MtRequest :=
  match f.stage with
  | .call m os none =>
      match m os with
      | .ok _ => if f.req.type = .socketCreate ∧ ∀ o ∈ os, o.ret < 0 then [f.req] else []
      | .error _ => []
  | .post _ resp =>
      if f.req.type = .socketAccept ∧ 0 ≤ resp.status ∧ g.availableSlot = none then [f.req] else []
  | _ => []

/-- The activation that an event moves, and what it receives. -/
def acting (s : State) : Event → Option (Frame × Input)
  | .disp i =>
      match s.disp with
      | .process f => some (f, i)
      | _ => none
  | .worker w i =>
      match s.pcs w with
      | .process f => some (f, i)
      | _ => none

def nativeOpens (s : State) (e : Event) : List Int :=
  match acting s e with
  | some (f, i) => f.opens i
  | none => []

def nativeCloses (s : State) (e : Event) : List Int :=
  match acting s e with
  | some (f, i) => f.nativeCloses s.g i
  | none => []

def miscounts (s : State) (e : Event) : List MtRequest :=
  match acting s e with
  | some (f, _) => f.miscounts s.g
  | none => []

/-! ## What is known of an activation -/

/-- An activation in its handler has received all its outcomes as answers, is
blocked in the call it has issued, and has no answer of `socket` below -1. -/
structure Frame.Sane (f : Frame) : Prop where
  all : ∀ m os issued, f.stage = .call m os issued → (Script.trace m os).length = os.length
  blocked : ∀ m os c fd, f.stage = .call m os (some (c, fd)) → m os = .error c
  answers : ∀ m os issued, f.stage = .call m os issued → f.req.type = .socketCreate →
    ∀ o ∈ os, -1 ≤ o.ret

/-- A close is made on a slot with an open socket, and a slot that is released has
no native descriptor any more. -/
structure Frame.Facing (g : Globals) (f : Frame) : Prop where
  closing : f.inCall = true → f.req.type = .socketClose → ∀ w, f.worker = some w →
    mwSocketIsFd (g.net.sock w).publicFd = true
  releasing : f.inCall = false → ∀ w, f.temporary = some w → (g.net.sock w).localFd = -1

/-- What the account needs of an activation that owns its slot. -/
structure Frame.Owner (closed : List (Nat × Nat)) (g : Globals) (f : Frame) : Prop where
  tenured : f.Tenured closed g
  facing : f.Facing g
  worker : ∀ w, f.worker = some w → w < maxThreadCount

/-- `socket` returns -1 if it fails. -/
def soundAnswer (f : Frame) (i : Input) : Prop :=
  match i with
  | .outcome o => f.req.type = .socketCreate → -1 ≤ o.ret
  | _ => True

section Account

variable {clientId : BitVec 16} {closed : List (Nat × Nat)} {g g' : Globals} {f f' : Frame}
  {i : Input} {next : ProcNext}

theorem Frame.sane_start (g : Globals) (b : Nat) : (Frame.start clientId g b).Sane where
  all := by
    intro m os issued hstage
    cases hstage
    rfl
  blocked := by
    intro m os c fd hstage
    cases hstage
  answers := by
    intro m os issued hstage _ o ho
    cases hstage
    cases ho

/-- Behind its handler an activation has nothing to be sane about. -/
theorem Frame.sane_of_returned (h : ∀ m os issued, f.stage ≠ .call m os issued) : f.Sane where
  all m os issued hstage := absurd hstage (h m os issued)
  blocked m os c fd hstage := absurd hstage (h m os (some (c, fd)))
  answers m os issued hstage := absurd hstage (h m os issued)

theorem ProcMove.sane (h : ProcMove clientId g f i g' (.running f')) (hsane : f.Sane)
    (hanswer : soundAnswer f i) : f'.Sane := by
  cases h with
  | issue hstage hm =>
      constructor
      · intro m os issued hstage'
        cases hstage'
        exact hsane.all _ _ _ hstage
      · intro m os c fd hstage'
        cases hstage'
        exact hm
      · intro m os issued hstage' ht
        cases hstage'
        exact hsane.answers _ _ _ hstage ht
  | @receive m os c o hstage =>
      constructor
      · intro m' os' issued hstage'
        cases hstage'
        rw [Script.trace_snoc (hsane.all _ _ _ hstage) (hsane.blocked _ _ _ _ hstage),
          List.length_append, List.length_append, hsane.all _ _ _ hstage]
        rfl
      · intro m' os' c' fd hstage'
        cases hstage'
      · intro m' os' issued hstage' ht x hx
        cases hstage'
        rcases List.mem_append.mp hx with hx | hx
        · exact hsane.answers _ _ _ hstage ht x hx
        · cases List.mem_singleton.mp hx
          exact hanswer ht
  | finish => exact Frame.sane_of_returned fun _ _ _ hstage => (by cases hstage)
  | unlock => exact Frame.sane_of_returned fun _ _ _ hstage => (by cases hstage)
  | post => exact Frame.sane_of_returned fun _ _ _ hstage => (by cases hstage)
  | write => exact Frame.sane_of_returned fun _ _ _ hstage => (by cases hstage)
  | release => exact Frame.sane_of_returned fun _ _ _ hstage => (by cases hstage)

/-- The account of a step of an activation: each native socket is where it was, or
it is opened, closed or handed on; and the count changes with the slots and the
connections on their way, a miscount apart. -/
structure Account (closed cl : List (Nat × Nat)) (g g' : Globals) (f : Frame) (i : Input)
    (next : ProcNext) : Prop where
  sockets : ∀ n, slotSockets (fun fd => if fd = n then 1 else 0) (closed ++ cl) g' +
      next.sum (fun f => f.inHand.count n) + (f.nativeCloses g i).count n =
    slotSockets (fun fd => if fd = n then 1 else 0) closed g + f.inHand.count n +
      (f.opens i).count n
  count : g'.net.socketCt + slotSockets (fun _ => 1) closed g + f.countedInHand.length =
    g.net.socketCt + slotSockets (fun _ => 1) (closed ++ cl) g' +
      next.sum (fun f => f.countedInHand.length) + (f.miscounts g).length

/-- A step that changes no slot and not the count, and neither opens nor closes. -/
theorem Account.idle {cl : List (Nat × Nat)} (hk : ∀ v, Keeps g g' v) (hcl : cl = [])
    (hct : g'.net.socketCt = g.net.socketCt)
    (hhand : ∀ n, next.sum (fun f => f.inHand.count n) = f.inHand.count n)
    (hcounted : next.sum (fun f => f.countedInHand.length) = f.countedInHand.length)
    (hopens : f.opens i = []) (hcloses : f.nativeCloses g i = []) (hmis : f.miscounts g = []) :
    Account closed cl g g' f i next where
  sockets := by
    intro n
    rw [slotSockets_keeps hk hcl, hhand n, hopens, hcloses]
  count := by
    rw [slotSockets_keeps hk hcl, hcounted, hmis, hct, List.length_nil]
    omega

theorem finishHandler_net (f : Frame) (r : HandlerResult) (g : Globals) :
    (finishHandler f r g).net = r.effect g.net := by
  unfold finishHandler
  simp only []
  split <;> rfl

theorem Frame.countedInHand_call {m : Native HandlerResult} {os : List Outcome}
    {issued : Option (NativeCall × Int)} (hstage : f.stage = .call m os issued) :
    f.countedInHand = [] := by
  rw [Frame.countedInHand, if_pos]
  rw [Frame.inCall, hstage]

theorem Frame.inHand_call {m : Native HandlerResult} {os : List Outcome}
    {issued : Option (NativeCall × Int)} (hstage : f.stage = .call m os issued) :
    f.inHand = keptOpen (Script.trace m os) := by
  rw [Frame.inHand, hstage]

/-- A native call returns. -/
theorem account_receive {m : Native HandlerResult} {os : List Outcome} {c : NativeCall × Int}
    {o : Outcome} (hfrom : f.FromHandler clientId) (hsane : f.Sane)
    (hstage : f.stage = .call m os (some c)) :
    Account closed (f.closes g) g g f (.outcome o)
      (.running { f with stage := .call m (os ++ [o]) none }) := by
  obtain ⟨c, fd⟩ := c
  have hcl : f.closes g = [] := by simp only [Frame.closes, hstage]
  have hopens : f.opens (.outcome o) = (c.opened o).toList := by
    simp only [Frame.opens, hstage]
  have hcloses : f.nativeCloses g (.outcome o) = c.closed.toList := by
    simp only [Frame.nativeCloses, hstage]
  have hmis : f.miscounts g = [] := by simp only [Frame.miscounts, hstage]
  have hm := hsane.blocked _ _ _ _ hstage
  have htrace := Script.trace_snoc (hsane.all _ _ _ hstage) hm o
  have hcounted : f.countedInHand = [] := Frame.countedInHand_call hstage
  obtain ⟨g₀, rfl⟩ := hfrom _ _ _ hstage
  obtain ⟨hgave, hclosed⟩ := handler_blocked hm
  constructor
  · intro n
    have hkept := keptOpen_snoc (o := o) hgave hclosed n
    rw [slotSockets_keeps (fun v => Keeps.refl g v) hcl, hcloses, hopens, Frame.inHand_call hstage]
    show _ + (keptOpen (Script.trace _ (os ++ [o]))).count n + _ = _
    rw [htrace]
    omega
  · have hnext : ({ f with stage := .call (handler clientId f.req f.worker g₀) (os ++ [o]) none } :
        Frame).countedInHand = [] := Frame.countedInHand_call rfl
    rw [slotSockets_keeps (fun v => Keeps.refl g v) hcl, hcounted, hmis, ProcNext.sum, hnext]
    simp

/-- A handler that is not at a slot of its own returns. -/
theorem account_finish {m : Native HandlerResult} {os rest : List Outcome} {r : HandlerResult}
    (hfrom : f.FromHandler clientId) (hvalid : assignment f.req.type ≠ .invalid)
    (hown : ownsSlot f.req.type = false) (hstage : f.stage = .call m os none)
    (hm : m os = .ok (r, rest)) :
    Account closed (f.closes g) g (finishHandler f r g) f .tau
      (.running { f with stage := .unlock r.rc r.response }) := by
  have hnot : f.req.type ≠ .socketCreate ∧ f.req.type ≠ .socketClose := by
    simpa [ownsSlot] using hown
  have hcl : f.closes g = [] := by simp only [Frame.closes, hstage, hm, hnot.2, if_false]
  have hopens : f.opens .tau = [] := by simp only [Frame.opens, hstage]
  have hcloses : f.nativeCloses g .tau = [] := by
    simp only [Frame.nativeCloses, hstage, hm, hnot.2, if_false]
  have hmis : f.miscounts g = [] := by
    simp only [Frame.miscounts, hstage, hm, hnot.1, false_and, if_false]
  have hk : ∀ v, Keeps g (finishHandler f r g) v := fun v =>
    finishHandler_keeps hstage hm hfrom hvalid fun ho => by rw [hown] at ho; cases ho
  have hcounted : f.countedInHand = [] := Frame.countedInHand_call hstage
  have hhand := Frame.inHand_call hstage
  obtain ⟨g₀, rfl⟩ := hfrom _ _ _ hstage
  by_cases haccept : f.req.type = .socketAccept
  · have hhandler : handler clientId f.req f.worker g₀ = xeNetAcceptSocket f.req := by
      rw [handler, haccept]
    rw [hhandler] at hm hhand
    obtain ⟨hkept, hct⟩ := accept_returned hm g.net
    have hnext : ({ f with stage := .unlock r.rc r.response } : Frame).inHand = f.inHand := by
      rw [hhand, hkept]
      simp only [Frame.inHand, haccept, true_and]
    constructor
    · intro n
      rw [slotSockets_keeps hk hcl, hopens, hcloses]
      show _ + ({ f with stage := .unlock r.rc r.response } : Frame).inHand.count n + _ = _
      rw [hnext]
    · rw [slotSockets_keeps hk hcl, hcounted, hmis, finishHandler_net, hct]
      show _ = _ +
        ((({ f with stage := .unlock r.rc r.response } : Frame).inHand.length : Nat) : Int) + _
      rw [hnext, hhand, hkept]
      split
      · simp only [List.length_nil, List.length_singleton]
        omega
      · simp only [List.length_nil]
        omega
  · have hplain := handler_plain clientId f.worker g₀ hnot.1 haccept
    have hempty : f.inHand = [] := by
      rw [hhand]
      exact keptOpen_plain fun x hx => hplain.mem_trace hx
    have hnext : ({ f with stage := .unlock r.rc r.response } : Frame).inHand = [] := by
      simp only [Frame.inHand, haccept, false_and, if_false]
    refine Account.idle hk hcl ?_ ?_ ?_ hopens hcloses hmis
    · rw [finishHandler_net]
      exact handler_socketCt hnot.1 haccept hnot.2 hm g.net
    · intro n
      show ({ f with stage := .unlock r.rc r.response } : Frame).inHand.count n = _
      rw [hnext, hempty]
    · show ({ f with stage := .unlock r.rc r.response } : Frame).inHand.length = _
      rw [hnext, hcounted]

/-- The handler of a create returns. -/
theorem account_create {m : Native HandlerResult} {os rest : List Outcome} {r : HandlerResult}
    {w : Nat} (hfrom : f.FromHandler clientId) (hvalid : assignment f.req.type ≠ .invalid)
    (hsane : f.Sane) (ht : f.req.type = .socketCreate) (hworker : f.worker = some w)
    (hw : w < maxThreadCount) (hvac : Vacant closed g w)
    (hok : SlotOk clientId (closed ++ f.closes g) (finishHandler f r g) w)
    (hstage : f.stage = .call m os none) (hm : m os = .ok (r, rest)) :
    Account closed (f.closes g) g (finishHandler f r g) f .tau
      (.running { f with stage := .unlock r.rc r.response }) := by
  have hcl : f.closes g = [] := by
    simp only [Frame.closes, hstage, hm, ht, reduceCtorEq, if_false]
  have hopens : f.opens .tau = [] := by simp only [Frame.opens, hstage]
  have hcloses : f.nativeCloses g .tau = [] := by
    simp only [Frame.nativeCloses, hstage, hm, ht, reduceCtorEq, if_false]
  have hmis : f.miscounts g = if ∀ o ∈ os, o.ret < 0 then [f.req] else [] := by
    simp only [Frame.miscounts, hstage, hm, ht, true_and]
  have hk : ∀ v, v ≠ w → Keeps g (finishHandler f r g) v := fun v hv =>
    finishHandler_keeps hstage hm hfrom hvalid fun _ => ⟨w, hworker, hv⟩
  have hothers : ∀ v n, v ≠ w → (v, n) ∉ f.closes g := by
    intro v n _
    rw [hcl]
    exact List.not_mem_nil
  have hone (φ : Int → Nat) := slotSockets_one φ closed hw hk hothers
  have hbefore (φ : Int → Nat) : slotSocket φ closed g w = 0 := by
    refine slotSocket_shut fun hopen => ?_
    have hsome := hopen.1
    rw [hvac.1] at hsome
    cases hsome
  have hnext : ({ f with stage := .unlock r.rc r.response } : Frame).inHand = [] := by
    simp only [Frame.inHand, ht, reduceCtorEq, false_and, if_false]
  have hcounted : f.countedInHand = [] := Frame.countedInHand_call hstage
  have hhand := Frame.inHand_call hstage
  have hlen := hsane.all _ _ _ hstage
  obtain ⟨g₀, rfl⟩ := hfrom _ _ _ hstage
  have hhandler : handler clientId f.req f.worker g₀ = xeNetCreateSocket clientId f.req w := by
    rw [handler, ht, hworker, Option.getD_some]
  rw [hhandler] at hm hhand hlen
  obtain ⟨hct, hgave, hcases⟩ := create_returned hm g.net
  have hkept : f.inHand = opens (Script.trace (xeNetCreateSocket clientId f.req w) os) := by
    rw [hhand, keptOpen, hgave, List.diff_nil]
  have hpublic := create_outcome hm g.net
  rw [← finishHandler_net f r g] at hcases hpublic hct
  rcases hcases with ⟨hstatus, hlocal, hopened, o, ho, hpos⟩ | ⟨hstatus, hopened, before, o, hos,
    hneg, hall, hreceived, -⟩
  · -- one call of `socket` has succeeded, and its descriptor goes into the slot
    have hafter (φ : Int → Nat) : slotSocket φ (closed ++ f.closes g) (finishHandler f r g) w =
        φ ((finishHandler f r g).net.sock w).localFd := by
      rcases hpublic with ⟨-, -, hpub⟩ | ⟨hst, -⟩
      · apply hok.slotSocket_isFd
        rw [hpub]
        exact mwSocketIsFd_create _ _
      · exact absurd hst (Int.not_lt.mpr hstatus)
    have hgood : ¬ ∀ o ∈ os, o.ret < 0 := fun hc => absurd (hc o ho) (Int.not_lt.mpr hpos)
    rw [if_neg hgood] at hmis
    constructor
    · intro n
      have hsum := hone fun fd => if fd = n then 1 else 0
      rw [hbefore, hafter] at hsum
      rw [hopens, hcloses, ProcNext.sum, hnext, hkept, hopened]
      simp only [List.count_nil, List.count_singleton, beq_iff_eq]
      omega
    · have hsum := hone fun _ => 1
      rw [hbefore, hafter] at hsum
      rw [hmis, ProcNext.sum, hcounted, Frame.countedInHand, if_neg (by simp [Frame.inCall]), hnext,
        hct]
      simp only [List.length_nil]
      omega
  · -- all calls have failed: the count goes up for a slot that gets nothing
    have hafter (φ : Int → Nat) :
        slotSocket φ (closed ++ f.closes g) (finishHandler f r g) w = 0 := by
      rcases hpublic with ⟨hst, -⟩ | ⟨-, hpub⟩
      · exact absurd hstatus (Int.not_lt.mpr hst)
      · exact hok.slotSocket_notFd hpub
    constructor
    · intro n
      have hsum := hone fun fd => if fd = n then 1 else 0
      rw [hbefore, hafter] at hsum
      rw [hopens, hcloses, ProcNext.sum, hnext, hkept, hopened]
      simp only [List.count_nil]
      omega
    · have hfailed : ∀ o ∈ os, o.ret < 0 := by
        have hnil : rest = [] := by
          rw [hlen, hos, List.length_append, List.length_cons] at hreceived
          exact List.length_eq_zero_iff.mp (by omega)
        intro x hx
        rw [hos, hnil] at hx
        rcases List.mem_append.mp hx with hx | hx
        · exact hall x hx
        · cases List.mem_singleton.mp hx
          exact hneg
      have hsum := hone fun _ => 1
      rw [hbefore, hafter] at hsum
      rw [if_pos hfailed] at hmis
      rw [hmis, ProcNext.sum, hcounted, Frame.countedInHand, if_neg (by simp [Frame.inCall]), hnext,
        hct]
      simp only [List.length_nil, List.length_singleton]
      omega

/-- The handler of a close returns. -/
theorem account_close {m : Native HandlerResult} {os rest : List Outcome} {r : HandlerResult}
    {w : Nat} (hfrom : f.FromHandler clientId) (hvalid : assignment f.req.type ≠ .invalid)
    (ht : f.req.type = .socketClose) (hworker : f.worker = some w) (hw : w < maxThreadCount)
    (hbefore : SlotOk clientId closed g w)
    (hfd : mwSocketIsFd (g.net.sock w).publicFd = true)
    (hok : SlotOk clientId (closed ++ f.closes g) (finishHandler f r g) w)
    (hstage : f.stage = .call m os none) (hm : m os = .ok (r, rest)) :
    Account closed (f.closes g) g (finishHandler f r g) f .tau
      (.running { f with stage := .unlock r.rc r.response }) := by
  have hcl : f.closes g = [(w, (g.workers w).gen)] := by
    simp only [Frame.closes, hstage, hm, ht, hworker, Option.getD_some, if_true]
  have hlocal : (g.net.sock w).localFd ≠ -1 := by
    have := hbefore.localFd_nonneg (hbefore.open_iff_isFd.mpr hfd)
    omega
  have hopens : f.opens .tau = [] := by simp only [Frame.opens, hstage]
  have hcloses : f.nativeCloses g .tau = [(g.net.sock w).localFd] := by
    simp only [Frame.nativeCloses, hstage, hm, ht, hworker, Option.getD_some, if_true]
    exact if_pos hlocal
  have hmis : f.miscounts g = [] := by
    simp only [Frame.miscounts, hstage, hm, ht, reduceCtorEq, false_and, if_false]
  have hk : ∀ v, v ≠ w → Keeps g (finishHandler f r g) v := fun v hv =>
    finishHandler_keeps hstage hm hfrom hvalid fun _ => ⟨w, hworker, hv⟩
  have hothers : ∀ v n, v ≠ w → (v, n) ∉ f.closes g := by
    intro v n hv hmem
    rw [hcl] at hmem
    exact hv (congrArg Prod.fst (List.mem_singleton.mp hmem))
  have hone (φ : Int → Nat) := slotSockets_one φ closed hw hk hothers
  have hnext : ({ f with stage := .unlock r.rc r.response } : Frame).inHand = [] := by
    simp only [Frame.inHand, ht, reduceCtorEq, false_and, if_false]
  have hcounted : f.countedInHand = [] := Frame.countedInHand_call hstage
  have hhand := Frame.inHand_call hstage
  obtain ⟨g₀, rfl⟩ := hfrom _ _ _ hstage
  have hempty : f.inHand = [] := by
    have hother : f.req.type ≠ .socketCreate ∧ f.req.type ≠ .socketAccept := by simp [ht]
    have hplain := handler_plain clientId f.worker g₀ hother.1 hother.2
    rw [hhand]
    exact keptOpen_plain fun x hx => hplain.mem_trace hx
  simp only [handler, ht, hworker, Option.getD_some] at hm
  have heffect := close_effect hm
  have hafter (φ : Int → Nat) :
      slotSocket φ (closed ++ f.closes g) (finishHandler f r g) w = 0 := by
    apply hok.slotSocket_notFd
    rw [finishHandler_net, (close_fds hm g.net).2]
    decide
  constructor
  · intro n
    have hsum := hone fun fd => if fd = n then 1 else 0
    rw [hafter, hbefore.slotSocket_isFd hfd] at hsum
    rw [hopens, hcloses, ProcNext.sum, hnext, hempty]
    simp only [List.count_nil, List.count_singleton, beq_iff_eq]
    omega
  · have hsum := hone fun _ => 1
    rw [hafter, hbefore.slotSocket_isFd hfd] at hsum
    have hct : (finishHandler f r g).net.socketCt = g.net.socketCt - 1 := by
      rw [finishHandler_net, heffect]
      exact if_pos hlocal
    rw [hmis, ProcNext.sum, hcounted, Frame.countedInHand, if_neg (by simp [Frame.inCall]), hnext,
      hct]
    simp only [List.length_nil]
    omega

/-- What post-processing does: the accepted connection gets the slot that is
available, or no slot changes. -/
theorem postProcessResponse_account (clientId : BitVec 16) (g : Globals) (req : MtRequest)
    (worker : Option Nat) (resp : MtResponse) :
    (Globals.postProcessResponse clientId req worker resp g).2.net.socketCt = g.net.socketCt ∧
      ((∃ w, g.availableSlot = some w ∧ req.type = .socketAccept ∧ 0 ≤ resp.status ∧
          Accepted clientId g (Globals.postProcessResponse clientId req worker resp g).2 w
            resp.status ∧
          ∀ v, v ≠ w → Keeps g (Globals.postProcessResponse clientId req worker resp g).2 v) ∨
        (¬ (req.type = .socketAccept ∧ 0 ≤ resp.status ∧ g.availableSlot ≠ none) ∧
          ∀ v, Keeps g (Globals.postProcessResponse clientId req worker resp g).2 v)) := by
  have hports (g : Globals) : g.updateListeningPorts.net.socketCt = g.net.socketCt := by
    unfold Globals.updateListeningPorts
    split <;> rfl
  unfold Globals.postProcessResponse
  simp only []
  split
  · next hacc =>
      rcases hw : g.availableSlot with _ | w
      · refine ⟨?_, .inr ⟨fun h => h.2.2 rfl, fun v => ?_⟩⟩
        · rw [hports, Globals.assignAccepted, hw]
        · rw [Globals.assignAccepted, hw]
          exact Keeps.updateListeningPorts g v
      · refine ⟨?_, .inl ⟨w, rfl, hacc.1, hacc.2, ?_, fun v hv => ?_⟩⟩
        · rw [hports, Globals.assignAccepted, hw]
          rfl
        · refine Accepted.trans_keeps ?_ (Keeps.updateListeningPorts _ w)
          rw [Globals.assignAccepted, hw]
          refine ⟨(Globals.availableSlot_spec hw).2, ?_, ?_, hacc.2, ?_, ?_, ?_⟩
          · simp only [Globals.setNative, Globals.acquireSlot, Globals.modifyWorker,
              Function.update_self]
          · simp only [Globals.setNative, Globals.acquireSlot, Globals.modifyWorker,
              Function.update_self]
          · simp only [Globals.setNative, Globals.acquireSlot, Globals.modifyWorker,
              Function.update_self]
          · simp only [Globals.setNative, sock_modifySock_self]
          · simp only [Globals.setNative, sock_modifySock_self]
        · refine Keeps.trans ?_ (Keeps.updateListeningPorts _ v)
          rw [Globals.assignAccepted, hw]
          refine ((Keeps.modifyWorker_ne g _ hv).trans (Keeps.withNet ?_)).trans
            (Keeps.setNative_ne _ _ _ hv)
          simp only [SameFds, sock_modifySock_ne _ _ hv]
          exact ⟨rfl, rfl⟩
  · next hacc =>
      refine ⟨hports g, .inr ⟨fun h => hacc ⟨h.1, h.2.1⟩, fun v => ?_⟩⟩
      exact Keeps.updateListeningPorts g v

theorem account_post {rc : Int} {resp : MtResponse}
    (hbefore : ∀ v < maxThreadCount, SlotOk clientId closed g v)
    (hok : ∀ v < maxThreadCount, SlotOk clientId (closed ++ f.closes g)
      (Globals.postProcessResponse clientId f.req f.worker resp g).2 v)
    (hstage : f.stage = .post rc resp) :
    Account closed (f.closes g) g (Globals.postProcessResponse clientId f.req f.worker resp g).2 f
      .tau (.running { f with
        stage := .write rc (Globals.postProcessResponse clientId f.req f.worker resp g).1 }) := by
  have hcl : f.closes g = [] := by simp only [Frame.closes, hstage]
  have hopens : f.opens .tau = [] := by simp only [Frame.opens, hstage]
  have hcloses : f.nativeCloses g .tau =
      if f.req.type = .socketAccept ∧ 0 ≤ resp.status ∧ g.availableSlot = none then [resp.status]
      else [] := by
    simp only [Frame.nativeCloses, hstage]
  have hmis : f.miscounts g =
      if f.req.type = .socketAccept ∧ 0 ≤ resp.status ∧ g.availableSlot = none then [f.req]
      else [] := by
    simp only [Frame.miscounts, hstage]
  have hhand : f.inHand =
      if f.req.type = .socketAccept ∧ 0 ≤ resp.status then [resp.status] else [] := by
    simp only [Frame.inHand, hstage]
  have hcounted : f.countedInHand = f.inHand := by
    rw [Frame.countedInHand, if_neg]
    simp [Frame.inCall, hstage]
  have hnext (φ : List Int → Nat) (hφ : φ [] = 0) : φ ({ f with
      stage := .write rc (Globals.postProcessResponse clientId f.req f.worker resp g).1 } :
        Frame).inHand = 0 := hφ
  obtain ⟨hct, ⟨w, hw, ht, hstatus, hacc, hk⟩ | ⟨hnot, hk⟩⟩ :=
    postProcessResponse_account clientId g f.req f.worker resp
  · -- the connection goes from the hands of the request into a slot
    have hlt := (Globals.availableSlot_spec hw).1
    have hsome : ¬ (f.req.type = .socketAccept ∧ 0 ≤ resp.status ∧ g.availableSlot = none) := by
      rintro ⟨-, -, hnone⟩
      rw [hw] at hnone
      cases hnone
    rw [if_neg hsome] at hcloses hmis
    rw [if_pos ⟨ht, hstatus⟩] at hhand
    have hothers : ∀ v n, v ≠ w → (v, n) ∉ f.closes g := by
      intro v n _
      rw [hcl]
      exact List.not_mem_nil
    have hone (φ : Int → Nat) := slotSockets_one φ closed hlt hk hothers
    have hbefore (φ : Int → Nat) : slotSocket φ closed g w = 0 :=
      slotSocket_shut ((hbefore w hlt).not_open_of_free hacc.free _)
    have hafter (φ : Int → Nat) : slotSocket φ (closed ++ f.closes g)
        (Globals.postProcessResponse clientId f.req f.worker resp g).2 w = φ resp.status := by
      rw [(hok w hlt).slotSocket_isFd, hacc.localFd]
      rw [hacc.publicFd]
      exact mwSocketIsFd_create _ _
    constructor
    · intro n
      have hsum := hone fun fd => if fd = n then 1 else 0
      rw [hbefore, hafter] at hsum
      rw [hopens, hcloses, hhand, ProcNext.sum, hnext (List.count n) rfl]
      simp only [List.count_nil, List.count_singleton, beq_iff_eq]
      omega
    · have hsum := hone fun _ => 1
      rw [hbefore, hafter] at hsum
      rw [hmis, hcounted, hhand, hct, ProcNext.sum]
      show _ = _ + ((0 : Nat) : Int) + _
      simp only [List.length_nil, List.length_singleton]
      omega
  · -- there is no slot for it, and it is closed again, or there is no connection
    have hgone : (if f.req.type = .socketAccept ∧ 0 ≤ resp.status ∧ g.availableSlot = none then
        [resp.status] else []) = f.inHand := by
      rw [hhand]
      refine if_congr ?_ rfl rfl
      constructor
      · exact fun h => ⟨h.1, h.2.1⟩
      · exact fun h => ⟨h.1, h.2, by_contra fun hsome => hnot ⟨h.1, h.2, hsome⟩⟩
    constructor
    · intro n
      rw [slotSockets_keeps hk hcl, hopens, hcloses, hgone, ProcNext.sum, hnext (List.count n) rfl]
      rfl
    · have hlen : (f.miscounts g).length = f.inHand.length := by
        rw [hmis, ← hgone]
        split <;> rfl
      rw [slotSockets_keeps hk hcl, hcounted, hlen, hct, ProcNext.sum]
      show _ = _ + ((0 : Nat) : Int) + _
      omega

/-- A slot is released. -/
theorem account_retireSlot {rc : Int} {resp : MtResponse} {w : Nat}
    (hbefore : SlotOk clientId closed g w)
    (hok : SlotOk clientId (closed ++ f.closes g) (g.releaseWorkerThread w) w)
    (hlocal : (g.net.sock w).localFd = -1) (hw : w < maxThreadCount)
    (hstage : f.stage = .retire rc resp) (hrel : releasesWorker f.req resp = true)
    (hworker : f.worker = some w) :
    Account closed (f.closes g) g (g.releaseWorkerThread w) f .tau (.returned rc) := by
  have hcl : f.closes g = [(w, (g.workers w).gen)] := by
    simp only [Frame.closes, hstage, hrel, hworker, Option.getD_some, if_true]
  have hopens : f.opens .tau = [] := by simp only [Frame.opens, hstage]
  have hcloses : f.nativeCloses g .tau = [] := by
    simp only [Frame.nativeCloses, hstage, hrel, hworker, Option.getD_some, if_true]
    exact if_neg (not_not_intro hlocal)
  have hmis : f.miscounts g = [] := by simp only [Frame.miscounts, hstage]
  have hhand : f.inHand = [] := by simp only [Frame.inHand, hstage]
  have hcounted : f.countedInHand = [] := by
    rw [Frame.countedInHand, hhand]
    exact ite_self _
  have hothers : ∀ v n, v ≠ w → (v, n) ∉ f.closes g := by
    intro v n hv hmem
    rw [hcl] at hmem
    exact hv (congrArg Prod.fst (List.mem_singleton.mp hmem))
  have hone (φ : Int → Nat) := slotSockets_one φ closed hw
    (fun v hv => Keeps.releaseWorkerThread_ne g hv) hothers
  have hshut (φ : Int → Nat) : slotSocket φ closed g w = 0 := by
    refine slotSocket_shut fun hopen => ?_
    have hnonneg := hbefore.localFd_nonneg hopen
    rw [hlocal] at hnonneg
    exact absurd hnonneg (by decide)
  have hfree : ((g.releaseWorkerThread w).workers w).inUse = false := by
    simp only [Globals.releaseWorkerThread, Globals.modifyWorker, Function.update_self]
  have hafter (φ : Int → Nat) :
      slotSocket φ (closed ++ f.closes g) (g.releaseWorkerThread w) w = 0 :=
    slotSocket_shut (hok.not_open_of_free hfree _)
  constructor
  · intro n
    have hsum := hone fun fd => if fd = n then 1 else 0
    rw [hshut, hafter] at hsum
    rw [hopens, hcloses, hhand, ProcNext.sum, List.count_nil]
    omega
  · have hsum := hone fun _ => 1
    rw [hshut, hafter] at hsum
    have hct : (g.releaseWorkerThread w).net.socketCt = g.net.socketCt :=
      if_neg (not_not_intro hlocal)
    rw [hmis, hcounted, ProcNext.sum, hct]
    simp only [List.length_nil]
    omega

theorem unlockWorker_net (worker : Option Nat) (g : Globals) :
    (unlockWorker worker g).net = g.net := by
  cases worker with
  | none => rfl
  | some w =>
      show (g.releaseOplock w).net = g.net
      unfold Globals.releaseOplock
      split <;> rfl

/-- The account of any step of an activation. -/
theorem ProcMove.account (h : ProcMove clientId g f i g' next) (hfrom : f.FromHandler clientId)
    (hvalid : assignment f.req.type ≠ .invalid) (hsane : f.Sane)
    (hown : ownsSlot f.req.type = true → f.Owner closed g)
    (hbefore : ∀ v < maxThreadCount, SlotOk clientId closed g v)
    (hok : ∀ v < maxThreadCount, SlotOk clientId (closed ++ f.closes g) g' v) :
    Account closed (f.closes g) g g' f i next := by
  cases h with
  | issue hstage hm =>
      refine Account.idle (Keeps.refl g) ?_ rfl ?_ ?_ ?_ ?_ ?_
      · simp only [Frame.closes, hstage, hm]
      · intro n
        simp only [ProcNext.sum, Frame.inHand, hstage]
      · rw [Frame.countedInHand_call hstage]
        rfl
      · simp only [Frame.opens, hstage]
      · simp only [Frame.nativeCloses, hstage, hm]
      · simp only [Frame.miscounts, hstage, hm]
  | receive hstage => exact account_receive hfrom hsane hstage
  | finish hstage hm =>
      by_cases ho : ownsSlot f.req.type = true
      swap
      · exact account_finish hfrom hvalid (Bool.not_eq_true _ ▸ ho) hstage hm
      · obtain ⟨hten, hface, hlt⟩ := hown ho
        obtain ⟨w, hworker⟩ := hten.worker ho
        have hcall : f.inCall = true := by simp only [Frame.inCall, hstage]
        have hw := hlt w hworker
        by_cases ht : f.req.type = .socketCreate
        · exact account_create hfrom hvalid hsane ht hworker hw (hten.vacant w hcall ht hworker)
            (hok w hw) hstage hm
        · have ht : f.req.type = .socketClose := by simpa [ownsSlot, ht] using ho
          exact account_close hfrom hvalid ht hworker hw (hbefore w hw)
            (hface.closing hcall ht w hworker) (hok w hw) hstage hm
  | unlock hstage =>
      refine Account.idle (Keeps.unlockWorker g f.worker) ?_ ?_ ?_ ?_ ?_ ?_ ?_
      · simp only [Frame.closes, hstage]
      · rw [unlockWorker_net]
      · intro n
        simp only [ProcNext.sum, Frame.inHand, hstage]
      · simp [ProcNext.sum, Frame.countedInHand, Frame.inCall, Frame.inHand, hstage]
      · simp only [Frame.opens, hstage]
      · simp only [Frame.nativeCloses, hstage]
      · simp only [Frame.miscounts, hstage]
  | post hstage => exact account_post hbefore hok hstage
  | write hstage =>
      refine Account.idle (fun v => ⟨rfl, rfl, SameFds.rfl, rfl⟩) ?_ rfl ?_ ?_ ?_ ?_ ?_
      · simp only [Frame.closes, hstage]
      · intro n
        simp only [ProcNext.sum, Frame.inHand, hstage]
      · simp [ProcNext.sum, Frame.countedInHand, Frame.inCall, Frame.inHand, hstage]
      · simp only [Frame.opens, hstage]
      · simp only [Frame.nativeCloses, hstage]
      · simp only [Frame.miscounts, hstage]
  | release hstage =>
      refine Account.idle (Keeps.modifyBuf g f.buf _) ?_ rfl ?_ ?_ ?_ ?_ ?_
      · simp only [Frame.closes, hstage]
      · intro n
        simp only [ProcNext.sum, Frame.inHand, hstage]
      · simp [ProcNext.sum, Frame.countedInHand, Frame.inCall, Frame.inHand, hstage]
      · simp only [Frame.opens, hstage]
      · simp only [Frame.nativeCloses, hstage]
      · simp only [Frame.miscounts, hstage]
  | @retireSlot rc resp w hstage hrel hworker =>
      obtain ⟨hten, hface, hlt⟩ := hown (ownsSlot_of_releasesWorker hvalid hrel)
      have hw := hlt w hworker
      have hlocal : (g.net.sock w).localFd = -1 := by
        refine hface.releasing ?_ w ?_
        · simp only [Frame.inCall, hstage]
        · simp only [Frame.temporary, hstage, hrel, if_true, hworker]
      exact account_retireSlot (hbefore w hw) (hok w hw) hlocal hw hstage hrel hworker
  | retire hstage hrel =>
      refine Account.idle (Keeps.refl g) ?_ rfl ?_ ?_ ?_ ?_ ?_
      · simp only [Frame.closes, hstage, hrel, Bool.false_eq_true, if_false]
      · intro n
        simp only [ProcNext.sum, Frame.inHand, hstage, List.count_nil]
      · simp only [ProcNext.sum, Frame.countedInHand, Frame.inCall, Frame.inHand, hstage,
          Bool.false_eq_true, if_false, List.length_nil]
      · simp only [Frame.opens, hstage]
      · simp only [Frame.nativeCloses, hstage, hrel, Bool.false_eq_true, if_false]
      · simp only [Frame.miscounts, hstage]

end Account

/-! ## The slot that the dispatcher is at -/

/-- The request of the dispatcher names an open socket wherever it needs one. -/
def DispPc.Facing (g : Globals) : DispPc → Prop
  | .lookup b => wellFormed (g.bufs b).request
  | .lock b w => (g.bufs b).request.type = .socketClose →
      mwSocketIsFd (g.net.sock w).publicFd = true
  | .dispatch b => (g.bufs b).request.type = .socketClose →
      ∀ w, (g.bufs b).assignedThread = some w → mwSocketIsFd (g.net.sock w).publicFd = true
  | .process f => f.Facing g
  | _ => True

section Facing

variable {clientId : BitVec 16} {closed : List (Nat × Nat)} {s : State} {g g' : Globals}
  {f f' : Frame} {i : Input}

theorem Frame.Facing.keeps (h : f.Facing g) (hk : ∀ w, f.worker = some w → Keeps g g' w) :
    f.Facing g' where
  closing := by
    intro hcall ht w hw
    rw [(hk w hw).fds.1]
    exact h.closing hcall ht w hw
  releasing := by
    intro hcall w hw
    have hworker : f.worker = some w := by
      unfold Frame.temporary at hw
      repeat' split at hw
      all_goals first | exact hw | cases hw
    rw [(hk w hworker).fds.2]
    exact h.releasing hcall w hw

/-- While the dispatcher does not move, the slot it is at is kept. -/
theorem DispPc.Facing.mono {pc : DispPc} (h : pc.Facing g) (hten : pc.Tenured closed g)
    (hb : ∀ b, 0 < pc.active b → g'.bufs b = g.bufs b)
    (hkeeps : ∀ v, (g.workers v).inUse = true → Keeps g g' v) : pc.Facing g' := by
  cases pc with
  | lookup b =>
      simp only [DispPc.Facing, hb b (by simp [DispPc.active])]
      exact h
  | lock b w =>
      simp only [DispPc.Facing, hb b (by simp [DispPc.active])]
      intro ht
      rw [(hkeeps w hten.1).fds.1]
      exact h ht
  | dispatch b =>
      simp only [DispPc.Facing, hb b (by simp [DispPc.active])]
      intro ht w hw
      rw [(hkeeps w (hten w hw).1.1).fds.1]
      exact h ht w hw
  | process f => exact Frame.Facing.keeps h fun w hw => hkeeps w (Frame.Tenured.held hten w hw).1
  | _ => trivial

/-- The handler of the dispatcher's request returns. -/
theorem finish_facing {m : Native HandlerResult} {os rest : List Outcome} {r : HandlerResult}
    (hfrom : f.FromHandler clientId) (hvalid : assignment f.req.type ≠ .invalid) (hsane : f.Sane)
    (hstage : f.stage = .call m os none) (hm : m os = .ok (r, rest)) :
    Frame.Facing (finishHandler f r g) { f with stage := .unlock r.rc r.response } where
  closing := by
    intro hcall
    cases hcall
  releasing := by
    intro _ w hw
    have hrel : releasesWorker f.req r.response = true ∧ f.worker = some w := by
      simp only [Frame.temporary] at hw
      split at hw
      · next hrel => exact ⟨hrel, hw⟩
      · cases hw
    obtain ⟨hrel, hworker⟩ := hrel
    have hown := ownsSlot_of_releasesWorker hvalid hrel
    have hanswers := hsane.answers _ _ _ hstage
    obtain ⟨g₀, rfl⟩ := hfrom _ _ _ hstage
    rw [finishHandler_net]
    by_cases ht : f.req.type = .socketCreate
    · simp only [handler, ht, hworker, Option.getD_some] at hm
      have hstatus : r.response.status < 0 := by
        simpa [releasesWorker, ht, MtRequestType.deallocatesFd, MtRequestType.code] using hrel
      obtain ⟨-, -, ⟨hnonneg, -⟩ | ⟨-, -, before, o, hos, hneg, -, -, hlocal⟩⟩ :=
        create_returned hm g.net
      · exact absurd hstatus (Int.not_lt.mpr hnonneg)
      · have ho : o ∈ os := by
          rw [hos]
          exact List.mem_append_right _ List.mem_cons_self
        have hanswer := hanswers ht o ho
        rw [hlocal]
        omega
    · have ht : f.req.type = .socketClose := by simpa [ownsSlot, ht] using hown
      simp only [handler, ht, hworker, Option.getD_some] at hm
      rw [close_effect hm]
      simp only [xeNetInternalCloseSocket, sock_modifySock_self, closedSocket]

theorem ProcMove.facing (h : ProcMove clientId g f i g' (.running f'))
    (hfrom : f.FromHandler clientId) (hvalid : assignment f.req.type ≠ .invalid)
    (hnow : f.req.type ≠ .socketAccept) (hsane : f.Sane) (hface : f.Facing g) : f'.Facing g' := by
  have hstays {stage : Stage} (hin : ({ f with stage := stage } : Frame).inCall = f.inCall)
      (htemp : ({ f with stage := stage } : Frame).temporary = f.temporary)
      (hk : ∀ v, Keeps g g' v) : Frame.Facing g' { f with stage := stage } := by
    have hsame : Frame.Facing g { f with stage := stage } :=
      ⟨fun hcall => hface.closing (hin ▸ hcall), fun hcall => by
        rw [htemp]
        exact hface.releasing (hin ▸ hcall)⟩
    exact hsame.keeps fun w _ => hk w
  cases h with
  | issue hstage =>
      refine hstays ?_ ?_ (Keeps.refl g)
      · simp only [Frame.inCall, hstage]
      · simp only [Frame.temporary, hstage]
  | receive hstage =>
      refine hstays ?_ ?_ (Keeps.refl g)
      · simp only [Frame.inCall, hstage]
      · simp only [Frame.temporary, hstage]
  | finish hstage hm => exact finish_facing hfrom hvalid hsane hstage hm
  | unlock hstage =>
      refine hstays ?_ ?_ (Keeps.unlockWorker g f.worker)
      · simp only [Frame.inCall, hstage]
      · simp only [Frame.temporary, hstage]
  | post hstage =>
      refine hstays ?_ ?_ fun v => ?_
      · simp only [Frame.inCall, hstage]
      · simp only [Frame.temporary, hstage, releasesWorker_postProcessResponse hnow]
      · rcases postProcessResponse_slot clientId f.req f.worker _ g v with hk | ⟨hacc, -⟩
        · exact hk
        · exact absurd hacc hnow
  | write hstage =>
      refine hstays ?_ ?_ fun v => ⟨rfl, rfl, SameFds.rfl, rfl⟩
      · simp only [Frame.inCall, hstage]
      · simp only [Frame.temporary, hstage]
  | release hstage =>
      refine hstays ?_ ?_ (Keeps.modifyBuf g f.buf _)
      · simp only [Frame.inCall, hstage]
      · simp only [Frame.temporary, hstage]

end Facing

/-! ## The condition, and what holds under it -/

/-- A request that is read names a socket if it needs one. -/
def namesSocket (s : State) : Event → Prop
  | .disp (.read _ req) =>
      match s.disp with
      | .read _ => wellFormed req
      | _ => True
  | _ => True

def answersSoundly (s : State) (e : Event) : Prop :=
  match acting s e with
  | some (f, i) => soundAnswer f i
  | none => True

/-- No buffer is reserved inside a release window, a request that needs a socket
names one, and `socket` returns -1 if it fails. -/
def namedStep (s : State) (e : Event) : Prop :=
  releasedOnce s e ∧ namesSocket s e ∧ answersSoundly s e

instance (s : State) : (e : Event) → Decidable (namesSocket s e)
  | .disp (.read _ req) => by
      dsimp only [namesSocket]
      generalize s.disp = pc
      rcases pc <;> infer_instance
  | .disp .tau => instDecidableTrue
  | .disp (.outcome _) => instDecidableTrue
  | .worker _ _ => instDecidableTrue

instance (f : Frame) : (i : Input) → Decidable (soundAnswer f i)
  | .outcome o => inferInstanceAs (Decidable (f.req.type = .socketCreate → -1 ≤ o.ret))
  | .tau => instDecidableTrue
  | .read _ _ => instDecidableTrue

instance (s : State) (e : Event) : Decidable (answersSoundly s e) := by
  dsimp only [answersSoundly]
  generalize acting s e = x
  rcases x with _ | ⟨f, i⟩ <;> infer_instance

instance (s : State) (e : Event) : Decidable (namedStep s e) :=
  inferInstanceAs (Decidable (_ ∧ _))

/-- What the account rests on. -/
structure Settled (clientId : BitVec 16) (closed : List (Nat × Nat)) (s : State) : Prop where
  tracked : Tracked clientId closed s
  facing : s.disp.Facing s.g
  disp : ∀ f, s.disp = .process f → f.Sane
  working : ∀ w < maxThreadCount, ∀ f, s.pcs w = .process f → f.Sane

section Steps

variable {clientId : BitVec 16} {closed : List (Nat × Nat)} {s : State} {g : Globals} {i : Input}

namespace Settled

theorem owner (h : Settled clientId closed s) {f : Frame} (hpc : s.disp = .process f) :
    f.Owner closed s.g := by
  have hten := h.tracked.tenured
  have hface := h.facing
  have hemp := h.tracked.placed.disp
  rw [hpc] at hten hface hemp
  exact ⟨hten, hface, hemp.worker⟩

theorem disp_facing (h : Settled clientId closed s) {pc : DispPc} {reads : List MtRequest}
    (hmove : DispMove clientId s i g pc reads) (hguard : namedStep s (.disp i)) :
    pc.Facing g := by
  have hface := h.facing
  cases hmove with
  | @read b size req hpc =>
      have hreq := hguard.2.1
      simp only [namesSocket, hpc] at hreq
      simpa only [DispPc.Facing, bufs_modifyBuf_self] using hreq
  | @noWorker b hpc ht =>
      intro _ w hw
      rw [bufs_modifyBuf_self] at hw
      cases hw
  | @existing b w now hpc ht g hw =>
      rw [hpc] at hface
      obtain ⟨rfl, -, -, hfd⟩ := Belongs.lookup_existing (hface ⟨now, ht⟩) hw
      unfold afterLookup
      split
      · exact fun _ => hfd
      · intro _ w' hw'
        have hww : w' = w := by
          simp only [assignTo, bufs_modifyBuf_self] at hw'
          exact (Option.some.inj hw').symm
        subst hww
        exact hfd
  | @newWorker b w hpc ht hw =>
      have hreq : ((assignTo (s.g.acquireSlot w) b w).bufs b).request = (s.g.bufs b).request := by
        rw [assignTo, request_modifyBuf (s.g.acquireSlot w) b rfl]
        rfl
      have hnot : (s.g.bufs b).request.type ≠ .socketClose := by
        intro hc
        rw [hc] at ht
        cases ht
      unfold afterLookup
      split
      · intro hc
        rw [hreq] at hc
        exact absurd hc hnot
      · intro hc
        rw [hreq] at hc
        exact absurd hc hnot
  | @lock b w hpc =>
      rw [hpc] at hface
      obtain ⟨hassigned, -⟩ : (s.g.bufs b).assignedThread = some w ∧ _ := by
        have := h.tracked.placed.disp
        rwa [hpc] at this
      intro ht w' hw'
      have hww : w' = w := Option.some.inj (hw'.symm.trans hassigned)
      subst hww
      exact hface ht
  | @start b hpc =>
      rw [hpc] at hface
      exact ⟨fun _ => hface, fun hcall => by cases hcall⟩
  | @running f i g f' hpc hproc =>
      have hemp : DispEmployed clientId f := by
        have := h.tracked.placed.disp
        rwa [hpc] at this
      rw [hpc] at hface
      exact hproc.facing hemp.fromHandler hemp.valid (Belongs.ne_accept_of_now hemp.now)
        (h.disp f hpc) hface
  | returned => split <;> trivial
  | _ => trivial

theorem disp_sane (h : Settled clientId closed s) {pc : DispPc} {reads : List MtRequest}
    (hmove : DispMove clientId s i g pc reads) (hguard : namedStep s (.disp i)) (f : Frame)
    (hf : pc = .process f) : f.Sane := by
  cases hmove with
  | @start b =>
      cases hf
      exact Frame.sane_start s.g b
  | @running f₀ i g f' hpc hproc =>
      cases hf
      have hanswer := hguard.2.2
      simp only [answersSoundly, acting, hpc] at hanswer
      exact hproc.sane (h.disp f₀ hpc) hanswer
  | existing =>
      unfold afterLookup at hf
      split at hf <;> cases hf
  | newWorker =>
      unfold afterLookup at hf
      split at hf <;> cases hf
  | returned => split at hf <;> cases hf
  | _ => cases hf

theorem worker_sane (h : Settled clientId closed s) {w : Nat} {pc : WorkerPc}
    (hw : w < maxThreadCount) (hmove : WorkerMove clientId s w i g pc)
    (hguard : namedStep s (.worker w i)) (f : Frame) (hf : pc = .process f) : f.Sane := by
  cases hmove with
  | dequeue =>
      cases hf
      exact Frame.sane_start _ _
  | @running f₀ i g f' hpc hproc =>
      cases hf
      have hanswer := hguard.2.2
      simp only [answersSoundly, acting, hpc] at hanswer
      exact hproc.sane (h.working w hw f₀ hpc) hanswer
  | empty => split at hf <;> cases hf
  | _ => cases hf

theorem init (clientId : BitVec 16) : Settled clientId [] (ins clientId).init where
  tracked := Tracked.init clientId
  facing := trivial
  disp := fun f hf => by cases hf
  working := fun w _ f hf => by cases hf

theorem step (h : Settled clientId closed s) {e : Event} {s' : State} (hguard : namedStep s e)
    (hstep : (ins clientId).step s e = some s') : Settled clientId (closed ++ closes s e) s' := by
  have hnext := h.tracked.step clientId closed s e s' hguard.1 hstep
  revert hnext
  refine step_rule (P := fun s' => Tracked clientId (closed ++ closes s e) s' →
    Settled clientId (closed ++ closes s e) s') hstep (fun i g pc reads he hmove hnext => ?_)
    fun w i g pc he hw hmove hnext => ?_
  · subst he
    exact ⟨hnext, h.disp_facing hmove hguard, h.disp_sane hmove hguard, h.working⟩
  · subst he
    refine ⟨hnext, ?_, h.disp, ?_⟩
    · refine h.facing.mono h.tracked.tenured (fun b hb =>
        h.tracked.placed.holding.worker_bufs_disp hw hmove (Nat.lt_add_right _ hb)) fun v huse => ?_
      rcases (hmove.slot h.tracked.placed hw).2 v with hk | ⟨fd, ha⟩
      · exact hk
      · rw [ha.free] at huse
        cases huse
    · intro v hv f hf
      by_cases hvw : v = w
      · subst hvw
        exact h.worker_sane hw hmove hguard f (by simpa only [Function.update_self] using hf)
      · exact h.working v hv f (by simpa only [Function.update_of_ne hvw] using hf)

end Settled

/-- The account of a step. -/
structure Balance (closed cl : List (Nat × Nat)) (s s' : State) (opened shut : List Int)
    (missed : List MtRequest) : Prop where
  sockets : ∀ n, slotsHolding n (closed ++ cl) s' + inHands n s' + shut.count n =
    slotsHolding n closed s + inHands n s + opened.count n
  count : s'.g.net.socketCt + openSockets closed s + onTheWay s =
    s.g.net.socketCt + openSockets (closed ++ cl) s' + onTheWay s' + missed.length

/-- A step of a thread that is at no request, or takes one up. -/
theorem Balance.idle (clientId : BitVec 16) {s' : State} {cl : List (Nat × Nat)}
    (hslots : ∀ φ, slotSockets φ (closed ++ cl) s'.g = slotSockets φ closed s.g)
    (hct : s'.g.net.socketCt = s.g.net.socketCt)
    (hframes : ∀ φ : Frame → Nat, (∀ g b, φ (Frame.start clientId g b) = 0) →
      overFrames φ s' = overFrames φ s) : Balance closed cl s s' [] [] [] where
  sockets := by
    intro n
    rw [slotsHolding, slotsHolding, hslots, inHands, hframes _ fun g b => rfl]
    rfl
  count := by
    rw [openSockets_eq, openSockets_eq, hslots, onTheWay, onTheWay, hframes _ fun g b => rfl, hct]
    simp

/-- The account of an activation is that of the step of its thread. -/
theorem Account.balance (s' : State) {f : Frame} {next : ProcNext} {cl : List (Nat × Nat)}
    (h : Account closed cl s.g s'.g f i next)
    (hframes : ∀ φ, overFrames φ s' + φ f = overFrames φ s + next.sum φ) :
    Balance closed cl s s' (f.opens i) (f.nativeCloses s.g i) (f.miscounts s.g) where
  sockets := by
    intro n
    have hsockets := h.sockets n
    have hsum := hframes fun f => f.inHand.count n
    simp only [slotsHolding, inHands]
    omega
  count := by
    have hcount := h.count
    have hsum := hframes fun f => f.countedInHand.length
    rw [openSockets_eq, openSockets_eq, onTheWay, onTheWay]
    omega

namespace Settled

theorem disp_balance (h : Settled clientId closed s) {pc : DispPc} {reads : List MtRequest}
    (hmove : DispMove clientId s i g pc reads)
    (hnext : Settled clientId (closed ++ closes s (.disp i)) ⟨g, pc, s.pcs, reads⟩) :
    Balance closed (closes s (.disp i)) s ⟨g, pc, s.pcs, reads⟩ (nativeOpens s (.disp i))
      (nativeCloses s (.disp i)) (miscounts s (.disp i)) := by
  have proc : ∀ {f next}, s.disp = .process f → ProcMove clientId s.g f i g next →
      (∀ φ, pc.sum φ = next.sum φ) →
      Balance closed (closes s (.disp i)) s ⟨g, pc, s.pcs, reads⟩ (nativeOpens s (.disp i))
        (nativeCloses s (.disp i)) (miscounts s (.disp i)) := by
    intro f next hpc hproc hsum
    have hemp : DispEmployed clientId f := by
      have := h.tracked.placed.disp
      rwa [hpc] at this
    have hcl : closes s (.disp i) = f.closes s.g := by simp only [closes, hpc]
    have hslots := hnext.tracked.slots
    rw [hcl] at hslots ⊢
    have haccount := hproc.account hemp.fromHandler hemp.valid (h.disp f hpc)
      (fun _ => h.owner hpc) h.tracked.slots hslots
    have hbalance := haccount.balance ⟨g, pc, s.pcs, reads⟩ fun φ => by
      have := overFrames_disp φ s g pc reads
      rwa [hpc, hsum φ] at this
    simpa only [nativeOpens, nativeCloses, miscounts, acting, hpc] using hbalance
  have idle : (∀ f, s.disp ≠ .process f) →
      (∀ φ, slotSockets φ (closed ++ []) g = slotSockets φ closed s.g) →
      g.net.socketCt = s.g.net.socketCt →
      (∀ φ : Frame → Nat, (∀ g b, φ (Frame.start clientId g b) = 0) → pc.sum φ = 0) →
      Balance closed (closes s (.disp i)) s ⟨g, pc, s.pcs, reads⟩ (nativeOpens s (.disp i))
        (nativeCloses s (.disp i)) (miscounts s (.disp i)) := by
    intro hno hslots hct hstart
    have hfacts : acting s (.disp i) = none ∧ closes s (.disp i) = [] ∧ ∀ φ, s.disp.sum φ = 0 := by
      cases hd : s.disp
      case process f => exact absurd hd (hno f)
      all_goals simp [acting, closes, hd, DispPc.sum]
    obtain ⟨hnone, hcl, hidle⟩ := hfacts
    simp only [nativeOpens, nativeCloses, miscounts, hnone, hcl]
    refine Balance.idle clientId hslots hct fun φ hφ => ?_
    have := overFrames_disp φ s g pc reads
    rw [hidle, hstart φ hφ] at this
    exact this
  have kept (hk : ∀ v, Keeps s.g g v) (φ : Int → Nat) :
      slotSockets φ (closed ++ []) g = slotSockets φ closed s.g := slotSockets_keeps hk rfl
  cases hmove with
  | full hpc => exact idle (by simp [hpc]) (kept (Keeps.refl s.g)) rfl fun _ _ => rfl
  | reserve hpc => exact idle (by simp [hpc]) (kept (Keeps.modifyBuf s.g _ _)) rfl fun _ _ => rfl
  | stop hpc => exact idle (by simp [hpc]) (kept (Keeps.modifyBuf s.g _ _)) rfl fun _ _ => rfl
  | read hpc => exact idle (by simp [hpc]) (kept (Keeps.modifyBuf s.g _ _)) rfl fun _ _ => rfl
  | noWorker hpc => exact idle (by simp [hpc]) (kept (Keeps.modifyBuf s.g _ _)) rfl fun _ _ => rfl
  | @existing b w now hpc ht g hw =>
      have hface := h.facing
      rw [hpc] at hface
      obtain ⟨rfl, -⟩ := Belongs.lookup_existing (hface ⟨now, ht⟩) hw
      refine idle (by simp [hpc]) (kept (Keeps.modifyBuf _ b _)) rfl fun φ _ => ?_
      unfold afterLookup
      split <;> rfl
  | @newWorker b w hpc ht hw =>
      refine idle (by simp [hpc]) (fun φ => ?_) rfl fun φ _ => ?_
      · -- the new incarnation of the slot has no socket yet, the old one none any more
        have hlt := (Globals.availableSlot_spec hw).1
        have hfree := (Globals.availableSlot_spec hw).2
        have hok := h.tracked.slots w hlt
        have hkeeps : ∀ v, v ≠ w → Keeps s.g (assignTo (s.g.acquireSlot w) b w) v := fun v hv =>
          (Keeps.modifyWorker_ne s.g _ hv).trans (Keeps.modifyBuf _ b _ v)
        have hnil : ∀ v n, v ≠ w → (v, n) ∉ ([] : List (Nat × Nat)) := fun _ _ _ =>
          List.not_mem_nil
        have hone := slotSockets_one φ closed hlt hkeeps hnil
        have hgen :
            ((assignTo (s.g.acquireSlot w) b w).workers w).gen = (s.g.workers w).gen + 1 := by
          simp only [assignTo, Globals.modifyBuf, Globals.acquireSlot, Globals.modifyWorker,
            Function.update_self]
        have hafter : slotSocket φ (closed ++ []) (assignTo (s.g.acquireSlot w) b w) w = 0 := by
          refine slotSocket_shut fun hopen => ?_
          have hsome := hopen.1
          rw [hgen] at hsome
          have hnone : (assignTo (s.g.acquireSlot w) b w).natives w ((s.g.workers w).gen + 1) =
              none := (hok.future _ (Nat.lt_succ_self _)).1
          rw [hnone] at hsome
          cases hsome
        rw [slotSocket_shut (hok.not_open_of_free hfree _), hafter] at hone
        exact hone
      · unfold afterLookup
        split <;> rfl
  | lookupFailed hpc => exact idle (by simp [hpc]) (kept (Keeps.refl s.g)) rfl fun _ _ => rfl
  | lock hpc =>
      exact idle (by simp [hpc]) (kept fun v => Keeps.modifyWorker s.g _ v _ ⟨rfl, rfl⟩) rfl
        fun _ _ => rfl
  | start hpc => exact idle (by simp [hpc]) (kept (Keeps.refl s.g)) rfl fun φ hφ => hφ _ _
  | enqueue hpc =>
      exact idle (by simp [hpc]) (kept fun v => Keeps.modifyWorker s.g _ v _ ⟨rfl, rfl⟩) rfl
        fun _ _ => rfl
  | @queueFull b w hpc =>
      refine idle (by simp [hpc]) (kept (Keeps.releaseOplock s.g w)) ?_ fun _ _ => rfl
      exact congrArg NetState.socketCt (unlockWorker_net (some w) s.g)
  | running hpc hproc => exact proc hpc hproc fun φ => rfl
  | returned hpc hproc =>
      refine proc hpc hproc fun φ => ?_
      split <;> rfl
  | failed hpc =>
      exact idle (by simp [hpc]) (kept fun v => ⟨rfl, rfl, SameFds.rfl, rfl⟩) rfl fun _ _ => rfl
  | cleanup hpc => exact idle (by simp [hpc]) (kept (Keeps.modifyBuf s.g _ _)) rfl fun _ _ => rfl
  | wake hpc =>
      exact idle (by simp [hpc]) (kept fun v => Keeps.modifyWorker s.g _ v _ ⟨rfl, rfl⟩) rfl
        fun _ _ => rfl
  | finiSet hpc =>
      exact idle (by simp [hpc]) (kept fun v => ⟨rfl, rfl, SameFds.rfl, rfl⟩) rfl fun _ _ => rfl
  | finiPost hpc =>
      exact idle (by simp [hpc]) (kept fun v => Keeps.modifyWorker s.g _ v _ ⟨rfl, rfl⟩) rfl
        fun _ _ => rfl
  | finiDone hpc => exact idle (by simp [hpc]) (kept (Keeps.refl s.g)) rfl fun _ _ => rfl
  | finiJoin hpc => exact idle (by simp [hpc]) (kept (Keeps.refl s.g)) rfl fun _ _ => rfl

theorem worker_balance (h : Settled clientId closed s) {w : Nat} {pc : WorkerPc}
    (hw : w < maxThreadCount) (hmove : WorkerMove clientId s w i g pc)
    (hnext : Settled clientId (closed ++ closes s (.worker w i))
      ⟨g, s.disp, Function.update s.pcs w pc, s.reads⟩) :
    Balance closed (closes s (.worker w i)) s ⟨g, s.disp, Function.update s.pcs w pc, s.reads⟩
      (nativeOpens s (.worker w i)) (nativeCloses s (.worker w i)) (miscounts s (.worker w i)) := by
  have proc : ∀ {f next}, s.pcs w = .process f → ProcMove clientId s.g f i g next →
      (∀ φ, pc.sum φ = next.sum φ) → Balance closed (closes s (.worker w i)) s
        ⟨g, s.disp, Function.update s.pcs w pc, s.reads⟩ (nativeOpens s (.worker w i))
        (nativeCloses s (.worker w i)) (miscounts s (.worker w i)) := by
    intro f next hpc hproc hsum
    have hemp := h.tracked.placed.working w hw f hpc
    have hcl : closes s (.worker w i) = f.closes s.g := by simp only [closes, hpc]
    have hslots := hnext.tracked.slots
    rw [hcl] at hslots ⊢
    have haccount := hproc.account hemp.fromHandler hemp.valid (h.working w hw f hpc)
      (fun ho => by rw [hemp.not_owns] at ho; cases ho) h.tracked.slots hslots
    have hbalance := haccount.balance ⟨g, s.disp, Function.update s.pcs w pc, s.reads⟩ fun φ => by
      have := overFrames_worker φ s g hw pc
      rwa [hpc, hsum φ] at this
    simpa only [nativeOpens, nativeCloses, miscounts, acting, hpc] using hbalance
  have idle : (∀ f, s.pcs w ≠ .process f) → (∀ v, Keeps s.g g v) →
      g.net.socketCt = s.g.net.socketCt →
      (∀ φ : Frame → Nat, (∀ g b, φ (Frame.start clientId g b) = 0) → pc.sum φ = 0) →
      Balance closed (closes s (.worker w i)) s ⟨g, s.disp, Function.update s.pcs w pc, s.reads⟩
        (nativeOpens s (.worker w i)) (nativeCloses s (.worker w i))
        (miscounts s (.worker w i)) := by
    intro hno hk hct hstart
    have hfacts : acting s (.worker w i) = none ∧ closes s (.worker w i) = [] ∧
        ∀ φ, (s.pcs w).sum φ = 0 := by
      cases hd : s.pcs w
      case process f => exact absurd hd (hno f)
      all_goals simp [acting, closes, hd, WorkerPc.sum]
    obtain ⟨hnone, hcl, hidle⟩ := hfacts
    simp only [nativeOpens, nativeCloses, miscounts, hnone, hcl]
    refine Balance.idle clientId (fun φ => slotSockets_keeps hk rfl) hct fun φ hφ => ?_
    have := overFrames_worker φ s g hw pc
    rw [hidle, hstart φ hφ] at this
    exact this
  cases hmove with
  | wait hpc =>
      exact idle (by simp [hpc]) (fun v => Keeps.modifyWorker s.g w v _ ⟨rfl, rfl⟩) rfl
        fun _ _ => rfl
  | empty hpc =>
      refine idle (by simp [hpc]) (Keeps.refl s.g) rfl fun φ _ => ?_
      split <;> rfl
  | dequeue hpc =>
      exact idle (by simp [hpc]) (fun v => Keeps.modifyWorker s.g w v _ ⟨rfl, rfl⟩) rfl
        fun φ hφ => hφ _ _
  | running hpc hproc => exact proc hpc hproc fun φ => rfl
  | returned hpc hproc => exact proc hpc hproc fun φ => rfl
  | cleanup hpc => exact idle (by simp [hpc]) (Keeps.modifyBuf s.g _ _) rfl fun _ _ => rfl

theorem balance (h : Settled clientId closed s) {e : Event} {s' : State} (hguard : namedStep s e)
    (hstep : (ins clientId).step s e = some s') :
    Balance closed (closes s e) s s' (nativeOpens s e) (nativeCloses s e) (miscounts s e) := by
  have hnext := h.step hguard hstep
  revert hnext
  refine step_rule (P := fun s' => Settled clientId (closed ++ closes s e) s' →
    Balance closed (closes s e) s s' (nativeOpens s e) (nativeCloses s e) (miscounts s e)) hstep
    (fun i g pc reads he hmove hnext => ?_) fun w i g pc he hw hmove hnext => ?_
  · subst he
    exact h.disp_balance hmove hnext
  · subst he
    exact h.worker_balance hw hmove hnext

end Settled

end Steps

/-! ## Runs -/

theorem slotSockets_init (clientId : BitVec 16) (φ : Int → Nat) :
    slotSockets φ [] (ins clientId).init.g = 0 := by
  refine tally_eq_zero fun v _ => slotSocket_shut fun hopen => ?_
  cases hopen.1

theorem overFrames_init (clientId : BitVec 16) (φ : Frame → Nat) :
    overFrames φ (ins clientId).init = 0 :=
  (Nat.zero_add _).trans (tally_eq_zero fun _ _ => rfl)

/-- The account of the sockets, over a run. -/
theorem account_of_run (clientId : BitVec 16) {es : List Event} {s : State}
    (hgood : (ins clientId).Guarded namedStep es) (hrun : (ins clientId).run es = some s) :
    Settled clientId ((ins clientId).history closes es) s ∧
      s.g.net.socketCt = openSockets ((ins clientId).history closes es) s + onTheWay s +
        ((ins clientId).history miscounts es).length ∧
      ∀ n, ((ins clientId).history nativeOpens es).count n =
        ((ins clientId).history nativeCloses es).count n +
          slotsHolding n ((ins clientId).history closes es) s + inHands n s := by
  refine (ins clientId).guarded_past (I := fun past s =>
    Settled clientId ((ins clientId).history closes past) s ∧
    s.g.net.socketCt = openSockets ((ins clientId).history closes past) s + onTheWay s +
      ((ins clientId).history miscounts past).length ∧
    ∀ n, ((ins clientId).history nativeOpens past).count n =
      ((ins clientId).history nativeCloses past).count n +
        slotsHolding n ((ins clientId).history closes past) s + inHands n s) ?_ ?_ hgood hrun
  · refine ⟨Settled.init clientId, ?_, fun n => ?_⟩
    · have hslots := slotSockets_init clientId fun _ => 1
      have hframes := overFrames_init clientId fun f => f.countedInHand.length
      rw [openSockets_eq, onTheWay, hframes]
      show (0 : Int) = (slotSockets (fun _ => 1) [] (ins clientId).init.g : Nat) + _ + _
      rw [hslots]
      rfl
    · have hslots := slotSockets_init clientId fun fd => if fd = n then 1 else 0
      have hframes := overFrames_init clientId fun f => f.inHand.count n
      rw [slotsHolding, inHands, hframes]
      show 0 = 0 + slotSockets (fun fd => if fd = n then 1 else 0) [] (ins clientId).init.g + 0
      rw [hslots]
  · rintro past s e s' hpast hguard hstep ⟨hsettled, hct, hsockets⟩
    have hbalance := hsettled.balance hguard hstep
    simp only [(ins clientId).history_snoc hpast]
    refine ⟨hsettled.step hguard hstep, ?_, fun n => ?_⟩
    · have := hbalance.count
      rw [List.length_append]
      omega
    · have := hbalance.sockets n
      have := hsockets n
      rw [List.count_append, List.count_append]
      omega

/-- The descriptors are exhausted when a socket is created. -/
def refusedCreate : List Event := serveEvents (createRequest 1) { ret := -1, errno := 24 }

end MagicWand.Ins
