import MagicWand.Foundation.Stream
import MagicWand.Foundation.Transition
import MagicWand.Monitor.Record

/-!
# The monitor's side of the stream

`mw_netflow.py` reads the records and responses of the driver. `get_msg` waits a
second for the base of a message and takes what the first `recv` gives;
`process_info_netflow` and `process_response` then read the rest with `recvall`,
on a socket that does not wait at all. A `recv` that finds nothing raises
`socket.error`; what was read before it is gone.

A message is one step for each `recv`, so any pattern of pieces and time-outs is
a list of events. The connection stays open.
-/

namespace MagicWand.Monitor

open Foundation Foundation.Bytes

/-! ## The monitor -/

/-- What follows the base of a message. -/
inductive Body where
  | info
  | response (ident : Int)
deriving DecidableEq, Repr

/-- `INFO_FMT_SIZE` and `FEATURE_RES_FMT_SIZE`. -/
def Body.size : Body → Nat
  | .info => infoFmt.size
  | .response _ => featureResFmt.size

/-- How a call of `get_msg` ended, unless with `None`. -/
inductive Got where
  | info (i : Info)
  | response (r : Reply)
  /-- `mtype = "error"`, with the exception in `recvall`. -/
  | error
  | unknown (sig : Int)
  /-- An exception leaves `get_msg`. -/
  | raised
deriving DecidableEq, Repr

/-- Where the monitor is: at the base of a message, or in `recvall` with the data
that it has so far. -/
inductive Place where
  | base
  | body (b : Body) (data : List Byte)
deriving DecidableEq, Repr

structure Reader where
  avail : List Byte := []
  outstanding : List Int := []
  place : Place := .base
  got : List Got := []
deriving DecidableEq, Repr

inductive ReaderEvent where
  | arrive (bs : List Byte)
  /-- `send_feature_request` has drawn an id. -/
  | request (ident : Int)
  /-- The `recv` that the monitor is in returns, or runs out of time. -/
  | recv
deriving DecidableEq, Repr

/-- `process_response`, on the bytes behind the base. -/
def processResponse (ident : Int) (bs : List Byte) : Option Reply :=
  match featureResFmt.unpack bs with
  | some [.int status, .str val] =>
      match featureResValFmt.unpack val with
      | some [.int vals0, .int vals1] => some ⟨ident, status, vals0, vals1⟩
      | _ => none
  | _ => none

namespace Reader

/-- `recv( BASE_FMT_SIZE )` has given some bytes. -/
def readBase (c : Reader) (bs : List Byte) : Reader :=
  match baseFmt.unpack bs with
  | some [.int sig, .int ident] =>
      if sig = mwMessageSigNetflowInfo.toNat then { c with place := .body .info [] }
      else if sig = mwMessageSigFeatureResponse.toNat then
        { c with place := .body (.response ident) [] }
      else { c with got := c.got ++ [.unknown sig] }
  | _ => { c with got := c.got ++ [.raised] }

/-- The message is complete. A response that is not asked for is a key error. -/
def finish (c : Reader) (data : List Byte) : Body → Reader
  | .info =>
      { c with
        place := .base
        got := c.got ++ [((processInfoNetflow data).map Got.info).getD .raised] }
  | .response ident =>
      if ident ∈ c.outstanding then
        { c with
          place := .base
          outstanding := c.outstanding.erase ident
          got := c.got ++ [((processResponse ident data).map Got.response).getD .raised] }
      else { c with place := .base, got := c.got ++ [.raised] }

/-- `recvall` finds nothing: `process_info_netflow` makes an error of it, and
`get_msg` takes it for a time-out in the other case. -/
def interrupted (c : Reader) : Body → Reader
  | .info => { c with place := .base, got := c.got ++ [.error] }
  | .response _ => { c with place := .base }

def recv (c : Reader) : Reader :=
  match c.place with
  | .base =>
      if c.avail = [] then c
      else { c with avail := c.avail.drop baseFmt.size }.readBase (c.avail.take baseFmt.size)
  | .body b data =>
      if c.avail = [] then c.interrupted b
      else
        let data' := data ++ c.avail.take (b.size - data.length)
        let c := { c with avail := c.avail.drop (b.size - data.length) }
        if data'.length < b.size then { c with place := .body b data' } else c.finish data' b

def step (c : Reader) : ReaderEvent → Option Reader
  | .arrive bs => some { c with avail := c.avail ++ bs }
  | .request ident =>
      some { c with
        outstanding := if ident ∈ c.outstanding then c.outstanding else ident :: c.outstanding }
  | .recv => some c.recv

end Reader

def reader : System Reader ReaderEvent where
  init := {}
  step := Reader.step

/-- The bytes that have arrived. -/
def received (es : List ReaderEvent) : List Byte :=
  es.flatMap fun
    | .arrive bs => bs
    | _ => []

/-! ## What the driver sends -/

/-- A record with its signature. -/
structure Record where
  nf : MwNetflowInfo
  sig : nf.sig = swapBytes 2 mwMessageSigNetflowInfo

inductive Sent where
  | record (r : Record)
  | response (id : BitVec 32) (res : MwFeatureResponse)

namespace Sent

def base : Sent → List Byte
  | record r => r.nf.base.flatten
  | response id _ => [store 2 (swapBytes 2 mwMessageSigFeatureResponse), store 4 (swapBytes 4 id)].flatten

def rest : Sent → List Byte
  | record r => r.nf.fields.flatten
  | response _ res =>
      [store 4 (swapBytes 4 res.status), store 8 (swapBytes 8 res.val.s),
        store 8 (swapBytes 8 res.val.us)].flatten

def bytes (m : Sent) : List Byte := m.base ++ m.rest

def body : Sent → Body
  | record _ => .info
  | response id _ => .response id.toNat

/-- The message as the monitor has to report it; it has no words for an address
that is neither of version 4 nor of version 6. -/
def told : Sent → Option Got
  | record r =>
      r.nf.pvm.show.bind fun pvm => r.nf.remote.show.map fun remote =>
        .info ⟨wire 2 r.nf.obs, wire 8 r.nf.startSec, wire 8 r.nf.startNs, wire 8 r.nf.currSec,
          wire 8 r.nf.currNs, wire 8 r.nf.sockfd, pvm, remote, wire 8 r.nf.bytesIn,
          wire 8 r.nf.bytesOut, wire 8 r.nf.extra⟩
  | response id res =>
      some (.response ⟨id.toNat, res.status.toInt, res.val.s.toNat, res.val.us.toNat⟩)

/-- Both addresses of a record are of version 4 or 6. -/
def known : Sent → Prop
  | record r => (wire 4 r.nf.pvm.af = 4 ∨ wire 4 r.nf.pvm.af = 6) ∧
      (wire 4 r.nf.remote.af = 4 ∨ wire 4 r.nf.remote.af = 6)
  | response _ _ => True

end Sent

/-- The messages as bytes, one behind the other. -/
def sentBytes (msgs : List Sent) : List Byte := (msgs.map Sent.bytes).flatten

/-! ## One message -/

namespace Sent

theorem length_base (m : Sent) : m.base.length = baseFmt.size := by
  cases m with
  | record r => simp [base, MwNetflowInfo.base, baseFmt, Format.size, Field.size]
  | response id res => simp [base, baseFmt, Format.size, Field.size]

theorem length_rest (m : Sent) : m.rest.length = m.body.size := by
  cases m with
  | record r =>
      simp only [rest, MwNetflowInfo.fields, List.length_flatten, List.map_cons, List.map_nil,
        length_store, Block.size]
      rfl
  | response id res =>
      simp only [rest, List.length_flatten, List.map_cons, List.map_nil, length_store]
      rfl

theorem length_bytes (m : Sent) : m.bytes.length = baseFmt.size + m.body.size := by
  rw [bytes, List.length_append, length_base, length_rest]

theorem unpack_base_response (id : BitVec 32) (res : MwFeatureResponse) :
    baseFmt.unpack (Sent.response id res).base =
      some [.int mwMessageSigFeatureResponse.toNat, .int id.toNat] := by
  rw [Sent.base, Format.unpack_flatten (by simp [baseFmt, Field.size])]
  show some [Value.int (wire 2 _), Value.int (wire 4 _)] = _
  rw [wire_swapBytes rfl, wire_swapBytes rfl]

theorem bytes_response (id : BitVec 32) (res : MwFeatureResponse) :
    (Sent.response id res).bytes = (networkOrder id res).bytes := by
  show _ = [store 2 (swapBytes 2 mwMessageSigFeatureResponse), store 4 (swapBytes 4 id),
    store 4 (swapBytes 4 res.status),
    store 8 (swapBytes 8 res.val.s) ++ store 8 (swapBytes 8 res.val.us)].flatten
  simp only [bytes, base, rest, List.flatten_cons, List.flatten_nil, List.append_assoc,
    List.append_nil]

/-- The records that the driver emits are sent with their signature. -/
theorem emitted {s : Instance} {now : Timespec} {resp : MtResponse} {bs : List Byte}
    (h : mwsocketPostprocEmitNetflow true s now resp = some bs) :
    ∃ r, bs = (Sent.record r).bytes := by
  simp only [mwsocketPostprocEmitNetflow, if_true] at h
  obtain ⟨obs, -, rfl⟩ := Option.map_eq_some_iff.mp h
  split
  · exact ⟨⟨_, rfl⟩, rfl⟩
  · exact ⟨⟨_, rfl⟩, rfl⟩

theorem show_isSome (e : MwEndpoint) :
    e.show.isSome = true ↔ wire 4 e.af = 4 ∨ wire 4 e.af = 6 := by
  rw [MwEndpoint.show, endpoint]
  split
  · rename_i h
    exact iff_of_true rfl (Or.inl h)
  · rename_i h
    split
    · rename_i h'
      exact iff_of_true rfl (Or.inr h')
    · rename_i h'
      exact iff_of_false Bool.false_ne_true (fun hor => hor.elim h h')

/-- The monitor has words for the messages whose addresses it knows. -/
theorem told_isSome (m : Sent) : m.told.isSome = true ↔ m.known := by
  cases m with
  | record r =>
      rw [known, ← show_isSome, ← show_isSome, told]
      rcases r.nf.pvm.show with _ | pvm
      · simp
      · simp
  | response id res => exact iff_of_true rfl trivial

end Sent

namespace Reader

theorem readBase_sent (c : Reader) (m : Sent) :
    c.readBase m.base = { c with place := .body m.body [] } := by
  cases m with
  | record r =>
      have hunpack : baseFmt.unpack r.nf.base.flatten =
          some [.int (wire 2 r.nf.sig), .int (wire 4 r.nf.id)] := by
        rw [Format.unpack_flatten (by simp [MwNetflowInfo.base, baseFmt, Field.size])]
        rfl
      have hsig : wire 2 r.nf.sig = mwMessageSigNetflowInfo.toNat := by
        rw [r.sig, wire_swapBytes rfl]
      rw [readBase, Sent.base, hunpack]
      simp only [hsig, if_true]
      rfl
  | response id res =>
      have hne : ¬ (mwMessageSigFeatureResponse.toNat : Int) = mwMessageSigNetflowInfo.toNat := by
        decide
      rw [readBase, Sent.unpack_base_response]
      simp only [hne, if_false, if_true]
      rfl

theorem processResponse_sent (id : BitVec 32) (res : MwFeatureResponse) :
    processResponse id.toNat (Sent.response id res).rest =
      some ⟨id.toNat, res.status.toInt, res.val.s.toNat, res.val.us.toNat⟩ := by
  have hlen : (Sent.response id res).base.length = 6 := Sent.length_base _
  have hmsg := getMsg_networkOrder [(id.toNat : Int)] res (List.mem_singleton_self _)
  rw [← Sent.bytes_response, getMsg, Sent.bytes, List.take_left' hlen, List.drop_left' hlen] at hmsg
  simp only [Sent.unpack_base_response, List.mem_singleton, and_self, if_true] at hmsg
  exact hmsg

/-- A message whose bytes are there is reported. -/
theorem finish_sent (c : Reader) (m : Sent)
    (hasked : ∀ ident, m.body = .response ident → ident ∈ c.outstanding) :
    (c.finish m.rest m.body).place = .base ∧ (c.finish m.rest m.body).avail = c.avail ∧
      (c.finish m.rest m.body).got = c.got ++ [m.told.getD .raised] := by
  cases m with
  | record r =>
      refine ⟨rfl, rfl, ?_⟩
      show c.got ++ [((processInfoNetflow r.nf.fields.flatten).map Got.info).getD .raised] = _
      rw [processInfoNetflow_fields, Sent.told]
      rcases r.nf.pvm.show with _ | pvm
      · rfl
      · rcases r.nf.remote.show with _ | remote
        · rfl
        · rfl
  | response id res =>
      have hmem : (id.toNat : Int) ∈ c.outstanding := hasked id.toNat rfl
      simp only [finish, Sent.body, hmem, if_true, processResponse_sent, true_and]
      rfl

end Reader

/-! ## In step with the stream -/

/-- Is what follows the base of a message asked for? -/
def Body.Asked (outstanding : List Int) : Body → Prop
  | .info => True
  | .response ident => ident ∈ outstanding

instance (outstanding : List Int) (b : Body) : Decidable (b.Asked outstanding) :=
  match b with
  | .info => isTrue trivial
  | .response ident => inferInstanceAs (Decidable (ident ∈ outstanding))

/-- A `recv` at the base of a message finds all of the base or nothing, and a
`recv` behind it finds something; a response that becomes complete is asked for. -/
def Ready (c : Reader) : ReaderEvent → Prop
  | .recv =>
      match c.place with
      | .base => c.avail = [] ∨ baseFmt.size ≤ c.avail.length
      | .body b data => c.avail ≠ [] ∧
          (b.size ≤ data.length + c.avail.length → b.Asked c.outstanding)
  | _ => True

instance (c : Reader) (e : ReaderEvent) : Decidable (Ready c e) :=
  match e with
  | .arrive _ => isTrue trivial
  | .request _ => isTrue trivial
  | .recv =>
      match h : c.place with
      | .base =>
          decidable_of_iff (c.avail = [] ∨ baseFmt.size ≤ c.avail.length) (by rw [Ready, h])
      | .body b data =>
          decidable_of_iff (c.avail ≠ [] ∧
            (b.size ≤ data.length + c.avail.length → b.Asked c.outstanding)) (by rw [Ready, h])

/-- The bytes of message `n` that the monitor has taken. -/
inductive Taken (msgs : List Sent) (n : Nat) : Place → List Byte → Prop
  | base : Taken msgs n .base []
  | body (m : Sent) (data : List Byte) (hm : msgs[n]? = some m)
      (hshort : data.length < m.body.size) : Taken msgs n (.body m.body data) (m.base ++ data)

/-- What the monitor has reported are the first messages that were sent, and no
byte of what has arrived behind them is gone. -/
structure InStep (msgs : List Sent) (arrived : List Byte) (c : Reader) : Prop where
  told : c.got.map some = (msgs.take c.got.length).map Sent.told
  split : ∃ taken, Taken msgs c.got.length c.place taken ∧
    arrived = sentBytes (msgs.take c.got.length) ++ taken ++ c.avail

theorem received_append (es fs : List ReaderEvent) :
    received (es ++ fs) = received es ++ received fs := List.flatMap_append ..

/-- The next message of the stream. -/
theorem next_sent {msgs : List Sent} {n : Nat} {bs : List Byte}
    (h : sentBytes (msgs.take n) ++ bs <+: sentBytes msgs) (hne : bs ≠ []) :
    ∃ m rest, msgs[n]? = some m ∧ bs <+: m.bytes ++ rest := by
  rw [sentBytes, sentBytes, List.map_take] at h
  obtain ⟨m', rest, hm', hbs⟩ := Stream.next h hne
  rw [List.getElem?_map] at hm'
  obtain ⟨m, hm, rfl⟩ := Option.map_eq_some_iff.mp hm'
  exact ⟨m, rest, hm, hbs⟩

theorem sentBytes_take_succ {msgs : List Sent} {n : Nat} {m : Sent} (h : msgs[n]? = some m) :
    sentBytes (msgs.take (n + 1)) = sentBytes (msgs.take n) ++ m.bytes := by
  rw [sentBytes, sentBytes, List.map_take, List.map_take]
  refine Stream.take_succ ?_
  rw [List.getElem?_map, h]
  rfl

/-- A `recv` at the base of the next message. -/
theorem inStep_base {msgs : List Sent} {arrived : List Byte} {c : Reader}
    (h : InStep msgs arrived c) (hplace : c.place = .base) (hpre : arrived <+: sentBytes msgs)
    (hready : Ready c .recv) : InStep msgs arrived c.recv := by
  rw [Ready, hplace] at hready
  rw [Reader.recv, hplace]
  simp only
  split
  · exact h
  rename_i hne
  have hlen := hready.resolve_left hne
  obtain ⟨taken, htaken, harrived⟩ := h.split
  rw [hplace] at htaken
  cases htaken
  rw [List.append_nil] at harrived
  rw [harrived] at hpre
  obtain ⟨m, rest, hm, hbs⟩ := next_sent hpre hne
  have hbase : c.avail.take baseFmt.size = m.base := by
    rw [Stream.take_next hbs hlen (by rw [m.length_bytes]; omega), Sent.bytes,
      List.take_left' m.length_base]
  rw [hbase, Reader.readBase_sent]
  refine ⟨h.told, m.base, ?_, ?_⟩
  · have hpos : ([] : List Byte).length < m.body.size := by
      cases m with
      | record r => exact (by decide : 0 < infoFmt.size)
      | response id res => exact (by decide : 0 < featureResFmt.size)
    have hbody := Taken.body m [] hm hpos
    rwa [List.append_nil] at hbody
  · rw [harrived, ← hbase, List.append_assoc, List.take_append_drop]

/-- A `recv` behind the base of a message. -/
theorem inStep_body {msgs : List Sent} {arrived : List Byte} {c : Reader} {b : Body}
    {data : List Byte} (h : InStep msgs arrived c) (hplace : c.place = .body b data)
    (hpre : arrived <+: sentBytes msgs) (hready : Ready c .recv)
    (hknown : ∀ m ∈ msgs, m.known) : InStep msgs arrived c.recv := by
  rw [Ready, hplace] at hready
  obtain ⟨hne, hasked⟩ := hready
  obtain ⟨taken, htaken, harrived⟩ := h.split
  rw [hplace] at htaken
  rw [Reader.recv, hplace]
  simp only [if_neg hne]
  cases htaken with
  | body m _ hm hshort =>
  -- What was taken and what is there begin the message.
  have hmore : m.base ++ data ++ c.avail ≠ [] := by
    intro hnil
    exact hne (List.append_eq_nil_iff.mp hnil).2
  have hpre' := hpre
  rw [harrived, List.append_assoc] at hpre'
  obtain ⟨m', rest, hm', hbs⟩ := next_sent hpre' hmore
  cases hm.symm.trans hm'
  rw [Sent.bytes, List.append_assoc, List.append_assoc, List.prefix_append_right_inj] at hbs
  have hlen : (data ++ c.avail.take (m.body.size - data.length)).length =
      min m.body.size (data.length + c.avail.length) := by
    rw [List.length_append, List.length_take]
    omega
  split
  · rename_i hpart
    refine ⟨h.told, m.base ++ (data ++ c.avail.take (m.body.size - data.length)),
      Taken.body m _ hm hpart, ?_⟩
    rw [harrived]
    simp only [List.append_assoc, List.take_append_drop]
  · rename_i hfull
    have hmany : m.body.size ≤ data.length + c.avail.length := by omega
    have hrest : data ++ c.avail.take (m.body.size - data.length) = m.rest := by
      have hfirst := Stream.take_next hbs (k := m.body.size) (by rw [List.length_append]; exact hmany)
        (by rw [m.length_rest])
      rw [List.take_append, List.take_of_length_le (Nat.le_of_lt hshort)] at hfirst
      rw [hfirst, ← m.length_rest, List.take_length]
    rw [hrest]
    obtain ⟨hbase, havail, hgot⟩ := Reader.finish_sent
      { c with avail := c.avail.drop (m.body.size - data.length), place := .body m.body data } m (by
        intro ident hident
        have := hasked hmany
        rwa [hident] at this)
    obtain ⟨x, hx⟩ := Option.isSome_iff_exists.mp
      (m.told_isSome.mpr (hknown m (List.mem_of_getElem? hm)))
    rw [hx, Option.getD_some] at hgot
    have hcount : (c.got ++ [x]).length = c.got.length + 1 := List.length_append
    constructor
    · rw [hgot, hcount, List.map_append, h.told, List.take_add_one, hm, List.map_append]
      simp [hx]
    · refine ⟨[], ?_, ?_⟩
      · rw [hbase]
        exact Taken.base
      · rw [hgot, hcount, sentBytes_take_succ hm, havail, harrived, Sent.bytes, ← hrest]
        simp only [List.append_assoc, List.append_nil, List.take_append_drop]

theorem inStep_step {msgs : List Sent} (hknown : ∀ m ∈ msgs, m.known)
    {past : List ReaderEvent} {e : ReaderEvent} {c c' : Reader} (hready : Ready c e)
    (hs : reader.step c e = some c') (hpre : received (past ++ [e]) <+: sentBytes msgs)
    (h : InStep msgs (received past) c) : InStep msgs (received (past ++ [e])) c' := by
  cases e with
  | arrive bs =>
      cases hs
      obtain ⟨taken, htaken, harrived⟩ := h.split
      refine ⟨h.told, taken, htaken, ?_⟩
      rw [received_append, harrived, List.append_assoc]
      simp [received]
  | request ident =>
      cases hs
      have hsame : received (past ++ [.request ident]) = received past := by simp [received]
      rw [hsame]
      exact ⟨h.told, h.split⟩
  | recv =>
      cases hs
      have hsame : received (past ++ [.recv]) = received past := by simp [received]
      rw [hsame] at hpre ⊢
      rcases hplace : c.place with _ | ⟨b, data⟩
      · exact inStep_base h hplace hpre hready
      · exact inStep_body h hplace hpre hready hknown

/-! ## Bytes that are lost -/

/-- The bytes of a message that is reported as what it was. -/
def Got.size : Got → Nat
  | .info _ => baseFmt.size + Body.info.size
  | .response r => baseFmt.size + (Body.response r.ident).size
  | _ => 0

def Place.size : Place → Nat
  | .base => 0
  | .body _ data => baseFmt.size + data.length

/-- The bytes that are reported, or still held. -/
def Reader.total (c : Reader) : Nat := (c.got.map Got.size).sum + c.place.size + c.avail.length

/-- `recvall` has less than it wants. -/
def Place.Short : Place → Prop
  | .base => True
  | .body b data => data.length < b.size

namespace Reader

theorem readBase_cases (c : Reader) (bs : List Byte) :
    (bs.length = baseFmt.size ∧ ∃ b, c.readBase bs = { c with place := .body b [] }) ∨
      ∃ g : Got, g.size = 0 ∧ c.readBase bs = { c with got := c.got ++ [g] } := by
  rw [readBase]
  split
  · rename_i sig ident hunpack
    have hlen : bs.length = baseFmt.size := by
      by_contra hne
      rw [Format.unpack, if_neg hne] at hunpack
      cases hunpack
    split
    · exact Or.inl ⟨hlen, .info, rfl⟩
    · split
      · exact Or.inl ⟨hlen, .response ident, rfl⟩
      · exact Or.inr ⟨.unknown sig, rfl, rfl⟩
  · exact Or.inr ⟨.raised, rfl, rfl⟩

/-- Whatever ends a message is reported; it counts if it was asked for. -/
theorem finish_cases (c : Reader) (data : List Byte) (b : Body) :
    ∃ g, (c.finish data b).place = .base ∧ (c.finish data b).avail = c.avail ∧
      (c.finish data b).got = c.got ++ [g] ∧
        (g.size = 0 ∨ g.size = baseFmt.size + b.size ∧ b.Asked c.outstanding) := by
  cases b with
  | info =>
      refine ⟨_, rfl, rfl, rfl, ?_⟩
      rcases processInfoNetflow data with _ | i
      · exact Or.inl rfl
      · exact Or.inr ⟨rfl, trivial⟩
  | response ident =>
      by_cases hmem : ident ∈ c.outstanding
      · simp only [finish, if_pos hmem]
        refine ⟨_, trivial, trivial, rfl, ?_⟩
        rcases processResponse ident data with _ | r
        · exact Or.inl rfl
        · exact Or.inr ⟨rfl, hmem⟩
      · simp only [finish, if_neg hmem]
        exact ⟨.raised, trivial, trivial, rfl, Or.inl rfl⟩

end Reader

theorem total_got {c c' : Reader} {g : Got} (hgot : c'.got = c.got ++ [g])
    (hplace : c'.place = .base) :
    c'.total = (c.got.map Got.size).sum + g.size + c'.avail.length := by
  rw [Reader.total, hgot, hplace, List.map_append, List.sum_append]
  rfl

/-- A `recv` at the base of a message loses bytes unless it finds all of it. -/
theorem recv_base_balance {c : Reader} (hplace : c.place = .base) :
    c.recv.place.Short ∧ ∃ lost, c.total = c.recv.total + lost ∧ (lost = 0 → Ready c .recv) := by
  rw [Reader.recv, hplace, Ready, hplace]
  simp only
  split
  · rename_i hnil
    refine ⟨?_, 0, rfl, fun _ => Or.inl hnil⟩
    rw [hplace]
    trivial
  rename_i hne
  have hpos := List.length_pos_of_ne_nil hne
  have hsize : 0 < baseFmt.size := by decide
  have hold : c.total = (c.got.map Got.size).sum + 0 + c.avail.length := by
    rw [Reader.total, hplace]
    rfl
  rcases Reader.readBase_cases { c with avail := c.avail.drop baseFmt.size }
    (c.avail.take baseFmt.size) with ⟨hlen, b, hread⟩ | ⟨g, hg, hread⟩
  · rw [List.length_take] at hlen
    have hmany : baseFmt.size ≤ c.avail.length := by omega
    have hbody : 0 < b.size := by
      cases b with
      | info => exact (by decide : 0 < infoFmt.size)
      | response ident => exact (by decide : 0 < featureResFmt.size)
    rw [hplace] at hread
    rw [hread]
    refine ⟨hbody, 0, ?_, fun _ => Or.inr hmany⟩
    rw [hold]
    simp only [Reader.total, Place.size, List.length_nil, List.length_drop]
    omega
  · rw [hplace] at hread
    have hgot := congrArg Reader.got hread
    have hbase := congrArg Reader.place hread
    have havail := congrArg Reader.avail hread
    refine ⟨by rw [hbase]; trivial, min baseFmt.size c.avail.length, ?_, fun hzero => ?_⟩
    · rw [total_got (c := c) hgot hbase, havail, hg, hold, List.length_drop]
      omega
    · omega

/-- A `recv` behind the base loses what was read if it finds nothing, and a
message that is not asked for. -/
theorem recv_body_balance {c : Reader} {b : Body} {data : List Byte}
    (hplace : c.place = .body b data) (hshort : data.length < b.size) :
    c.recv.place.Short ∧ ∃ lost, c.total = c.recv.total + lost ∧ (lost = 0 → Ready c .recv) := by
  have hsize : 0 < baseFmt.size := by decide
  have hold : c.total =
      (c.got.map Got.size).sum + (baseFmt.size + data.length) + c.avail.length := by
    rw [Reader.total, hplace]
    rfl
  rw [Reader.recv, hplace, Ready, hplace]
  simp only
  split
  · rename_i hnil
    have hnone : (c.interrupted b).total = (c.got.map Got.size).sum := by
      cases b with
      | info =>
          rw [total_got (c := c) (g := .error) rfl rfl]
          simp [Reader.interrupted, hnil, Got.size]
      | response ident => simp [Reader.interrupted, Reader.total, Place.size, hnil]
    refine ⟨by cases b <;> trivial, baseFmt.size + data.length + c.avail.length, ?_,
      fun hzero => ?_⟩
    · rw [hnone, hold]
      omega
    · omega
  rename_i hne
  have hlen : (data ++ c.avail.take (b.size - data.length)).length =
      min b.size (data.length + c.avail.length) := by
    rw [List.length_append, List.length_take]
    omega
  split
  · rename_i hpart
    refine ⟨hpart, 0, ?_, fun _ => ⟨hne, fun hmany => ?_⟩⟩
    · rw [hold]
      simp only [Reader.total, Place.size, List.length_drop]
      omega
    · omega
  · rename_i hfull
    obtain ⟨g, hbase, havail, hgot, hg⟩ := Reader.finish_cases
      { c with avail := c.avail.drop (b.size - data.length), place := .body b data }
      (data ++ c.avail.take (b.size - data.length)) b
    refine ⟨by rw [hbase]; trivial, baseFmt.size + b.size - g.size, ?_, fun hzero => ?_⟩
    · rw [total_got (c := c) hgot hbase, havail, List.length_drop, hold]
      rcases hg with hg | ⟨hg, -⟩
      · omega
      · omega
    · rcases hg with hg | ⟨-, hasked⟩
      · omega
      · exact ⟨hne, fun _ => hasked⟩

theorem reader_balance {c c' : Reader} {e : ReaderEvent} (hshort : c.place.Short)
    (hs : reader.step c e = some c') : c'.place.Short ∧
      ∃ lost, c.total + (received [e]).length = c'.total + lost ∧ (lost = 0 → Ready c e) := by
  cases e with
  | arrive bs =>
      cases hs
      refine ⟨hshort, 0, ?_, fun _ => trivial⟩
      simp only [Reader.total, received, List.flatMap_cons, List.flatMap_nil, List.append_nil,
        List.length_append]
      omega
  | request ident =>
      cases hs
      exact ⟨hshort, 0, rfl, fun _ => trivial⟩
  | recv =>
      cases hs
      have hnone : (received [.recv]).length = 0 := rfl
      rw [hnone, Nat.add_zero]
      rcases hplace : c.place with _ | ⟨b, data⟩
      · exact recv_base_balance hplace
      · rw [hplace] at hshort
        exact recv_body_balance hplace hshort

/-! ## Runs -/

theorem length_received (es : List ReaderEvent) :
    (received es).length = (es.map fun e => (received [e]).length).sum := by
  rw [received, List.length_flatMap]
  congr 1
  refine List.map_congr_left fun e _ => ?_
  rw [received, List.flatMap_singleton]

/-- Reported as they were sent, messages count with all their bytes. -/
theorem sum_size_told {msgs : List Sent} {got : List Got}
    (h : got.map some = msgs.map Sent.told) :
    (got.map Got.size).sum = (sentBytes msgs).length := by
  induction msgs generalizing got with
  | nil =>
      rw [List.map_nil, List.map_eq_nil_iff] at h
      rw [h]
      rfl
  | cons m msgs ih =>
      rcases got with _ | ⟨g, got⟩
      · cases h
      rw [List.map_cons, List.map_cons, List.cons.injEq] at h
      obtain ⟨hm, hrest⟩ := h
      have hsize : g.size = m.bytes.length := by
        rw [m.length_bytes]
        cases m with
        | record r =>
            obtain ⟨pvm, -, hremote⟩ := Option.bind_eq_some_iff.mp hm.symm
            obtain ⟨remote, -, rfl⟩ := Option.map_eq_some_iff.mp hremote
            rfl
        | response id res =>
            cases hm
            rfl
      have hcons : sentBytes (m :: msgs) = m.bytes ++ sentBytes msgs := rfl
      rw [List.map_cons, List.sum_cons, ih hrest, hsize, hcons, List.length_append]

/-- Once all has arrived and has been read, every message has been reported. -/
theorem InStep.complete {msgs : List Sent} {c : Reader} (h : InStep msgs (sentBytes msgs) c)
    (hread : c.avail = []) (hplace : c.place = .base) : c.got.map some = msgs.map Sent.told := by
  obtain ⟨taken, htaken, harrived⟩ := h.split
  rw [hplace] at htaken
  cases htaken
  rw [hread, List.append_nil, List.append_nil] at harrived
  have hsplit : sentBytes msgs =
      sentBytes (msgs.take c.got.length) ++ sentBytes (msgs.drop c.got.length) := by
    rw [sentBytes, sentBytes, sentBytes, ← List.flatten_append, ← List.map_append,
      List.take_append_drop]
  have hnone : sentBytes (msgs.drop c.got.length) = [] := by
    rw [hsplit] at harrived
    exact List.append_right_eq_self.mp harrived
  have hdrop : msgs.drop c.got.length = [] := by
    rcases hdrop : msgs.drop c.got.length with _ | ⟨m, rest⟩
    · rfl
    · have hlen := congrArg List.length hnone
      rw [hdrop, sentBytes, List.map_cons, List.flatten_cons, List.length_append,
        m.length_bytes] at hlen
      have hsize : 0 < baseFmt.size := by decide
      simp only [List.length_nil] at hlen
      omega
  have hall := List.take_append_drop c.got.length msgs
  rw [hdrop, List.append_nil] at hall
  rw [h.told, hall]

/-- The monitor reports what was sent, in order, as long as it finds each base
whole, is never kept waiting within a message, and knows the addresses; and of a
stream that it has read to the end it reports all only then. -/
theorem monitor_decodes_iff (msgs : List Sent) (es : List ReaderEvent) (c : Reader)
    (hrun : reader.run es = some c) (hpre : received es <+: sentBytes msgs) :
    (reader.Guarded Ready es → (∀ m ∈ msgs, m.known) → InStep msgs (received es) c) ∧
      (received es = sentBytes msgs → c.avail = [] → c.place = .base →
        (c.got.map some = msgs.map Sent.told ↔
          reader.Guarded Ready es ∧ ∀ m ∈ msgs, m.known)) := by
  have hinStep (hG : reader.Guarded Ready es) (hknown : ∀ m ∈ msgs, m.known) :
      InStep msgs (received es) c := by
    have hinit : received [] <+: sentBytes msgs → InStep msgs (received []) reader.init := by
      intro _
      exact ⟨rfl, [], Taken.base, rfl⟩
    refine reader.guardedFrom_history
      (I := fun past c => received past <+: sentBytes msgs → InStep msgs (received past) c)
      (fun past e c c' hready hs ih hpre => ?_) [] hG hrun hinit hpre
    have hpast : received past <+: sentBytes msgs := by
      rw [received_append] at hpre
      exact (List.prefix_append _ _).trans hpre
    exact inStep_step hknown hready hs hpre (ih hpast)
  refine ⟨hinStep, fun hall hread hplace => ⟨fun htold => ⟨?_, ?_⟩, ?_⟩⟩
  · obtain ⟨lost, hbalance, hG⟩ := reader.guardedFrom_of_balance (G := Ready)
      (fun _ _ _ hshort hs => reader_balance hshort hs) (show reader.init.place.Short from trivial)
      hrun
    refine hG ?_
    rw [← length_received, hall, ← sum_size_told htold] at hbalance
    have hinit : reader.init.total = 0 := rfl
    have hend : c.total = (c.got.map Got.size).sum := by
      rw [Reader.total, hread, hplace]
      rfl
    omega
  · intro m hm
    have hmem : m.told ∈ c.got.map some := htold ▸ List.mem_map_of_mem hm
    obtain ⟨g, -, hg⟩ := List.mem_map.mp hmem
    rw [← m.told_isSome, ← hg]
    rfl
  · rintro ⟨hG, hknown⟩
    exact InStep.complete (hall ▸ hinStep hG hknown) hread hplace

/-- A record of a connection, and the response to request 7. -/
def connectionRecord : Record where
  nf := populateNetflow (connected 3) ⟨1500000060, 0⟩ (swapBytes 2 6) (swapBytes 8 3)
  sig := rfl

def conversation : List Sent := [.record connectionRecord, .response 7 { val := .time 4096 0 }]

/-- The response in two pieces, the second of which comes when it is waited for. -/
def inPieces : List ReaderEvent :=
  let record := (Sent.record connectionRecord).bytes
  let response := (Sent.response 7 { val := .time 4096 0 }).bytes
  [.request 7, .recv, .arrive (record ++ response.take 6), .recv, .recv, .recv,
    .arrive (response.drop 6), .recv]

theorem monitor_decodes_iff_inPieces : ∃ c, reader.run inPieces = some c ∧ c.got.length = 2 ∧
    (c.got.map some = conversation.map Sent.told ↔
      reader.Guarded Ready inPieces ∧ ∀ m ∈ conversation, m.known) := by
  have harrived : received inPieces = sentBytes conversation := by decide +kernel
  have hend : (reader.run inPieces).map (fun c => (c.avail, c.place, c.got.length)) =
      some ([], .base, 2) := by
    decide +kernel
  obtain ⟨c, hc, hview⟩ := Option.map_eq_some_iff.mp hend
  simp only [Prod.mk.injEq] at hview
  obtain ⟨hread, hplace, hgot⟩ := hview
  have hdecodes := monitor_decodes_iff conversation inPieces c hc (harrived ▸ List.prefix_refl _)
  exact ⟨c, hc, hgot, hdecodes.2 harrived hread hplace⟩

/-- The response in the same two pieces, with a time-out between them. -/
def interruptedPieces : List ReaderEvent :=
  let response := (Sent.response 7 { val := .time 4096 0 }).bytes
  [.request 7, .arrive (response.take 6), .recv, .recv, .arrive (response.drop 6), .recv, .recv,
    .recv, .recv]

/-- All of the response has arrived and been read, and the monitor has reported
three messages that were not sent, and failed. -/
theorem response_torn : ∃ c, reader.run interruptedPieces = some c ∧
    received interruptedPieces = sentBytes [.response 7 { val := .time 4096 0 }] ∧
      c.avail = [] ∧ c.place = .base ∧ c.got = [.unknown 0, .unknown 0, .unknown 0, .raised] ∧
        c.got.map some ≠ [Sent.response 7 { val := .time 4096 0 }].map Sent.told := by
  have hrun : reader.run interruptedPieces = some
      { outstanding := [7], got := [.unknown 0, .unknown 0, .unknown 0, .raised] } := by
    decide +kernel
  refine ⟨_, hrun, by decide +kernel, rfl, rfl, rfl, ?_⟩
  intro h
  exact absurd (congrArg List.length h) (by decide)

end MagicWand.Monitor
