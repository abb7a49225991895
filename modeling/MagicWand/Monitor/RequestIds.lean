import MagicWand.Foundation.FreshId
import MagicWand.Foundation.Transition
import MagicWand.Monitor.Feature
import Mathlib.Data.List.AList

/-!
# Ids of requests

`mw_netflow.py` numbers its requests. `get_next_id` adds one to the counter and
goes on from there as long as the id is outstanding; only in that loop is the
counter taken modulo `MAX_ID`. The counter of the module is an `int` of Python,
which has no width.
-/

namespace MagicWand.Monitor

open Foundation

/-- `MAX_ID`. -/
def maxId : Nat := 0xffffffff

/-- What `send_feature_request` remembers of a request; its `mtype` is always
`"feature"`. -/
structure Remembered where
  flag : BitVec 16
  sockfd : BitVec 64
  name : BitVec 16
  value : FeatureValue
deriving DecidableEq, Repr

/-- `curr_id` and `outstanding_requests`; the value is `None` until
`send_feature_request` has stored the request. -/
structure RequestIds where
  currId : Nat
  outstanding : AList fun _ : Nat => Option Remembered := ∅

namespace RequestIds

/-- `curr_id += 1; curr_id %= MAX_ID`. -/
def advance (currId : Nat) : Nat := (currId + 1) % maxId

/-- The id that `get_next_id` ends with, after at most `fuel` rounds of its loop. -/
def nextId (fuel : Nat) (s : RequestIds) : Option Nat :=
  if s.currId + 1 ∈ s.outstanding.keys then
    FreshId.pick advance s.outstanding.keys fuel (s.currId + 1)
  else some (s.currId + 1)

/-- `get_next_id`. -/
def getNextId (fuel : Nat) (s : RequestIds) : Option (Nat × RequestIds) :=
  (s.nextId fuel).map fun id =>
    (id, { currId := id, outstanding := s.outstanding.insert id none })

/-- More rounds than there are outstanding requests. -/
def rounds (s : RequestIds) : Nat := s.outstanding.keys.length + 1

end RequestIds

inductive IdEvent where
  /-- `send_feature_request`, up to the packing of the request. -/
  | request (r : Remembered)
  /-- `process_response`; an id that is not outstanding is a key error. -/
  | response (ident : BitVec 32)
deriving DecidableEq, Repr

def IdEvent.isRequest : IdEvent → Bool
  | .request _ => true
  | .response _ => false

namespace RequestIds

def step (s : RequestIds) : IdEvent → Option RequestIds
  | .request r => (s.getNextId s.rounds).map fun x =>
      { x.2 with outstanding := x.2.outstanding.insert x.1 (some r) }
  | .response ident => some { s with outstanding := s.outstanding.erase ident.toNat }

end RequestIds

/-- The monitor's table of requests, from any counter and table on. -/
def requestIds (s : RequestIds) : System RequestIds IdEvent where
  init := s
  step := RequestIds.step

namespace RequestIds

/-! ## What is asked of an id -/

/-- The call returns `id` if it may go round often enough. -/
def Returns (s : RequestIds) (id : Nat) (s' : RequestIds) : Prop :=
  ∃ enough, ∀ fuel ≥ enough, s.getNextId fuel = some (id, s')

/-- A call of `get_next_id` ends with an id of 32 bits that was not outstanding,
touches no other entry, and leaves a counter of 32 bits. -/
def Serves (s : RequestIds) : Prop :=
  ∃ id s', s.Returns id s' ∧ id ≤ maxId ∧ id ∉ s.outstanding ∧
    (∀ k ≠ id, s'.outstanding.lookup k = s.outstanding.lookup k) ∧ s'.currId ≤ maxId

/-- The counter is not at its top, or the id behind the top is outstanding. -/
def BelowTop (s : RequestIds) : Prop := s.currId ≠ maxId ∨ maxId + 1 ∈ s.outstanding

/-- Fewer requests are outstanding than the counter has values. -/
def Few (s : RequestIds) : Prop := s.outstanding.keys.length < maxId

variable {s s' : RequestIds} {id fuel : Nat}

/-! ## One call -/

theorem iterate_advance (n c : Nat) : advance^[n + 1] c = (c + n + 1) % maxId := by
  induction n with
  | zero => rfl
  | succ n ih =>
      rw [Function.iterate_succ_apply', ih, advance, Nat.mod_add_mod]
      rfl

/-- The loop ends while a value of the counter is free. -/
theorem nextId_terminates (h : s.Few) : ∃ id, s.nextId s.rounds = some id := by
  rw [nextId]
  split_ifs
  · apply FreshId.pick_terminates
    -- the candidates of the first rounds are different values modulo `MAX_ID`
    intro i hi j hj heq
    rw [iterate_advance, iterate_advance] at heq
    have hmod : s.currId + 1 + i ≡ s.currId + 1 + j [MOD maxId] :=
      Nat.ModEq.add_right_cancel' 1 heq
    have hij : i ≡ j [MOD maxId] := Nat.ModEq.add_left_cancel' _ hmod
    exact hij.eq_of_lt_of_lt (hi.trans_lt h) (hj.trans_lt h)
  · exact ⟨_, rfl⟩

theorem nextId_mono {more : Nat} (h : s.nextId fuel = some id) (hle : fuel ≤ more) :
    s.nextId more = some id := by
  rw [nextId] at h ⊢
  split_ifs at h ⊢
  · exact FreshId.pick_mono h hle
  · exact h

/-- An id that is drawn is the next of the counter, or one that the loop has taken
modulo `MAX_ID`. -/
theorem nextId_cases (h : s.nextId fuel = some id) :
    (s.currId + 1 ∉ s.outstanding.keys ∧ id = s.currId + 1) ∨
      s.currId + 1 ∈ s.outstanding.keys ∧ id ∉ s.outstanding.keys ∧ id < maxId := by
  rw [nextId] at h
  split_ifs at h with hused
  · obtain ⟨d, rfl⟩ := FreshId.pick_mem_range h
    exact Or.inr ⟨hused, FreshId.pick_not_mem h, Nat.mod_lt _ (by decide)⟩
  · exact Or.inl ⟨hused, (Option.some.inj h).symm⟩

theorem nextId_not_mem (h : s.nextId fuel = some id) : id ∉ s.outstanding := by
  rw [AList.mem_keys]
  rcases nextId_cases h with ⟨hfree, rfl⟩ | ⟨-, hfree, -⟩
  · exact hfree
  · exact hfree

/-- An id is one of 32 bits unless the counter goes over its top. -/
theorem nextId_le_iff (hcurr : s.currId ≤ maxId) (h : s.nextId fuel = some id) :
    id ≤ maxId ↔ s.BelowTop := by
  rw [BelowTop, AList.mem_keys]
  rcases nextId_cases h with ⟨hfree, rfl⟩ | ⟨hused, -, hlt⟩
  · constructor
    · intro hle
      exact Or.inl (Nat.ne_of_lt hle)
    · rintro (hne | htop)
      · exact Nat.lt_of_le_of_ne hcurr hne
      · refine Nat.lt_of_le_of_ne hcurr ?_
        rintro heq
        rw [heq] at hfree
        exact hfree htop
  · -- the loop was entered, and has taken the counter modulo `MAX_ID`
    refine iff_of_true hlt.le ?_
    by_cases htop : s.currId = maxId
    · exact Or.inr (htop ▸ hused)
    · exact Or.inl htop

theorem getNextId_eq (h : s.nextId fuel = some id) :
    s.getNextId fuel =
      some (id, { currId := id, outstanding := s.outstanding.insert id none }) := by
  rw [getNextId, h]
  rfl

/-- A call that ends in some rounds returns what it ends with. -/
theorem returns_iff (h : s.nextId fuel = some id) {id' : Nat} :
    s.Returns id' s' ↔
      id' = id ∧ s' = { currId := id, outstanding := s.outstanding.insert id none } := by
  constructor
  · rintro ⟨enough, hall⟩
    -- both end alike when there are enough rounds for either
    have hmore := hall (enough + fuel) (Nat.le_add_right ..)
    rw [getNextId_eq (nextId_mono h (Nat.le_add_left ..))] at hmore
    cases hmore
    exact ⟨rfl, rfl⟩
  · rintro ⟨rfl, rfl⟩
    exact ⟨fuel, fun more hle => getNextId_eq (nextId_mono h hle)⟩

/-- With a value free, a call does what is asked of it unless the counter goes over its
top. -/
theorem serves_iff (hcurr : s.currId ≤ maxId) (hfew : s.Few) : s.Serves ↔ s.BelowTop := by
  obtain ⟨id, hid⟩ := nextId_terminates hfew
  rw [← nextId_le_iff hcurr hid]
  constructor
  · rintro ⟨id', s', hreturns, hle, -⟩
    rw [returns_iff hid] at hreturns
    exact hreturns.1 ▸ hle
  · intro hle
    refine ⟨id, _, (returns_iff hid).mpr ⟨rfl, rfl⟩, hle, nextId_not_mem hid, ?_, hle⟩
    intro k hk
    exact AList.lookup_insert_ne hk

/-- After a call that does what is asked of it the counter is in its range. -/
theorem currId_step {e : IdEvent} (hcurr : s.currId ≤ maxId)
    (hserves : e.isRequest = true → s.Serves) (hstep : s.step e = some s') :
    s'.currId ≤ maxId := by
  cases e with
  | request r =>
      obtain ⟨x, hx, rfl⟩ := Option.map_eq_some_iff.mp hstep
      obtain ⟨id, hid, rfl⟩ := Option.map_eq_some_iff.mp hx
      obtain ⟨id', s', hreturns, hle, -⟩ := hserves rfl
      rw [returns_iff hid] at hreturns
      exact hreturns.1 ▸ hle
  | response ident =>
      cases hstep
      exact hcurr

instance (s : RequestIds) : Decidable s.BelowTop := inferInstanceAs (Decidable (_ ∨ _))

instance (s : RequestIds) : Decidable s.Few := inferInstanceAs (Decidable (_ < _))

/-- Whatever is outstanding at first and however requests and responses follow each
other, every request gets an id as asked if and only if none of them finds the
counter at its top. -/
theorem request_ids_iff (s : RequestIds) (hcurr : s.currId ≤ maxId) (es : List IdEvent)
    (hfew : (requestIds s).Guarded (fun t e => e.isRequest = true → t.Few) es) :
    (requestIds s).Guarded (fun t e => e.isRequest = true → t.Serves) es ↔
      (requestIds s).Guarded (fun t e => e.isRequest = true → t.BelowTop) es := by
  have hiff (t : RequestIds) (e : IdEvent) (ht : t.currId ≤ maxId)
      (hfew : e.isRequest = true → t.Few) :
      (e.isRequest = true → t.Serves) ↔ (e.isRequest = true → t.BelowTop) :=
    forall_congr' fun hreq => serves_iff ht (hfew hreq)
  refine (requestIds s).guardedFrom_congr hiff ?_ hcurr hfew
  intro t e t' ht _ hserves hstep
  exact currId_step ht hserves hstep

def traffic : Remembered := { flag := 0, sockfd := 0, name := 1, value := .number 0 }

/-- The counter is one below its top: the id at the top is still one of 32 bits. -/
theorem request_ids_iff_lastId :
    (requestIds ⟨maxId - 1, ∅⟩).Guarded (fun t e => e.isRequest = true → t.Serves)
      [.request traffic, .response 4294967295] :=
  (request_ids_iff ⟨maxId - 1, ∅⟩ (by decide) _ (by decide +kernel)).mpr (by decide +kernel)

/-- From the top on, an id has 33 bits, and so has the next. -/
theorem request_id_too_long :
    (∀ fuel, (getNextId fuel ⟨maxId, ∅⟩).map Prod.fst = some 4294967296) ∧
      ((requestIds ⟨maxId, ∅⟩).run [.request traffic, .request traffic]).map currId =
        some 4294967297 ∧
      ¬ Serves ⟨maxId, ∅⟩ := by
  refine ⟨fun fuel => rfl, by decide +kernel, ?_⟩
  rw [serves_iff (le_refl _) (by decide)]
  decide

end RequestIds

end MagicWand.Monitor
