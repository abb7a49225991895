import MagicWand.Foundation.CircularBuffer

/-!
# Work queues

`workqueue.c`: the bounded queue of buffer indices that each worker thread owns.
The lock is held throughout each operation, so an operation is one step.
-/

namespace MagicWand.Ins

open Foundation

/-- `workqueue_t`. The fields after `items` say what `workqueue_alloc`
establishes and the operations keep: the write index is the first free cell. -/
structure WorkQueue where
  itemCt : Nat
  availableSlots : Nat
  readIdx : Nat
  writeIdx : Nat
  items : Nat → Nat
  itemCt_pos : 0 < itemCt
  available_le : availableSlots ≤ itemCt
  readIdx_lt : readIdx < itemCt
  writeIdx_eq : writeIdx = (readIdx + (itemCt - availableSlots)) % itemCt

namespace WorkQueue

/-- `workqueue_alloc`. -/
def alloc (itemCount : Nat) (hpos : 0 < itemCount) : WorkQueue where
  itemCt := itemCount
  availableSlots := itemCount
  readIdx := 0
  writeIdx := 0
  items := fun _ => 0
  itemCt_pos := hpos
  available_le := Nat.le_refl _
  readIdx_lt := hpos
  writeIdx_eq := by simp

/-- `workqueue_is_empty`. -/
def isEmpty (wq : WorkQueue) : Bool := wq.itemCt == wq.availableSlots

/-- `workqueue_enqueue`; `none` is `EBUSY`. -/
def enqueue (wq : WorkQueue) (item : Nat) : Option WorkQueue :=
  if h : wq.availableSlots = 0 then none
  else some
    { wq with
      items := Function.update wq.items wq.writeIdx item
      writeIdx := (wq.writeIdx + 1) % wq.itemCt
      availableSlots := wq.availableSlots - 1
      available_le := by have := wq.available_le; omega
      writeIdx_eq := by
        have := wq.available_le
        rw [wq.writeIdx_eq, Nat.mod_add_mod]
        congr 1
        omega }

/-- `workqueue_dequeue`; `none` is `WORK_QUEUE_UNASSIGNED_IDX`. -/
def dequeue (wq : WorkQueue) : Option (Nat × WorkQueue) :=
  if h : wq.itemCt = wq.availableSlots then none
  else some
    (wq.items wq.readIdx,
     { wq with
       readIdx := (wq.readIdx + 1) % wq.itemCt
       availableSlots := wq.availableSlots + 1
       available_le := by have := wq.available_le; omega
       readIdx_lt := Nat.mod_lt _ wq.itemCt_pos
       writeIdx_eq := by
         have := wq.available_le
         rw [wq.writeIdx_eq, Nat.mod_add_mod]
         congr 1
         omega })

/-! ## The queue as a list -/

/-- The queued indices, oldest first. -/
def contents (wq : WorkQueue) : List Nat :=
  CircularBuffer.window wq.items wq.itemCt wq.readIdx (wq.itemCt - wq.availableSlots)

@[simp] theorem contents_alloc (n : Nat) (h : 0 < n) : (alloc n h).contents = [] := by
  simp [contents, alloc, CircularBuffer.window]

theorem isEmpty_iff (wq : WorkQueue) : wq.isEmpty = true ↔ wq.contents = [] := by
  have := wq.available_le
  rw [contents, CircularBuffer.window_eq_nil_iff, isEmpty, beq_iff_eq]
  omega

theorem contents_enqueue {wq wq' : WorkQueue} {item : Nat} (h : wq.enqueue item = some wq') :
    wq'.contents = wq.contents ++ [item] := by
  unfold enqueue at h
  split at h
  · cases h
  · cases h
    have hle := wq.available_le
    have hlen : wq.itemCt - wq.availableSlots < wq.itemCt := by
      have := wq.itemCt_pos
      omega
    have hsucc : wq.itemCt - (wq.availableSlots - 1) = wq.itemCt - wq.availableSlots + 1 := by
      omega
    simp only [contents]
    rw [hsucc, wq.writeIdx_eq]
    exact CircularBuffer.window_push wq.items hlen item

theorem contents_dequeue {wq wq' : WorkQueue} {item : Nat}
    (h : wq.dequeue = some (item, wq')) : wq.contents = item :: wq'.contents := by
  unfold dequeue at h
  split at h
  · cases h
  · cases h
    have hle := wq.available_le
    have hsucc : wq.itemCt - wq.availableSlots =
        wq.itemCt - (wq.availableSlots + 1) + 1 := by omega
    simp only [contents]
    rw [hsucc, CircularBuffer.window_pop, Nat.mod_eq_of_lt wq.readIdx_lt]

theorem contents_of_dequeue_none {wq : WorkQueue} (h : wq.dequeue = none) :
    wq.contents = [] := by
  rw [← isEmpty_iff, isEmpty, beq_iff_eq]
  unfold dequeue at h
  split at h
  · assumption
  · cases h

theorem length_contents (wq : WorkQueue) :
    wq.contents.length = wq.itemCt - wq.availableSlots :=
  CircularBuffer.length_window _ _ _ _

theorem itemCt_enqueue {wq wq' : WorkQueue} {item : Nat} (h : wq.enqueue item = some wq') :
    wq'.itemCt = wq.itemCt := by
  unfold enqueue at h
  split at h
  · cases h
  · cases h
    rfl

theorem itemCt_dequeue {wq wq' : WorkQueue} {item : Nat} (h : wq.dequeue = some (item, wq')) :
    wq'.itemCt = wq.itemCt := by
  unfold dequeue at h
  split at h
  · cases h
  · cases h
    rfl

end WorkQueue

/-! ## The queue in memory

`struct _workqueue` as it is laid out. An access outside of the allocated items is
`none`; `malloc` does not clear the items. -/

/-- `work_queue_buffer_idx_t`. -/
abbrev BufferIdx := BitVec 16

/-- `WORK_QUEUE_UNASSIGNED_IDX`. -/
def workQueueUnassignedIdx : BufferIdx := BitVec.allOnes 16

def ebusy : Int := 16

def enospc : Int := 28

structure Workqueue where
  itemCt : Nat
  availableSlots : Nat
  readIdx : Nat := 0
  writeIdx : Nat := 0
  items : List BufferIdx

/-- The functions of `workqueue.c`, and what they return. -/
inductive QueueCall where
  | enqueue (item : BufferIdx)
  | dequeue
  | isEmpty
deriving DecidableEq, Repr

inductive QueueRet where
  | rc (rc : Int)
  | item (item : BufferIdx)
  | isEmpty (res : Bool)
deriving DecidableEq, Repr

namespace Workqueue

/-- `workqueue_alloc`: the structure itself has one item, and `itemCount` follow. -/
def workqueueAlloc (itemCount : Nat) (memory : Nat → BufferIdx) : Workqueue where
  itemCt := itemCount
  availableSlots := itemCount
  items := (List.range (itemCount + 1)).map memory

def workqueueEnqueue (wq : Workqueue) (item : BufferIdx) : Option (QueueRet × Workqueue) :=
  if wq.availableSlots = 0 then some (.rc ebusy, wq)
  else if wq.writeIdx < wq.items.length then
    some (.rc 0,
      { wq with
        items := wq.items.set wq.writeIdx item
        writeIdx := (wq.writeIdx + 1) % wq.itemCt
        availableSlots := wq.availableSlots - 1 })
  else none

def workqueueDequeue (wq : Workqueue) : Option (QueueRet × Workqueue) :=
  if wq.itemCt = wq.availableSlots then some (.item workQueueUnassignedIdx, wq)
  else wq.items[wq.readIdx]?.map fun item =>
    (.item item,
      { wq with
        readIdx := (wq.readIdx + 1) % wq.itemCt
        availableSlots := wq.availableSlots + 1 })

def call (wq : Workqueue) : QueueCall → Option (QueueRet × Workqueue)
  | .enqueue item => wq.workqueueEnqueue item
  | .dequeue => wq.workqueueDequeue
  | .isEmpty => some (.isEmpty (wq.itemCt == wq.availableSlots), wq)

/-- A sequence of calls, and what they return. -/
def calls (wq : Workqueue) : List QueueCall → Option (List QueueRet × Workqueue)
  | [] => some ([], wq)
  | c :: cs => do
      let (r, wq) ← wq.call c
      let (rs, wq) ← calls wq cs
      pure (r :: rs, wq)

/-- The loop of `workqueue_get_contents`, which moves `idx` and leaves `i`. -/
def copyItems (wq : Workqueue) (i : Nat) : (ct idx : Nat) → List BufferIdx → Option (List BufferIdx)
  | 0, _, items => some items
  | ct + 1, idx, items =>
      match wq.items[idx]? with
      | none => none
      | some item =>
          if i < items.length then
            wq.copyItems i ct ((idx + 1) % wq.itemCt) (items.set i item)
          else none

/-- `workqueue_get_contents`, for an output of the size that it is told. The index of
its first loop is an `int`, for which a size from 2 ^ 31 on is too large. -/
def workqueueGetContents (wq : Workqueue) (items : List BufferIdx) :
    Option (Int × List BufferIdx × Workqueue) :=
  if 2 ^ 31 ≤ items.length then none
  else
    let items := List.replicate items.length workQueueUnassignedIdx
    if items.length < wq.itemCt then some (enospc, items, wq)
    else
      (wq.copyItems 0 (wq.itemCt - wq.availableSlots) wq.readIdx items).map fun items =>
        (0, items, wq)

end Workqueue

/-! ## The queue as it should be -/

/-- A bounded list of indices. -/
def fifoCall (cap : Nat) (l : List BufferIdx) : QueueCall → QueueRet × List BufferIdx
  | .enqueue item => if l.length = cap then (.rc ebusy, l) else (.rc 0, l ++ [item])
  | .dequeue =>
      match l with
      | [] => (.item workQueueUnassignedIdx, [])
      | item :: l => (.item item, l)
  | .isEmpty => (.isEmpty l.isEmpty, l)

def fifoCalls (cap : Nat) (l : List BufferIdx) : List QueueCall → List QueueRet
  | [] => []
  | c :: cs => (fifoCall cap l c).1 :: fifoCalls cap (fifoCall cap l c).2 cs

/-- The list after these calls. -/
def fifoAfter (cap : Nat) (l : List BufferIdx) : List QueueCall → List BufferIdx
  | [] => l
  | c :: cs => fifoAfter cap (fifoCall cap l c).2 cs

namespace Workqueue

/-- The structure in memory is the queue `q`, which holds the list `l`. -/
structure Represents (wq : Workqueue) (q : WorkQueue) (l : List BufferIdx) : Prop where
  itemCt : wq.itemCt = q.itemCt
  availableSlots : wq.availableSlots = q.availableSlots
  readIdx : wq.readIdx = q.readIdx
  writeIdx : wq.writeIdx = q.writeIdx
  allocated : q.itemCt < wq.items.length
  items : ∀ i < q.itemCt, wq.items[i]?.map BitVec.toNat = some (q.items i)
  contents : q.contents = l.map BitVec.toNat

variable {wq : Workqueue} {q : WorkQueue} {l : List BufferIdx}

theorem represents_alloc {n : Nat} (hn : 0 < n) (memory : Nat → BufferIdx) :
    ∃ q, Represents (workqueueAlloc n memory) q [] ∧ q.itemCt = n := by
  refine ⟨{ WorkQueue.alloc n hn with items := fun i => (memory i).toNat }, ?_, rfl⟩
  refine ⟨rfl, rfl, rfl, rfl, ?_, ?_, ?_⟩
  · simp [workqueueAlloc, WorkQueue.alloc]
  · intro i hi
    have hlt : i < n + 1 := Nat.lt_succ_of_lt hi
    simp [workqueueAlloc, List.getElem?_range hlt]
  · simp [WorkQueue.contents, WorkQueue.alloc, CircularBuffer.window]

theorem Represents.writeIdx_lt (h : Represents wq q l) : wq.writeIdx < q.itemCt := by
  rw [h.writeIdx, q.writeIdx_eq]
  exact Nat.mod_lt _ q.itemCt_pos

theorem Represents.length (h : Represents wq q l) :
    l.length = q.itemCt - q.availableSlots := by
  rw [← q.length_contents, h.contents, List.length_map]

/-- Every call does with the structure what it does with the list. -/
theorem Represents.call (h : Represents wq q l) (c : QueueCall) :
    ∃ wq' q', wq.call c = some ((fifoCall q.itemCt l c).1, wq') ∧ q'.itemCt = q.itemCt ∧
      Represents wq' q' (fifoCall q.itemCt l c).2 := by
  have hlength := h.length
  have hle := q.available_le
  have hpos := q.itemCt_pos
  cases c with
  | enqueue item =>
      rw [Workqueue.call, workqueueEnqueue, fifoCall]
      by_cases hfull : q.availableSlots = 0
      · have hcap : l.length = q.itemCt := by omega
        rw [if_pos (h.availableSlots.trans hfull), if_pos hcap]
        exact ⟨wq, q, rfl, rfl, h⟩
      · have hcap : l.length ≠ q.itemCt := by omega
        have hwrite : wq.writeIdx < wq.items.length := h.writeIdx_lt.trans h.allocated
        have hnot : ¬ wq.availableSlots = 0 := by
          rw [h.availableSlots]
          exact hfull
        rw [if_neg hnot, if_pos hwrite, if_neg hcap]
        obtain ⟨q', hq'⟩ : ∃ q', q.enqueue item.toNat = some q' := by
          rw [WorkQueue.enqueue, dif_neg hfull]
          exact ⟨_, rfl⟩
        have hcontents := WorkQueue.contents_enqueue hq'
        refine ⟨_, q', rfl, WorkQueue.itemCt_enqueue hq', ?_⟩
        rw [WorkQueue.enqueue, dif_neg hfull] at hq'
        cases hq'
        refine ⟨h.itemCt, ?_, h.readIdx, ?_, ?_, ?_, ?_⟩
        · simp only [h.availableSlots]
        · simp only [h.writeIdx, h.itemCt]
        · simpa using h.allocated
        · intro i hi
          simp only [h.writeIdx] at hwrite ⊢
          by_cases hsame : i = q.writeIdx
          · subst hsame
            simp [hwrite]
          · rw [List.getElem?_set_ne (Ne.symm hsame), Function.update_of_ne hsame]
            exact h.items i hi
        · rw [hcontents, h.contents, List.map_append, List.map_singleton]
  | dequeue =>
      rw [Workqueue.call, workqueueDequeue]
      by_cases hempty : q.itemCt = q.availableSlots
      · have hnil : l = [] := List.eq_nil_of_length_eq_zero (by omega)
        subst hnil
        rw [if_pos (by rw [h.itemCt, h.availableSlots]; exact hempty)]
        exact ⟨wq, q, rfl, rfl, h⟩
      · have hnot : ¬ wq.itemCt = wq.availableSlots := by
          rw [h.itemCt, h.availableSlots]
          exact hempty
        obtain ⟨item, q', hq'⟩ : ∃ item q', q.dequeue = some (item, q') := by
          rw [WorkQueue.dequeue, dif_neg hempty]
          exact ⟨_, _, rfl⟩
        have hcontents := WorkQueue.contents_dequeue hq'
        rw [h.contents] at hcontents
        rcases hl : l with _ | ⟨x, rest⟩
        · rw [hl] at hcontents
          cases hcontents
        rw [hl, List.map_cons, List.cons.injEq] at hcontents
        obtain ⟨hitem, hrest⟩ := hcontents
        have hread : wq.items[wq.readIdx]? = some x := by
          have hcell := h.items q.readIdx q.readIdx_lt
          rw [WorkQueue.dequeue, dif_neg hempty] at hq'
          cases hq'
          rw [← hitem, ← h.readIdx] at hcell
          obtain ⟨y, hy, heq⟩ := Option.map_eq_some_iff.mp hcell
          rw [hy, BitVec.eq_of_toNat_eq heq]
        rw [if_neg hnot, hread]
        refine ⟨_, q', rfl, WorkQueue.itemCt_dequeue hq', ?_⟩
        rw [WorkQueue.dequeue, dif_neg hempty] at hq'
        cases hq'
        refine ⟨h.itemCt, ?_, ?_, h.writeIdx, h.allocated, h.items, hrest.symm⟩
        · simp only [h.availableSlots]
        · simp only [h.readIdx, h.itemCt]
  | isEmpty =>
      refine ⟨wq, q, ?_, rfl, h⟩
      rw [Workqueue.call, fifoCall, h.itemCt, h.availableSlots]
      have hiff : (q.itemCt == q.availableSlots) = l.isEmpty := by
        rw [Bool.eq_iff_iff, beq_iff_eq, List.isEmpty_iff, ← List.length_eq_zero_iff]
        omega
      rw [hiff]

theorem Represents.calls (h : Represents wq q l) (cs : List QueueCall) :
    ∃ wq' q', wq.calls cs = some (fifoCalls q.itemCt l cs, wq') ∧ q'.itemCt = q.itemCt ∧
      Represents wq' q' (fifoAfter q.itemCt l cs) := by
  induction cs generalizing wq q l with
  | nil => exact ⟨wq, q, rfl, rfl, h⟩
  | cons c cs ih =>
      obtain ⟨wq', q', hcall, hcap, h'⟩ := h.call c
      obtain ⟨wq'', q'', hcalls, hcap', h''⟩ := ih h'
      refine ⟨wq'', q'', ?_, hcap'.trans hcap, ?_⟩
      · rw [hcap] at hcalls
        rw [Workqueue.calls, hcall, fifoCalls]
        simp only [Option.bind_eq_bind, Option.bind_some]
        rw [hcalls]
        rfl
      · rwa [hcap] at h''

/-- The cells from the read index on hold the list. -/
theorem Represents.cell (h : Represents wq q l) {i : Nat} (hi : i < l.length) :
    wq.items[(wq.readIdx + i) % wq.itemCt]? = l[i]? := by
  have hread : q.items ((q.readIdx + i) % q.itemCt) = l[i].toNat := by
    have hat : (q.contents)[i]? = (l.map BitVec.toNat)[i]? := by rw [h.contents]
    have hlen : i < q.itemCt - q.availableSlots := h.length ▸ hi
    simpa [WorkQueue.contents, CircularBuffer.window, hlen, hi] using hat
  have hcell := h.items ((q.readIdx + i) % q.itemCt) (Nat.mod_lt _ q.itemCt_pos)
  rw [hread, ← h.readIdx, ← h.itemCt] at hcell
  obtain ⟨x, hx, heq⟩ := Option.map_eq_some_iff.mp hcell
  rw [hx, BitVec.eq_of_toNat_eq heq, List.getElem?_eq_getElem hi]

/-- Each item that is copied is put in the same place. -/
theorem copyItems_eq {i idx : Nat} {items : List BufferIdx} (hi : i < items.length)
    (hidx : idx < wq.itemCt)
    (hcells : ∀ j < l.length, wq.items[(idx + j) % wq.itemCt]? = l[j]?) :
    wq.copyItems i l.length idx items = some (l.getLast?.elim items (items.set i ·)) := by
  induction l generalizing idx items with
  | nil => rfl
  | cons x l ih =>
      have hx : wq.items[idx]? = some x := by
        have hfirst := hcells 0 (Nat.succ_pos _)
        rwa [Nat.add_zero, Nat.mod_eq_of_lt hidx] at hfirst
      have hnext : ∀ j < l.length,
          wq.items[((idx + 1) % wq.itemCt + j) % wq.itemCt]? = l[j]? := by
        intro j hj
        rw [Nat.mod_add_mod, Nat.add_assoc, Nat.add_comm 1 j]
        exact hcells (j + 1) (Nat.succ_lt_succ hj)
      have hpos : 0 < wq.itemCt := Nat.zero_lt_of_lt hidx
      rw [List.length_cons, copyItems, hx]
      simp only [if_pos hi]
      rw [ih (by rwa [List.length_set]) (Nat.mod_lt _ hpos) hnext]
      rcases hlast : l.getLast? with _ | y
      · rw [List.getLast?_eq_none_iff] at hlast
        subst hlast
        rfl
      · simp [List.getLast?_cons, hlast]

/-- A queue without places stays as it is. -/
theorem calls_zero (memory : Nat → BufferIdx) (cs : List QueueCall) :
    (workqueueAlloc 0 memory).calls cs =
        some (fifoCalls 0 [] cs, workqueueAlloc 0 memory) ∧
      fifoAfter 0 [] cs = [] := by
  induction cs with
  | nil => exact ⟨rfl, rfl⟩
  | cons c cs ih =>
      have hcall : (workqueueAlloc 0 memory).call c =
          some ((fifoCall 0 [] c).1, workqueueAlloc 0 memory) := by
        cases c <;> rfl
      have hstay : (fifoCall 0 [] c).2 = [] := by
        cases c <;> rfl
      rw [calls, hcall, fifoCalls, fifoAfter, hstay]
      simp only [Option.bind_eq_bind, Option.bind_some]
      rw [ih.1]
      exact ⟨rfl, ih.2⟩

end Workqueue

/-- Whatever is called, a work queue behaves as a list of at most `n` indices, and no
access is outside of what was allocated. -/
theorem workqueue_refines_fifo (n : Nat) (hn : 0 < n) (memory : Nat → BufferIdx)
    (cs : List QueueCall) :
    ∃ wq, (Workqueue.workqueueAlloc n memory).calls cs = some (fifoCalls n [] cs, wq) := by
  obtain ⟨q, hq, hcap⟩ := Workqueue.represents_alloc hn memory
  obtain ⟨wq, -, hcalls, -⟩ := hq.calls cs
  exact ⟨wq, by rwa [hcap] at hcalls⟩

/-- Two places, with a wrap. -/
theorem workqueue_refines_fifo_two :
    ∃ wq, (Workqueue.workqueueAlloc 2 fun _ => 77).calls
      [.enqueue 5, .enqueue 6, .enqueue 7, .dequeue, .enqueue 8, .dequeue, .dequeue, .dequeue,
        .isEmpty] =
      some ([.rc 0, .rc 0, .rc 16, .item 5, .rc 0, .item 6, .item 8, .item (-1), .isEmpty true],
        wq) :=
  workqueue_refines_fifo 2 (by decide) (fun _ => 77) _

/-! ## Snapshots -/

/-- A snapshot of a queue with `cap` places that holds `l`, in an output of `size`
places: it is refused if there may be too much, and else the list stands in front. -/
def IsSnapshot (wq : Workqueue) (cap : Nat) (l : List BufferIdx) (size : Nat) :
    Option (Int × List BufferIdx × Workqueue) → Prop
  | none => False
  | some (rc, items, wq') =>
      wq' = wq ∧
        if size < cap then rc = enospc
        else rc = 0 ∧ items = l ++ List.replicate (size - l.length) workQueueUnassignedIdx

/-- An output in which only the first place is written is the list with a filler behind it
if there is at most one item, or if all of them are fillers. -/
theorem set_replicate_eq_iff {α : Type} {l : List α} {u : α} {size : Nat} (hlen : l.length ≤ size) :
    l.getLast?.elim (List.replicate size u) ((List.replicate size u).set 0 ·) =
        l ++ List.replicate (size - l.length) u ↔
      l.length ≤ 1 ∨ ∀ x ∈ l, x = u := by
  match l with
  | [] => simp
  | [x] =>
      obtain ⟨n, rfl⟩ := Nat.exists_eq_add_of_le' hlen
      simp [List.replicate_succ]
  | x :: y :: rest =>
      have hlast : (x :: y :: rest).getLast? = (y :: rest).getLast? := List.getLast?_cons_cons
      obtain ⟨n, rfl⟩ := Nat.exists_eq_add_of_le' hlen
      obtain ⟨z, hz⟩ : ∃ z, (y :: rest).getLast? = some z :=
        Option.ne_none_iff_exists'.mp (by simp)
      have hset : (List.replicate (n + (x :: y :: rest).length) u).set 0 z =
          z :: List.replicate (n + (y :: rest).length) u := rfl
      rw [hlast, hz, Option.elim_some, hset, Nat.add_sub_cancel, List.cons_append]
      constructor
      · intro heq
        obtain ⟨hx, htail⟩ := List.cons.inj heq
        have hrest : ∀ w ∈ y :: rest, w = u := by
          intro w hw
          have hmem : w ∈ List.replicate (n + (y :: rest).length) u :=
            htail ▸ List.mem_append_left _ hw
          exact List.eq_of_mem_replicate hmem
        refine Or.inr fun w hw => ?_
        rcases List.mem_cons.mp hw with rfl | hw
        · rw [← hx]
          exact hrest z (List.mem_of_getLast? hz)
        · exact hrest w hw
      · rintro (hshort | hall)
        · exact absurd hshort (by simp)
        · have hrest : y :: rest = List.replicate (y :: rest).length u :=
            List.eq_replicate_of_mem fun w hw => hall w (List.mem_cons_of_mem x hw)
          rw [hall x List.mem_cons_self, hall z (List.mem_cons_of_mem x (List.mem_of_getLast? hz)),
            hrest, List.length_replicate, List.replicate_append_replicate, Nat.add_comm n]

/-- The contents of a queue are reported as they are exactly if the output's size is one
of an `int`, and it is too small, or there is at most one index in the queue, or all
of them say that they are unassigned. -/
theorem workqueue_get_contents_iff (n : Nat) (memory : Nat → BufferIdx) (cs : List QueueCall)
    (rs : List QueueRet) (wq : Workqueue)
    (hrun : (Workqueue.workqueueAlloc n memory).calls cs = some (rs, wq))
    (items : List BufferIdx) :
    IsSnapshot wq n (fifoAfter n [] cs) items.length (wq.workqueueGetContents items) ↔
      items.length < 2 ^ 31 ∧
        (items.length < n ∨ (fifoAfter n [] cs).length ≤ 1 ∨
          ∀ x ∈ fifoAfter n [] cs, x = workQueueUnassignedIdx) := by
  rw [Workqueue.workqueueGetContents]
  split_ifs with hhuge
  · exact iff_of_false id fun h => absurd hhuge (Nat.not_le.mpr h.1)
  · rw [and_iff_right (Nat.not_le.mp hhuge)]
    simp only [List.length_replicate]
    rcases Nat.eq_zero_or_pos n with rfl | hn
    · obtain ⟨hcalls, hafter⟩ := Workqueue.calls_zero memory cs
      obtain ⟨-, rfl⟩ := Prod.mk.inj (Option.some.inj (hcalls.symm.trans hrun))
      rw [hafter]
      refine iff_of_true ?_ (Or.inr (Or.inl (Nat.zero_le _)))
      have hnone : (Workqueue.workqueueAlloc 0 memory).itemCt = 0 := rfl
      rw [hnone, if_neg (Nat.not_lt_zero _)]
      refine ⟨rfl, ?_⟩
      rw [if_neg (Nat.not_lt_zero _)]
      exact ⟨rfl, rfl⟩
    · obtain ⟨q, hq, hcap⟩ := Workqueue.represents_alloc hn memory
      obtain ⟨wq', q', hcalls, hcap', h⟩ := hq.calls cs
      obtain ⟨-, rfl⟩ := Prod.mk.inj (Option.some.inj (hcalls.symm.trans hrun))
      rw [hcap] at h hcap'
      have hct : wq'.itemCt = n := h.itemCt.trans hcap'
      rw [hct]
      by_cases hsmall : items.length < n
      · rw [if_pos hsmall, IsSnapshot, if_pos hsmall]
        exact iff_of_true ⟨rfl, rfl⟩ (Or.inl hsmall)
      · rw [if_neg hsmall, or_iff_right hsmall]
        have hlen : n - wq'.availableSlots = (fifoAfter n [] cs).length := by
          rw [h.length, ← hcap', h.availableSlots]
        have hfits : (fifoAfter n [] cs).length ≤ items.length :=
          hlen ▸ (Nat.sub_le _ _).trans (Nat.not_lt.mp hsmall)
        have hread : wq'.readIdx < wq'.itemCt := by
          rw [h.readIdx, h.itemCt]
          exact q'.readIdx_lt
        have hroom : 0 < (List.replicate items.length workQueueUnassignedIdx).length := by
          rw [List.length_replicate]
          omega
        rw [hlen, Workqueue.copyItems_eq hroom hread fun j hj => h.cell hj, Option.map_some,
          IsSnapshot, if_neg hsmall, ← set_replicate_eq_iff hfits]
        exact (and_iff_right rfl).trans (and_iff_right rfl)

/-- One index, read from the second cell. -/
theorem workqueue_get_contents_iff_one :
    ∃ rs wq, (Workqueue.workqueueAlloc 2 fun _ => 77).calls [.enqueue 5, .dequeue, .enqueue 6] =
        some (rs, wq) ∧
      IsSnapshot wq 2 [6] 2 (wq.workqueueGetContents [0, 0]) :=
  ⟨_, _, rfl,
    (workqueue_get_contents_iff 2 (fun _ => 77) [.enqueue 5, .dequeue, .enqueue 6] _ _ rfl
      [0, 0]).mpr ⟨by decide, .inr (.inl (by decide))⟩⟩

/-- Of two indices the second is reported, and the first is not. -/
theorem workqueue_contents_lost :
    ∃ rs wq, (Workqueue.workqueueAlloc 2 fun _ => 77).calls [.enqueue 5, .enqueue 6] =
        some (rs, wq) ∧
      (wq.workqueueGetContents [0, 0]).map (fun x => (x.1, x.2.1)) = some (0, [6, -1]) ∧
      ¬ IsSnapshot wq 2 [5, 6] 2 (wq.workqueueGetContents [0, 0]) := by
  refine ⟨_, _, rfl, rfl, ?_⟩
  rintro ⟨-, -, hitems⟩
  exact absurd hitems (by decide)

end MagicWand.Ins
