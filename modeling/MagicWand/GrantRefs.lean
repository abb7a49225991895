import MagicWand.Foundation.Numerals
import Mathlib.Algebra.BigOperators.Group.List.Basic
import Mathlib.Logic.Function.Basic

/-!
# Grant references

How the grant references of the shared ring get from `mwcomms` to an INS: as
texts in XenStore. `mw_xen_write_grant_refs_to_key` writes the references in
hexadecimal, a blank after each, and puts an end marker in place of the last
blank of a chunk. The chunks are numbered from 1, and their number is written
last. `xe_comms_rcv_grant_refs` waits for that number and reads the chunks.
-/

namespace MagicWand

open Foundation

/-! ## `bmk_strtoul` -/

def ulongMax : Nat := 2 ^ 64 - 1

def isSpace (c : Char) : Bool :=
  decide (c = ' ' ∨ (9 ≤ c.toNat ∧ c.toNat ≤ 13))

/-- The digits of a number: the number, whether there was a digit, and the rest.
A number that does not fit counts as no number. -/
def strtoulLoop (base acc : Nat) (any : Bool) : List Char → Nat × Bool × List Char
  | [] => (acc, any, [])
  | c :: s =>
      match Numerals.digit? c with
      | none => (acc, any, c :: s)
      | some i =>
          if i < base then
            if ulongMax / base < acc ∨ (acc = ulongMax / base ∧ ulongMax % base < i) then
              (ulongMax, false, c :: s)
            else strtoulLoop base (base * acc + i) true s
          else (acc, any, c :: s)

/-- A sign in front of a number. -/
def strtoulSign : List Char → Bool × List Char
  | '-' :: s => (true, s)
  | '+' :: s => (false, s)
  | s => (false, s)

/-- `0x` in front of a number in base 16. -/
def strtoulPrefix (base : Nat) : List Char → List Char
  | '0' :: c :: s => if base = 16 ∧ (c = 'x' ∨ c = 'X') then s else '0' :: c :: s
  | s => s

/-- `bmk_strtoul(nptr, &end, base)`, for the bases 10 and 16: the number, and what
`end` points to. -/
def bmkStrtoul (base : Nat) (nptr : List Char) : Nat × List Char :=
  let signed := strtoulSign (nptr.dropWhile isSpace)
  let (acc, any, s) := strtoulLoop base 0 false (strtoulPrefix base signed.2)
  (if signed.1 && any then (2 ^ 64 - acc) % 2 ^ 64 else acc, if any then s else nptr)

/-- The loop stops for an overflow only if the number does not fit. -/
theorem strtoulLoop_eq {base : Nat} (hbase : 0 < base) {s : List Char} {acc : Nat} {any : Bool}
    (hfit : (Numerals.takeDigits base acc s).1 ≤ ulongMax)
    (hany : any = true ∨ ∃ c ∈ s.head?, Numerals.isDigit base c = true) :
    strtoulLoop base acc any s =
      ((Numerals.takeDigits base acc s).1, true, (Numerals.takeDigits base acc s).2) := by
  induction s generalizing acc any with
  | nil =>
      rcases hany with rfl | ⟨c, hc, _⟩
      · rfl
      · exact absurd hc (by simp)
  | cons c s ih =>
      have hstop : (∀ d, Numerals.digit? c = some d → ¬ d < base) → any = true := by
        intro hnone
        rcases hany with h | ⟨c', hc', hd⟩
        · exact h
        · obtain rfl : c = c' := by simpa using hc'
          rw [Numerals.isDigit] at hd
          cases hdig : Numerals.digit? c with
          | none => rw [hdig] at hd; exact absurd hd (by simp)
          | some d =>
              rw [hdig] at hd
              exact absurd (by simpa using hd) (hnone d hdig)
      rw [strtoulLoop]
      rw [Numerals.takeDigits] at hfit ⊢
      cases hdig : Numerals.digit? c with
      | none => simp only [hstop (by simp [hdig])]
      | some d =>
          rw [hdig] at hfit
          by_cases hd : d < base
          · simp only [if_pos hd] at hfit ⊢
            have hle : base * acc + d ≤ ulongMax :=
              (Numerals.le_takeDigits hbase _ _).trans hfit
            rw [if_neg, ih hfit (Or.inl rfl)]
            rintro (hacc | ⟨hacc, hlim⟩)
            · have := Nat.lt_mul_of_div_lt hacc hbase
              rw [Nat.mul_comm] at this
              omega
            · have := Nat.div_add_mod ulongMax base
              rw [← hacc] at this
              omega
          · simp only [if_neg hd]
            rw [hstop]
            intro d' hd'
            obtain rfl : d = d' := by simpa [hdig] using hd'
            exact hd

/-- What may follow a numeral. -/
def Delimits (base : Nat) (c : Char) : Prop :=
  Numerals.isDigit base c = false ∧ c ≠ 'x' ∧ c ≠ 'X'

instance (base : Nat) (c : Char) : Decidable (Delimits base c) := by
  unfold Delimits
  infer_instance

theorem not_isDigit_x {base : Nat} : Numerals.isDigit base 'x' = false := rfl

theorem not_isDigit_X {base : Nat} : Numerals.isDigit base 'X' = false := rfl

/-- A digit is no blank and no sign. -/
theorem plain_of_isDigit {base : Nat} {c : Char} (h : Numerals.isDigit base c = true) :
    isSpace c = false ∧ c ≠ '-' ∧ c ≠ '+' := by
  have hnone : Numerals.digit? c ≠ none := by
    intro hnone
    rw [Numerals.isDigit, hnone] at h
    exact absurd h (by simp)
  have hge : '0' ≤ c := by
    by_contra hlt
    refine hnone ?_
    rw [Numerals.digit?, if_neg (fun h => hlt h.1), if_neg, if_neg]
    · exact fun h => hlt (Char.le_trans (by decide : '0' ≤ 'A') h.1)
    · exact fun h => hlt (Char.le_trans (by decide : '0' ≤ 'a') h.1)
  have hnat : 48 ≤ c.toNat := hge
  refine ⟨?_, ?_, ?_⟩
  · rw [isSpace, decide_eq_false_iff_not]
    rintro (rfl | ⟨_, hc⟩)
    · exact absurd hnat (by decide)
    · omega
  · rintro rfl
    exact absurd hnat (by decide)
  · rintro rfl
    exact absurd hnat (by decide)

/-- A numeral has no prefix `0x`. -/
theorem strtoulPrefix_numeral {base : Nat} (hb₁ : 1 < base) (hb : base ≤ 16) (n : Nat)
    {rest : List Char} (hrest : ∀ c ∈ rest.head?, Delimits base c) :
    strtoulPrefix base (Nat.toDigits base n ++ rest) = Nat.toDigits base n ++ rest := by
  have hplain : ∀ c ∈ (Nat.toDigits base n ++ rest).tail.head?, c ≠ 'x' ∧ c ≠ 'X' := by
    intro c hc
    cases hdig : Nat.toDigits base n with
    | nil => exact absurd hdig Nat.toDigits_ne_nil
    | cons d ds =>
        rw [hdig, List.cons_append, List.tail_cons] at hc
        cases ds with
        | nil => exact (hrest c hc).2
        | cons d' ds =>
            obtain rfl : d' = c := by simpa using hc
            have hd : Numerals.isDigit base d' = true :=
              Numerals.isDigit_of_mem_toDigits hb₁ hb (n := n) (by rw [hdig]; simp)
            constructor
            · rintro rfl
              exact absurd hd (by rw [not_isDigit_x]; simp)
            · rintro rfl
              exact absurd hd (by rw [not_isDigit_X]; simp)
  unfold strtoulPrefix
  split
  · rename_i c s heq
    rw [heq] at hplain ⊢
    have hc := hplain c rfl
    exact if_neg fun h => h.2.elim hc.1 hc.2
  · rfl

/-- `bmk_strtoul` reads a numeral that a delimiter or the end of the text follows,
blanks before it or not. -/
theorem bmkStrtoul_toDigits {base : Nat} (hb₁ : 1 < base) (hb : base ≤ 16) (blanks : Nat)
    {n : Nat} (hn : n ≤ ulongMax) {rest : List Char}
    (hrest : ∀ c ∈ rest.head?, Delimits base c) :
    bmkStrtoul base (List.replicate blanks ' ' ++ (Nat.toDigits base n ++ rest)) = (n, rest) := by
  obtain ⟨d, ds, hdig⟩ : ∃ d ds, Nat.toDigits base n = d :: ds := by
    cases hdig : Nat.toDigits base n with
    | nil => exact absurd hdig Nat.toDigits_ne_nil
    | cons d ds => exact ⟨d, ds, rfl⟩
  have hd : Numerals.isDigit base d = true :=
    Numerals.isDigit_of_mem_toDigits hb₁ hb (n := n) (by rw [hdig]; exact List.mem_cons_self)
  obtain ⟨hspace, hminus, hplus⟩ := plain_of_isDigit hd
  have hskip : (List.replicate blanks ' ' ++ (Nat.toDigits base n ++ rest)).dropWhile isSpace =
      Nat.toDigits base n ++ rest := by
    rw [List.dropWhile_append_of_pos (by
      intro c hc
      rw [List.eq_of_mem_replicate hc]
      rfl), hdig, List.cons_append, List.dropWhile_cons_of_neg (by simp [hspace])]
  have hsign : strtoulSign (Nat.toDigits base n ++ rest) =
      (false, Nat.toDigits base n ++ rest) := by
    rw [hdig, List.cons_append]
    unfold strtoulSign
    split
    · rename_i heq
      exact absurd (List.cons.inj heq).1 hminus
    · rename_i heq
      exact absurd (List.cons.inj heq).1 hplus
    · rfl
  have hread := Numerals.takeDigits_numeral hb₁ hb n fun c hc => (hrest c hc).1
  have hloop : strtoulLoop base 0 false (Nat.toDigits base n ++ rest) = (n, true, rest) := by
    rw [strtoulLoop_eq (by omega) (by rw [hread]; exact hn)
      (Or.inr ⟨d, by rw [hdig]; rfl, hd⟩), hread]
  simp only [bmkStrtoul, hskip, hsign, strtoulPrefix_numeral hb₁ hb n hrest, hloop,
    Bool.false_and, if_true, Bool.false_eq_true, if_false]

/-! ## Keys -/

/-- XenStore: the value under each path. -/
abbrev XenStore : Type := List Char → Option (List Char)

def xeneventPathStrLen : Nat := 32

/-- What `snprintf` leaves in a buffer of `size` characters. -/
def snprintf (size : Nat) (s : List Char) : List Char := s.take (size - 1)

def xeneventXenstoreRoot : List Char := ['/', 'm', 'w']
def gntRefKey : List Char := ['g', 'n', 't', '_', 'r', 'e', 'f']
def gntRefChunks : List Char := gntRefKey ++ ['_', 'c', 'h', 'u', 'n', 'k', 's']

/-- The directory of the INS with this id: `"%s/%d"`. -/
def insDir (domid : BitVec 16) : List Char :=
  xeneventXenstoreRoot ++ '/' :: Nat.toDigits 10 domid.toNat

/-- The key of a chunk: `"%s_%d"`. -/
def gntKey (chunk : Nat) : List Char := gntRefKey ++ '_' :: Nat.toDigits 10 chunk

/-- The path of a node, as `xenbus_write` joins it. -/
def join (dir node : List Char) : List Char := dir ++ '/' :: node

/-! ## Writing -/

def e2big : Int := 7
def enomem : Int := 12

/-- `grant_refs` of an INS. Their number is a constant of type `int`, a power of 2. -/
structure InsGrantRefs where
  refs : List (BitVec 32)
  count_pos : 0 < refs.length
  count_int : refs.length ≤ 2 ^ 30

/-- Room in `one_ref`. -/
def oneRefSize : Nat := 8 + 1

/-- One reference: `"%x "`. -/
def oneRef (ref : BitVec 32) : List Char := Nat.toDigits 16 ref.toNat ++ [' ']

/-- The end marker takes the place of the last character. -/
def endMark (gntRefs : List Char) : List Char := gntRefs.dropLast ++ [':']

/-- The local variables of `mw_xen_write_grant_refs_to_key`, and XenStore. -/
structure Writing where
  gntRefs : List Char := []
  gntCnt : Nat := 0
  gntChunk : Nat := 1
  store : XenStore

section Writer

-- What writing to a path returns, the directory of the INS, and `GNT_REF_CHUNK_SIZE`.
variable (xenbus : List Char → Int) (path : List Char) (chunkSize : Nat)

/-- A value is written unless there is an error. -/
def mwXenWriteToKey (dir node value : List Char) (store : XenStore) : Int × XenStore :=
  let err := xenbus (join dir node)
  if err = 0 then (0, Function.update store (join dir node) (some value)) else (err, store)

/-- Store a chunk under its key. -/
def storeChunk (w : Writing) : Int × Writing :=
  let gntRefs := endMark w.gntRefs
  let gntKey := snprintf xeneventPathStrLen (gntKey w.gntChunk)
  let (rc, store) := mwXenWriteToKey xenbus path gntKey gntRefs w.store
  if rc ≠ 0 then (rc, { w with gntRefs := gntRefs, store := store })
  else (0, { w with gntRefs := gntRefs, gntChunk := w.gntChunk + 1, store := store })

/-- The body of the loop; there is room for `size` characters in `gnt_refs`. -/
def writeRef (size : Nat) (w : Writing) (ref : BitVec 32) : Int × Writing :=
  if oneRefSize ≤ (oneRef ref).length then (-e2big, w)
  else if size - oneRefSize ≤ w.gntRefs.length then (-e2big, w)
  else
    let w := { w with gntRefs := w.gntRefs ++ oneRef ref, gntCnt := w.gntCnt + 1 }
    if w.gntCnt = chunkSize then
      let (rc, w) := storeChunk xenbus path w
      if rc ≠ 0 then (rc, w) else (0, { w with gntRefs := [], gntCnt := 0 })
    else (0, w)

def writeRefs (size : Nat) (w : Writing) : List (BitVec 32) → Int × Writing
  | [] => (0, w)
  | ref :: refs =>
      let (rc, w) := writeRef xenbus path chunkSize size w ref
      if rc ≠ 0 then (rc, w) else writeRefs size w refs

end Writer

/-- `mw_xen_write_grant_refs_to_key`: the return code, and XenStore afterwards. -/
def mwXenWriteGrantRefsToKey (xenbus : List Char → Int) (kmalloc : Bool) (chunkSize : Nat)
    (domid : BitVec 16) (ins : InsGrantRefs) (store : XenStore) : Int × XenStore :=
  let path := snprintf xeneventPathStrLen (insDir domid)
  let size := ins.refs.length * oneRefSize
  if kmalloc = false then (-enomem, store)
  else
    let (rc, w) := writeRefs xenbus path chunkSize size { store := store } ins.refs
    if rc ≠ 0 then (rc, w.store)
    else
      -- a partial chunk
      let (rc, w) := if 0 < w.gntCnt then storeChunk xenbus path w else (0, w)
      if rc ≠ 0 then (rc, w.store)
      else
        let total := snprintf xeneventPathStrLen (Nat.toDigits 10 (w.gntChunk - 1))
        mwXenWriteToKey xenbus path gntRefChunks total w.store

/-! ## Reading -/

def bmkEinval : Int := 22

/-- What becomes of the reader: it waits for the number of chunks, it fails, it is
still busy with a chunk after the steps that it was given, or it has the references. -/
inductive Receipt where
  | waits
  | fails (rc : Int)
  | busy
  | received (refs : List (BitVec 32))
deriving DecidableEq, Repr

/-- The references of one chunk, after those that there are. -/
def readChunk : Nat → List Char → List (BitVec 32) → Receipt
  | 0, _, _ => .busy
  | fuel + 1, msgptr, refs =>
      let (ref, next) := bmkStrtoul 16 msgptr
      let refs := refs ++ [BitVec.ofNat 32 ref]
      match next with
      | ':' :: _ => .received refs
      | ' ' :: _ => readChunk fuel next refs
      | _ => .fails bmkEinval

/-- The chunks from number `gnt` on, of which there are still `left`. -/
def readChunks (fuel : Nat) (store : XenStore) (localId : BitVec 16) :
    Nat → Nat → List (BitVec 32) → Receipt
  | 0, _, refs => .received refs
  | left + 1, gnt, refs =>
      match store (snprintf xeneventPathStrLen (join (insDir localId) (gntKey gnt))) with
      | none => .fails 1
      | some gntstr =>
          match readChunk fuel gntstr refs with
          | .received refs => readChunks fuel store localId left (gnt + 1) refs
          | r => r

/-- The loops of `xe_comms_rcv_grant_refs`. -/
def xeCommsRcvGrantRefs (fuel : Nat) (store : XenStore) (localId : BitVec 16) : Receipt :=
  match store (snprintf xeneventPathStrLen (join (insDir localId) gntRefChunks)) with
  | none => .waits
  | some ('0' :: _) => .waits
  | some refstr =>
      let chunks := (BitVec.ofNat 32 (bmkStrtoul 10 refstr).1).toInt
      readChunks fuel store localId chunks.toNat 1 []

/-! ## Paths -/

theorem snprintf_eq {size : Nat} {s : List Char} (h : s.length ≤ size - 1) :
    snprintf size s = s :=
  List.take_of_length_le h

theorem length_decimal {n k : Nat} (hk : 0 < k) (h : n < 10 ^ k) :
    (Nat.toDigits 10 n).length ≤ k :=
  (Nat.length_toDigits_le_iff (by decide) hk).mpr h

theorem length_insDir (domid : BitVec 16) : (insDir domid).length ≤ 9 := by
  have hlen : (Nat.toDigits 10 domid.toNat).length ≤ 5 :=
    length_decimal (by decide) (lt_trans domid.isLt (by decide))
  rw [insDir, List.length_append, List.length_cons]
  simp only [xeneventXenstoreRoot, List.length_cons, List.length_nil]
  omega

theorem length_gntKey {chunk : Nat} (h : chunk < 2 ^ 31) : (gntKey chunk).length ≤ 18 := by
  have hlen : (Nat.toDigits 10 chunk).length ≤ 10 :=
    length_decimal (by decide) (lt_trans h (by decide))
  rw [gntKey, List.length_append, List.length_cons]
  simp only [gntRefKey, List.length_cons, List.length_nil]
  omega

@[simp] theorem length_join (dir node : List Char) :
    (join dir node).length = dir.length + node.length + 1 := by
  rw [join, List.length_append, List.length_cons]
  omega

@[simp] theorem join_inj {dir node node' : List Char} :
    join dir node = join dir node' ↔ node = node' := by
  simp [join]

theorem gntKey_injective : Function.Injective gntKey := by
  intro m n h
  have hdig : Nat.toDigits 10 m = Nat.toDigits 10 n := by simpa [gntKey] using h
  rw [← @Nat.ofDigitChars_ten_toDigits m, hdig, Nat.ofDigitChars_ten_toDigits]

theorem gntKey_ne_gntRefChunks (chunk : Nat) : gntKey chunk ≠ gntRefChunks := by
  intro h
  have hdig : Nat.toDigits 10 chunk = ['c', 'h', 'u', 'n', 'k', 's'] := by
    simpa [gntKey, gntRefChunks] using h
  have hc : Numerals.isDigit 10 'c' = true :=
    Numerals.isDigit_of_mem_toDigits (by decide) (by decide) (n := chunk) (by rw [hdig]; simp)
  exact absurd hc (by decide)

/-- No path is too long for its buffer: writer and reader mean the same key. -/
theorem reader_path {chunk : Nat} (h : chunk < 2 ^ 31) (domid : BitVec 16) :
    snprintf xeneventPathStrLen (join (insDir domid) (gntKey chunk)) =
      join (snprintf xeneventPathStrLen (insDir domid))
        (snprintf xeneventPathStrLen (gntKey chunk)) := by
  have hdir := length_insDir domid
  have hkey := length_gntKey h
  have hlen : xeneventPathStrLen - 1 = 31 := rfl
  rw [snprintf_eq (by rw [length_join]; omega), snprintf_eq (by omega), snprintf_eq (by omega)]

theorem reader_total_path (domid : BitVec 16) :
    snprintf xeneventPathStrLen (join (insDir domid) gntRefChunks) =
      join (snprintf xeneventPathStrLen (insDir domid)) gntRefChunks := by
  have hdir := length_insDir domid
  have hkey : gntRefChunks.length = 14 := rfl
  have hlen : xeneventPathStrLen - 1 = 31 := rfl
  rw [snprintf_eq (by rw [length_join]; omega), snprintf_eq (by omega)]

theorem node_inj {m n : Nat} (hm : m < 2 ^ 31) (hn : n < 2 ^ 31) :
    snprintf xeneventPathStrLen (gntKey m) = snprintf xeneventPathStrLen (gntKey n) ↔ m = n := by
  have hkm := length_gntKey hm
  have hkn := length_gntKey hn
  have hlen : xeneventPathStrLen - 1 = 31 := rfl
  rw [snprintf_eq (by omega), snprintf_eq (by omega)]
  exact gntKey_injective.eq_iff

theorem node_ne_total {n : Nat} (hn : n < 2 ^ 31) :
    snprintf xeneventPathStrLen (gntKey n) ≠ gntRefChunks := by
  have hkn := length_gntKey hn
  have hlen : xeneventPathStrLen - 1 = 31 := rfl
  rw [snprintf_eq (by omega)]
  exact gntKey_ne_gntRefChunks n

/-! ## What the writer leaves -/

section Writer

variable {xenbus : List Char → Int} {path : List Char} {chunkSize size : Nat}

theorem mwXenWriteToKey_ok {dir node value : List Char} {store : XenStore}
    (h : (mwXenWriteToKey xenbus dir node value store).1 = 0) :
    (mwXenWriteToKey xenbus dir node value store).2 =
      Function.update store (join dir node) (some value) := by
  unfold mwXenWriteToKey at h ⊢
  by_cases herr : xenbus (join dir node) = 0
  · simp only [if_pos herr]
  · simp only [if_neg herr] at h
    exact absurd h herr

theorem storeChunk_ok {w : Writing} (h : (storeChunk xenbus path w).1 = 0) :
    (storeChunk xenbus path w).2 =
      { w with
        gntRefs := endMark w.gntRefs
        gntChunk := w.gntChunk + 1
        store := Function.update w.store
          (join path (snprintf xeneventPathStrLen (gntKey w.gntChunk)))
          (some (endMark w.gntRefs)) } := by
  have hkey := @mwXenWriteToKey_ok xenbus path
    (snprintf xeneventPathStrLen (gntKey w.gntChunk)) (endMark w.gntRefs) w.store
  unfold storeChunk at h ⊢
  by_cases hrc : (mwXenWriteToKey xenbus path
      (snprintf xeneventPathStrLen (gntKey w.gntChunk)) (endMark w.gntRefs) w.store).1 = 0
  · simp only [hrc, ne_eq, not_true_eq_false, if_false, hkey hrc]
  · simp only [ne_eq, hrc, not_false_eq_true, if_true] at h

/-- What one round of the loop does if it does not fail: it stores a full chunk or
keeps the reference for later. -/
theorem writeRef_ok {w : Writing} {ref : BitVec 32}
    (h : (writeRef xenbus path chunkSize size w ref).1 = 0) :
    let w' : Writing := { w with gntRefs := w.gntRefs ++ oneRef ref, gntCnt := w.gntCnt + 1 }
    ((storeChunk xenbus path w').1 = 0 ∧ (writeRef xenbus path chunkSize size w ref).2 =
      { (storeChunk xenbus path w').2 with gntRefs := [], gntCnt := 0 }) ∨
    (writeRef xenbus path chunkSize size w ref).2 = w' := by
  intro w'
  unfold writeRef at h ⊢
  split at h
  · exact absurd (show -e2big = 0 from h) (by decide)
  · split at h
    · exact absurd (show -e2big = 0 from h) (by decide)
    · rename_i hone hroom
      rw [if_neg hone, if_neg hroom]
      by_cases hfull : w.gntCnt + 1 = chunkSize
      · left
        by_cases hrc : (storeChunk xenbus path w').1 = 0
        · refine ⟨hrc, ?_⟩
          simp only [w'] at hrc
          simp only [hfull, if_true, w'] at hrc ⊢
          simp only [hrc, ne_eq, not_true_eq_false, if_false]
        · simp only [w'] at hrc
          simp only [hfull, if_true] at h hrc
          simp only [ne_eq, hrc, not_false_eq_true, if_true] at h
      · right
        simp only [hfull, if_false, w']

end Writer

/-- A chunk as it is stored. -/
def chunkText (chunk : List (BitVec 32)) : List Char := endMark (chunk.flatMap oneRef)

/-- The references done so far: `chunks` have been stored, `rest` is in `gnt_refs`. -/
structure Packed (path : List Char) (chunks : List (List (BitVec 32))) (rest : List (BitVec 32))
    (w : Writing) : Prop where
  full : ∀ chunk ∈ chunks, chunk ≠ []
  gntRefs : w.gntRefs = rest.flatMap oneRef
  gntCnt : w.gntCnt = rest.length
  gntChunk : w.gntChunk = chunks.length + 1
  stored : ∀ i (h : i < chunks.length),
    w.store (join path (snprintf xeneventPathStrLen (gntKey (i + 1)))) = some (chunkText chunks[i])

namespace Packed

variable {xenbus : List Char → Int} {path : List Char} {chunkSize size : Nat}
  {chunks : List (List (BitVec 32))} {rest : List (BitVec 32)} {w : Writing}

theorem init (store : XenStore) : Packed path [] [] { store := store } :=
  ⟨by simp, rfl, rfl, rfl, by simp⟩

/-- The reference that comes next goes behind the others. -/
theorem append (h : Packed path chunks rest w) (ref : BitVec 32) :
    Packed path chunks (rest ++ [ref])
      { w with gntRefs := w.gntRefs ++ oneRef ref, gntCnt := w.gntCnt + 1 } where
  full := h.full
  gntRefs := by simp [h.gntRefs]
  gntCnt := by simp [h.gntCnt]
  gntChunk := h.gntChunk
  stored := h.stored

/-- Each chunk has a key of its own. -/
theorem storeChunk (h : Packed path chunks rest w) (hrest : rest ≠ [])
    (hfit : chunks.length + 1 < 2 ^ 31) (hok : (storeChunk xenbus path w).1 = 0) :
    Packed path (chunks ++ [rest]) []
      { (MagicWand.storeChunk xenbus path w).2 with gntRefs := [], gntCnt := 0 } where
  full := by
    intro chunk hchunk
    rcases List.mem_append.mp hchunk with hold | hnew
    · exact h.full chunk hold
    · rw [List.mem_singleton.mp hnew]
      exact hrest
  gntRefs := rfl
  gntCnt := rfl
  gntChunk := by
    rw [storeChunk_ok hok, List.length_append, List.length_singleton]
    exact congrArg (· + 1) h.gntChunk
  stored := by
    intro i hi
    rw [List.length_append, List.length_singleton] at hi
    rw [storeChunk_ok hok, h.gntChunk, h.gntRefs]
    rcases Nat.lt_succ_iff_lt_or_eq.mp hi with hlt | rfl
    · have hne : join path (snprintf xeneventPathStrLen (gntKey (i + 1))) ≠
          join path (snprintf xeneventPathStrLen (gntKey (chunks.length + 1))) := by
        rw [Ne, join_inj, node_inj (by omega) hfit]
        omega
      rw [List.getElem_append_left hlt]
      exact (Function.update_of_ne hne _ _).trans (h.stored i hlt)
    · rw [List.getElem_concat_length rfl]
      exact Function.update_self _ _ _

/-- A chunk has at least one reference. -/
theorem length_le (h : Packed path chunks rest w) :
    chunks.length ≤ chunks.flatten.length := by
  have hone : ∀ n ∈ chunks.map List.length, 1 ≤ n := by
    intro n hn
    obtain ⟨chunk, hchunk, rfl⟩ := List.mem_map.mp hn
    exact List.length_pos_iff.mpr (h.full chunk hchunk)
  calc chunks.length = (chunks.map List.length).length := (List.length_map _).symm
    _ ≤ (chunks.map List.length).sum := List.length_le_sum_of_one_le _ hone
    _ = chunks.flatten.length := List.length_flatten.symm

/-- One round of the loop. -/
theorem writeRef (h : Packed path chunks rest w) {ref : BitVec 32}
    (hfit : chunks.flatten.length + 1 < 2 ^ 31)
    (hok : (writeRef xenbus path chunkSize size w ref).1 = 0) :
    ∃ chunks' rest', chunks'.flatten ++ rest' = chunks.flatten ++ rest ++ [ref] ∧
      Packed path chunks' rest' (MagicWand.writeRef xenbus path chunkSize size w ref).2 := by
  have hlen := h.length_le
  rcases writeRef_ok hok with ⟨hchunk, heq⟩ | heq
  · refine ⟨chunks ++ [rest ++ [ref]], [], by simp, ?_⟩
    rw [heq]
    exact (h.append ref).storeChunk (by simp) (by omega) hchunk
  · refine ⟨chunks, rest ++ [ref], by simp, ?_⟩
    rw [heq]
    exact h.append ref

/-- The whole loop. -/
theorem writeRefs (h : Packed path chunks rest w) {refs : List (BitVec 32)}
    (hfit : (chunks.flatten ++ rest ++ refs).length < 2 ^ 31)
    (hok : (writeRefs xenbus path chunkSize size w refs).1 = 0) :
    ∃ chunks' rest', chunks'.flatten ++ rest' = chunks.flatten ++ rest ++ refs ∧
      Packed path chunks' rest' (MagicWand.writeRefs xenbus path chunkSize size w refs).2 := by
  induction refs generalizing chunks rest w with
  | nil => exact ⟨chunks, rest, by simp, h⟩
  | cons ref refs ih =>
      rw [MagicWand.writeRefs] at hok ⊢
      by_cases hrc : (MagicWand.writeRef xenbus path chunkSize size w ref).1 = 0
      · simp only [hrc, ne_eq, not_true_eq_false, if_false] at hok ⊢
        obtain ⟨chunks₁, rest₁, hsplit, h₁⟩ := h.writeRef
          (by simp only [List.length_append, List.length_cons] at hfit; omega) hrc
        have happ :
            chunks₁.flatten ++ rest₁ ++ refs = chunks.flatten ++ rest ++ ref :: refs := by
          rw [hsplit, List.append_assoc _ [ref], List.singleton_append]
        rw [← happ] at hfit ⊢
        exact ih h₁ hfit hok
      · simp only [ne_eq, hrc, not_false_eq_true, if_true] at hok

end Packed

/-! ## What the reader makes of it -/

theorem chunkText_cons (ref : BitVec 32) {chunk : List (BitVec 32)} (h : chunk ≠ []) :
    chunkText (ref :: chunk) = Nat.toDigits 16 ref.toNat ++ ' ' :: chunkText chunk := by
  have htext : chunk.flatMap oneRef ≠ [] := by
    cases chunk with
    | nil => exact absurd rfl h
    | cons ref chunk => simp [oneRef]
  rw [chunkText, chunkText, endMark, endMark, List.flatMap_cons, oneRef, List.append_assoc,
    List.singleton_append, List.dropLast_append_of_ne_nil (by simp),
    List.dropLast_cons_of_ne_nil htext]
  simp

theorem chunkText_singleton (ref : BitVec 32) :
    chunkText [ref] = Nat.toDigits 16 ref.toNat ++ [':'] := by
  simp [chunkText, endMark, oneRef]

/-- A reference is read from the text that starts with it. -/
theorem bmkStrtoul_ref (blanks : Nat) (ref : BitVec 32) {c : Char} (hc : Delimits 16 c)
    (s : List Char) :
    bmkStrtoul 16 (List.replicate blanks ' ' ++ (Nat.toDigits 16 ref.toNat ++ c :: s)) =
      (ref.toNat, c :: s) := by
  refine bmkStrtoul_toDigits (by decide) (by decide) blanks ?_ (by simpa using hc)
  exact (Nat.le_of_lt ref.isLt).trans (by decide)

/-- A chunk is read as it was stored; at a blank the text starts with the blank. -/
theorem readChunk_chunkText {chunk : List (BitVec 32)} (hne : chunk ≠ []) {fuel : Nat}
    (hfuel : chunk.length ≤ fuel) (blanks : Nat) (refs : List (BitVec 32)) :
    readChunk fuel (List.replicate blanks ' ' ++ chunkText chunk) refs =
      .received (refs ++ chunk) := by
  induction chunk generalizing fuel blanks refs with
  | nil => exact absurd rfl hne
  | cons ref chunk ih =>
      obtain ⟨fuel, rfl⟩ : ∃ f, fuel = f + 1 :=
        Nat.exists_eq_succ_of_ne_zero (by rw [List.length_cons] at hfuel; omega)
      by_cases hlast : chunk = []
      · subst hlast
        rw [chunkText_singleton, readChunk, bmkStrtoul_ref blanks ref (by decide)]
        simp only [BitVec.ofNat_toNat, BitVec.setWidth_eq]
      · rw [chunkText_cons ref hlast, readChunk, bmkStrtoul_ref blanks ref (by decide)]
        simp only [BitVec.ofNat_toNat, BitVec.setWidth_eq]
        have hnext := ih hlast (Nat.le_of_succ_le_succ hfuel) 1 (refs ++ [ref])
        rw [List.append_assoc, List.singleton_append] at hnext
        exact hnext

/-- The chunks are read one after the other. -/
theorem readChunks_stored {store : XenStore} {domid : BitVec 16} {fuel : Nat}
    {chunks : List (List (BitVec 32))} (hfull : ∀ chunk ∈ chunks, chunk ≠ [])
    (hfuel : ∀ chunk ∈ chunks, chunk.length ≤ fuel) {gnt : Nat}
    (hstored : ∀ i (h : i < chunks.length),
      store (snprintf xeneventPathStrLen (join (insDir domid) (gntKey (gnt + i)))) =
        some (chunkText chunks[i])) (refs : List (BitVec 32)) :
    readChunks fuel store domid chunks.length gnt refs = .received (refs ++ chunks.flatten) := by
  induction chunks generalizing gnt refs with
  | nil => simp [readChunks]
  | cons chunk chunks ih =>
      have hfirst := hstored 0 (by simp)
      rw [List.getElem_cons_zero, Nat.add_zero] at hfirst
      rw [List.length_cons, readChunks, hfirst]
      have hchunk := readChunk_chunkText (hfull chunk (by simp)) (hfuel chunk (by simp)) 0 refs
      rw [List.replicate_zero, List.nil_append] at hchunk
      simp only [hchunk]
      rw [List.flatten_cons, ← List.append_assoc]
      refine ih (fun c hc => hfull c (by simp [hc])) (fun c hc => hfuel c (by simp [hc])) ?_ _
      intro i hi
      have hnext := hstored (i + 1) (by simpa using hi)
      rw [List.getElem_cons_succ] at hnext
      rw [← hnext, Nat.add_assoc, Nat.add_comm 1 i]

/-- The number of chunks is read as it was written. -/
theorem xeCommsRcvGrantRefs_total {store : XenStore} {domid : BitVec 16} {fuel n : Nat}
    (hpos : 0 < n) (hfit : n < 2 ^ 31)
    (h : store (snprintf xeneventPathStrLen (join (insDir domid) gntRefChunks)) =
      some (Nat.toDigits 10 n)) :
    xeCommsRcvGrantRefs fuel store domid = readChunks fuel store domid n 1 [] := by
  have hread : bmkStrtoul 10 (Nat.toDigits 10 n) = (n, []) := by
    have hnum : bmkStrtoul 10 (List.replicate 0 ' ' ++ (Nat.toDigits 10 n ++ [])) = (n, []) :=
      bmkStrtoul_toDigits (by decide) (by decide) 0 (hfit.le.trans (by decide)) (by simp)
    simpa using hnum
  have hint : (BitVec.ofNat 32 n).toInt.toNat = n := by
    rw [BitVec.toInt_eq_toNat_of_lt (by rw [BitVec.toNat_ofNat]; omega), BitVec.toNat_ofNat]
    omega
  have hzero : ∀ s, Nat.toDigits 10 n ≠ '0' :: s := by
    intro s hs
    have hn : n = 0 := Numerals.eq_zero_of_head?_toDigits (b := 10) (by decide) (by decide)
      (by rw [hs]; rfl)
    omega
  unfold xeCommsRcvGrantRefs
  rw [h]
  split
  · rename_i heq
    exact absurd heq (by simp)
  · rename_i s heq
    exact absurd (Option.some.inj heq) (hzero s)
  · rename_i refstr _ heq
    obtain rfl := Option.some.inj heq
    simp only [hread, hint]

/-- Once all references are in chunks and the number of the chunks has been written,
the reader gets them. -/
theorem received_of_packed {xenbus : List Char → Int} {domid : BitVec 16} {ins : InsGrantRefs}
    {chunks : List (List (BitVec 32))} {w : Writing}
    (h : Packed (snprintf xeneventPathStrLen (insDir domid)) chunks []
      { w with gntRefs := [], gntCnt := 0 })
    (hall : chunks.flatten = ins.refs) {fuel : Nat} (hfuel : ins.refs.length ≤ fuel) :
    let r := mwXenWriteToKey xenbus (snprintf xeneventPathStrLen (insDir domid)) gntRefChunks
      (snprintf xeneventPathStrLen (Nat.toDigits 10 (w.gntChunk - 1))) w.store
    r.1 = 0 → xeCommsRcvGrantRefs fuel r.2 domid = .received ins.refs := by
  intro r hok
  have hle : chunks.length ≤ ins.refs.length := hall ▸ h.length_le
  have hfit : chunks.length < 2 ^ 31 :=
    lt_of_le_of_lt (hle.trans ins.count_int) (by decide)
  have hpos : 0 < chunks.length := by
    rw [List.length_pos_iff]
    rintro rfl
    have := ins.count_pos
    rw [← hall] at this
    exact absurd this (by simp)
  have htotal : snprintf xeneventPathStrLen (Nat.toDigits 10 (w.gntChunk - 1)) =
      Nat.toDigits 10 chunks.length := by
    have hchunk : w.gntChunk = chunks.length + 1 := h.gntChunk
    have hlen : (Nat.toDigits 10 chunks.length).length ≤ 10 :=
      length_decimal (by decide) (lt_trans hfit (by decide))
    rw [hchunk, Nat.add_sub_cancel]
    exact snprintf_eq (hlen.trans (by decide))
  have hstore : r.2 = Function.update w.store
      (join (snprintf xeneventPathStrLen (insDir domid)) gntRefChunks)
      (some (Nat.toDigits 10 chunks.length)) := by
    rw [← htotal]
    exact mwXenWriteToKey_ok hok
  rw [xeCommsRcvGrantRefs_total hpos hfit
    (by rw [hstore, reader_total_path]; exact Function.update_self _ _ _)]
  have hread : readChunks fuel r.2 domid chunks.length 1 [] =
      .received ([] ++ chunks.flatten) := by
    refine readChunks_stored h.full ?_ ?_ []
    · intro chunk hchunk
      calc chunk.length ≤ chunks.flatten.length := (List.sublist_flatten_of_mem hchunk).length_le
        _ ≤ fuel := by rw [hall]; exact hfuel
    · intro i hi
      have hlt : i + 1 < 2 ^ 31 := lt_of_le_of_lt hi hfit
      have hne : join (snprintf xeneventPathStrLen (insDir domid))
          (snprintf xeneventPathStrLen (gntKey (i + 1))) ≠
            join (snprintf xeneventPathStrLen (insDir domid)) gntRefChunks := by
        rw [Ne, join_inj]
        exact node_ne_total hlt
      rw [Nat.add_comm 1 i, reader_path hlt, hstore]
      exact (Function.update_of_ne hne _ _).trans (h.stored i hi)
  rw [hread, List.nil_append, hall]

/-- Every array of grant references that `mw_xen_write_grant_refs_to_key` writes
without an error is what `xe_comms_rcv_grant_refs` gets, whatever the size of a chunk. -/
theorem grant_refs_handed_over {xenbus : List Char → Int} {kmalloc : Bool} {chunkSize : Nat}
    {domid : BitVec 16} {ins : InsGrantRefs} {store : XenStore}
    (hok : (mwXenWriteGrantRefsToKey xenbus kmalloc chunkSize domid ins store).1 = 0)
    {fuel : Nat} (hfuel : ins.refs.length ≤ fuel) :
    xeCommsRcvGrantRefs fuel
      (mwXenWriteGrantRefsToKey xenbus kmalloc chunkSize domid ins store).2 domid =
        .received ins.refs := by
  unfold mwXenWriteGrantRefsToKey at hok ⊢
  cases kmalloc with
  | false => exact absurd (show -enomem = 0 from hok) (by decide)
  | true =>
      simp only [Bool.true_eq_false, if_false] at hok ⊢
      have hloop := @Packed.writeRefs xenbus (snprintf xeneventPathStrLen (insDir domid)) chunkSize
        (ins.refs.length * oneRefSize) _ _ _ (Packed.init store) ins.refs
        (lt_of_le_of_lt (by simpa using ins.count_int) (by decide : 2 ^ 30 < 2 ^ 31))
      generalize writeRefs xenbus (snprintf xeneventPathStrLen (insDir domid)) chunkSize
        (ins.refs.length * oneRefSize) { store := store } ins.refs = r at hok hloop ⊢
      obtain ⟨rc, w⟩ := r
      by_cases hrc : rc = 0
      · subst hrc
        simp only [ne_eq, not_true_eq_false, if_false] at hok ⊢
        obtain ⟨chunks, rest, hall, h⟩ := hloop rfl
        rw [List.flatten_nil, List.append_nil, List.nil_append] at hall
        by_cases hrest : rest = []
        · -- the last chunk was full
          subst hrest
          rw [List.append_nil] at hall
          have hcnt : w.gntCnt = 0 := h.gntCnt
          have hw : { w with gntRefs := [], gntCnt := 0 } = w := by
            have hrefs : w.gntRefs = [] := h.gntRefs
            rw [← hcnt, ← hrefs]
          simp only [hcnt, lt_irrefl, if_false, not_true_eq_false] at hok ⊢
          exact received_of_packed (hw ▸ h) hall hfuel hok
        · have hcnt : 0 < w.gntCnt := by
            rw [h.gntCnt]
            exact List.length_pos_iff.mpr hrest
          have hfit : chunks.length + 1 < 2 ^ 31 := by
            have hlen := congrArg List.length hall
            rw [List.length_append] at hlen
            have := h.length_le
            have := List.length_pos_iff.mpr hrest
            have := ins.count_int
            omega
          simp only [hcnt, if_true] at hok ⊢
          by_cases hchunk : (storeChunk xenbus (snprintf xeneventPathStrLen (insDir domid)) w).1 = 0
          · simp only [hchunk, not_true_eq_false, if_false] at hok ⊢
            exact received_of_packed (h.storeChunk hrest hfit hchunk) (by simpa using hall)
              hfuel hok
          · simp only [hchunk, not_false_eq_true, if_true] at hok
      · simp only [ne_eq, hrc, not_false_eq_true, if_true] at hok

/-- Three references in chunks of two. -/
def threeRefs : InsGrantRefs := ⟨[0x2f, 0, 0x10a], by decide, by decide⟩

theorem grant_refs_handed_over_three :
    (mwXenWriteGrantRefsToKey (fun _ => 0) true 2 5 threeRefs fun _ => none).1 = 0 ∧
      xeCommsRcvGrantRefs 3
        (mwXenWriteGrantRefsToKey (fun _ => 0) true 2 5 threeRefs fun _ => none).2 5 =
          .received [0x2f, 0, 0x10a] :=
  ⟨by decide, grant_refs_handed_over (by decide) (by decide)⟩

/-! ## A writer that fails -/

section Writer

variable {xenbus : List Char → Int} {path : List Char} {chunkSize size : Nat}

theorem mwXenWriteToKey_of_ne {dir node value q : List Char} {store : XenStore}
    (h : (mwXenWriteToKey xenbus dir node value store).1 ≠ 0 ∨ q ≠ join dir node) :
    (mwXenWriteToKey xenbus dir node value store).2 q = store q := by
  unfold mwXenWriteToKey at h ⊢
  by_cases herr : xenbus (join dir node) = 0
  · simp only [herr, if_true, ne_eq, not_true_eq_false, false_or] at h ⊢
    exact Function.update_of_ne h _ _
  · simp only [herr, if_false]

theorem storeChunk_total {w : Writing} (h : w.gntChunk < 2 ^ 31) :
    (storeChunk xenbus path w).2.store (join path gntRefChunks) =
      w.store (join path gntRefChunks) := by
  have hne : join path gntRefChunks ≠
      join path (snprintf xeneventPathStrLen (gntKey w.gntChunk)) := by
    rw [Ne, join_inj]
    exact (node_ne_total h).symm
  unfold storeChunk
  dsimp only
  split
  · exact mwXenWriteToKey_of_ne (Or.inr hne)
  · exact mwXenWriteToKey_of_ne (Or.inr hne)

theorem storeChunk_gntChunk_le (w : Writing) :
    (storeChunk xenbus path w).2.gntChunk ≤ w.gntChunk + 1 := by
  unfold storeChunk
  dsimp only
  split
  · exact Nat.le_succ _
  · exact le_refl _

theorem writeRef_total {w : Writing} {ref : BitVec 32} (h : w.gntChunk < 2 ^ 31) :
    (writeRef xenbus path chunkSize size w ref).2.store (join path gntRefChunks) =
      w.store (join path gntRefChunks) ∧
    (writeRef xenbus path chunkSize size w ref).2.gntChunk ≤ w.gntChunk + 1 := by
  let w' : Writing := { w with gntRefs := w.gntRefs ++ oneRef ref, gntCnt := w.gntCnt + 1 }
  have htotal : (storeChunk xenbus path w').2.store (join path gntRefChunks) =
      w'.store (join path gntRefChunks) := storeChunk_total h
  have hchunk : (storeChunk xenbus path w').2.gntChunk ≤ w'.gntChunk + 1 :=
    storeChunk_gntChunk_le w'
  unfold writeRef
  split
  · exact ⟨rfl, Nat.le_succ _⟩
  · split
    · exact ⟨rfl, Nat.le_succ _⟩
    · dsimp only
      split
      · split
        · exact ⟨htotal, hchunk⟩
        · exact ⟨htotal, hchunk⟩
      · exact ⟨rfl, Nat.le_succ _⟩

theorem writeRefs_total {w : Writing} {refs : List (BitVec 32)}
    (h : w.gntChunk + refs.length < 2 ^ 31) :
    (writeRefs xenbus path chunkSize size w refs).2.store (join path gntRefChunks) =
      w.store (join path gntRefChunks) ∧
    (writeRefs xenbus path chunkSize size w refs).2.gntChunk ≤ w.gntChunk + refs.length := by
  induction refs generalizing w with
  | nil => exact ⟨rfl, le_refl _⟩
  | cons ref refs ih =>
      rw [List.length_cons] at h ⊢
      obtain ⟨htotal, hchunk⟩ := @writeRef_total xenbus path chunkSize size w ref (by omega)
      rw [writeRefs]
      dsimp only
      split
      · exact ⟨htotal, hchunk.trans (by omega)⟩
      · obtain ⟨htotal', hchunk'⟩ := ih (w := (writeRef xenbus path chunkSize size w ref).2)
          (by omega)
        exact ⟨htotal'.trans htotal, by omega⟩

end Writer

/-- The number of the chunks is written last: after an error it is what it was, and a
reader that has been waiting for it waits on. -/
theorem writer_failed_waits {xenbus : List Char → Int} {kmalloc : Bool} {chunkSize : Nat}
    {domid : BitVec 16} {ins : InsGrantRefs} {store : XenStore}
    (hrc : (mwXenWriteGrantRefsToKey xenbus kmalloc chunkSize domid ins store).1 ≠ 0)
    (hzero : ∀ text, store (snprintf xeneventPathStrLen (join (insDir domid) gntRefChunks)) =
      some text → text.head? = some '0') (fuel : Nat) :
    xeCommsRcvGrantRefs fuel
      (mwXenWriteGrantRefsToKey xenbus kmalloc chunkSize domid ins store).2 domid = .waits := by
  have hkeeps : (mwXenWriteGrantRefsToKey xenbus kmalloc chunkSize domid ins store).2
      (snprintf xeneventPathStrLen (join (insDir domid) gntRefChunks)) =
        store (snprintf xeneventPathStrLen (join (insDir domid) gntRefChunks)) := by
    rw [reader_total_path]
    have hint := ins.count_int
    obtain ⟨hloop, hchunk⟩ := @writeRefs_total xenbus
      (snprintf xeneventPathStrLen (insDir domid)) chunkSize (ins.refs.length * oneRefSize)
      { store := store } ins.refs (by dsimp only; omega)
    unfold mwXenWriteGrantRefsToKey at hrc ⊢
    dsimp only at hrc hloop hchunk ⊢
    split at hrc
    · rename_i hnomem
      rw [if_pos hnomem]
    · rename_i hmem
      rw [if_neg hmem]
      split at hrc
      · rename_i hfail
        rw [if_pos hfail]
        exact hloop
      · rename_i hok
        rw [if_neg hok]
        generalize writeRefs xenbus (snprintf xeneventPathStrLen (insDir domid)) chunkSize
          (ins.refs.length * oneRefSize) { store := store } ins.refs = r at hloop hchunk hrc ⊢
        have hlast : (if 0 < r.2.gntCnt then
            storeChunk xenbus (snprintf xeneventPathStrLen (insDir domid)) r.2
            else (0, r.2)).2.store
              (join (snprintf xeneventPathStrLen (insDir domid)) gntRefChunks) =
            store (join (snprintf xeneventPathStrLen (insDir domid)) gntRefChunks) := by
          split
          · exact (storeChunk_total (by omega)).trans hloop
          · exact hloop
        generalize (if 0 < r.2.gntCnt then
          storeChunk xenbus (snprintf xeneventPathStrLen (insDir domid)) r.2
          else (0, r.2)) = last at hlast hrc ⊢
        split at hrc
        · rename_i hfail
          rw [if_pos hfail]
          exact hlast
        · rename_i hok
          rw [if_neg hok]
          exact (mwXenWriteToKey_of_ne (Or.inl hrc)).trans hlast
  unfold xeCommsRcvGrantRefs
  rw [hkeeps]
  cases htext : store (snprintf xeneventPathStrLen (join (insDir domid) gntRefChunks)) with
  | none => rfl
  | some text =>
      cases text with
      | nil => exact absurd (hzero [] htext) (by simp)
      | cons c text =>
          obtain rfl : c = '0' := by simpa using hzero _ htext
          rfl

end MagicWand
