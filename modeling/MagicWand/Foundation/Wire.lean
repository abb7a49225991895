import MagicWand.Foundation.Bytes
import Mathlib.Data.List.SplitLengths

/-!
# Records on a wire

Big-endian numbers, the swap that turns a host number into one, and records that
a list of field formats describes. A packed structure in memory is the bytes of
its fields one after the other; so is a record, and both are taken apart by the
widths of the fields.
-/

namespace Foundation.Bytes

/-! ## Byte order -/

/-- The `n` low bytes of `v`, most significant first. -/
def beBytes (n v : Nat) : List Byte := (leBytes n v).reverse

/-- The number that a big-endian byte string denotes. -/
def beNat (bs : List Byte) : Nat := leNat bs.reverse

@[simp] theorem length_beBytes (n v : Nat) : (beBytes n v).length = n := by
  rw [beBytes, List.length_reverse, length_leBytes]

theorem beNat_beBytes (n v : Nat) : beNat (beBytes n v) = v % 2 ^ (8 * n) := by
  rw [beNat, beBytes, List.reverse_reverse, leNat_leBytes]

theorem leNat_lt (bs : List Byte) : leNat bs < 2 ^ (8 * bs.length) := by
  induction bs with
  | nil => exact Nat.one_pos
  | cons b bs ih =>
      have hb : b.toNat < 2 ^ 8 := b.isLt
      have hpow : 2 ^ (8 * (bs.length + 1)) = 2 ^ 8 * 2 ^ (8 * bs.length) := by
        rw [← Nat.pow_add, Nat.mul_succ, Nat.add_comm]
      rw [leNat, List.length_cons, hpow]
      omega

theorem leBytes_leNat (bs : List Byte) : leBytes bs.length (leNat bs) = bs := by
  induction bs with
  | nil => rfl
  | cons b bs ih =>
      have hb : b.toNat < 2 ^ 8 := b.isLt
      have hlow : BitVec.ofNat 8 (leNat (b :: bs)) = b := by
        apply BitVec.eq_of_toNat_eq
        rw [BitVec.toNat_ofNat, leNat, Nat.add_mul_mod_self_left, Nat.mod_eq_of_lt hb]
      have hhigh : leNat (b :: bs) / 2 ^ 8 = leNat bs := by
        rw [leNat, Nat.add_mul_div_left _ _ (Nat.two_pow_pos 8), Nat.div_eq_of_lt hb, Nat.zero_add]
      rw [List.length_cons, leBytes, hlow, hhigh, ih]

theorem leBytes_mod (n v : Nat) : leBytes n (v % 2 ^ (8 * n)) = leBytes n v := by
  have h := leBytes_leNat (leBytes n v)
  rwa [length_leBytes, leNat_leBytes] at h

theorem leBytes_add (m n v : Nat) : leBytes (m + n) v = leBytes m v ++ leBytes n (v / 2 ^ (8 * m)) := by
  induction m generalizing v with
  | zero => simp [leBytes]
  | succ m ih =>
      have hpow : v / 2 ^ 8 / 2 ^ (8 * m) = v / 2 ^ (8 * (m + 1)) := by
        rw [Nat.div_div_eq_div_mul, ← Nat.pow_add, Nat.mul_succ, Nat.add_comm]
      rw [Nat.add_right_comm, leBytes, leBytes, ih, hpow, List.cons_append]

theorem leNat_append (as bs : List Byte) :
    leNat (as ++ bs) = leNat as + 2 ^ (8 * as.length) * leNat bs := by
  induction as with
  | nil => simp [leNat]
  | cons a as ih =>
      have hpow : 2 ^ (8 * (as.length + 1)) = 2 ^ 8 * 2 ^ (8 * as.length) := by
        rw [← Nat.pow_add, Nat.mul_succ, Nat.add_comm]
      rw [List.cons_append, leNat, leNat, ih, List.length_cons, hpow, Nat.mul_add, Nat.mul_assoc,
        Nat.add_assoc]

theorem leNat_take (bs : List Byte) {n : Nat} (hn : n ≤ bs.length) :
    leNat (bs.take n) = leNat bs % 2 ^ (8 * n) := by
  have h := leBytes_add n (bs.length - n) (leNat bs)
  rw [Nat.add_sub_cancel' hn, leBytes_leNat] at h
  rw [h, List.take_left' (length_leBytes n _), leNat_leBytes, ← h]

/-- The upper and the lower bytes of a number. -/
theorem beBytes_add (m n v : Nat) : beBytes (m + n) v = beBytes m (v / 2 ^ (8 * n)) ++ beBytes n v := by
  rw [beBytes, Nat.add_comm, leBytes_add, List.reverse_append, ← beBytes, ← beBytes]

/-- A host number as it lies in memory. -/
def store {w : Nat} (n : Nat) (x : BitVec w) : List Byte := leBytes n x.toNat

/-- The host number with the `n` bytes of `x` in reverse order. -/
def swapBytes {w : Nat} (n : Nat) (x : BitVec w) : BitVec w := BitVec.ofNat w (leNat (beBytes n x.toNat))

@[simp] theorem length_store {w : Nat} (n : Nat) (x : BitVec w) : (store n x).length = n :=
  length_leBytes n _

theorem toNat_swapBytes {w n : Nat} (hw : w = 8 * n) (x : BitVec w) :
    (swapBytes n x).toNat = leNat (beBytes n x.toNat) := by
  have hlt := leNat_lt (beBytes n x.toNat)
  rw [length_beBytes, ← hw] at hlt
  rw [swapBytes, BitVec.toNat_ofNat, Nat.mod_eq_of_lt hlt]

/-- A swapped number lies in memory in network order. -/
theorem store_swapBytes {w n : Nat} (hw : w = 8 * n) (x : BitVec w) :
    store n (swapBytes n x) = beBytes n x.toNat := by
  have h := leBytes_leNat (beBytes n x.toNat)
  rw [length_beBytes] at h
  rw [store, toNat_swapBytes hw, h]

theorem ofNat_leNat_store {w n : Nat} (hw : w = 8 * n) (x : BitVec w) :
    BitVec.ofNat w (leNat (store n x)) = x := by
  have hx : x.toNat < 2 ^ (8 * n) := hw ▸ x.isLt
  apply BitVec.eq_of_toNat_eq
  rw [BitVec.toNat_ofNat, store, leNat_leBytes, Nat.mod_eq_of_lt hx, Nat.mod_eq_of_lt x.isLt]

/-- Bytes that are read as a number and stored again. -/
theorem store_ofNat_leNat {w n : Nat} (hw : w = 8 * n) {bs : List Byte} (h : bs.length = n) :
    store n (BitVec.ofNat w (leNat bs)) = bs := by
  have hlt := leNat_lt bs
  rw [h, ← hw] at hlt
  have hsame := leBytes_leNat bs
  rw [h] at hsame
  rw [store, BitVec.toNat_ofNat, Nat.mod_eq_of_lt hlt, hsame]

theorem swapBytes_swapBytes {w n : Nat} (hw : w = 8 * n) (x : BitVec w) :
    swapBytes n (swapBytes n x) = x := by
  have h : beBytes n (swapBytes n x).toNat = store n x := by
    rw [beBytes, ← store, store_swapBytes hw, beBytes, List.reverse_reverse, ← store]
  rw [swapBytes, h, ofNat_leNat_store hw]

/-- A number that is read without the swap it needs. -/
theorem ofNat_leNat_beBytes {w : Nat} (n : Nat) (x : BitVec w) :
    BitVec.ofNat w (leNat (beBytes n x.toNat)) = swapBytes n x := rfl

/-! ## Packed fields -/

/-- Bytes taken apart again as they were put together. -/
theorem splitLengths_flatten (fields : List (List Byte)) :
    (fields.map List.length).splitLengths fields.flatten = fields := by
  induction fields with
  | nil => rfl
  | cons f fields ih =>
      rw [List.map_cons, List.splitLengths_cons, List.flatten_cons, List.take_left, List.drop_left, ih]

/-- A field behind others, from its offset. -/
theorem slice_flatten (front rest : List (List Byte)) (field : List Byte) {off n : Nat}
    (hoff : front.flatten.length = off) (hn : field.length = n) :
    slice (front ++ field :: rest).flatten off n = field := by
  rw [List.flatten_append, List.flatten_cons]
  exact slice_append _ field _ hoff hn

/-! ## Blocks -/

/-- A block of `n` bytes, such as a union. -/
structure Block (n : Nat) where
  bytes : List Byte
  size : bytes.length = n
deriving DecidableEq, Repr

namespace Block

variable {n : Nat}

def zero : Block n := ⟨List.replicate n 0, List.length_replicate⟩

/-- The number in the `k` bytes at an offset. -/
def read (b : Block n) (off k : Nat) : BitVec (8 * k) := BitVec.ofNat _ (leNat (slice b.bytes off k))

/-- Overwrite the bytes at an offset. -/
def write (b : Block n) (off : Nat) (bs : List Byte) (h : off + bs.length ≤ n) : Block n where
  bytes := b.bytes.take off ++ (bs ++ b.bytes.drop (off + bs.length))
  size := by
    have hb := b.size
    rw [List.length_append, List.length_append, List.length_take, List.length_drop]
    omega

theorem read_prefix (b : Block n) (off : Nat) {j k : Nat} (hjk : j ≤ k) (h : off + k ≤ n) :
    b.read off j = (b.read off k).setWidth (8 * j) := by
  have hb := b.size
  have hlen : (slice b.bytes off k).length = k := by
    rw [slice, List.length_take, List.length_drop]
    omega
  have htake : slice b.bytes off j = (slice b.bytes off k).take j := by
    rw [slice, slice, List.take_take, Nat.min_eq_left hjk]
  have hdvd : 2 ^ (8 * j) ∣ 2 ^ (8 * k) := Nat.pow_dvd_pow 2 (by omega)
  apply BitVec.eq_of_toNat_eq
  rw [read, read, htake, leNat_take _ (by omega), BitVec.toNat_setWidth, BitVec.toNat_ofNat,
    BitVec.toNat_ofNat, Nat.mod_mod, Nat.mod_mod_of_dvd _ hdvd]

/-- A number that is read and stored again. -/
theorem store_read (b : Block n) {off k : Nat} (h : off + k ≤ n) :
    store k (b.read off k) = slice b.bytes off k := by
  have hb := b.size
  have hlen : (slice b.bytes off k).length = k := by
    rw [slice, List.length_take, List.length_drop]
    omega
  exact store_ofNat_leNat rfl hlen

theorem read_write (b : Block n) {off k : Nat} (x : BitVec (8 * k))
    (h : off + (store k x).length ≤ n) : (b.write off (store k x) h).read off k = x := by
  have hb := b.size
  have hfront : (b.bytes.take off).length = off := by
    rw [List.length_take]
    omega
  rw [read, write, slice_append _ _ _ hfront (length_store k x)]
  exact ofNat_leNat_store rfl x

/-- What stands behind the bytes that are overwritten. -/
theorem read_write_of_le (b : Block n) {off : Nat} {bs : List Byte} (h : off + bs.length ≤ n)
    {off' k : Nat} (hoff : off + bs.length ≤ off') :
    (b.write off bs h).read off' k = b.read off' k := by
  have hb := b.size
  have hfront : (b.bytes.take off ++ bs).length = off + bs.length := by
    rw [List.length_append, List.length_take]
    omega
  have hslice : slice (b.write off bs h).bytes off' k = slice b.bytes off' k := by
    show slice (b.bytes.take off ++ (bs ++ b.bytes.drop (off + bs.length))) off' k = _
    rw [slice, slice, ← List.append_assoc, List.drop_append, List.drop_eq_nil_of_le (by omega),
      List.nil_append, hfront, List.drop_drop]
    congr 2
    omega
  rw [read, read, hslice]

end Block

/-! ## Formats -/

/-- A field of a record in network order. -/
inductive Field where
  | unsigned (n : Nat)
  | signed (n : Nat)
  | bytes (n : Nat)
deriving DecidableEq, Repr

inductive Value where
  | int (v : Int)
  | str (bs : List Byte)
deriving DecidableEq, Repr

namespace Field

def size : Field → Nat
  | unsigned n => n
  | signed n => n
  | bytes n => n

def unpack : Field → List Byte → Value
  | unsigned _, bs => .int (beNat bs)
  | signed n, bs => .int (BitVec.ofNat (8 * n) (beNat bs)).toInt
  | bytes _, bs => .str bs

/-- A number that does not fit is an error; bytes are cut off or filled up with
zeros. -/
def pack : Field → Value → Option (List Byte)
  | unsigned n, .int v =>
      if 0 ≤ v ∧ v < 2 ^ (8 * n) then some (beBytes n v.toNat) else none
  | signed n, .int v =>
      if -2 ^ (8 * n - 1) ≤ v ∧ v < 2 ^ (8 * n - 1) then
        some (beBytes n (BitVec.ofInt (8 * n) v).toNat)
      else none
  | bytes n, .str bs => some (bs.take n ++ List.replicate (n - bs.length) 0)
  | _, _ => none

end Field

abbrev Format := List Field

namespace Format

def size (fmt : Format) : Nat := (fmt.map Field.size).sum

/-- `struct.unpack`. -/
def unpack (fmt : Format) (bs : List Byte) : Option (List Value) :=
  if bs.length = fmt.size then
    some (List.zipWith Field.unpack fmt ((fmt.map Field.size).splitLengths bs))
  else none

/-- `struct.pack`. -/
def pack : Format → List Value → Option (List Byte)
  | [], [] => some []
  | f :: fmt, v :: vs => (f.pack v).bind fun bs => (pack fmt vs).map (bs ++ ·)
  | _, _ => none

/-- Fields of the right sizes are unpacked one by one. -/
theorem unpack_flatten {fmt : Format} {fields : List (List Byte)}
    (h : fields.map List.length = fmt.map Field.size) :
    unpack fmt fields.flatten = some (List.zipWith Field.unpack fmt fields) := by
  have hlen : fields.flatten.length = fmt.size := by
    rw [List.length_flatten, h, size]
  rw [unpack, if_pos hlen, ← h, splitLengths_flatten]

end Format

theorem pack_unsigned {w n : Nat} (hw : w = 8 * n) (x : BitVec w) :
    (Field.unsigned n).pack (.int x.toNat) = some (beBytes n x.toNat) := by
  have hx : (x.toNat : Int) < 2 ^ (8 * n) := by
    have hlt : x.toNat < 2 ^ (8 * n) := hw ▸ x.isLt
    exact_mod_cast hlt
  rw [Field.pack, if_pos ⟨Int.natCast_nonneg _, hx⟩, Int.toNat_natCast]

theorem unpack_unsigned {w n : Nat} (hw : w = 8 * n) (x : BitVec w) :
    (Field.unsigned n).unpack (beBytes n x.toNat) = .int x.toNat := by
  have hx : x.toNat < 2 ^ (8 * n) := hw ▸ x.isLt
  rw [Field.unpack, beNat_beBytes, Nat.mod_eq_of_lt hx]

theorem unpack_signed {n : Nat} (x : BitVec (8 * n)) :
    (Field.signed n).unpack (beBytes n x.toNat) = .int x.toInt := by
  rw [Field.unpack, beNat_beBytes, Nat.mod_eq_of_lt x.isLt, BitVec.ofNat_toNat, BitVec.setWidth_eq]

end Foundation.Bytes
