import MagicWand.GrantRefs
import Mathlib.Data.List.Infix

/-!
# Paths in XenStore

The keys through which the driver and the INSs find each other, and what the driver makes
of the path of a key that has changed: `mw_xen_xenstore_state_changed` looks for the name
of the key in it, `mw_xen_get_ins_from_xs_path` for the id of the INS.
-/

namespace MagicWand

open Foundation

/-! ## Keys -/

def serverIdPath : List Char := xeneventXenstoreRoot ++ ['/', 'p', 'v', 'm', '/', 'i', 'd']
def insIdKey : List Char := ['i', 'n', 's', '_', 'd', 'o', 'm', '_', 'i', 'd']
def vmEvtChnPortKey : List Char :=
  ['v', 'm', '_', 'e', 'v', 't', '_', 'c', 'h', 'n', '_', 'p', 'r', 't']
def vmEvtChnBoundKey : List Char :=
  ['v', 'm', '_', 'e', 'v', 't', '_', 'c', 'h', 'n', '_', 'i', 's', '_', 'b', 'o', 'u', 'n', 'd']
def insHeartbeatKey : List Char := ['h', 'e', 'a', 'r', 't', 'b', 'e', 'a', 't']

/-- The path of a key of the INS with this id. -/
def insPath (domid : BitVec 16) (key : List Char) : List Char := join (insDir domid) key

theorem not_mem_digits (n : Nat) {c : Char} (hc : Numerals.isDigit 10 c = false) :
    c ∉ Nat.toDigits 10 n := by
  intro h
  rw [Numerals.isDigit_of_mem_toDigits (by decide) (by decide) h] at hc
  cases hc

theorem toDigits_inj {m n : Nat} (h : Nat.toDigits 10 m = Nat.toDigits 10 n) : m = n := by
  rw [← @Nat.ofDigitChars_ten_toDigits m, h, Nat.ofDigitChars_ten_toDigits]

/-- What stands in front of the first separator. -/
theorem append_sep_inj {a a' b b' : List Char} {c : Char} (ha : c ∉ a) (ha' : c ∉ a')
    (h : a ++ c :: b = a' ++ c :: b') : a = a' ∧ b = b' := by
  induction a generalizing a' with
  | nil =>
      cases a' with
      | nil => exact ⟨rfl, (List.cons.inj h).2⟩
      | cons x a' => exact absurd ((List.cons.inj h).1 ▸ List.mem_cons_self) ha'
  | cons x a ih =>
      cases a' with
      | nil => exact absurd ((List.cons.inj h).1 ▸ List.mem_cons_self) ha
      | cons y a' =>
          obtain ⟨rfl, htail⟩ := List.cons.inj h
          obtain ⟨rfl, hb⟩ := ih (fun hc => ha (List.mem_cons_of_mem _ hc))
            (fun hc => ha' (List.mem_cons_of_mem _ hc)) htail
          exact ⟨rfl, hb⟩

/-- Each INS has its own keys. -/
@[simp] theorem insPath_inj {d d' : BitVec 16} {key key' : List Char} :
    insPath d key = insPath d' key' ↔ d = d' ∧ key = key' := by
  constructor
  · intro h
    have hdig : Nat.toDigits 10 d.toNat ++ '/' :: key =
        Nat.toDigits 10 d'.toNat ++ '/' :: key' := by
      simpa [insPath, join, insDir] using h
    obtain ⟨hid, hkey⟩ := append_sep_inj (not_mem_digits _ (by decide))
      (not_mem_digits _ (by decide)) hdig
    exact ⟨BitVec.eq_of_toNat_eq (toDigits_inj hid), hkey⟩
  · rintro ⟨rfl, rfl⟩
    rfl

@[simp] theorem serverIdPath_ne (d : BitVec 16) (key : List Char) :
    serverIdPath ≠ insPath d key := by
  intro h
  have hdig : ['p', 'v', 'm'] ++ '/' :: ['i', 'd'] = Nat.toDigits 10 d.toNat ++ '/' :: key := by
    simpa [serverIdPath, insPath, join, insDir] using h
  have hid := (append_sep_inj (by decide) (not_mem_digits _ (by decide)) hdig).1
  exact not_mem_digits d.toNat (c := 'p') (by decide) (hid ▸ List.mem_cons_self)

/-- No path is too long for the buffer of either side. -/
theorem snprintf_insPath {d : BitVec 16} {key : List Char} (h : key.length ≤ 21) :
    snprintf xeneventPathStrLen (insPath d key) = insPath d key := by
  have hdir := length_insDir d
  have hlen : xeneventPathStrLen - 1 = 31 := rfl
  refine snprintf_eq ?_
  rw [insPath, length_join]
  omega

theorem snprintf_insDir (d : BitVec 16) : snprintf xeneventPathStrLen (insDir d) = insDir d := by
  have hdir := length_insDir d
  have hlen : xeneventPathStrLen - 1 = 31 := rfl
  exact snprintf_eq (by omega)

/-! ## `mw_xen_xenstore_state_changed` -/

def strstr (haystack needle : List Char) : Bool := decide (needle <:+: haystack)

/-- What the driver does about a key that has changed. -/
inductive StateChange where
  | insFound
  | bindEvtChn
  | insHeartbeat
  | nothing
deriving DecidableEq, Repr

def mwXenXenstoreStateChanged (path : List Char) : StateChange :=
  if strstr path insIdKey then .insFound
  else if strstr path vmEvtChnBoundKey then .bindEvtChn
  else if strstr path insHeartbeatKey then .insHeartbeat
  else .nothing

/-- A name without a separator is in one of the parts of a path. -/
theorem infix_append_sep {s a b : List Char} {c : Char} (hs : c ∉ s) (h : s <:+: a ++ c :: b) :
    s <:+: a ∨ s <:+: b := by
  rcases List.infix_append_iff.mp h with ha | hcons | ⟨l, r, rfl, hl, hr⟩
  · exact .inl ha
  · rcases List.infix_cons_iff.mp hcons with hstart | hb
    · cases s with
      | nil => exact .inl List.nil_infix
      | cons x s => exact absurd ((List.cons_prefix_cons.mp hstart).1 ▸ List.mem_cons_self) hs
    · exact .inr hb
  · cases r with
    | nil => exact .inl (by simpa using hl.isInfix)
    | cons x r =>
        have hx : x = c := (List.cons_prefix_cons.mp hr).1
        exact absurd (List.mem_append_right l (hx ▸ List.mem_cons_self)) hs

/-- A name that has no digit is in the path of a key if it is in the key. -/
theorem strstr_insPath {d : BitVec 16} {key name : List Char} (hsep : '/' ∉ name)
    (hroot : ¬ name <:+: ['m', 'w']) (hempty : ¬ name <:+: [])
    (hplain : ∃ c ∈ name, Numerals.isDigit 10 c = false) :
    strstr (insPath d key) name = strstr key name := by
  unfold strstr
  refine decide_eq_decide.mpr ⟨fun h => ?_, fun h => ?_⟩
  · have hpath : insPath d key = [] ++ '/' :: (['m', 'w'] ++ '/' ::
        (Nat.toDigits 10 d.toNat ++ '/' :: key)) := by
      simp [insPath, join, insDir, xeneventXenstoreRoot]
    rw [hpath] at h
    rcases infix_append_sep hsep h with h | h
    · exact absurd h hempty
    · rcases infix_append_sep hsep h with h | h
      · exact absurd h hroot
      · rcases infix_append_sep hsep h with h | h
        · obtain ⟨c, hc, hdigit⟩ := hplain
          exact absurd (h.subset hc) (not_mem_digits _ hdigit)
        · exact h
  · exact h.trans ⟨insDir d ++ ['/'], [], by simp [insPath, join]⟩

/-- What the driver does about a path depends on the key only. -/
theorem stateChanged_insPath (d : BitVec 16) (key : List Char) :
    mwXenXenstoreStateChanged (insPath d key) = mwXenXenstoreStateChanged key := by
  unfold mwXenXenstoreStateChanged
  rw [strstr_insPath (by decide) (by decide) (by decide) ⟨'i', by decide, by decide⟩,
    strstr_insPath (by decide) (by decide) (by decide) ⟨'v', by decide, by decide⟩,
    strstr_insPath (by decide) (by decide) (by decide) ⟨'h', by decide, by decide⟩]

theorem not_strstr {path name : List Char} {c : Char} (hc : c ∈ name) (hno : c ∉ path) :
    strstr path name = false :=
  decide_eq_false fun h => hno (h.subset hc)

theorem not_mem_gntKey (chunk : Nat) {c : Char} (hkey : c ∉ gntRefKey ++ ['_'])
    (hdigit : Numerals.isDigit 10 c = false) : c ∉ gntKey chunk := by
  have happ : gntKey chunk = gntRefKey ++ ['_'] ++ Nat.toDigits 10 chunk := by simp [gntKey]
  rw [happ, List.mem_append]
  rintro (h | h)
  · exact hkey h
  · exact not_mem_digits chunk hdigit h

/-- The driver ignores what it writes itself. -/
theorem stateChanged_gntKey (d : BitVec 16) (chunk : Nat) :
    mwXenXenstoreStateChanged (insPath d (gntKey chunk)) = .nothing := by
  have hi : 'i' ∉ gntKey chunk := not_mem_gntKey chunk (by decide) (by decide)
  have hv : 'v' ∉ gntKey chunk := not_mem_gntKey chunk (by decide) (by decide)
  have hh : 'h' ∉ gntKey chunk := not_mem_gntKey chunk (by decide) (by decide)
  rw [stateChanged_insPath, mwXenXenstoreStateChanged, not_strstr (by decide) hi,
    not_strstr (by decide) hv, not_strstr (by decide) hh]
  rfl

/-! ## `mw_xen_get_ins_from_xs_path` -/

/-- `kstrtoint(s, 10, &n)`: a sign or none, digits, and a line break or none. -/
def kstrtoint (s : List Char) : Option Int :=
  let signed := strtoulSign s
  let (n, rest) := Numerals.takeDigits 10 0 signed.2
  if rest.length = signed.2.length then none
  else if rest ≠ [] ∧ rest ≠ ['\n'] then none
  else if signed.1 then if n ≤ 2 ^ 31 then some (-(n : Int)) else none
  else if n < 2 ^ 31 then some n else none

/-- The id in the path, after the root and up to the next separator. -/
def domidOfPath (path : List Char) : Option Int :=
  kstrtoint (((path.take xeneventPathStrLen).drop (xeneventXenstoreRoot.length + 1)).takeWhile
    (· ≠ '/'))

theorem takeDigits_decimal (n : Nat) :
    Numerals.takeDigits 10 0 (Nat.toDigits 10 n) = (n, []) := by
  have hnum : Numerals.takeDigits 10 0 (Nat.toDigits 10 n ++ []) = (n, []) :=
    Numerals.takeDigits_numeral (by decide) (by decide) n (by simp)
  rwa [List.append_nil] at hnum

theorem kstrtoint_toDigits {n : Nat} (h : n < 2 ^ 31) :
    kstrtoint (Nat.toDigits 10 n) = some (n : Int) := by
  have hsign : strtoulSign (Nat.toDigits 10 n) = (false, Nat.toDigits 10 n) := by
    unfold strtoulSign
    split
    · next heq => exact absurd (heq ▸ List.mem_cons_self) (not_mem_digits n (c := '-') (by decide))
    · next heq => exact absurd (heq ▸ List.mem_cons_self) (not_mem_digits n (c := '+') (by decide))
    · rfl
  have hread := takeDigits_decimal n
  have hlen : ([] : List Char).length ≠ (Nat.toDigits 10 n).length := by
    have hpos := List.length_pos_iff.mpr (Nat.toDigits_ne_nil (b := 10) (n := n))
    simp only [List.length_nil]
    omega
  simp only [kstrtoint, hsign, hread, if_neg hlen, h, if_true, Bool.false_eq_true, if_false,
    ne_eq, not_true_eq_false, false_and]

/-- The path of a key of an INS names that INS. -/
theorem domidOfPath_insPath (d : BitVec 16) (key : List Char) :
    domidOfPath (insPath d key) = some (d.toNat : Int) := by
  have hlen : (Nat.toDigits 10 d.toNat).length ≤ 5 :=
    length_decimal (by decide) (lt_trans d.isLt (by decide))
  have hpath : (((insPath d key).take xeneventPathStrLen).drop
      (xeneventXenstoreRoot.length + 1)).takeWhile (· ≠ '/') = Nat.toDigits 10 d.toNat := by
    have hdrop : ((insPath d key).take xeneventPathStrLen).drop (xeneventXenstoreRoot.length + 1) =
        (Nat.toDigits 10 d.toNat ++ '/' :: key).take 28 := by
      rw [List.drop_take]
      simp [insPath, join, insDir, xeneventXenstoreRoot, xeneventPathStrLen]
    have htake : (Nat.toDigits 10 d.toNat ++ '/' :: key).take 28 =
        Nat.toDigits 10 d.toNat ++ '/' :: key.take (27 - (Nat.toDigits 10 d.toNat).length) := by
      rw [List.take_append, List.take_of_length_le (by omega)]
      obtain ⟨m, hm⟩ : ∃ m, 28 - (Nat.toDigits 10 d.toNat).length = m + 1 :=
        Nat.exists_eq_succ_of_ne_zero (by omega)
      rw [hm, List.take_succ_cons]
      congr 3
      omega
    rw [hdrop, htake, List.takeWhile_append_of_pos, List.takeWhile_cons_of_neg (by simp),
      List.append_nil]
    intro c hc
    have hne : c ≠ '/' := by
      rintro rfl
      exact not_mem_digits d.toNat (by decide) hc
    simpa using hne
  rw [domidOfPath, hpath]
  exact kstrtoint_toDigits (lt_trans d.isLt (by decide))

end MagicWand
