import MagicWand.Ins.Receives

/-!
# The peer's close

A receive that returns nothing is followed by a `poll`, and a second receive that
returns nothing although `poll` has reported something to read is taken for the end of
the stream. That is right for a receive that asks for bytes. One that asks for none
returns nothing as well.
-/

namespace MagicWand.Ins

open Foundation

/-! ## A native stream socket -/

/-- The bytes that have arrived and are unread, and whether the peer has ended the stream. -/
structure ByteStream where
  unread : List (BitVec 8) := []
  ended : Bool := false
deriving DecidableEq, Repr

namespace ByteStream

/-- Bytes arrive, and the peer ends the stream, as long as it has not ended it. -/
def Arrives (s s' : ByteStream) : Prop :=
  s' = s ∨ s.ended = false ∧ ∃ more, s'.unread = s.unread ++ more

def Readable (s : ByteStream) : Prop := s.unread ≠ [] ∨ s.ended = true

/-- The peer has ended the stream and everything is read. -/
def Over (s : ByteStream) : Prop := s.ended = true ∧ s.unread = []

/-- A native receive of `len` bytes. What it takes may stay unread (`MSG_PEEK`). -/
def Received (s : ByteStream) (len : Nat) (o : Outcome) (s' : ByteStream) : Prop :=
  (o.ret < 0 ∧ s' = s) ∨
  (o.ret = 0 ∧ (len = 0 ∨ s.Over) ∧ s' = s) ∨
  (0 < o.ret ∧ o.ret ≤ len ∧ o.ret ≤ s.unread.length ∧ s'.ended = s.ended ∧
    ∃ taken ≤ o.ret.toNat, s'.unread = s.unread.drop taken)

/-- The answers of the socket to the calls of a receive. -/
def Answers (s : ByteStream) (c : NativeCall) (o : Outcome) (s' : ByteStream) : Prop :=
  match c with
  | .recv _ len _ => s.Received len o s'
  | .recvfrom _ len _ => s.Received len o s'
  | .pollOne _ _ =>
      s' = s ∧ (0 ≤ o.ret → ((pollOneResult o).2 &&& (pollIn ||| pollRdnorm) ≠ 0 ↔ s.Readable))
  | _ => False

/-- The socket gives these answers, the stream being in the states noted when the calls
are made. -/
inductive Serves : ByteStream → List (ByteStream × NativeCall × Outcome) → ByteStream → Prop
  | nil (s : ByteStream) : Serves s [] s
  | call {s s₁ s₂ s' : ByteStream} {c : NativeCall} {o : Outcome}
      {log : List (ByteStream × NativeCall × Outcome)} (harrives : s.Arrives s₁)
      (hanswers : s₁.Answers c o s₂) (hlater : Serves s₂ log s') :
      Serves s ((s₁, c, o) :: log) s'

variable {s s₁ s₂ s' : ByteStream}

theorem Arrives.refl (s : ByteStream) : s.Arrives s := .inl rfl

theorem Arrives.trans (h : s.Arrives s₁) (h' : s₁.Arrives s₂) : s.Arrives s₂ := by
  rcases h with rfl | ⟨hopen, more, hmore⟩
  · exact h'
  · right
    rcases h' with rfl | ⟨-, more', hmore'⟩
    · exact ⟨hopen, more, hmore⟩
    · exact ⟨hopen, more ++ more', by rw [hmore', hmore, List.append_assoc]⟩

theorem Arrives.unread_ne_nil (h : s.Arrives s') (hs : s.unread ≠ []) : s'.unread ≠ [] := by
  rcases h with rfl | ⟨-, more, hmore⟩
  · exact hs
  · rw [hmore]
    exact List.append_ne_nil_of_left_ne_nil hs more

theorem Arrives.eq_of_ended (h : s.Arrives s') (hs : s.ended = true) : s' = s := by
  rcases h with rfl | ⟨hopen, -⟩
  · rfl
  · rw [hs] at hopen
    cases hopen

theorem Received.of_neg {len : Nat} {o : Outcome} (h : s.Received len o s') (hneg : o.ret < 0) :
    s' = s := by
  rcases h with ⟨-, rfl⟩ | ⟨hzero, -⟩ | ⟨hpos, -⟩
  · rfl
  · omega
  · omega

/-- Receives of 16 bits length that return nothing. -/
theorem Received.of_zero {len : Nat} {o : Outcome} (h : s.Received len o s') (hlen : len < 2 ^ 16)
    (hnonneg : 0 ≤ o.ret) (hzero : o.ret % 2 ^ 16 = 0) : (len = 0 ∨ s.Over) ∧ s' = s := by
  rcases h with ⟨hneg, -⟩ | ⟨-, hnothing, rfl⟩ | ⟨hpos, hle, -⟩
  · omega
  · exact ⟨hnothing, rfl⟩
  · omega

theorem serves_nil : Serves s [] s' → s' = s
  | .nil _ => rfl

theorem serves_cons {c : NativeCall} {o : Outcome} {log : List (ByteStream × NativeCall × Outcome)} :
    Serves s ((s₁, c, o) :: log) s' → s.Arrives s₁ ∧ ∃ s₂, s₁.Answers c o s₂ ∧ Serves s₂ log s'
  | .call harrives hanswers hlater => ⟨harrives, _, hanswers, hlater⟩

end ByteStream

/-! ## The loop on a stream -/

/-- The call is a receive of `len` bytes. -/
def Receives (len : Nat) (call : NativeCall) : Prop :=
  (∃ fd flags, call = .recv fd len flags) ∨ ∃ fd flags, call = .recvfrom fd len flags

def isReceive : NativeCall → Bool
  | .recv _ _ _ => true
  | .recvfrom _ _ _ => true
  | _ => false

/-- The native receives that were not interrupted. -/
def uninterrupted (calls : List (NativeCall × Outcome)) : Nat :=
  calls.countP fun p => isReceive p.1 && !p.2.interrupted

/-- The last of the calls was a receive, and it did not fail. -/
def EndsReceived (log : List (ByteStream × NativeCall × Outcome)) : Prop :=
  ∃ x, log.getLast? = some x ∧ isReceive x.2.1 = true ∧ 0 ≤ x.2.2.ret

/-- Bytes were unread when `poll` was asked, and the receive after it has come to its end. -/
def PolledUnread (log : List (ByteStream × NativeCall × Outcome)) : Prop :=
  (∃ s p, (s, pollOneCall, p) ∈ log ∧ 0 ≤ p.ret ∧ s.unread ≠ []) ∧ EndsReceived log

section Loop

variable {call : NativeCall} {len : Nat} {os : List Outcome} {s s' : ByteStream}
  {log : List (ByteStream × NativeCall × Outcome)}

theorem Receives.received (h : Receives len call) {o : Outcome} (ha : s.Answers call o s') :
    s.Received len o s' := by
  rcases h with ⟨fd, flags, rfl⟩ | ⟨fd, flags, rfl⟩
  · exact ha
  · exact ha

theorem Receives.isReceive (h : Receives len call) : isReceive call = true := by
  rcases h with ⟨fd, flags, rfl⟩ | ⟨fd, flags, rfl⟩
  · rfl
  · rfl

theorem Receives.ne_poll (h : Receives len call) : call ≠ pollOneCall := by
  rintro rfl
  cases h.isReceive

/-- What comes before the `poll` does not matter. -/
theorem endsReceived_polled {early : List (ByteStream × NativeCall × Outcome)} {p : Outcome} :
    EndsReceived (early ++ (s, pollOneCall, p) :: log) ↔ EndsReceived log := by
  rw [EndsReceived, EndsReceived, List.getLast?_append_of_ne_nil _ (List.cons_ne_nil _ _)]
  rcases List.eq_nil_or_concat log with rfl | ⟨before, x, rfl⟩
  · constructor
    · rintro ⟨x, hx, hreceive, -⟩
      cases hx
      cases hreceive
    · rintro ⟨x, hx, -⟩
      cases hx
  · rw [List.concat_eq_append, ← List.cons_append, List.getLast?_concat, List.getLast?_concat]

/-- While receives are interrupted, bytes may arrive. -/
theorem serves_interrupted (hcall : Receives len call)
    {early : List (ByteStream × NativeCall × Outcome)}
    (hearly : ∀ x ∈ early, x.2.1 = call ∧ x.2.2.interrupted = true)
    (h : ByteStream.Serves s (early ++ log) s') :
    ∃ s₀, s.Arrives s₀ ∧ ByteStream.Serves s₀ log s' := by
  induction early generalizing s with
  | nil => exact ⟨s, .refl s, h⟩
  | cons x early ih =>
      obtain ⟨s₁, c, o⟩ := x
      obtain ⟨harrives, s₂, hanswers, hlater⟩ := ByteStream.serves_cons h
      obtain ⟨hc, hint⟩ := hearly _ List.mem_cons_self
      simp only at hc hint
      subst hc
      have hsame : s₂ = s₁ := (hcall.received hanswers).of_neg (interrupted_iff.mp hint).1
      obtain ⟨s₀, harrives', hrest⟩ := ih (fun y hy => hearly y (List.mem_cons_of_mem _ hy)) hlater
      rw [hsame] at harrives'
      exact ⟨s₀, harrives.trans harrives', hrest⟩

/-- One round of the loop, on a stream. -/
theorem round_served (hcall : Receives len call) {polled : Bool} {events : BitVec 32}
    (hlog : log.map Prod.snd = Script.trace (recvLoop call (.recv polled events)) os)
    (h : ByteStream.Serves s log s') :
    (recvLoop call (.recv polled events) os = .error call ∧
      ∀ x ∈ log, x.2.1 = call ∧ x.2.2.interrupted = true) ∨
    ∃ early s₁ o s₂ late after, log = early ++ (s₁, call, o) :: late ∧
      (∀ x ∈ early, x.2.1 = call ∧ x.2.2.interrupted = true) ∧ o.interrupted = false ∧
      s.Arrives s₁ ∧ s₁.Received len o s₂ ∧ ByteStream.Serves s₂ late s' ∧
      late.map Prod.snd = Script.trace (recvNext call polled events o) after ∧
      recvLoop call (.recv polled events) os = recvNext call polled events o after := by
  have hentries {os : List Outcome} {log : List (ByteStream × NativeCall × Outcome)}
      (hall : ∀ o ∈ os, o.interrupted = true) (hmap : log.map Prod.snd = os.map (call, ·)) :
      ∀ x ∈ log, x.2.1 = call ∧ x.2.2.interrupted = true := by
    intro x hx
    have hmem : x.2 ∈ os.map (call, ·) := hmap ▸ List.mem_map_of_mem hx
    obtain ⟨o, ho, heq⟩ := List.mem_map.mp hmem
    rw [← heq]
    exact ⟨rfl, hall o ho⟩
  rcases recvLoop_round call polled events os with
    ⟨herror, hcalls, hall⟩ | ⟨before, o, after, -, hall, hdone, hrun, hcalls⟩
  · exact .inl ⟨herror, hentries hall (hlog.trans hcalls)⟩
  · obtain ⟨early, rest, rfl, hearly, hrest⟩ := List.map_eq_append_iff.mp (hlog.trans hcalls)
    obtain ⟨⟨s₁, c, o'⟩, late, rfl, hfirst, hlate⟩ := List.map_eq_cons_iff.mp hrest
    cases hfirst
    have hint := hentries hall hearly
    obtain ⟨s₀, harrives, hrest⟩ := serves_interrupted hcall hint h
    obtain ⟨harrives', s₂, hanswers, hlater⟩ := ByteStream.serves_cons hrest
    exact .inr ⟨early, s₁, o, s₂, late, after, rfl, hint, hdone, harrives.trans harrives',
      hcall.received hanswers, hlater, hlate, hrun⟩

theorem uninterrupted_early (hearly : ∀ x ∈ log, x.2.1 = call ∧ x.2.2.interrupted = true) :
    uninterrupted (log.map Prod.snd) = 0 := by
  rw [uninterrupted, List.countP_eq_zero]
  intro p hp
  obtain ⟨x, hx, rfl⟩ := List.mem_map.mp hp
  rw [(hearly x hx).2]
  simp

theorem uninterrupted_round (hcall : Receives len call)
    {early late : List (ByteStream × NativeCall × Outcome)} {s₁ : ByteStream} {o : Outcome}
    (hearly : ∀ x ∈ early, x.2.1 = call ∧ x.2.2.interrupted = true) (hdone : o.interrupted = false) :
    uninterrupted ((early ++ (s₁, call, o) :: late).map Prod.snd) =
      uninterrupted (late.map Prod.snd) + 1 := by
  have hone : (isReceive call && !o.interrupted) = true := by
    rw [hcall.isReceive, hdone]
    rfl
  have hnone := uninterrupted_early hearly
  rw [uninterrupted] at hnone
  rw [List.map_append, List.map_cons, uninterrupted, List.countP_append, hnone, Nat.zero_add]
  exact List.countP_cons_of_pos hone

theorem endsReceived_last (hcall : Receives len call)
    {early : List (ByteStream × NativeCall × Outcome)} {s₁ : ByteStream} {o : Outcome} :
    EndsReceived (early ++ [(s₁, call, o)]) ↔ 0 ≤ o.ret := by
  rw [EndsReceived, List.getLast?_concat]
  constructor
  · rintro ⟨x, hx, -, hret⟩
    cases hx
    exact hret
  · intro hret
    exact ⟨_, rfl, hcall.isReceive, hret⟩

theorem endsReceived_interrupted (hall : ∀ x ∈ log, x.2.1 = call ∧ x.2.2.interrupted = true) :
    ¬ EndsReceived log := by
  rintro ⟨x, hx, -, hret⟩
  have hneg := (interrupted_iff.mp (hall x (List.mem_of_getLast? hx)).2).1
  omega

/-- The round after the `poll`, which has told what the stream was like. -/
theorem second_round (hlen : len < 2 ^ 16) (hcall : Receives len call) {events : BitVec 32}
    (hevents : events &&& (pollIn ||| pollRdnorm) ≠ 0 ↔ s.Readable)
    (hlog : log.map Prod.snd = Script.trace (recvLoop call (.recv true events)) os)
    (h : ByteStream.Serves s log s') :
    (∀ x ∈ log, x.2.1 = call) ∧ uninterrupted (log.map Prod.snd) ≤ 1 ∧
      (∀ c, recvLoop call (.recv true events) os = .error c →
        uninterrupted (log.map Prod.snd) = 0) ∧
      ((∀ o rest, recvLoop call (.recv true events) os = .ok (.remoteClosed o, rest) → s'.Over) ↔
        len ≠ 0 ∨ ¬ (s.unread ≠ [] ∧ EndsReceived log)) := by
  rcases round_served hcall hlog h with ⟨herror, hall⟩ |
    ⟨early, s₁, o, s₂, late, after, rfl, hearly, hdone, harrives, hreceived, hlater, hlate, hrun⟩
  · rw [herror, uninterrupted_early hall]
    refine ⟨fun x hx => (hall x hx).1, Nat.zero_le 1, fun _ _ => rfl, ?_⟩
    exact iff_of_true nofun (.inr fun hends => endsReceived_interrupted hall hends.2)
  rcases recvNext_cases call true events o with ⟨e, hnext, hhow⟩ | ⟨-, -, -, hpolled, -⟩
  · have hnil : late = [] := by
      rw [hnext, Script.trace_of_ok rfl, List.map_eq_nil_iff] at hlate
      exact hlate
    subst hnil
    have hsame := ByteStream.serves_nil hlater
    subst hsame
    rw [uninterrupted_round hcall hearly hdone, hrun, hnext, endsReceived_last hcall]
    refine ⟨?_, le_rfl, nofun, ?_⟩
    · intro x hx
      rcases List.mem_append.mp hx with hx | hx
      · exact (hearly x hx).1
      · rw [List.mem_singleton.mp hx]
    rcases hhow with ⟨hneg, rfl⟩ | ⟨hret, hdata, rfl⟩ | ⟨hret, hzero, hhow⟩
    · refine iff_of_true nofun (.inr fun hends => ?_)
      omega
    · refine iff_of_true nofun (.inl ?_)
      rcases hreceived with ⟨hneg, -⟩ | ⟨hnone, -⟩ | ⟨-, hle, -⟩
      · omega
      · omega
      · omega
    · obtain ⟨hnothing, hstay⟩ := hreceived.of_zero hlen hret hzero
      subst hstay
      rcases hhow with ⟨hreadable, rfl⟩ | ⟨hquiet, -, rfl⟩
      · -- The end is taken for the end of the stream; it is if nothing was unread.
        have hclosed : (∀ o' rest, (pure (.remoteClosed o) : Native RecvEnd) after =
            .ok (.remoteClosed o', rest) → s'.Over) ↔ s'.Over :=
          ⟨fun hover => hover o after rfl, fun hover _ _ _ => hover⟩
        rw [hclosed]
        rcases hnothing with rfl | hover
        · have hs := hevents.mp hreadable
          constructor
          · intro hover
            exact .inr fun hunread => harrives.unread_ne_nil hunread.1 hover.2
          · intro hunread
            have hread : s.unread = [] := by
              by_contra hne
              exact hunread.elim (absurd rfl) fun hnot => hnot ⟨hne, hret⟩
            have hended : s.ended = true := hs.resolve_left (not_not_intro hread)
            rw [harrives.eq_of_ended hended]
            exact ⟨hended, hread⟩
        · exact iff_of_true hover
            (.inr fun hunread => harrives.unread_ne_nil hunread.1 hover.2)
      · refine iff_of_true nofun (.inr fun hunread => ?_)
        exact hevents.mpr (.inl hunread.1) hquiet
  · cases hpolled

theorem not_polledUnread (hcall : Receives len call) (hall : ∀ x ∈ log, x.2.1 = call) :
    ¬ PolledUnread log := by
  rintro ⟨⟨s₁, p, hmem, -⟩, -⟩
  exact hcall.ne_poll (hall _ hmem).symm

/-- The whole loop. It is right about the end of the stream unless it asked for nothing
while bytes were unread. -/
theorem recvLoop_served (hlen : len < 2 ^ 16) (hcall : Receives len call)
    (hlog : log.map Prod.snd = Script.trace (recvLoop call (.recv false 0)) os)
    (h : ByteStream.Serves s log s') :
    uninterrupted (log.map Prod.snd) ≤ 2 ∧
      (∀ c, recvLoop call (.recv false 0) os = .error c → uninterrupted (log.map Prod.snd) ≤ 1) ∧
      ((∀ o rest, recvLoop call (.recv false 0) os = .ok (.remoteClosed o, rest) → s'.Over) ↔
        len ≠ 0 ∨ ¬ PolledUnread log) := by
  rcases round_served hcall hlog h with ⟨herror, hall⟩ |
    ⟨early, s₁, o, s₂, late, after, rfl, hearly, hdone, harrives, hreceived, hlater, hlate, hrun⟩
  · rw [herror, uninterrupted_early hall]
    refine ⟨Nat.zero_le 2, fun _ _ => Nat.zero_le 1, ?_⟩
    exact iff_of_true (by rintro _ _ ⟨⟩) (.inr (not_polledUnread hcall fun x hx => (hall x hx).1))
  have hfirst : ∀ x ∈ early ++ [(s₁, call, o)], x.2.1 = call := by
    intro x hx
    rcases List.mem_append.mp hx with hx | hx
    · exact (hearly x hx).1
    · rw [List.mem_singleton.mp hx]
  rw [uninterrupted_round hcall hearly hdone, hrun]
  rcases recvNext_cases call false 0 o with ⟨e, hnext, hhow⟩ | ⟨-, -, -, -, hnext⟩
  · have hnil : late = [] := by
      rw [hnext, Script.trace_of_ok rfl, List.map_eq_nil_iff] at hlate
      exact hlate
    subst hnil
    refine ⟨by decide, fun _ _ => le_rfl, iff_of_true ?_ ?_⟩
    · rw [hnext]
      intro o' rest hclosed
      have he := Script.pure_ok hclosed
      rcases hhow with ⟨-, rfl⟩ | ⟨-, -, rfl⟩ | ⟨-, -, ⟨hevents, -⟩ | ⟨-, hpolled, -⟩⟩
      · cases he
      · cases he
      · exact absurd BitVec.zero_and hevents
      · cases hpolled
    · exact .inr (not_polledUnread hcall hfirst)
  rw [hnext] at hlate ⊢
  rcases after with _ | ⟨p, after⟩
  · have hnil : late = [] := List.map_eq_nil_iff.mp hlate
    subst hnil
    exact ⟨by decide, fun _ _ => le_rfl,
      iff_of_true (by rintro _ _ ⟨⟩) (.inr (not_polledUnread hcall hfirst))⟩
  have hblocked : recvLoop call .poll [] = .error pollOneCall := rfl
  rw [Script.trace_cons hblocked (recvLoop_polled p)] at hlate
  obtain ⟨⟨s₃, c, p'⟩, log₂, rfl, hpoll, hlate₂⟩ := List.map_eq_cons_iff.mp hlate
  cases hpoll
  obtain ⟨harrives', s₄, ⟨hstay, hevents⟩, hlater₂⟩ := ByteStream.serves_cons hlater
  subst hstay
  have hcount : uninterrupted (((s₄, pollOneCall, p) :: log₂).map Prod.snd) =
      uninterrupted (log₂.map Prod.snd) := List.countP_cons_of_neg Bool.false_ne_true
  have hends : EndsReceived (early ++ (s₁, call, o) :: (s₄, pollOneCall, p) :: log₂) ↔
      EndsReceived log₂ := by
    have happend : early ++ (s₁, call, o) :: (s₄, pollOneCall, p) :: log₂ =
        (early ++ [(s₁, call, o)]) ++ (s₄, pollOneCall, p) :: log₂ := by
      rw [List.append_assoc]
      rfl
    rw [happend]
    exact endsReceived_polled
  rw [hcount, recvLoop_polled]
  rw [pollNext] at hlate₂ ⊢
  by_cases hneg : p.ret < 0
  · have hfail : (pollOneResult p).1 ≠ 0 := by
      rw [pollOneResult, if_pos hneg]
      exact xeGetNegErrnoVal_ne_zero _
    rw [if_pos hfail, Script.trace_of_ok rfl, List.map_eq_nil_iff] at hlate₂
    subst hlate₂
    rw [if_pos hfail]
    refine ⟨by decide, by rintro _ ⟨⟩, iff_of_true (by rintro _ _ ⟨⟩) (.inr ?_)⟩
    rintro ⟨-, hreceived⟩
    obtain ⟨x, hx, -⟩ := hends.mp hreceived
    cases hx
  · have hok : ¬ (pollOneResult p).1 ≠ 0 := by
      rw [pollOneResult, if_neg hneg]
      split <;> exact not_not_intro rfl
    rw [if_neg hok] at hlate₂ ⊢
    obtain ⟨hcalls, htwo, hblocked, hclosed⟩ :=
      second_round hlen hcall (hevents (Int.not_lt.mp hneg)) hlate₂ hlater₂
    refine ⟨Nat.succ_le_succ htwo, fun c herror => (hblocked c herror).symm ▸ le_rfl, ?_⟩
    -- The only `poll` is the one between the two rounds.
    have hunread : (∃ s q, (s, pollOneCall, q) ∈ early ++ (s₁, call, o) :: (s₄, pollOneCall, p) ::
        log₂ ∧ 0 ≤ q.ret ∧ s.unread ≠ []) ↔ s₄.unread ≠ [] := by
      constructor
      · rintro ⟨s₀, p₀, hmem, -, hne⟩
        rw [← List.singleton_append, ← List.append_assoc] at hmem
        rcases List.mem_append.mp hmem with hmem | hmem
        · exact absurd (hfirst _ hmem).symm hcall.ne_poll
        · rcases List.mem_cons.mp hmem with heq | hmem
          · cases heq
            exact hne
          · exact absurd (hcalls _ hmem).symm hcall.ne_poll
      · intro hne
        refine ⟨s₄, p, ?_, Int.not_lt.mp hneg, hne⟩
        exact List.mem_append_right _ (List.mem_cons_of_mem _ List.mem_cons_self)
    rw [hclosed, PolledUnread, hends, hunread]

end Loop

/-! ## The requests -/

/-- The handler marks the worker as closed by the peer. -/
def MarksClosed (slot : Nat) (r : HandlerResult) : Prop :=
  ∃ n : NetState, (n.sock slot).stateFlags.has MtFlags.remoteClosed = false ∧
    ((r.effect n).sock slot).stateFlags.has MtFlags.remoteClosed = true

theorem marksClosed_iff {req : MtRequest} {slot header : Nat} {e : RecvEnd} :
    MarksClosed slot (recvResult req slot header e) ↔ ∃ o, e = .remoteClosed o := by
  constructor
  · rintro ⟨n, hclear, hset⟩
    rcases e with errno | o | o | o | rc
    · exact absurd (hclear.symm.trans hset) Bool.false_ne_true
    · exact absurd (hclear.symm.trans hset) Bool.false_ne_true
    · exact ⟨o, rfl⟩
    · have hzero : (((recvFlags slot (.nothing o) n).sock slot).stateFlags) = 0 := by
        simp [recvFlags, NetState.modifySock]
      have hset' : ((recvFlags slot (.nothing o) n).sock slot).stateFlags.has
          MtFlags.remoteClosed = true := hset
      rw [hzero, MtFlags.has_zero] at hset'
      cases hset'
    · exact absurd (hclear.symm.trans hset) Bool.false_ne_true
  · rintro ⟨o, rfl⟩
    refine ⟨{}, MtFlags.has_zero _, ?_⟩
    have hflags : ((recvFlags slot (.remoteClosed o) {}).sock slot).stateFlags =
        MtFlags.remoteClosed := by
      simp [recvFlags, NetState.modifySock]
    show ((recvFlags slot (.remoteClosed o) {}).sock slot).stateFlags.has _ = true
    rw [hflags]
    decide

/-- The handler is at its end after two native receives that were not interrupted, and
it marks the worker as closed only when the stream, which is then in state `s'`, is over. -/
structure ClosesRightly (slot : Nat) (m : Native HandlerResult) (os : List Outcome)
    (s' : ByteStream) : Prop where
  receives : uninterrupted (Script.trace m os) ≤ 2
  ends : ∀ c, m os = .error c → uninterrupted (Script.trace m os) ≤ 1
  closed : ∀ r rest, m os = .ok (r, rest) → MarksClosed slot r → s'.Over

theorem closesRightly_iff {req : MtRequest} {slot header len : Nat} {call : NativeCall}
    {os : List Outcome} {s s' : ByteStream} {log : List (ByteStream × NativeCall × Outcome)}
    (hlen : len < 2 ^ 16) (hcall : Receives len call)
    (hlog : log.map Prod.snd = Script.trace
      (recvLoop call (.recv false 0) >>= fun e => pure (recvResult req slot header e)) os)
    (h : ByteStream.Serves s log s') :
    ClosesRightly slot
        (recvLoop call (.recv false 0) >>= fun e => pure (recvResult req slot header e)) os s' ↔
      len ≠ 0 ∨ ¬ PolledUnread log := by
  have hloop := hlog
  rw [Script.trace_bind_pure] at hloop
  obtain ⟨htwo, hone, hclosed⟩ := recvLoop_served hlen hcall hloop h
  rw [← hclosed]
  constructor
  · intro hright o rest hrun
    refine hright.closed (recvResult req slot header (.remoteClosed o)) rest ?_
      (marksClosed_iff.mpr ⟨o, rfl⟩)
    rw [Script.bind_run, hrun]
    rfl
  · intro hover
    refine ⟨?_, ?_, ?_⟩
    · rw [← hlog]
      exact htwo
    · intro c herror
      rw [← hlog]
      rw [Script.bind_run] at herror
      rcases hrun : recvLoop call (.recv false 0) os with c' | ⟨e, rest⟩
      · exact hone c' hrun
      · rw [hrun] at herror
        cases herror
    · intro r rest hrun hmarks
      obtain ⟨e, mid, hend, hret⟩ := Script.bind_ok hrun
      cases Script.pure_ok hret
      obtain ⟨o, rfl⟩ := marksClosed_iff.mp hmarks
      exact hover o mid hend

/-- A receive request is served in two receives, and it is right about the peer's close if
and only if it asks for bytes, or nothing is unread when it polls, or the receive after
that does not come to its end. -/
theorem remote_close_iff (clientId : BitVec 16) (req : MtRequest) (slot : Nat) (g : Globals)
    (os : List Outcome) (s s' : ByteStream) (log : List (ByteStream × NativeCall × Outcome))
    (ht : req.type = .socketRecv ∨ req.type = .socketRecvFrom) (hreq : req.requested < 2 ^ 16)
    (hlog : log.map Prod.snd = Script.trace (handler clientId req (some slot) g) os)
    (h : ByteStream.Serves s log s') :
    ClosesRightly slot (handler clientId req (some slot) g) os s' ↔
      req.requested ≠ 0 ∨ ¬ PolledUnread log := by
  rcases ht with ht | ht
  · have hhandler : handler clientId req (some slot) g = xeNetRecvSocket req slot := by
      rw [handler, ht]
      rfl
    rw [hhandler, xeNetRecvSocket] at hlog ⊢
    exact closesRightly_iff hreq (.inl ⟨_, _, rfl⟩) hlog h
  · have hhandler : handler clientId req (some slot) g = xeNetRecvfromSocket req slot := by
      rw [handler, ht]
      rfl
    rw [hhandler, xeNetRecvfromSocket] at hlog ⊢
    exact closesRightly_iff hreq (.inr ⟨_, _, rfl⟩) hlog h

/-- The stream while a receive is interrupted once and then returns nothing, as does the
receive after the `poll`. -/
def receivesNothing (s : ByteStream) (requested : Nat) :
    List (ByteStream × NativeCall × Outcome) :=
  let call := NativeCall.recv .worker requested (xeNetTranslateMsgFlags 0)
  [(s, call, { ret := -1, errno := eintr }), (s, call, { ret := 0 }),
    (s, pollOneCall, { ret := 1, revents := [pollIn] }), (s, call, { ret := 0 })]

theorem serves_receivesNothing {s : ByteStream} {requested : Nat} (hs : s.Readable)
    (hnothing : requested = 0 ∨ s.Over) :
    ByteStream.Serves s (receivesNothing s requested) s := by
  have hpoll : s.Answers pollOneCall { ret := 1, revents := [pollIn] } s :=
    ⟨rfl, fun _ => iff_of_true (by decide) hs⟩
  refine .call (.refl s) (.inl ⟨by decide, rfl⟩) (.call (.refl s) (.inr (.inl ⟨rfl, ?_, rfl⟩))
    (.call (.refl s) hpoll (.call (.refl s) (.inr (.inl ⟨rfl, ?_, rfl⟩)) (.nil s))))
  · exact hnothing
  · exact hnothing

/-- The peer has ended the stream, and five bytes are asked for. -/
theorem remote_close_iff_ended :
    ClosesRightly 0 (handler 1 (receiveOf 5) (some 0) {})
      ((receivesNothing ⟨[], true⟩ 5).map fun x => x.2.2) ⟨[], true⟩ :=
  (remote_close_iff 1 (receiveOf 5) 0 {} _ ⟨[], true⟩ ⟨[], true⟩ (receivesNothing ⟨[], true⟩ 5)
    (.inl rfl) (by decide) rfl
    (serves_receivesNothing (.inr rfl) (.inr ⟨rfl, rfl⟩))).mpr (.inl (by decide))

/-- One byte is unread, the stream is open, and none is asked for: the worker is marked. -/
theorem remote_close_mistaken :
    let m := handler 1 (receiveOf 0) (some 0) {}
    let log := receivesNothing ⟨[7], false⟩ 0
    ByteStream.Serves ⟨[7], false⟩ log ⟨[7], false⟩ ∧
      log.map Prod.snd = Script.trace m (log.map fun x => x.2.2) ∧
      (∃ r, m (log.map fun x => x.2.2) = .ok (r, []) ∧ MarksClosed 0 r) ∧
      ¬ ClosesRightly 0 m (log.map fun x => x.2.2) ⟨[7], false⟩ := by
  intro m log
  have hmarks : ∃ r, m (log.map fun x => x.2.2) = .ok (r, []) ∧ MarksClosed 0 r :=
    ⟨_, rfl, marksClosed_iff.mpr ⟨_, rfl⟩⟩
  refine ⟨serves_receivesNothing (.inl nofun) (.inl rfl), rfl, hmarks, ?_⟩
  intro hright
  obtain ⟨r, hrun, hmarks⟩ := hmarks
  have hover := hright.closed r [] hrun hmarks
  exact absurd hover.1 Bool.false_ne_true

end MagicWand.Ins
