import Mathlib.Data.List.Induction
import MagicWand.Kernel.Instances

/-!
# Poll aggregation

The poll monitor asks every INS for the sockets that have events
(`mwsocket_poll_handle_notifications`), and `mwsocket_poll` hands the events of
a socket to the caller. The replies are merged into the user sockets: each one
is applied to all the instances in the list, and every instance clears the
events of its user socket before it adds its own. So what is left is what the
last reply says about the last instance of the user socket.
-/

namespace MagicWand.Kernel

namespace Table

/-! ## The round -/

/-- The INSs that are asked, in the order of `ins`: those with an open socket.
Instances of a dead INS are taken out of the poll set. A domid of 0 is that of
an empty entry, so it is taken for one that is there already. -/
def pollTargets (mon : Nat) (t : Table) (domids : List (BitVec 16)) :
    List Nat → Table × List (BitVec 16)
  | [] => (t, domids)
  | c :: rest =>
      if !(t.sock c).insAlive then
        pollTargets mon { t with g := t.g.clearPollable c } domids rest
      else if decide (c = mon) ||
          (t.sock c).mwflags.has (MwFlags.closed ||| MwFlags.released) then
        pollTargets mon t domids rest
      else if domids.length = maxInsCount then (t, domids)
      else
        let domid := mwSocketClientId (t.sock c).remoteFd
        if domid = 0 ∨ domid ∈ domids then pollTargets mon t domids rest
        else pollTargets mon t (domids ++ [domid]) rest

/-- What comes of the query to one INS: it cannot be created or sent, its
response does not arrive in time, or it does. -/
inductive PollReply where
  | unsent
  | timedOut
  | arrived (resp : MtResponse)

def PollReply.isUnsent : PollReply → Bool
  | .unsent => true
  | _ => false

/-- The item of a response for a descriptor. -/
def itemFor (items : List MtPollsetItem) (fd : MwSocketFd) : Option MtPollsetItem :=
  items.find? fun it => it.sockfd = fd

/-- The body of the loop over the instances, for one instance. -/
def noteEvents (items : List MtPollsetItem) (t : Table) (c : Nat) : Table :=
  let u := (t.sock c).usersock
  let t := t.modifySock u fun s => { s with pollEvents := 0 }
  match itemFor items (t.sock c).remoteFd with
  | none => t
  | some it =>
      t.modifySock u fun s =>
        { s with pollEvents := s.pollEvents ||| it.events, pollActive := some c }

def noteAll (items : List MtPollsetItem) (t : Table) (l : List Nat) : Table :=
  l.foldl (noteEvents items) t

/-- The items that are processed: those of a response that is no error. -/
def PollReply.items : PollReply → List MtPollsetItem
  | .arrived resp => if resp.status < 0 then [] else resp.items
  | _ => []

def handleReply (t : Table) (reply : PollReply) : Table :=
  if reply.items = [] then t else t.noteAll reply.items t.sockinsts

/-- `mwsocket_poll_handle_notifications` of the monitor's own instance `mon`,
which has sent its queries and waits for their responses. -/
def mwsocketPollHandleNotifications (t : Table) (mon : Nat) (reply : BitVec 16 → PollReply) :
    Table :=
  let (t, domids) := t.pollTargets mon [] t.sockinsts
  if domids.any fun d => (reply d).isUnsent then t
  else (domids.map reply).foldl handleReply t

/-- `mwsocket_poll`: the events it returns are taken. -/
def mwsocketPoll (t : Table) (r : Nat) : Table × BitVec 32 :=
  (t.modifySock r fun s => { s with pollEvents := 0 }, (t.sock r).pollEvents)

/-! ## What was reported -/

/-- The non-empty reports of a round, in the order in which they are processed. -/
def reports (t : Table) (mon : Nat) (reply : BitVec 16 → PollReply) :
    List (List MtPollsetItem) :=
  let domids := (t.pollTargets mon [] t.sockinsts).2
  if domids.any fun d => (reply d).isUnsent then []
  else (domids.map fun d => (reply d).items).filter (· ≠ [])

/-- The user socket and its siblings. -/
def family (t : Table) (u : Nat) : List Nat :=
  t.sockinsts.filter fun c => (t.sock c).usersock = u

/-- The events that reports have for instances of a user socket. -/
def reportedFor (t : Table) (rs : List (List MtPollsetItem)) (u : Nat) : List (BitVec 32) :=
  rs.flatMap fun items => (t.family u).flatMap fun c =>
    (items.filter fun it => it.sockfd = (t.sock c).remoteFd).map MtPollsetItem.events

/-- The bitwise OR of some events. -/
def orAll (es : List (BitVec 32)) : BitVec 32 := es.foldr (· ||| ·) 0

/-- After the round, `t'`, the user socket has the events reported for it by any
INS, and its active socket is one that events were reported for. -/
structure Aggregated (t t' : Table) (rs : List (List MtPollsetItem)) (u : Nat) : Prop where
  events : (t'.sock u).pollEvents = orAll (t.reportedFor rs u)
  active : t.reportedFor rs u ≠ [] → ∃ c ∈ t.family u, (t'.sock u).pollActive = some c ∧
    ∃ items ∈ rs, ∃ it ∈ items, it.sockfd = (t.sock c).remoteFd

/-- The events that a report gives first for the last instance of the user
socket in the list. -/
def lastWord (t : Table) (items : List MtPollsetItem) (u : Nat) : BitVec 32 :=
  match (t.family u).getLast? with
  | some c => ((itemFor items (t.sock c).remoteFd).map MtPollsetItem.events).getD 0
  | none => 0

/-- The last report repeats, for the last instance of the user socket, all the
events reported for it; without a report, no event is left from before. -/
def LastReportCovers (t : Table) (rs : List (List MtPollsetItem)) (u : Nat) : Prop :=
  match rs.getLast? with
  | some items => ∀ e ∈ t.reportedFor rs u, e ||| t.lastWord items u = t.lastWord items u
  | none => (t.sock u).pollEvents = 0

/-! ## One report -/

theorem sock_modifySock_self (t : Table) (r : Nat) (f : SockInst → SockInst) :
    (t.modifySock r f).sock r = f (t.sock r) := Globals.modifySock_socks_self t.g r f

theorem sock_modifySock_ne (t : Table) {r r' : Nat} (f : SockInst → SockInst) (h : r' ≠ r) :
    (t.modifySock r f).sock r' = t.sock r' := Globals.modifySock_socks_ne t.g f h

/-- What identifies an instance among the sockets of an INS. -/
def identity (s : SockInst) : MwSocketFd × Nat := (s.remoteFd, s.usersock)

/-- The instances are the same, and belong to the same user sockets. -/
structure SameSockets (t t' : Table) : Prop where
  sockinsts : t'.sockinsts = t.sockinsts
  identity : ∀ c, identity (t'.sock c) = identity (t.sock c)

namespace SameSockets

variable {t t' t'' : Table}

theorem refl (t : Table) : SameSockets t t := ⟨rfl, fun _ => rfl⟩

theorem trans (h : SameSockets t t') (h' : SameSockets t' t'') : SameSockets t t'' :=
  ⟨h'.sockinsts.trans h.sockinsts, fun c => (h'.identity c).trans (h.identity c)⟩

theorem usersock (h : SameSockets t t') (c : Nat) :
    (t'.sock c).usersock = (t.sock c).usersock := congrArg Prod.snd (h.identity c)

theorem remoteFd (h : SameSockets t t') (c : Nat) :
    (t'.sock c).remoteFd = (t.sock c).remoteFd := congrArg Prod.fst (h.identity c)

theorem family (h : SameSockets t t') (u : Nat) : t'.family u = t.family u := by
  rw [Table.family, Table.family, h.sockinsts]
  exact List.filter_congr fun c _ => by rw [h.usersock]

theorem modifySock (t : Table) (r : Nat) {f : SockInst → SockInst}
    (hf : ∀ s, Table.identity (f s) = Table.identity s) : SameSockets t (t.modifySock r f) := by
  refine ⟨rfl, fun c => ?_⟩
  by_cases hc : c = r
  · subst hc
    rw [sock_modifySock_self]
    exact hf _
  · rw [sock_modifySock_ne t f hc]

end SameSockets

theorem noteEvents_same (items : List MtPollsetItem) (t : Table) (c : Nat) :
    SameSockets t (noteEvents items t c) := by
  unfold noteEvents
  simp only []
  have hclear : SameSockets t (t.modifySock (t.sock c).usersock fun s =>
      { s with pollEvents := 0 }) := SameSockets.modifySock t _ fun _ => rfl
  split
  · exact hclear
  · exact hclear.trans (SameSockets.modifySock _ _ fun _ => rfl)

/-- What one instance does to the events of its user socket. -/
theorem noteEvents_self (items : List MtPollsetItem) (t : Table) (c : Nat) :
    ((noteEvents items t c).sock (t.sock c).usersock).pollEvents =
        ((itemFor items (t.sock c).remoteFd).map MtPollsetItem.events).getD 0 ∧
      ((noteEvents items t c).sock (t.sock c).usersock).pollActive =
        if (itemFor items (t.sock c).remoteFd).isSome then some c
        else (t.sock (t.sock c).usersock).pollActive := by
  have hclear : SameSockets t (t.modifySock (t.sock c).usersock fun s =>
      { s with pollEvents := 0 }) := SameSockets.modifySock t _ fun _ => rfl
  have hfd := hclear.remoteFd c
  unfold noteEvents
  simp only [hfd]
  cases itemFor items (t.sock c).remoteFd with
  | none => simp [sock_modifySock_self]
  | some it => simp [sock_modifySock_self]

/-- It leaves the other user sockets alone. -/
theorem noteEvents_ne (items : List MtPollsetItem) (t : Table) {c u : Nat}
    (h : (t.sock c).usersock ≠ u) : (noteEvents items t c).sock u = t.sock u := by
  have hne : u ≠ (t.sock c).usersock := Ne.symm h
  unfold noteEvents
  simp only []
  split
  · exact sock_modifySock_ne t _ hne
  · rw [sock_modifySock_ne _ _ hne, sock_modifySock_ne t _ hne]

theorem noteAll_concat (items : List MtPollsetItem) (t : Table) (l : List Nat) (c : Nat) :
    t.noteAll items (l ++ [c]) = noteEvents items (t.noteAll items l) c := by
  rw [noteAll, List.foldl_append]
  rfl

theorem noteAll_same (items : List MtPollsetItem) (t : Table) (l : List Nat) :
    SameSockets t (t.noteAll items l) := by
  induction l using List.reverseRecOn with
  | nil => exact SameSockets.refl t
  | append_singleton l c ih =>
      rw [noteAll_concat]
      exact ih.trans (noteEvents_same items _ c)

/-- The events after a report are those of the last instance of the user socket. -/
theorem noteAll_events (items : List MtPollsetItem) (t : Table) (u : Nat) (l : List Nat) :
    ((t.noteAll items l).sock u).pollEvents =
      match (l.filter fun c => (t.sock c).usersock = u).getLast? with
      | some c => ((itemFor items (t.sock c).remoteFd).map MtPollsetItem.events).getD 0
      | none => (t.sock u).pollEvents := by
  induction l using List.reverseRecOn with
  | nil => rfl
  | append_singleton l c ih =>
      have hsame := noteAll_same items t l
      rw [noteAll_concat, List.filter_append]
      by_cases hu : (t.sock c).usersock = u
      · have hself := (noteEvents_self items (t.noteAll items l) c).1
        rw [hsame.usersock, hsame.remoteFd, hu] at hself
        rw [hself]
        simp [hu]
      · rw [noteEvents_ne items _ (by rw [hsame.usersock]; exact hu), ih]
        simp [hu]

/-- The active socket after a report is one that the report names, if it names
one of the user socket's. -/
theorem noteAll_active (items : List MtPollsetItem) (t : Table) (u : Nat) (l : List Nat) :
    ((∃ c ∈ l, (t.sock c).usersock = u ∧ (itemFor items (t.sock c).remoteFd).isSome = true) →
      ∃ c ∈ l, (t.sock c).usersock = u ∧ (itemFor items (t.sock c).remoteFd).isSome = true ∧
        ((t.noteAll items l).sock u).pollActive = some c) ∧
    ((∀ c ∈ l, (t.sock c).usersock = u → (itemFor items (t.sock c).remoteFd).isSome = false) →
      ((t.noteAll items l).sock u).pollActive = (t.sock u).pollActive) := by
  induction l using List.reverseRecOn with
  | nil => exact ⟨fun ⟨c, hc, _⟩ => (by cases hc), fun _ => rfl⟩
  | append_singleton l c ih =>
      have hsame := noteAll_same items t l
      rw [noteAll_concat]
      by_cases hu : (t.sock c).usersock = u
      · have hself := (noteEvents_self items (t.noteAll items l) c).2
        rw [hsame.usersock, hsame.remoteFd, hu] at hself
        rw [hself]
        cases hitem : (itemFor items (t.sock c).remoteFd).isSome with
        | true =>
            refine ⟨fun _ => ⟨c, by simp, hu, hitem, by simp⟩, fun hno => ?_⟩
            rw [hno c (by simp) hu] at hitem
            cases hitem
        | false =>
            simp only [Bool.false_eq_true, if_false]
            refine ⟨fun ⟨c', hc', hu', hsome⟩ => ?_, fun hno =>
              ih.2 fun c' hc' => hno c' (List.mem_append_left _ hc')⟩
            rcases List.mem_append.mp hc' with hc' | hc'
            · obtain ⟨c'', hc'', hrest⟩ := ih.1 ⟨c', hc', hu', hsome⟩
              exact ⟨c'', List.mem_append_left _ hc'', hrest⟩
            · cases List.mem_singleton.mp hc'
              rw [hitem] at hsome
              cases hsome
      · rw [noteEvents_ne items _ (by rw [hsame.usersock]; exact hu)]
        refine ⟨fun ⟨c', hc', hu', hsome⟩ => ?_, fun hno =>
          ih.2 fun c' hc' => hno c' (List.mem_append_left _ hc')⟩
        rcases List.mem_append.mp hc' with hc' | hc'
        · obtain ⟨c'', hc'', hrest⟩ := ih.1 ⟨c', hc', hu', hsome⟩
          exact ⟨c'', List.mem_append_left _ hc'', hrest⟩
        · cases List.mem_singleton.mp hc'
          exact absurd hu' hu

/-! ## All reports -/

def noteReports (t : Table) (rs : List (List MtPollsetItem)) : Table :=
  rs.foldl (fun t items => t.noteAll items t.sockinsts) t

theorem noteReports_concat (t : Table) (rs : List (List MtPollsetItem))
    (items : List MtPollsetItem) : t.noteReports (rs ++ [items]) =
      (t.noteReports rs).noteAll items (t.noteReports rs).sockinsts := by
  rw [noteReports, List.foldl_append]
  rfl

theorem noteReports_same (t : Table) (rs : List (List MtPollsetItem)) :
    SameSockets t (t.noteReports rs) := by
  induction rs using List.reverseRecOn with
  | nil => exact SameSockets.refl t
  | append_singleton rs items ih =>
      rw [noteReports_concat]
      exact ih.trans (noteAll_same items _ _)

/-- Empty reports are skipped. -/
theorem foldl_handleReply (reply : BitVec 16 → PollReply) (domids : List (BitVec 16)) (t : Table) :
    (domids.map reply).foldl handleReply t =
      t.noteReports ((domids.map fun d => (reply d).items).filter (· ≠ [])) := by
  induction domids generalizing t with
  | nil => rfl
  | cons d domids ih =>
      rw [List.map_cons, List.foldl_cons, ih, List.map_cons, List.filter_cons]
      by_cases hd : (reply d).items = []
      · simp [handleReply, hd]
      · simp [handleReply, hd, noteReports]

/-- The last report decides. -/
theorem noteReports_events (t : Table) {u : Nat} (hu : t.family u ≠ [])
    (rs : List (List MtPollsetItem)) : ((t.noteReports rs).sock u).pollEvents =
      match rs.getLast? with
      | some items => t.lastWord items u
      | none => (t.sock u).pollEvents := by
  induction rs using List.reverseRecOn with
  | nil => rfl
  | append_singleton rs items ih =>
      have hsame := noteReports_same t rs
      have hfamily := hsame.family u
      obtain ⟨c, hc⟩ : ∃ c, (t.family u).getLast? = some c :=
        ⟨_, List.getLast?_eq_some_getLast hu⟩
      rw [noteReports_concat, noteAll_events]
      rw [show ((t.noteReports rs).sockinsts.filter fun c =>
        ((t.noteReports rs).sock c).usersock = u) = t.family u from hfamily]
      simp only [List.getLast?_concat, lastWord, hc, hsame.remoteFd]

theorem itemFor_isSome {items : List MtPollsetItem} {fd : MwSocketFd} :
    (itemFor items fd).isSome = true ↔ ∃ it ∈ items, it.sockfd = fd := by
  simp [itemFor, List.find?_isSome]

/-- The active socket is the last one that a report names. -/
theorem noteReports_active (t : Table) (u : Nat) (rs : List (List MtPollsetItem))
    (h : ∃ items ∈ rs, ∃ c ∈ t.family u, ∃ it ∈ items, it.sockfd = (t.sock c).remoteFd) :
    ∃ c ∈ t.family u, ((t.noteReports rs).sock u).pollActive = some c ∧
      ∃ items ∈ rs, ∃ it ∈ items, it.sockfd = (t.sock c).remoteFd := by
  induction rs using List.reverseRecOn with
  | nil =>
      obtain ⟨items, hitems, -⟩ := h
      cases hitems
  | append_singleton rs items ih =>
      have hsame := noteReports_same t rs
      have hmem : ∀ c, c ∈ t.family u ↔
          c ∈ (t.noteReports rs).sockinsts ∧ ((t.noteReports rs).sock c).usersock = u := by
        intro c
        rw [← hsame.family u, family, List.mem_filter, decide_eq_true_iff]
      obtain ⟨hnamed, hother⟩ := noteAll_active items (t.noteReports rs) u
        (t.noteReports rs).sockinsts
      rw [noteReports_concat]
      by_cases hlast : ∃ c ∈ t.family u, ∃ it ∈ items, it.sockfd = (t.sock c).remoteFd
      · obtain ⟨c, hc, hit⟩ := hlast
        obtain ⟨hin, hu⟩ := (hmem c).mp hc
        obtain ⟨c', hin', hu', hsome', hactive⟩ :=
          hnamed ⟨c, hin, hu, by rw [hsame.remoteFd]; exact itemFor_isSome.mpr hit⟩
        rw [hsame.remoteFd] at hsome'
        exact ⟨c', (hmem c').mpr ⟨hin', hu'⟩, hactive, items, by simp,
          itemFor_isSome.mp hsome'⟩
      · have hsilent : ∀ c ∈ (t.noteReports rs).sockinsts,
            ((t.noteReports rs).sock c).usersock = u →
            (itemFor items ((t.noteReports rs).sock c).remoteFd).isSome = false := by
          intro c hin hu
          rw [hsame.remoteFd, Bool.eq_false_iff]
          intro hsome
          exact hlast ⟨c, (hmem c).mpr ⟨hin, hu⟩, itemFor_isSome.mp hsome⟩
        rw [hother hsilent]
        obtain ⟨items', hitems', hnames⟩ := h
        have hmem' : items' ∈ rs := by
          rcases List.mem_append.mp hitems' with hrs | hrs
          · exact hrs
          · cases List.mem_singleton.mp hrs
            exact absurd hnames hlast
        obtain ⟨c, hc, hactive, items'', hrs, hit⟩ := ih ⟨items', hmem', hnames⟩
        exact ⟨c, hc, hactive, items'', List.mem_append_left _ hrs, hit⟩

/-! ## The INSs asked -/

/-- Choosing the INSs changes nothing of the sockets but whether they are polled. -/
theorem pollTargets_same (mon : Nat) (l : List Nat) (t : Table) (domids : List (BitVec 16)) :
    SameSockets t (t.pollTargets mon domids l).1 ∧
      ∀ c, ((t.pollTargets mon domids l).1.sock c).pollEvents = (t.sock c).pollEvents := by
  have hclear : ∀ (t : Table) c, SameSockets t { t with g := t.g.clearPollable c } ∧
      ∀ c', (Table.sock { t with g := t.g.clearPollable c } c').pollEvents =
        (t.sock c').pollEvents := by
    intro t c
    have hsock : ∀ c', ∃ flags, (t.g.clearPollable c).socks c' =
        { t.g.socks c' with mwflags := flags } := by
      intro c'
      unfold Globals.clearPollable
      split
      · by_cases hc : c' = c
        · subst hc
          exact ⟨(t.g.socks c').mwflags &&& ~~~MwFlags.pollable, by simp [Globals.modifySock]⟩
        · exact ⟨(t.g.socks c').mwflags, by simp [Globals.modifySock, hc]⟩
      · exact ⟨_, rfl⟩
    refine ⟨⟨rfl, fun c' => ?_⟩, fun c' => ?_⟩
    · obtain ⟨flags, hflags⟩ := hsock c'
      simp only [Table.sock, hflags, identity]
    · obtain ⟨flags, hflags⟩ := hsock c'
      simp only [Table.sock, hflags]
  induction l generalizing t domids with
  | nil => exact ⟨SameSockets.refl t, fun _ => rfl⟩
  | cons c rest ih =>
      rw [pollTargets]
      split
      · obtain ⟨hsame, hevents⟩ := hclear t c
        obtain ⟨hsame', hevents'⟩ := ih { t with g := t.g.clearPollable c } domids
        exact ⟨hsame.trans hsame', fun c' => (hevents' c').trans (hevents c')⟩
      split
      · exact ih t domids
      split
      · exact ⟨SameSockets.refl t, fun _ => rfl⟩
      simp only []
      split
      · exact ih t domids
      · exact ih t (domids ++ [_])

/-- A round notes the reports, in order. -/
theorem mwsocketPollHandleNotifications_eq (t : Table) (mon : Nat)
    (reply : BitVec 16 → PollReply) : t.mwsocketPollHandleNotifications mon reply =
      (t.pollTargets mon [] t.sockinsts).1.noteReports (t.reports mon reply) := by
  simp only [mwsocketPollHandleNotifications, reports]
  split
  · rfl
  · exact foldl_handleReply reply _ _

/-! ## Events as sets of bits -/

theorem or_orAll {e : BitVec 32} {es : List (BitVec 32)} (h : e ∈ es) :
    e ||| orAll es = orAll es := by
  induction es with
  | nil => cases h
  | cons e' es ih =>
      rcases List.mem_cons.mp h with rfl | h
      · show e ||| (e ||| orAll es) = e ||| orAll es
        rw [← BitVec.or_assoc, BitVec.or_self]
      · show e ||| (e' ||| orAll es) = e' ||| orAll es
        rw [← BitVec.or_assoc, BitVec.or_comm e e', BitVec.or_assoc, ih h]

theorem orAll_or {f : BitVec 32} {es : List (BitVec 32)} (h : ∀ e ∈ es, e ||| f = f) :
    orAll es ||| f = f := by
  induction es with
  | nil => exact BitVec.zero_or
  | cons e es ih =>
      show e ||| orAll es ||| f = f
      rw [BitVec.or_assoc, ih fun e' he' => h e' (List.mem_cons_of_mem _ he'),
        h e List.mem_cons_self]

/-- Some events that are reported are all of them when they contain each one. -/
theorem eq_orAll_iff {f : BitVec 32} {es : List (BitVec 32)} (hf : f = 0 ∨ f ∈ es) :
    f = orAll es ↔ ∀ e ∈ es, e ||| f = f := by
  constructor
  · rintro rfl e he
    exact or_orAll he
  · intro h
    have hle : f ||| orAll es = orAll es := by
      rcases hf with rfl | hf
      · exact BitVec.zero_or
      · exact or_orAll hf
    rw [← hle, BitVec.or_comm, orAll_or h]

theorem lastWord_reported (t : Table) {rs : List (List MtPollsetItem)} {u : Nat}
    {items : List MtPollsetItem} (hitems : items ∈ rs) :
    t.lastWord items u = 0 ∨ t.lastWord items u ∈ t.reportedFor rs u := by
  unfold lastWord
  cases hlast : (t.family u).getLast? with
  | none => exact .inl rfl
  | some c =>
      have hc : c ∈ t.family u := List.mem_of_getLast? hlast
      cases hit : itemFor items (t.sock c).remoteFd with
      | none => exact .inl (by simp [hit])
      | some it =>
          right
          have hmem := List.mem_of_find?_eq_some hit
          have hfd := List.find?_some hit
          simp only [hit, Option.map_some, Option.getD_some]
          refine List.mem_flatMap.mpr ⟨items, hitems, List.mem_flatMap.mpr ⟨c, hc, ?_⟩⟩
          exact List.mem_map.mpr ⟨it, List.mem_filter.mpr ⟨hmem, hfd⟩, rfl⟩

/-- **Poll aggregation.** For every table of instances and all replies, a user
socket has the aggregated events after a round if and only if the last report
covers all of them. -/
theorem aggregated_iff (t : Table) (mon : Nat) (reply : BitVec 16 → PollReply) (u : Nat)
    (hu : u ∈ t.sockinsts) (huser : (t.sock u).usersock = u) :
    Aggregated t (t.mwsocketPollHandleNotifications mon reply) (t.reports mon reply) u ↔
      LastReportCovers t (t.reports mon reply) u := by
  obtain ⟨hsame, hevents⟩ := pollTargets_same mon t.sockinsts t []
  have hfamily : t.family u ≠ [] :=
    List.ne_nil_of_mem (List.mem_filter.mpr ⟨hu, decide_eq_true huser⟩)
  rw [mwsocketPollHandleNotifications_eq]
  generalize t.reports mon reply = rs
  generalize (t.pollTargets mon [] t.sockinsts).1 = t₀ at hsame hevents
  have hwords : ∀ items, t₀.lastWord items u = t.lastWord items u := by
    intro items
    simp only [lastWord, hsame.family u, hsame.remoteFd]
  have hfinal : ((t₀.noteReports rs).sock u).pollEvents = match rs.getLast? with
      | some items => t.lastWord items u
      | none => (t.sock u).pollEvents := by
    rw [noteReports_events t₀ (by rw [hsame.family u]; exact hfamily)]
    simp only [hwords, hevents]
  have hcovers : ((t₀.noteReports rs).sock u).pollEvents = orAll (t.reportedFor rs u) ↔
      LastReportCovers t rs u := by
    rw [hfinal, LastReportCovers]
    cases hlast : rs.getLast? with
    | none =>
        have hnil : rs = [] := List.getLast?_eq_none_iff.mp hlast
        rw [hnil]
        rfl
    | some items => exact eq_orAll_iff (lastWord_reported t (List.mem_of_getLast? hlast))
  refine ⟨fun h => hcovers.mp h.events, fun h => ⟨hcovers.mpr h, fun hsome => ?_⟩⟩
  obtain ⟨e, he⟩ := List.exists_mem_of_ne_nil _ hsome
  obtain ⟨items, hitems, he⟩ := List.mem_flatMap.mp he
  obtain ⟨c, hc, he⟩ := List.mem_flatMap.mp he
  obtain ⟨it, hit, -⟩ := List.mem_map.mp he
  obtain ⟨hit, hfd⟩ := List.mem_filter.mp hit
  obtain ⟨c', hc', hactive, items', hitems', hnames⟩ := noteReports_active t₀ u rs
    ⟨items, hitems, c, by rw [hsame.family u]; exact hc, it, hit,
      by rw [hsame.remoteFd]; exact of_decide_eq_true hfd⟩
  rw [hsame.family u] at hc'
  rw [hsame.remoteFd] at hnames
  exact ⟨c', hc', hactive, items', hitems', hnames⟩

/-! ## Two INSs -/

/-- The monitor's instance, and two user sockets on INSs 1 and 2. -/
def twoSockets : Table where
  g :=
    { socks := fun r => match r with
        | 1 => { usersock := 1, remoteFd := mwSocketCreate 1 0, mwflags := MwFlags.user }
        | 2 => { usersock := 2, remoteFd := mwSocketCreate 2 0, mwflags := MwFlags.user }
        | r => { usersock := r } }
  sockinsts := [2, 1, 0]
  nextSock := 3

/-- The response of an INS that has an event for one socket. -/
def pollResponse (fd : MwSocketFd) : PollReply :=
  .arrived { type := .of .pollsetQuery, items := [{ sockfd := fd, events := Globals.pollIn }] }

/-- Only INS 1 has an event. -/
def oneEvent (d : BitVec 16) : PollReply :=
  if d = 1 then pollResponse (mwSocketCreate 1 0) else .arrived {}

theorem aggregated_oneEvent :
    Aggregated twoSockets (twoSockets.mwsocketPollHandleNotifications 0 oneEvent)
      (twoSockets.reports 0 oneEvent) 1 := by
  have hreports : twoSockets.reports 0 oneEvent =
      [[{ sockfd := mwSocketCreate 1 0, events := Globals.pollIn }]] := by
    decide +kernel
  have hfor : twoSockets.reportedFor
      [[{ sockfd := mwSocketCreate 1 0, events := Globals.pollIn }]] 1 = [Globals.pollIn] := by
    decide +kernel
  have hword : twoSockets.lastWord
      [{ sockfd := mwSocketCreate 1 0, events := Globals.pollIn }] 1 = Globals.pollIn := by
    decide +kernel
  refine (aggregated_iff twoSockets 0 oneEvent 1 (by decide) (by decide +kernel)).mpr ?_
  rw [hreports]
  simp only [LastReportCovers, List.getLast?_singleton, hfor, hword, List.mem_singleton]
  rintro e rfl
  exact BitVec.or_self

/-- Both INSs have an event for one socket each. The response of INS 2 is
processed first, and that of INS 1 clears the event of its socket: `poll` on it
reports nothing. -/
theorem events_lost : ∃ reply : BitVec 16 → PollReply,
    twoSockets.reportedFor (twoSockets.reports 0 reply) 2 = [Globals.pollIn] ∧
      ((twoSockets.mwsocketPollHandleNotifications 0 reply).mwsocketPoll 2).2 = 0 ∧
      ¬ Aggregated twoSockets (twoSockets.mwsocketPollHandleNotifications 0 reply)
        (twoSockets.reports 0 reply) 2 := by
  refine ⟨fun d => pollResponse (mwSocketCreate d 0), by decide +kernel, by decide +kernel,
    fun h => ?_⟩
  have hevents := h.events
  revert hevents
  decide +kernel

end Table

end MagicWand.Kernel
