import Switchboard.Proofs.Succession

/-!
# Lanes

What one step of the hub does to the requests that wait, to the answers it owes and to the
registry. The request that is handled next is the first of its lane, and if one waits in a lane
before it, the look has missed that lane (`next?_first`, `next?_foremost`).

`Hub.Keeps` compares two hubs by what requests can tell of them. Steps that are not the hub's own
change nothing of that but that a request may have been issued.
-/

namespace Switchboard

open Exchange

/-- What is told of a history that goes on by one. -/
theorem filterMap_snoc {α β : Type} (f : α → Option β) (past : List α) (a : α) :
    (past ++ [a]).filterMap f = past.filterMap f ++ (f a).toList := by
  rw [List.filterMap_append]
  cases h : f a with
  | none => simp [h]
  | some b => simp [h]

/-! ## The registry -/

/-- The topics that an entry has once a request is handled. -/
def Request.retopic (r : Request) (e : Entry) : List Topic :=
  match r with
  | .subscribe user c topics =>
    if e.userId = user ∧ e.connection = c then topics.foldl addTopic e.topics else e.topics
  | .unsubscribe user c topics =>
    if e.userId = user ∧ e.connection = c then e.topics.filter fun t => !topics.contains t
    else e.topics
  | _ => e.topics

theorem Exchange.mem_foldl_addTopic {topics current : List Topic} {t : Topic} :
    t ∈ topics.foldl addTopic current ↔ t ∈ current ∨ t ∈ topics := by
  induction topics generalizing current with
  | nil => simp
  | cons t' topics ih =>
    have hone : t ∈ addTopic current t' ↔ t ∈ current ∨ t = t' := by
      unfold addTopic
      split
      · rename_i hc
        have hc : t' ∈ current := List.contains_iff_mem.mp hc
        constructor
        · exact Or.inl
        · rintro (hm | rfl)
          · exact hm
          · exact hc
      · rw [List.mem_append, List.mem_singleton]
    rw [List.foldl_cons, ih, hone, List.mem_cons, or_assoc]

namespace Request

variable {r : Request} {e : Entry} {t : Topic}

/-- A connection goes on listening to a topic until it is unsubscribed from it. -/
theorem mem_retopic (h : t ∈ e.topics)
    (hn : ∀ gone, r = .unsubscribe e.userId e.connection gone → t ∉ gone) : t ∈ r.retopic e := by
  cases r with
  | subscribe user c topics =>
    unfold retopic
    dsimp only
    split
    · exact mem_foldl_addTopic.mpr (Or.inl h)
    · exact h
  | unsubscribe user c gone =>
    unfold retopic
    dsimp only
    split
    · rename_i hself
      obtain ⟨rfl, rfl⟩ := hself
      exact List.mem_filter.mpr ⟨h, by simpa using hn gone rfl⟩
    · exact h
  | register | unregister | dispatch | isOnline | onlineCount | shutdown => exact h

/-- A connection listens to no topic that it is not subscribed to. -/
theorem not_mem_retopic (h : t ∉ e.topics)
    (hn : ∀ topics, r = .subscribe e.userId e.connection topics → t ∉ topics) :
    t ∉ r.retopic e := by
  cases r with
  | subscribe user c topics =>
    unfold retopic
    dsimp only
    split
    · rename_i hself
      obtain ⟨rfl, rfl⟩ := hself
      intro hm
      rcases mem_foldl_addTopic.mp hm with hm | hm
      · exact h hm
      · exact hn topics rfl hm
    · exact h
  | unsubscribe user c gone =>
    unfold retopic
    dsimp only
    split
    · exact fun hm => h (List.mem_filter.mp hm).1
    · exact h
  | register | unregister | dispatch | isOnline | onlineCount | shutdown => exact h

/-- Only requests of the last lane change what anybody listens to. -/
theorem retopic_of_lane (hl : r.lane ≠ .control) : r.retopic e = e.topics := by
  cases r with
  | register | unregister | dispatch => rfl
  | subscribe | unsubscribe | isOnline | onlineCount | shutdown => exact absurd rfl hl

end Request

namespace Handling

variable {x y : Exchange} {log : List Sending}

/-- Whoever is in the registry has just registered or was there, and listens to what the request
has made of what it listened to. -/
theorem mem {r : Request} (h : Handling x r log y) {e : Entry} (he : e ∈ y.registry) :
    (∃ reg, r = .register reg ∧ e = reg.entry) ∨
      ∃ e₀ ∈ x.registry, e₀.registration = e.registration ∧ e.topics = r.retopic e₀ := by
  cases h with
  | @join _ reg _ time hf hs =>
    have hm : e ∈ x.registry ++ [reg.entry] := hs.linked.sublist.subset he
    rcases List.mem_append.mp hm with hm | hm
    · exact Or.inr ⟨e, hm, rfl, rfl⟩
    · exact Or.inl ⟨reg, rfl, List.mem_singleton.mp hm⟩
  | @replace reg previous hf =>
    rw [register_replace hf] at he
    rcases List.mem_append.mp he with hm | hm
    · exact Or.inr ⟨e, (mem_depart.mp hm).1, rfl, rfl⟩
    · exact Or.inl ⟨reg, rfl, List.mem_singleton.mp hm⟩
  | @leave _ _ _ e₁ _ hf ha =>
    have hm : e ∈ (x.discharge e₁).registry := ha.linked.sublist.subset he
    exact Or.inr ⟨e, (mem_depart.mp hm).1, rfl, rfl⟩
  | stay hf => exact Or.inr ⟨e, he, rfl, rfl⟩
  | deliver hs => exact Or.inr ⟨e, hs.linked.sublist.subset he, rfl, rfl⟩
  | subscribe user c topics => exact Or.inr (mem_updateTopics he)
  | unsubscribe user c topics => exact Or.inr (mem_updateTopics he)

theorem uniqueUsers {r : Request} (h : Handling x r log y) (hx : x.UniqueUsers) :
    y.UniqueUsers := by
  cases h with
  | @join _ reg _ time hf hs =>
    have ha : (x.welcome reg).UniqueUsers := uniqueUsers_insert hx hf
    exact ha.sublist hs.linked.sublist
  | @replace reg previous hf =>
    rw [register_replace hf]
    have hd : (x.depart previous).UniqueUsers := hx.sublist List.filter_sublist
    refine uniqueUsers_insert hd ?_
    rw [find?_eq_none]
    intro e he
    rw [← userId_of_find? hf]
    exact (mem_depart.mp he).2
  | @leave _ _ _ e₁ _ hf ha =>
    have hd : (x.discharge e₁).UniqueUsers := hx.sublist List.filter_sublist
    exact hd.sublist ha.linked.sublist
  | stay hf => exact hx
  | deliver hs => exact hx.sublist hs.linked.sublist
  | subscribe user c topics => exact uniqueUsers_updateTopics hx user c _
  | unsubscribe user c topics => exact uniqueUsers_updateTopics hx user c _

/-- A connection that has been unregistered is not in the registry. -/
theorem unregistered {user : String} {c : ConnectionId}
    (h : Handling x (.unregister user c) log y) (hx : x.UniqueUsers) {e : Entry}
    (he : e ∈ y.registry) : e ∈ x.registry ∧ ¬ (e.userId = user ∧ e.connection = c) := by
  cases h with
  | @leave _ _ _ e₁ _ hf ha =>
    have hm : e ∈ (x.discharge e₁).registry := ha.linked.sublist.subset he
    obtain ⟨hm, hu⟩ := mem_depart.mp hm
    refine ⟨hm, fun heq => hu ?_⟩
    rw [heq.1, userId_of_find? (findConnection?_eq_some.mp hf).1]
  | stay hf =>
    refine ⟨he, fun ⟨hu, hc⟩ => ?_⟩
    cases hx' : x.find? user with
    | none => exact find?_eq_none.mp hx' e he hu
    | some e' =>
      have := hx.eq_of_userId (mem_of_find? hx') he ((userId_of_find? hx').trans hu.symm)
      subst this
      rw [findConnection?_eq_some.mpr ⟨hx', hc⟩] at hf
      simp at hf

end Handling

/-- Sendings put out nobody who could take them all. -/
theorem Linked.mem {x y : Exchange} {log : List Sending} (h : Linked x log y) {e : Entry}
    (he : e ∈ x.registry) :
    e ∈ y.registry ∨ ∃ s ∈ log, s.before.refuses s.target e = true := by
  induction h with
  | nil x => exact Or.inl he
  | @cons s log y _ ih =>
    by_cases hr : s.before.refuses s.target e = true
    · exact Or.inr ⟨s, List.mem_cons_self, hr⟩
    · rcases ih (Sending.mem_after.mpr ⟨he, Bool.eq_false_iff.mpr hr⟩) with hy | ⟨t, ht, htr⟩
      · exact Or.inl hy
      · exact Or.inr ⟨t, List.mem_cons_of_mem s ht, htr⟩

/-! ## How many queues there are -/

/-- How many queues there have been. -/
def Exchange.queueCount (x : Exchange) : Nat := x.mail.queues.length

theorem Exchange.queueCount_modify (x : Exchange) (q : QueueId) (f : Queue → Queue) :
    ({ x with mail := x.mail.modify q f } : Exchange).queueCount = x.queueCount :=
  List.length_modify _ _ _

theorem Linked.queueCount {x y : Exchange} {log : List Sending} (h : Linked x log y) :
    y.queueCount = x.queueCount := by
  induction h with
  | nil x => rfl
  | @cons s log y _ ih =>
    rw [ih]
    exact List.length_mapIdx

theorem Handling.queueCount {x y : Exchange} {r : Request} {log : List Sending}
    (h : Handling x r log y) : y.queueCount = x.queueCount := by
  cases h with
  | join time hf hs => exact hs.linked.queueCount
  | replace hf =>
    rw [register_replace hf]
    exact queueCount_modify x _ _
  | leave hf ha => exact ha.linked.queueCount.trans (queueCount_modify x _ _)
  | stay hf => rfl
  | deliver hs => exact hs.linked.queueCount
  | subscribe user c topics => rfl
  | unsubscribe user c topics => rfl

/-! ## What comes first -/

/-- How many lanes are before this one. -/
def Lane.rank : Lane → Nat
  | registration => 0
  | unregistration => 1
  | delivery => 2
  | control => 3

theorem Lane.pairwise_all : Lane.all.Pairwise fun l l' => l.rank < l'.rank := by decide

theorem Lane.mem_all (l : Lane) : l ∈ Lane.all := by cases l <;> decide

theorem Lane.rank_le_control (l : Lane) : l.rank ≤ Lane.control.rank := by cases l <;> decide

theorem Lane.rank_injective {l l' : Lane} (h : l.rank = l'.rank) : l = l' := by
  cases l <;> cases l' <;> first | rfl | cases h

namespace Hub

variable {h : Hub} {missed : List Lane} {t : Ticket} {r : Request}

/-- The next request is the first of its lane, and the lanes before it are empty or missed. -/
theorem next?_spec (hn : h.next? missed = some (t, r)) :
    (∃ before after, h.pending = before ++ (t, r) :: after ∧
      ∀ p ∈ before, p.2.lane ≠ r.lane) ∧
    r.lane ∉ missed ∧
    ∀ p ∈ h.pending, p.2.lane ∉ missed → r.lane.rank ≤ p.2.lane.rank := by
  obtain ⟨l₁, l, l₂, hl, hf, hnone⟩ := List.findSome?_eq_some_iff.mp hn
  rw [Option.ite_none_left_eq_some] at hf
  obtain ⟨hseen, hf⟩ := hf
  obtain ⟨hlane, before, after, hp, hb⟩ := List.find?_eq_some_iff_append.mp hf
  have hlane : r.lane = l := by simpa using hlane
  refine ⟨⟨before, after, hp, fun p hm heq => ?_⟩, hlane ▸ hseen, fun p hm hin => ?_⟩
  · have := hb p hm
    simp [heq, hlane] at this
  · rw [hlane]
    have hall := Lane.mem_all p.2.lane
    have hpw := Lane.pairwise_all
    rw [hl] at hall hpw
    rcases List.mem_append.mp hall with hbefore | hafter
    · -- the lanes before have been searched in vain
      have hempty := hnone _ hbefore
      rw [if_neg hin] at hempty
      have := List.find?_eq_none.mp hempty p hm
      simp at this
    · rcases List.mem_cons.mp hafter with heq | hafter
      · exact Nat.le_of_eq (congrArg Lane.rank heq.symm)
      · exact Nat.le_of_lt ((List.pairwise_cons.mp (List.pairwise_append.mp hpw).2.1).1 _ hafter)

/-- A request that waits in a lane before that of the next one has been missed. -/
theorem next?_foremost (hn : h.next? missed = some (t, r)) {p : Ticket × Request}
    (hp : p ∈ h.pending) (hin : p.2.lane ∉ missed) : r.lane.rank ≤ p.2.lane.rank :=
  (next?_spec hn).2.2 p hp hin

/-- No request of its lane was issued before the next one and still waits. -/
theorem next?_first (hn : h.next? missed = some (t, r))
    (hs : h.pending.Pairwise fun p p' => p.1 < p'.1) {p : Ticket × Request} (hp : p ∈ h.pending)
    (hl : p.2.lane = r.lane) : t ≤ p.1 := by
  obtain ⟨⟨before, after, heq, hb⟩, -⟩ := next?_spec hn
  rw [heq] at hs hp
  rcases List.mem_append.mp hp with hm | hm
  · exact absurd hl (hb p hm)
  · rcases List.mem_cons.mp hm with rfl | hm
    · exact Nat.le_refl _
    · exact Nat.le_of_lt ((List.pairwise_cons.mp (List.pairwise_append.mp hs).2.1).1 p hm)

/-- A look finds something if it does not miss everything that waits. -/
theorem next?_isSome {p : Ticket × Request} (hp : p ∈ h.pending) (hin : p.2.lane ∉ missed) :
    (h.next? missed).isSome = true := by
  by_contra hn
  rw [Option.not_isSome_iff_eq_none] at hn
  have hempty := List.findSome?_eq_none_iff.mp hn _ (Lane.mem_all p.2.lane)
  rw [if_neg hin] at hempty
  have := List.find?_eq_none.mp hempty p hp
  simp at this

theorem pending_eq_nil (hs : h.step? [] = none) : h.pending = [] := by
  rw [List.eq_nil_iff_forall_not_mem]
  intro p hp
  obtain ⟨q, hq⟩ := Option.isSome_iff_exists.mp (next?_isSome hp List.not_mem_nil)
  unfold step? at hs
  rw [hq] at hs
  cases hs

theorem step?_eq_some {g : Hub} (hs : h.step? missed = some g) :
    ∃ t r, h.next? missed = some (t, r) ∧ g = (h.take t).handle t r := by
  unfold step? at hs
  split at hs
  · simp at hs
  · rename_i t r hn
    exact ⟨t, r, hn, (Option.some.inj hs).symm⟩

/-! ## What requests can tell of a hub -/

/--
`h.Keeps g`: to those who wait for the hub, `g` is `h`, but that it may have told some of them that
it is unavailable. The ends of queues may differ.
-/
structure Keeps (h g : Hub) : Prop where
  registry : g.exchange.registry = h.exchange.registry
  running : g.running = h.running
  pending : g.pending = h.pending
  nextTicket : g.nextTicket = h.nextTicket
  answers : ∀ p ∈ g.answers, p ∈ h.answers ∨ p.2 = .unavailable
  queueCount : h.exchange.queueCount ≤ g.exchange.queueCount

theorem Keeps.refl (h : Hub) : h.Keeps h :=
  ⟨rfl, rfl, rfl, rfl, fun _ hp => Or.inl hp, Nat.le_refl _⟩

theorem Keeps.trans {h g k : Hub} (hg : h.Keeps g) (gk : g.Keeps k) : h.Keeps k where
  registry := gk.registry.trans hg.registry
  running := gk.running.trans hg.running
  pending := gk.pending.trans hg.pending
  nextTicket := gk.nextTicket.trans hg.nextTicket
  answers := by
    intro p hp
    rcases gk.answers p hp with hp | hp
    · exact hg.answers p hp
    · exact Or.inr hp
  queueCount := Nat.le_trans hg.queueCount gk.queueCount

theorem keeps_update (h : Hub) {f : Exchange → Exchange}
    (hr : (f h.exchange).registry = h.exchange.registry)
    (hq : h.exchange.queueCount ≤ (f h.exchange).queueCount) : h.Keeps (h.update f) :=
  ⟨hr, rfl, rfl, rfl, fun _ hp => Or.inl hp, hq⟩

theorem keeps_withMail (h : Hub) {mail : Mail}
    (hl : h.exchange.mail.queues.length ≤ mail.queues.length) :
    h.Keeps (h.update fun x => { x with mail }) := h.keeps_update rfl hl

theorem keeps_release (h : Hub) (q : QueueId) : h.Keeps (h.update (·.release q)) :=
  h.keeps_update rfl (Nat.le_of_eq (queueCount_modify _ _ _).symm)

theorem mem_answers_reply {h : Hub} {t : Ticket} {a : Answer} {p : Ticket × Answer}
    (hp : p ∈ (h.reply t a).answers) : p ∈ h.answers ∨ p = (t, a) :=
  (List.mem_cons.mp hp).symm

theorem mem_answers_of_answer? {h : Hub} {t : Ticket} {a : Answer} (ha : h.answer? t = some a) :
    (t, a) ∈ h.answers := by
  obtain ⟨l₁, l₂, hl, -⟩ := List.lookup_eq_some_iff.mp ha
  rw [hl]
  exact List.mem_append_right _ List.mem_cons_self

theorem keeps_reply (h : Hub) (t : Ticket) : h.Keeps (h.reply t .unavailable) := by
  refine ⟨rfl, rfl, rfl, rfl, fun p hp => ?_, Nat.le_refl _⟩
  rcases mem_answers_reply hp with hp | rfl
  · exact Or.inl hp
  · exact Or.inr rfl

theorem keeps_abandon (h : Hub) (t : Ticket) (r : Request) : h.Keeps (h.abandon t r) := by
  cases r with
  | register reg => exact (h.keeps_release reg.queue).trans (keeps_reply _ t)
  | unregister | dispatch | shutdown => exact .refl h
  | subscribe | unsubscribe | isOnline | onlineCount => exact h.keeps_reply t

/-- A hub that has been asked something, as far as it gets to know of it. -/
def enter (h : Hub) : Option Request → Hub
  | none => h
  | some r =>
    { h with
      nextTicket := h.nextTicket + 1
      pending := if h.running then h.pending ++ [(h.nextTicket, r)] else h.pending }

@[simp] theorem exchange_enter (h : Hub) (r : Option Request) :
    (h.enter r).exchange = h.exchange := by
  cases r <;> rfl

@[simp] theorem running_enter (h : Hub) (r : Option Request) :
    (h.enter r).running = h.running := by
  cases r <;> rfl

/-- What waits has waited or is what has just been asked. -/
theorem mem_pending_enter {h : Hub} {r : Option Request} {p : Ticket × Request}
    (hp : p ∈ (h.enter r).pending) : p ∈ h.pending ∨ (p.1 = h.nextTicket ∧ r = some p.2) := by
  cases r with
  | none => exact Or.inl hp
  | some r =>
    unfold enter at hp
    dsimp only at hp
    split at hp
    · rcases List.mem_append.mp hp with hp | hp
      · exact Or.inl hp
      · obtain rfl := List.mem_singleton.mp hp
        exact Or.inr ⟨rfl, rfl⟩
    · exact Or.inl hp

theorem mem_enter_of_mem {h : Hub} {p : Ticket × Request} (hp : p ∈ h.pending)
    (r : Option Request) : p ∈ (h.enter r).pending := by
  cases r with
  | none => exact hp
  | some r =>
    unfold enter
    dsimp only
    split
    · exact List.mem_append_left _ hp
    · exact hp

theorem mem_enter_self {h : Hub} (hrun : h.running = true) (r : Request) :
    (h.nextTicket, r) ∈ (h.enter (some r)).pending := by
  unfold enter
  dsimp only
  rw [if_pos hrun]
  exact List.mem_append_right _ (List.mem_singleton.mpr rfl)

theorem Keeps.enter {h g : Hub} (hg : h.Keeps g) (r : Option Request) :
    (h.enter r).Keeps (g.enter r) := by
  cases r with
  | none => exact hg
  | some r =>
    refine ⟨hg.registry, hg.running, ?_, congrArg (· + 1) hg.nextTicket, hg.answers,
      hg.queueCount⟩
    unfold Hub.enter
    rw [hg.running, hg.pending, hg.nextTicket]

theorem keeps_issue (h : Hub) (r : Request) : (h.enter (some r)).Keeps (h.issue r).2 := by
  unfold issue enter
  cases hr : h.running with
  | true => exact .refl _
  | false => exact keeps_abandon _ _ _

/-- A hub that has stopped holds nobody, and nothing waits for it. -/
theorem keeps_stop (h : Hub) :
    ({ h with exchange := { h.exchange with registry := [] }, running := false, pending := [] }
      : Hub).Keeps h.stop := by
  -- abandoning what waits only answers that the hub is unavailable
  have fold : ∀ (waiting : List (Ticket × Request)) (g : Hub),
      g.Keeps (waiting.foldl (fun g (p : Ticket × Request) => g.abandon p.1 p.2) g) := by
    intro waiting
    induction waiting with
    | nil => intro g; exact .refl g
    | cons p waiting ih => intro g; exact (g.keeps_abandon p.1 p.2).trans (ih _)
  refine Keeps.trans ?_ (fold h.pending _)
  exact ⟨rfl, rfl, rfl, rfl, fun _ hp => Or.inl hp, Nat.le_of_eq List.length_mapIdx.symm⟩

/-! ## Handling -/

/-- What a hub that goes on has after handling a request. -/
structure Handled (h : Hub) (t : Ticket) (r : Request) (g : Hub) : Prop where
  exchange : g.exchange = h.exchange.handled r
  running : g.running = h.running
  pending : g.pending = h.pending.filter (·.1 ≠ t)
  nextTicket : g.nextTicket = h.nextTicket
  answers : ∀ p ∈ g.answers, p ∈ h.answers ∨ p.1 = t

theorem handled_handle (h : Hub) (t : Ticket) {r : Request} (hr : r ≠ .shutdown) :
    h.Handled t r ((h.take t).handle t r) := by
  have replied : ∀ (g : Hub) (a : Answer) (p : Ticket × Answer), p ∈ (g.reply t a).answers →
      p ∈ g.answers ∨ p.1 = t := by
    intro g a p hp
    rcases mem_answers_reply hp with hp | rfl
    · exact Or.inl hp
    · exact Or.inr rfl
  cases r with
  | shutdown => exact absurd rfl hr
  | unregister | dispatch => exact ⟨rfl, rfl, rfl, rfl, fun p hp => Or.inl hp⟩
  | register | subscribe | unsubscribe | isOnline | onlineCount =>
    exact ⟨rfl, rfl, rfl, rfl, fun p hp => replied _ _ p hp⟩

end Hub

namespace Exchange

variable {x : Exchange}

/-- As `Handling.mem`, for any request. -/
theorem mem_handled {r : Request} {e : Entry} (he : e ∈ (x.handled r).registry) :
    (∃ reg, r = .register reg ∧ e = reg.entry) ∨
      ∃ e₀ ∈ x.registry, e₀.registration = e.registration ∧ e.topics = r.retopic e₀ := by
  by_cases hr : r.isExchange
  · obtain ⟨log, h⟩ := handling_handled x hr
    exact h.mem he
  · cases r <;> first | exact absurd rfl hr | exact Or.inr ⟨e, he, rfl, rfl⟩

theorem uniqueUsers_handled (h : x.UniqueUsers) (r : Request) : (x.handled r).UniqueUsers := by
  by_cases hr : r.isExchange
  · obtain ⟨log, hh⟩ := handling_handled x hr
    exact hh.uniqueUsers h
  · cases r <;> first | exact absurd rfl hr | exact h

theorem findConnection?_eq_none (h : x.UniqueUsers) {user : String} {c : ConnectionId} :
    x.findConnection? user c = none ↔
      ∀ e ∈ x.registry, ¬ (e.userId = user ∧ e.connection = c) := by
  constructor
  · intro hn e he ⟨hu, hc⟩
    cases hx : x.find? user with
    | none => exact find?_eq_none.mp hx e he hu
    | some e' =>
      obtain rfl := h.eq_of_userId (mem_of_find? hx) he ((userId_of_find? hx).trans hu.symm)
      rw [findConnection?_eq_some.mpr ⟨hx, hc⟩] at hn
      cases hn
  · intro hall
    cases hx : x.findConnection? user c with
    | none => rfl
    | some e =>
      obtain ⟨hf, hc⟩ := findConnection?_eq_some.mp hx
      exact absurd ⟨userId_of_find? hf, hc⟩ (hall e (mem_of_find? hf))

theorem queueCount_handled (x : Exchange) (r : Request) :
    (x.handled r).queueCount = x.queueCount := by
  by_cases hr : r.isExchange
  · obtain ⟨log, hh⟩ := handling_handled x hr
    exact hh.queueCount
  · cases r <;> first | exact absurd rfl hr | rfl

end Exchange

end Switchboard
