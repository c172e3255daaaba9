import Mathlib.Data.List.Pairwise
import Switchboard.Proofs.Tickets

/-!
# Accounts

Who has registered. A connection hands its queue over with its registration, so it can register
once at most, and from then on its reader remembers the user that the hub may have an entry for.
Both are set before the request is issued: there is no moment at which a registration is on its way
and the connection does not know of it. `Accounted` says so, and that every entry in the registry
goes back to such a registration.
-/

namespace Switchboard

open Exchange

/-- The connection that a request registers. -/
def Request.registrant? : Request → Option ConnectionId
  | register reg => some reg.connection
  | _ => none

theorem Request.registrant?_eq_some {r : Request} {k : ConnectionId} :
    r.registrant? = some k ↔ ∃ reg, r = .register reg ∧ reg.connection = k := by
  cases r with
  | register reg => simp [registrant?]
  | _ => simp [registrant?]

/-! ## How stands change -/

theorem stand?_update {w v : World} {k k' : ConnectionId} {s s' : Stand}
    (h : v.stand? = Function.update w.stand? k (some s)) (hs : v.stand? k' = some s') :
    (k' = k ∧ s' = s) ∨ (k' ≠ k ∧ w.stand? k' = some s') := by
  rw [h, Function.update_apply] at hs
  split at hs
  · rename_i hk
    exact Or.inl ⟨hk, (Option.some.inj hs).symm⟩
  · rename_i hk
    exact Or.inr ⟨hk, hs⟩

/-- What may have become of a connection that stood at `s` before a move. -/
inductive Stand.Becomes (m : Moment) (k : ConnectionId) (s : Stand) : Stand → Prop
  | same : Becomes m k s s
  | turn {r : Reader} :
      m.move = .act (.reader k) → s.isServing = true → Turn m k s.queue s.reader m.request? r →
      Becomes m k s { s with reader := r }
  | part {half : Connection.Half} :
      m.move = .act (.client k half) → s.isServing = true →
      m.request? = s.reader.registered.map (fun user => .unregister user k) →
      Becomes m k s { s with isServing := false }

theorem Stand.Becomes.queue {m : Moment} {k : ConnectionId} {s s' : Stand}
    (h : s.Becomes m k s') : s'.queue = s.queue := by
  cases h <;> rfl

/-- A connection is opened by a move, with a queue of its own. -/
structure Opens (m : Moment) (v : World) (k : ConnectionId) (s : Stand) : Prop where
  reader : s.reader = .start
  queue : s.queue = m.hub.exchange.queueCount
  counted : m.hub.exchange.queueCount < v.site.hub.exchange.queueCount
  /-- No other is. -/
  only : ∀ k' s', v.stand? k' = some s' → k' = k ∨ m.world.stand? k' = some s'

namespace Change

variable {m : Moment} {v : World} {k : ConnectionId} {s : Stand}

/-- A connection was there before a move, or has just been opened. -/
theorem before (h : Change m v) (hs : v.stand? k = some s) :
    (∃ s₀, m.world.stand? k = some s₀ ∧ s₀.Becomes m k s) ∨ Opens m v k s := by
  cases h with
  | turn hm hs₀ hserv hturn heq =>
    rcases stand?_update heq hs with ⟨rfl, rfl⟩ | ⟨-, hs⟩
    · exact Or.inl ⟨_, hs₀, .turn hm hserv hturn⟩
    · exact Or.inl ⟨s, hs, .same⟩
  | part hm hs₀ hserv hr heq =>
    rcases stand?_update heq hs with ⟨rfl, rfl⟩ | ⟨-, hs⟩
    · exact Or.inl ⟨_, hs₀, .part hm hserv hr⟩
    · exact Or.inl ⟨s, hs, .same⟩
  | connect isServing hr hnone heq hlt =>
    rcases stand?_update heq hs with ⟨rfl, rfl⟩ | ⟨-, hs⟩
    · refine Or.inr ⟨rfl, rfl, hlt, fun k' s' hs' => ?_⟩
      rcases stand?_update heq hs' with ⟨hk, -⟩ | ⟨-, hs'⟩
      · exact Or.inl hk
      · exact Or.inr hs'
    · exact Or.inl ⟨s, hs, .same⟩
  | stay hr heq =>
    rw [heq] at hs
    exact Or.inl ⟨s, hs, .same⟩

/-- No connection is lost by a move. -/
theorem after (h : Change m v) (hs : m.world.stand? k = some s) :
    ∃ s', v.stand? k = some s' ∧ s.Becomes m k s' := by
  cases h with
  | @turn k' s₀ r hm hs₀ hserv hturn heq =>
    by_cases hk : k = k'
    · subst hk
      obtain rfl := Option.some.inj (hs.symm.trans hs₀)
      exact ⟨_, heq ▸ Function.update_self k _ _, .turn hm hserv hturn⟩
    · exact ⟨s, (heq ▸ Function.update_of_ne hk _ _ : v.stand? k = _).trans hs, .same⟩
  | @part k' _ s₀ hm hs₀ hserv hr heq =>
    by_cases hk : k = k'
    · subst hk
      obtain rfl := Option.some.inj (hs.symm.trans hs₀)
      exact ⟨_, heq ▸ Function.update_self k _ _, .part hm hserv hr⟩
    · exact ⟨s, (heq ▸ Function.update_of_ne hk _ _ : v.stand? k = _).trans hs, .same⟩
  | @connect k' isServing hr hnone heq hlt =>
    by_cases hk : k = k'
    · subst hk
      rw [hnone] at hs
      simp at hs
    · exact ⟨s, (heq ▸ Function.update_of_ne hk _ _ : v.stand? k = _).trans hs, .same⟩
  | stay hr heq => exact ⟨s, heq ▸ hs, .same⟩

end Change

namespace Effect

variable {m : Moment} {v : World} {k : ConnectionId} {s : Stand}

theorem before (h : Effect m v) (hs : v.stand? k = some s) :
    (∃ s₀, m.world.stand? k = some s₀ ∧ s₀.Becomes m k s) ∨ Opens m v k s := by
  cases h with
  | handle hm hn hh heq => exact Or.inl ⟨s, heq ▸ hs, .same⟩
  | stop hm hn hk heq => exact Or.inl ⟨s, heq ▸ hs, .same⟩
  | other hn hk hc => exact hc.before hs

theorem after (h : Effect m v) (hs : m.world.stand? k = some s) :
    ∃ s', v.stand? k = some s' ∧ s.Becomes m k s' := by
  cases h with
  | handle hm hn hh heq => exact ⟨s, heq ▸ hs, .same⟩
  | stop hm hn hk heq => exact ⟨s, heq ▸ hs, .same⟩
  | other hn hk hc => exact hc.after hs

theorem calm (h : Effect m v) (hw : m.world.Calm) : v.Calm := by
  intro k s hs p hp
  rcases h.before hs with ⟨s₀, hs₀, hb⟩ | ho
  · cases hb with
    | same => exact hw k s hs₀ p hp
    | part hm hserv hr => exact hw k s₀ hs₀ p hp
    | turn hm hserv hturn =>
      generalize m.request? = asked at hturn
      cases hturn with
      | rest hr =>
        rcases hr.task with ht | ht
        · exact hw k s₀ hs₀ p (ht.symm.trans hp)
        · rw [hp] at ht
          exact Bool.noConfusion ht
      | name | allow | deny | subscribe | unsubscribe | register | welcome => cases hp
  · rw [ho.reader] at hp
    cases hp

theorem queueCount_le (h : Effect m v) :
    m.hub.exchange.queueCount ≤ v.site.hub.exchange.queueCount := by
  cases h with
  | handle hm hn hh heq =>
    rw [hh.exchange]
    exact Nat.le_of_eq (queueCount_handled _ _).symm
  | stop hm hn hk heq => exact hk.queueCount
  | other hn hk hc =>
    have := hk.queueCount
    rwa [Hub.exchange_enter] at this

/-- A user has one entry at most, whatever is asked of the hub. -/
theorem uniqueUsers (h : Effect m v) (hx : m.hub.exchange.UniqueUsers) :
    v.site.hub.exchange.UniqueUsers := by
  cases h with
  | handle _ _ hh _ =>
    rw [hh.exchange]
    exact uniqueUsers_handled hx _
  | stop _ _ hk _ =>
    unfold UniqueUsers
    rw [hk.registry]
    exact List.nodup_nil
  | other _ hk _ =>
    unfold UniqueUsers
    rw [hk.registry, Hub.exchange_enter]
    exact hx

end Effect

theorem Moment.ne_hub_of_request? {m : Moment} {r : Request} (hr : m.request? = some r)
    (missed : List Lane) : m.move ≠ .act (.hub missed) := by
  intro hm
  unfold Moment.request? at hr
  rw [hm] at hr
  cases hr

/-- What the hub has no part in. -/
theorem Effect.of_ne_hub {m : Moment} {v : World} (h : Effect m v)
    (hm : ∀ missed, m.move ≠ .act (.hub missed)) :
    (m.hub.enter m.request?).Keeps v.site.hub ∧ Change m v := by
  cases h with
  | handle hm' _ _ _ => exact absurd hm' (hm _)
  | stop hm' _ _ _ => exact absurd hm' (hm _)
  | other _ hk hc => exact ⟨hk, hc⟩

/-- Whatever the hub is asked comes from outside, is asked by a reader in its turn, or takes a
connection's leave. -/
theorem Effect.source {m : Moment} {v : World} {r : Request} (h : Effect m v)
    (hr : m.request? = some r) :
    m.move = .undergo (.issue r) ∨
      (∃ k s reader, m.move = .act (.reader k) ∧ m.world.stand? k = some s ∧
        s.isServing = true ∧ Turn m k s.queue s.reader (some r) reader ∧
        v.stand? k = some { s with reader }) ∨
      ∃ k user, r = .unregister user k := by
  cases (h.of_ne_hub (Moment.ne_hub_of_request? hr)).2 with
  | turn hm hs hserv hturn heq =>
    refine Or.inr (Or.inl ⟨_, _, _, hm, hs, hserv, hr ▸ hturn, ?_⟩)
    rw [heq]
    exact Function.update_self _ _ _
  | part hm hs hserv hreq heq =>
    rw [hr] at hreq
    obtain ⟨user, -, rfl⟩ := Option.map_eq_some_iff.mp hreq.symm
    exact Or.inr (Or.inr ⟨_, user, rfl⟩)
  | connect isServing hnone _ _ _ =>
    rw [hr] at hnone
    cases hnone
  | stay hissue heq => exact Or.inl (hissue r hr)

/-- What a turn does to what the reader knows of its registration. -/
theorem Turn.account {m : Moment} {k : ConnectionId} {q : QueueId} {r r' : Reader}
    {asked : Option Request} (h : Turn m k q r asked r') :
    ((∀ reg, asked ≠ some (.register reg)) ∧ r'.holdsQueue = r.holdsQueue ∧
        r'.registered = r.registered) ∨
      ∃ i, asked = some (.register ⟨k, i, q⟩) ∧ m.Validates k i ∧ r.holdsQueue = true ∧
        r'.holdsQueue = false ∧ r'.registered = some i.userId := by
  cases h with
  | rest hr => exact Or.inl ⟨by simp, hr.holdsQueue, hr.registered⟩
  | @register i hq hv => exact Or.inr ⟨i, rfl, hv, hq, rfl, rfl⟩
  | name | allow | deny | subscribe | unsubscribe | welcome => exact Or.inl ⟨by simp, rfl, rfl⟩

/-- A connection that registers has its queue before, and not after. -/
structure Registers (m : Moment) (v : World) (reg : Registration) (s s' : Stand) : Prop where
  validates : m.Validates reg.connection reg.identity
  before : m.world.stand? reg.connection = some s
  after : v.stand? reg.connection = some s'
  isServing : s.isServing = true
  holdsQueue : s.reader.holdsQueue = true
  handsOver : s'.reader.holdsQueue = false
  registered : s'.reader.registered = some reg.identity.userId
  queue : s'.queue = reg.queue

/-- Only a connection's own reader registers it. -/
theorem Effect.registers {m : Moment} {v : World} {reg : Registration} (h : Effect m v)
    (hc : ∀ r, m.move = .undergo (.issue r) → r.registrant? = none)
    (hr : m.request? = some (.register reg)) : ∃ s s', Registers m v reg s s' := by
  rcases h.source hr with hmove | ⟨k, s, reader, -, hs, hserv, hturn, hafter⟩ |
    ⟨k, user, hleave⟩
  · have := hc _ hmove
    cases this
  · rcases hturn.account with ⟨hne, -, -⟩ | ⟨i, hreq, hv, hq, hq', hreg⟩
    · exact absurd rfl (hne reg)
    · obtain rfl := Request.register.inj (Option.some.inj hreq)
      exact ⟨s, _, hv, hs, hafter, hserv, hq, hq', hreg, rfl⟩
  · cases hleave

/-! ## Registrations -/

/-- What the connections and the registry say of registrations agrees with what has happened. -/
structure Accounted (past : List Moment) (w : World) : Prop where
  calm : w.Calm
  users : w.site.hub.exchange.UniqueUsers
  /-- Whoever has registered has handed its queue over and knows for whom. -/
  registered : ∀ reg, .register reg ∈ ledger past → ∃ s, w.stand? reg.connection = some s ∧
    s.reader.holdsQueue = false ∧ s.reader.registered = some reg.identity.userId ∧
    s.queue = reg.queue
  once : ((ledger past).filterMap Request.registrant?).Nodup
  /-- Every entry was brought in by a registration. -/
  entries : ∀ e ∈ w.site.hub.exchange.registry, .register e.registration ∈ ledger past

namespace Accounted

variable {past : List Moment} {m : Moment} {v : World}

theorem mem_registry (h : Accounted past m.world) (hb : Booked past m.hub) (he : Effect m v)
    {e : Entry} (hm : e ∈ v.site.hub.exchange.registry) :
    .register e.registration ∈ ledger past := by
  cases he with
  | @handle _ t r _ hn hh _ =>
    rw [hh.exchange] at hm
    rcases mem_handled hm with ⟨reg, rfl, rfl⟩ | ⟨e₀, he₀, heq, -⟩
    · -- what is handled was waiting, and what waits was asked
      have := hb.pending _ (Hub.mem_pending_of_next? hn)
      exact List.mem_of_getElem? this
    · rw [← heq]
      exact h.entries e₀ he₀
  | stop _ _ hk _ =>
    rw [hk.registry] at hm
    simp at hm
  | other _ hk _ =>
    rw [hk.registry, Hub.exchange_enter] at hm
    exact h.entries e hm

/-- Whoever has registered is not changed by what happens later, since it cannot do so again. -/
theorem still_registered (h : Accounted past m.world) (he : Effect m v) {reg : Registration}
    (hreg : .register reg ∈ ledger past) : ∃ s, v.stand? reg.connection = some s ∧
      s.reader.holdsQueue = false ∧ s.reader.registered = some reg.identity.userId ∧
      s.queue = reg.queue := by
  obtain ⟨s, hs, hq, hu, hqueue⟩ := h.registered reg hreg
  obtain ⟨s', hs', hbec⟩ := he.after hs
  cases hbec with
  | same => exact ⟨s, hs', hq, hu, hqueue⟩
  | part _ _ _ => exact ⟨_, hs', hq, hu, hqueue⟩
  | turn _ _ hturn =>
    rcases hturn.account with ⟨-, hq', hu'⟩ | ⟨i, -, -, hhold, -, -⟩
    · exact ⟨_, hs', hq'.trans hq, hu'.trans hu, hqueue⟩
    · rw [hq] at hhold
      exact Bool.noConfusion hhold

/-- Whoever registers has not registered before: its queue was still its own. -/
theorem not_mem_of_registers (h : Accounted past m.world) {reg : Registration} {s s' : Stand}
    (hr : Registers m v reg s s') :
    reg.connection ∉ (ledger past).filterMap Request.registrant? := by
  intro hk
  obtain ⟨r, hmem, hrk⟩ := List.mem_filterMap.mp hk
  obtain ⟨reg₀, rfl, hreg⟩ := Request.registrant?_eq_some.mp hrk
  obtain ⟨s₀, hs₀, hq, -, -⟩ := h.registered reg₀ hmem
  rw [hreg] at hs₀
  obtain rfl := Option.some.inj (hr.before.symm.trans hs₀)
  rw [hr.holdsQueue] at hq
  exact Bool.noConfusion hq

theorem step (h : Accounted past m.world) (hb : Booked past m.hub) (he : Effect m v)
    (hc : ∀ r, m.move = .undergo (.issue r) → r.registrant? = none) :
    Accounted (past ++ [m]) v := by
  have hl := ledger_snoc past m
  refine ⟨he.calm h.calm, he.uniqueUsers h.users, ?_, ?_, ?_⟩
  · intro reg hreg
    rw [hl] at hreg
    rcases List.mem_append.mp hreg with hreg | hreg
    · exact h.still_registered he hreg
    · obtain ⟨s, s', hr⟩ := he.registers hc (Option.mem_toList.mp hreg)
      exact ⟨s', hr.after, hr.handsOver, hr.registered, hr.queue⟩
  · rw [hl, List.filterMap_append]
    cases hr : m.request? with
    | none =>
      show (_ ++ []).Nodup
      rw [List.append_nil]
      exact h.once
    | some r =>
      show (_ ++ [r].filterMap Request.registrant?).Nodup
      cases hk : r.registrant? with
      | none =>
        rw [List.filterMap_cons_none hk, List.filterMap_nil, List.append_nil]
        exact h.once
      | some k =>
        obtain ⟨reg, rfl, rfl⟩ := Request.registrant?_eq_some.mp hk
        obtain ⟨s, s', hnew⟩ := he.registers hc hr
        rw [List.filterMap_cons_some hk, List.filterMap_nil, ← List.concat_eq_append]
        exact h.once.concat (h.not_mem_of_registers hnew)
  · intro e hm
    rw [hl]
    exact List.mem_append_left _ (h.mem_registry hb he hm)

/-- A connection has one registration. -/
theorem eq_of_connection {w : World} (h : Accounted past w) {reg reg' : Registration}
    (hreg : .register reg ∈ ledger past) (hreg' : .register reg' ∈ ledger past)
    (hk : reg.connection = reg'.connection) : reg = reg' := by
  have hpw := List.pairwise_filterMap.mp h.once
  by_contra hne
  have hne' : Request.register reg ≠ Request.register reg' := fun heq =>
    hne (Request.register.inj heq)
  have hsymm : Std.Symm fun r r' : Request => ∀ k, r.registrant? = some k →
      ∀ k', r'.registrant? = some k' → k ≠ k' :=
    ⟨fun r r' hr k hk k' hk' heq => hr k' hk' k hk heq.symm⟩
  exact hpw.forall hreg hreg' hne' reg.connection rfl reg'.connection rfl hk

/-- The books and the accounts are kept from one world on to another. -/
theorem course {callers : Request → Prop} {w : World} {later : List Moment}
    (hc : ∀ r, callers r → r.registrant? = none) (h : Course callers w later v)
    (ha : Accounted past w) (hb : Booked past w.site.hub) :
    Accounted (past ++ later) v ∧ Booked (past ++ later) v.site.hub := by
  induction h with
  | start =>
    rw [List.append_nil]
    exact ⟨ha, hb⟩
  | @move later u v mv hcourse hcall hmove ih =>
    obtain ⟨ha, hb⟩ := ih
    have he := effect_of_move ha.calm hmove
    rw [← List.append_assoc]
    exact ⟨ha.step hb he fun r hr => hc r (hcall r hr), Booked.step (m := ⟨u, mv⟩) hb he⟩

theorem start (service : Service) (now : Instant) (clock : Time.Timestamp) :
    Accounted [] (.start service now clock) ∧
      Booked [] (World.start service now clock).site.hub := by
  refine ⟨⟨?_, List.nodup_nil, ?_, List.nodup_nil, ?_⟩, ⟨rfl, ?_, List.Pairwise.nil, ?_, ?_,
    List.Pairwise.nil, ?_, ?_⟩⟩
  · intro k s hs
    cases hs
  · intro reg hreg
    cases hreg
  · intro e he
    cases he
  · intro p hp
    cases hp
  · intro p hp
    cases hp
  · intro p hp
    cases hp
  · intro p hp
    cases hp
  · intro hr
    cases hr

end Accounted

end Switchboard
