import Switchboard.Proofs.Presence

/-!
# What a cascade costs

One departure is announced to everyone who is there, and each announcement takes a place in every
queue. What that does to a connection is a matter of counting: its queue has room for so many
frames, and the connection stays exactly if no more than those are meant for it (`Linked.mem_iff`).
How many are meant for it is counted by those who leave, since each of them is announced once
(`Handling.announced_nodup`, `Handling.mem_announced`).
-/

namespace Switchboard

open Wire Exchange

/-! ## Room -/

/-- How many frames a queue can still take. -/
def Queue.room (a : Queue) : Nat :=
  if a.receiver = .listening then a.capacity - a.frames.length else 0

theorem Queue.refusal?_isSome (a : Queue) : a.refusal?.isSome = decide (a.room = 0) := by
  unfold refusal? room
  by_cases hl : a.receiver = .listening
  · by_cases hc : a.capacity ≤ a.frames.length
    · simp [hl, hc, Nat.sub_eq_zero_of_le hc]
    · have : a.capacity - a.frames.length ≠ 0 := by omega
      simp [hl, hc, this]
  · simp [hl]

theorem Queue.room_push (a : Queue) (frame : Envelope) : (a.push frame).room = a.room - 1 := by
  unfold push room
  by_cases hl : a.receiver = .listening
  · simp only [hl, if_true, List.length_append, List.length_singleton]
    omega
  · simp [hl]

namespace Exchange

/-- How many frames the queue of a number can still take; one that never was takes none. -/
def roomOf (x : Exchange) (q : QueueId) : Nat := ((x.mail.get? q).map Queue.room).getD 0

theorem roomOf_of_get? {x : Exchange} {q : QueueId} {a : Queue} (h : x.mail.get? q = some a) :
    x.roomOf q = a.room := by
  unfold roomOf
  rw [h]
  rfl

theorem refusal?_isSome (x : Exchange) (q : QueueId) :
    (x.mail.refusal? q).isSome = decide (x.roomOf q = 0) := by
  unfold Mail.refusal? roomOf
  cases x.mail.get? q with
  | none => rfl
  | some a => exact a.refusal?_isSome

theorem roomOf_release (x : Exchange) (q q' : QueueId) :
    (x.release q).roomOf q' = x.roomOf q' := by
  unfold roomOf release
  rw [Mail.get?_modify]
  split
  · cases x.mail.get? q' <;> rfl
  · rfl

end Exchange

namespace Sending

/-- A frame takes one place in every queue that it reaches. -/
theorem roomOf_after (s : Sending) (q : QueueId) :
    s.after.roomOf q = s.before.roomOf q - if s.reaches q then 1 else 0 := by
  unfold roomOf
  rw [get?_after]
  cases s.before.mail.get? q with
  | none => simp
  | some a =>
    by_cases hr : s.reaches q = true
    · simp [hr, Queue.room_push]
    · by_cases hp : s.putsOut q = true
      · simp [hr, hp, Queue.release, Queue.room]
      · simp [hr, hp]

/-- Whoever is meant stays if there is room, and whoever is not meant stays. -/
theorem mem_after_iff {s : Sending} {e : Entry} (he : e ∈ s.before.registry) :
    e ∈ s.after.registry ↔ (s.target.selects e = true → s.before.roomOf e.queue ≠ 0) := by
  rw [mem_after]
  unfold refuses
  have hr : (s.before.refusal? e).isSome = decide (s.before.roomOf e.queue = 0) :=
    refusal?_isSome s.before e.queue
  rw [hr]
  cases s.target.selects e <;> simp [he]

end Sending

/--
**A connection stays exactly if its queue has room for all that is meant for it**, whatever becomes
of the others.
-/
theorem Linked.mem_iff {x y : Exchange} {log : List Sending} (h : Linked x log y)
    (hx : x.WellKept) {e : Entry} (he : e ∈ x.registry) :
    e ∈ y.registry ↔ (log.filter (·.target.selects e)).length ≤ x.roomOf e.queue := by
  induction h with
  | nil x => simp [he]
  | @cons s log y hl ih =>
    have hroom := s.roomOf_after e.queue
    by_cases hs : s.target.selects e = true
    · have hcons : (s :: log).filter (fun s => s.target.selects e) =
          s :: log.filter fun s => s.target.selects e := List.filter_cons_of_pos hs
      rw [hcons, List.length_cons]
      by_cases hz : s.before.roomOf e.queue = 0
      · -- it is out by this frame, and nobody comes back
        have hout : e ∉ s.after.registry := fun hm => (Sending.mem_after_iff he).mp hm hs hz
        constructor
        · exact fun hy => absurd (hl.sublist.subset hy) hout
        · omega
      · have hm : e ∈ s.after.registry := (Sending.mem_after_iff he).mpr fun _ => hz
        have hreach : s.reaches e.queue = true := by
          rw [Sending.reaches_of_mem_after hx hm, hs]
        rw [hreach, if_pos rfl] at hroom
        rw [ih (Sending.wellKept_after hx) hm, hroom]
        omega
    · have hm : e ∈ s.after.registry := (Sending.mem_after_iff he).mpr fun h => absurd h hs
      have hreach : s.reaches e.queue = false := by
        rw [Sending.reaches_of_mem_after hx hm, Bool.eq_false_iff]
        exact hs
      have hcons : (s :: log).filter (fun s => s.target.selects e) =
          log.filter fun s => s.target.selects e := List.filter_cons_of_neg hs
      rw [hreach] at hroom
      rw [hcons, ih (Sending.wellKept_after hx) hm, hroom]
      simp

/-! ## Who leaves -/

/-- Those of `x` who are not in `y`. -/
def Exchange.lostTo (x y : Exchange) : List Entry :=
  x.registry.filter fun e => decide (e ∉ y.registry)

/-- A list split by a test, put together again. -/
theorem perm_filter_append_not {α : Type} (p : α → Bool) (l : List α) :
    l.Perm (l.filter p ++ l.filter fun a => !p a) :=
  (List.filter_append_perm p l).symm

namespace Sending

/-- Those who are put out and those who are lost later are all who are lost. -/
theorem lostTo_perm (s : Sending) {y : Exchange} (hy : y.registry.Sublist s.after.registry) :
    (s.before.lostTo y).Perm (s.refusers ++ s.after.lostTo y) := by
  have hsplit := (perm_filter_append_not (s.before.refuses s.target) s.before.registry).filter
    fun e => decide (e ∉ y.registry)
  rw [List.filter_append] at hsplit
  have hout : s.refusers.filter (fun e => decide (e ∉ y.registry)) = s.refusers := by
    rw [List.filter_eq_self]
    intro e he
    rw [decide_eq_true_eq]
    intro hm
    have := (mem_after.mp (hy.subset hm)).2
    rw [(mem_refusers.mp he).2] at this
    exact Bool.noConfusion this
  unfold lostTo
  rw [← hout]
  exact hsplit

end Sending

/-- Nobody is lost but those whom a frame puts out. -/
theorem Linked.lostTo_perm {x y : Exchange} {log : List Sending} (h : Linked x log y) :
    (x.lostTo y).Perm (log.flatMap Sending.refusers) := by
  induction h with
  | nil x =>
    have : x.lostTo x = [] := by simp [lostTo]
    rw [this]
    exact List.Perm.refl _
  | @cons s log y hl ih =>
    rw [List.flatMap_cons]
    exact (s.lostTo_perm hl.sublist).trans (ih.append_left _)

/-! ## Who is announced -/

/-- The user whose departure an announcement of the hub is about. -/
def Sending.departs? (s : Sending) : Option String :=
  if s.isAnnounced then
    match s.frame.message with
    | .event (.userOffline user) => some user
    | _ => none
  else none

/-- The users whose departure was announced, in order. -/
def announced (log : List Sending) : List String := log.filterMap Sending.departs?

/-- Whoever is put out is announced after those who wait. -/
theorem Announcing.announced_perm {x y : Exchange} {waiting : List String} {log : List Sending}
    (h : Announcing x waiting log y) :
    (announced log).Perm (waiting ++ (log.flatMap Sending.refusers).map Entry.userId) := by
  induction h with
  | done x => exact List.Perm.refl _
  | @next x y user waiting log time out ho ha ih =>
    have hcons : announced (.offline x user time :: log) = user :: announced log := rfl
    rw [hcons, List.flatMap_cons, List.map_append, List.cons_append, List.perm_cons]
    refine ih.trans ?_
    -- those put out by this frame are announced before those who wait
    refine ((List.perm_append_comm.append_right _).trans ?_)
    rw [List.append_assoc]
    exact ((ho.map _).append_right _).append_left _

theorem Announcing.announced_lost {x y : Exchange} {waiting : List String} {log : List Sending}
    (h : Announcing x waiting log y) :
    (announced log).Perm (waiting ++ (x.lostTo y).map Entry.userId) :=
  h.announced_perm.trans ((h.linked.lostTo_perm.symm.map _).append_left _)

theorem Spreading.announced_lost {s : Sending} {y : Exchange} {log : List Sending}
    (h : Spreading s log y) (hs : s.departs? = none) :
    (announced log).Perm ((s.before.lostTo y).map Entry.userId) := by
  cases h with
  | @mk out log _ ho ha =>
    have hcons : announced (s :: log) = announced log := by
      unfold announced
      rw [List.filterMap_cons_none hs]
    rw [hcons]
    refine ha.announced_lost.trans ?_
    rw [← List.map_append]
    refine List.Perm.map _ ?_
    exact (ho.append_right _).trans (s.lostTo_perm ha.linked.sublist).symm

theorem Linked.mem_lostTo {x y : Exchange} {log : List Sending} (h : Linked x log y)
    (hx : x.WellKept) {u : String} :
    u ∈ (x.lostTo y).map Entry.userId ↔ x.isOnline u = true ∧ y.isOnline u = false := by
  rw [isOnline_iff, isOnline_eq_false_iff, List.mem_map, List.mem_map, List.mem_map]
  constructor
  · rintro ⟨e, he, rfl⟩
    obtain ⟨hm, hn⟩ := List.mem_filter.mp he
    refine ⟨⟨e, hm, rfl⟩, ?_⟩
    rintro ⟨e', he', hu⟩
    rw [hx.users.eq_of_userId (h.sublist.subset he') hm hu] at he'
    exact of_decide_eq_true hn he'
  · rintro ⟨⟨e, he, rfl⟩, hn⟩
    exact ⟨e, List.mem_filter.mpr ⟨he, decide_eq_true fun hy => hn ⟨e, hy, rfl⟩⟩, rfl⟩

/-- An announcement is meant for everyone but the user who has gone. -/
theorem Announcing.length_meant {x y : Exchange} {waiting : List String} {log : List Sending}
    (h : Announcing x waiting log y) (e : Entry) :
    (log.filter (·.target.selects e)).length =
      ((announced log).filter (· ≠ e.userId)).length := by
  induction h with
  | done x => rfl
  | @next x y user waiting log time out ho ha ih =>
    have hcons : announced (.offline x user time :: log) = user :: announced log := rfl
    have hsel : (Sending.offline x user time).target.selects e = decide (user ≠ e.userId) := by
      simp [Sending.offline, Target.selects, eq_comm]
    rw [hcons, List.filter_cons, List.filter_cons, hsel]
    split <;> simp [ih]

theorem Spreading.length_meant {s : Sending} {y : Exchange} {log : List Sending}
    (h : Spreading s log y) (hs : s.departs? = none) (e : Entry) :
    (log.filter (·.target.selects e)).length =
      (if s.target.selects e then 1 else 0) +
        ((announced log).filter (· ≠ e.userId)).length := by
  cases h with
  | @mk out log _ ho ha =>
    have hcons : announced (s :: log) = announced log := by
      unfold announced
      rw [List.filterMap_cons_none hs]
    rw [hcons, List.filter_cons, ← ha.length_meant e]
    split
    · rw [List.length_cons, Nat.add_comm]
    · rw [Nat.zero_add]

/-! ## Over a request -/

/-- The exchange once a request has changed it directly and before anything is sent. -/
def Exchange.begun (x : Exchange) : Request → Exchange
  | .register r => if x.isOnline r.identity.userId then x.register r else x.welcome r
  | .unregister user c =>
    match x.findConnection? user c with
    | some e => x.discharge e
    | none => x
  | .dispatch .. => x.count fun s => { s with published := s.published + 1 }
  | .subscribe user c topics => x.subscribe user c topics
  | .unsubscribe user c topics => x.unsubscribe user c topics
  | .isOnline _ | .onlineCount | .shutdown => x

/-- The user whom a request makes leave by itself, before anything is sent. -/
def Exchange.leaver? (x : Exchange) : Request → Option String
  | .unregister user c => (x.findConnection? user c).map fun _ => user
  | _ => none

/-- The user who comes by a request. -/
def Request.comer? : Request → Option String
  | .register r => some r.identity.userId
  | _ => none

/-- Whether a request is to unregister a connection or to put another in its place. -/
def Request.removes (e : Entry) : Request → Bool
  | .register new => new.identity.userId = e.userId
  | .unregister user c => e.userId = user ∧ e.connection = c
  | _ => false

/-- Whether the one frame that a request sends of itself is meant for a connection. -/
def Exchange.isMeant (x : Exchange) (e : Entry) : Request → Bool
  | .register new => !x.isOnline new.identity.userId && e.userId ≠ new.identity.userId
  | .dispatch target _ => target.selects e
  | _ => false

namespace Exchange

theorem isOnline_of_find? {x : Exchange} {user : String} {e : Entry}
    (h : x.find? user = some e) : x.isOnline user = true := by
  unfold isOnline
  rw [h]
  rfl

theorem isOnline_of_find?_none {x : Exchange} {user : String} (h : x.find? user = none) :
    x.isOnline user = false := by
  unfold isOnline
  rw [h]
  rfl

theorem begun_register_of_none {x : Exchange} {r : Registration}
    (h : x.find? r.identity.userId = none) : x.begun (.register r) = x.welcome r := by
  simp [begun, isOnline_of_find?_none h]

theorem begun_register_of_some {x : Exchange} {r : Registration} {previous : Entry}
    (h : x.find? r.identity.userId = some previous) :
    x.begun (.register r) = x.register r := by
  simp [begun, isOnline_of_find? h]

theorem begun_unregister_of_some {x : Exchange} {user : String} {c : ConnectionId} {e : Entry}
    (h : x.findConnection? user c = some e) : x.begun (.unregister user c) = x.discharge e := by
  simp [begun, h]

theorem begun_unregister_of_none {x : Exchange} {user : String} {c : ConnectionId}
    (h : x.findConnection? user c = none) : x.begun (.unregister user c) = x := by
  simp [begun, h]

/-- The outset of a request: what it changes directly, before anything is sent. -/
inductive Outset (x : Exchange) : Request → Exchange → Prop
  /-- Somebody comes -/
  | join {r : Registration} :
      x.find? r.identity.userId = none → Outset x (.register r) (x.welcome r)
  /-- or takes the place of an earlier connection, -/
  | replace {r : Registration} {previous : Entry} :
      x.find? r.identity.userId = some previous →
      Outset x (.register r) (((x.depart previous).insert r.entry).count fun s =>
        { s with registered := s.registered + 1 })
  /-- a connection leaves, -/
  | leave {user : String} {c : ConnectionId} {e : Entry} :
      x.findConnection? user c = some e → Outset x (.unregister user c) (x.discharge e)
  /-- or is not there any more. -/
  | stay {user : String} {c : ConnectionId} :
      x.findConnection? user c = none → Outset x (.unregister user c) x
  | dispatch (target : Target) (frame : Envelope) :
      Outset x (.dispatch target frame) (x.count fun s => { s with published := s.published + 1 })
  | subscribe (user : String) (c : ConnectionId) (topics : List Topic) :
      Outset x (.subscribe user c topics) (x.subscribe user c topics)
  | unsubscribe (user : String) (c : ConnectionId) (topics : List Topic) :
      Outset x (.unsubscribe user c topics) (x.unsubscribe user c topics)
  | isOnline (user : String) : Outset x (.isOnline user) x
  | onlineCount : Outset x .onlineCount x
  | shutdown : Outset x .shutdown x

theorem outset (x : Exchange) (r : Request) : x.Outset r (x.begun r) := by
  cases r with
  | register r =>
    cases hf : x.find? r.identity.userId with
    | none => exact begun_register_of_none hf ▸ .join hf
    | some previous =>
      rw [begun_register_of_some hf, register_replace hf]
      exact .replace hf
  | unregister user c =>
    cases hf : x.findConnection? user c with
    | none =>
      rw [begun_unregister_of_none hf]
      exact .stay hf
    | some e => exact begun_unregister_of_some hf ▸ .leave hf
  | dispatch target frame => exact .dispatch target frame
  | subscribe user c topics => exact .subscribe user c topics
  | unsubscribe user c topics => exact .unsubscribe user c topics
  | isOnline user => exact .isOnline user
  | onlineCount => exact .onlineCount
  | shutdown => exact .shutdown

theorem leaver?_of_some {x : Exchange} {user : String} {c : ConnectionId} {e : Entry}
    (h : x.findConnection? user c = some e) : x.leaver? (.unregister user c) = some user := by
  simp [leaver?, h]

theorem leaver?_of_none {x : Exchange} {user : String} {c : ConnectionId}
    (h : x.findConnection? user c = none) : x.leaver? (.unregister user c) = none := by
  simp [leaver?, h]

/-- No queue has more or less room for what a request changes directly. -/
theorem Outset.roomOf {x y : Exchange} {r : Request} (h : x.Outset r y) (q : QueueId) :
    y.roomOf q = x.roomOf q := by
  cases h with
  | @replace r previous => exact roomOf_release x previous.queue q
  | @leave user c e => exact roomOf_release x e.queue q
  | join | stay | dispatch | subscribe | unsubscribe | isOnline | onlineCount | shutdown => rfl

theorem Outset.wellKept {x y : Exchange} {r : Request} (hc : x.Outset r y) (h : x.WellKept)
    (ha : x.Admits r) : y.WellKept := by
  cases hc with
  | join hf => exact (begins_welcome h ha hf).wellKept
  | replace hf => exact register_replace hf ▸ (begins_replace h ha hf).wellKept
  | @leave user c e hf =>
    exact (begins_discharge h (mem_of_find? (findConnection?_eq_some.mp hf).1) user c).wellKept
  | dispatch => exact wellKept_count h _
  | subscribe user c | unsubscribe user c => exact wellKept_updateTopics h user c _
  | stay | isOnline | onlineCount | shutdown => exact h

/-- Whoever was there, or has just come, or has just been asked to go. -/
theorem isOnline_begun (x : Exchange) (r : Request) (u : String) :
    ((x.begun r).isOnline u = true ∨ x.leaver? r = some u) ↔
      (x.isOnline u = true ∨ r.comer? = some u) := by
  cases r with
  | register r =>
    have hl : x.leaver? (.register r) = none := rfl
    have hc : (Request.register r).comer? = some r.identity.userId := rfl
    rw [hl, hc, Option.some.injEq, eq_comm (b := u)]
    cases hf : x.find? r.identity.userId with
    | none =>
      have hw : (x.welcome r).isOnline u = (x.isOnline u || decide (u = r.identity.userId)) :=
        isOnline_insert x r u
      rw [begun_register_of_none hf, hw]
      simp
    | some previous =>
      rw [begun_register_of_some hf, isOnline_register_of_find? hf]
      have hon := isOnline_of_find? hf
      constructor
      · rintro (h | h)
        · exact Or.inl h
        · simp at h
      · rintro (h | h)
        · exact Or.inl h
        · rw [h]
          exact Or.inl hon
  | unregister user c =>
    have hc : (Request.unregister user c).comer? = none := rfl
    rw [hc]
    cases hf : x.findConnection? user c with
    | none =>
      rw [begun_unregister_of_none hf, leaver?_of_none hf]
    | some e =>
      have hfind := (findConnection?_eq_some.mp hf).1
      have hu := userId_of_find? hfind
      have hd : (x.discharge e).isOnline u = (x.isOnline u && decide (u ≠ e.userId)) :=
        isOnline_depart x e u
      rw [begun_unregister_of_some hf, leaver?_of_some hf, hd, hu]
      by_cases hue : u = user
      · subst hue
        simp [isOnline_of_find? hfind]
      · simp [hue, Ne.symm hue]
  | dispatch target frame => simp [leaver?, Request.comer?, begun, isOnline, find?, count]
  | subscribe user c topics =>
    have hs : (x.begun (.subscribe user c topics)).isOnline u = x.isOnline u :=
      isOnline_updateTopics x user c _ u
    simp [leaver?, Request.comer?, hs]
  | unsubscribe user c topics =>
    have hs : (x.begun (.unsubscribe user c topics)).isOnline u = x.isOnline u :=
      isOnline_updateTopics x user c _ u
    simp [leaver?, Request.comer?, hs]
  | isOnline user => simp [leaver?, Request.comer?, begun]
  | onlineCount => simp [leaver?, Request.comer?, begun]
  | shutdown => simp [leaver?, Request.comer?, begun]

end Exchange

namespace Handling

variable {x y : Exchange} {r : Request} {log : List Sending}

theorem linked (h : Handling x r log y) : Linked (x.begun r) log y := by
  cases h with
  | join time hf hs =>
    rw [begun_register_of_none hf]
    exact hs.linked
  | replace hf =>
    rw [begun_register_of_some hf]
    exact .nil _
  | leave hf ha =>
    rw [begun_unregister_of_some hf]
    exact ha.linked
  | stay hf =>
    rw [begun_unregister_of_none hf]
    exact .nil _
  | deliver hs => exact hs.linked
  | subscribe user c topics => exact .nil _
  | unsubscribe user c topics => exact .nil _

/-- Whoever leaves by a request is not there when the sending begins. -/
theorem not_online_of_leaver (h : Handling x r log y) {u : String}
    (hl : x.leaver? r = some u) : (x.begun r).isOnline u = false := by
  cases h with
  | leave hf ha =>
    rw [leaver?_of_some hf] at hl
    obtain rfl := Option.some.inj hl
    have hu := userId_of_find? (findConnection?_eq_some.mp hf).1
    rw [begun_unregister_of_some hf, ← hu]
    exact (isOnline_depart x _ _).trans (by simp)
  | stay hf =>
    rw [leaver?_of_none hf] at hl
    simp at hl
  | join => simp [leaver?] at hl
  | replace => simp [leaver?] at hl
  | deliver => simp [leaver?] at hl
  | subscribe => simp [leaver?] at hl
  | unsubscribe => simp [leaver?] at hl

/-- **Exactly those who leave are announced.** -/
theorem announced_lost (h : Handling x r log y) :
    (announced log).Perm ((x.leaver? r).toList ++ ((x.begun r).lostTo y).map Entry.userId) := by
  have hself : ∀ z : Exchange, z.lostTo z = [] := fun z => by simp [lostTo]
  cases h with
  | join time hf hs =>
    rw [begun_register_of_none hf]
    exact hs.announced_lost rfl
  | replace hf =>
    rw [begun_register_of_some hf, hself]
    exact List.Perm.refl _
  | leave hf ha =>
    rw [begun_unregister_of_some hf, leaver?_of_some hf]
    exact ha.announced_lost
  | stay hf =>
    rw [begun_unregister_of_none hf, hself, leaver?_of_none hf]
    exact List.Perm.refl _
  | deliver hs => exact hs.announced_lost rfl
  | subscribe user c topics =>
    have hb : x.begun (.subscribe user c topics) = x.subscribe user c topics := rfl
    rw [hb, hself]
    exact List.Perm.refl _
  | unsubscribe user c topics =>
    have hb : x.begun (.unsubscribe user c topics) = x.unsubscribe user c topics := rfl
    rw [hb, hself]
    exact List.Perm.refl _

/-- **Nobody is announced twice.** -/
theorem announced_nodup (h : Handling x r log y) (hx : x.WellKept) (ha : x.Admits r) :
    (announced log).Nodup := by
  rw [h.announced_lost.nodup_iff, List.nodup_append]
  have hb := (x.outset r).wellKept hx ha
  refine ⟨?_, List.Nodup.sublist (List.filter_sublist.map _) hb.users, ?_⟩
  · cases x.leaver? r <;> simp
  · -- whoever leaves by the request is not there when the sending begins
    intro u hu v hv huv
    subst huv
    obtain ⟨e, he, heu⟩ := List.mem_map.mp hv
    have hon := isOnline_of_mem (List.mem_filter.mp he).1
    rw [heu, h.not_online_of_leaver (Option.mem_toList.mp hu)] at hon
    exact Bool.noConfusion hon

/-- **Exactly those are announced who were there, or came, and are not there any more.** -/
theorem mem_announced (h : Handling x r log y) (hx : x.WellKept) (ha : x.Admits r) (u : String) :
    u ∈ announced log ↔ (x.isOnline u = true ∨ r.comer? = some u) ∧ y.isOnline u = false := by
  rw [h.announced_lost.mem_iff, List.mem_append, Option.mem_toList,
    ← isOnline_begun, h.linked.mem_lostTo ((x.outset r).wellKept hx ha)]
  constructor
  · rintro (hl | ⟨hon, hoff⟩)
    · refine ⟨Or.inr hl, ?_⟩
      rw [Bool.eq_false_iff]
      intro hon
      obtain ⟨e, he, heu⟩ := List.mem_map.mp (isOnline_iff.mp hon)
      have hon' := isOnline_of_mem (h.linked.sublist.subset he)
      rw [heu, h.not_online_of_leaver hl] at hon'
      exact Bool.noConfusion hon'
    · exact ⟨Or.inl hon, hoff⟩
  · rintro ⟨hon | hl, hoff⟩
    · exact Or.inr ⟨hon, hoff⟩
    · exact Or.inl hl

/-- The frames meant for a connection: one for the request, and one for everyone else who leaves. -/
theorem length_meant (h : Handling x r log y) (e : Entry) :
    (log.filter (·.target.selects e)).length =
      (if x.isMeant e r then 1 else 0) + ((announced log).filter (· ≠ e.userId)).length := by
  cases h with
  | join time hf hs =>
    rw [hs.length_meant rfl]
    simp [isMeant, isOnline_of_find?_none hf, Sending.online, Target.selects]
  | replace hf => simp [isMeant, isOnline_of_find? hf, announced]
  | leave hf ha => simp [isMeant, ha.length_meant]
  | stay hf => simp [isMeant, announced]
  | deliver hs =>
    rw [hs.length_meant rfl]
    rfl
  | subscribe user c topics => simp [isMeant, announced]
  | unsubscribe user c topics => simp [isMeant, announced]

end Handling

end Switchboard
