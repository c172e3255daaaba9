import Mathlib.Algebra.GroupWithZero.Nat
import Switchboard.Domain.Audience
import Switchboard.Proofs.Confluence
import Switchboard.Proofs.Erasure

/-!
# Copies of an event

An event is told by asking the hub to deliver one frame for each of its targets. If everyone whom
they mean can take them, all that happens is that frames are added at the ends of queues
(`Exchange.Spread`). So nobody leaves, and the next frame meets the same registry as the one
before: what a connection gets is the frames of the targets that mean it, in their order.
-/

namespace Switchboard

open Wire Exchange

/-! ## What a listener is owed -/

/-- A copy of an announcement for a connection that listens to a topic. -/
def Entry.copyOn (l : Entry) (t : Topic) (a : Event) : List Event :=
  if t ∈ l.topics then [a] else []

namespace DomainEvent

/-- The copies of an event that are for a connection, in the order in which it gets them. -/
def copiesFor (l : Entry) : DomainEvent → List Event
  | postCreated id (some circle) post => l.copyOn (.circle circle) (.newPost id post)
  | postCreated id none post => l.copyOn .posts (.newPost id post)
  | responseCreated id responseId response =>
    l.copyOn .responses (.newResponse id responseId response) ++
      l.copyOn (.post id) (.newResponse id responseId response)
  | supporterJoined id supporterId name =>
    l.copyOn (.post id) (.supporterJoined id supporterId name)
  | postDeleted id => l.copyOn .posts (.postDeleted id) ++ l.copyOn (.post id) (.postDeleted id)
  | notificationCreated recipientId payload =>
    if l.userId = recipientId then [.notification recipientId payload] else []

/-- The announcement of an event as a frame sent at a time. -/
def frameAt (e : DomainEvent) (time : Time.Timestamp) : Envelope :=
  .wrap time (.event e.announcement)

/-- The frames of an event that are for a connection. -/
def framesFor (e : DomainEvent) (time : Time.Timestamp) (l : Entry) : List Envelope :=
  (e.copiesFor l).map fun a => .wrap time (.event a)

/-- A connection is owed one copy for each target that means it. -/
theorem copiesFor_eq (e : DomainEvent) (l : Entry) :
    e.copiesFor l = (e.audience.filter (·.selects l)).map fun _ => e.announcement := by
  have hcopy : ∀ (t : Topic) (a : Event),
      l.copyOn t a = ([Target.topic t].filter (·.selects l)).map fun _ => a := by
    intro t a
    unfold Entry.copyOn
    by_cases ht : t ∈ l.topics <;> simp [Target.selects, ht]
  have htwo : ∀ (t t' : Topic) (a : Event), l.copyOn t a ++ l.copyOn t' a =
      ([Target.topic t, .topic t'].filter (·.selects l)).map fun _ => a := by
    intro t t' a
    rw [hcopy, hcopy, ← List.map_append, ← List.filter_append]
    rfl
  cases e with
  | postCreated id circle post =>
    cases circle with
    | some circle => exact hcopy (.circle circle) _
    | none => exact hcopy .posts _
  | responseCreated id responseId response => exact htwo .responses (.post id) _
  | supporterJoined id supporterId name => exact hcopy (.post id) _
  | postDeleted id => exact htwo .posts (.post id) _
  | notificationCreated recipientId payload =>
    by_cases hu : l.userId = recipientId <;>
      simp [copiesFor, audience, announcement, Target.selects, hu]

theorem framesFor_eq (e : DomainEvent) (time : Time.Timestamp) (l : Entry) :
    e.framesFor time l = (e.audience.filter (·.selects l)).map fun _ => e.frameAt time := by
  unfold framesFor
  rw [copiesFor_eq, List.map_map]
  rfl

theorem audience_ne_nil (e : DomainEvent) : e.audience ≠ [] := by
  cases e with
  | postCreated id circle post => cases circle <;> exact List.cons_ne_nil _ _
  | _ => exact List.cons_ne_nil _ _

end DomainEvent

/-! ## Room for a frame -/

namespace Sending

variable {s : Sending}

/-- Everyone who is meant has room. -/
def IsWelcome (s : Sending) : Prop :=
  ∀ l ∈ s.before.registry, s.target.selects l = true → s.before.roomOf l.queue ≠ 0

namespace IsWelcome

theorem refusal?_eq_none (h : s.IsWelcome) {l : Entry} (hl : l ∈ s.before.registry)
    (hs : s.target.selects l = true) : s.before.refusal? l = none := by
  rw [← Option.not_isSome_iff_eq_none]
  have hsome : (s.before.refusal? l).isSome = decide (s.before.roomOf l.queue = 0) :=
    refusal?_isSome s.before l.queue
  rw [hsome, decide_eq_false (h l hl hs)]
  exact Bool.false_ne_true

theorem refuses_eq_false (h : s.IsWelcome) {l : Entry} (hl : l ∈ s.before.registry) :
    s.before.refuses s.target l = false := by
  unfold refuses
  cases hs : s.target.selects l with
  | false => rfl
  | true => rw [h.refusal?_eq_none hl hs]; rfl

theorem takes_eq_selects (h : s.IsWelcome) {l : Entry} (hl : l ∈ s.before.registry) :
    s.before.takes s.target l = s.target.selects l := by
  unfold takes
  cases hs : s.target.selects l with
  | false => rfl
  | true => rw [h.refusal?_eq_none hl hs]; rfl

theorem refusers_eq_nil (h : s.IsWelcome) : s.refusers = [] := by
  show s.before.registry.filter (s.before.refuses s.target) = []
  rw [List.filter_eq_nil_iff]
  intro l hl
  rw [h.refuses_eq_false hl]
  exact Bool.false_ne_true

theorem registry_after (h : s.IsWelcome) : s.after.registry = s.before.registry := by
  show s.before.registry.filter (fun l => !s.before.refuses s.target l) = _
  rw [List.filter_eq_self]
  intro l hl
  rw [h.refuses_eq_false hl]
  rfl

theorem get?_after (h : s.IsWelcome) (q : QueueId) : s.after.mail.get? q =
    (s.before.mail.get? q).map fun a => if s.selects q then a.push s.frame else a := by
  have hout : s.putsOut q = false := by
    rw [← any_refusers, h.refusers_eq_nil]
    rfl
  have hreach : s.reaches q = s.selects q := by
    cases hs : s.selects q with
    | false => rw [reaches_eq, hs, Bool.false_and]
    | true =>
      unfold putsOut at hout
      rw [hs, Bool.true_and] at hout
      rw [reaches_eq, hs, hout]
      rfl
  rw [Sending.get?_after, hreach, hout]
  rfl

theorem stats_after (h : s.IsWelcome) : s.after.stats = { s.before.stats with
    delivered := s.before.stats.delivered +
      (s.before.registry.filter fun l => s.target.selects l).length } := by
  have htakes : s.before.registry.filter (s.before.takes s.target) =
      s.before.registry.filter fun l => s.target.selects l :=
    List.filter_congr fun l hl => h.takes_eq_selects hl
  rw [Sending.stats_after, htakes, h.refusers_eq_nil]
  rfl

/-- Nobody is put out, so nothing is sent on account of the frame. -/
theorem send_eq_after (h : s.IsWelcome) : s.before.send s.target s.frame = s.after := by
  show s.after.announce (s.refusers.map Entry.userId).reverse = s.after
  rw [h.refusers_eq_nil]
  exact Exchange.announce.eq_1 s.after

end IsWelcome

end Sending

/-! ## One frame after another -/

namespace Exchange

/-- Whether a target means the connection of a queue. -/
def means (x : Exchange) (q : QueueId) (t : Target) : Bool :=
  x.registry.any fun l => l.queue = q && t.selects l

/-- Entries do not share queues. -/
def OwnQueues (x : Exchange) : Prop := (x.registry.map Entry.queue).Nodup

/-- `x.Spread targets frame y`: a frame goes out to one target after another, and whoever is meant
takes it each time. -/
structure Spread (x : Exchange) (targets : List Target) (frame : Envelope) (y : Exchange) :
    Prop where
  registry : y.registry = x.registry
  clock : y.clock = x.clock
  queues : ∀ q, y.mail.get? q = (x.mail.get? q).map fun a =>
    { a with frames := a.frames ++ (targets.filter (x.means q)).map fun _ => frame }
  stats : y.stats = { x.stats with
    published := x.stats.published + targets.length
    delivered := x.stats.delivered +
      (targets.map fun t => (x.registry.filter fun l => t.selects l).length).sum }

variable {x y z : Exchange} {target : Target} {targets targets' : List Target}
  {frame : Envelope}

/-- If everyone who is meant has room, all that a frame does is to come onto their queues. -/
theorem spread_publish
    (hroom : ∀ l ∈ x.registry, target.selects l = true → x.roomOf l.queue ≠ 0) :
    x.Spread [target] frame (x.publish target frame) := by
  let s : Sending :=
    ⟨x.count fun c => { c with published := c.published + 1 }, target, frame, false⟩
  have hs : s.IsWelcome := hroom
  have hpublish : x.publish target frame = s.after := hs.send_eq_after
  rw [hpublish]
  refine ⟨hs.registry_after, rfl, fun q => ?_, ?_⟩
  · rw [hs.get?_after]
    have hsel : s.selects q = x.means q target := rfl
    show (x.mail.get? q).map _ = _
    cases hm : x.means q target <;> simp [Queue.push, hsel, hm, s]
  · rw [hs.stats_after]
    simp [s, count]

namespace Spread

theorem refl (x : Exchange) (frame : Envelope) : x.Spread [] frame x where
  registry := rfl
  clock := rfl
  queues q := by simp
  stats := rfl

theorem means (h : x.Spread targets frame y) (q : QueueId) : y.means q = x.means q := by
  funext t
  unfold Exchange.means
  rw [h.registry]

theorem trans (h : x.Spread targets frame y) (h' : y.Spread targets' frame z) :
    x.Spread (targets ++ targets') frame z where
  registry := h'.registry.trans h.registry
  clock := h'.clock.trans h.clock
  queues q := by
    rw [h'.queues, h.queues, h.means, Option.map_map]
    simp [Function.comp_def]
  stats := by
    rw [h'.stats, h.stats, h.registry]
    simp [Nat.add_assoc]

/-- Each frame that comes onto a queue takes a place. -/
theorem roomOf (h : x.Spread targets frame y) (q : QueueId) :
    y.roomOf q = x.roomOf q - (targets.filter (x.means q)).length := by
  unfold Exchange.roomOf
  rw [h.queues]
  cases x.mail.get? q with
  | none => simp
  | some a =>
    simp only [Option.map_some, Option.getD_some, Queue.room, List.length_append, List.length_map]
    split <;> omega

end Spread

/-- Without a shared queue, what is meant for a connection's queue is what is meant for it. -/
theorem OwnQueues.means (h : x.OwnQueues) {l : Entry} (hl : l ∈ x.registry) (t : Target) :
    x.means l.queue t = t.selects l := by
  rw [Bool.eq_iff_iff]
  unfold Exchange.means
  rw [List.any_eq_true]
  constructor
  · rintro ⟨l', hl', hsel⟩
    obtain ⟨hq, hsel⟩ := Bool.and_eq_true_iff.mp hsel
    rwa [List.inj_on_of_nodup_map h hl' hl (of_decide_eq_true hq)] at hsel
  · intro hsel
    exact ⟨l, hl, by simp [hsel]⟩

/-- Everyone can take what is meant for them. -/
def HasRoomFor (x : Exchange) (targets : List Target) : Prop :=
  ∀ l ∈ x.registry, (targets.filter (·.selects l)).length ≤ x.roomOf l.queue

/-- The frame for one target leaves room for those that follow. -/
theorem HasRoomFor.next (h : x.HasRoomFor (target :: targets)) (ho : x.OwnQueues)
    (hs : x.Spread [target] frame y) : y.HasRoomFor targets := by
  intro l hl
  rw [hs.registry] at hl
  have hall := h l hl
  rw [hs.roomOf, List.filter_singleton, ho.means hl]
  cases hsel : target.selects l with
  | true =>
    rw [List.filter_cons_of_pos hsel, List.length_cons] at hall
    exact Nat.le_sub_of_add_le hall
  | false =>
    rw [List.filter_cons_of_neg (by rw [hsel]; exact Bool.false_ne_true)] at hall
    exact hall

/-- **A frame for one target after another** reaches everyone who is meant, if all have room. -/
theorem spread_foldl (ho : x.OwnQueues) (hroom : x.HasRoomFor targets) :
    x.Spread targets frame (targets.foldl (fun x t => x.publish t frame) x) := by
  induction targets generalizing x with
  | nil => exact .refl x frame
  | cons t targets ih =>
    have hone : x.Spread [t] frame (x.publish t frame) := by
      refine spread_publish fun l hl hsel => ?_
      have := hroom l hl
      rw [List.filter_cons_of_pos hsel, List.length_cons] at this
      exact Nat.ne_of_gt (Nat.lt_of_lt_of_le (Nat.succ_pos _) this)
    have hown : (x.publish t frame).OwnQueues := by
      unfold OwnQueues
      rw [hone.registry]
      exact ho
    exact hone.trans (ih hown (hroom.next ho hone))

/-! ## What a whole event does -/

/-- `x.Informs e time y`: an event announced at a time is told to those it is for, and all else is
as it was. -/
structure Informs (x : Exchange) (e : DomainEvent) (time : Time.Timestamp) (y : Exchange) :
    Prop where
  registry : y.registry = x.registry
  clock : y.clock = x.clock
  /-- Every connection gets the copies that are for it, behind what waits for it already. -/
  listeners : ∀ l ∈ x.registry, y.mail.get? l.queue = (x.mail.get? l.queue).map fun a =>
    { a with frames := a.frames ++ e.framesFor time l }
  /-- No other queue changes. -/
  others : ∀ q, (∀ l ∈ x.registry, l.queue ≠ q) → y.mail.get? q = x.mail.get? q
  stats : y.stats = { x.stats with
    published := x.stats.published + e.audience.length
    delivered := x.stats.delivered + (x.registry.map fun l => (e.copiesFor l).length).sum }

/-- Those who pass a test, counted along with a sum over all. -/
theorem sum_map_add_ite {β : Type} (p : β → Bool) (f : β → Nat) (bs : List β) :
    (bs.map fun b => (if p b then 1 else 0) + f b).sum =
      (bs.filter p).length + (bs.map f).sum := by
  induction bs with
  | nil => rfl
  | cons b bs ih =>
    rw [List.map_cons, List.sum_cons, ih]
    cases hp : p b <;> simp [hp] <;> omega

/-- Pairs that pass a test can be counted from either side. -/
theorem sum_length_filter {α β : Type} (p : α → β → Bool) (as : List α) (bs : List β) :
    (as.map fun a => (bs.filter (p a)).length).sum =
      (bs.map fun b => (as.filter (p · b)).length).sum := by
  induction as with
  | nil => simp
  | cons a as ih =>
    rw [List.map_cons, List.sum_cons, ih, ← sum_map_add_ite]
    refine congrArg List.sum (List.map_congr_left fun b _ => ?_)
    cases hp : p a b <;> simp [hp, Nat.add_comm]

theorem Spread.informs {e : DomainEvent} {time : Time.Timestamp} (ho : x.OwnQueues)
    (h : x.Spread e.audience (e.frameAt time) y) : x.Informs e time y where
  registry := h.registry
  clock := h.clock
  listeners l hl := by
    have hmeans : x.means l.queue = fun t => t.selects l := funext fun t => ho.means hl t
    rw [h.queues, hmeans, e.framesFor_eq]
  others q hq := by
    have hnone : x.means q = fun _ => false := by
      funext t
      unfold Exchange.means
      rw [List.any_eq_false]
      intro l hl
      simp [hq l hl]
    rw [h.queues, hnone]
    simp
  stats := by
    rw [h.stats, sum_length_filter fun (t : Target) l => t.selects l]
    simp only [DomainEvent.copiesFor_eq, List.length_map]

end Exchange

end Switchboard
