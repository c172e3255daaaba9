import Switchboard.Proofs.Succession

/-!
# Exact delivery

A history of the exchange records every request handled, with what was sent on account of it, and
every frame that left a queue at the other end. Nothing in it says what was *put* on a queue; that
is read off afterwards, as what has left the queue followed by what still waits there.

`exact_delivery` compares that with the log of sendings. A connection gets the frames meant for it
while it is in the registry, each once and in the order of the log, and the only one it can miss is
the one that puts it out.
-/

namespace Switchboard

open Wire Exchange

/-- Something that happened to an exchange. -/
inductive Incident where
  /-- The hub handled a request. -/
  | handled (before : Exchange) (request : Request) (log : List Sending) (after : Exchange)
  /-- Frames left a queue: the receiver took them, or they were lost with it. -/
  | taken (q : QueueId) (frames : List Envelope)

/-- What was sent on account of an incident. -/
def Incident.log : Incident → List Sending
  | handled _ _ log _ => log
  | taken .. => []

/-- The frames that left a queue by an incident. -/
def Incident.takenFrom (q : QueueId) : Incident → List Envelope
  | handled .. => []
  | taken q' frames => if q' = q then frames else []

/-- Every sending, in order. -/
def sendings (past : List Incident) : List Sending := past.flatMap Incident.log

/-- Every frame that was ever put on a queue: those that have left it and those that wait. -/
def enqueued (past : List Incident) (x : Exchange) (q : QueueId) : List Envelope :=
  past.flatMap (Incident.takenFrom q) ++ x.framesOf q

/-- `Receiving m new m'`: something happens at the receiving end of a queue, or a queue is made. -/
inductive Receiving : Mail → List Incident → Mail → Prop
  | create (m : Mail) (capacity : Nat) : Receiving m [] (m.create capacity).2
  | take {m : Mail} {q : QueueId} {a : Queue} (most : Option Nat) :
      m.get? q = some a →
      Receiving m [.taken q (a.takeUpTo most).1] (m.modify q fun a => (a.takeUpTo most).2)
  | close (m : Mail) (q : QueueId) : Receiving m [] (m.modify q Queue.close)
  | drop {m : Mail} {q : QueueId} {a : Queue} :
      m.get? q = some a → Receiving m [.taken q a.frames] (m.modify q Queue.drop)

/--
`Run past x`: the history `past` leads to `x`. Requests are handled one after the other, and
anything may happen at the receiving ends in between.
-/
inductive Exchange.Run : List Incident → Exchange → Prop
  | start (clock : Time.Timestamp) : Run [] (.empty clock)
  | handle {past : List Incident} {x y : Exchange} {r : Request} {log : List Sending} :
      Run past x → x.Admits r → Handling x r log y → Run (past ++ [.handled x r log y]) y
  | receive {past new : List Incident} {x : Exchange} {m : Mail} :
      Run past x → Receiving x.mail new m → Run (past ++ new) { x with mail := m }

/-! ## The receiving ends -/

theorem hasSender_close (a : Queue) : a.close.hasSender = a.hasSender := by
  unfold Queue.close
  split <;> rfl

theorem frames_close (a : Queue) : a.close.frames = a.frames := by
  unfold Queue.close
  split <;> rfl

theorem takeUpTo_append (a : Queue) (most : Option Nat) :
    (a.takeUpTo most).1 ++ (a.takeUpTo most).2.frames = a.frames :=
  List.take_append_drop _ _

namespace Exchange

theorem framesOf_create (x : Exchange) (capacity : Nat) (q : QueueId) :
    ({ x with mail := (x.mail.create capacity).2 } : Exchange).framesOf q = x.framesOf q := by
  unfold framesOf
  rw [Mail.get?_create]
  split
  · rename_i hq
    have : x.mail.get? q = none := by
      subst hq
      exact List.getElem?_eq_none (Nat.le_refl _)
    rw [this]
    rfl
  · rfl

theorem framesOf_modify (x : Exchange) (q : QueueId) (f : Queue → Queue) (q' : QueueId) :
    ({ x with mail := x.mail.modify q f } : Exchange).framesOf q' =
      if q = q' then ((x.mail.get? q').map fun a => (f a).frames).getD [] else x.framesOf q' := by
  unfold framesOf
  rw [Mail.get?_modify]
  split
  · cases x.mail.get? q' <;> rfl
  · rfl

/-- Frames that leave at one end of a queue are still among those that were put in. -/
theorem enqueued_taken {past : List Incident} {x : Exchange} {q : QueueId} {a : Queue}
    (ha : x.mail.get? q = some a) {f : Queue → Queue} {frames : List Envelope}
    (hf : frames ++ (f a).frames = a.frames) (q' : QueueId) :
    enqueued (past ++ [.taken q frames]) { x with mail := x.mail.modify q f } q' =
      enqueued past x q' := by
  unfold enqueued
  rw [framesOf_modify, List.flatMap_append, List.append_assoc]
  congr 1
  by_cases hq : q = q'
  · subst hq
    rw [if_pos rfl, ha]
    unfold framesOf
    simp [Incident.takenFrom, ha, hf]
  · rw [if_neg hq]
    simp [Incident.takenFrom, hq]

end Exchange

namespace Receiving

variable {m m' : Mail} {new : List Incident}

theorem sameSenders (h : Receiving m new m') : SameSenders m m' := by
  cases h with
  | create capacity => exact sameSenders_create m capacity
  | take most _ => exact sameSenders_modify m _ fun _ => rfl
  | close q => exact sameSenders_modify m q hasSender_close
  | drop _ => exact sameSenders_modify m _ fun _ => rfl

theorem sends_nothing (h : Receiving m new m') : sendings new = [] := by
  cases h <;> rfl

theorem not_handled (h : Receiving m new m') {x y : Exchange} {r : Request}
    {log : List Sending} : Incident.handled x r log y ∉ new := by
  cases h <;> simp

theorem enqueued_eq {x : Exchange} (h : Receiving x.mail new m') (past : List Incident)
    (q : QueueId) : enqueued (past ++ new) { x with mail := m' } q = enqueued past x q := by
  cases h with
  | create capacity =>
    unfold enqueued
    rw [framesOf_create, List.append_nil]
  | @take q' a most ha => exact enqueued_taken ha (takeUpTo_append a most) q
  | close q' =>
    unfold enqueued
    rw [framesOf_modify, List.append_nil]
    by_cases hq : q' = q
    · subst hq
      rw [if_pos rfl]
      unfold framesOf
      simp only [frames_close]
    · rw [if_neg hq]
  | @drop q' a ha => exact enqueued_taken ha (List.append_nil _) q

end Receiving

theorem sendings_append (past new : List Incident) :
    sendings (past ++ new) = sendings past ++ sendings new := List.flatMap_append

theorem sendings_singleton (i : Incident) : sendings [i] = i.log := List.flatMap_singleton _ _

namespace Exchange.Run

variable {past : List Incident} {x : Exchange}

theorem wellKept (h : Run past x) : x.WellKept := by
  induction h with
  | start clock => exact ⟨List.nodup_nil, List.nodup_nil, fun e he => by simp [empty] at he⟩
  | handle _ ha hh ih =>
    obtain ⟨x', hb, hl⟩ := hh.begins ih ha
    exact hl.wellKept hb.wellKept
  | receive _ hm ih => exact wellKept_withMail ih hm.sameSenders

/-- **What was put on a queue is what the log sent there.** -/
theorem enqueued_eq (h : Run past x) (q : QueueId) :
    enqueued past x q = ((sendings past).filter (·.reaches q)).map (·.frame) := by
  induction h with
  | start clock => rfl
  | @handle past x y r log hr ha hh ih =>
    obtain ⟨x', hb, hl⟩ := hh.begins hr.wellKept ha
    rw [sendings_append, List.filter_append, List.map_append, ← ih]
    unfold enqueued
    rw [hl.framesOf, hb.framesOf, List.flatMap_append, sendings_singleton]
    simp [Incident.takenFrom, Incident.log]
  | @receive past new x m _ hm ih =>
    rw [hm.enqueued_eq, ih, sendings_append, hm.sends_nothing, List.append_nil]

/-- Every sending lies before the present. -/
theorem between (h : Run past x) {s : Sending} (hs : s ∈ sendings past) :
    s.before.WellKept ∧ s.after.Precedes x := by
  induction h with
  | start clock => simp [sendings] at hs
  | @handle past x y r log hr ha hh ih =>
    obtain ⟨x', hb, hl⟩ := hh.begins hr.wellKept ha
    rw [sendings_append, sendings_singleton, List.mem_append] at hs
    rcases hs with hs | hs
    · obtain ⟨hw, hp⟩ := ih hs
      exact ⟨hw, hp.trans (hb.precedes.trans (hl.precedes hb.wellKept))⟩
    · obtain ⟨hw, -, hp⟩ := hl.between hb.wellKept hs
      exact ⟨hw, hp⟩
  | @receive past new x m _ hm ih =>
    rw [sendings_append, hm.sends_nothing, List.append_nil] at hs
    exact ⟨(ih hs).1, (ih hs).2.trans (precedes_withMail hm.sameSenders)⟩

theorem pairwise (h : Run past x) :
    (sendings past).Pairwise fun s t => s.after.Precedes t.before := by
  induction h with
  | start clock => exact List.Pairwise.nil
  | @handle past x y r log hr ha hh ih =>
    obtain ⟨x', hb, hl⟩ := hh.begins hr.wellKept ha
    rw [sendings_append, sendings_singleton]
    refine List.pairwise_append.mpr ⟨ih, hl.pairwise hb.wellKept, ?_⟩
    intro s hs t ht
    exact (hr.between hs).2.trans (hb.precedes.trans (hl.between hb.wellKept ht).2.1)
  | receive _ hm ih =>
    rw [sendings_append, hm.sends_nothing, List.append_nil]
    exact ih

/-- What was sent before a registration met nobody with its queue, and what was sent since met what
the registration left. -/
theorem since (h : Run past x) {earlier later : List Incident} {x₀ x₁ : Exchange}
    {r : Registration} {log : List Sending}
    (hp : past = earlier ++ .handled x₀ (.register r) log x₁ :: later) :
    (∀ s ∈ sendings earlier, s.before.Lacks r.queue) ∧
      ∃ x' : Exchange, x'.Holds r ∧ x'.Precedes x ∧
        ∀ s ∈ log ++ sendings later, x'.Precedes s.before := by
  induction h generalizing later with
  | start clock => simp at hp
  | @handle past x y req log' hr ha hh ih =>
    obtain ⟨x', hb, hl⟩ := hh.begins hr.wellKept ha
    have hpre : x.Precedes y := hb.precedes.trans (hl.precedes hb.wellKept)
    rcases split_snoc hp with ⟨rfl, rfl, hi⟩ | ⟨middle, rfl, hpast⟩
    · -- the registration is what was handled last
      obtain ⟨rfl, rfl, rfl, rfl⟩ := Incident.handled.inj hi
      refine ⟨fun s hs => ?_, x', hb.holds r rfl, hl.precedes hb.wellKept, fun s hs => ?_⟩
      · obtain ⟨hw, hs'⟩ := hr.between hs
        exact ((Sending.precedes_after hw).trans hs').lacks ha
      · have hs' : s ∈ log' := by simpa [sendings] using hs
        exact (hl.between hb.wellKept hs').2.1
    · -- it was handled earlier
      obtain ⟨hlacks, x₂, hx₂, hpre₂, hlog⟩ := ih hpast
      refine ⟨hlacks, x₂, hx₂, hpre₂.trans hpre, fun s hs => ?_⟩
      rw [sendings_append, sendings_singleton, ← List.append_assoc, List.mem_append] at hs
      rcases hs with hs | hs
      · exact hlog s hs
      · exact hpre₂.trans (hb.precedes.trans (hl.between hb.wellKept hs).2.1)
  | @receive past new x m _ hm ih =>
    obtain ⟨middle, rfl, hpast⟩ := split_append hp hm.not_handled
    obtain ⟨hlacks, x', hx', hpre, hlog⟩ := ih hpast
    refine ⟨hlacks, x', hx', hpre.trans (precedes_withMail hm.sameSenders), ?_⟩
    rw [sendings_append, hm.sends_nothing, List.append_nil]
    exact hlog

end Exchange.Run

/-! ## One stretch of the log -/

namespace Sending

open Exchange

theorem reaches_eq (s : Sending) (q : QueueId) :
    s.reaches q = (s.selects q && !s.isRefusedBy q) := rfl

/-- A sending puts out whom it is meant for and who cannot take it, and nobody else. -/
theorem holds_after_iff {s : Sending} (h : s.before.WellKept) {r : Registration}
    (hr : s.before.Holds r) : s.after.Holds r ↔ s.putsOut r.queue = false := by
  obtain ⟨e, he, rfl⟩ := hr
  have hq : s.before.refuses s.target e = s.putsOut e.registration.queue :=
    refuses_eq_putsOut h he
  constructor
  · rintro ⟨e', he', heq⟩
    obtain ⟨hm, hf⟩ := mem_after.mp he'
    rw [← hq, ← h.eq_of_queue hm he (congrArg Registration.queue heq)]
    exact hf
  · intro hf
    exact ⟨e, mem_after.mpr ⟨he, hq.trans hf⟩, rfl⟩

theorem not_selects_of_lacks {s : Sending} {q : QueueId} (h : s.before.Lacks q) :
    s.selects q = false := by
  unfold selects
  rw [List.any_eq_false]
  intro e he
  simp [h e he]

end Sending

instance (x : Exchange) (r : Registration) : Decidable (x.Holds r) :=
  inferInstanceAs (Decidable (∃ e ∈ x.registry, e.registration = r))

/-- The sendings that a registration was there for. -/
def presentFor (r : Registration) (log : List Sending) : List Sending :=
  log.filter fun s => s.before.Holds r

/-- A log that goes on from an exchange in which a registration is there. -/
structure Continues (x : Exchange) (r : Registration) (log : List Sending) : Prop where
  holds : x.Holds r
  wellKept : ∀ s ∈ log, s.before.WellKept
  precedes : ∀ s ∈ log, x.Precedes s.before
  ordered : log.Pairwise fun s t => s.after.Precedes t.before

namespace Continues

variable {x : Exchange} {r : Registration} {log : List Sending}

/-- Whoever is not there any more is not coming back. -/
theorem retired (h : Continues x r log) {s : Sending} (hs : s ∈ log) (hr : ¬ s.before.Holds r) :
    s.before.Retired r.queue := ((h.precedes s hs).holds h.holds).resolve_right hr

/-- Once it is gone, a registration is there for nothing any more. -/
theorem stretch (h : Continues x r log) : presentFor r log <+: log := by
  induction log with
  | nil => exact List.prefix_rfl
  | cons s log ih =>
    obtain ⟨hnext, hordered⟩ := List.pairwise_cons.mp h.ordered
    have htail : Continues x r log :=
      ⟨h.holds, fun t ht => h.wellKept t (List.mem_cons_of_mem s ht),
        fun t ht => h.precedes t (List.mem_cons_of_mem s ht), hordered⟩
    unfold presentFor at ih ⊢
    by_cases hr : s.before.Holds r
    · rw [List.filter_cons_of_pos (by simpa using hr), List.prefix_cons_inj]
      exact ih htail
    · -- it is not there for `s`, and so not for anything that follows
      have hret := h.retired List.mem_cons_self hr
      have hnil : (s :: log).filter (fun s => s.before.Holds r) = [] := by
        rw [List.filter_eq_nil_iff]
        intro t ht
        rw [decide_eq_true_eq]
        rcases List.mem_cons.mp ht with rfl | ht
        · exact hr
        · have hlater : s.before.Precedes t.before :=
            (Sending.precedes_after (h.wellKept s List.mem_cons_self)).trans (hnext t ht)
          exact (hlater.retired _ hret).not_holds
      rw [hnil]
      exact List.nil_prefix

theorem removed_iff (h : Continues x r log) {s : Sending} (hs : s ∈ presentFor r log) :
    ¬ s.after.Holds r ↔ s.selects r.queue ∧ s.isRefusedBy r.queue := by
  obtain ⟨hs, hr⟩ := List.mem_filter.mp hs
  rw [Sending.holds_after_iff (h.wellKept s hs) (of_decide_eq_true hr)]
  unfold Sending.putsOut
  simp

/-- What reaches the queue reaches it while its registration is there. -/
theorem filter_reaches (h : Continues x r log) :
    log.filter (·.reaches r.queue) =
      ((presentFor r log).filter (·.selects r.queue)).filter fun s => !s.isRefusedBy r.queue := by
  unfold presentFor
  rw [List.filter_filter, List.filter_filter]
  refine List.filter_congr fun s hs => ?_
  by_cases hr : s.before.Holds r
  · rw [Sending.reaches_eq, decide_eq_true hr, Bool.and_true, Bool.and_comm]
  · rw [Sending.reaches_eq, Sending.not_selects_of_lacks (h.retired hs hr).2]
    simp

theorem eq_nil_of_removed (h : Continues x r log) {a b : List Sending} {s : Sending}
    (hab : presentFor r log = a ++ s :: b) (hs : ¬ s.after.Holds r) : b = [] := by
  cases b with
  | nil => rfl
  | cons t b =>
    exfalso
    have hin : ∀ u ∈ a ++ s :: t :: b, u ∈ log ∧ u.before.Holds r := by
      intro u hu
      obtain ⟨hu, hr⟩ := List.mem_filter.mp (hab ▸ hu)
      exact ⟨hu, of_decide_eq_true hr⟩
    obtain ⟨hmem, hsr⟩ := hin s (by simp)
    obtain ⟨-, htr⟩ := hin t (by simp)
    have hordered : (presentFor r log).Pairwise fun s t => s.after.Precedes t.before :=
      h.ordered.sublist List.filter_sublist
    rw [hab] at hordered
    have hst := (List.pairwise_cons.mp (List.pairwise_append.mp hordered).2.1).1 t
      List.mem_cons_self
    -- removed by `s`, it cannot be there again for `t`
    have hret := ((Sending.precedes_after (h.wellKept s hmem)).holds hsr).resolve_right hs
    exact (hst.retired _ hret).not_holds htr

end Continues

/--
What the log says of a registration: `before` was sent before it was handled, `since` from then on,
and `got` is everything that was ever put on its queue.
-/
structure ExactDelivery (r : Registration) (before since : List Sending) (got : List Envelope) :
    Prop where
  /-- It was not in the registry before. -/
  absent : ∀ s ∈ before, ¬ s.before.Holds r
  /-- From its insertion to its removal it is there for one stretch of the log. -/
  stretch : presentFor r since <+: since
  /-- It gets whatever is meant for it in that stretch, except what its queue refuses. -/
  exact : got = (((presentFor r since).filter (·.selects r.queue)).filter
    fun s => !s.isRefusedBy r.queue).map (·.frame)
  /-- A sending removes it exactly if it is meant for it and its queue is full or closed. -/
  removed : ∀ s ∈ presentFor r since,
    (¬ s.after.Holds r ↔ s.selects r.queue ∧ s.isRefusedBy r.queue)
  /-- That is the last sending it is there for, so there is no other that it refuses. -/
  last : ∀ a s b, presentFor r since = a ++ s :: b → ¬ s.after.Holds r → b = []

/-- Two frames that reach a queue come into it in the order of the log. -/
def InOrder (log : List Sending) (got : QueueId → List Envelope) : Prop :=
  ∀ a s b t c q, log = a ++ s :: b ++ t :: c → s.reaches q → t.reaches q →
    ∃ i j : Nat, i < j ∧ (got q)[i]? = some s.frame ∧ (got q)[j]? = some t.frame

theorem inOrder_of_filter {log : List Sending} {got : QueueId → List Envelope}
    (h : ∀ q, got q = (log.filter (·.reaches q)).map (·.frame)) : InOrder log got := by
  intro a s b t c q hlog hs ht
  subst hlog
  have hs' : ∀ l : List Sending, (s :: l).filter (·.reaches q) = s :: l.filter (·.reaches q) := by
    intro l
    simp [hs]
  have ht' : ∀ l : List Sending, (t :: l).filter (·.reaches q) = t :: l.filter (·.reaches q) := by
    intro l
    simp [ht]
  -- the place of a frame is the number of those before it that reached the queue
  refine ⟨(a.filter (·.reaches q)).length, ((a ++ s :: b).filter (·.reaches q)).length, ?_, ?_, ?_⟩
  · rw [List.filter_append, List.length_append, hs', List.length_cons]
    omega
  · rw [h, List.append_assoc, List.filter_append, List.map_append, List.cons_append, hs',
      List.getElem?_append_right (by simp)]
    simp
  · rw [h, List.filter_append, List.map_append, ht', List.getElem?_append_right (by simp)]
    simp

/-- A registration gets exactly what the log has for it. -/
theorem Exchange.Run.exact {past earlier later : List Incident} {x x₀ x₁ : Exchange}
    {r : Registration} {log : List Sending} (h : Run past x)
    (hp : past = earlier ++ .handled x₀ (.register r) log x₁ :: later) :
    ExactDelivery r (sendings earlier) (log ++ sendings later) (enqueued past x r.queue) := by
  obtain ⟨hlacks, x', hx', hpre, hlog⟩ := h.since hp
  have hall : sendings past = sendings earlier ++ (log ++ sendings later) := by
    rw [hp, sendings_append]
    rfl
  have hc : Continues x' r (log ++ sendings later) := by
    refine ⟨hx', fun s hs => (h.between ?_).1, hlog, ?_⟩
    · rw [hall]
      exact List.mem_append_right _ hs
    · exact (List.pairwise_append.mp (hall ▸ h.pairwise)).2.1
  refine ⟨?_, hc.stretch, ?_, fun s hs => hc.removed_iff hs, fun a s b => hc.eq_nil_of_removed⟩
  · intro s hs ⟨e, he, heq⟩
    exact hlacks s hs e he (congrArg Registration.queue heq)
  · -- nothing that was sent before it was handled came into its queue
    have hnil : (sendings earlier).filter (·.reaches r.queue) = [] := by
      rw [List.filter_eq_nil_iff]
      intro s hs hr
      rw [Sending.reaches_eq, Sending.not_selects_of_lacks (hlacks s hs)] at hr
      simp at hr
    rw [h.enqueued_eq, hall, List.filter_append, hnil, List.nil_append, hc.filter_reaches]

/--
**Exact delivery.** Whatever the hub handles and whatever happens at the receiving ends, every
registration gets exactly what the log has for it, and what reaches several queues does so in one
order.
-/
theorem exact_delivery {past : List Incident} {x : Exchange} (h : Run past x) :
    (∀ earlier x₀ r log x₁ later, past = earlier ++ .handled x₀ (.register r) log x₁ :: later →
      ExactDelivery r (sendings earlier) (log ++ sendings later) (enqueued past x r.queue)) ∧
    InOrder (sendings past) (enqueued past x) :=
  ⟨fun _ _ _ _ _ _ hp => h.exact hp, inOrder_of_filter h.enqueued_eq⟩

/-! ## A sample -/

namespace Sample

def midnight : Time.Timestamp := ⟨⟨2024, 1, 1⟩, 0, 0, 0, 0⟩

def bob : Registration := ⟨0, ⟨"bob", "Bob", false⟩, 0⟩

def ann : Registration := ⟨1, ⟨"ann", "Ann", false⟩, 1⟩

/-- Two queues, one with room for eight frames and one with room for one. -/
def start : Exchange :=
  { Exchange.empty midnight with mail := ((Mail.empty.create 8).2.create 1).2 }

def bobComes : Sending := .online (start.welcome bob) bob.identity midnight

def annComes : Sending := .online (bobComes.after.welcome ann) ann.identity midnight

def note : Envelope := .wrap midnight (.event (.postDeleted "1"))

/-- A note for Ann. -/
def notify (x : Exchange) : Sending :=
  ⟨x.count fun s => { s with published := s.published + 1 }, .user "ann", note, false⟩

def annGoes : Sending := .offline (notify (notify annComes.after).after).after "ann" midnight

/-- Bob registers, then Ann; she takes one note and is put out by the next. -/
def past : List Incident :=
  [.handled start (.register bob) [bobComes] bobComes.after,
    .handled bobComes.after (.register ann) [annComes] annComes.after,
    .handled annComes.after (.dispatch (.user "ann") note) [notify annComes.after]
      (notify annComes.after).after,
    .handled (notify annComes.after).after (.dispatch (.user "ann") note)
      [notify (notify annComes.after).after, annGoes] annGoes.after]

theorem admits_bob : start.Admits (.register bob) := by
  show start.Fresh 0
  exact ⟨⟨_, rfl, rfl⟩, by simp [Lacks, start, Exchange.empty]⟩

theorem admits_ann : bobComes.after.Admits (.register ann) := by
  show bobComes.after.Fresh 1
  refine ⟨⟨_, rfl, rfl⟩, ?_⟩
  intro e he
  rw [List.mem_singleton.mp (show e ∈ [bob.entry] from he)]
  decide

theorem run : Run past annGoes.after := by
  have h₀ : Run [] start :=
    .receive (.receive (.start midnight) (.create _ 8)) (.create _ 1)
  have hbob : Handling start (.register bob) [bobComes] bobComes.after :=
    .join midnight rfl (.mk (List.Perm.refl []) (.done _))
  have hann : Handling bobComes.after (.register ann) [annComes] annComes.after :=
    .join midnight rfl (.mk (List.Perm.refl []) (.done _))
  have hnote : Handling annComes.after (.dispatch (.user "ann") note) [notify annComes.after]
      (notify annComes.after).after :=
    .deliver (.mk (List.Perm.refl []) (.done _))
  have hgone : Handling (notify annComes.after).after (.dispatch (.user "ann") note)
      [notify (notify annComes.after).after, annGoes] annGoes.after :=
    .deliver (.mk (List.Perm.refl [ann.entry]) (.next midnight (List.Perm.refl []) (.done _)))
  have h₂ := (h₀.handle admits_bob hbob).handle admits_ann hann
  have h₃ := Run.handle h₂ (r := .dispatch (.user "ann") note) trivial hnote
  exact Run.handle h₃ (r := .dispatch (.user "ann") note) trivial hgone

end Sample

/-- Ann's queue holds the note that found room, and not the one that put her out. -/
theorem exact_delivery_sample : Run Sample.past Sample.annGoes.after ∧
    ExactDelivery Sample.ann [Sample.bobComes]
      [Sample.annComes, Sample.notify Sample.annComes.after,
        Sample.notify (Sample.notify Sample.annComes.after).after, Sample.annGoes]
      [Sample.note] :=
  ⟨Sample.run, (exact_delivery Sample.run).1 [_] _ _ _ _ [_, _] rfl⟩

end Switchboard
