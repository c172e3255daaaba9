import Mathlib.Data.List.Nodup
import Switchboard.Proofs.Sending

/-!
# What becomes of a queue's sender

A registration hands the sending end of its queue to the hub. The hub keeps it for as long as the
registration stands in the registry and lets go of it for good when the registration leaves. So a
queue is *fresh* before it is handed over, then *held* by one entry, and then *retired*; it never
goes back. `Precedes` says that nothing goes back between two exchanges, and everything that happens
to an exchange is shown to keep to it.

This is what makes "between insertion and removal" one stretch of a history: an entry that has left
cannot return, because its registration would need a sender that is gone.
-/

namespace Switchboard

open Wire

/-- What the connection of an entry handed over. -/
def Entry.registration (e : Entry) : Registration := ⟨e.connection, e.identity, e.queue⟩

namespace Exchange

/-- The frames that wait in a queue; none in one that never was. -/
def framesOf (x : Exchange) (q : QueueId) : List Envelope :=
  ((x.mail.get? q).map Queue.frames).getD []

/-- Whether somebody holds the sending end of a queue. -/
def HasSender (x : Exchange) (q : QueueId) : Prop :=
  ∃ a, x.mail.get? q = some a ∧ a.hasSender = true

/-- No entry has the queue. -/
def Lacks (x : Exchange) (q : QueueId) : Prop := ∀ e ∈ x.registry, e.queue ≠ q

/-- The sending end of the queue has not been handed over, and can be. -/
def Fresh (x : Exchange) (q : QueueId) : Prop := x.HasSender q ∧ x.Lacks q

/-- The hub has let go of the queue, and nobody can hand it over again. -/
def Retired (x : Exchange) (q : QueueId) : Prop :=
  (∃ a, x.mail.get? q = some a ∧ a.hasSender = false) ∧ x.Lacks q

/-- The connection of a registration is in the registry. -/
def Holds (x : Exchange) (r : Registration) : Prop := ∃ e ∈ x.registry, e.registration = r

/-- A user has one entry at most. -/
def UniqueUsers (x : Exchange) : Prop := (x.registry.map Entry.userId).Nodup

/-- What every exchange keeps to. -/
structure WellKept (x : Exchange) : Prop where
  users : x.UniqueUsers
  /-- Entries do not share queues. -/
  queues : (x.registry.map Entry.queue).Nodup
  /-- The hub has the sending end of every entry's queue. -/
  senders : ∀ e ∈ x.registry, x.HasSender e.queue

/-- Nothing goes back from one exchange to another. -/
structure Precedes (x y : Exchange) : Prop where
  retired : ∀ q, x.Retired q → y.Retired q
  entries : ∀ e ∈ x.registry, y.Retired e.queue ∨ y.Holds e.registration

theorem Precedes.refl (x : Exchange) : x.Precedes x where
  retired _ h := h
  entries e he := Or.inr ⟨e, he, rfl⟩

theorem Precedes.trans {x y z : Exchange} (h : x.Precedes y) (h' : y.Precedes z) :
    x.Precedes z where
  retired q hq := h'.retired q (h.retired q hq)
  entries := by
    intro e he
    rcases h.entries e he with hr | ⟨e', he', heq⟩
    · exact Or.inl (h'.retired _ hr)
    · have hq : e'.queue = e.queue := congrArg Registration.queue heq
      rw [← heq, ← hq]
      exact h'.entries e' he'

/-- A connection that was there and has not been let go of is still there. -/
theorem Precedes.holds {x y : Exchange} (h : x.Precedes y) {r : Registration} (hr : x.Holds r) :
    y.Retired r.queue ∨ y.Holds r := by
  obtain ⟨e, he, rfl⟩ := hr
  exact h.entries e he

theorem Retired.not_holds {x : Exchange} {r : Registration} (h : x.Retired r.queue) :
    ¬ x.Holds r := by
  intro ⟨e, he, heq⟩
  exact h.2 e he (congrArg Registration.queue heq)

theorem Fresh.not_retired {x : Exchange} {q : QueueId} (h : x.Fresh q) : ¬ x.Retired q := by
  intro hr
  obtain ⟨a, ha, hs⟩ := h.1
  obtain ⟨b, hb, hs'⟩ := hr.1
  rw [ha] at hb
  rw [Option.some.inj hb, hs'] at hs
  exact Bool.noConfusion hs

/-- A queue that can still be handed over has never had an entry. -/
theorem Precedes.lacks {x y : Exchange} (h : x.Precedes y) {q : QueueId} (hq : y.Fresh q) :
    x.Lacks q := by
  intro e he heq
  subst heq
  rcases h.entries e he with hr | ⟨e', he', heq'⟩
  · exact hq.not_retired hr
  · exact hq.2 e' he' (congrArg Registration.queue heq')

theorem WellKept.eq_of_queue {x : Exchange} (h : x.WellKept) {e e' : Entry}
    (he : e ∈ x.registry) (he' : e' ∈ x.registry) (hq : e.queue = e'.queue) : e = e' :=
  List.inj_on_of_nodup_map h.queues he he' hq

theorem UniqueUsers.eq_of_userId {x : Exchange} (h : x.UniqueUsers) {e e' : Entry}
    (he : e ∈ x.registry) (he' : e' ∈ x.registry) (hu : e.userId = e'.userId) : e = e' :=
  List.inj_on_of_nodup_map h he he' hu

theorem UniqueUsers.sublist {x y : Exchange} (h : x.UniqueUsers)
    (hs : y.registry.Sublist x.registry) : y.UniqueUsers :=
  List.Nodup.sublist (hs.map Entry.userId) h

/-! ## Coming and going -/

/-- The exchange without an entry, whose queue has been let go of. -/
def depart (x : Exchange) (e : Entry) : Exchange := (x.release e.queue).remove e.userId

theorem find?_eq_none {x : Exchange} {user : String} :
    x.find? user = none ↔ ∀ e ∈ x.registry, e.userId ≠ user := by
  unfold find?
  rw [List.find?_eq_none]
  simp

theorem mem_of_find? {x : Exchange} {user : String} {e : Entry} (h : x.find? user = some e) :
    e ∈ x.registry := List.mem_of_find?_eq_some h

theorem mem_depart {x : Exchange} {e e' : Entry} :
    e' ∈ (x.depart e).registry ↔ e' ∈ x.registry ∧ e'.userId ≠ e.userId := by
  show e' ∈ x.registry.filter _ ↔ _
  rw [List.mem_filter, decide_eq_true_eq]

theorem get?_depart (x : Exchange) (e : Entry) (q : QueueId) :
    (x.depart e).mail.get? q =
      if e.queue = q then (x.mail.get? q).map Queue.release else x.mail.get? q :=
  Mail.get?_modify x.mail e.queue Queue.release q

theorem retired_depart {x : Exchange} (h : x.WellKept) {e : Entry} (he : e ∈ x.registry) :
    (x.depart e).Retired e.queue := by
  constructor
  · obtain ⟨a, ha, -⟩ := h.senders e he
    refine ⟨a.release, ?_, rfl⟩
    rw [get?_depart, if_pos rfl, ha]
    rfl
  · intro e' he' heq
    obtain ⟨hm, hu⟩ := mem_depart.mp he'
    exact hu (congrArg Entry.userId (h.eq_of_queue hm he heq))

theorem precedes_depart {x : Exchange} (h : x.WellKept) {e : Entry} (he : e ∈ x.registry) :
    x.Precedes (x.depart e) where
  retired := by
    intro q ⟨⟨a, ha, hs⟩, hl⟩
    refine ⟨?_, fun e' he' => hl e' (mem_depart.mp he').1⟩
    rw [get?_depart, if_neg (hl e he)]
    exact ⟨a, ha, hs⟩
  entries := by
    intro e' he'
    by_cases hu : e'.userId = e.userId
    · rw [h.users.eq_of_userId he' he hu]
      exact Or.inl (retired_depart h he)
    · exact Or.inr ⟨e', mem_depart.mpr ⟨he', hu⟩, rfl⟩

theorem wellKept_depart {x : Exchange} (h : x.WellKept) {e : Entry} (he : e ∈ x.registry) :
    (x.depart e).WellKept where
  users := h.users.sublist List.filter_sublist
  queues := h.queues.sublist (List.filter_sublist.map _)
  senders := by
    intro e' he'
    obtain ⟨hm, hu⟩ := mem_depart.mp he'
    unfold HasSender
    -- the queue let go of was nobody else's
    rw [get?_depart, if_neg]
    · exact h.senders e' hm
    · intro hq
      exact hu (congrArg Entry.userId (h.eq_of_queue he hm hq)).symm

theorem precedes_insert {x : Exchange} {r : Registration} (hf : x.Fresh r.queue) :
    x.Precedes (x.insert r.entry) where
  retired := by
    intro q hq
    refine ⟨hq.1, ?_⟩
    intro e he heq
    rcases List.mem_append.mp he with h | h
    · exact hq.2 e h heq
    · rw [List.mem_singleton.mp h] at heq
      have heq' : r.queue = q := heq
      subst heq'
      exact hf.not_retired hq
  entries := fun e he => Or.inr ⟨e, List.mem_append_left _ he, rfl⟩

theorem uniqueUsers_insert {x : Exchange} (h : x.UniqueUsers) {r : Registration}
    (hu : x.find? r.identity.userId = none) : (x.insert r.entry).UniqueUsers := by
  show ((x.registry ++ [r.entry]).map Entry.userId).Nodup
  rw [List.map_append, List.map_singleton, List.nodup_append]
  refine ⟨h, List.nodup_singleton _, ?_⟩
  intro u hu' v hv
  obtain ⟨e, he, rfl⟩ := List.mem_map.mp hu'
  rw [List.mem_singleton.mp hv]
  exact find?_eq_none.mp hu e he

theorem wellKept_insert {x : Exchange} (h : x.WellKept) {r : Registration}
    (hf : x.Fresh r.queue) (hu : x.find? r.identity.userId = none) :
    (x.insert r.entry).WellKept where
  users := uniqueUsers_insert h.users hu
  queues := by
    show ((x.registry ++ [r.entry]).map Entry.queue).Nodup
    rw [List.map_append, List.map_singleton, List.nodup_append]
    refine ⟨h.queues, List.nodup_singleton _, ?_⟩
    intro q hq v hv
    obtain ⟨e, he, rfl⟩ := List.mem_map.mp hq
    rw [List.mem_singleton.mp hv]
    exact hf.2 e he
  senders := by
    intro e he
    rcases List.mem_append.mp he with h' | h'
    · exact h.senders e h'
    · rw [List.mem_singleton.mp h']
      exact hf.1

theorem holds_insert (x : Exchange) (r : Registration) : (x.insert r.entry).Holds r :=
  ⟨r.entry, List.mem_append_right _ (List.mem_singleton.mpr rfl), rfl⟩

/-! ## Listening -/

theorem mem_updateTopics {x : Exchange} {user : String} {c : ConnectionId}
    {f : List Topic → List Topic} {e : Entry} (he : e ∈ (x.updateTopics user c f).registry) :
    ∃ e₀ ∈ x.registry, e₀.registration = e.registration ∧
      e.topics = if e₀.userId = user ∧ e₀.connection = c then f e₀.topics else e₀.topics := by
  obtain ⟨e₀, he₀, rfl⟩ := List.mem_map.mp he
  refine ⟨e₀, he₀, ?_⟩
  split
  · exact ⟨rfl, rfl⟩
  · exact ⟨rfl, rfl⟩

theorem map_registration_updateTopics (x : Exchange) (user : String) (c : ConnectionId)
    (f : List Topic → List Topic) :
    (x.updateTopics user c f).registry.map Entry.registration =
      x.registry.map Entry.registration := by
  unfold updateTopics
  rw [List.map_map]
  refine List.map_congr_left fun e _ => ?_
  simp only [Function.comp_apply]
  split <;> rfl

theorem map_userId_updateTopics (x : Exchange) (user : String) (c : ConnectionId)
    (f : List Topic → List Topic) :
    (x.updateTopics user c f).registry.map Entry.userId = x.registry.map Entry.userId := by
  have h := congrArg (List.map fun r : Registration => r.identity.userId)
    (map_registration_updateTopics x user c f)
  rw [List.map_map, List.map_map] at h
  exact h

theorem uniqueUsers_updateTopics {x : Exchange} (h : x.UniqueUsers) (user : String)
    (c : ConnectionId) (f : List Topic → List Topic) : (x.updateTopics user c f).UniqueUsers := by
  unfold UniqueUsers
  rw [map_userId_updateTopics]
  exact h

theorem precedes_updateTopics (x : Exchange) (user : String) (c : ConnectionId)
    (f : List Topic → List Topic) : x.Precedes (x.updateTopics user c f) where
  retired := by
    intro q hq
    refine ⟨hq.1, fun e he => ?_⟩
    obtain ⟨e₀, he₀, heq, -⟩ := mem_updateTopics he
    have : e₀.queue = e.queue := congrArg Registration.queue heq
    rw [← this]
    exact hq.2 e₀ he₀
  entries := by
    intro e he
    have hm : e.registration ∈ (x.updateTopics user c f).registry.map Entry.registration := by
      rw [map_registration_updateTopics]
      exact List.mem_map_of_mem he
    obtain ⟨e', he', heq⟩ := List.mem_map.mp hm
    exact Or.inr ⟨e', he', heq⟩

theorem wellKept_updateTopics {x : Exchange} (h : x.WellKept) (user : String) (c : ConnectionId)
    (f : List Topic → List Topic) : (x.updateTopics user c f).WellKept := by
  refine ⟨uniqueUsers_updateTopics h.users user c f, ?_, ?_⟩
  · have hq := congrArg (List.map Registration.queue) (map_registration_updateTopics x user c f)
    rw [List.map_map, List.map_map] at hq
    exact hq ▸ h.queues
  · intro e he
    obtain ⟨e₀, he₀, heq, -⟩ := mem_updateTopics he
    have : e₀.queue = e.queue := congrArg Registration.queue heq
    rw [← this]
    exact h.senders e₀ he₀

/-! ## What receivers do -/

/-- The same senders are held. -/
def SameSenders (m m' : Mail) : Prop :=
  ∀ q a, m.get? q = some a → ∃ b, m'.get? q = some b ∧ b.hasSender = a.hasSender

theorem precedes_withMail {x : Exchange} {m : Mail} (hm : SameSenders x.mail m) :
    x.Precedes { x with mail := m } where
  retired := by
    intro q ⟨⟨a, ha, hs⟩, hl⟩
    obtain ⟨b, hb, hb'⟩ := hm q a ha
    exact ⟨⟨b, hb, hb'.trans hs⟩, hl⟩
  entries := fun e he => Or.inr ⟨e, he, rfl⟩

theorem wellKept_withMail {x : Exchange} (h : x.WellKept) {m : Mail}
    (hm : SameSenders x.mail m) : ({ x with mail := m } : Exchange).WellKept where
  users := h.users
  queues := h.queues
  senders := by
    intro e he
    obtain ⟨a, ha, hs⟩ := h.senders e he
    obtain ⟨b, hb, hb'⟩ := hm _ a ha
    exact ⟨b, hb, hb'.trans hs⟩

theorem sameSenders_modify (m : Mail) (q : QueueId) {f : Queue → Queue}
    (hf : ∀ a, (f a).hasSender = a.hasSender) : SameSenders m (m.modify q f) := by
  intro q' a ha
  rw [Mail.get?_modify]
  split
  · exact ⟨f a, by rw [ha]; rfl, hf a⟩
  · exact ⟨a, ha, rfl⟩

theorem sameSenders_create (m : Mail) (capacity : Nat) :
    SameSenders m (m.create capacity).2 := by
  intro q a ha
  rw [Mail.get?_create]
  split
  · rename_i hq
    have : m.get? q = none := by
      subst hq
      exact List.getElem?_eq_none (Nat.le_refl _)
    rw [this] at ha
    simp at ha
  · exact ⟨a, ha, rfl⟩

end Exchange

/-! ## Sendings -/

namespace Sending

open Exchange

theorem refuses_eq_putsOut {s : Sending} (h : s.before.WellKept) {e : Entry}
    (he : e ∈ s.before.registry) : s.before.refuses s.target e = s.putsOut e.queue := by
  rw [Bool.eq_iff_iff]
  unfold putsOut selects isRefusedBy Exchange.refuses Exchange.refusal?
  simp only [Bool.and_eq_true, List.any_eq_true, decide_eq_true_eq]
  constructor
  · rintro ⟨hs, hr⟩
    exact ⟨⟨e, he, rfl, hs⟩, hr⟩
  · rintro ⟨⟨e', he', hq, hs⟩, hr⟩
    rw [h.eq_of_queue he' he hq] at hs
    exact ⟨hs, hr⟩

theorem not_reaches_of_putsOut {s : Sending} {q : QueueId} (h : s.putsOut q = true) :
    s.reaches q = false := by
  unfold putsOut at h
  unfold reaches
  rw [Bool.and_eq_true] at h
  rw [h.2, Bool.not_true, Bool.and_false]

theorem hasSender_after {s : Sending} {q : QueueId} (h : s.putsOut q = false)
    (hs : s.before.HasSender q) : s.after.HasSender q := by
  obtain ⟨a, ha, ht⟩ := hs
  unfold HasSender
  rw [get?_after, ha, h]
  by_cases hr : s.reaches q = true
  · exact ⟨a.push s.frame, by simp [hr], ht⟩
  · exact ⟨a, by simp [hr], ht⟩

theorem precedes_after {s : Sending} (h : s.before.WellKept) : s.before.Precedes s.after where
  retired := by
    intro q ⟨⟨a, ha, hs⟩, hl⟩
    refine ⟨?_, fun e he => hl e (mem_after.mp he).1⟩
    rw [get?_after, ha]
    refine ⟨_, rfl, ?_⟩
    split
    · exact hs
    · split
      · rfl
      · exact hs
  entries := by
    intro e he
    by_cases hp : s.putsOut e.queue = true
    · -- an entry that is put out takes its queue along
      refine Or.inl ⟨?_, ?_⟩
      · obtain ⟨a, ha, -⟩ := h.senders e he
        refine ⟨a.release, ?_, rfl⟩
        rw [get?_after, ha, not_reaches_of_putsOut hp, hp]
        rfl
      · intro e' he' hq
        obtain ⟨hm, hr⟩ := mem_after.mp he'
        rw [refuses_eq_putsOut h hm, hq, hp] at hr
        exact Bool.noConfusion hr
    · refine Or.inr ⟨e, mem_after.mpr ⟨he, ?_⟩, rfl⟩
      rw [refuses_eq_putsOut h he]
      exact Bool.eq_false_iff.mpr hp

theorem wellKept_after {s : Sending} (h : s.before.WellKept) : s.after.WellKept where
  users := h.users.sublist s.after_sublist
  queues := h.queues.sublist (s.after_sublist.map _)
  senders := by
    intro e he
    obtain ⟨hm, hr⟩ := mem_after.mp he
    rw [refuses_eq_putsOut h hm] at hr
    exact hasSender_after hr (h.senders e hm)

/-- A queue has one frame more after a sending that reaches it, and no other. -/
theorem framesOf_after (s : Sending) (q : QueueId) :
    s.after.framesOf q = s.before.framesOf q ++ if s.reaches q then [s.frame] else [] := by
  unfold framesOf
  rw [get?_after]
  cases hq : s.before.mail.get? q with
  | none =>
    -- a queue that never was takes nothing
    have hr : s.reaches q = false := by
      unfold reaches isRefusedBy Mail.refusal?
      rw [hq]
      simp
    simp [hr]
  | some a =>
    by_cases hr : s.reaches q = true
    · simp [hr, Queue.push]
    · by_cases hp : s.putsOut q = true
      · simp [hr, hp, Queue.release]
      · simp [hr, hp]

end Sending

/-! ## One sending after another -/

/-- `Linked x log y`: the sendings of `log`, each met by what the one before left, lead from `x` to
`y`. -/
inductive Linked : Exchange → List Sending → Exchange → Prop
  | nil (x : Exchange) : Linked x [] x
  | cons {s : Sending} {log : List Sending} {y : Exchange} :
      Linked s.after log y → Linked s.before (s :: log) y

theorem Announcing.linked {x y : Exchange} {users : List String} {log : List Sending}
    (h : Announcing x users log y) : Linked x log y := by
  induction h with
  | done x => exact .nil x
  | next time _ _ ih => exact .cons ih

theorem Spreading.linked {s : Sending} {log : List Sending} {y : Exchange}
    (h : Spreading s log y) : Linked s.before log y := by
  cases h with
  | mk _ ha => exact .cons ha.linked

namespace Linked

open Exchange

variable {x y : Exchange} {log : List Sending}

theorem wellKept (h : Linked x log y) (hx : x.WellKept) : y.WellKept := by
  induction h with
  | nil x => exact hx
  | cons _ ih => exact ih (Sending.wellKept_after hx)

theorem precedes (h : Linked x log y) (hx : x.WellKept) : x.Precedes y := by
  induction h with
  | nil x => exact .refl x
  | cons _ ih => exact (Sending.precedes_after hx).trans (ih (Sending.wellKept_after hx))

/-- Nobody enters the registry by sendings, and nobody's entry changes. -/
theorem sublist (h : Linked x log y) : y.registry.Sublist x.registry := by
  induction h with
  | nil x => exact List.Sublist.refl _
  | @cons s log y _ ih => exact ih.trans s.after_sublist

/-- Every sending lies between the first exchange and the last. -/
theorem between (h : Linked x log y) (hx : x.WellKept) {s : Sending} (hs : s ∈ log) :
    s.before.WellKept ∧ x.Precedes s.before ∧ s.after.Precedes y := by
  induction h with
  | nil x => simp at hs
  | @cons t log y hl ih =>
    have ha := Sending.wellKept_after hx
    rcases List.mem_cons.mp hs with rfl | hs
    · exact ⟨hx, .refl _, hl.precedes ha⟩
    · obtain ⟨hw, hp, hq⟩ := ih ha hs
      exact ⟨hw, (Sending.precedes_after hx).trans hp, hq⟩

theorem pairwise (h : Linked x log y) (hx : x.WellKept) :
    log.Pairwise fun s t => s.after.Precedes t.before := by
  induction h with
  | nil x => exact List.Pairwise.nil
  | cons hl ih =>
    have ha := Sending.wellKept_after hx
    exact List.pairwise_cons.mpr ⟨fun t ht => (hl.between ha ht).2.1, ih ha⟩

/-- The frames that have come into a queue are those of the sendings that reached it. -/
theorem framesOf (h : Linked x log y) (q : QueueId) :
    y.framesOf q = x.framesOf q ++ (log.filter (·.reaches q)).map (·.frame) := by
  induction h with
  | nil x => simp
  | @cons s log y _ ih =>
    rw [ih, Sending.framesOf_after]
    by_cases hr : s.reaches q = true
    · simp [hr]
    · simp [hr]

end Linked

/-! ## Handling a request -/

namespace Exchange

/-- A registration has to bring the sending end of its queue. -/
def Admits (x : Exchange) : Request → Prop
  | .register r => x.Fresh r.queue
  | _ => True

/-- What handling a request changes before anything is sent. -/
structure Begins (x : Exchange) (r : Request) (x' : Exchange) : Prop where
  wellKept : x'.WellKept
  precedes : x.Precedes x'
  /-- No frames come or go. -/
  framesOf : ∀ q, x'.framesOf q = x.framesOf q
  /-- A connection that registers is in the registry. -/
  holds : ∀ reg, r = .register reg → x'.Holds reg

theorem framesOf_release (x : Exchange) (q q' : QueueId) :
    (x.release q).framesOf q' = x.framesOf q' := by
  unfold Exchange.framesOf release
  rw [Mail.get?_modify]
  split
  · cases x.mail.get? q' with
    | none => rfl
    | some a => rfl
  · rfl

theorem framesOf_depart (x : Exchange) (e : Entry) (q : QueueId) :
    (x.depart e).framesOf q = x.framesOf q := framesOf_release x e.queue q

/-- Counting changes nothing that matters here. -/
theorem wellKept_count {x : Exchange} (h : x.WellKept) (f : Stats → Stats) :
    (x.count f).WellKept := ⟨h.users, h.queues, h.senders⟩

theorem precedes_count (x : Exchange) (f : Stats → Stats) : x.Precedes (x.count f) :=
  ⟨fun _ h => h, fun e he => Or.inr ⟨e, he, rfl⟩⟩

theorem begins_welcome {x : Exchange} (h : x.WellKept) {r : Registration} (hf : x.Fresh r.queue)
    (hu : x.find? r.identity.userId = none) : x.Begins (.register r) (x.welcome r) where
  wellKept := wellKept_insert (wellKept_count h _) hf hu
  precedes := (precedes_count x _).trans (precedes_insert hf)
  framesOf _ := rfl
  holds _ hr := Request.register.inj hr ▸ holds_insert _ r

theorem begins_discharge {x : Exchange} (h : x.WellKept) {e : Entry} (he : e ∈ x.registry)
    (user : String) (c : ConnectionId) : x.Begins (.unregister user c) (x.discharge e) where
  wellKept := wellKept_count (wellKept_depart h he) _
  precedes := (precedes_depart h he).trans (precedes_count _ _)
  framesOf q := framesOf_depart x e q
  holds _ hr := by simp at hr

theorem register_replace {x : Exchange} {r : Registration} {previous : Entry}
    (hf : x.find? r.identity.userId = some previous) :
    x.register r = ((x.depart previous).insert r.entry).count fun s =>
      { s with registered := s.registered + 1 } := by
  unfold register
  have hf' : (x.count fun s => { s with registered := s.registered + 1 }).find?
      r.identity.userId = some previous := hf
  simp only [hf']
  rw [← userId_of_find? hf]
  rfl

theorem begins_replace {x : Exchange} (h : x.WellKept) {r : Registration} {previous : Entry}
    (hq : x.Fresh r.queue) (hf : x.find? r.identity.userId = some previous) :
    x.Begins (.register r) (x.register r) := by
  have hm := mem_of_find? hf
  have hd := wellKept_depart h hm
  -- the queue that is let go of is the previous connection's
  have hfresh : (x.depart previous).Fresh r.queue := by
    refine ⟨?_, fun e he => hq.2 e (mem_depart.mp he).1⟩
    unfold HasSender
    rw [get?_depart, if_neg (hq.2 previous hm)]
    exact hq.1
  have hnone : (x.depart previous).find? r.identity.userId = none := by
    rw [find?_eq_none]
    intro e he
    rw [← userId_of_find? hf]
    exact (mem_depart.mp he).2
  rw [register_replace hf]
  refine ⟨?_, ?_, ?_, ?_⟩
  · exact wellKept_count (wellKept_insert hd hfresh hnone) _
  · exact (precedes_depart h hm).trans ((precedes_insert hfresh).trans (precedes_count _ _))
  · exact fun q => framesOf_depart x previous q
  · exact fun reg hr => Request.register.inj hr ▸ holds_insert _ r

theorem begins_count {x : Exchange} (h : x.WellKept) (f : Stats → Stats) {r : Request}
    (hr : ∀ reg, r ≠ .register reg) : x.Begins r (x.count f) where
  wellKept := wellKept_count h f
  precedes := precedes_count x f
  framesOf _ := rfl
  holds _ heq := absurd heq (hr _)

theorem begins_updateTopics {x : Exchange} (h : x.WellKept) {user : String} {c : ConnectionId}
    {f : List Topic → List Topic} {r : Request} (hr : ∀ reg, r ≠ .register reg) :
    x.Begins r (x.updateTopics user c f) where
  wellKept := wellKept_updateTopics h user c f
  precedes := precedes_updateTopics x user c f
  framesOf _ := rfl
  holds _ heq := absurd heq (hr _)

end Exchange

/-- **Handling a request is a direct change and then sendings.** -/
theorem Handling.begins {x y : Exchange} {r : Request} {log : List Sending}
    (h : Handling x r log y) (hx : x.WellKept) (ha : x.Admits r) :
    ∃ x', x.Begins r x' ∧ Linked x' log y := by
  cases h with
  | join time hf hs => exact ⟨_, Exchange.begins_welcome hx ha hf, hs.linked⟩
  | replace hf => exact ⟨_, Exchange.begins_replace hx ha hf, .nil _⟩
  | leave hf hs =>
    have hm := Exchange.mem_of_find? (Exchange.findConnection?_eq_some.mp hf).1
    exact ⟨_, Exchange.begins_discharge hx hm _ _, hs.linked⟩
  | stay hf => exact ⟨x, ⟨hx, .refl x, fun _ => rfl, fun _ hr => by simp at hr⟩, .nil x⟩
  | deliver hs =>
    have hl := hs.linked
    dsimp only at hl
    exact ⟨_, Exchange.begins_count hx _ (by simp), hl⟩
  | subscribe user c topics =>
    exact ⟨_, Exchange.begins_updateTopics hx (fun _ => by simp), .nil _⟩
  | unsubscribe user c topics =>
    exact ⟨_, Exchange.begins_updateTopics hx (fun _ => by simp), .nil _⟩

/-! ## Histories -/

section Histories

variable {α : Type} {past new earlier later : List α} {i j : α}

/-- A history that is continued by what does not contain an incident has it where it was. -/
theorem split_append (h : past ++ new = earlier ++ i :: later) (hi : i ∉ new) :
    ∃ middle, later = middle ++ new ∧ past = earlier ++ i :: middle := by
  rcases List.append_eq_append_iff.mp h with ⟨a, -, ha⟩ | ⟨c, hc, hl⟩
  · exact absurd (ha ▸ List.mem_append_right _ List.mem_cons_self) hi
  · cases c with
    | nil => exact absurd (List.nil_append new ▸ hl ▸ List.mem_cons_self) hi
    | cons j c =>
      obtain ⟨rfl, rfl⟩ := List.cons.inj hl
      exact ⟨c, rfl, hc⟩

theorem split_snoc (h : past ++ [j] = earlier ++ i :: later) :
    (later = [] ∧ past = earlier ∧ j = i) ∨
      ∃ middle, later = middle ++ [j] ∧ past = earlier ++ i :: middle := by
  rcases List.eq_nil_or_concat later with rfl | ⟨middle, k, rfl⟩
  · obtain ⟨hp, hj⟩ := List.append_inj' h rfl
    exact Or.inl ⟨rfl, hp, List.head_eq_of_cons_eq hj⟩
  · rw [List.concat_eq_append, ← List.cons_append, ← List.append_assoc] at h
    obtain ⟨hp, hj⟩ := List.append_inj' h rfl
    exact Or.inr ⟨middle, by rw [hj, List.concat_eq_append], hp⟩

end Histories

end Switchboard
