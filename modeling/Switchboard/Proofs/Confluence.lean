import Mathlib.Data.List.Perm.Subperm
import Mathlib.Logic.Relation
import Switchboard.Proofs.Cascade

/-!
# One outcome in any order

The registry has no order, so whoever is put out by one frame is announced in no particular order,
and which announcements a connection still gets before it is put out itself depends on that. What
comes of it all does not. Every round announces somebody who is gone to everyone who is there, so
two cascades that differ only in their order go through their rounds in step: after each round the
same connections are there, with as many frames each (`Announcing.alike`). When nobody waits any
more, those who stayed have been told of everyone who left, in one order or another.
-/

namespace Switchboard

open Wire Exchange

/-! ## Rounds -/

/--
One round of announcing: the first who waits is announced, and those put out wait before the others,
in any order.
-/
inductive Round : Exchange × List String → Exchange × List String → Prop
  | mk (x : Exchange) (user : String) (waiting : List String) (time : Time.Timestamp)
      {out : List Entry} :
      out.Perm (Sending.offline x user time).refusers →
      Round (x, user :: waiting)
        ((Sending.offline x user time).after, out.map Entry.userId ++ waiting)

/-- Whoever comes to wait leaves the registry, and one who waited does not wait any more. -/
theorem Round.measure {a b : Exchange × List String} (h : Round a b) :
    b.2.length + b.1.registry.length + 1 = a.2.length + a.1.registry.length := by
  cases h with
  | @mk x user waiting time out ho =>
    have hsplit : (Sending.offline x user time).refusers.length +
        (Sending.offline x user time).after.registry.length = x.registry.length :=
      length_fanOut x _ _
    have hout := ho.length_eq
    simp only [List.length_append, List.length_map, List.length_cons]
    omega

/-- **Rounds end, in whatever order.** -/
theorem wellFounded_round : WellFounded fun b a => Round a b := by
  refine Subrelation.wf (r := fun b a : Exchange × List String =>
    b.2.length + b.1.registry.length < a.2.length + a.1.registry.length) ?_
    (measure fun a : Exchange × List String => a.2.length + a.1.registry.length).wf
  intro b a h
  have := h.measure
  omega

/-- Announcing is going through rounds until nobody waits. -/
theorem announcing_iff_rounds {x y : Exchange} {users : List String} :
    (∃ log, Announcing x users log y) ↔ Relation.ReflTransGen Round (x, users) (y, []) := by
  constructor
  · rintro ⟨log, h⟩
    induction h with
    | done x => exact .refl
    | next time ho _ ih => exact .head (.mk _ _ _ time ho) ih
  · intro h
    generalize ha : (x, users) = a at h
    generalize hb : (y, ([] : List String)) = b at h
    induction h using Relation.ReflTransGen.head_induction_on generalizing x users with
    | refl =>
      obtain ⟨rfl, rfl⟩ := Prod.mk.inj (ha.trans hb.symm)
      exact ⟨[], .done _⟩
    | head hr _ ih =>
      cases hr with
      | mk x user waiting time ho =>
        obtain ⟨rfl, rfl⟩ := Prod.mk.inj ha
        obtain ⟨log, hl⟩ := ih rfl
        exact ⟨_, .next time ho hl⟩

/-! ## Likeness -/

/-- A queue but for what its frames say. -/
def Queue.outline (a : Queue) : Nat × Nat × Receiver × Bool :=
  (a.capacity, a.frames.length, a.receiver, a.hasSender)

/-- Two exchanges that differ in nothing but the order of entries and what waits in the queues. -/
structure Exchange.Alike (x y : Exchange) : Prop where
  registry : x.registry.Perm y.registry
  stats : x.stats = y.stats
  /-- Every queue has as many frames in both, and room for as many. -/
  queues : ∀ q, (x.mail.get? q).map Queue.outline = (y.mail.get? q).map Queue.outline

theorem Exchange.Alike.refl (x : Exchange) : x.Alike x :=
  ⟨List.Perm.refl _, rfl, fun _ => rfl⟩

theorem Queue.refusal?_of_outline {a b : Queue} (h : a.outline = b.outline) :
    a.refusal? = b.refusal? := by
  simp only [outline, Prod.mk.injEq] at h
  unfold refusal?
  rw [h.1, h.2.1, h.2.2.1]

/-- What becomes of a queue's outline when its sender lets go. -/
theorem Queue.outline_release {a b : Queue} (h : a.outline = b.outline) :
    a.release.outline = b.release.outline := by
  simp only [outline, Prod.mk.injEq] at h
  simp [outline, release, h]

theorem Queue.outline_push {a b : Queue} (h : a.outline = b.outline) (frame frame' : Envelope) :
    (a.push frame).outline = (b.push frame').outline := by
  simp only [outline, Prod.mk.injEq] at h
  simp [outline, push, h]

/-- Two lists of the same elements keep the same elements under the same test. -/
theorem perm_filter_congr {α : Type} {l l' : List α} {p p' : α → Bool} (h : l.Perm l')
    (hp : ∀ a ∈ l, p a = p' a) : (l.filter p).Perm (l'.filter p') := by
  rw [List.filter_congr hp]
  exact h.filter p'

namespace Exchange

theorem find?_eq_some_iff {x : Exchange} (h : x.UniqueUsers) {user : String} {e : Entry} :
    x.find? user = some e ↔ e ∈ x.registry ∧ e.userId = user := by
  constructor
  · exact fun hf => ⟨mem_of_find? hf, userId_of_find? hf⟩
  · rintro ⟨he, rfl⟩
    cases hf : x.find? e.userId with
    | none => exact absurd rfl (find?_eq_none.mp hf e he)
    | some e' => rw [h.eq_of_userId (mem_of_find? hf) he (userId_of_find? hf)]

namespace Alike

variable {x x' : Exchange}

theorem uniqueUsers (h : x.Alike x') (hx : x.UniqueUsers) : x'.UniqueUsers :=
  ((h.registry.map Entry.userId).nodup_iff).mp hx

theorem hasSender (h : x.Alike x') {q : QueueId} (hq : x.HasSender q) : x'.HasSender q := by
  obtain ⟨a, ha, hs⟩ := hq
  have hm := h.queues q
  rw [ha] at hm
  obtain ⟨b, hb, hab⟩ := Option.map_eq_some_iff.mp hm.symm
  simp only [Queue.outline, Prod.mk.injEq] at hab
  exact ⟨b, hb, hab.2.2.2.trans hs⟩

theorem wellKept (h : x.Alike x') (hx : x.WellKept) : x'.WellKept where
  users := h.uniqueUsers hx.users
  queues := ((h.registry.map Entry.queue).nodup_iff).mp hx.queues
  senders e he := h.hasSender (hx.senders e (h.registry.mem_iff.mpr he))

theorem admits (h : x.Alike x') {r : Request} (ha : x.Admits r) : x'.Admits r := by
  cases r with
  | register r => exact ⟨h.hasSender ha.1, fun e he => ha.2 e (h.registry.mem_iff.mpr he)⟩
  | _ => trivial

theorem isOnline_eq (h : x.Alike x') (u : String) : x.isOnline u = x'.isOnline u := by
  rw [Bool.eq_iff_iff, isOnline_iff, isOnline_iff, (h.registry.map Entry.userId).mem_iff]

theorem find?_eq (h : x.Alike x') (hx : x.UniqueUsers) (u : String) :
    x.find? u = x'.find? u := by
  ext e
  rw [find?_eq_some_iff hx, find?_eq_some_iff (h.uniqueUsers hx), h.registry.mem_iff]

theorem findConnection?_eq (h : x.Alike x') (hx : x.UniqueUsers) (u : String)
    (c : ConnectionId) : x.findConnection? u c = x'.findConnection? u c := by
  unfold findConnection?
  rw [h.find?_eq hx]

theorem refusal?_eq (h : x.Alike x') (q : QueueId) : x.mail.refusal? q = x'.mail.refusal? q := by
  have hq := h.queues q
  unfold Mail.refusal?
  cases hx : x.mail.get? q with
  | none =>
    rw [hx] at hq
    rw [Option.map_eq_none_iff.mp hq.symm]
  | some a =>
    rw [hx] at hq
    obtain ⟨b, hb, hab⟩ := Option.map_eq_some_iff.mp hq.symm
    rw [hb]
    exact Queue.refusal?_of_outline hab.symm

/-! ### What a request changes directly -/

theorem count (h : x.Alike x') (f : Stats → Stats) : (x.count f).Alike (x'.count f) :=
  ⟨h.registry, congrArg f h.stats, h.queues⟩

theorem insert (h : x.Alike x') (e : Entry) : (x.insert e).Alike (x'.insert e) :=
  ⟨h.registry.append_right [e], h.stats, h.queues⟩

theorem depart (h : x.Alike x') (e : Entry) : (x.depart e).Alike (x'.depart e) := by
  refine ⟨h.registry.filter _, h.stats, fun q => ?_⟩
  rw [get?_depart, get?_depart]
  split
  · have hq := h.queues q
    cases hx : x.mail.get? q with
    | none =>
      rw [hx] at hq
      rw [Option.map_eq_none_iff.mp hq.symm]
    | some a =>
      rw [hx] at hq
      obtain ⟨b, hb, hab⟩ := Option.map_eq_some_iff.mp hq.symm
      rw [hb]
      exact congrArg some (Queue.outline_release hab.symm)
  · exact h.queues q

theorem updateTopics (h : x.Alike x') (user : String) (c : ConnectionId)
    (f : List Topic → List Topic) :
    (x.updateTopics user c f).Alike (x'.updateTopics user c f) :=
  ⟨h.registry.map _, h.stats, h.queues⟩

end Alike

end Exchange

/-! ## In step -/

namespace Sending

/-- Those whom a frame puts out, and why. -/
def evictions (s : Sending) : List (String × Option DeliveryFault) :=
  s.refusers.map fun e => (e.userId, s.before.refusal? e)

theorem stats_after (s : Sending) :
    s.after.stats = { s.before.stats with
      delivered := s.before.stats.delivered +
        (s.before.registry.filter (s.before.takes s.target)).length
      slowConsumerEvictions := s.before.stats.slowConsumerEvictions +
        (s.refusers.filter fun e => s.before.refusal? e = some .queueFull).length
      unregistered := s.before.stats.unregistered + s.refusers.length } := rfl

variable {s s' : Sending}

section InStep

variable (h : s.before.Alike s'.before)
  (hs : ∀ e ∈ s.before.registry, s.target.selects e = s'.target.selects e)

include h hs

theorem refuses_alike {e : Entry} (he : e ∈ s.before.registry) :
    s.before.refuses s.target e = s'.before.refuses s'.target e := by
  unfold Exchange.refuses Exchange.refusal?
  rw [hs e he, h.refusal?_eq]

theorem takes_alike {e : Entry} (he : e ∈ s.before.registry) :
    s.before.takes s.target e = s'.before.takes s'.target e := by
  unfold Exchange.takes Exchange.refusal?
  rw [hs e he, h.refusal?_eq]

theorem selects_alike (q : QueueId) : s.selects q = s'.selects q := by
  rw [Bool.eq_iff_iff]
  unfold selects
  rw [List.any_eq_true, List.any_eq_true]
  constructor
  · rintro ⟨e, he, heq⟩
    exact ⟨e, h.registry.mem_iff.mp he, hs e he ▸ heq⟩
  · rintro ⟨e, he, heq⟩
    have he' := h.registry.mem_iff.mpr he
    exact ⟨e, he', (hs e he').symm ▸ heq⟩

theorem refusers_perm : s.refusers.Perm s'.refusers :=
  perm_filter_congr h.registry fun _ => refuses_alike h hs

theorem evictions_perm : s.evictions.Perm s'.evictions := by
  have hf : ∀ e : Entry, s.before.refusal? e = s'.before.refusal? e := fun e =>
    h.refusal?_eq e.queue
  unfold evictions
  simp only [hf]
  exact (refusers_perm h hs).map _

theorem stats_alike : s.after.stats = s'.after.stats := by
  have htake := (perm_filter_congr h.registry fun _ => takes_alike h hs).length_eq
  have hout := (refusers_perm h hs).length_eq
  have hslow : (s.refusers.filter fun e => s.before.refusal? e = some .queueFull).length =
      (s'.refusers.filter fun e => s'.before.refusal? e = some .queueFull).length := by
    refine (perm_filter_congr (refusers_perm h hs) fun e _ => ?_).length_eq
    unfold Exchange.refusal?
    rw [h.refusal?_eq]
  rw [stats_after, stats_after, htake, hout, hslow, h.stats]

/-- **Like exchanges stay alike** when a frame goes to the same connections in both. -/
theorem alike_after : s.after.Alike s'.after := by
  refine ⟨perm_filter_congr h.registry fun e he => ?_, stats_alike h hs, fun q => ?_⟩
  · rw [refuses_alike h hs he]
  · have hq := h.queues q
    have hsel := selects_alike h hs q
    have href : s.isRefusedBy q = s'.isRefusedBy q := by
      unfold isRefusedBy
      rw [h.refusal?_eq]
    rw [get?_after, get?_after]
    unfold reaches putsOut
    rw [hsel, href]
    cases hx : s.before.mail.get? q with
    | none =>
      rw [hx] at hq
      rw [Option.map_eq_none_iff.mp hq.symm]
      rfl
    | some a =>
      rw [hx] at hq
      obtain ⟨b, hb, hab⟩ := Option.map_eq_some_iff.mp hq.symm
      rw [hb]
      refine congrArg some ?_
      split
      · exact Queue.outline_push hab.symm _ _
      · split
        · exact Queue.outline_release hab.symm
        · exact hab.symm

end InStep

end Sending

/-! ## Cascades -/

/-- Those who wait to be announced are gone, and each waits once. -/
structure Exchange.Awaits (x : Exchange) (waiting : List String) : Prop where
  wellKept : x.WellKept
  nodup : waiting.Nodup
  gone : ∀ u ∈ waiting, x.isOnline u = false

namespace Exchange.Awaits

variable {x : Exchange} {user : String} {waiting : List String} {time : Time.Timestamp}

theorem next (h : x.Awaits (user :: waiting)) {out : List Entry}
    (ho : out.Perm (Sending.offline x user time).refusers) :
    (Sending.offline x user time).after.Awaits (out.map Entry.userId ++ waiting) := by
  obtain ⟨hnd, hgone⟩ := waiting_next (s := .offline x user time) h.wellKept ho
    (List.nodup_cons.mp h.nodup).2 fun u hu => h.gone u (List.mem_cons_of_mem user hu)
  exact ⟨Sending.wellKept_after h.wellKept, hnd, hgone⟩

/-- An announcement is meant for everyone who is there, since who is announced is not. -/
theorem selects (h : x.Awaits (user :: waiting)) {e : Entry} (he : e ∈ x.registry) :
    (Sending.offline x user time).target.selects e = true := by
  refine decide_eq_true fun hu => ?_
  have hon := isOnline_of_mem he
  rw [hu, h.gone user List.mem_cons_self] at hon
  exact Bool.noConfusion hon

/-- Whoever has just been discharged waits to be announced. -/
theorem discharge (hx : x.WellKept) {e : Entry} (he : e ∈ x.registry) :
    (x.discharge e).Awaits [e.userId] where
  wellKept := (begins_discharge hx he e.userId e.connection).wellKept
  nodup := List.nodup_singleton _
  gone u hu := by
    rw [List.mem_singleton.mp hu]
    exact (isOnline_depart x e _).trans (by simp)

end Exchange.Awaits

/-- The messages that came into a queue. -/
def received (log : List Sending) (q : QueueId) : List Message :=
  (log.filter (·.reaches q)).map (·.frame.message)

theorem received_cons (s : Sending) (log : List Sending) (q : QueueId) :
    received (s :: log) q =
      (if s.reaches q then [s.frame.message] else []) ++ received log q := by
  unfold received
  by_cases h : s.reaches q = true <;> simp [h]

/-- **Two cascades with as many to announce go through their rounds in step.** -/
theorem Announcing.alike {x y x' y' : Exchange} {waiting waiting' : List String}
    {log log' : List Sending} (h : Announcing x waiting log y)
    (h' : Announcing x' waiting' log' y') (hx : x.Alike x') (hw : x.Awaits waiting)
    (hw' : x'.Awaits waiting') (hl : waiting.length = waiting'.length) :
    y.Alike y' ∧ (log.flatMap Sending.evictions).Perm (log'.flatMap Sending.evictions) := by
  -- the users who wait may differ; that there are as many is what keeps the rounds in step
  induction h generalizing x' waiting' log' y' with
  | done x =>
    cases h' with
    | done => exact ⟨hx, List.Perm.refl _⟩
    | next => simp at hl
  | @next x y user waiting log time out ho ha ih =>
    cases h' with
    | done => simp at hl
    | @next _ _ user' waiting' log' time' out' ho' ha' =>
      -- whoever is announced is gone, so both frames go to everyone who is there
      have hs : ∀ e ∈ x.registry, (Sending.offline x user time).target.selects e =
          (Sending.offline x' user' time').target.selects e := fun e he =>
        (hw.selects he).trans (hw'.selects (hx.registry.mem_iff.mp he)).symm
      have hout : out.length = out'.length :=
        (ho.trans ((Sending.refusers_perm hx hs).trans ho'.symm)).length_eq
      have hlen : (out.map Entry.userId ++ waiting).length =
          (out'.map Entry.userId ++ waiting').length := by
        simp only [List.length_append, List.length_map, List.length_cons] at hl ⊢
        omega
      obtain ⟨hy, hev⟩ := ih ha' (Sending.alike_after hx hs) (hw.next ho) (hw'.next ho') hlen
      exact ⟨hy, (Sending.evictions_perm hx hs).append hev⟩

/-- Whoever stays is told of everyone who is announced. -/
theorem Announcing.received {x y : Exchange} {waiting : List String} {log : List Sending}
    (h : Announcing x waiting log y) (hw : x.Awaits waiting) {e : Entry} (he : e ∈ y.registry) :
    received log e.queue = (announced log).map fun u => .event (.userOffline u) := by
  induction h with
  | done x => rfl
  | @next x y user waiting log time out ho ha ih =>
    have hreach : (Sending.offline x user time).reaches e.queue = true :=
      reaches_offline hw.wellKept (hw.gone user List.mem_cons_self) (ha.linked.sublist.subset he)
    have hcons : announced (.offline x user time :: log) = user :: announced log := rfl
    rw [received_cons, if_pos hreach, ih (hw.next ho) he, hcons]
    rfl

/-- Those put out by a frame wait for nothing but to be announced. -/
theorem Sending.awaits {s : Sending} (hs : s.before.WellKept) {out : List Entry}
    (ho : out.Perm s.refusers) : s.after.Awaits (out.map Entry.userId) := by
  obtain ⟨hnd, hgone⟩ := waiting_next hs ho List.nodup_nil fun u hu => by simp at hu
  rw [List.append_nil] at hnd hgone
  exact ⟨Sending.wellKept_after hs, hnd, hgone⟩

theorem Spreading.alike {s s' : Sending} {y y' : Exchange} {log log' : List Sending}
    (h : Spreading s log y) (h' : Spreading s' log' y') (hx : s.before.Alike s'.before)
    (hw : s.before.WellKept)
    (hs : ∀ e ∈ s.before.registry, s.target.selects e = s'.target.selects e) :
    y.Alike y' ∧ (log.flatMap Sending.evictions).Perm (log'.flatMap Sending.evictions) := by
  cases h with
  | mk ho ha =>
    cases h' with
    | mk ho' ha' =>
      have hout := (ho.trans ((Sending.refusers_perm hx hs).trans ho'.symm)).length_eq
      obtain ⟨hy, hev⟩ := ha.alike ha' (Sending.alike_after hx hs) (Sending.awaits hw ho)
        (Sending.awaits (hx.wellKept hw) ho') (by rw [List.length_map, List.length_map, hout])
      exact ⟨hy, (Sending.evictions_perm hx hs).append hev⟩

theorem Spreading.received {s : Sending} {y : Exchange} {log : List Sending}
    (h : Spreading s log y) (hw : s.before.WellKept) (hs : s.departs? = none) {e : Entry}
    (he : e ∈ y.registry) :
    received log e.queue = (if s.target.selects e then [s.frame.message] else []) ++
      (announced log).map fun u => .event (.userOffline u) := by
  cases h with
  | @mk out log _ ho ha =>
    have hcons : announced (s :: log) = announced log := by
      unfold announced
      rw [List.filterMap_cons_none hs]
    have hreach := Sending.reaches_of_mem_after hw (ha.linked.sublist.subset he)
    rw [received_cons, hreach, ha.received (Sending.awaits hw ho) he, hcons]

/-! ## Over a request -/

/-- The message that a request itself sends. -/
def Request.message? : Request → Option Message
  | .register r => some (.event (.userOnline r.identity.userId r.identity.publicName))
  | .dispatch _ frame => some frame.message
  | _ => none

namespace Handling

variable {x y : Exchange} {r : Request} {log : List Sending}

/-- Whoever stays has got the message of the request, if it is meant for them, and has been told of
everyone who left. -/
theorem received (h : Handling x r log y) (hx : x.WellKept) (ha : x.Admits r) {e : Entry}
    (he : e ∈ y.registry) :
    received log e.queue = (if x.isMeant e r then r.message?.toList else []) ++
      (announced log).map fun u => .event (.userOffline u) := by
  cases h with
  | join time hf hs =>
    rw [hs.received (begins_welcome hx ha hf).wellKept rfl he]
    simp [isMeant, isOnline_of_find?_none hf, Sending.online, Target.selects, Request.message?,
      Envelope.wrap]
  | replace hf => simp [Switchboard.received, announced, isMeant, isOnline_of_find? hf]
  | leave hf hs =>
    obtain ⟨hfind, -⟩ := findConnection?_eq_some.mp hf
    rw [← userId_of_find? hfind] at hs
    rw [hs.received (.discharge hx (mem_of_find? hfind)) he]
    simp [isMeant]
  | stay hf => simp [Switchboard.received, announced, isMeant]
  | deliver hs =>
    have hw : (x.count fun s => { s with published := s.published + 1 }).WellKept :=
      wellKept_count hx _
    exact hs.received hw rfl he
  | subscribe user c topics => simp [Switchboard.received, announced, isMeant]
  | unsubscribe user c topics => simp [Switchboard.received, announced, isMeant]

/-- **Handling a request in like exchanges leaves like exchanges.** -/
theorem alike (h : Handling x r log y) (hx : x.WellKept) (ha : x.Admits r) {x' y' : Exchange}
    {log' : List Sending} (hxx : x.Alike x') (h' : Handling x' r log' y') :
    y.Alike y' ∧ (log.flatMap Sending.evictions).Perm (log'.flatMap Sending.evictions) := by
  have hfind := hxx.find?_eq hx.users
  have hconn := hxx.findConnection?_eq hx.users
  -- both find the same entry, so both handle the request in the same way
  cases h with
  | @join _ reg _ time hf hs =>
    cases h' with
    | replace hf' =>
      rw [← hfind, hf] at hf'
      simp at hf'
    | join time' hf' hs' =>
      exact hs.alike hs' ((hxx.count _).insert reg.entry) (begins_welcome hx ha hf).wellKept
        fun _ _ => rfl
  | @replace reg previous hf =>
    cases h' with
    | join _ hf' _ =>
      rw [← hfind, hf] at hf'
      simp at hf'
    | replace hf' =>
      have hsame := hf'
      rw [← hfind, hf] at hsame
      rw [← Option.some.inj hsame] at hf'
      rw [register_replace hf, register_replace hf']
      exact ⟨((hxx.depart previous).insert reg.entry).count _, List.Perm.refl _⟩
  | @leave _ user c e _ hf hs =>
    cases h' with
    | stay hf' =>
      rw [← hconn, hf] at hf'
      simp at hf'
    | leave hf' hs' =>
      rw [← hconn, hf] at hf'
      obtain rfl := Option.some.inj hf'
      obtain ⟨hfind', -⟩ := findConnection?_eq_some.mp hf
      have hm := mem_of_find? hfind'
      rw [← userId_of_find? hfind'] at hs hs'
      exact hs.alike hs' ((hxx.depart e).count _) (.discharge hx hm)
        (.discharge (hxx.wellKept hx) (hxx.registry.mem_iff.mp hm)) rfl
  | stay hf =>
    cases h' with
    | leave hf' _ =>
      rw [← hconn, hf] at hf'
      simp at hf'
    | stay _ => exact ⟨hxx, List.Perm.refl _⟩
  | deliver hs =>
    cases h' with
    | deliver hs' =>
      have hw : (x.count fun s => { s with published := s.published + 1 }).WellKept :=
        wellKept_count hx _
      have hc := hxx.count fun s => { s with published := s.published + 1 }
      exact hs.alike hs' hc hw fun _ _ => rfl
  | subscribe user c topics =>
    cases h' with
    | subscribe => exact ⟨hxx.updateTopics _ _ _, List.Perm.refl _⟩
  | unsubscribe user c topics =>
    cases h' with
    | unsubscribe => exact ⟨hxx.updateTopics _ _ _, List.Perm.refl _⟩

/-- The same users are announced, in one order or another. -/
theorem announced_perm (h : Handling x r log y) (hx : x.WellKept) (ha : x.Admits r)
    {x' y' : Exchange} {log' : List Sending} (hxx : x.Alike x') (h' : Handling x' r log' y') :
    (announced log).Perm (announced log') := by
  have hx' := hxx.wellKept hx
  have ha' := hxx.admits ha
  have hyy := (h.alike hx ha hxx h').1
  rw [List.perm_ext_iff_of_nodup (h.announced_nodup hx ha) (h'.announced_nodup hx' ha')]
  intro u
  rw [h.mem_announced hx ha, h'.mem_announced hx' ha', hxx.isOnline_eq, hyy.isOnline_eq]

/-- Nobody is announced but those who were in the registry and the one who came. -/
theorem length_announced_le (h : Handling x r log y) (hx : x.WellKept) (ha : x.Admits r) :
    (announced log).length ≤ x.registry.length + r.comer?.toList.length := by
  have hsub : announced log ⊆ x.registry.map Entry.userId ++ r.comer?.toList := by
    intro u hu
    rw [List.mem_append, ← isOnline_iff, Option.mem_toList]
    exact ((h.mem_announced hx ha u).mp hu).1
  have hle := (List.subperm_of_subset (h.announced_nodup hx ha) hsub).length_le
  rwa [List.length_append, List.length_map] at hle

end Handling

/-- What two ways of handling a request have in common. -/
structure SameOutcome (log log' : List Sending) (y y' : Exchange) : Prop where
  /-- The same entries are left, the counters agree, and every queue has as many frames. -/
  alike : y.Alike y'
  /-- The same users were put out, each for the same reason. -/
  evictions : (log.flatMap Sending.evictions).Perm (log'.flatMap Sending.evictions)
  /-- Whoever is left got the same messages. -/
  received : ∀ e ∈ y.registry, (received log e.queue).Perm (received log' e.queue)

/--
**One outcome in any order.** A cascade ends in whatever order it goes, after one announcement for
each who leaves, and the order makes no difference to who is left, who was put out and why, the
counters, the number of frames in every queue and the messages that those got who are left.
-/
theorem one_outcome {x : Exchange} (hx : x.WellKept) {r : Request} (hr : r.isExchange = true)
    (ha : x.Admits r) :
    (WellFounded fun b a => Round a b) ∧
    (∃ log, Handling x r log (x.handled r)) ∧
    (∀ log y, Handling x r log y →
      (announced log).Nodup ∧
      (∀ u, u ∈ announced log ↔
        (x.isOnline u = true ∨ r.comer? = some u) ∧ y.isOnline u = false) ∧
      (announced log).length ≤ x.registry.length + r.comer?.toList.length) ∧
    ∀ x' log y log' y', x.Alike x' → Handling x r log y → Handling x' r log' y' →
      SameOutcome log log' y y' := by
  refine ⟨wellFounded_round, handling_handled x hr, ?_, ?_⟩
  · intro log y h
    exact ⟨h.announced_nodup hx ha, h.mem_announced hx ha, h.length_announced_le hx ha⟩
  · intro x' log y log' y' hxx h h'
    obtain ⟨hyy, hev⟩ := h.alike hx ha hxx h'
    refine ⟨hyy, hev, fun e he => ?_⟩
    have hmeant : x.isMeant e r = x'.isMeant e r := by
      cases r with
      | register new => simp only [isMeant, hxx.isOnline_eq]
      | _ => rfl
    rw [h.received hx ha he, h'.received (hxx.wellKept hx) (hxx.admits ha)
      (hyy.registry.mem_iff.mp he), hmeant]
    exact ((h.announced_perm hx ha hxx h').map _).append_left _

/-! ## Two at once -/

namespace Pair

def midnight : Time.Timestamp := ⟨⟨2024, 1, 1⟩, 0, 0, 0, 0⟩

def ann : Entry := ⟨1, ⟨"ann", "Ann", false⟩, 0, []⟩

def bob : Entry := ⟨2, ⟨"bob", "Bob", false⟩, 1, []⟩

def dora : Entry := ⟨3, ⟨"dora", "Dora", false⟩, 2, []⟩

def eve : Registration := ⟨4, ⟨"eve", "Eve", false⟩, 3⟩

def note : Envelope := .wrap midnight (.event (.postDeleted "1"))

/-- Ann's queue and Bob's are full, and there is room for eight in Dora's and Eve's. -/
def mail : Mail :=
  ⟨[⟨1, [note], .listening, true⟩, ⟨1, [note], .listening, true⟩, ⟨8, [], .listening, true⟩,
    ⟨8, [], .listening, true⟩]⟩

def start : Exchange := ⟨[ann, bob, dora], mail, .zero, midnight⟩

/-- The same exchange, gone through in another order. -/
def turned : Exchange := ⟨[dora, bob, ann], mail, .zero, midnight⟩

theorem wellKept : start.WellKept := by
  refine ⟨?_, by decide, ?_⟩
  · show ["ann", "bob", "dora"].Nodup
    decide
  · show ∀ e ∈ [ann, bob, dora], start.HasSender e.queue
    rw [List.forall_mem_cons, List.forall_mem_cons, List.forall_mem_singleton]
    exact ⟨⟨_, rfl, rfl⟩, ⟨_, rfl, rfl⟩, ⟨_, rfl, rfl⟩⟩

theorem admits : start.Admits (.register eve) := by
  refine ⟨⟨_, rfl, rfl⟩, ?_⟩
  show ∀ e ∈ [ann, bob, dora], e.queue ≠ 3
  decide

theorem alike : start.Alike turned := ⟨by decide, rfl, fun _ => rfl⟩

def comes (x : Exchange) : Sending := .online (x.welcome eve) eve.identity midnight

/-- Eve comes, and two users are announced, one after the other. -/
def log (x : Exchange) (first second : String) : List Sending :=
  let one := Sending.offline (comes x).after first midnight
  [comes x, one, .offline one.after second midnight]

/-- What is left in the end. -/
def left (x : Exchange) (first second : String) : Exchange :=
  (Sending.offline (Sending.offline (comes x).after first midnight).after second midnight).after

theorem annFirst : Handling start (.register eve) (log start "ann" "bob")
    (left start "ann" "bob") :=
  .join midnight rfl (.mk (List.Perm.refl [ann, bob])
    (.next midnight (List.Perm.refl []) (.next midnight (List.Perm.refl []) (.done _))))

theorem bobFirst : Handling turned (.register eve) (log turned "bob" "ann")
    (left turned "bob" "ann") :=
  .join midnight rfl (.mk (List.Perm.refl [bob, ann])
    (.next midnight (List.Perm.refl []) (.next midnight (List.Perm.refl []) (.done _))))

end Pair

/-- Ann and Bob are put out at once and announced in either order. -/
theorem one_outcome_pair :
    announced (Pair.log Pair.start "ann" "bob") = ["ann", "bob"] ∧
    announced (Pair.log Pair.turned "bob" "ann") = ["bob", "ann"] ∧
    SameOutcome (Pair.log Pair.start "ann" "bob") (Pair.log Pair.turned "bob" "ann")
      (Pair.left Pair.start "ann" "bob") (Pair.left Pair.turned "bob" "ann") :=
  ⟨rfl, rfl, (one_outcome Pair.wellKept (r := .register Pair.eve) rfl Pair.admits).2.2.2 _ _ _ _ _
    Pair.alike Pair.annFirst Pair.bobFirst⟩

end Switchboard
