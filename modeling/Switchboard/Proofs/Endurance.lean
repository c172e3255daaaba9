import Switchboard.Proofs.Cascade

/-!
# Who outlasts a request

The hub does not wait while it handles a request, so no queue is drained before all of the cascade
has been announced. A connection with an empty queue outlasts the request exactly if the queue is
long enough for the frame that the request may have for it and for one announcement of everyone else
who leaves (`outlasts_iff`). A queue for two frames is therefore no protection: in `Collapse` one
full queue empties the registry.
-/

namespace Switchboard

open Wire Exchange

namespace Exchange

/-- An entry whose topics may have changed is still that of the same connection. -/
theorem exists_updateTopics {x : Exchange} {e : Entry} (he : e ∈ x.registry) (user : String)
    (c : ConnectionId) (f : List Topic → List Topic) :
    ∃ e' ∈ (x.updateTopics user c f).registry, e'.registration = e.registration := by
  have hm : e.registration ∈ (x.updateTopics user c f).registry.map Entry.registration := by
    rw [map_registration_updateTopics]
    exact List.mem_map_of_mem he
  exact List.mem_map.mp hm

/-- Who registers, or was there and is not asked to go, is there when the sending begins. -/
theorem exists_begun {x : Exchange} (hx : x.UniqueUsers) {r : Request} {e : Entry}
    (he : r = .register e.registration ∨ e ∈ x.registry ∧ ¬ r.removes e) :
    ∃ e' ∈ (x.begun r).registry, e'.registration = e.registration ∧
      x.isMeant e' r = x.isMeant e r := by
  rcases he with rfl | ⟨he, hr⟩
  · refine ⟨e.registration.entry, ?_, rfl, rfl⟩
    cases hf : x.find? e.registration.identity.userId with
    | none =>
      rw [begun_register_of_none hf]
      exact List.mem_append_right _ (List.mem_singleton.mpr rfl)
    | some previous =>
      rw [begun_register_of_some hf, register_replace hf]
      exact List.mem_append_right _ (List.mem_singleton.mpr rfl)
  · cases r with
    | register new =>
      refine ⟨e, ?_, rfl, rfl⟩
      cases hf : x.find? new.identity.userId with
      | none =>
        rw [begun_register_of_none hf]
        exact List.mem_append_left _ he
      | some previous =>
        rw [begun_register_of_some hf, register_replace hf]
        refine List.mem_append_left _ (mem_depart.mpr ⟨he, ?_⟩)
        rw [userId_of_find? hf]
        exact fun h => hr (decide_eq_true h.symm)
    | unregister user c =>
      refine ⟨e, ?_, rfl, rfl⟩
      cases hf : x.findConnection? user c with
      | none =>
        rw [begun_unregister_of_none hf]
        exact he
      | some gone =>
        obtain ⟨hfind, hc⟩ := findConnection?_eq_some.mp hf
        rw [begun_unregister_of_some hf]
        refine mem_depart.mpr ⟨he, fun hu => hr ?_⟩
        have heq : e = gone := hx.eq_of_userId he (mem_of_find? hfind) hu
        rw [heq]
        exact decide_eq_true ⟨userId_of_find? hfind, hc⟩
    | dispatch target frame => exact ⟨e, he, rfl, rfl⟩
    | subscribe user c topics =>
      obtain ⟨e', he', heq⟩ := exists_updateTopics he user c fun current =>
        topics.foldl addTopic current
      exact ⟨e', he', heq, rfl⟩
    | unsubscribe user c topics =>
      obtain ⟨e', he', heq⟩ := exists_updateTopics he user c fun current =>
        current.filter fun t => !topics.contains t
      exact ⟨e', he', heq, rfl⟩
    | isOnline user => exact ⟨e, he, rfl, rfl⟩
    | onlineCount => exact ⟨e, he, rfl, rfl⟩
    | shutdown => exact ⟨e, he, rfl, rfl⟩

end Exchange

/-- A connection is still there exactly if its queue had room for what was meant for it. -/
theorem Handling.holds_iff {x y : Exchange} {r : Request} {log : List Sending}
    (h : Handling x r log y) (hx : x.WellKept) (ha : x.Admits r) {e : Entry}
    (he : r = .register e.registration ∨ e ∈ x.registry ∧ ¬ r.removes e) :
    y.Holds e.registration ↔
      (if x.isMeant e r then 1 else 0) + ((announced log).filter (· ≠ e.userId)).length ≤
        x.roomOf e.queue := by
  obtain ⟨e', he', hreg, hmeant⟩ := exists_begun hx.users he
  have hb := (x.outset r).wellKept hx ha
  have hq : e'.queue = e.queue := congrArg Registration.queue hreg
  have hu : e'.userId = e.userId := congrArg (fun r : Registration => r.identity.userId) hreg
  have hstay : y.Holds e.registration ↔ e' ∈ y.registry := by
    constructor
    · rintro ⟨e'', he'', heq⟩
      have hsame : e''.queue = e'.queue := congrArg Registration.queue (heq.trans hreg.symm)
      rw [← hb.eq_of_queue (h.linked.sublist.subset he'') he' hsame]
      exact he''
    · exact fun hm => ⟨e', hm, hreg⟩
  rw [hstay, h.linked.mem_iff hb he', h.length_meant e', hmeant,
    (x.outset r).roomOf, hq, hu]

/--
**Who outlasts a request.** A connection that registers, or is registered and not asked to go, and
whose queue is open and empty, is still registered after the request exactly if its queue is long
enough for the frame that the request may have for it and for one announcement of everyone else who
leaves. Those announced are those who leave, each once.
-/
theorem outlasts_iff {past : List Incident} {x y : Exchange} {r : Request} {log : List Sending}
    (h : Run past x) (ha : x.Admits r) (hh : Handling x r log y) {e : Entry}
    (he : r = .register e.registration ∨ e ∈ x.registry ∧ ¬ r.removes e) {a : Queue}
    (hq : x.mail.get? e.queue = some a) (ho : a.receiver = .listening) (hf : a.frames = []) :
    (y.Holds e.registration ↔
      (if x.isMeant e r then 1 else 0) + ((announced log).filter (· ≠ e.userId)).length ≤
        a.capacity) ∧
    (announced log).Nodup ∧
    ∀ u, u ∈ announced log ↔ (x.isOnline u = true ∨ r.comer? = some u) ∧ y.isOnline u = false := by
  have hroom : x.roomOf e.queue = a.capacity := by
    rw [roomOf_of_get? hq]
    simp [Queue.room, ho, hf]
  refine ⟨?_, hh.announced_nodup h.wellKept ha, hh.mem_announced h.wellKept ha⟩
  rw [hh.holds_iff h.wellKept ha he, hroom]

/-- Whether an open and empty queue for two frames or more keeps its connection registered. -/
def EmptyQueuesSuffice : Prop :=
  ∀ (past : List Incident) (x y : Exchange) (r : Request) (log : List Sending) (e : Entry)
    (a : Queue), Run past x → x.Admits r → Handling x r log y →
    (r = .register e.registration ∨ e ∈ x.registry ∧ ¬ r.removes e) →
    x.mail.get? e.queue = some a → a.receiver = .listening → a.frames = [] → 2 ≤ a.capacity →
    y.Holds e.registration

/-! ## One full queue -/

namespace Collapse

def midnight : Time.Timestamp := ⟨⟨2024, 1, 1⟩, 0, 0, 0, 0⟩

def dora : Registration := ⟨0, ⟨"dora", "Dora", false⟩, 0⟩

def ann : Registration := ⟨1, ⟨"ann", "Ann", false⟩, 1⟩

def bob : Registration := ⟨2, ⟨"bob", "Bob", false⟩, 2⟩

def eve : Registration := ⟨3, ⟨"eve", "Eve", false⟩, 3⟩

/-- Four queues, two of them for one frame. -/
def start : Exchange :=
  { Exchange.empty midnight with
    mail := ((((Mail.empty.create 2).2.create 1).2.create 1).2.create 2).2 }

def comes (x : Exchange) (r : Registration) : Sending :=
  .online (x.welcome r) r.identity midnight

def doraComes : Sending := comes start dora

def annComes : Sending := comes doraComes.after ann

def bobComes : Sending := comes annComes.after bob

/-- Dora's queue is empty again, and Ann's is full. -/
def evening : Exchange :=
  { bobComes.after with mail := bobComes.after.mail.modify 0 fun a => (a.takeUpTo none).2 }

def eveComes : Sending := comes evening eve

def annGoes : Sending := .offline eveComes.after "ann" midnight

def bobGoes : Sending := .offline annGoes.after "bob" midnight

def doraGoes : Sending := .offline bobGoes.after "dora" midnight

def eveGoes : Sending := .offline doraGoes.after "eve" midnight

def log : List Sending := [eveComes, annGoes, bobGoes, doraGoes, eveGoes]

def past : List Incident :=
  [.handled start (.register dora) [doraComes] doraComes.after,
    .handled doraComes.after (.register ann) [annComes] annComes.after,
    .handled annComes.after (.register bob) [bobComes] bobComes.after,
    .taken 0 [annComes.frame, bobComes.frame]]

theorem admits_dora : start.Admits (.register dora) :=
  ⟨⟨_, rfl, rfl⟩, by simp [Lacks, start, Exchange.empty]⟩

theorem admits_ann : doraComes.after.Admits (.register ann) := by
  refine ⟨⟨_, rfl, rfl⟩, ?_⟩
  show ∀ e ∈ [dora.entry], e.queue ≠ 1
  decide

theorem admits_bob : annComes.after.Admits (.register bob) := by
  refine ⟨⟨_, rfl, rfl⟩, ?_⟩
  show ∀ e ∈ [dora.entry, ann.entry], e.queue ≠ 2
  decide

theorem admits_eve : evening.Admits (.register eve) := by
  refine ⟨⟨_, rfl, rfl⟩, ?_⟩
  show ∀ e ∈ [dora.entry, ann.entry, bob.entry], e.queue ≠ 3
  decide

theorem run : Run past evening := by
  have h₀ : Run [] start :=
    .receive (.receive (.receive (.receive (.start midnight) (.create _ 2)) (.create _ 1))
      (.create _ 1)) (.create _ 2)
  have hdora : Handling start (.register dora) [doraComes] doraComes.after :=
    .join midnight rfl (.mk (List.Perm.refl []) (.done _))
  have hann : Handling doraComes.after (.register ann) [annComes] annComes.after :=
    .join midnight rfl (.mk (List.Perm.refl []) (.done _))
  have hbob : Handling annComes.after (.register bob) [bobComes] bobComes.after :=
    .join midnight rfl (.mk (List.Perm.refl []) (.done _))
  have h₁ := ((h₀.handle admits_dora hdora).handle admits_ann hann).handle admits_bob hbob
  have hq : bobComes.after.mail.get? 0 =
      some ⟨2, [annComes.frame, bobComes.frame], .listening, true⟩ := rfl
  exact h₁.receive (.take none hq)

/-- Ann's queue is full when Eve comes; whoever is told of her departure has less room for Bob's,
and so on. -/
theorem handling : Handling evening (.register eve) log eveGoes.after :=
  .join midnight rfl (.mk (List.Perm.refl [ann.entry])
    (.next midnight (List.Perm.refl [bob.entry])
      (.next midnight (List.Perm.refl [dora.entry])
        (.next midnight (List.Perm.refl [eve.entry])
          (.next midnight (List.Perm.refl []) (.done _))))))

theorem registry_eq : eveGoes.after.registry = [] := rfl

end Collapse

/-- Dora's queue has room for two frames, and three are meant for her. -/
theorem outlasts_iff_collapse : Run Collapse.past Collapse.evening ∧
    Collapse.evening.isMeant Collapse.dora.entry (.register Collapse.eve) = true ∧
    announced Collapse.log = ["ann", "bob", "dora", "eve"] ∧
    (Collapse.eveGoes.after.Holds Collapse.dora ↔ 1 + 3 ≤ 2) :=
  ⟨Collapse.run, by decide, rfl,
    (outlasts_iff Collapse.run Collapse.admits_eve Collapse.handling
      (.inr ⟨List.mem_cons_self, by decide⟩ : _ ∨ Collapse.dora.entry ∈ _ ∧ _) rfl rfl rfl).1⟩

/-- **An empty queue for two frames does not keep its connection registered.** -/
theorem empty_queues_do_not_suffice : ¬ EmptyQueuesSuffice := by
  intro h
  have hold := h Collapse.past Collapse.evening Collapse.eveGoes.after (.register Collapse.eve)
    Collapse.log Collapse.dora.entry _ Collapse.run Collapse.admits_eve Collapse.handling
    (.inr ⟨List.mem_cons_self, by decide⟩) rfl rfl rfl (Nat.le_refl 2)
  obtain ⟨e, he, -⟩ := hold
  rw [Collapse.registry_eq] at he
  exact List.not_mem_nil he

end Switchboard
