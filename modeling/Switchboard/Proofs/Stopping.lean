import Switchboard.Proofs.Succession

/-!
# Stopping

What becomes of a hub that stops. It lets go of the sending end of every queue that it has or that a
registration which still waits would have brought, and tells everyone who waits for an answer that
it is not there. Nothing else changes: no frame comes or goes, and nothing is counted.
-/

namespace Switchboard

open Wire Exchange

/-- The queue that a request brings. -/
def Request.queue? : Request → Option QueueId
  | register r => some r.queue
  | unregister .. | dispatch .. | subscribe .. | unsubscribe .. | isOnline _ | onlineCount
  | shutdown => none

/-- The queues that some requests bring. -/
def brought (waiting : List (Ticket × Request)) : List QueueId := waiting.filterMap (·.2.queue?)

/-- The answers to some requests of a hub that has stopped, in their order. -/
def refusals? (waiting : List (Ticket × Request)) : List (Ticket × Answer) :=
  waiting.filterMap fun p => p.2.unavailable?.map fun a => (p.1, a)

theorem brought_append (a b : List (Ticket × Request)) :
    brought (a ++ b) = brought a ++ brought b := List.filterMap_append

theorem mem_brought {ps : List (Ticket × Request)} {q : QueueId} :
    q ∈ brought ps ↔ ∃ p ∈ ps, p.2.queue? = some q := List.mem_filterMap

theorem refusals?_append (a b : List (Ticket × Request)) :
    refusals? (a ++ b) = refusals? a ++ refusals? b := List.filterMap_append

theorem Queue.release_release (a : Queue) : a.release.release = a.release := rfl

namespace Exchange

theorem get?_release (x : Exchange) (q q' : QueueId) :
    (x.release q).mail.get? q' =
      if q = q' then (x.mail.get? q').map Queue.release else x.mail.get? q' :=
  Mail.get?_modify x.mail q Queue.release q'

theorem get?_foldl_release (x : Exchange) (queues : List QueueId) (q : QueueId) :
    (queues.foldl Exchange.release x).mail.get? q =
      (x.mail.get? q).map fun a => if q ∈ queues then a.release else a := by
  induction queues generalizing x with
  | nil => simp
  | cons q₀ queues ih =>
    rw [List.foldl_cons, ih, get?_release]
    by_cases hq : q₀ = q
    · subst hq
      rw [if_pos rfl]
      cases x.mail.get? q₀ with
      | none => rfl
      | some a => simpa using fun _ => a.release_release
    · have hmem : q ∈ q₀ :: queues ↔ q ∈ queues := by
        rw [List.mem_cons]
        exact or_iff_right fun h => hq h.symm
      rw [if_neg hq]
      simp only [hmem]

theorem foldl_release (x : Exchange) (queues : List QueueId) :
    (queues.foldl Exchange.release x).registry = x.registry ∧
      (queues.foldl Exchange.release x).stats = x.stats := by
  induction queues generalizing x with
  | nil => exact ⟨rfl, rfl⟩
  | cons q queues ih => exact ih (x.release q)

end Exchange

namespace Hub

theorem exchange_abandon (h : Hub) (t : Ticket) (r : Request) :
    (h.abandon t r).exchange = r.queue?.toList.foldl Exchange.release h.exchange := by
  cases r <;> rfl

theorem answers_abandon (h : Hub) (t : Ticket) (r : Request) :
    (h.abandon t r).answers = (r.unavailable?.map fun a => (t, a)).toList ++ h.answers := by
  cases r <;> rfl

theorem running_abandon (h : Hub) (t : Ticket) (r : Request) :
    (h.abandon t r).running = h.running := by
  cases r <;> rfl

/-- What letting some requests go unhandled does. -/
theorem foldl_abandon (h : Hub) (waiting : List (Ticket × Request)) :
    let g := waiting.foldl (fun (g : Hub) (p : Ticket × Request) => g.abandon p.1 p.2) h
    g.exchange = (brought waiting).foldl Exchange.release h.exchange ∧
      g.answers = (refusals? waiting).reverse ++ h.answers ∧ g.running = h.running := by
  induction waiting generalizing h with
  | nil => exact ⟨rfl, rfl, rfl⟩
  | cons p waiting ih =>
    obtain ⟨hx, ha, hr⟩ := ih (h.abandon p.1 p.2)
    refine ⟨?_, ?_, ?_⟩
    · rw [List.foldl_cons, hx, exchange_abandon, ← List.foldl_append, brought, brought,
        List.filterMap_cons]
      cases p.2.queue? <;> rfl
    · rw [List.foldl_cons, ha, answers_abandon, refusals?, refusals?, List.filterMap_cons]
      cases p.2.unavailable? <;> simp
    · rw [List.foldl_cons, hr, running_abandon]

theorem exchange_stop (h : Hub) :
    h.stop.exchange = (brought h.pending).foldl Exchange.release h.exchange.clear :=
  (foldl_abandon _ h.pending).1

theorem answers_stop (h : Hub) : h.stop.answers = (refusals? h.pending).reverse ++ h.answers :=
  (foldl_abandon _ h.pending).2.1

theorem running_stop (h : Hub) : h.stop.running = false := (foldl_abandon _ h.pending).2.2

theorem registry_stop (h : Hub) : h.stop.exchange.registry = [] := by
  rw [exchange_stop, (foldl_release _ _).1]
  rfl

/-- Nothing is counted when a hub stops. -/
theorem stats_stop (h : Hub) : h.stop.exchange.stats = h.exchange.stats := by
  rw [exchange_stop, (foldl_release _ _).2]
  rfl

/-- A hub that stops lets go of the queues that it has and of those that it would have got. -/
theorem get?_stop (h : Hub) (q : QueueId) :
    h.stop.exchange.mail.get? q = (h.exchange.mail.get? q).map fun a =>
      if q ∈ h.exchange.registry.map Entry.queue ∨ q ∈ brought h.pending then a.release else a := by
  rw [exchange_stop, get?_foldl_release]
  unfold clear
  rw [Mail.get?_map]
  cases h.exchange.mail.get? q with
  | none => rfl
  | some a =>
    have hany : h.exchange.registry.any (·.queue = q) = true ↔
        q ∈ h.exchange.registry.map Entry.queue := by
      simp
    simp only [Option.map_some, hany]
    by_cases hr : q ∈ h.exchange.registry.map Entry.queue
    · by_cases hb : q ∈ brought h.pending
      · simpa [hr, hb] using a.release_release
      · simp [hr, hb]
    · by_cases hb : q ∈ brought h.pending <;> simp [hr, hb]

theorem framesOf_stop (h : Hub) (q : QueueId) :
    h.stop.exchange.framesOf q = h.exchange.framesOf q := by
  unfold framesOf
  rw [get?_stop]
  cases h.exchange.mail.get? q with
  | none => rfl
  | some a =>
    rw [Option.map_some]
    split <;> rfl

/-- A hub that still runs after a request was not asked to shut down. -/
theorem ne_shutdown_of_running {h : Hub} {t : Ticket} {r : Request}
    (hr : (h.handle t r).running = true) : r ≠ .shutdown := by
  rintro rfl
  cases h.running_stop.symm.trans hr

/-! ## Requests that are issued -/

/-- What is issued waits while the hub runs. -/
theorem issue_of_running {h : Hub} (hr : h.running = true) (r : Request) :
    (h.issue r).2 = { h with
      nextTicket := h.nextTicket + 1
      pending := h.pending ++ [(h.nextTicket, r)] } := by
  unfold issue
  dsimp only
  rw [if_pos hr]

/-- What is issued to a hub that has stopped is let go of at once. -/
theorem issue_of_stopped {h : Hub} (hr : h.running = false) (r : Request) :
    (h.issue r).2 = ({ h with nextTicket := h.nextTicket + 1 } : Hub).abandon h.nextTicket r := by
  unfold issue
  dsimp only
  rw [if_neg (Bool.eq_false_iff.mp hr)]

end Hub

end Switchboard
