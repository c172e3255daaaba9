import Switchboard.Proofs.Halves
import Switchboard.Proofs.Writing

/-!
# What a connection writes

What a connection's writer has begun to write and what has been taken from it, read off a course of
the whole instance (`begunBy`, `writtenBy`) as it is read off the log of a single desk. Until a
writer closes its way out it has written all that it has begun, but for the frame in hand; and as
long as it runs, what its reader has said is what it has taken up of that and what still waits
(`Penned`).
-/

namespace Switchboard

open Wire

/-! ## Reading off a course -/

namespace Moment

variable {m : Moment} {k : ConnectionId}

/-- What a connection's writer begins its step with, and what the step leaves, if it takes one. -/
def stroke? (m : Moment) (k : ConnectionId) : Option ((Writer × Outlet) × (Writer × Outlet)) :=
  match m.move with
  | .act (.writer j missed) =>
    if j = k then
      (m.world.connections[k]?).bind fun c =>
        (m.world.site.hub.exchange.mail.get? c.queue).bind fun queue =>
          (c.writer.step? c.settings m.world.site.now c.seen (c.outlet queue) missed).map
            ((c.writer, c.outlet queue), ·)
    else none
  | _ => none

/-- The frame that a connection's writer begins to write, and where it comes from. -/
def begins? (m : Moment) (k : ConnectionId) : Option (Source × Outgoing) :=
  (m.stroke? k).bind fun ((_, o), (w', o')) => w'.task.held?.map (o.source o', ·)

/-- The frame that is taken from a connection's writer. -/
def writes? (m : Moment) (k : ConnectionId) : Option Outgoing :=
  (m.stroke? k).bind fun ((w, o), _) => w.task.held?.filter o.socket.takes

theorem stroke?_of_ne (hm : ∀ missed, m.move ≠ .act (.writer k missed)) : m.stroke? k = none := by
  unfold stroke?
  split
  · rename_i j missed hj
    rw [if_neg]
    rintro rfl
    exact hm missed hj
  · rfl

theorem stroke?_eq_some {before after : Writer × Outlet} (h : m.stroke? k = some (before, after)) :
    ∃ missed c queue, m.move = .act (.writer k missed) ∧ m.world.connections[k]? = some c ∧
      c.writer.step? c.settings m.world.site.now c.seen (c.outlet queue) missed = some after := by
  unfold stroke? at h
  split at h
  · rename_i j missed hm
    split at h
    · rename_i hj
      subst hj
      obtain ⟨c, hc, h⟩ := Option.bind_eq_some_iff.mp h
      obtain ⟨queue, -, h⟩ := Option.bind_eq_some_iff.mp h
      obtain ⟨_, hstep, heq⟩ := Option.map_eq_some_iff.mp h
      exact ⟨missed, c, queue, hm, hc, (Prod.mk.inj heq).2 ▸ hstep⟩
    · cases h
  · cases h

theorem ofReader?_of_absent {α : Type} {f : Connection → Option α}
    (hk : m.world.connections[k]? = none) : m.ofReader? k f = none := by
  unfold ofReader?
  split
  · rw [hk, Option.bind_none, ite_self]
  · rfl

theorem stroke?_of_absent (hk : m.world.connections[k]? = none) : m.stroke? k = none := by
  unfold stroke?
  split
  · rw [hk, Option.bind_none, ite_self]
  · rfl

end Moment

/-- The frames that a connection's writer has begun to write. -/
def begunBy (k : ConnectionId) (past : List Moment) : List (Source × Outgoing) :=
  past.filterMap (·.begins? k)

/-- The frames that have been taken from a connection's writer. -/
def writtenBy (k : ConnectionId) (past : List Moment) : List Outgoing :=
  past.filterMap (·.writes? k)

section Snoc

variable {m : Moment} {k : ConnectionId}

theorem begunBy_snoc (k : ConnectionId) (past : List Moment) (m : Moment) :
    begunBy k (past ++ [m]) = begunBy k past ++ (m.begins? k).toList :=
  filterMap_snoc (fun m : Moment => m.begins? k) past m

theorem writtenBy_snoc (k : ConnectionId) (past : List Moment) (m : Moment) :
    writtenBy k (past ++ [m]) = writtenBy k past ++ (m.writes? k).toList :=
  filterMap_snoc (fun m : Moment => m.writes? k) past m

theorem begunBy_of_begins? (past : List Moment) (h : m.begins? k = none) :
    begunBy k (past ++ [m]) = begunBy k past := by
  rw [begunBy_snoc, h]
  exact List.append_nil _

theorem writtenBy_of_writes? (past : List Moment) (h : m.writes? k = none) :
    writtenBy k (past ++ [m]) = writtenBy k past := by
  rw [writtenBy_snoc, h]
  exact List.append_nil _

/-- Nothing is written where the writer takes no step. -/
theorem unwritten_of_stroke? (past : List Moment) (h : m.stroke? k = none) :
    begunBy k (past ++ [m]) = begunBy k past ∧ writtenBy k (past ++ [m]) = writtenBy k past :=
  ⟨begunBy_of_begins? past (by rw [Moment.begins?, h]; rfl),
    writtenBy_of_writes? past (by rw [Moment.writes?, h]; rfl)⟩

theorem said_of_ne (past : List Moment) (hm : m.move ≠ .act (.reader k)) :
    said k (past ++ [m]) = said k past := by
  have hpass : m.passesOn? k = none := Moment.ofReader?_of_ne hm
  rw [said_snoc, hpass]
  exact List.append_nil _

end Snoc

/-! ## Steps of the writer -/

/-- A writer that is in its main loop or about to enter it. -/
def WriterTask.isLooping : WriterTask → Bool
  | starting | waiting _ | writing .. => true
  | leaving .. | closing .. | finished _ | crashed | aborted => false

/-- A writer that has not begun to close its way out. -/
def WriterTask.isOpen : WriterTask → Bool
  | starting | waiting _ | writing .. | leaving .. => true
  | closing .. | finished _ | crashed | aborted => false

theorem WriterTask.isOpen_of_isLooping {t : WriterTask} (h : t.isLooping = true) :
    t.isOpen = true := by
  cases t with
  | starting | waiting | writing => rfl
  | leaving | closing | finished | crashed | aborted => cases h

namespace Writer

variable {s : Settings} {now seen : Instant} {o o' : Outlet} {missed : List Inlet} {w w' : Writer}

theorem isRunning_of_isOpen (h : w.task.isOpen = true) : w.isRunning = true := by
  unfold isRunning
  cases ht : w.task with
  | starting | waiting | writing | leaving | closing => rfl
  | finished | crashed | aborted =>
    rw [ht] at h
    cases h

/-- Only a writer that runs takes steps. -/
theorem Stroke.isRunning (h : w.Stroke s now seen o missed w' o') : w.isRunning = true := by
  unfold Writer.isRunning
  cases h with
  | start ht | reply ht | leave ht | frame ht | check ht | beat ht | write ht | fail ht | part ht
    | vanish ht | finish _ ht => rw [ht]

/-- A step that does not begin to close the way out is one of the main loop's, and any frame in
hand is taken. -/
theorem Stroke.taken (h : w.Stroke s now seen o missed w' o') (hopen : w'.task.isOpen = true) :
    w.task.isLooping = true ∧ w.task.held?.filter o.socket.takes = w.task.held? := by
  cases h with
  | start ht | reply ht | leave ht | frame ht | check ht | beat ht =>
    rw [ht]
    exact ⟨rfl, rfl⟩
  | write ht ho =>
    rw [ht]
    exact ⟨rfl, by simp [Socket.takes_of_offer ho]⟩
  | fail | part | vanish | finish => cases hopen

/-- Goodbyes are not written in the main loop. -/
theorem Stroke.isClose (h : w.Stroke s now seen o missed w' o') {frame : Outgoing}
    {deadline : Instant} (ht' : w'.task = .writing frame deadline) : frame.isClose = false := by
  have hidle : ∀ w : Writer, w.task.isIdle = true → w.task ≠ .writing frame deadline := by
    intro w hw ht
    rw [ht] at hw
    cases hw
  cases h with
  | reply | frame | beat =>
    obtain ⟨rfl, -⟩ := WriterTask.writing.inj ht'
    rfl
  | start => exact absurd ht' (hidle _ (isIdle_start _ _ _ _))
  | write => exact absurd ht' (hidle _ (isIdle_await _ _ _))
  | check =>
    unfold checkSilence at ht'
    split at ht'
    · cases ht'
    · exact absurd ht' (hidle _ (isIdle_await _ _ _))
  | leave | fail | part | vanish | finish => cases ht'

end Writer

section Steps

variable {m : Moment} {k : ConnectionId} {c c' : Connection} {missed : List Inlet} {queue : Queue}
  {o : Outlet}

theorem Connection.Wrote.stroke?
    (h : c.Wrote m.world.site.now m.world.site.hub.exchange.mail missed queue o c')
    (hm : m.move = .act (.writer k missed)) (hc : m.world.connections[k]? = some c) :
    m.stroke? k = some ((c.writer, c.outlet queue), (c'.writer, o)) := by
  unfold Moment.stroke?
  rw [hm]
  dsimp only
  rw [if_pos rfl, hc, Option.bind_some, h.inbox, Option.bind_some, h.step, Option.map_some]

/-- What is begun and what is taken in a step of a connection's writer. -/
theorem Connection.Wrote.read_off
    (h : c.Wrote m.world.site.now m.world.site.hub.exchange.mail missed queue o c')
    (hm : m.move = .act (.writer k missed)) (hc : m.world.connections[k]? = some c) :
    m.begins? k = c'.writer.task.held?.map ((c.outlet queue).source o, ·) ∧
      m.writes? k = c.writer.task.held?.filter c.socket.takes := by
  rw [Moment.begins?, Moment.writes?, h.stroke? hm hc]
  exact ⟨rfl, rfl⟩

/-- What is taken is added to what the peer is sent, until the way out is closed. -/
theorem Connection.Wrote.sent
    (h : c.Wrote m.world.site.now m.world.site.hub.exchange.mail missed queue o c')
    (hm : m.move = .act (.writer k missed)) (hc : m.world.connections[k]? = some c)
    (hending : c.writer.task.ending? = none) :
    c'.socket.sent = c.socket.sent ++ (m.writes? k).toList := by
  rw [(h.read_off hm hc).2, h.socket]
  exact (Writer.deed_of_step? h.step).sent hending

end Steps

/-! ## The invariant -/

/-- What has been written is what has been begun, but for the frame in hand, and none of it is a
goodbye. -/
structure Pace (begun written : List Outgoing) (t : WriterTask) : Prop where
  begun : begun = written ++ t.held?.toList
  isOpen : IsOpen written
  frame : ∀ frame deadline, t = .writing frame deadline → frame.isClose = false

/-- What a connection's writer has begun and written goes with what its reader has said. -/
structure Penned (past : List Moment) (k : ConnectionId) (c : Connection) : Prop where
  genuine : ∀ a ∈ begunBy k past, a.1 = .writer → a.2.envelope? = none
  replies : c.writer.isRunning = true →
    (takenUp .reader (begunBy k past) ++ c.replies).map (·.message) = said k past
  pace : c.writer.task.isOpen = true →
    Pace ((begunBy k past).map Prod.snd) (writtenBy k past) c.writer.task

/-- The frames that a writer in its main loop has in hand are no goodbyes. -/
theorem Pace.isOpen_held {begun written : List Outgoing} {t : WriterTask} (h : Pace begun written t)
    (ht : t.isLooping = true) : IsOpen (written ++ t.held?.toList) := by
  cases t with
  | starting | waiting => simpa using h.isOpen
  | writing frame deadline => exact h.isOpen.snoc (h.frame frame deadline rfl)
  | leaving | closing | finished | crashed | aborted => cases ht

namespace Penned

variable {past : List Moment} {m : Moment} {k : ConnectionId} {c c' : Connection}

/-- When a connection is opened, nothing has been said or written on it. -/
theorem opened (hpast : ∀ m ∈ past, m.world.connections[k]? = none) (hreplies : c.replies = [])
    (htask : c.writer.task = .starting ∨ c.writer.task = .aborted) : Penned past k c := by
  have hstroke : ∀ m ∈ past, m.stroke? k = none := fun m hm =>
    Moment.stroke?_of_absent (hpast m hm)
  have hbegun : begunBy k past = [] := List.filterMap_eq_nil_iff.mpr fun m hm => by
    rw [Moment.begins?, hstroke m hm, Option.bind_none]
  have hwritten : writtenBy k past = [] := List.filterMap_eq_nil_iff.mpr fun m hm => by
    rw [Moment.writes?, hstroke m hm, Option.bind_none]
  have hsaid : said k past = [] := List.filterMap_eq_nil_iff.mpr fun m hm =>
    Moment.ofReader?_of_absent (hpast m hm)
  refine ⟨?_, fun _ => ?_, fun hopen => ?_⟩
  · rw [hbegun]
    intro a ha
    cases ha
  · rw [hbegun, hsaid, hreplies]
    rfl
  · rw [hbegun, hwritten]
    rcases htask with ht | ht
    · rw [ht]
      exact ⟨rfl, fun frame hf => (nomatch hf), fun frame deadline hf => (nomatch hf)⟩
    · rw [ht] at hopen
      cases hopen

/-- Where neither half acts, nothing changes unless the writer ends. -/
theorem idle (h : Penned past k c) (hwriter : ∀ missed, m.move ≠ .act (.writer k missed))
    (hreader : m.move ≠ .act (.reader k))
    (hc' : (c'.writer = c.writer ∧ c'.replies = c.replies) ∨ c'.writer.isRunning = false) :
    Penned (past ++ [m]) k c' := by
  obtain ⟨hbegun, hwritten⟩ := unwritten_of_stroke? past (Moment.stroke?_of_ne hwriter)
  have hsaid := said_of_ne past hreader
  refine ⟨?_, fun hrunning => ?_, fun hopen => ?_⟩
  · rw [hbegun]
    exact h.genuine
  · rw [hbegun, hsaid]
    rcases hc' with ⟨hw, hr⟩ | hended
    · rw [hr]
      exact h.replies (hw ▸ hrunning)
    · rw [hrunning] at hended
      cases hended
  · rw [hbegun, hwritten]
    rcases hc' with ⟨hw, -⟩ | hended
    · rw [hw] at hopen ⊢
      exact h.pace hopen
    · rw [Writer.isRunning_of_isOpen hopen] at hended
      cases hended

/-- What the writer takes up and writes. -/
theorem write (h : Penned past k c) {missed : List Inlet} {queue : Queue} {o : Outlet}
    (hm : m.move = .act (.writer k missed)) (hc : m.world.connections[k]? = some c)
    (hwrote : c.Wrote m.world.site.now m.world.site.hub.exchange.mail missed queue o c') :
    Penned (past ++ [m]) k c' := by
  obtain ⟨hbegins, hwrites⟩ := hwrote.read_off hm hc
  have hstroke := Writer.stroke_of_step? hwrote.step
  have hflow : Flow (takenUp .reader (begunBy k past) ++ c.replies)
      (takenUp .hub (begunBy k past) ++ queue.frames) (begunBy k past) (c.outlet queue) :=
    ⟨rfl, rfl, h.genuine⟩
  -- what the step begins to write is what it takes up, from whichever side
  have hflow := hflow.deed (Writer.deed_of_step? hwrote.step)
  rw [← hbegins, ← begunBy_snoc] at hflow
  refine ⟨hflow.genuine, fun hrunning => ?_, fun hopen => ?_⟩
  · have hreplies : c'.replies = o.replies := hwrote.replies.trans (if_pos hrunning)
    rw [hreplies, ← hflow.replies, said_of_ne past (by rw [hm]; simp)]
    exact h.replies hstroke.isRunning
  · -- and the frame that was in hand has been taken, or the writer would be closing its way out
    obtain ⟨hloop, htaken⟩ := hstroke.taken hopen
    have hpace := h.pace (WriterTask.isOpen_of_isLooping hloop)
    have htaken : m.writes? k = c.writer.task.held? := hwrites.trans htaken
    rw [begunBy_snoc, writtenBy_snoc, hbegins, htaken]
    refine ⟨?_, hpace.isOpen_held hloop, fun frame deadline ht => hstroke.isClose ht⟩
    rw [List.map_append, hpace.begun]
    cases c'.writer.task.held? <;> rfl

/-- What the reader passes on waits to be taken up. -/
theorem read (h : Penned past k c) (hm : m.move = .act (.reader k))
    (hc : m.world.connections[k]? = some c) (hread : c.Read m.world.site c') :
    Penned (past ++ [m]) k c' := by
  obtain ⟨hbegun, hwritten⟩ := unwritten_of_stroke? past
    (Moment.stroke?_of_ne fun missed => by rw [hm]; simp)
  have hpass : m.passesOn? k = c.reader.outgoing.head? := Moment.ofReader?_of_act hm hc
  refine ⟨?_, fun hrunning => ?_, fun hopen => ?_⟩
  · rw [hbegun]
    exact h.genuine
  · rw [hread.writer] at hrunning
    rw [hread.replies, if_pos hrunning, ← List.append_assoc, List.map_append, hbegun,
      h.replies hrunning, said_snoc, hpass]
    cases c.reader.outgoing.head? <;> rfl
  · rw [hbegun, hwritten, hread.writer]
    rw [hread.writer] at hopen
    exact h.pace hopen

theorem fares (h : Penned past k c) (hc : m.world.connections[k]? = some c)
    (hfares : c.Fares m k c') : Penned (past ++ [m]) k c' := by
  cases hfares with
  | write hm hwrote => exact h.write hm hc hwrote
  | read hm _ _ hread => exact h.read hm hc hread
  | part hm hparted =>
    refine h.idle (fun _ => by rw [hm]; simp) (by rw [hm]; simp) ?_
    cases hparted with
    | writerEnded | readerEnded | drained => exact .inl ⟨rfl, rfl⟩
    | expired _ _ _ _ htask =>
      refine .inr ?_
      unfold Writer.isRunning
      rw [htask]
  | cut hm hended => exact h.idle (fun _ => by rw [hm]; simp) (by rw [hm]; simp) (.inr hended)
  | reach _ hm => exact h.idle (fun _ => by rw [hm]; simp) (by rw [hm]; simp) (.inl ⟨rfl, rfl⟩)
  | stay hactors =>
    exact h.idle (fun missed hm => (hactors _ hm).1 missed rfl) (fun hm => (hactors _ hm).2.1 rfl)
      (.inl ⟨rfl, rfl⟩)

end Penned

section Courses

variable {callers : Request → Prop} {past : List Moment} {w : World} {service : Service}
  {now : Instant} {clock : Time.Timestamp} {k : ConnectionId} {c : Connection}

/-- A connection that is not there never was. -/
theorem Course.absent (h : Course callers (.start service now clock) past w)
    (hk : w.connections[k]? = none) : ∀ m ∈ past, m.world.connections[k]? = none := by
  induction h with
  | start =>
    intro m hm
    cases hm
  | @move past u v m hcourse _ hmove ih =>
    have hu : u.connections[k]? = none := by
      cases hc : u.connections[k]? with
      | none => rfl
      | some c =>
        obtain ⟨c', hc', -⟩ := fares_of_move hcourse.calm hmove hc
        rw [hk] at hc'
        cases hc'
    intro m' hm'
    rcases List.mem_append.mp hm' with hm' | hm'
    · exact ih hu m' hm'
    · rw [List.mem_singleton.mp hm']
      exact hu

/-- **What is written goes with what is said**, on every connection and at any time. -/
theorem Course.penned (h : Course callers (.start service now clock) past w)
    (hc : w.connections[k]? = some c) : Penned past k c := by
  induction h generalizing c with
  | start => cases hc
  | @move past u v m hcourse hcall hmove ih =>
    rcases before_of_move hcourse.calm hmove hc with hnone | ⟨c₀, hc₀, hfares⟩
    · obtain ⟨⟨settings, socket, rfl⟩, -, hfresh⟩ := fresh_of_move hmove hnone hc
      refine .opened (fun m hm => ?_) hfresh.replies hfresh.writer
      rcases List.mem_append.mp hm with hm | hm
      · exact hcourse.absent hnone m hm
      · rw [List.mem_singleton.mp hm]
        exact hnone
    · exact (ih hc₀).fares (m := ⟨u, m⟩) hc₀ hfares

end Courses

end Switchboard
