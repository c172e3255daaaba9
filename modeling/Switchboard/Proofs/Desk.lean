import Switchboard.Connection.Client
import Switchboard.Proofs.Lanes

/-!
# Desks

A writer on its own. A *shift* is a history of one writer: it takes its steps whenever it likes, and
in between replies and frames come in, either end lets go, time passes, and the way out changes in
any way at all. Of such a history one can read off what has come in (`replied`, `queued`), what the
writer has begun to write (`attempted`) and what has been taken from it (`accepted`).

At a desk something has come in when a look would find it. That is all there is to looks that miss
something: such a look does what it would do if what it misses came in later
(`Writer.step?_missed`).

`Deed` says what one step of a writer can do, and `Writer.deed_of_step?` that it does nothing else.
-/

namespace Switchboard

open Wire

/-! ## A writer at work -/

/-- A writer with all that it reads and writes, and the time. -/
structure Desk where
  writer : Writer
  outlet : Outlet
  now : Instant
  /-- When the peer was last heard. -/
  seen : Instant

namespace Desk

/-- What can happen to a writer. -/
inductive Event where
  /-- The writer takes its next step. -/
  | work
  | reply (e : Envelope)
  /-- The reader is gone. -/
  | dismiss
  /-- The hub puts a frame into the queue. -/
  | enqueue (e : Envelope)
  /-- The hub lets go of the queue. -/
  | release
  /-- The way out changes. -/
  | setSocket (socket : Socket)
  | setTime (now seen : Instant)
  /-- The writer is ended from outside. -/
  | abort

/-- A desk at which nothing has happened yet. -/
def opening (capacity : Nat) (socket : Socket) (now seen : Instant) : Desk :=
  ⟨.new, ⟨[], true, .new capacity, socket⟩, now, seen⟩

/-- The desk after an event, if that can happen. Nothing comes in once the writer has ended, and
nothing from an end that has let go. -/
def after? (s : Settings) (d : Desk) : Event → Option Desk
  | .work =>
    (d.writer.step? s d.now d.seen d.outlet []).map fun (writer, outlet) =>
      { d with writer, outlet }
  | .reply e =>
    if d.writer.isRunning && d.outlet.hasReader then
      some { d with outlet := { d.outlet with replies := d.outlet.replies ++ [e] } }
    else none
  | .dismiss => some { d with outlet := { d.outlet with hasReader := false } }
  | .enqueue e =>
    if d.writer.isRunning && d.outlet.queue.hasSender && d.outlet.queue.refusal?.isNone then
      some { d with outlet := { d.outlet with queue := d.outlet.queue.push e } }
    else none
  | .release => some { d with outlet := { d.outlet with queue := d.outlet.queue.release } }
  | .setSocket socket => some { d with outlet := { d.outlet with socket } }
  | .setTime now seen => some { d with now, seen }
  | .abort =>
    if d.writer.isRunning then some { d with writer := { d.writer with task := .aborted } }
    else none

end Desk

/-- The desk of a connection's writer. -/
def Connection.desk (c : Connection) (now : Instant) (queue : Queue) : Desk :=
  ⟨c.writer, c.outlet queue, now, c.seen⟩

/-- An event and the desk that met it. -/
structure Page where
  desk : Desk
  event : Desk.Event

/-- `Shift s d₀ log d`: the events of `log` lead from `d₀` to `d`. -/
inductive Shift (s : Settings) (d₀ : Desk) : List Page → Desk → Prop
  | start : Shift s d₀ [] d₀
  | next {log : List Page} {d d' : Desk} {e : Desk.Event} :
      Shift s d₀ log d → d.after? s e = some d' → Shift s d₀ (log ++ [⟨d, e⟩]) d'

namespace Desk

/-- The desk after some events, if they can happen. -/
def follow? (s : Settings) (d : Desk) : List Event → Option Desk
  | [] => some d
  | e :: events => (d.after? s e).bind fun d' => d'.follow? s events

/-- The log of some events, as far as they can happen. -/
def logOf (s : Settings) (d : Desk) : List Event → List Page
  | [] => []
  | e :: events =>
    match d.after? s e with
    | some d' => ⟨d, e⟩ :: d'.logOf s events
    | none => []

end Desk

/-! ## What can be read off a shift -/

/-- Where a frame that is written comes from. -/
inductive Source where
  | reader
  | hub
  /-- Pings and goodbyes are the writer's own. -/
  | writer
  deriving DecidableEq, Repr

/-- The frame that a writer has in hand. -/
@[simp]
def WriterTask.held? : WriterTask → Option Outgoing
  | writing frame _ => some frame
  | leaving _ _ => some (.close none)
  | starting | waiting _ | closing .. | finished _ | crashed | aborted => none

/-- Where something has been taken up from. -/
def Outlet.source (o o' : Outlet) : Source :=
  if o'.replies.length < o.replies.length then .reader
  else if o'.queue.frames.length < o.queue.frames.length then .hub
  else .writer

/-- Whether a frame is taken when it is offered. -/
def Socket.takes (s : Socket) (frame : Outgoing) : Bool :=
  match s.offer frame with
  | .taken _ => true
  | .stalled | .broken => false

namespace Page

def reply? (p : Page) : Option Envelope :=
  match p.event with
  | .reply e => some e
  | _ => none

def frame? (p : Page) : Option Envelope :=
  match p.event with
  | .enqueue e => some e
  | _ => none

/-- The frame that the writer begins to write. -/
def attempt? (s : Settings) (p : Page) : Option (Source × Outgoing) :=
  match p.event with
  | .work => (p.desk.after? s .work).bind fun d =>
      d.writer.task.held?.map fun frame => (p.desk.outlet.source d.outlet, frame)
  | _ => none

/-- The frame that is taken from the writer. -/
def accept? (p : Page) : Option Outgoing :=
  match p.event with
  | .work => p.desk.writer.task.held?.filter p.desk.outlet.socket.takes
  | _ => none

end Page

/-- The replies that have come in. -/
def replied (log : List Page) : List Envelope := log.filterMap Page.reply?

/-- The frames that the hub has put into the queue. -/
def queued (log : List Page) : List Envelope := log.filterMap Page.frame?

/-- The frames that the writer has begun to write. -/
def attempted (s : Settings) (log : List Page) : List (Source × Outgoing) :=
  log.filterMap (Page.attempt? s)

/-- The frames that have been taken from the writer. -/
def accepted (log : List Page) : List Outgoing := log.filterMap Page.accept?

/-- The envelope that a frame carries. -/
def Outgoing.envelope? : Outgoing → Option Envelope
  | .envelope e => some e
  | .ping | .pong _ | .close _ => none

/-- The envelopes among some frames. -/
def envelopes (frames : List Outgoing) : List Envelope := frames.filterMap Outgoing.envelope?

def Outgoing.isClose : Outgoing → Bool
  | .close _ => true
  | .envelope _ | .ping | .pong _ => false

/-! ## Looks that miss something -/

namespace Outlet

/-- A look finds nothing at the replies: none waits and there is a reader that could reply, or it
has missed what there is. -/
def IsQuiet (o : Outlet) (missed : List Inlet) : Prop :=
  .replies ∉ missed → o.replies = [] ∧ o.hasReader = true

/-- The outlet as if nothing had come in, nor been let go of, where a look misses it. -/
def hide (o : Outlet) (missed : List Inlet) : Outlet :=
  { o with
    replies := if .replies ∈ missed then [] else o.replies
    hasReader := if .replies ∈ missed then true else o.hasReader
    queue := if .queue ∈ missed then .new o.queue.capacity else o.queue }

/-- What had been hidden comes in. -/
def reveal (o hidden : Outlet) (missed : List Inlet) : Outlet :=
  { o with
    replies := if .replies ∈ missed then hidden.replies else o.replies
    hasReader := hidden.hasReader
    queue := if .queue ∈ missed then hidden.queue else o.queue }

@[simp] theorem socket_hide (o : Outlet) (missed : List Inlet) :
    (o.hide missed).socket = o.socket := rfl

theorem reveal_hide (o : Outlet) (missed : List Inlet) : (o.hide missed).reveal o missed = o := by
  unfold hide reveal
  by_cases hr : .replies ∈ missed <;> by_cases hq : .queue ∈ missed <;> simp [hr, hq]

theorem reveal_socket (o : Outlet) (missed : List Inlet) (socket : Socket) :
    ({ o.hide missed with socket }).reveal o missed = { o with socket } := by
  have h := congrArg (fun o : Outlet => { o with socket }) (reveal_hide o missed)
  exact h

end Outlet

namespace Writer

variable {s : Settings} {now seen silence : Instant} {o o' : Outlet} {missed : List Inlet}
  {w w' : Writer}

theorem takeReply?_eq_none :
    w.takeReply? s now o = none ↔ o.replies = [] ∧ o.hasReader = true := by
  unfold takeReply?
  cases o.replies <;> cases o.hasReader <;> simp

/-- A writer that takes something up finds it at the replies, or else at the queue, or else at the
clock. -/
theorem takeUp?_eq_some : w.takeUp? s now seen silence o missed = some (w', o') ↔
    (.replies ∉ missed ∧ w.takeReply? s now o = some (w', o')) ∨
      (o.IsQuiet missed ∧ .queue ∉ missed ∧ w.takeFrame? s now o = some (w', o')) ∨
      (o.IsQuiet missed ∧ (.queue ∉ missed → w.takeFrame? s now o = none) ∧
        w.takeTime? s now seen silence = some w' ∧ o' = o) := by
  have hquiet : (if .replies ∈ missed then none else w.takeReply? s now o) = none ↔
      o.IsQuiet missed := by
    rw [ite_eq_left_iff, takeReply?_eq_none]
    rfl
  have htime : (w.takeTime? s now seen silence).map (·, o) = some (w', o') ↔
      w.takeTime? s now seen silence = some w' ∧ o' = o := by
    rw [Option.map_eq_some_iff]
    exact ⟨fun ⟨_, hw, heq⟩ => by obtain ⟨rfl, rfl⟩ := Prod.mk.inj heq; exact ⟨hw, rfl⟩,
      fun ⟨hw, ho⟩ => ⟨_, hw, by rw [ho]⟩⟩
  unfold takeUp?
  rw [Option.or_eq_some_iff, Option.or_eq_some_iff, Option.or_eq_none_iff, hquiet, htime]
  simp only [Option.ite_none_left_eq_some, ite_eq_left_iff]
  tauto

/-- A look that misses something finds what it would find if that were not there. -/
theorem takeUp?_missed (s : Settings) (now seen silence : Instant) (o : Outlet)
    (missed : List Inlet) (w : Writer) : w.takeUp? s now seen silence o missed =
      (w.takeUp? s now seen silence (o.hide missed) []).map fun (w', o') =>
        (w', o'.reveal o missed) := by
  -- an inlet that is missed shows nothing, and the others show what there is
  have hreply : (if .replies ∈ missed then none else w.takeReply? s now o) =
      (w.takeReply? s now (o.hide missed)).map fun (w', o') => (w', o'.reveal o missed) := by
    unfold takeReply?
    by_cases hr : .replies ∈ missed
    · simp [Outlet.hide, hr]
    · have hsame : (o.hide missed).replies = o.replies := if_neg hr
      have hreader : (o.hide missed).hasReader = o.hasReader := if_neg hr
      rw [if_neg hr, hsame, hreader]
      cases o.replies with
      | nil => cases o.hasReader <;> simp [Outlet.reveal_hide]
      | cons reply replies => simp +contextual [Outlet.reveal, Outlet.hide, hr]
  have hframe : (if .queue ∈ missed then none else w.takeFrame? s now o) =
      (w.takeFrame? s now (o.hide missed)).map fun (w', o') => (w', o'.reveal o missed) := by
    unfold takeFrame?
    by_cases hq : .queue ∈ missed
    · simp [Outlet.hide, hq, Queue.new, Queue.pop?, Queue.isEnded]
    · have hsame : (o.hide missed).queue = o.queue := if_neg hq
      rw [if_neg hq, hsame]
      cases o.queue.pop? with
      | none => cases o.queue.isEnded <;> simp [Outlet.reveal_hide]
      | some p => simp +contextual [Outlet.reveal, Outlet.hide, hq]
  unfold takeUp?
  rw [hreply, hframe, if_neg List.not_mem_nil, if_neg List.not_mem_nil, Option.map_or,
    Option.map_or, Option.map_map]
  simp only [Function.comp_def, Outlet.reveal_hide]

/-- **What a step misses might as well come in later.** -/
theorem step?_missed (s : Settings) (now seen : Instant) (o : Outlet) (missed : List Inlet)
    (w : Writer) : w.step? s now seen o missed =
      (w.step? s now seen (o.hide missed) []).map fun (w', o') => (w', o'.reveal o missed) := by
  unfold step?
  cases w.task with
  | waiting silence => exact takeUp?_missed s now seen silence o missed w
  | starting => simp [Outlet.reveal_hide]
  | writing frame deadline =>
    dsimp only
    rw [Outlet.socket_hide]
    cases o.socket.offer frame with
    | taken socket => simp [Outlet.reveal_socket]
    | broken => simp [Outlet.reveal_hide]
    | stalled =>
      dsimp only
      split <;> simp [Outlet.reveal_hide]
  | leaving why deadline =>
    dsimp only
    rw [Outlet.socket_hide]
    cases o.socket.offer (.close none) with
    | taken socket => simp [Outlet.reveal_socket]
    | broken => simp [Outlet.reveal_hide]
    | stalled =>
      dsimp only
      split <;> simp [Outlet.reveal_hide]
  | closing why deadline =>
    dsimp only
    rw [Outlet.socket_hide]
    split
    · simp [Outlet.reveal_socket]
    · split <;> simp [Outlet.reveal_hide]
  | finished | crashed | aborted => rfl

end Writer

/-! ## What one step can do -/

/-- A writer that has nothing in hand and has not begun to end. -/
def WriterTask.isIdle : WriterTask → Bool
  | starting | waiting _ | crashed => true
  | writing .. | leaving .. | closing .. | finished _ | aborted => false

theorem WriterTask.held?_of_isIdle {t : WriterTask} (h : t.isIdle = true) : t.held? = none := by
  cases t with
  | starting | waiting | crashed => rfl
  | writing | leaving | closing | finished | aborted => cases h

/-- Why a writer that is done writing has ended or is about to. -/
@[simp]
def WriterTask.ending? : WriterTask → Option Termination
  | closing why _ | finished why => some why
  | starting | waiting _ | writing .. | leaving .. | crashed | aborted => none

theorem WriterTask.ending?_of_isIdle {t : WriterTask} (h : t.isIdle = true) :
    t.ending? = none := by
  cases t with
  | starting | waiting | crashed => rfl
  | writing | leaving | closing | finished | aborted => cases h

/-- A connection's writer works at its desk, where nothing has come in that its look misses. All
that follows is that a writer that has ended lets go of everything. -/
theorem Connection.stepWriter?_eq_work (c : Connection) (now : Instant) {mail : Mail}
    {queue : Queue} (hq : mail.get? c.queue = some queue) (missed : List Inlet) :
    c.stepWriter? now mail missed =
      (({ c.desk now queue with outlet := (c.outlet queue).hide missed } : Desk).after? c.settings
        .work).map fun d =>
          let o := d.outlet.reveal (c.outlet queue) missed
          ({ c with writer := d.writer, replies := o.replies, socket := o.socket } :
            Connection).settleWriter (mail.modify c.queue fun _ => o.queue) := by
  unfold stepWriter? desk Desk.after?
  rw [hq]
  dsimp only
  rw [Writer.step?_missed]
  cases c.writer.step? c.settings now c.seen ((c.outlet queue).hide missed) [] <;> rfl

/-- A writer leaves for a reason only when nothing can come in any more that the reason would be
wrong about. -/
structure Outlet.Justifies (o : Outlet) (why : Termination) : Prop where
  unfailed : why ≠ .writeFailed
  client : why = .clientClosed → o.replies = [] ∧ o.hasReader = false
  queue : why = .queueClosed → o.queue.frames = [] ∧ o.queue.isEnded = true

/-- What a step of a writer can do whose look misses some inlets: from one task to another, and what
it leaves to read and write. -/
inductive Deed (o : Outlet) (missed : List Inlet) : WriterTask → WriterTask → Outlet → Prop
  | rest {t t' : WriterTask} : t.isIdle = true → t'.isIdle = true → Deed o missed t t' o
  | reply {t : WriterTask} {e : Envelope} {replies : List Envelope} (deadline : Instant) :
      t.isIdle = true → o.replies = e :: replies →
      Deed o missed t (.writing (.envelope e) deadline) { o with replies }
  | frame {t : WriterTask} {e : Envelope} {queue : Queue} (deadline : Instant) :
      t.isIdle = true → o.IsQuiet missed → o.queue.pop? = some (e, queue) →
      Deed o missed t (.writing (.envelope e) deadline) { o with queue }
  | ping {t : WriterTask} (deadline : Instant) :
      t.isIdle = true → Deed o missed t (.writing .ping deadline) o
  | leave {t : WriterTask} {why : Termination} (deadline : Instant) :
      t.isIdle = true → o.Justifies why → Deed o missed t (.leaving why deadline) o
  | write {frame : Outgoing} {deadline : Instant} {t' : WriterTask} {socket : Socket} :
      o.socket.offer frame = .taken socket → t'.isIdle = true →
      Deed o missed (.writing frame deadline) t' { o with socket }
  | fail {frame : Outgoing} {deadline : Instant} (deadline' : Instant) :
      o.socket.takes frame = false →
      Deed o missed (.writing frame deadline) (.closing .writeFailed deadline') o
  | part {why : Termination} {deadline : Instant} {socket : Socket} (deadline' : Instant) :
      o.socket.offer (.close none) = .taken socket →
      Deed o missed (.leaving why deadline) (.closing why deadline') { o with socket }
  | vanish {why : Termination} {deadline : Instant} (deadline' : Instant) :
      o.socket.takes (.close none) = false →
      Deed o missed (.leaving why deadline) (.closing why deadline') o
  | close {why : Termination} {deadline : Instant} (socket : Socket) :
      Deed o missed (.closing why deadline) (.finished why) { o with socket }

namespace Queue

variable {q q' : Queue} {e : Envelope}

theorem frames_of_pop?_eq_none (h : q.pop? = none) : q.frames = [] := by
  unfold pop? at h
  split at h
  · assumption
  · cases h

theorem frames_of_pop?_eq_some (h : q.pop? = some (e, q')) :
    q.frames = e :: q'.frames ∧ q'.isEnded = q.isEnded := by
  unfold pop? at h
  split at h
  · cases h
  · rename_i hf
    obtain ⟨rfl, rfl⟩ := Prod.mk.inj (Option.some.inj h)
    exact ⟨hf, rfl⟩

/-- A queue that has ended takes nothing. -/
theorem isEnded_eq_false (hs : q.hasSender = true) (hr : q.refusal? = none) :
    q.isEnded = false := by
  unfold refusal? at hr
  by_cases hl : q.receiver = .listening
  · simp [isEnded, hs, hl]
  · rw [if_pos hl] at hr
    cases hr

end Queue

namespace Socket

variable {socket socket' : Socket} {frame : Outgoing}

theorem takes_of_offer (h : socket.offer frame = .taken socket') : socket.takes frame = true := by
  rw [takes, h]

theorem sent_of_offer (h : socket.offer frame = .taken socket') :
    socket'.sent = socket.sent ++ [frame] := by
  unfold offer at h
  split at h
  · cases h
  · split at h
    · cases h
    · rw [← Offer.taken.inj h]
      rfl

end Socket

/-- What a writer adds to what its peer gets, until the way out is closed. -/
theorem Deed.sent {o o' : Outlet} {missed : List Inlet} {t t' : WriterTask}
    (h : Deed o missed t t' o')
    (ht : t.ending? = none) :
    o'.socket.sent = o.socket.sent ++ (t.held?.filter o.socket.takes).toList := by
  cases h with
  | rest ht | reply _ ht | frame _ ht | ping _ ht | leave _ ht =>
    rw [WriterTask.held?_of_isIdle ht, Option.filter_none, Option.toList_none, List.append_nil]
  | write ho | part _ ho =>
    rw [WriterTask.held?, Option.filter_some, if_pos (Socket.takes_of_offer ho),
      Option.toList_some]
    exact Socket.sent_of_offer ho
  | fail _ htakes | vanish _ htakes => simp [htakes]
  | close => cases ht

namespace Writer

variable {s : Settings} {now seen : Instant} {o o' : Outlet} {missed : List Inlet} {w w' : Writer}

theorem isIdle_await (s : Settings) (seen : Instant) (w : Writer) :
    (w.await s seen).task.isIdle = true := by
  unfold await
  by_cases h : s.hasSilence seen = true
  · simp only [if_pos h, WriterTask.isIdle]
  · simp only [if_neg h, WriterTask.isIdle]

theorem isIdle_start (s : Settings) (now seen : Instant) (w : Writer) :
    (w.start s now seen).task.isIdle = true := by
  unfold start
  by_cases h : s.hasHeartbeat now = true
  · rw [if_pos h]
    exact isIdle_await _ _ _
  · simp only [if_neg h, WriterTask.isIdle]

theorem deed_of_takeReply? {t : WriterTask} (ht : t.isIdle = true)
    (h : w.takeReply? s now o = some (w', o')) : Deed o missed t w'.task o' := by
  unfold takeReply? at h
  split at h
  · rename_i e replies hr
    obtain ⟨rfl, rfl⟩ := Prod.mk.inj (Option.some.inj h)
    exact .reply _ ht hr
  · rename_i hr
    split at h
    · cases h
    · rename_i hreader
      obtain ⟨rfl, rfl⟩ := Prod.mk.inj (Option.some.inj h)
      exact .leave _ ht ⟨by simp, fun _ => ⟨hr, by simpa using hreader⟩, by simp⟩

theorem deed_of_takeFrame? {t : WriterTask} (ht : t.isIdle = true) (hquiet : o.IsQuiet missed)
    (h : w.takeFrame? s now o = some (w', o')) : Deed o missed t w'.task o' := by
  unfold takeFrame? at h
  split at h
  · rename_i e queue hp
    obtain ⟨rfl, rfl⟩ := Prod.mk.inj (Option.some.inj h)
    exact .frame _ ht hquiet hp
  · rename_i hp
    split at h
    · rename_i hended
      obtain ⟨rfl, rfl⟩ := Prod.mk.inj (Option.some.inj h)
      exact .leave _ ht ⟨by simp, by simp, fun _ => ⟨Queue.frames_of_pop?_eq_none hp, hended⟩⟩
    · cases h

theorem deed_of_takeTime? {silence : Instant} {t : WriterTask} (ht : t.isIdle = true)
    (h : w.takeTime? s now seen silence = some w') : Deed o missed t w'.task o := by
  unfold takeTime? at h
  split at h
  · obtain rfl := Option.some.inj h
    unfold checkSilence
    split
    · exact .leave _ ht ⟨by simp, by simp, by simp⟩
    · exact .rest ht (isIdle_await _ _ _)
  · split at h
    · obtain rfl := Option.some.inj h
      exact .ping _ ht
    · cases h

/-- A writer can do nothing else in one step. -/
theorem deed_of_step? (h : w.step? s now seen o missed = some (w', o')) :
    Deed o missed w.task w'.task o' := by
  unfold step? at h
  split at h
  · rename_i ht
    obtain ⟨rfl, rfl⟩ := Prod.mk.inj (Option.some.inj h)
    rw [ht]
    exact .rest rfl (isIdle_start _ _ _ _)
  · rename_i silence ht
    rw [ht]
    -- replies first, then the hub's frames, then the silence of the peer and the heartbeat
    rcases takeUp?_eq_some.mp h with ⟨-, hreply⟩ | ⟨hquiet, -, hframe⟩ | ⟨-, -, htime, ho⟩
    · exact deed_of_takeReply? rfl hreply
    · exact deed_of_takeFrame? rfl hquiet hframe
    · rw [ho]
      exact deed_of_takeTime? rfl htime
  · rename_i frame deadline ht
    rw [ht]
    split at h
    · rename_i socket ho
      obtain ⟨rfl, rfl⟩ := Prod.mk.inj (Option.some.inj h)
      exact .write ho (isIdle_await _ _ _)
    · rename_i ho
      obtain ⟨rfl, rfl⟩ := Prod.mk.inj (Option.some.inj h)
      exact .fail _ (by simp [Socket.takes, ho])
    · rename_i ho
      split at h
      · obtain ⟨rfl, rfl⟩ := Prod.mk.inj (Option.some.inj h)
        exact .fail _ (by simp [Socket.takes, ho])
      · cases h
  · rename_i why deadline ht
    rw [ht]
    split at h
    · rename_i socket ho
      obtain ⟨rfl, rfl⟩ := Prod.mk.inj (Option.some.inj h)
      exact .part _ ho
    · rename_i ho
      obtain ⟨rfl, rfl⟩ := Prod.mk.inj (Option.some.inj h)
      exact .vanish _ (by simp [Socket.takes, ho])
    · rename_i ho
      split at h
      · obtain ⟨rfl, rfl⟩ := Prod.mk.inj (Option.some.inj h)
        exact .vanish _ (by simp [Socket.takes, ho])
      · cases h
  · rename_i why deadline ht
    rw [ht]
    split at h
    · obtain ⟨rfl, rfl⟩ := Prod.mk.inj (Option.some.inj h)
      exact .close _
    · split at h
      · obtain ⟨rfl, rfl⟩ := Prod.mk.inj (Option.some.inj h)
        exact .close o.socket
      · cases h
  · cases h
  · cases h
  · cases h

end Writer

/-- The writer does one of the things that it can do. -/
theorem Desk.deed_of_work {s : Settings} {d d' : Desk} (h : d.after? s .work = some d') :
    Deed d.outlet [] d.writer.task d'.writer.task d'.outlet := by
  obtain ⟨⟨w, o⟩, hstep, rfl⟩ := Option.map_eq_some_iff.mp h
  exact Writer.deed_of_step? hstep

/-! ## Shifts -/

namespace Shift

variable {s : Settings} {d₀ d : Desk} {log before after : List Page} {p : Page}

/-- A page of the log was written by a shift. -/
theorem split (h : Shift s d₀ log d) (hlog : log = before ++ p :: after) :
    Shift s d₀ before p.desk ∧ ∃ d', p.desk.after? s p.event = some d' := by
  induction h generalizing after with
  | start => simp at hlog
  | @next log d d' e hshift hd ih =>
    rcases List.eq_nil_or_concat after with rfl | ⟨after, p', rfl⟩
    · obtain ⟨rfl, hp⟩ := List.append_inj' hlog rfl
      obtain rfl := List.singleton_inj.mp hp
      exact ⟨hshift, d', hd⟩
    · rw [List.concat_eq_append, ← List.cons_append, ← List.append_assoc] at hlog
      exact ih (List.append_inj' hlog rfl).1

theorem follow {events : List Desk.Event} {d' : Desk} (h : Shift s d₀ log d)
    (hd : d.follow? s events = some d') : Shift s d₀ (log ++ d.logOf s events) d' := by
  induction events generalizing log d with
  | nil =>
    obtain rfl := Option.some.inj hd
    simpa [Desk.logOf] using h
  | cons e events ih =>
    obtain ⟨d₁, hd₁, hd⟩ := Option.bind_eq_some_iff.mp hd
    have hlog : d.logOf s (e :: events) = [⟨d, e⟩] ++ d₁.logOf s events := by
      rw [Desk.logOf, hd₁]
      rfl
    rw [hlog, ← List.append_assoc]
    exact ih (h.next hd₁) hd

end Shift

end Switchboard
