import Switchboard.Proofs.Output

/-!
# Winding up

How a connection is wound up whose reader has ended with a report to make. The report waits behind
all replies, and a writer takes up replies before anything else. So once the report is queued the
writer goes on in its main loop until the last reply has been written, whatever the hub and the peer
do meanwhile. It leaves for whichever reason it finds first, and its goodbye is the last frame
either way.

There is one exception. A writer whose look at the replies comes before the last of them, and at the
queue after the hub has let go of it, leaves with replies still waiting, and these are *forsaken*
(`Moment.Forsakes`). It then has no further look at them.

`Reporting` is what holds from the moment at which the report is queued. It is kept as long as
nothing holds up the writing (`Moment.Clear`): in particular the time that the writer is given
cannot pass, since a writer whose reader is gone always has something to do. And each of its steps
then leaves less of it (`Reporting.closer`).
-/

namespace Switchboard

open Wire

/-! ## A writer that nothing holds up -/

/-- A way out that takes whatever it is offered and closes at once. -/
structure Socket.IsClear (s : Socket) : Prop where
  whole : s.isBroken = false
  roomy : s.isFull = false
  closes : s.closeHangs = false

theorem Socket.IsClear.takes {s : Socket} (h : s.IsClear) (frame : Outgoing) :
    s.takes frame = true := by
  unfold Socket.takes Socket.offer
  rw [h.whole, h.roomy]
  rfl

/-- At a moment nothing holds up the writing on a connection: the way out is clear, time passes only
while the writer has nothing to do, and nobody ends the writer. -/
structure Moment.Clear (m : Moment) (k : ConnectionId) : Prop where
  socket : ∀ c, m.world.connections[k]? = some c → c.socket.IsClear
  time : ∀ t, m.move = .undergo (.setNow t) → m.world.act? (.writer k []) = none
  writer : ∀ writer, m.move ≠ .endWriter k writer

/-- A connection's writer leaves while replies wait. -/
def Moment.Forsakes (m : Moment) (k : ConnectionId) : Prop :=
  ∃ before w o, m.stroke? k = some (before, (w, o)) ∧
    (∃ why deadline, w.task = .leaving why deadline) ∧ o.replies ≠ []

/-- A look of a connection's writer misses the replies. -/
def Moment.missesReplies (m : Moment) (k : ConnectionId) : Bool :=
  match m.move with
  | .act (.writer j missed) => decide (j = k ∧ .replies ∈ missed)
  | _ => false

/-- How much a writer has still to do about the frame in hand and its end. -/
def WriterTask.weight : WriterTask → Nat
  | starting | writing .. => 4
  | waiting _ => 3
  | leaving .. => 2
  | closing .. => 1
  | finished _ | crashed | aborted => 0

namespace Writer

variable {s : Settings} {now seen : Instant} {o o' : Outlet} {missed : List Inlet} {w w' : Writer}

/-- A writer whose way out is clear has to wait only in its main loop, and only for its reader. -/
theorem isSome_step? (hrunning : w.isRunning = true) (hclear : o.socket.IsClear)
    (hnext : o.hasReader = false ∨ ∀ silence, w.task ≠ .waiting silence) :
    (w.step? s now seen o []).isSome = true := by
  have htaken : ∀ frame, ∃ socket, o.socket.offer frame = .taken socket := by
    intro frame
    unfold Socket.offer
    rw [hclear.whole, hclear.roomy]
    exact ⟨_, rfl⟩
  unfold step?
  split
  · rfl
  · rename_i silence ht
    rcases hnext with hreader | hwait
    · -- without a reader there is a reply to take up, or a reason to leave
      have hreply : (w.takeReply? s now o).isSome = true := by
        unfold takeReply?
        split
        · rfl
        · rw [hreader]
          rfl
      rw [takeUp?, if_neg List.not_mem_nil, Option.isSome_or, Option.isSome_or, hreply]
      rfl
    · exact absurd ht (hwait silence)
  · rename_i frame deadline ht
    obtain ⟨socket, ho⟩ := htaken frame
    rw [ho]
    rfl
  · obtain ⟨socket, ho⟩ := htaken (.close none)
    rw [ho]
    rfl
  · rw [hclear.closes]
    rfl
  all_goals
    rename_i ht
    unfold isRunning at hrunning
    rw [ht] at hrunning
    cases hrunning

theorem weight_await_le (s : Settings) (seen : Instant) (w : Writer) :
    (w.await s seen).task.weight ≤ 3 := by
  unfold await
  split
  · exact Nat.le_refl 3
  · exact Nat.zero_le 3

/-- Once the reader is gone, every step brings the writer closer to its end, unless its look misses
the replies. -/
theorem Stroke.closer (h : w.Stroke s now seen o missed w' o') (hreader : o.hasReader = false) :
    2 * o'.replies.length + w'.task.weight + 1 ≤
      2 * o.replies.length + w.task.weight + 2 * if .replies ∈ missed then 1 else 0 := by
  have hawait := weight_await_le s seen w
  -- if it misses nothing there, it finds a reply or that there will be none
  have hmissed : o.IsQuiet missed → .replies ∈ missed := by
    intro hquiet
    by_contra hin
    have hthere := (hquiet hin).2
    rw [hreader] at hthere
    cases hthere
  cases h with
  | start ht =>
    have hstart : (w.start s now seen).task.weight ≤ 3 := by
      unfold Writer.start
      split
      · exact weight_await_le s seen _
      · exact Nat.zero_le 3
    rw [ht]
    exact Nat.le_add_right_of_le (Nat.add_le_add_left (Nat.succ_le_succ hstart) _)
  | @reply silence reply replies ht hr =>
    rw [ht, hr]
    show 2 * replies.length + 4 + 1 ≤ 2 * (replies.length + 1) + 3 + _
    omega
  | leave ht =>
    rw [ht]
    exact Nat.le_add_right _ _
  | frame ht hquiet | beat ht hquiet =>
    rw [ht, if_pos (hmissed hquiet)]
    exact Nat.le_refl _
  | check ht hquiet =>
    have hcheck : (w.checkSilence s now seen).task.weight ≤ 3 := by
      unfold checkSilence
      split
      · exact Nat.le_succ 2
      · exact hawait
    rw [ht, if_pos (hmissed hquiet)]
    exact Nat.add_le_add_left (Nat.le_succ_of_le (Nat.succ_le_succ hcheck)) _
  | write ht =>
    rw [ht]
    exact Nat.le_add_right_of_le (Nat.add_le_add_left (Nat.succ_le_succ hawait) _)
  | fail ht =>
    rw [ht]
    exact Nat.le_add_right_of_le (Nat.add_le_add_left (show 1 + 1 ≤ 4 by omega) _)
  | part ht | vanish ht | finish _ ht =>
    rw [ht]
    exact Nat.le_add_right _ _

/-- In its main loop a writer goes on until it leaves. -/
theorem Stroke.of_isLooping (h : w.Stroke s now seen o missed w' o') (hclear : o.socket.IsClear)
    (hloop : w.task.isLooping = true) (hbeats : w.task = .starting → s.hasHeartbeat now = true)
    (hsilence : s.hasSilence seen = true) :
    (w'.task.isLooping = true ∧ w'.task ≠ .starting) ∨
      ∃ why deadline, w'.task = .leaving why deadline := by
  have hawait : ∀ w : Writer, (w.await s seen).task = .waiting (seen + s.pong) := by
    intro w
    unfold await
    rw [if_pos hsilence]
  cases h with
  | start ht =>
    have hstart : (w.start s now seen).task = .waiting (seen + s.pong) := by
      unfold Writer.start
      rw [if_pos (hbeats ht)]
      exact hawait _
    rw [hstart]
    exact .inl ⟨rfl, by simp⟩
  | reply | frame | beat => exact .inl ⟨rfl, by simp [Writer.write, Writer.beat]⟩
  | leave => exact .inr ⟨_, _, rfl⟩
  | check =>
    unfold checkSilence
    split
    · exact .inr ⟨_, _, rfl⟩
    · rw [hawait]
      exact .inl ⟨rfl, by simp⟩
  | write =>
    rw [hawait]
    exact .inl ⟨rfl, by simp⟩
  | fail _ htakes =>
    -- a way out that is clear takes the frame
    rw [hclear.takes] at htakes
    cases htakes
  | part ht | vanish ht | finish _ ht =>
    rw [ht] at hloop
    cases hloop

/-- A writer leaves replies behind only if its look has missed them. -/
theorem Stroke.missed_of_leaving (h : w.Stroke s now seen o missed w' o') {why : Termination}
    {deadline : Instant} (ht : w'.task = .leaving why deadline) (hr : o'.replies ≠ []) :
    .replies ∈ missed := by
  have hidle : ∀ w : Writer, w.task.isIdle = true → w.task ≠ .leaving why deadline := by
    intro w hw ht
    rw [ht] at hw
    cases hw
  by_contra hin
  cases h with
  | leave _ hreplies => exact hr (hreplies hin)
  | check _ hquiet => exact hr (hquiet hin).1
  | start => exact hidle _ (isIdle_start _ _ _ _) ht
  | write => exact hidle _ (isIdle_await _ _ _) ht
  | reply | frame | beat | fail | part | vanish | finish => cases ht

/-- A writer that says goodbye then closes its way out. -/
theorem Stroke.of_leaving (h : w.Stroke s now seen o missed w' o') {why : Termination}
    {deadline : Instant} (ht : w.task = .leaving why deadline) :
    w'.task = .closing why (now + s.write) := by
  cases h with
  | part ht' | vanish ht' =>
    obtain ⟨rfl, -⟩ := WriterTask.leaving.inj (ht.symm.trans ht')
    rfl
  | start ht' | reply ht' | leave ht' | frame ht' | check ht' | beat ht' | write ht' | fail ht'
    | finish _ ht' => cases ht.symm.trans ht'

/-- A writer that closes its way out then is done. -/
theorem Stroke.of_ending (h : w.Stroke s now seen o missed w' o') {why : Termination}
    (he : w.task.ending? = some why) : w'.task = .finished why := by
  cases h with
  | finish _ ht =>
    rw [ht] at he
    rw [← Option.some.inj he]
  | start ht | reply ht | leave ht | frame ht | check ht | beat ht | write ht | fail ht | part ht
    | vanish ht =>
    rw [ht] at he
    cases he

end Writer

/-! ## Replies that are forsaken -/

namespace Moment

variable {m : Moment} {k : ConnectionId}

theorem not_forsakes_of_ne (hm : ∀ missed, m.move ≠ .act (.writer k missed)) :
    ¬ m.Forsakes k := by
  rintro ⟨before, w, o, hstroke, -, -⟩
  rw [stroke?_of_ne hm] at hstroke
  cases hstroke

/-- Replies are forsaken only by a look that misses them. -/
theorem Forsakes.missesReplies (h : m.Forsakes k) : m.missesReplies k = true := by
  obtain ⟨before, w, o, hstroke, ⟨why, deadline, ht⟩, hreplies⟩ := h
  obtain ⟨missed, c, queue, hm, -, hstep⟩ := stroke?_eq_some hstroke
  have hin := (Writer.stroke_of_step? hstep).missed_of_leaving ht hreplies
  unfold Moment.missesReplies
  rw [hm]
  exact decide_eq_true ⟨rfl, hin⟩

end Moment

/-! ## From the report on -/

/-- A writer is in its main loop, or about to enter it, and can go on with it. -/
structure Connection.AtWork (now : Instant) (c : Connection) : Prop where
  looping : c.writer.task.isLooping = true
  beats : c.writer.task = .starting → c.settings.hasHeartbeat now = true
  silence : c.settings.hasSilence c.seen = true

/-- Everything that has been begun has been written, a goodbye last, and with it the first of what
the reader has said; all of that, if it is `whole`. -/
structure SignedOff (whole : Prop) (past : List Moment) (k : ConnectionId) : Prop where
  written : ∃ body, writtenBy k past = body ++ [.close none] ∧ IsOpen body
  begun : (begunBy k past).map Prod.snd = writtenBy k past
  replies : (takenUp .reader (begunBy k past)).map (·.message) <+: said k past
  complete : (takenUp .reader (begunBy k past)).map (·.message) = said k past ↔ whole

/-- How far a writer has got that has a report to write; the report is `whole` unless replies have
been forsaken. -/
inductive Connection.Winding (whole : Prop) (past : List Moment) (k : ConnectionId) (now : Instant)
    (c : Connection) : Prop
  | working : c.AtWork now → whole → Winding whole past k now c
  | leaving {why : Termination} {deadline : Instant} :
      c.writer.task = .leaving why deadline → (c.replies = [] ↔ whole) → Winding whole past k now c
  | left {why : Termination} :
      c.writer.task.ending? = some why → SignedOff whole past k → Winding whole past k now c

/-- How far a connection has got whose reader has ended because of an error. -/
inductive Connection.Parting (e : Error) (now : Instant) (c : Connection) : Prop
  | serving : c.phase = .serving → Parting e now c
  | draining {deadline : Instant} :
      c.phase = .draining (.protocolViolation e.code) deadline →
      (c.writer.isRunning = true → now < deadline) → Parting e now c
  | ended {why : Termination} :
      c.phase = .ended why → c.writer.isRunning = false →
      why = .protocolViolation e.code ∨ c.writer.task = .finished why → Parting e now c

/-- What holds of a connection from the moment at which the report of an error is queued. -/
structure Reporting (whole : Prop) (past : List Moment) (k : ConnectionId) (e : Error)
    (now : Instant) (c : Connection) : Prop where
  silent : c.reader.outgoing = []
  reader : c.reader.task = .finished (.protocolViolation e.code)
  write : 0 < c.settings.write
  grace : c.settings.hasGrace = true
  winding : c.Winding whole past k now
  parting : c.Parting e now

section Steps

variable {whole whole' : Prop} {past : List Moment} {m : Moment} {k : ConnectionId} {e : Error}
  {now : Instant} {c c' : Connection}

theorem Connection.phase_of_isServing (h : c.isServing = true) : c.phase = .serving := by
  unfold isServing at h
  split at h
  · assumption
  · cases h

theorem SignedOff.keep (h : SignedOff whole past k)
    (hbegun : begunBy k (past ++ [m]) = begunBy k past)
    (hwritten : writtenBy k (past ++ [m]) = writtenBy k past)
    (hreader : m.move ≠ .act (.reader k)) (hwhole : whole ↔ whole') :
    SignedOff whole' (past ++ [m]) k where
  written := hwritten ▸ h.written
  begun := by rw [hbegun, hwritten, h.begun]
  replies := by
    rw [hbegun, said_of_ne past hreader]
    exact h.replies
  complete := by rw [hbegun, said_of_ne past hreader, h.complete, hwhole]

/-- A writer that is about to leave writes its goodbye. -/
theorem Penned.signedOff {why : Termination} {deadline : Instant} (h : Penned past k c)
    (ht : c.writer.task = .leaving why deadline) (hr : c.replies = [] ↔ whole)
    (hreader : m.move ≠ .act (.reader k)) (hbegins : m.begins? k = none)
    (hwrites : m.writes? k = some (.close none)) : SignedOff whole (past ++ [m]) k := by
  have hpace := h.pace (by rw [ht]; rfl)
  have hreplies := h.replies (Writer.isRunning_of_isOpen (by rw [ht]; rfl))
  have hbegun := begunBy_of_begins? past hbegins
  have hwritten : writtenBy k (past ++ [m]) = writtenBy k past ++ [.close none] := by
    rw [writtenBy_snoc, hwrites]
    rfl
  refine ⟨⟨_, hwritten, hpace.isOpen⟩, ?_, ?_, ?_⟩
  · rw [hbegun, hwritten, hpace.begun, ht]
    rfl
  · rw [hbegun, said_of_ne past hreader, ← hreplies, List.map_append]
    exact List.prefix_append _ _
  · rw [hbegun, said_of_ne past hreader, ← hreplies, List.map_append, List.self_eq_append_right,
      List.map_eq_nil_iff]
    exact hr

/-- Whether a step of the writer forsakes replies can be seen from what it leaves. -/
theorem Connection.Wrote.forsakes_iff {missed : List Inlet} {queue : Queue} {o : Outlet}
    (h : c.Wrote m.world.site.now m.world.site.hub.exchange.mail missed queue o c')
    (hm : m.move = .act (.writer k missed)) (hc : m.world.connections[k]? = some c) :
    m.Forsakes k ↔ (∃ why deadline, c'.writer.task = .leaving why deadline) ∧ c'.replies ≠ [] := by
  have hstroke := h.stroke? hm hc
  have hreplies : ∀ {why deadline}, c'.writer.task = .leaving why deadline →
      c'.replies = o.replies := by
    intro why deadline ht
    rw [h.replies, if_pos (Writer.isRunning_of_isOpen (by rw [ht]; rfl))]
  constructor
  · rintro ⟨before, w, o', heq, ⟨why, deadline, ht⟩, hne⟩
    rw [hstroke] at heq
    obtain ⟨-, rfl, rfl⟩ := by simpa using heq
    exact ⟨⟨why, deadline, ht⟩, hreplies ht ▸ hne⟩
  · rintro ⟨⟨why, deadline, ht⟩, hne⟩
    exact ⟨_, _, _, hstroke, ⟨why, deadline, ht⟩, hreplies ht ▸ hne⟩

namespace Connection

/-- Where neither half acts, the writer has got as far as before. -/
theorem Winding.keep (h : c.Winding whole past k now)
    (hwriter : ∀ missed, m.move ≠ .act (.writer k missed)) (hreader : m.move ≠ .act (.reader k))
    (hw : c'.writer = c.writer) (hreplies : c'.replies = c.replies) (hseen : c'.seen = c.seen)
    (hsettings : c'.settings = c.settings) :
    c'.Winding (whole ∧ ¬ m.Forsakes k) (past ++ [m]) k now := by
  obtain ⟨hbegun, hwritten⟩ := unwritten_of_stroke? past (Moment.stroke?_of_ne hwriter)
  have hwhole : whole ↔ whole ∧ ¬ m.Forsakes k :=
    (and_iff_left (Moment.not_forsakes_of_ne hwriter)).symm
  cases h with
  | working hwork hall =>
    refine .working ⟨hw ▸ hwork.looping, fun ht => ?_, ?_⟩ (hwhole.mp hall)
    · rw [hsettings]
      exact hwork.beats (hw ▸ ht)
    · rw [hsettings, hseen]
      exact hwork.silence
  | leaving ht hr => exact .leaving (hw ▸ ht) (hreplies ▸ hr.trans hwhole)
  | left he hsigned => exact .left (hw ▸ he) (hsigned.keep hbegun hwritten hreader hwhole)

/-- One step of a writer that has a report to write. -/
theorem Winding.write (h : c.Winding whole past k m.world.site.now) (hpenned : Penned past k c)
    (hclear : c.socket.IsClear) {missed : List Inlet} (hm : m.move = .act (.writer k missed))
    (hc : m.world.connections[k]? = some c) {queue : Queue} {o : Outlet}
    (hwrote : c.Wrote m.world.site.now m.world.site.hub.exchange.mail missed queue o c') :
    c'.Winding (whole ∧ ¬ m.Forsakes k) (past ++ [m]) k m.world.site.now := by
  have hreader : m.move ≠ .act (.reader k) := by rw [hm]; simp
  have hstroke := Writer.stroke_of_step? hwrote.step
  have hforsakes := hwrote.forsakes_iff hm hc
  obtain ⟨hbegins, hwrites⟩ := hwrote.read_off hm hc
  cases h with
  | working hwork hall =>
    rcases hstroke.of_isLooping hclear hwork.looping hwork.beats hwork.silence with
      ⟨hloop, hstarted⟩ | ⟨why, deadline, ht⟩
    · refine .working ⟨hloop, fun ht => absurd ht hstarted, ?_⟩ ⟨hall, fun hf => ?_⟩
      · rw [hwrote.settings, hwrote.seen]
        exact hwork.silence
      · obtain ⟨⟨why, deadline, ht⟩, -⟩ := hforsakes.mp hf
        rw [ht] at hloop
        cases hloop
    · -- it leaves, and what waits at that moment is forsaken
      refine .leaving ht ?_
      rw [and_iff_right hall, hforsakes, and_iff_right ⟨why, deadline, ht⟩, not_not]
  | leaving ht hr =>
    -- the goodbye is taken, and nothing else is begun
    have ht' := hstroke.of_leaving ht
    have hwhole : whole ↔ whole ∧ ¬ m.Forsakes k := by
      rw [hforsakes, ht']
      simp
    refine .left (by rw [ht']; rfl) (hpenned.signedOff ht (hr.trans hwhole) hreader ?_ ?_)
    · rw [hbegins, ht']
      rfl
    · rw [hwrites, ht]
      exact if_pos (hclear.takes _)
  | left he hsigned =>
    -- the way out is closed, and nothing is written any more
    have ht' := hstroke.of_ending he
    have hwhole : whole ↔ whole ∧ ¬ m.Forsakes k := by
      rw [hforsakes, ht']
      simp
    have hheld : c.writer.task.held? = none := by
      cases ht : c.writer.task with
      | closing | finished => rfl
      | starting | waiting | writing | leaving | crashed | aborted =>
        rw [ht] at he
        cases he
    have hbegun := begunBy_of_begins? past (m := m) (k := k) (by rw [hbegins, ht']; rfl)
    have hwritten := writtenBy_of_writes? past (m := m) (k := k) (by rw [hwrites, hheld]; rfl)
    exact .left (by rw [ht']; rfl) (hsigned.keep hbegun hwritten hreader hwhole)

/-- A writer that has a report to write and has ended has finished. -/
theorem Winding.finished (h : c.Winding whole past k now) {why : Termination}
    (hend : c.writerEnd? = some why) : c.writer.task = .finished why := by
  unfold writerEnd? at hend
  split at hend
  · rename_i ht
    rw [ht, Option.some.inj hend]
  · rename_i ht
    cases h with
    | working hwork =>
      have hloop := hwork.looping
      rw [ht] at hloop
      cases hloop
    | leaving ht' => cases ht.symm.trans ht'
    | left he =>
      rw [ht] at he
      cases he
  · cases hend

theorem Parting.keep (h : c.Parting e now) (hphase : c'.phase = c.phase)
    (hw : c'.writer = c.writer) : c'.Parting e now := by
  cases h with
  | serving hserving => exact .serving (hphase.trans hserving)
  | draining hdraining htime =>
    exact .draining (hphase.trans hdraining) fun hrunning => htime (hw ▸ hrunning)
  | ended hended hdone hwhy => exact .ended (hphase.trans hended) (hw ▸ hdone) (hw ▸ hwhy)

theorem Winding.signedOff (h : c.Winding whole past k now) (hended : c.writer.isRunning = false) :
    SignedOff whole past k := by
  cases h with
  | working hwork =>
    rw [Writer.isRunning_of_isOpen (WriterTask.isOpen_of_isLooping hwork.looping)] at hended
    cases hended
  | leaving ht =>
    rw [Writer.isRunning_of_isOpen (by rw [ht]; rfl)] at hended
    cases hended
  | left _ hsigned => exact hsigned

end Connection

namespace Reporting

theorem congr (h : Reporting whole past k e now c) (hwhole : whole ↔ whole') :
    Reporting whole' past k e now c := propext hwhole ▸ h

/-- One step of a connection towards its end. -/
theorem part (h : Reporting whole past k e now c) (hparted : c.Parted now c') :
    c'.Parting e now ∧ ∃ phase, c' = { c with phase } := by
  cases hparted with
  | writerEnded _ hend =>
    have ht := h.winding.finished hend
    refine ⟨.ended rfl ?_ (.inr ht), _, rfl⟩
    show c.writer.isRunning = false
    unfold Writer.isRunning
    rw [ht]
  | @readerEnded why _ hend =>
    have hwhy : why = .protocolViolation e.code := by
      unfold Connection.readerEnd? at hend
      rw [h.silent, h.reader] at hend
      exact (Option.some.inj hend).symm
    have hdrain : c.drain now why =
        .draining (.protocolViolation e.code) (now + c.settings.grace) := by
      unfold Connection.drain
      rw [if_pos h.grace, hwhy]
    refine ⟨.draining hdrain fun _ => ?_, _, rfl⟩
    -- the writer has twice the time of a frame, which is some
    have hwrite := h.write
    exact Nat.lt_add_of_pos_right (Nat.mul_pos hwrite (Nat.succ_pos 1))
  | drained hphase hended =>
    refine ⟨.ended rfl hended (.inl ?_), _, rfl⟩
    cases h.parting with
    | serving hphase' => cases hphase.symm.trans hphase'
    | draining hphase' => exact (Phase.draining.inj (hphase.symm.trans hphase')).1
    | ended hphase' => cases hphase.symm.trans hphase'
  | expired hphase hrunning hover =>
    cases h.parting with
    | serving hphase' => cases hphase.symm.trans hphase'
    | draining hphase' htime =>
      -- a writer that still runs has not used up its time
      obtain ⟨-, rfl⟩ := Phase.draining.inj (hphase.symm.trans hphase')
      exact absurd hover (Nat.not_le.mpr (htime hrunning))
    | ended hphase' => cases hphase.symm.trans hphase'

/-- A reader that has reported an error does nothing more. -/
theorem not_read (h : Reporting whole past k e now c) (hfares : c.Fares m k c') :
    m.move ≠ .act (.reader k) := by
  intro hm
  cases hfares with
  | read _ _ hstrode =>
    rcases hstrode.stride.origin with ⟨reply, rest, ho, -⟩ | ⟨task, hat, htask⟩
    · rw [h.silent] at ho
      cases ho
    · exact htask _ (hat.2.symm.trans h.reader)
  | write hm' | part hm' | cut hm' | reach _ hm' => cases hm.symm.trans hm'
  | stay hactors => exact (hactors _ hm).2.1 rfl

/-- **What a move makes of a connection that reports an error.** -/
theorem fares (h : Reporting whole past k e m.world.site.now c) (hpenned : Penned past k c)
    (hc : m.world.connections[k]? = some c) (hclear : m.Clear k) (hfares : c.Fares m k c') :
    Reporting (whole ∧ ¬ m.Forsakes k) (past ++ [m]) k e m.world.site.now c' := by
  have hreader := h.not_read hfares
  cases hfares with
  | write hm hwrote =>
    refine ⟨hwrote.reader ▸ h.silent, hwrote.reader ▸ h.reader, hwrote.settings ▸ h.write,
      hwrote.settings ▸ h.grace, h.winding.write hpenned (hclear.socket c hc) hm hc hwrote, ?_⟩
    have hrunning := (Writer.stroke_of_step? hwrote.step).isRunning
    cases h.parting with
    | serving hserving => exact .serving (hwrote.phase.trans hserving)
    | draining hdraining htime =>
      exact .draining (hwrote.phase.trans hdraining) fun _ => htime hrunning
    | ended _ hdone =>
      rw [hrunning] at hdone
      cases hdone
  | read hm => exact absurd hm hreader
  | part hm hparted =>
    obtain ⟨hparting, phase, rfl⟩ := h.part hparted
    exact ⟨h.silent, h.reader, h.write, h.grace,
      h.winding.keep (fun _ => by rw [hm]; simp) hreader rfl rfl rfl rfl, hparting⟩
  | cut hm => exact absurd hm (hclear.writer _)
  | reach f hm =>
    exact ⟨h.silent, h.reader, h.write, h.grace,
      h.winding.keep (fun _ => by rw [hm]; simp) hreader rfl rfl rfl rfl,
      h.parting.keep rfl rfl⟩
  | stay hactors =>
    exact ⟨h.silent, h.reader, h.write, h.grace,
      h.winding.keep (fun missed hm => (hactors _ hm).1 missed rfl) hreader rfl rfl rfl rfl,
      h.parting⟩

/-- Time may pass while the writer has nothing to do. -/
theorem wait (h : Reporting whole past k e now c) (t : Instant)
    (hidle : c.writer.isRunning = true →
      c.isServing = true ∧ ∃ silence, c.writer.task = .waiting silence) :
    Reporting whole past k e t c := by
  refine ⟨h.silent, h.reader, h.write, h.grace, ?_, ?_⟩
  · cases h.winding with
    | working hwork hall =>
      refine .working ⟨hwork.looping, fun ht => ?_, hwork.silence⟩ hall
      obtain ⟨-, silence, ht'⟩ := hidle (Writer.isRunning_of_isOpen (by rw [ht]; rfl))
      cases ht.symm.trans ht'
    | leaving ht hr => exact .leaving ht hr
    | left he hsigned => exact .left he hsigned
  · cases h.parting with
    | serving hserving => exact .serving hserving
    | draining hdraining htime =>
      refine .draining hdraining fun hrunning => ?_
      cases hdraining.symm.trans (Connection.phase_of_isServing (hidle hrunning).1)
    | ended hended hdone hwhy => exact .ended hended hdone hwhy

end Reporting

end Steps

/-! ## How much is left to do -/

/-- A connection's own moves, but for those of its reader. -/
def Moment.isOwn (m : Moment) (k : ConnectionId) : Bool :=
  match m.move with
  | .act (.writer j _) | .act (.client j _) => decide (j = k)
  | _ => false

/-- How many moves a connection whose reader is gone has still to make, at the most. -/
def Connection.rest (c : Connection) : Nat :=
  2 * c.replies.length + c.writer.task.weight + if c.isOver then 0 else 1

section Steps

variable {whole : Prop} {past : List Moment} {m : Moment} {k : ConnectionId} {e : Error}
  {c c' : Connection}

theorem Moment.isOwn_of_ne (hwriter : ∀ missed, m.move ≠ .act (.writer k missed))
    (hclient : ∀ half, m.move ≠ .act (.client k half)) : m.isOwn k = false := by
  unfold isOwn
  split
  · rename_i j missed hm
    exact decide_eq_false fun hj => hwriter missed (hj ▸ hm)
  · rename_i j half hm
    exact decide_eq_false fun hj => hclient half (hj ▸ hm)
  · rfl

theorem Connection.rest_le (c : Connection) : c.rest ≤ 2 * c.replies.length + 5 := by
  have hweight : c.writer.task.weight ≤ 4 := by
    cases c.writer.task <;> simp [WriterTask.weight]
  unfold rest
  split <;> omega

/-- A connection that has stopped serving takes its last step when it takes one. -/
theorem Connection.Parted.isOver_eq {now : Instant} (h : c.Parted now c')
    (hserving : c.isServing = false) : c.isOver = false ∧ c'.isOver = true := by
  unfold isOver
  cases h with
  | writerEnded hphase | readerEnded hphase =>
    unfold isServing at hserving
    rw [hphase] at hserving
    cases hserving
  | drained hphase =>
    rw [hphase]
    exact ⟨rfl, rfl⟩
  | expired hphase _ _ hphase' =>
    rw [hphase, hphase']
    exact ⟨rfl, rfl⟩

theorem Connection.isServing_of_isOver (h : c.isOver = true) : c.isServing = false := by
  refine Bool.eq_false_iff.mpr fun hserving => ?_
  unfold isOver at h
  rw [phase_of_isServing hserving] at h
  cases h

/-- Once the reader is gone, every step of the writer leaves less to do, unless it misses the
replies. -/
theorem Connection.Wrote.closer {now : Instant} {mail : Mail} {missed : List Inlet} {queue : Queue}
    {o : Outlet} (h : c.Wrote now mail missed queue o c') (hserving : c.isServing = false) :
    c'.rest + 1 ≤ c.rest + 2 * if .replies ∈ missed then 1 else 0 := by
  have hcloser : 2 * o.replies.length + c'.writer.task.weight + 1 ≤
      2 * c.replies.length + c.writer.task.weight + 2 * if .replies ∈ missed then 1 else 0 :=
    (Writer.stroke_of_step? h.step).closer hserving
  have hreplies : c'.replies.length ≤ o.replies.length := by
    rw [h.replies]
    split
    · exact Nat.le_refl _
    · exact Nat.zero_le _
  have hover : c'.isOver = c.isOver := by
    unfold isOver
    rw [h.phase]
  unfold rest
  rw [hover]
  omega

/-- Once the reader is gone, every move of the connection's own leaves less to do, unless its writer
misses the replies. -/
theorem Reporting.closer (h : Reporting whole past k e m.world.site.now c) (hclear : m.Clear k)
    (hserving : c.isServing = false) (hfares : c.Fares m k c') :
    c'.isServing = false ∧ c'.rest + (if m.isOwn k then 1 else 0) ≤
      c.rest + 2 * if m.missesReplies k then 1 else 0 := by
  have hreader := h.not_read hfares
  cases hfares with
  | @write missed queue o _ hm hwrote =>
    have hserving' : c'.isServing = c.isServing := by
      unfold Connection.isServing
      rw [hwrote.phase]
    have hown : m.isOwn k = true := by simp [Moment.isOwn, hm]
    have hmisses : m.missesReplies k = decide (.replies ∈ missed) := by
      simp [Moment.missesReplies, hm]
    rw [hown, hmisses]
    simp only [decide_eq_true_eq, if_true]
    exact ⟨hserving'.trans hserving, hwrote.closer hserving⟩
  | read hm => exact absurd hm hreader
  | part hm hparted =>
    obtain ⟨hover, hover'⟩ := hparted.isOver_eq hserving
    obtain ⟨-, phase, rfl⟩ := h.part hparted
    have hown : m.isOwn k = true := by simp [Moment.isOwn, hm]
    refine ⟨Connection.isServing_of_isOver hover', ?_⟩
    unfold Connection.rest
    rw [hown, hover, hover']
    exact Nat.le_add_right _ _
  | cut hm => exact absurd hm (hclear.writer _)
  | reach f hm =>
    have hown : m.isOwn k = false :=
      Moment.isOwn_of_ne (fun _ => by rw [hm]; simp) (fun _ => by rw [hm]; simp)
    rw [hown]
    exact ⟨hserving, Nat.le_add_right _ _⟩
  | stay hactors =>
    have hown : m.isOwn k = false :=
      Moment.isOwn_of_ne (fun missed hm => (hactors _ hm).1 missed rfl)
        (fun half hm => (hactors _ hm).2.2 half rfl)
    rw [hown]
    exact ⟨hserving, Nat.le_add_right _ _⟩

end Steps

end Switchboard
