import Switchboard.Proofs.Halves

/-!
# Limits that can be borne

A connection uses its settings where not every number will do: a queue is made of the capacity, the
heartbeat and the silence of the peer are timed from instants that move on, and the writer's grace
is twice the time for a write. What is out of bounds ends the connection or its writer on the spot
(`Connection.IsBroken`).

Whether that can happen depends on nothing but the settings and the last instant that the clock
shows: if they fit then, they fit at every earlier instant, whenever the connection was opened and
its peer was last heard; and if they do not, one connection at that instant shows it.
-/

namespace Switchboard

/-- The connection has been ended by its settings, or its writer has. -/
def Connection.IsBroken (c : Connection) : Prop :=
  c.phase = .panicked ∨ c.writer.task = .crashed

/-- A moment no later than an instant, at which no writer is made to crash from outside. -/
structure Moment.Ordinary (last : Instant) (m : Moment) : Prop where
  now_le : m.world.site.now ≤ last
  uncrashed : ∀ k nextBeat, m.move ≠ .endWriter k ⟨.crashed, nextBeat⟩

namespace Settings

/-- The settings are within bounds at an instant. -/
structure Fits (s : Settings) (now : Instant) : Prop where
  queue : s.hasQueue = true
  heartbeat : s.hasHeartbeat now = true
  silence : s.hasSilence now = true
  grace : s.hasGrace = true

/-- No connection that an instance serves with the settings is broken until the instant is over,
whenever the instance begins and whatever happens. -/
def AreBorne (s : Settings) (service : Service) (clock : Time.Timestamp) (last : Instant) : Prop :=
  ∀ (callers : Request → Prop) (now : Instant) (past : List Moment) (w : World)
    (k : ConnectionId) (c : Connection),
    Course callers (.start service now clock) past w → (∀ m ∈ past, m.Ordinary last) →
    w.connections[k]? = some c → c.settings = s → ¬ c.IsBroken

variable {s : Settings} {now last : Instant}

theorem isShown_of_le {t t' : Instant} (h : isShown t' = true) (hle : t ≤ t') :
    isShown t = true :=
  decide_eq_true (Nat.lt_of_le_of_lt hle (of_decide_eq_true h))

/-- Settings that fit at an instant have fitted before. -/
theorem Fits.of_le (h : s.Fits last) (hle : now ≤ last) : s.Fits now where
  queue := h.queue
  heartbeat := by
    obtain ⟨hpos, hshown⟩ := Bool.and_eq_true_iff.mp h.heartbeat
    exact Bool.and_eq_true_iff.mpr ⟨hpos, isShown_of_le hshown (Nat.add_le_add_right hle _)⟩
  silence := isShown_of_le h.silence (Nat.add_le_add_right hle _)
  grace := h.grace

end Settings

/-! ## Settings that fit -/

/-- What is so of a connection with settings that fit at the last instant. -/
structure Connection.IsWhole (last : Instant) (c : Connection) : Prop where
  seen : c.seen ≤ last
  phase : c.phase ≠ .panicked
  writer : c.writer.task ≠ .crashed

section Steps

variable {s : Settings} {now seen last : Instant}

theorem Writer.await_ne_crashed (h : s.Fits seen) (w : Writer) :
    (w.await s seen).task ≠ .crashed := by
  unfold await
  rw [if_pos h.silence]
  exact WriterTask.noConfusion

/-- A writer crashes by no stroke if the settings fit. -/
theorem Writer.Stroke.ne_crashed {o o' : Outlet} {missed : List Inlet} {w w' : Writer}
    (h : Stroke s now seen o missed w w' o') (hnow : s.Fits now) (hseen : s.Fits seen) :
    w'.task ≠ .crashed := by
  cases h with
  | start =>
    unfold Writer.start
    rw [if_pos hnow.heartbeat]
    exact Writer.await_ne_crashed hseen _
  | check =>
    unfold Writer.checkSilence
    split
    · exact WriterTask.noConfusion
    · exact Writer.await_ne_crashed hseen _
  | write => exact Writer.await_ne_crashed hseen _
  | reply | leave | frame | beat | fail | part | vanish | finish => exact WriterTask.noConfusion

namespace Connection.IsWhole

variable {m : Moment} {k : ConnectionId} {c c' : Connection}

theorem not_isBroken (h : c.IsWhole last) : ¬ c.IsBroken := fun hb => hb.elim h.phase h.writer

theorem part (h : c.IsWhole last) (hf : c.settings.Fits last) (hp : c.Parted now c') :
    c'.IsWhole last := by
  cases hp with
  | writerEnded | drained => exact ⟨h.seen, Phase.noConfusion, h.writer⟩
  | readerEnded =>
    refine ⟨h.seen, ?_, h.writer⟩
    show c.drain now _ ≠ .panicked
    unfold Connection.drain
    rw [if_pos hf.grace]
    exact Phase.noConfusion
  | expired _ _ _ hphase htask hseen _ _ =>
    refine ⟨hseen ▸ h.seen, ?_, ?_⟩
    · rw [hphase]
      exact Phase.noConfusion
    · rw [htask]
      exact WriterTask.noConfusion

/-- No move breaks a connection whose settings fit. -/
theorem fares (h : c.IsWhole last) (hm : m.Ordinary last) (hf : c.settings.Fits last)
    (hc : c.Fares m k c') : c'.IsWhole last := by
  cases hc with
  | write hmove hwrote =>
    refine ⟨hwrote.seen ▸ h.seen, hwrote.phase ▸ h.phase, ?_⟩
    exact (Writer.stroke_of_step? hwrote.step).ne_crashed (hf.of_le hm.now_le) (hf.of_le h.seen)
  | read hmove hserv hstrode hread =>
    refine ⟨?_, hread.phase ▸ h.phase, hread.writer ▸ h.writer⟩
    -- the peer has been heard now, or when it had been before
    rw [hread.seen]
    split
    · exact hm.now_le
    · exact h.seen
  | part hmove hparted => exact h.part hf hparted
  | @cut writer hmove hended =>
    refine ⟨h.seen, h.phase, fun hcrashed => ?_⟩
    obtain ⟨task, nextBeat⟩ := writer
    obtain rfl : task = .crashed := hcrashed
    exact hm.uncrashed k nextBeat hmove
  | reach f hmove => exact ⟨h.seen, h.phase, h.writer⟩
  | stay hmove => exact h

end Connection.IsWhole

variable {callers : Request → Prop} {service : Service} {start : Instant} {clock : Time.Timestamp}
  {past : List Moment} {w : World} {k : ConnectionId} {c : Connection}

/-- **A connection whose settings fit at the last instant is whole.** -/
theorem Course.isWhole (h : Course callers (.start service start clock) past w)
    (hpast : ∀ m ∈ past, m.Ordinary last) (hc : w.connections[k]? = some c)
    (hf : c.settings.Fits last) : c.IsWhole last := by
  induction h generalizing c with
  | start => cases hc
  | @move past u v m hcourse _ hmove ih =>
    have hlast : Moment.Ordinary last ⟨u, m⟩ := hpast _ (by simp)
    have hpast : ∀ m ∈ past, m.Ordinary last := fun m hm => hpast m (List.mem_append_left _ hm)
    rcases before_of_move hcourse.calm hmove hc with hnone | ⟨c₀, hc₀, hfares⟩
    · obtain ⟨settings, socket, queue, -, -, rfl⟩ := opened_of_move hmove hnone hc
      cases hqueue : settings.hasQueue with
      | true => exact ⟨hlast.now_le, Phase.noConfusion, WriterTask.noConfusion⟩
      | false =>
        rw [hqueue] at hf
        exact absurd hf.queue (Bool.eq_false_iff.mp hqueue)
    · have hf₀ : c₀.settings.Fits last := hfares.settings ▸ hf
      exact (ih hpast hc₀ hf₀).fares hlast hf₀ hfares

theorem Settings.Fits.areBorne (h : s.Fits last) : s.AreBorne service clock last := by
  rintro callers now past w k c hcourse hpast hc rfl
  exact (hcourse.isWhole hpast hc h).not_isBroken

end Steps

/-! ## Settings that do not fit -/

/-- The world can come about at an instant at which the instance begins, with nobody about but
connections. -/
def World.Sudden (service : Service) (clock : Time.Timestamp) (now : Instant) (w : World) : Prop :=
  w.site.now = now ∧ ∃ past, Course (fun _ => False) (.start service now clock) past w ∧
    ∀ m ∈ past, m.Ordinary now

section Opened

variable {s : Settings} {service : Service} {clock : Time.Timestamp} {now : Instant} {w v : World}

namespace World.Sudden

theorem start : Sudden service clock now (.start service now clock) := ⟨rfl, [], .start, by simp⟩

theorem move {m : Move} (h : w.Sudden service clock now) (hm : w.move? m = some v)
    (hcall : ∀ r, m ≠ .undergo (.issue r)) (htime : ∀ t, m ≠ .undergo (.setNow t))
    (hwriter : ∀ k writer, m ≠ .endWriter k writer) : v.Sudden service clock now := by
  obtain ⟨hnow, past, hcourse, hpast⟩ := h
  refine ⟨(now_of_move hm htime).trans hnow, past ++ [⟨w, m⟩],
    hcourse.move (fun r hr => hcall r hr) hm, fun m' hm' => ?_⟩
  rcases List.mem_append.mp hm' with hm' | hm'
  · exact hpast m' hm'
  · obtain rfl := List.mem_singleton.mp hm'
    exact ⟨Nat.le_of_eq hnow, fun k nextBeat => hwriter k _⟩

theorem act {a : Actor} (h : w.Sudden service clock now) (ha : w.act? a = some v) :
    v.Sudden service clock now :=
  h.move (m := .act a) ha (by simp) (by simp) (by simp)

theorem not_areBorne {k : ConnectionId} {c : Connection} (h : w.Sudden service clock now)
    (hc : w.connections[k]? = some c) (hb : c.IsBroken) :
    ¬ c.settings.AreBorne service clock now := by
  obtain ⟨-, past, hcourse, hpast⟩ := h
  exact fun hborne => hborne _ now past w k c hcourse hpast hc rfl hb

end World.Sudden

namespace Settings

/-- An instance that has begun at an instant and opened its first connection. -/
def opened (s : Settings) (service : Service) (clock : Time.Timestamp) (now : Instant) : World :=
  (World.start service now clock).undergo (.connect s (.new .webSocket))

theorem sudden_opened : (s.opened service clock now).Sudden service clock now :=
  World.Sudden.start.move (m := .undergo (.connect s (.new .webSocket))) rfl (by simp) (by simp)
    (by simp)

/-- A connection without a queue is over when it opens. -/
theorem not_areBorne_of_queue (h : s.hasQueue = false) : ¬ s.AreBorne service clock now := by
  have hc : (s.opened service clock now).connections[0]? =
      some (if s.hasQueue then .start s (.new .webSocket) 0 now
        else .stillborn s (.new .webSocket) 0 now) := rfl
  rw [h] at hc
  exact sudden_opened.not_areBorne hc (.inl rfl)

theorem opened_of_queue (h : s.hasQueue = true) :
    s.opened service clock now =
      ⟨(s.opened service clock now).site, [.start s (.new .webSocket) 0 now]⟩ := by
  have hw : s.opened service clock now = ⟨(s.opened service clock now).site,
      [if s.hasQueue then .start s (.new .webSocket) 0 now
        else .stillborn s (.new .webSocket) 0 now]⟩ := rfl
  rw [h] at hw
  exact hw

/-- A writer that cannot time its first wait crashes as it begins. -/
theorem not_areBorne_of_writer (hqueue : s.hasQueue = true)
    (h : (Writer.new.start s now now).task = .crashed) : ¬ s.AreBorne service clock now := by
  obtain ⟨v, mail, hv, hc⟩ : ∃ v mail, (s.opened service clock now).act? (.writer 0 []) = some v ∧
      v.connections[0]? = some (({ Connection.start s (.new .webSocket) 0 now with
        writer := Writer.new.start s now now }).settleWriter mail).1 := by
    rw [opened_of_queue hqueue]
    exact ⟨_, _, rfl, rfl⟩
  rw [Connection.settleWriter_fst] at hc
  exact (sudden_opened.act hv).not_areBorne hc (.inr h)

/-- When the peer has said that it is done, the writer's time to finish is what ends the
connection. -/
theorem not_areBorne_of_grace (hqueue : s.hasQueue = true) (h : s.hasGrace = false) :
    ¬ s.AreBorne service clock now := by
  obtain ⟨u, hu, v, hv, x, hx, phase, hphase, hc⟩ : ∃ u,
      (s.opened service clock now).move? (.undergo (.arrive 0 [.endOfStream])) = some u ∧
      ∃ v, u.act? (.reader 0) = some v ∧ ∃ x, v.act? (.client 0 .reader) = some x ∧
      ∃ phase, phase = (if s.hasGrace then
        Phase.draining .clientClosed (now + s.grace) else .panicked) ∧
      x.connections[0]? = some ({ Connection.start s (.new .webSocket) 0 now with
        reader := { Reader.start with task := .finished .clientClosed }, phase }) := by
    rw [opened_of_queue hqueue]
    exact ⟨_, rfl, _, rfl, _, rfl, _, rfl, rfl⟩
  rw [if_neg (Bool.eq_false_iff.mp h)] at hphase
  exact (((sudden_opened.move hu (by simp) (by simp) (by simp)).act hv).act hx).not_areBorne hc
    (.inl hphase)

/-- **The settings are borne exactly if they fit at the last instant.** -/
theorem areBorne_iff : s.AreBorne service clock now ↔ s.Fits now := by
  refine ⟨fun hborne => ?_, Fits.areBorne⟩
  have hqueue : s.hasQueue = true := by
    by_contra h
    exact not_areBorne_of_queue (by simpa using h) hborne
  refine ⟨hqueue, ?_, ?_, ?_⟩
  · by_contra h
    exact not_areBorne_of_writer hqueue (by simp [Writer.start, h]) hborne
  · by_contra h
    refine not_areBorne_of_writer hqueue ?_ hborne
    unfold Writer.start
    split
    · simp [Writer.await, h]
    · rfl
  · by_contra h
    exact not_areBorne_of_grace hqueue (by simpa using h) hborne

end Settings

end Opened

end Switchboard
