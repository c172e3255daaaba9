import Switchboard.Proofs.Desk
import Switchboard.Proofs.Life

/-!
# Both halves of a connection

What a move does to a connection as a whole. `Connection.Becomes` follows the reading half; here the
writing half counts as well, and what stands between the two: the replies that wait, the socket and
the instant at which the peer was last heard. `fares_of_move` says that a connection changes only by
the steps of its writer, of its reader and of the connection itself, by a writer that is ended from
outside and by what its peer does; and what each of these leaves is said once, field by field.
-/

namespace Switchboard

open Wire

/-! ## One step of a writer -/

/--
`Stroke s now seen o missed w w' o'`: one step takes the writer `w` with `o` to read and write, of
which its look misses some inlets, to `w'` and leaves `o'`. A deed says only where such a step can
lead; here the time counts as well.
-/
inductive Writer.Stroke (s : Settings) (now seen : Instant) (o : Outlet) (missed : List Inlet)
    (w : Writer) : Writer → Outlet → Prop
  | start : w.task = .starting → Stroke s now seen o missed w (w.start s now seen) o
  | reply {silence : Instant} {reply : Envelope} {replies : List Envelope} :
      w.task = .waiting silence → o.replies = reply :: replies →
      Stroke s now seen o missed w (w.write s now (.envelope reply)) { o with replies }
  /-- The reader is gone, or the hub. -/
  | leave {silence : Instant} {why : Termination} :
      w.task = .waiting silence → (.replies ∉ missed → o.replies = []) →
      why ≠ .heartbeatTimeout → Stroke s now seen o missed w (w.leave s now why) o
  | frame {silence : Instant} {frame : Envelope} {queue : Queue} :
      w.task = .waiting silence → o.IsQuiet missed → o.queue.pop? = some (frame, queue) →
      Stroke s now seen o missed w (w.write s now (.envelope frame)) { o with queue }
  /-- The deadline is over, but the peer may have been heard since it was armed. -/
  | check {silence : Instant} :
      w.task = .waiting silence → o.IsQuiet missed →
      Stroke s now seen o missed w (w.checkSilence s now seen) o
  | beat {silence : Instant} :
      w.task = .waiting silence → o.IsQuiet missed → Stroke s now seen o missed w (w.beat s now) o
  | write {frame : Outgoing} {deadline : Instant} {socket : Socket} :
      w.task = .writing frame deadline → o.socket.offer frame = .taken socket →
      Stroke s now seen o missed w (w.await s seen) { o with socket }
  | fail {frame : Outgoing} {deadline : Instant} :
      w.task = .writing frame deadline → o.socket.takes frame = false →
      Stroke s now seen o missed w (w.close s now .writeFailed) o
  | part {why : Termination} {deadline : Instant} {socket : Socket} :
      w.task = .leaving why deadline → o.socket.offer (.close none) = .taken socket →
      Stroke s now seen o missed w (w.close s now why) { o with socket }
  | vanish {why : Termination} {deadline : Instant} :
      w.task = .leaving why deadline → o.socket.takes (.close none) = false →
      Stroke s now seen o missed w (w.close s now why) o
  | finish {why : Termination} {deadline : Instant} (socket : Socket) :
      w.task = .closing why deadline →
      Stroke s now seen o missed w { w with task := .finished why } { o with socket }

namespace Writer

variable {s : Settings} {now seen silence : Instant} {o o' : Outlet} {missed : List Inlet}
  {w w' : Writer}

theorem stroke_of_takeReply? (ht : w.task = .waiting silence)
    (h : w.takeReply? s now o = some (w', o')) : w.Stroke s now seen o missed w' o' := by
  unfold takeReply? at h
  split at h
  · rename_i reply replies hr
    obtain ⟨rfl, rfl⟩ := Prod.mk.inj (Option.some.inj h)
    exact .reply ht hr
  · rename_i hr
    split at h
    · cases h
    · obtain ⟨rfl, rfl⟩ := Prod.mk.inj (Option.some.inj h)
      exact .leave ht (fun _ => hr) (by simp)

theorem stroke_of_takeFrame? (ht : w.task = .waiting silence) (hquiet : o.IsQuiet missed)
    (h : w.takeFrame? s now o = some (w', o')) : w.Stroke s now seen o missed w' o' := by
  unfold takeFrame? at h
  split at h
  · rename_i frame queue hp
    obtain ⟨rfl, rfl⟩ := Prod.mk.inj (Option.some.inj h)
    exact .frame ht hquiet hp
  · split at h
    · obtain ⟨rfl, rfl⟩ := Prod.mk.inj (Option.some.inj h)
      exact .leave ht (fun hin => (hquiet hin).1) (by simp)
    · cases h

theorem stroke_of_takeTime? (ht : w.task = .waiting silence) (hquiet : o.IsQuiet missed)
    (h : w.takeTime? s now seen silence = some w') : w.Stroke s now seen o missed w' o := by
  unfold takeTime? at h
  split at h
  · obtain rfl := Option.some.inj h
    exact .check ht hquiet
  · split at h
    · obtain rfl := Option.some.inj h
      exact .beat ht hquiet
    · cases h

theorem stroke_of_takeUp? (ht : w.task = .waiting silence)
    (h : w.takeUp? s now seen silence o missed = some (w', o')) :
    w.Stroke s now seen o missed w' o' := by
  rcases takeUp?_eq_some.mp h with ⟨-, hreply⟩ | ⟨hquiet, -, hframe⟩ | ⟨hquiet, -, htime, rfl⟩
  · exact stroke_of_takeReply? ht hreply
  · exact stroke_of_takeFrame? ht hquiet hframe
  · exact stroke_of_takeTime? ht hquiet htime

/-- **A step of a writer is one of its strokes.** -/
theorem stroke_of_step? (h : w.step? s now seen o missed = some (w', o')) :
    w.Stroke s now seen o missed w' o' := by
  unfold step? at h
  split at h
  · rename_i ht
    obtain ⟨rfl, rfl⟩ := Prod.mk.inj (Option.some.inj h)
    exact .start ht
  · rename_i silence ht
    exact stroke_of_takeUp? ht h
  · rename_i frame deadline ht
    split at h
    · rename_i socket ho
      obtain ⟨rfl, rfl⟩ := Prod.mk.inj (Option.some.inj h)
      exact .write ht ho
    · rename_i ho
      obtain ⟨rfl, rfl⟩ := Prod.mk.inj (Option.some.inj h)
      exact .fail ht (by simp [Socket.takes, ho])
    · rename_i ho
      split at h
      · obtain ⟨rfl, rfl⟩ := Prod.mk.inj (Option.some.inj h)
        exact .fail ht (by simp [Socket.takes, ho])
      · cases h
  · rename_i why deadline ht
    split at h
    · rename_i socket ho
      obtain ⟨rfl, rfl⟩ := Prod.mk.inj (Option.some.inj h)
      exact .part ht ho
    · rename_i ho
      obtain ⟨rfl, rfl⟩ := Prod.mk.inj (Option.some.inj h)
      exact .vanish ht (by simp [Socket.takes, ho])
    · rename_i ho
      split at h
      · obtain ⟨rfl, rfl⟩ := Prod.mk.inj (Option.some.inj h)
        exact .vanish ht (by simp [Socket.takes, ho])
      · cases h
  · rename_i why deadline ht
    split at h
    · obtain ⟨rfl, rfl⟩ := Prod.mk.inj (Option.some.inj h)
      exact .finish _ ht
    · split at h
      · obtain ⟨rfl, rfl⟩ := Prod.mk.inj (Option.some.inj h)
        exact .finish o.socket ht
      · cases h
  · cases h
  · cases h
  · cases h

theorem isRunning_of_waiting (ht : w.task = .waiting silence) : w.isRunning = true := by
  unfold isRunning
  rw [ht]

end Writer

namespace Connection

/-! ## One step of each half -/

/-- What a step of the writer does. -/
structure Wrote (c : Connection) (now : Instant) (mail : Mail) (missed : List Inlet)
    (queue : Queue) (o : Outlet) (c' : Connection) : Prop where
  inbox : mail.get? c.queue = some queue
  step : c.writer.step? c.settings now c.seen (c.outlet queue) missed = some (c'.writer, o)
  socket : c'.socket = o.socket
  /-- A writer that has ended lets go of what waits. -/
  replies : c'.replies = if c'.writer.isRunning then o.replies else []
  seen : c'.seen = c.seen
  settings : c'.settings = c.settings
  phase : c'.phase = c.phase
  reader : c'.reader = c.reader

/-- What a step of the reader does besides its stride. -/
structure Read (c : Connection) (site : Site) (c' : Connection) : Prop where
  writer : c'.writer = c.writer
  phase : c'.phase = c.phase
  settings : c'.settings = c.settings
  /-- The peer is heard when a frame of its is read. -/
  seen : c'.seen = if (c.hears?.filter Reader.isSignOfLife).isSome then site.now else c.seen
  replies : c'.replies = c.replies ++
    if c.writer.isRunning then (c.reader.outgoing.head?.map site.hub.exchange.frame).toList else []

/-- What a step towards the end does: it notices that one half has ended, or that the writer has as
well, or that it has had its time. -/
inductive Parted (c : Connection) (now : Instant) : Connection → Prop
  | writerEnded {why : Termination} :
      c.phase = .serving → c.writerEnd? = some why → Parted c now { c with phase := .ended why }
  | readerEnded {why : Termination} :
      c.phase = .serving → c.readerEnd? = some why →
      Parted c now { c with phase := c.drain now why }
  | drained {why : Termination} {deadline : Instant} :
      c.phase = .draining why deadline → c.writer.isRunning = false →
      Parted c now { c with phase := .ended why }
  | expired {why : Termination} {deadline : Instant} {c' : Connection} :
      c.phase = .draining why deadline → c.writer.isRunning = true → deadline ≤ now →
      c'.phase = .ended why → c'.writer.task = .aborted → c'.seen = c.seen →
      c'.settings = c.settings → c'.reader = c.reader → Parted c now c'

theorem Parted.settings {c c' : Connection} {now : Instant} (h : c.Parted now c') :
    c'.settings = c.settings := by
  cases h with
  | writerEnded | readerEnded | drained => rfl
  | expired _ _ _ _ _ _ hsettings _ => exact hsettings

section Steps

variable {c c' : Connection} {now : Instant} {mail mail' : Mail} {k : ConnectionId}
  {site site' : Site}

theorem settleWriter_fst (c : Connection) (mail : Mail) :
    (c.settleWriter mail).1 =
      { c with replies := if c.writer.isRunning then c.replies else [] } := by
  unfold settleWriter
  by_cases h : c.writer.isRunning = true
  · rw [if_pos h, if_pos h]
  · rw [if_neg h, if_neg h]

theorem wrote_of_step {missed : List Inlet}
    (h : c.stepWriter? now mail missed = some (c', mail')) :
    ∃ queue o, c.Wrote now mail missed queue o c' := by
  unfold stepWriter? at h
  split at h
  · cases h
  · rename_i queue hqueue
    split at h
    · cases h
    · rename_i writer o hstep
      have hc : c' = _ := (congrArg Prod.fst (Option.some.inj h)).symm
      rw [settleWriter_fst] at hc
      subst hc
      exact ⟨queue, o, hqueue, hstep, rfl, rfl, rfl, rfl, rfl, rfl⟩

/-- The writer has no part in what the reader does, and only frames show that the peer is there. -/
theorem heard_of_doTask? (ho : c.reader.outgoing = []) (h : c.doTask? site = some (c', site')) :
    c'.writer = c.writer ∧
      c'.seen = if (c.hears?.filter Reader.isSignOfLife).isSome then site.now else c.seen := by
  unfold doTask? at h
  dsimp only at h
  split at h
  · rename_i ht
    split at h
    · cases h
    · rename_i frame socket hreceive
      obtain ⟨rfl, -⟩ := Prod.mk.inj (Option.some.inj h)
      have hhears : c.hears? = some frame := by
        rw [hears?_of_listening ⟨ho, ht⟩, hreceive]
        rfl
      rw [hhears]
      by_cases hlife : Reader.isSignOfLife frame = true <;> simp [hlife]
  all_goals
    rename_i ht
    have hhears : c.hears? = none := by simp [hears?, ho, ht]
    rw [hhears]
  · split at h
    · obtain ⟨rfl, -⟩ := Prod.mk.inj (Option.some.inj h)
      exact ⟨rfl, rfl⟩
    · cases h
  · obtain ⟨rfl, -⟩ := Prod.mk.inj (Option.some.inj h)
    exact ⟨rfl, rfl⟩
  · obtain ⟨rfl, -⟩ := Prod.mk.inj (Option.some.inj h)
    exact ⟨rfl, rfl⟩
  · split at h
    · cases h
    · obtain ⟨rfl, -⟩ := Prod.mk.inj (Option.some.inj h)
      exact ⟨rfl, rfl⟩
  · obtain ⟨rfl, -⟩ := Prod.mk.inj (Option.some.inj h)
    exact ⟨rfl, rfl⟩
  · cases h

theorem heard_of_stepReader? (h : c.stepReader? k site = some (c', site')) :
    c'.writer = c.writer ∧
      c'.seen = if (c.hears?.filter Reader.isSignOfLife).isSome then site.now else c.seen := by
  unfold stepReader? at h
  split at h
  · cases h
  split at h
  · -- while something is passed on, nothing is heard
    rename_i m rest ho
    split at h
    · cases h
    · obtain ⟨rfl, -⟩ := Prod.mk.inj (Option.some.inj h)
      have hhears : c.hears? = none := by simp [hears?, ho]
      have hpass : (c.pass site m).writer = c.writer ∧ (c.pass site m).seen = c.seen := by
        unfold pass
        split
        · exact ⟨rfl, rfl⟩
        · exact ⟨rfl, rfl⟩
      rw [hhears]
      exact hpass
  · rename_i ho
    split at h
    · cases h
    · rename_i c₁ site₁ hd
      have hc : c' = (c₁.submit k site₁).1 := (congrArg Prod.fst (Option.some.inj h)).symm
      have hheard : c₁.writer = c.writer ∧ c₁.seen = _ := heard_of_doTask? ho hd
      rw [hc]
      exact hheard

theorem read_of_step (hr : ∀ p, c.reader.task ≠ .asking p)
    (h : c.stepReader? k site = some (c', site')) : c.Read site c' := by
  obtain ⟨-, asked, hs⟩ := strode_of_step hr h
  obtain ⟨hwriter, hseen⟩ := heard_of_stepReader? h
  exact ⟨hwriter, hs.phase, hs.settings, hseen, hs.replies⟩

theorem parted_of_step {half : Half} (h : c.stepEnd? k half site = some (c', site')) :
    c.Parted site.now c' := by
  unfold stepEnd? at h
  split at h
  · rename_i hphase
    cases half with
    | writer =>
      obtain ⟨why, hwriter, heq⟩ := Option.map_eq_some_iff.mp h
      obtain ⟨rfl, -⟩ := Prod.mk.inj heq
      exact .writerEnded hphase hwriter
    | reader =>
      obtain ⟨why, hreader, heq⟩ := Option.map_eq_some_iff.mp h
      obtain ⟨rfl, -⟩ := Prod.mk.inj heq
      exact .readerEnded hphase hreader
  · rename_i why deadline hphase
    split at h
    · rename_i hended
      obtain ⟨rfl, -⟩ := Prod.mk.inj (Option.some.inj h)
      exact .drained hphase (by simpa using hended)
    · rename_i hrunning
      split at h
      · rename_i hexpired
        have hc : c' = { (c.abort site.hub.exchange.mail).1 with phase := .ended why } :=
          (congrArg Prod.fst (Option.some.inj h)).symm
        rw [abort, settleWriter_fst] at hc
        subst hc
        exact .expired hphase (by simpa using hrunning) hexpired rfl rfl rfl rfl rfl
      · cases h
  · cases h
  · cases h

end Steps

/-! ## A move -/

/-- What a move makes of a connection. -/
inductive Fares (m : Moment) (k : ConnectionId) (c : Connection) : Connection → Prop
  | write {missed : List Inlet} {queue : Queue} {o : Outlet} {c' : Connection} :
      m.move = .act (.writer k missed) →
      c.Wrote m.world.site.now m.world.site.hub.exchange.mail missed queue o c' → Fares m k c c'
  | read {asked : Option Purpose} {c' : Connection} {site : Site} :
      m.move = .act (.reader k) → c.isServing = true → Strode k c m.world.site asked c' site →
      c.Read m.world.site c' → Fares m k c c'
  | part {half : Half} {c' : Connection} :
      m.move = .act (.client k half) → c.Parted m.world.site.now c' → Fares m k c c'
  | cut {writer : Writer} :
      m.move = .endWriter k writer → writer.isRunning = false →
      Fares m k c { c with writer, replies := [] }
  | reach {s : Stimulus} (f : Socket → Socket) :
      m.move = .undergo s → Fares m k c { c with socket := f c.socket }
  | stay :
      (∀ a, m.move = .act a →
        (∀ missed, a ≠ .writer k missed) ∧ a ≠ .reader k ∧ ∀ half, a ≠ .client k half) →
      Fares m k c c

/-- A connection keeps the settings that it was opened with. -/
theorem Fares.settings {m : Moment} {k : ConnectionId} {c c' : Connection} (h : c.Fares m k c') :
    c'.settings = c.settings := by
  cases h with
  | write _ hwrote => exact hwrote.settings
  | read _ _ _ hread => exact hread.settings
  | part _ hparted => exact hparted.settings
  | cut | reach | stay => rfl

end Connection

section Moves

variable {w v : World} {k : ConnectionId} {c : Connection}

theorem World.getElem?_modify_connections {j : ConnectionId} {f : Connection → Connection}
    (hc : w.connections[k]? = some c) :
    (w.connections.modify j f)[k]? = some (if j = k then f c else c) := by
  by_cases hj : j = k
  · subst hj
    rw [if_pos rfl, List.getElem?_modify_eq, hc]
    rfl
  · rw [if_neg hj, List.getElem?_modify_ne _ _ hj, hc]

theorem World.getElem?_putBack {j : ConnectionId} {c₁ : Connection} {site : Site}
    (hc : w.connections[k]? = some c) :
    (w.putBack j (c₁, site)).connections[k]? = some (if j = k then c₁ else c) := by
  show (w.connections.set j c₁)[k]? = _
  by_cases hj : j = k
  · subst hj
    rw [if_pos rfl, List.getElem?_set_self (List.getElem?_eq_some_iff.mp hc).1]
  · rw [if_neg hj, List.getElem?_set_ne hj, hc]

theorem fares_act {a : Actor} (hw : w.Calm) (h : w.act? a = some v)
    (hc : w.connections[k]? = some c) :
    ∃ c', v.connections[k]? = some c' ∧ c.Fares ⟨w, .act a⟩ k c' := by
  cases a with
  | hub missed =>
    obtain ⟨g, -, rfl⟩ := Option.map_eq_some_iff.mp h
    exact ⟨c, hc, .stay (by simp)⟩
  | writer j missed =>
    obtain ⟨c₀, hc₀, h⟩ := Option.bind_eq_some_iff.mp h
    obtain ⟨⟨c₁, mail⟩, hstep, rfl⟩ := Option.map_eq_some_iff.mp h
    refine ⟨_, World.getElem?_modify_connections hc, ?_⟩
    by_cases hj : j = k
    · subst hj
      obtain rfl := Option.some.inj (hc₀.symm.trans hc)
      obtain ⟨queue, o, hwrote⟩ := Connection.wrote_of_step hstep
      rw [if_pos rfl]
      exact .write rfl hwrote
    · rw [if_neg hj]
      exact .stay (by simp [hj])
  | reader j =>
    obtain ⟨c₀, hc₀, h⟩ := Option.bind_eq_some_iff.mp h
    obtain ⟨⟨c₁, site⟩, hstep, rfl⟩ := Option.map_eq_some_iff.mp h
    refine ⟨_, World.getElem?_putBack hc, ?_⟩
    by_cases hj : j = k
    · subst hj
      obtain rfl := Option.some.inj (hc₀.symm.trans hc)
      have hasking := hw j _ (stand?_of_connection hc)
      obtain ⟨hserv, asked, hstrode⟩ := strode_of_step hasking hstep
      rw [if_pos rfl]
      exact .read rfl hserv hstrode (Connection.read_of_step hasking hstep)
    · rw [if_neg hj]
      exact .stay (by simp [hj])
  | client j half =>
    obtain ⟨c₀, hc₀, h⟩ := Option.bind_eq_some_iff.mp h
    obtain ⟨⟨c₁, site⟩, hstep, rfl⟩ := Option.map_eq_some_iff.mp h
    refine ⟨_, World.getElem?_putBack hc, ?_⟩
    by_cases hj : j = k
    · subst hj
      obtain rfl := Option.some.inj (hc₀.symm.trans hc)
      rw [if_pos rfl]
      exact .part rfl (Connection.parted_of_step hstep)
    · rw [if_neg hj]
      exact .stay (by simp [hj])

/-- **What becomes of a connection.** -/
theorem fares_of_move {m : Move} (hw : w.Calm) (h : w.move? m = some v)
    (hc : w.connections[k]? = some c) :
    ∃ c', v.connections[k]? = some c' ∧ c.Fares ⟨w, m⟩ k c' := by
  have hsame : (∀ a, m ≠ .act a) → v.connections = w.connections →
      ∃ c', v.connections[k]? = some c' ∧ c.Fares ⟨w, m⟩ k c' := by
    intro hm hv
    exact ⟨c, hv ▸ hc, .stay fun a ha => absurd ha (hm a)⟩
  have hsocket : ∀ (s : Stimulus) (j : ConnectionId) (f : Socket → Socket), m = .undergo s →
      v.connections = w.connections.modify j (fun c => { c with socket := f c.socket }) →
      ∃ c', v.connections[k]? = some c' ∧ c.Fares ⟨w, m⟩ k c' := by
    intro s j f hm hv
    rw [hv]
    refine ⟨_, World.getElem?_modify_connections hc, ?_⟩
    by_cases hj : j = k
    · rw [if_pos hj]
      exact .reach f hm
    · rw [if_neg hj]
      exact .stay (by simp [hm])
  cases m with
  | act a => exact fares_act hw h hc
  | undergo s =>
    have hv : v = w.undergo s := (Option.some.inj h).symm
    cases s with
    | connect settings socket =>
      subst hv
      have hlt := (List.getElem?_eq_some_iff.mp hc).1
      exact ⟨c, (List.getElem?_append_left hlt).trans hc, .stay (by simp)⟩
    | arrive j frames =>
      subst hv
      exact hsocket _ j (·.arrive frames) rfl rfl
    | take j n =>
      subst hv
      exact hsocket _ j (·.take n) rfl rfl
    | setWindow j window =>
      subst hv
      exact hsocket _ j (fun s => { s with window }) rfl rfl
    | addMember | removeMember | setReachable | issue | setNow =>
      subst hv
      exact hsame (by simp) rfl
  | setService service =>
    obtain rfl := Option.some.inj h
    exact hsame (by simp) rfl
  | setClock clock =>
    obtain rfl := Option.some.inj h
    exact hsame (by simp) rfl
  | endWriter j writer =>
    have h : w.endWriter? j writer = some v := h
    unfold World.endWriter? at h
    split at h
    · cases h
    · rename_i hended
      obtain ⟨c₀, hc₀, rfl⟩ := Option.map_eq_some_iff.mp h
      let f : Connection → Connection := fun _ =>
        ({ c₀ with writer }.settleWriter w.site.hub.exchange.mail).1
      refine ⟨_, World.getElem?_modify_connections (f := f) hc, ?_⟩
      by_cases hj : j = k
      · subst hj
        obtain rfl := Option.some.inj (hc₀.symm.trans hc)
        have hended : writer.isRunning = false := by simpa using hended
        have hf : f c₀ = { c₀ with writer, replies := [] } := by
          show ({ c₀ with writer }.settleWriter _).1 = _
          rw [Connection.settleWriter_fst]
          simp [hended]
        rw [if_pos rfl, hf]
        exact .cut rfl hended
      · rw [if_neg hj]
        exact .stay (by simp)

/-- A connection has just been opened, or it is what the move made of it. -/
theorem before_of_move {m : Move} {c' : Connection} (hw : w.Calm) (h : w.move? m = some v)
    (hc' : v.connections[k]? = some c') :
    w.connections[k]? = none ∨ ∃ c, w.connections[k]? = some c ∧ c.Fares ⟨w, m⟩ k c' := by
  cases hc : w.connections[k]? with
  | none => exact .inl rfl
  | some c =>
    obtain ⟨c₁, hc₁, hfares⟩ := fares_of_move hw h hc
    obtain rfl := Option.some.inj (hc'.symm.trans hc₁)
    exact .inr ⟨c, rfl, hfares⟩

/-! ## Time -/

theorem Connection.now_doTask? {c' : Connection} {site site' : Site}
    (h : c.doTask? site = some (c', site')) : site'.now = site.now := by
  unfold doTask? at h
  dsimp only at h
  split at h
  · split at h
    · cases h
    · exact congrArg (·.2.now) (Option.some.inj h).symm
  · split at h
    · exact congrArg (·.2.now) (Option.some.inj h).symm
    · cases h
  · exact congrArg (·.2.now) (Option.some.inj h).symm
  · exact congrArg (·.2.now) (Option.some.inj h).symm
  · split at h
    · cases h
    · exact congrArg (·.2.now) (Option.some.inj h).symm
  · exact congrArg (·.2.now) (Option.some.inj h).symm
  · cases h

theorem Connection.now_stepReader? {c' : Connection} {site site' : Site}
    (h : c.stepReader? k site = some (c', site')) : site'.now = site.now := by
  have hsubmit : ∀ (c₁ : Connection) (site₁ : Site), (c₁.submit k site₁).2.now = site₁.now :=
    fun _ _ => rfl
  unfold stepReader? at h
  split at h
  · cases h
  split at h
  · split at h
    · cases h
    · obtain ⟨-, rfl⟩ := Prod.mk.inj (Option.some.inj h)
      rfl
  · split at h
    · cases h
    · rename_i c₁ site₁ hd
      have hsite : site' = (c₁.submit k site₁).2 := (congrArg Prod.snd (Option.some.inj h)).symm
      rw [hsite, hsubmit]
      exact now_doTask? hd

theorem Connection.now_stepEnd? {half : Half} {c' : Connection} {site site' : Site}
    (h : c.stepEnd? k half site = some (c', site')) : site'.now = site.now := by
  unfold stepEnd? at h
  split at h
  · cases half with
    | writer | reader =>
      obtain ⟨why, -, heq⟩ := Option.map_eq_some_iff.mp h
      exact congrArg (·.2.now) heq.symm
  · split at h
    · exact congrArg (·.2.now) (Option.some.inj h).symm
    · split at h
      · exact congrArg (·.2.now) (Option.some.inj h).symm
      · cases h
  · cases h
  · cases h

/-- Time passes only where it is let. -/
theorem now_of_move {m : Move} (h : w.move? m = some v)
    (hm : ∀ t, m ≠ .undergo (.setNow t)) : v.site.now = w.site.now := by
  cases m with
  | act a =>
    cases a with
    | hub =>
      obtain ⟨g, -, rfl⟩ := Option.map_eq_some_iff.mp h
      rfl
    | writer j =>
      obtain ⟨c₀, -, h⟩ := Option.bind_eq_some_iff.mp h
      obtain ⟨_, -, rfl⟩ := Option.map_eq_some_iff.mp h
      rfl
    | reader j =>
      obtain ⟨c₀, -, h⟩ := Option.bind_eq_some_iff.mp h
      obtain ⟨⟨c₁, site⟩, hstep, rfl⟩ := Option.map_eq_some_iff.mp h
      exact Connection.now_stepReader? hstep
    | client j =>
      obtain ⟨c₀, -, h⟩ := Option.bind_eq_some_iff.mp h
      obtain ⟨⟨c₁, site⟩, hstep, rfl⟩ := Option.map_eq_some_iff.mp h
      exact Connection.now_stepEnd? hstep
  | undergo s =>
    obtain rfl := Option.some.inj h
    cases s with
    | setNow t => exact absurd rfl (hm t)
    | _ => rfl
  | setService service =>
    obtain rfl := Option.some.inj h
    rfl
  | setClock clock =>
    obtain rfl := Option.some.inj h
    rfl
  | endWriter j writer =>
    have h : w.endWriter? j writer = some v := h
    unfold World.endWriter? at h
    split at h
    · cases h
    · obtain ⟨c₀, -, rfl⟩ := Option.map_eq_some_iff.mp h
      rfl

/-! ## The opening -/

/-- Connections come only by being opened, and none goes. -/
theorem length_of_move {m : Move} (h : w.move? m = some v) :
    (∃ settings socket, m = .undergo (.connect settings socket)) ∨
      v.connections.length = w.connections.length := by
  cases m with
  | act a =>
    refine .inr ?_
    cases a with
    | hub =>
      obtain ⟨g, -, rfl⟩ := Option.map_eq_some_iff.mp h
      rfl
    | writer j =>
      obtain ⟨c₀, -, h⟩ := Option.bind_eq_some_iff.mp h
      obtain ⟨_, -, rfl⟩ := Option.map_eq_some_iff.mp h
      exact List.length_modify _ _ _
    | reader j =>
      obtain ⟨c₀, -, h⟩ := Option.bind_eq_some_iff.mp h
      obtain ⟨_, -, rfl⟩ := Option.map_eq_some_iff.mp h
      exact List.length_set
    | client j =>
      obtain ⟨c₀, -, h⟩ := Option.bind_eq_some_iff.mp h
      obtain ⟨_, -, rfl⟩ := Option.map_eq_some_iff.mp h
      exact List.length_set
  | undergo s =>
    obtain rfl := Option.some.inj h
    cases s with
    | connect settings socket => exact .inl ⟨settings, socket, rfl⟩
    | arrive | take | setWindow => exact .inr (List.length_modify _ _ _)
    | addMember | removeMember | setReachable | issue | setNow => exact .inr rfl
  | setService service =>
    obtain rfl := Option.some.inj h
    exact .inr rfl
  | setClock clock =>
    obtain rfl := Option.some.inj h
    exact .inr rfl
  | endWriter j writer =>
    have h : w.endWriter? j writer = some v := h
    unfold World.endWriter? at h
    split at h
    · cases h
    · obtain ⟨c₀, -, rfl⟩ := Option.map_eq_some_iff.mp h
      exact .inr (List.length_modify _ _ _)

/-- A connection that has just been opened: its peer counts as heard, its reader is at its start,
and its writer is about to begin unless it never will. -/
structure Connection.Fresh (now : Instant) (c : Connection) : Prop where
  seen : c.seen = now
  replies : c.replies = []
  reader : c.reader = .start
  writer : c.writer.task = .starting ∨ c.writer.task = .aborted

/-- A connection that was not there is the one that is being opened. -/
theorem opened_of_move {m : Move} {c' : Connection} (h : w.move? m = some v)
    (hc : w.connections[k]? = none) (hc' : v.connections[k]? = some c') :
    ∃ settings socket queue, m = .undergo (.connect settings socket) ∧
      k = w.connections.length ∧
      c' = if settings.hasQueue then .start settings socket queue w.site.now
        else .stillborn settings socket queue w.site.now := by
  have hle : w.connections.length ≤ k := List.getElem?_eq_none_iff.mp hc
  have hlt : k < v.connections.length := (List.getElem?_eq_some_iff.mp hc').1
  rcases length_of_move h with ⟨settings, socket, rfl⟩ | hlength
  · obtain rfl := Option.some.inj h
    obtain ⟨c, hv, hopened⟩ : ∃ c : Connection,
        (w.undergo (.connect settings socket)).connections = w.connections ++ [c] ∧
          c = if settings.hasQueue then .start settings socket _ w.site.now
            else .stillborn settings socket _ w.site.now := ⟨_, rfl, rfl⟩
    rw [hv] at hc' hlt
    have hk : k = w.connections.length := by
      rw [List.length_append, List.length_singleton] at hlt
      exact Nat.le_antisymm (Nat.le_of_lt_succ hlt) hle
    rw [hk, List.getElem?_concat_length] at hc'
    obtain rfl := Option.some.inj hc'
    exact ⟨settings, socket, _, rfl, hk, hopened⟩
  · rw [hlength] at hlt
    exact absurd hlt (Nat.not_lt.mpr hle)

/-- A connection that was not there has just been opened. -/
theorem fresh_of_move {m : Move} {c' : Connection} (h : w.move? m = some v)
    (hc : w.connections[k]? = none) (hc' : v.connections[k]? = some c') :
    (∃ settings socket, m = .undergo (.connect settings socket)) ∧ k = w.connections.length ∧
      c'.Fresh w.site.now := by
  obtain ⟨settings, socket, queue, hm, hk, rfl⟩ := opened_of_move h hc hc'
  refine ⟨⟨settings, socket, hm⟩, hk, ?_⟩
  cases settings.hasQueue with
  | true => exact ⟨rfl, rfl, rfl, .inl rfl⟩
  | false => exact ⟨rfl, rfl, rfl, .inr rfl⟩

end Moves

end Switchboard
