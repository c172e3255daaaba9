import Switchboard.Proofs.Halves

/-!
# The silence of a peer

A writer that waits has armed a deadline, set by when the peer was last heard. The reader goes on
hearing the peer meanwhile, and the deadline stays as it is until the writer wakes up. So the
deadline may be too early but never too late, and when it is over the writer looks again before it
gives up: silence is found neither early nor late (`silence_found`).

Time is let pass here as long as no writer that is *parked* misses a deadline of its own. A writer
is parked when it has found nothing to do and has not acted since; one that has something to do, or
has just been told of it, may be kept waiting for any time.
-/

namespace Switchboard

open Wire

/-! ## What a writer does about silence -/

namespace Writer

variable {s : Settings} {now seen silence : Instant} {o o' : Outlet} {missed : List Inlet}
  {w w' : Writer}

/-- What a step leaves to wait for, and when it gives up. -/
structure Minds (s : Settings) (now seen : Instant) (w : Writer) : Prop where
  waits : ∀ silence, w.task = .waiting silence → silence = seen + s.pong
  givesUp : ∀ deadline, w.task = .leaving .heartbeatTimeout deadline → s.pong ≤ now - seen

theorem Minds.of_ne (hwait : ∀ silence, w.task ≠ .waiting silence)
    (hleave : ∀ deadline, w.task ≠ .leaving .heartbeatTimeout deadline) : w.Minds s now seen :=
  ⟨fun silence ht => absurd ht (hwait silence), fun deadline ht => absurd ht (hleave deadline)⟩

theorem minds_await (s : Settings) (now seen : Instant) (w : Writer) :
    (w.await s seen).Minds s now seen := by
  unfold await
  by_cases h : s.hasSilence seen = true
  · rw [if_pos h]
    exact ⟨fun silence ht => (WriterTask.waiting.inj ht).symm, fun _ ht => (nomatch ht)⟩
  · rw [if_neg h]
    exact .of_ne (by simp) (by simp)

theorem minds_write (s : Settings) (now seen : Instant) (frame : Outgoing) (w : Writer) :
    (w.write s now frame).Minds s now seen := .of_ne (by simp [write]) (by simp [write])

theorem minds_close (s : Settings) (now seen : Instant) (why : Termination) (w : Writer) :
    (w.close s now why).Minds s now seen := .of_ne (by simp [close]) (by simp [close])

theorem minds_leave {why : Termination} (h : why ≠ .heartbeatTimeout) :
    (w.leave s now why).Minds s now seen := .of_ne (by simp [leave]) (by simp [leave, h])

theorem minds_checkSilence (s : Settings) (now seen : Instant) (w : Writer) :
    (w.checkSilence s now seen).Minds s now seen := by
  unfold checkSilence
  by_cases h : s.pong ≤ now - seen
  · rw [if_pos h]
    exact ⟨fun _ ht => (nomatch ht), fun _ _ => h⟩
  · rw [if_neg h]
    exact minds_await s now seen w

theorem minds_start (s : Settings) (now seen : Instant) (w : Writer) :
    (w.start s now seen).Minds s now seen := by
  unfold start
  by_cases h : s.hasHeartbeat now = true
  · rw [if_pos h]
    exact minds_await s now seen _
  · rw [if_neg h]
    exact .of_ne (by simp) (by simp)

theorem minds_of_step? (h : w.step? s now seen o missed = some (w', o')) : w'.Minds s now seen := by
  cases stroke_of_step? h with
  | start => exact minds_start s now seen w
  | reply | frame => exact minds_write s now seen _ w
  | beat => exact minds_write s now seen _ _
  | leave _ _ hwhy => exact minds_leave hwhy
  | check => exact minds_checkSilence s now seen w
  | write => exact minds_await s now seen w
  | fail | part | vanish => exact minds_close s now seen _ w
  | finish => exact .of_ne (by simp) (by simp)

/-- A writer that waits finds something to do once its deadline is over, whatever it misses. -/
theorem lt_of_step?_eq_none (ht : w.task = .waiting silence)
    (h : w.step? s now seen o missed = none) : now < silence := by
  by_contra hover
  have hover : silence ≤ now := Nat.not_lt.mp hover
  simp only [step?, ht, takeUp?] at h
  have htime := Option.map_eq_none_iff.mp (Option.or_eq_none_iff.mp h).2
  rw [takeTime?, if_pos hover] at htime
  cases htime

end Writer

/-! ## When a peer was last heard -/

/-- The instant of a moment at which the peer of a connection shows that it is there: a frame of its
is read, or the connection is opened. -/
def Moment.heardAt? (m : Moment) (k : ConnectionId) : Option Instant :=
  match m.move with
  | .undergo (.connect _ _) =>
    if m.world.connections.length = k then some m.world.site.now else none
  | _ => m.ofReader? k fun c =>
    (c.hears?.filter Reader.isSignOfLife).map fun _ => m.world.site.now

/-- When the peer of a connection was last heard. -/
def lastHeard? (k : ConnectionId) (past : List Moment) : Option Instant :=
  (past.filterMap (·.heardAt? k)).getLast?

theorem lastHeard?_snoc (k : ConnectionId) (past : List Moment) (m : Moment) :
    lastHeard? k (past ++ [m]) = (m.heardAt? k).or (lastHeard? k past) := by
  unfold lastHeard?
  rw [filterMap_snoc, List.getLast?_append]
  cases m.heardAt? k <;> rfl

theorem Moment.heardAt?_of_ne {m : Moment} {k : ConnectionId}
    (hconnect : ∀ settings socket, m.move ≠ .undergo (.connect settings socket))
    (hreader : m.move ≠ .act (.reader k)) : m.heardAt? k = none := by
  unfold heardAt?
  split
  · rename_i settings socket hm
    exact absurd hm (hconnect settings socket)
  · exact ofReader?_of_ne hreader

/-! ## Parked writers -/

/-- A connection's writer waits and finds nothing to do. -/
def World.Idles (w : World) (k : ConnectionId) : Prop :=
  ∃ c queue silence, w.connections[k]? = some c ∧
    w.site.hub.exchange.mail.get? c.queue = some queue ∧ c.writer.task = .waiting silence ∧
    c.writer.step? c.settings w.site.now c.seen (c.outlet queue) [] = none

/-- The world in which some moments began that led to `w`. -/
def origin (since : List Moment) (w : World) : World := (since.head?.map Moment.world).getD w

theorem origin_snoc (since : List Moment) (m : Moment) (w : World) :
    origin (since ++ [m]) w = origin since m.world := by
  cases since <;> rfl

/-- A connection's writer has not acted since it found nothing to do. -/
def Idled (k : ConnectionId) (past : List Moment) (w : World) : Prop :=
  ∃ before since, past = before ++ since ∧ (origin since w).Idles k ∧
    ∀ m ∈ since, ∀ missed, m.move ≠ .act (.writer k missed)

/-- A connection's writer waits for whatever comes next. -/
structure Parked (k : ConnectionId) (past : List Moment) (w : World) : Prop where
  waits : ∃ c silence, w.connections[k]? = some c ∧ c.writer.task = .waiting silence
  idled : Idled k past w

theorem Idled.of_snoc {k : ConnectionId} {past : List Moment} {m : Moment} {w : World}
    (h : Idled k (past ++ [m]) w) :
    w.Idles k ∨ ((∀ missed, m.move ≠ .act (.writer k missed)) ∧ Idled k past m.world) := by
  obtain ⟨before, since, hpast, horigin, hsince⟩ := h
  rcases List.eq_nil_or_concat since with rfl | ⟨since, last, rfl⟩
  · exact .inl horigin
  · rw [List.concat_eq_append] at hpast horigin hsince
    rw [← List.append_assoc] at hpast
    obtain ⟨hinit, hlast⟩ := List.append_inj' hpast rfl
    obtain rfl := List.singleton_inj.mp hlast
    rw [origin_snoc] at horigin
    refine .inr ⟨hsince m (by simp), before, since, hinit, horigin, fun m' hm' => ?_⟩
    exact hsince m' (List.mem_append_left _ hm')

/-- Time never goes back, and never passes a deadline of a writer that is parked. -/
def Punctual (past : List Moment) : Prop :=
  ∀ before m after t, past = before ++ m :: after → m.move = .undergo (.setNow t) →
    m.world.site.now ≤ t ∧ ∀ k c, Parked k before m.world → m.world.connections[k]? = some c →
      ∀ deadline ∈ c.writer.deadlines, t ≤ deadline

theorem Punctual.init {past : List Moment} {m : Moment} (h : Punctual (past ++ [m])) :
    Punctual past := by
  intro before m' after t hpast
  refine h before m' (after ++ [m]) t ?_
  rw [hpast, List.append_assoc]
  rfl

theorem Punctual.last {past : List Moment} {m : Moment} (h : Punctual (past ++ [m])) {t : Instant}
    (ht : m.move = .undergo (.setNow t)) :
    m.world.site.now ≤ t ∧ ∀ k c, Parked k past m.world → m.world.connections[k]? = some c →
      ∀ deadline ∈ c.writer.deadlines, t ≤ deadline :=
  h past m [] t rfl ht

/-! ## Deadlines -/

/-- The peer was last heard when the connection says so, and whatever the writer waits for is not
after the end of the silence that began then. -/
structure Heeded (past : List Moment) (now : Instant) (k : ConnectionId) (c : Connection) : Prop
    where
  heard : lastHeard? k past = some c.seen
  seen : c.seen ≤ now
  silence : ∀ silence, c.writer.task = .waiting silence → silence ≤ c.seen + c.settings.pong

section Courses

variable {callers : Request → Prop} {past : List Moment} {w : World} {service : Service}
  {start : Instant} {clock : Time.Timestamp} {k : ConnectionId} {c c' : Connection}

/-- Time only goes on. -/
theorem Punctual.now_le {m : Moment} {v : World} (h : Punctual (past ++ [m]))
    (hmove : m.world.move? m.move = some v) : m.world.site.now ≤ v.site.now := by
  by_cases ht : ∃ t, m.move = .undergo (.setNow t)
  · obtain ⟨t, ht⟩ := ht
    have hle := (h.last ht).1
    rw [ht] at hmove
    obtain rfl := Option.some.inj hmove
    exact hle
  · have hnow := now_of_move hmove fun t hm => ht ⟨t, hm⟩
    exact Nat.le_of_eq hnow.symm

/-- No one but its reader hears the peer of a connection that is there already. -/
theorem Moment.heardAt?_of_there {m : Moment} (hc : m.world.connections[k]? = some c)
    (hreader : m.move ≠ .act (.reader k)) : m.heardAt? k = none := by
  by_cases hconnect : ∃ settings socket, m.move = .undergo (.connect settings socket)
  · obtain ⟨settings, socket, hm⟩ := hconnect
    have hlt := (List.getElem?_eq_some_iff.mp hc).1
    unfold heardAt?
    rw [hm]
    dsimp only
    rw [if_neg (Nat.ne_of_gt hlt)]
  · exact heardAt?_of_ne (fun settings socket hm => hconnect ⟨settings, socket, hm⟩) hreader

/-- Where the reader does not act, the deadline stays as it should be if it stays. -/
theorem Heeded.keep {m : Moment} {now : Instant} (h : Heeded past m.world.site.now k c)
    (hc : m.world.connections[k]? = some c) (hnow : m.world.site.now ≤ now)
    (hreader : m.move ≠ .act (.reader k)) (hseen : c'.seen = c.seen)
    (hsilence : ∀ silence, c'.writer.task = .waiting silence →
      silence ≤ c.seen + c'.settings.pong) : Heeded (past ++ [m]) now k c' := by
  refine ⟨?_, hseen ▸ Nat.le_trans h.seen hnow, fun silence ht => hseen ▸ hsilence silence ht⟩
  rw [lastHeard?_snoc, Moment.heardAt?_of_there hc hreader, hseen]
  exact h.heard

/-- Whatever becomes of a connection, its deadline stays as it should be. -/
theorem Heeded.fares {m : Moment} {now : Instant} (h : Heeded past m.world.site.now k c)
    (hc : m.world.connections[k]? = some c) (hnow : m.world.site.now ≤ now)
    (hfares : c.Fares m k c') : Heeded (past ++ [m]) now k c' := by
  cases hfares with
  | write hm hwrote =>
    refine h.keep hc hnow (by rw [hm]; simp) hwrote.seen fun silence ht => ?_
    rw [hwrote.settings]
    exact Nat.le_of_eq ((Writer.minds_of_step? hwrote.step).waits silence ht)
  | read hm hserv hstrode hread =>
    have hheard : m.heardAt? k = (c.hears?.filter Reader.isSignOfLife).map fun _ =>
        m.world.site.now := by
      unfold Moment.heardAt?
      rw [hm]
      exact Moment.ofReader?_of_act hm hc
    have hseen := hread.seen
    -- what has been heard now is later than what had been heard
    have hlater : c.seen ≤ c'.seen := by
      rw [hseen]
      split_ifs
      · exact h.seen
      · exact Nat.le_refl _
    refine ⟨?_, ?_, fun silence ht => ?_⟩
    · rw [lastHeard?_snoc, hheard, hseen, h.heard]
      cases c.hears?.filter Reader.isSignOfLife <;> rfl
    · rw [hseen]
      split_ifs
      · exact hnow
      · exact Nat.le_trans h.seen hnow
    · rw [hread.writer] at ht
      rw [hread.settings]
      exact Nat.le_trans (h.silence silence ht) (Nat.add_le_add_right hlater _)
  | part hm hparted =>
    have hreader : m.move ≠ .act (.reader k) := by rw [hm]; simp
    cases hparted with
    | writerEnded | readerEnded | drained => exact h.keep hc hnow hreader rfl h.silence
    | expired _ _ _ _ htask hseen _ _ =>
      refine h.keep hc hnow hreader hseen fun silence ht => ?_
      rw [htask] at ht
      cases ht
  | cut hm hended =>
    refine h.keep hc hnow (by rw [hm]; simp) rfl fun silence ht => ?_
    rw [Writer.isRunning_of_waiting ht] at hended
    cases hended
  | reach f hm => exact h.keep hc hnow (by rw [hm]; simp) rfl h.silence
  | stay hactors => exact h.keep hc hnow (fun hm => (hactors _ hm).2.1 rfl) rfl h.silence

theorem Course.heeded (h : Course callers (.start service start clock) past w)
    (hpunctual : Punctual past) (hc : w.connections[k]? = some c) :
    Heeded past w.site.now k c := by
  induction h generalizing c with
  | start => cases hc
  | @move past u v m hcourse _ hmove ih =>
    have hnow : u.site.now ≤ v.site.now := hpunctual.now_le (m := ⟨u, m⟩) hmove
    rcases before_of_move hcourse.calm hmove hc with hnone | ⟨c₀, hc₀, hfares⟩
    · obtain ⟨⟨settings, socket, rfl⟩, hk, hfresh⟩ := fresh_of_move hmove hnone hc
      have hheard : Moment.heardAt? ⟨u, .undergo (.connect settings socket)⟩ k = some u.site.now :=
        if_pos hk.symm
      refine ⟨?_, hfresh.seen ▸ hnow, fun silence ht => ?_⟩
      · rw [lastHeard?_snoc, hheard, hfresh.seen]
        rfl
      · rcases hfresh.writer with hw | hw <;> cases hw.symm.trans ht
    · exact (ih hpunctual.init hc₀).fares (m := ⟨u, m⟩) hc₀ hnow hfares

/-- A writer that waits after something other than its own step has been waiting for the same. -/
theorem waiting_of_fares {m : Moment} (hm : ∀ missed, m.move ≠ .act (.writer k missed))
    (hfares : c.Fares m k c') {silence : Instant} (ht : c'.writer.task = .waiting silence) :
    c.writer.task = .waiting silence := by
  cases hfares with
  | write hwriter => exact absurd hwriter (hm _)
  | read _ _ _ hread => exact hread.writer ▸ ht
  | part _ hparted =>
    cases hparted with
    | writerEnded | readerEnded | drained => exact ht
    | expired _ _ _ _ htask =>
      rw [htask] at ht
      cases ht
  | cut _ hended =>
    rw [Writer.isRunning_of_waiting ht] at hended
    cases hended
  | reach | stay => exact ht

/-- While a writer is parked its deadline is not over. -/
theorem Course.now_le_of_parked (h : Course callers (.start service start clock) past w)
    (hpunctual : Punctual past) (hparked : Parked k past w) (hc : w.connections[k]? = some c)
    {silence : Instant} (ht : c.writer.task = .waiting silence) : w.site.now ≤ silence := by
  induction h generalizing c silence with
  | start => cases hc
  | @move past u v m hcourse _ hmove ih =>
    rcases hparked.idled.of_snoc with ⟨c₁, queue, silence₁, hc₁, -, ht₁, hstep⟩ | ⟨hm, hidled⟩
    · -- a writer whose deadline is over finds that to do
      obtain rfl := Option.some.inj (hc.symm.trans hc₁)
      obtain rfl := WriterTask.waiting.inj (ht.symm.trans ht₁)
      exact Nat.le_of_lt (Writer.lt_of_step?_eq_none ht hstep)
    · rcases before_of_move hcourse.calm hmove hc with hnone | ⟨c₀, hc₀, hfares⟩
      · obtain ⟨-, -, hfresh⟩ := fresh_of_move hmove hnone hc
        rcases hfresh.writer with hw | hw <;> cases hw.symm.trans ht
      · have ht₀ := waiting_of_fares (m := ⟨u, m⟩) hm hfares ht
        have hparked₀ : Parked k past u := ⟨⟨c₀, silence, hc₀, ht₀⟩, hidled⟩
        by_cases hnow : ∃ t, m = .undergo (.setNow t)
        · -- and while it is parked, time stops at the deadline
          obtain ⟨t, rfl⟩ := hnow
          obtain rfl := Option.some.inj hmove
          have hle := (hpunctual.last (m := ⟨u, .undergo (.setNow t)⟩) rfl).2 k c₀ hparked₀ hc₀
          refine hle silence ?_
          unfold Writer.deadlines
          rw [ht₀]
          exact List.mem_cons_self
        · rw [now_of_move hmove fun t hm => hnow ⟨t, hm⟩]
          exact ih hpunctual.init hparked₀ hc₀ ht₀

/--
**Silence is found neither early nor late.** In every course in which time passes no deadline of a
parked writer, under any settings and with any traffic, a writer that gives its peer up for silent
does so when the peer has not been heard for as long as it may stay silent; and as long as a writer
is parked, the peer has not been silent for longer than that.
-/
theorem silence_found (h : Course callers (.start service start clock) past w)
    (hpunctual : Punctual past) (hc : w.connections[k]? = some c) :
    ∃ heard, lastHeard? k past = some heard ∧
      (∀ missed v c' deadline, w.move? (.act (.writer k missed)) = some v →
        v.connections[k]? = some c' → c'.writer.task = .leaving .heartbeatTimeout deadline →
        heard + c.settings.pong ≤ w.site.now) ∧
      (Parked k past w → w.site.now ≤ heard + c.settings.pong) := by
  have hheeded := h.heeded hpunctual hc
  refine ⟨c.seen, hheeded.heard, ?_, ?_⟩
  · intro missed v c' deadline hmove hc' ht
    obtain ⟨c₁, hc₁, hfares⟩ := fares_of_move h.calm hmove hc
    obtain rfl := Option.some.inj (hc'.symm.trans hc₁)
    cases hfares with
    | write _ hwrote =>
      have hsilent := (Writer.minds_of_step? hwrote.step).givesUp deadline ht
      exact Nat.add_le_of_le_sub' hheeded.seen hsilent
    | read hm => cases hm
    | part hm => cases hm
    | cut hm => cases hm
    | reach _ hm => cases hm
    | stay hactors => exact absurd rfl ((hactors _ rfl).1 missed)
  · intro hparked
    obtain ⟨c₁, silence, hc₁, ht⟩ := hparked.waits
    obtain rfl := Option.some.inj (hc.symm.trans hc₁)
    exact Nat.le_trans (h.now_le_of_parked hpunctual hparked hc ht) (hheeded.silence silence ht)

end Courses

/-! ## A lull -/

/-- Time that passes does not pass the deadline of any writer, parked or not. -/
def Moment.isPrompt (m : Moment) : Bool :=
  match m.move with
  | .undergo (.setNow t) => decide (m.world.site.now ≤ t) &&
      m.world.connections.all fun c => c.writer.deadlines.all fun deadline => decide (t ≤ deadline)
  | _ => true

theorem Punctual.of_isPrompt {past : List Moment} (h : past.all Moment.isPrompt = true) :
    Punctual past := by
  intro before m after t hpast hm
  have hprompt := List.all_eq_true.mp h m (by simp [hpast])
  unfold Moment.isPrompt at hprompt
  rw [hm] at hprompt
  simp only [Bool.and_eq_true, decide_eq_true_eq, List.all_eq_true] at hprompt
  exact ⟨hprompt.1, fun k c _ hc => hprompt.2 c (List.mem_of_getElem? hc)⟩

namespace Lull

def service : Service := ⟨fun _ => .error (.auth .invalidToken "Nobody is known"), 0⟩

def start : World := .start service 0 ⟨⟨2024, 1, 1⟩, 0, 0, 0, 0⟩

/-- A peer that may be silent for 60 is heard at 40, after the deadline has been armed. -/
def before : List Move :=
  [.undergo (.connect { Settings.standard with heartbeat := 1000, pong := 60 } (.new .plain)),
    .act (.writer 0 []), .undergo (.setNow 40), .undergo (.arrive 0 [.ping []]), .act (.reader 0),
    .undergo (.setNow 60), .act (.writer 0 [])]

/-- Then nothing more is heard of it. -/
def moves : List Move := before ++ [.undergo (.setNow 100)]

theorem possible : (start.follow? moves).isSome = true := by decide +kernel

def evening : World := (start.follow? moves).get possible

theorem course : Course (fun _ => False) start (start.trail moves) evening :=
  course_of_follow? (by simp [moves, before]) (Option.some_get possible).symm

theorem punctual : Punctual (start.trail moves) := .of_isPrompt (by decide +kernel)

/-- What happened after the deadline was armed again. -/
def since : List Moment := (start.trail moves).drop before.length

def deadline? : WriterTask → Option Instant
  | .waiting silence => some silence
  | _ => none

theorem idle : (origin since evening).connections[0]?.bind (fun c =>
    ((origin since evening).site.hub.exchange.mail.get? c.queue).map fun queue =>
      (deadline? c.writer.task, (c.writer.step? c.settings (origin since evening).site.now c.seen
        (c.outlet queue) []).isNone)) = some (some 100, true) := by
  decide +kernel

theorem untouched : since.all (fun m => match m.move with
    | .act (.writer ..) => false
    | _ => true) = true := by
  decide +kernel

theorem waits :
    evening.connections[0]?.map (fun c => deadline? c.writer.task) = some (some 100) := by
  decide +kernel

theorem waiting_of_deadline? {t : WriterTask} {silence : Instant} (h : deadline? t = some silence) :
    t = .waiting silence := by
  cases t with
  | waiting => exact congrArg _ (Option.some.inj h)
  | _ => cases h

theorem parked : Parked 0 (start.trail moves) evening := by
  obtain ⟨c, hc, hwaits⟩ := Option.map_eq_some_iff.mp waits
  obtain ⟨c₀, hc₀, hidle⟩ := Option.bind_eq_some_iff.mp idle
  obtain ⟨queue, hqueue, hidle⟩ := Option.map_eq_some_iff.mp hidle
  obtain ⟨ht, hstep⟩ := Prod.mk.inj hidle
  refine ⟨⟨c, 100, hc, waiting_of_deadline? hwaits⟩, (start.trail moves).take before.length, since,
    (List.take_append_drop _ _).symm, ?_, ?_⟩
  · exact ⟨c₀, queue, 100, hc₀, hqueue, waiting_of_deadline? ht, Option.isNone_iff_eq_none.mp hstep⟩
  · intro m hm missed hwriter
    have huntouched := List.all_eq_true.mp untouched m hm
    rw [hwriter] at huntouched
    cases huntouched

/-- The writer's next step gives the peer up. -/
theorem lost : (evening.move? (.act (.writer 0 []))).bind (fun v =>
    v.connections[0]?.map fun c => match c.writer.task with
      | .leaving why _ => why
      | _ => .readError) = some .heartbeatTimeout := by
  decide +kernel

theorem settings : evening.connections[0]?.map (·.settings.pong) = some 60 := by decide +kernel

theorem heard : lastHeard? 0 (start.trail moves) = some 40 ∧ evening.site.now = 100 := by
  decide +kernel

end Lull

open Lull in
theorem silence_found_lull : ∃ c, evening.connections[0]? = some c ∧ c.settings.pong = 60 ∧
    lastHeard? 0 (start.trail moves) = some 40 ∧ evening.site.now = 100 ∧
    Parked 0 (start.trail moves) evening ∧ evening.site.now ≤ 40 + c.settings.pong ∧
    ∃ v c' deadline, evening.move? (.act (.writer 0 [])) = some v ∧ v.connections[0]? = some c' ∧
      c'.writer.task = .leaving .heartbeatTimeout deadline ∧
      40 + c.settings.pong ≤ evening.site.now := by
  obtain ⟨c, hc, hpong⟩ := Option.map_eq_some_iff.mp settings
  obtain ⟨instant, hinstant, hearly, hlate⟩ := silence_found course punctual hc
  obtain rfl := Option.some.inj (hinstant.symm.trans heard.1)
  obtain ⟨v, hv, hlost⟩ := Option.bind_eq_some_iff.mp lost
  obtain ⟨c', hc', hlost⟩ := Option.map_eq_some_iff.mp hlost
  have hleaves : ∃ deadline, c'.writer.task = .leaving .heartbeatTimeout deadline := by
    split at hlost
    · rename_i why deadline ht
      exact ⟨deadline, hlost ▸ ht⟩
    · cases hlost
  obtain ⟨deadline, ht⟩ := hleaves
  exact ⟨c, hc, hpong, heard.1, heard.2, parked, hlate parked, v, c', deadline, hv, hc', ht,
    hearly [] v c' deadline hv hc' ht⟩

end Switchboard
