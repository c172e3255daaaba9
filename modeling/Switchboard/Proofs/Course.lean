import Mathlib.Logic.Function.Basic
import Switchboard.Proofs.Lanes
import Switchboard.Proofs.Reading

/-!
# Courses

A *course* is a history of the whole instance: connections, hub and directory take their steps one
at a time in any order, and anything may come from outside in between. Every move is kept with the
world that met it.

A move of a connection is a long computation, but little of it matters to anyone else. `Effect` says
what does: what the hub was asked, and how a reader has moved on (`Turn`). Everything that is proved
of courses is proved of effects.
-/

namespace Switchboard

open Wire Exchange

/-- What can happen next. -/
inductive Move where
  | act (a : Actor)
  | undergo (s : Stimulus)
  /-- Tokens are judged in another way from now on. -/
  | setService (service : Service)
  | setClock (clock : Time.Timestamp)
  /-- A writer ends, whatever it was about. -/
  | endWriter (k : ConnectionId) (writer : Writer)

namespace World

/-- A connection's writer ends as given. -/
def endWriter? (w : World) (k : ConnectionId) (writer : Writer) : Option World :=
  if writer.isRunning then none
  else
    (w.connections[k]?).map fun c =>
      let (c, mail) := { c with writer }.settleWriter w.site.hub.exchange.mail
      (w.withMail mail).updateConnection k fun _ => c

/-- The world after a move, if it can be made. -/
def move? (w : World) : Move → Option World
  | .act a => w.act? a
  | .undergo s => some (w.undergo s)
  | .setService service => some { w with site := { w.site with service } }
  | .setClock clock => some (w.updateHub (·.update fun x => { x with clock }))
  | .endWriter k writer => w.endWriter? k writer

end World

/-- A move and the world that met it. -/
structure Moment where
  world : World
  move : Move

/--
`Course callers w past v`: the moves of `past` lead from `w` to `v`. Those who ask the hub without
being connections ask nothing but what `callers` lets them.
-/
inductive Course (callers : Request → Prop) (w : World) : List Moment → World → Prop
  | start : Course callers w [] w
  | move {past : List Moment} {u v : World} {m : Move} :
      Course callers w past u → (∀ r, m = .undergo (.issue r) → callers r) → u.move? m = some v →
      Course callers w (past ++ [⟨u, m⟩]) v

/-! ## What is asked of the hub -/

namespace Connection

/-- What is asked of the hub when the connection stops serving. -/
def farewell? (k : ConnectionId) (c : Connection) : Option Request :=
  if c.isServing then c.reader.registered.map fun user => .unregister user k else none

end Connection

namespace Moment

/-- The hub at that moment. -/
def hub (m : Moment) : Hub := m.world.site.hub

/-- What the hub is asked. -/
def request? (m : Moment) : Option Request :=
  match m.move with
  | .act (.reader k) => (m.world.connections[k]?).bind fun c => c.asks? k m.world.site
  | .act (.client k _) => (m.world.connections[k]?).bind fun c => c.farewell? k
  | .undergo (.issue r) => some r
  | _ => none

/-- What the hub handles. -/
def handles? (m : Moment) : Option (Ticket × Request) :=
  match m.move with
  | .act (.hub missed) => m.hub.next? missed
  | _ => none

/-- A connection's reader is at its task. -/
def Works (m : Moment) (k : ConnectionId) (c : Connection) : Prop :=
  m.move = .act (.reader k) ∧ m.world.connections[k]? = some c ∧ c.isServing = true ∧
    c.reader.outgoing = []

/-- A token that came in on a connection is found to be an identity's. -/
def Validates (m : Moment) (k : ConnectionId) (i : Identity) : Prop :=
  ∃ c token ready, m.Works k c ∧ c.reader.task = .validating token ready ∧
    m.world.site.service.validate token = .ok i

/-- A frame is read on a connection that asks to listen on channels. -/
def Names (m : Moment) (k : ConnectionId) (channels : List String) : Prop :=
  ∃ c text socket, m.Works k c ∧ c.reader.task = .listening ∧
    c.socket.receive? = some (.text text, socket) ∧
    ControlFrame.decode text = .ok (.subscribe channels)

/-- An identity is allowed to listen on a topic that its connection asked for. -/
def Allows (m : Moment) (k : ConnectionId) (i : Identity) (t : Topic) : Prop :=
  ∃ c rest allowed, m.Works k c ∧ c.reader.task = .deciding i (t.name :: rest) allowed ∧
    (m.world.site.directory.authorize i t.name).1 = .allow t

end Moment

/-- Everything the hub has been asked; a request's place in it is its ticket. -/
def ledger (past : List Moment) : List Request := past.filterMap Moment.request?

/-- Everything the hub has handled. -/
def handledIn (past : List Moment) : List (Ticket × Request) := past.filterMap Moment.handles?

/-! ## Where connections stand -/

/-- What matters of a connection to the hub. -/
structure Stand where
  reader : Reader
  isServing : Bool
  queue : QueueId

/-- Where a connection stands. -/
def Connection.stand (c : Connection) : Stand := ⟨c.reader, c.isServing, c.queue⟩

/-- Where the connection of a number stands. -/
def World.stand? (w : World) (k : ConnectionId) : Option Stand :=
  (w.connections[k]?).map Connection.stand

/-- A reader that has to do with the hub or is about to. -/
def ReaderTask.isEngaged : ReaderTask → Bool
  | deciding .. | asking _ | awaiting .. => true
  | listening | validating .. | finished _ => false

/-- A reader has gone on without getting engaged. -/
structure Reader.Rests (r r' : Reader) : Prop where
  holdsQueue : r'.holdsQueue = r.holdsQueue
  registered : r'.registered = r.registered
  task : r'.task = r.task ∨ r'.task.isEngaged = false
  session : ∀ i topics, r'.session = .authenticated i topics →
    ∃ topics', r.session = .authenticated i topics'

/--
`Turn m k q r asked r'`: at the moment `m` the reader of connection `k`, which has the queue `q`,
goes from `r` to `r'` and asks the hub what is `asked`.
-/
inductive Turn (m : Moment) (k : ConnectionId) (q : QueueId) (r : Reader) :
    Option Request → Reader → Prop
  | rest {r' : Reader} : r.Rests r' → Turn m k q r none r'
  | name {i : Identity} {topics : List Topic} {channels : List String} :
      r.session = .authenticated i topics → m.Names k channels →
      Turn m k q r none (r.goOn (.deciding i channels []))
  | allow {i : Identity} {t : Topic} {rest : List String} {allowed : List Topic} :
      r.task = .deciding i (t.name :: rest) allowed → m.Allows k i t →
      Turn m k q r none (r.goOn (.deciding i rest (allowed ++ [t])))
  | deny {i : Identity} {channel : String} {rest : List String} {allowed : List Topic}
      (reply : Message) :
      r.task = .deciding i (channel :: rest) allowed →
      Turn m k q r none (r.say reply (.deciding i rest allowed))
  | subscribe {i : Identity} {allowed : List Topic} :
      r.task = .deciding i [] allowed →
      Turn m k q r (some (.subscribe i.userId k allowed))
        (r.goOn (.awaiting (.subscription i allowed) m.hub.nextTicket))
  | unsubscribe {i : Identity} {topics : List Topic} (gone : List Topic) :
      r.session = .authenticated i topics →
      Turn m k q r (some (.unsubscribe i.userId k gone))
        (r.goOn (.awaiting (.unsubscription i gone) m.hub.nextTicket))
  | register {i : Identity} :
      r.holdsQueue = true → m.Validates k i →
      Turn m k q r (some (.register ⟨k, i, q⟩))
        ((r.handOver (.registration i)).goOn (.awaiting (.registration i) m.hub.nextTicket))
  | welcome {i : Identity} {t : Ticket} {a : Answer} (reply : Message) :
      r.task = .awaiting (.registration i) t → m.hub.answer? t = some a → a ≠ .unavailable →
      Turn m k q r none ({ r with session := .authenticated i [] }.say reply .listening)

/-- What a move that is not the hub's does to where connections stand. -/
inductive Change (m : Moment) (v : World) : Prop
  | turn {k : ConnectionId} {s : Stand} {r : Reader} :
      m.move = .act (.reader k) → m.world.stand? k = some s → s.isServing = true →
      Turn m k s.queue s.reader m.request? r →
      v.stand? = Function.update m.world.stand? k (some { s with reader := r }) → Change m v
  /-- A connection stops serving. -/
  | part {k : ConnectionId} {half : Connection.Half} {s : Stand} :
      m.move = .act (.client k half) → m.world.stand? k = some s → s.isServing = true →
      m.request? = s.reader.registered.map (fun user => .unregister user k) →
      v.stand? = Function.update m.world.stand? k (some { s with isServing := false }) →
      Change m v
  | connect {k : ConnectionId} (isServing : Bool) :
      m.request? = none → m.world.stand? k = none →
      v.stand? = Function.update m.world.stand? k
        (some ⟨.start, isServing, m.hub.exchange.queueCount⟩) →
      m.hub.exchange.queueCount < v.site.hub.exchange.queueCount → Change m v
  | stay : (∀ r, m.request? = some r → m.move = .undergo (.issue r)) →
      v.stand? = m.world.stand? → Change m v

/-- What a move does. -/
inductive Effect (m : Moment) (v : World) : Prop
  | handle {missed : List Lane} {t : Ticket} {r : Request} :
      m.move = .act (.hub missed) → m.hub.next? missed = some (t, r) →
      m.hub.Handled t r v.site.hub → v.stand? = m.world.stand? → Effect m v
  | stop {missed : List Lane} {t : Ticket} :
      m.move = .act (.hub missed) → m.hub.next? missed = some (t, .shutdown) →
      ({ m.hub with
          exchange := { m.hub.exchange with registry := [] }, running := false, pending := [] }
        : Hub).Keeps v.site.hub →
      v.stand? = m.world.stand? → Effect m v
  | other :
      m.handles? = none → (m.hub.enter m.request?).Keeps v.site.hub → Change m v → Effect m v

/-! ## A reader's turn -/

namespace Reader

variable {r r' : Reader}

theorem Rests.refl (r : Reader) : r.Rests r := ⟨rfl, rfl, Or.inl rfl, fun _ _ h => ⟨_, h⟩⟩

theorem rests_goOn (r : Reader) {task : ReaderTask} (h : task.isEngaged = false) :
    r.Rests (r.goOn task) := ⟨rfl, rfl, Or.inr h, fun _ _ hs => ⟨_, hs⟩⟩

theorem rests_say (r : Reader) (m : Message) {task : ReaderTask} (h : task.isEngaged = false) :
    r.Rests (r.say m task) := ⟨rfl, rfl, Or.inr h, fun _ _ hs => ⟨_, hs⟩⟩

end Reader

section Strides

variable {m : Moment} {k : ConnectionId} {c : Connection}

theorem session_updateTopics {f : List Topic → List Topic} {session : Session} {i : Identity}
    {topics : List Topic} (h : session.updateTopics f = .authenticated i topics) :
    ∃ topics', session = .authenticated i topics' := by
  cases session with
  | unauthenticated n => simp [Session.updateTopics] at h
  | authenticated j current =>
    obtain ⟨rfl, -⟩ := Session.authenticated.inj h
    exact ⟨current, rfl⟩

/-- What a stride is to the hub and to the history. -/
theorem Stride.turn {asked : Option Purpose} {r : Reader}
    (h : Stride m.world.site c asked r)
    (hw : ∀ task, c.IsAt task → m.Works k c ∧ c.reader.task = task) :
    Turn m k c.queue c.reader (asked.map (·.request k c.queue)) r := by
  cases h with
  | pass => exact .rest ⟨rfl, rfl, Or.inl rfl, fun _ _ hs => ⟨_, hs⟩⟩
  | skip => exact .rest (Reader.Rests.refl _)
  | leave => exact .rest (c.reader.rests_goOn rfl)
  | present token ready => exact .rest (c.reader.rests_goOn rfl)
  | name hat hsess hs hf =>
    obtain ⟨hworks, ht⟩ := hw _ hat
    exact .name hsess ⟨c, _, _, hworks, ht, hs, hf⟩
  | drop channels hat hsess => exact .unsubscribe _ hsess
  | refuse =>
    refine .rest ⟨rfl, rfl, Or.inr ?_, fun _ _ hs => by cases hs⟩
    rcases Settings.afterFailures_cases _ _ with ht | ht
    · exact congrArg ReaderTask.isEngaged ht
    · exact congrArg ReaderTask.isEngaged ht
  | ignore => exact .rest (c.reader.rests_goOn rfl)
  | register hat hv hq =>
    obtain ⟨hworks, ht⟩ := hw _ hat
    exact .register hq ⟨c, _, _, hworks, ht, hv⟩
  | allow hat hd =>
    obtain ⟨hworks, ht⟩ := hw _ hat
    exact .allow ht ⟨c, _, _, hworks, ht, hd⟩
  | deny hat _ => exact .deny _ (hw _ hat).2
  | conclude => exact .rest (c.reader.rests_goOn rfl)
  | subscribe hat _ => exact .subscribe (hw _ hat).2
  | welcome hat ha hu => exact .welcome _ (hw _ hat).2 ha hu
  | lost => exact .rest (c.reader.rests_goOn rfl)
  | subscribed => exact .rest ⟨rfl, rfl, Or.inr rfl, fun _ _ h => session_updateTopics h⟩
  | unsubscribed => exact .rest ⟨rfl, rfl, Or.inr rfl, fun _ _ h => session_updateTopics h⟩
  | violate => exact .rest (c.reader.rests_say _ rfl)

theorem turn_stepReader? {c' : Connection} {site : Site} (hm : m.move = .act (.reader k))
    (hc : m.world.connections[k]? = some c) (hr : ∀ p, c.reader.task ≠ .asking p)
    (h : c.stepReader? k m.world.site = some (c', site)) :
    c.isServing = true ∧
      Turn m k c.queue c.reader (c.asks? k m.world.site) c'.reader ∧
      c'.stand = { c.stand with reader := c'.reader } ∧
      (m.hub.enter (c.asks? k m.world.site)).Keeps site.hub := by
  obtain ⟨hserv, asked, hs⟩ := strode_of_step hr h
  refine ⟨hserv, ?_, ?_, ?_⟩
  · rw [hs.asks]
    exact hs.stride.turn fun task hat => ⟨⟨hm, hc, hserv, hat.1⟩, hat.2⟩
  · unfold Connection.stand Connection.isServing
    rw [hs.queue, hs.phase]
  · rw [hs.asks, hs.hub]
    cases asked with
    | none => exact .refl _
    | some p => exact m.hub.keeps_issue _

end Strides

/-! ## The other steps -/

theorem stand_settleWriter (c : Connection) (mail : Mail) :
    (c.settleWriter mail).1.stand = c.stand := by
  unfold Connection.settleWriter
  split <;> rfl

theorem length_settleWriter (c : Connection) (mail : Mail) :
    (c.settleWriter mail).2.queues.length = mail.queues.length := by
  unfold Connection.settleWriter
  split
  · rfl
  · exact List.length_modify _ _ _

theorem stand_stepWriter? {c c' : Connection} {now : Instant} {mail mail' : Mail}
    {missed : List Inlet} (h : c.stepWriter? now mail missed = some (c', mail')) :
    c'.stand = c.stand ∧ mail'.queues.length = mail.queues.length := by
  unfold Connection.stepWriter? at h
  split at h
  · simp at h
  · split at h
    · simp at h
    · have h := Option.some.inj h
      have hc : c' = _ := (congrArg Prod.fst h).symm
      have hmail : mail' = _ := (congrArg Prod.snd h).symm
      rw [hc, hmail, stand_settleWriter, length_settleWriter]
      exact ⟨rfl, List.length_modify _ _ _⟩

theorem stand_abort {c c' : Connection} {mail mail' : Mail} (h : c.abort mail = (c', mail')) :
    c'.stand = c.stand ∧ mail'.queues.length = mail.queues.length := by
  have hc : c' = (c.abort mail).1 := (congrArg Prod.fst h).symm
  have hmail : mail' = (c.abort mail).2 := (congrArg Prod.snd h).symm
  rw [hc, hmail]
  exact ⟨stand_settleWriter _ _, length_settleWriter _ _⟩

theorem keeps_letGo (k : ConnectionId) (c : Connection) (hub : Hub) :
    (hub.enter (c.reader.registered.map fun user => .unregister user k)).Keeps
      (c.letGo k hub) := by
  have hq : hub.Keeps (if c.reader.holdsQueue then hub.update (·.release c.queue) else hub) := by
    split
    · exact hub.keeps_release _
    · exact .refl _
  unfold Connection.letGo
  cases c.reader.registered with
  | none => exact hq
  | some user => exact (hq.enter _).trans (Hub.keeps_issue _ _)

theorem isServing_drain (c : Connection) (now : Instant) (why : Termination) :
    ({ c with phase := c.drain now why } : Connection).isServing = false := by
  unfold Connection.isServing Connection.drain
  by_cases hg : c.settings.hasGrace = true
  · rw [if_pos hg]
  · rw [if_neg hg]

/-- A connection goes towards its end by parting or, once it has parted, on its own. -/
theorem stepEnd?_cases {k : ConnectionId} {half : Connection.Half} {c c' : Connection}
    {site site' : Site} (h : c.stepEnd? k half site = some (c', site')) :
    (c.isServing = true ∧ c'.stand = { c.stand with isServing := false } ∧
        (site.hub.enter (c.farewell? k)).Keeps site'.hub) ∨
      (c.isServing = false ∧ c'.stand = c.stand ∧ site.hub.Keeps site'.hub) := by
  unfold Connection.stepEnd? at h
  split at h
  · rename_i hp
    have hs : c.isServing = true := by
      unfold Connection.isServing
      rw [hp]
    have hf : c.farewell? k = c.reader.registered.map fun user => .unregister user k := by
      unfold Connection.farewell?
      rw [if_pos hs]
    refine Or.inl ⟨hs, ?_⟩
    rw [hf]
    cases half with
    | writer =>
      obtain ⟨why, -, heq⟩ := Option.map_eq_some_iff.mp h
      obtain ⟨rfl, rfl⟩ := Prod.mk.inj heq
      exact ⟨rfl, keeps_letGo k c site.hub⟩
    | reader =>
      obtain ⟨why, -, heq⟩ := Option.map_eq_some_iff.mp h
      obtain ⟨rfl, rfl⟩ := Prod.mk.inj heq
      refine ⟨?_, keeps_letGo k c site.hub⟩
      unfold Connection.stand
      rw [isServing_drain]
  · rename_i why deadline hp
    have hs : c.isServing = false := by
      unfold Connection.isServing
      rw [hp]
    refine Or.inr ⟨hs, ?_⟩
    split at h
    · obtain ⟨rfl, rfl⟩ := Prod.mk.inj (Option.some.inj h)
      refine ⟨?_, .refl _⟩
      unfold Connection.stand
      rw [hs]
      rfl
    · split at h
      · cases ha : c.abort site.hub.exchange.mail with
        | mk c₁ mail =>
          rw [ha] at h
          obtain ⟨rfl, rfl⟩ := Prod.mk.inj (Option.some.inj h)
          obtain ⟨hst, hl⟩ := stand_abort ha
          refine ⟨?_, site.hub.keeps_withMail (Nat.le_of_eq hl.symm)⟩
          have hr : c₁.reader = c.reader := congrArg Stand.reader hst
          have hq : c₁.queue = c.queue := congrArg Stand.queue hst
          unfold Connection.stand
          rw [hs, ← hr, ← hq]
          rfl
      · simp at h
  · simp at h
  · simp at h

/-! ## What moves do -/

namespace World

theorem stand?_set (w : World) {k : ConnectionId} {c : Connection}
    (hc : w.connections[k]? = some c) (c' : Connection) (site : Site) :
    (w.putBack k (c', site)).stand? = Function.update w.stand? k (some c'.stand) := by
  funext k'
  show ((w.connections.set k c')[k']?).map Connection.stand = _
  rw [Function.update_apply]
  split
  · rename_i hk
    subst hk
    rw [List.getElem?_set_self (List.getElem?_eq_some_iff.mp hc).1]
    rfl
  · rename_i hk
    rw [List.getElem?_set_ne (Ne.symm hk)]
    rfl

/-- A change to one connection that leaves it where it stands. -/
theorem stand?_modify (w : World) (k : ConnectionId) {f : Connection → Connection}
    (hf : ∀ c, w.connections[k]? = some c → (f c).stand = c.stand) (site : Site) :
    World.stand? ⟨site, w.connections.modify k f⟩ = w.stand? := by
  funext k'
  unfold stand?
  rw [List.getElem?_modify]
  split
  · rename_i hk
    subst hk
    cases hc : w.connections[k]? with
    | none => rfl
    | some c => exact congrArg some (hf c hc)
  · cases w.connections[k']? <;> rfl

theorem stand?_updateSocket (w : World) (k : ConnectionId) (f : Socket → Socket) :
    (w.updateSocket k f).stand? = w.stand? :=
  w.stand?_modify k (f := fun c => { c with socket := f c.socket }) (fun _ _ => rfl) w.site

end World

section Effects

variable {w v : World} {k : ConnectionId} {missed : List Lane}

/-- No reader is left about to ask. -/
def World.Calm (w : World) : Prop :=
  ∀ k s, w.stand? k = some s → ∀ p, s.reader.task ≠ .asking p

theorem stand?_of_connection {c : Connection} (hc : w.connections[k]? = some c) :
    w.stand? k = some c.stand := by
  unfold World.stand?
  rw [hc]
  rfl

theorem effect_reader (hw : w.Calm) (h : w.act? (.reader k) = some v) :
    Effect ⟨w, .act (.reader k)⟩ v := by
  obtain ⟨c, hc, h⟩ := Option.bind_eq_some_iff.mp h
  obtain ⟨⟨c', site⟩, hstep, rfl⟩ := Option.map_eq_some_iff.mp h
  have hst := stand?_of_connection hc
  obtain ⟨hserv, hturn, hstand, hkeeps⟩ :=
    turn_stepReader? (m := ⟨w, .act (.reader k)⟩) rfl hc (hw k c.stand hst) hstep
  have hask : Moment.request? ⟨w, .act (.reader k)⟩ = c.asks? k w.site := by
    show (w.connections[k]?).bind _ = _
    rw [hc]
    rfl
  refine .other rfl ?_ (.turn rfl hst hserv (hask ▸ hturn) ?_)
  · rw [hask]
    exact hkeeps
  · rw [w.stand?_set hc, hstand]

theorem effect_client {half : Connection.Half} (h : w.act? (.client k half) = some v) :
    Effect ⟨w, .act (.client k half)⟩ v := by
  obtain ⟨c, hc, h⟩ := Option.bind_eq_some_iff.mp h
  obtain ⟨⟨c', site⟩, hstep, rfl⟩ := Option.map_eq_some_iff.mp h
  have hst := stand?_of_connection hc
  have hask : Moment.request? ⟨w, .act (.client k half)⟩ = c.farewell? k := by
    show (w.connections[k]?).bind _ = _
    rw [hc]
    rfl
  rcases stepEnd?_cases hstep with ⟨hserv, hstand, hkeeps⟩ | ⟨hserv, hstand, hkeeps⟩
  · refine .other rfl ?_ (.part rfl hst hserv ?_ ?_)
    · rw [hask]
      exact hkeeps
    · rw [hask]
      unfold Connection.farewell?
      rw [if_pos hserv]
      rfl
    · rw [w.stand?_set hc, hstand]
  · have hn : c.farewell? k = none := by
      unfold Connection.farewell?
      rw [hserv]
      rfl
    rw [hn] at hask
    refine .other rfl ?_ (.stay (by simp [hask]) ?_)
    · rw [hask]
      exact hkeeps
    · rw [w.stand?_set hc, hstand, ← hst]
      exact Function.update_eq_self k _

theorem effect_hub (h : w.act? (.hub missed) = some v) : Effect ⟨w, .act (.hub missed)⟩ v := by
  obtain ⟨g, hg, rfl⟩ := Option.map_eq_some_iff.mp h
  obtain ⟨t, r, hn, rfl⟩ := Hub.step?_eq_some hg
  by_cases hr : r = .shutdown
  · subst hr
    refine .stop rfl hn ?_ rfl
    exact (w.site.hub.take t).keeps_stop
  · exact .handle rfl hn (w.site.hub.handled_handle t hr) rfl

theorem effect_writer {missed : List Inlet} (h : w.act? (.writer k missed) = some v) :
    Effect ⟨w, .act (.writer k missed)⟩ v := by
  obtain ⟨c, hc, h⟩ := Option.bind_eq_some_iff.mp h
  obtain ⟨⟨c', mail⟩, hstep, rfl⟩ := Option.map_eq_some_iff.mp h
  obtain ⟨hstand, hl⟩ := stand_stepWriter? hstep
  refine .other rfl (Hub.keeps_withMail _ (Nat.le_of_eq hl.symm))
    (.stay (fun _ hr => by cases hr) ?_)
  refine w.stand?_modify k (fun c₁ hc₁ => ?_) _
  rw [hc] at hc₁
  rw [← Option.some.inj hc₁]
  exact hstand

theorem effect_endWriter {writer : Writer} (h : w.endWriter? k writer = some v) :
    Effect ⟨w, .endWriter k writer⟩ v := by
  unfold World.endWriter? at h
  split at h
  · simp at h
  · obtain ⟨c, hc, rfl⟩ := Option.map_eq_some_iff.mp h
    have hl := length_settleWriter { c with writer } w.site.hub.exchange.mail
    refine .other rfl (Hub.keeps_withMail _ (Nat.le_of_eq hl.symm))
      (.stay (fun _ hr => by cases hr) ?_)
    refine w.stand?_modify k (fun c₁ hc₁ => ?_) _
    rw [hc] at hc₁
    rw [← Option.some.inj hc₁]
    exact stand_settleWriter _ _

/-- What leaves the hub and every stand alone. -/
theorem effect_quiet {m : Move} (hr : Moment.request? ⟨w, m⟩ = none)
    (hh : Moment.handles? ⟨w, m⟩ = none) (hk : w.site.hub.Keeps v.site.hub)
    (hs : v.stand? = w.stand?) : Effect ⟨w, m⟩ v := by
  refine .other hh ?_ (.stay (by simp [hr]) hs)
  rw [hr]
  exact hk

theorem effect_connect (w : World) (settings : Settings) (socket : Socket) :
    Effect ⟨w, .undergo (.connect settings socket)⟩ (w.undergo (.connect settings socket)) := by
  have hl : w.site.hub.exchange.queueCount + 1 =
      (w.site.hub.exchange.mail.create settings.queueCapacity).2.queues.length := by
    unfold Mail.create
    rw [List.length_append]
    rfl
  have hk : w.site.hub.Keeps (w.undergo (.connect settings socket)).site.hub :=
    w.site.hub.keeps_withMail (Nat.le_of_succ_le (Nat.le_of_eq hl))
  refine .other rfl hk ?_
  refine .connect (k := w.connections.length) settings.hasQueue rfl ?_ ?_ (Nat.le_of_eq hl)
  · show (w.connections[w.connections.length]?).map _ = none
    rw [List.getElem?_eq_none (Nat.le_refl _)]
    rfl
  · funext k
    obtain ⟨c, hc, hs⟩ : ∃ c : Connection,
        (w.undergo (.connect settings socket)).connections = w.connections ++ [c] ∧
          c.stand = ⟨.start, settings.hasQueue, w.site.hub.exchange.queueCount⟩ := by
      refine ⟨_, rfl, ?_⟩
      cases settings.hasQueue <;> rfl
    unfold World.stand?
    rw [hc, Function.update_apply]
    split
    · rename_i heq
      rw [heq, List.getElem?_concat_length]
      exact congrArg some hs
    · rename_i hne
      by_cases hlt : k < w.connections.length
      · rw [List.getElem?_append_left hlt]
      · have hgt : w.connections.length < k :=
          Nat.lt_of_le_of_ne (Nat.le_of_not_lt hlt) (Ne.symm hne)
        show Option.map _ _ = (w.connections[k]?).map _
        rw [List.getElem?_eq_none (by simpa using Nat.succ_le_of_lt hgt),
          List.getElem?_eq_none (Nat.le_of_lt hgt)]

theorem effect_undergo (w : World) (s : Stimulus) : Effect ⟨w, .undergo s⟩ (w.undergo s) := by
  cases s with
  | connect settings socket => exact effect_connect w settings socket
  | issue r =>
    exact .other rfl (w.site.hub.keeps_issue r)
      (.stay (fun _ hr => by rw [Option.some.inj hr]) rfl)
  | arrive k frames => exact effect_quiet rfl rfl (.refl _) (w.stand?_updateSocket k _)
  | take k n => exact effect_quiet rfl rfl (.refl _) (w.stand?_updateSocket k _)
  | setWindow k window => exact effect_quiet rfl rfl (.refl _) (w.stand?_updateSocket k _)
  | addMember circle user => exact effect_quiet rfl rfl (.refl _) rfl
  | removeMember circle user => exact effect_quiet rfl rfl (.refl _) rfl
  | setReachable reachable => exact effect_quiet rfl rfl (.refl _) rfl
  | setNow now => exact effect_quiet rfl rfl (.refl _) rfl

/-- **Every move has an effect.** -/
theorem effect_of_move {m : Move} (hw : w.Calm) (h : w.move? m = some v) : Effect ⟨w, m⟩ v := by
  cases m with
  | act a =>
    cases a with
    | hub missed => exact effect_hub h
    | writer k missed => exact effect_writer h
    | reader k => exact effect_reader hw h
    | client k half => exact effect_client h
  | undergo s =>
    obtain rfl := Option.some.inj h
    exact effect_undergo w s
  | setService service =>
    obtain rfl := Option.some.inj h
    exact effect_quiet rfl rfl (.refl _) rfl
  | setClock clock =>
    obtain rfl := Option.some.inj h
    exact effect_quiet rfl rfl
      (Hub.keeps_update _ (f := fun x => { x with clock }) rfl (Nat.le_refl _)) rfl
  | endWriter k writer => exact effect_endWriter h

end Effects

/-! ## Parts of a course -/

namespace Course

variable {callers : Request → Prop} {w v : World} {a b : List Moment}

theorem split (h : Course callers w (a ++ b) v) :
    ∃ u, Course callers w a u ∧ Course callers u b v := by
  generalize hp : a ++ b = past at h
  -- a course grows at its end, so it is the end of `b` that the last move is taken from
  induction h generalizing b with
  | start =>
    obtain ⟨rfl, rfl⟩ := List.append_eq_nil_iff.mp hp
    exact ⟨w, .start, .start⟩
  | @move past u v m hcourse hcall hm ih =>
    rcases List.eq_nil_or_concat b with rfl | ⟨b, x, rfl⟩
    · rw [List.append_nil] at hp
      rw [hp]
      exact ⟨v, hcourse.move hcall hm, .start⟩
    · rw [List.concat_eq_append, ← List.append_assoc] at hp
      obtain ⟨hp, hx⟩ := List.append_inj' hp rfl
      obtain ⟨u', ha, hb⟩ := ih hp
      rw [List.concat_eq_append, List.singleton_inj.mp hx]
      exact ⟨u', ha, hb.move hcall hm⟩

theorem eq_of_nil (h : Course callers w [] v) : v = w := by
  generalize hp : [] = past at h
  cases h with
  | start => rfl
  | move _ _ _ => simp at hp

/-- A course begins with the move that the first world made. -/
theorem uncons {m : Moment} (h : Course callers w (m :: b) v) :
    m.world = w ∧ (∀ r, m.move = .undergo (.issue r) → callers r) ∧
      ∃ u, w.move? m.move = some u ∧ Course callers u b v := by
  obtain ⟨u, hm, hb⟩ := split (a := [m]) h
  generalize hl : [m] = past at hm
  cases hm with
  | start => simp at hl
  | @move past u' _ mv hcourse hcall hmove =>
    have hl : [] ++ [m] = past ++ [⟨u', mv⟩] := hl
    obtain ⟨rfl, hx⟩ := List.append_inj' hl rfl
    obtain rfl := List.singleton_inj.mp hx
    obtain rfl := eq_of_nil hcourse
    exact ⟨rfl, hcall, u, hmove, hb⟩

/-- The last moment of a course leads to its end. -/
theorem unsnoc {m : Moment} (h : Course callers w (past ++ [m]) v) :
    Course callers w past m.world ∧ m.world.move? m.move = some v := by
  obtain ⟨u, hpast, hlast⟩ := h.split
  obtain ⟨rfl, -, v', hm, hnil⟩ := hlast.uncons
  obtain rfl := hnil.eq_of_nil
  exact ⟨hpast, hm⟩

/-- A course leads to the world of each of its moments. -/
theorem upTo {m : Moment} (h : Course callers w (a ++ m :: b) v) : Course callers w a m.world := by
  obtain ⟨u, ha, hb⟩ := h.split
  rw [hb.uncons.1]
  exact ha

theorem trans {u : World} (h : Course callers w a u) (h' : Course callers u b v) :
    Course callers w (a ++ b) v := by
  induction h' with
  | start =>
    rw [List.append_nil]
    exact h
  | move _ hcall hm ih =>
    rw [← List.append_assoc]
    exact ih.move hcall hm

end Course

/-! ## Following moves -/

namespace World

/-- The world after some moves, if they can be made. -/
def follow? (w : World) : List Move → Option World
  | [] => some w
  | m :: moves => (w.move? m).bind fun v => v.follow? moves

/-- The moves with the worlds that meet them, as far as they can be made. -/
def trail (w : World) : List Move → List Moment
  | [] => []
  | m :: moves =>
    match w.move? m with
    | some v => ⟨w, m⟩ :: v.trail moves
    | none => []

end World

/-- Only the moves of a trail are made on it. -/
theorem World.move_mem_of_mem_trail {w : World} {moves : List Move} {m : Moment}
    (h : m ∈ w.trail moves) : m.move ∈ moves := by
  induction moves generalizing w with
  | nil => cases h
  | cons move moves ih =>
    unfold trail at h
    split at h
    · rcases List.mem_cons.mp h with rfl | h
      · exact List.mem_cons_self
      · exact List.mem_cons_of_mem _ (ih h)
    · cases h

/-- A trail goes by the moves that it follows. -/
theorem World.map_move_trail {w v : World} {moves : List Move} (h : w.follow? moves = some v) :
    (w.trail moves).map Moment.move = moves := by
  induction moves generalizing w with
  | nil => rfl
  | cons m moves ih =>
    obtain ⟨u, hu, hv⟩ := Option.bind_eq_some_iff.mp h
    unfold trail
    rw [hu]
    exact congrArg (m :: ·) (ih hv)

theorem course_of_follow? {callers : Request → Prop} {w v : World} {moves : List Move}
    (hc : ∀ r, .undergo (.issue r) ∈ moves → callers r) (h : w.follow? moves = some v) :
    Course callers w (w.trail moves) v := by
  induction moves generalizing w with
  | nil =>
    obtain rfl := Option.some.inj h
    exact .start
  | cons m moves ih =>
    obtain ⟨u, hu, hv⟩ := Option.bind_eq_some_iff.mp h
    have htrail : w.trail (m :: moves) = [⟨w, m⟩] ++ u.trail moves := by
      show (match w.move? m with
        | some v => (⟨w, m⟩ : Moment) :: v.trail moves
        | none => []) = _
      rw [hu]
      rfl
    rw [htrail]
    have hone : Course callers w [⟨w, m⟩] u :=
      Course.start.move (fun r hr => hc r (hr ▸ List.mem_cons_self)) hu
    exact hone.trans (ih (fun r hr => hc r (List.mem_cons_of_mem _ hr)) hv)

end Switchboard
