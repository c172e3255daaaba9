import Switchboard.System.World

/-!
# Reading

What a reader can do in one step. A step of a reader is a long computation that branches on what was
read, on what a token turns out to be, on what the directory decides and on what the hub answers.
`Stride` has one case for each way in which that can come out, with what the step depended on, and
`strode_of_step` says that there are no others. Whatever holds of readers is proved by these cases.
-/

namespace Switchboard

open Wire

/-! ## Frames that cannot be read -/

namespace Wire.ControlFrame

/-- Whatever goes wrong is fatal. -/
def OnlyFatal {α : Type} (x : Except Error α) : Prop := ∀ e, x = .error e → e.isFatal = true

theorem OnlyFatal.ok {α : Type} (a : α) : OnlyFatal (.ok a) := fun _ h => by cases h

theorem OnlyFatal.error {α : Type} {e : Error} (h : e.isFatal = true) :
    OnlyFatal (α := α) (.error e) := fun _ he => Except.error.inj he ▸ h

theorem OnlyFatal.bind {α β : Type} {x : Except Error α} {g : α → Except Error β}
    (hx : OnlyFatal x) (hg : ∀ a, OnlyFatal (g a)) : OnlyFatal (x >>= g) := by
  intro e he
  cases x with
  | error e' => exact hx e (congrArg Except.error (Except.error.inj he))
  | ok a => exact hg a e he

theorem onlyFatal_checkVersion (version : Option String) : OnlyFatal (checkVersion version) := by
  unfold checkVersion Version.check
  split
  · exact .ok ()
  · split
    · exact .ok ()
    · rename_i he
      split at he
      · cases he
      · exact .error (Except.error.inj he ▸ rfl)

theorem onlyFatal_checkType (type : Option String) : OnlyFatal (checkType type) := by
  unfold checkType
  split
  · exact .error rfl
  · split
    · exact .error rfl
    · split
      · exact .ok ()
      · exact .error rfl

theorem onlyFatal_check (frame : ControlFrame) : OnlyFatal frame.check := by
  have hchannels : ∀ channels, OnlyFatal (checkChannels channels) := by
    intro channels
    unfold checkChannels
    split
    · exact .error rfl
    · split
      · exact .error rfl
      · exact .ok ()
  cases frame with
  | auth token => exact .ok ()
  | subscribe channels => exact hchannels channels
  | unsubscribe channels => exact hchannels channels

/-- Whatever is wrong with a frame is a breach of the protocol. -/
theorem onlyFatal_decode (text : String) : OnlyFatal (decode text) := by
  unfold decode
  split
  · split
    · refine (onlyFatal_checkVersion _).bind fun _ => (onlyFatal_checkType _).bind fun _ => ?_
      split
      · exact (onlyFatal_check _).bind fun _ => .ok _
      · exact .error rfl
    · exact .error rfl
  · exact .error rfl

end Wire.ControlFrame

/-! ## What a reader is about -/

namespace Connection

/-- The reader has nothing left to say and is at a task. -/
def IsAt (c : Connection) (task : ReaderTask) : Prop :=
  c.reader.outgoing = [] ∧ c.reader.task = task

/-- The frame that the reader takes up next. -/
def hears? (c : Connection) : Option Incoming :=
  match c.reader.outgoing, c.reader.task with
  | [], .listening => c.socket.receive?.map (·.1)
  | _, _ => none

/-- The judgement that the reader takes up next. -/
def verdict? (c : Connection) (service : Service) : Option (Except Error Identity) :=
  match c.reader.outgoing, c.reader.task with
  | [], .validating token _ => some (service.validate token)
  | _, _ => none

/-- What the reader's next step asks of the hub. -/
def asks? (k : ConnectionId) (c : Connection) (site : Site) : Option Request :=
  if c.isServing && c.reader.outgoing.isEmpty then
    (c.doTask? site).bind fun (c, _) =>
      match c.reader.task with
      | .asking p => some (p.request k c.queue)
      | _ => none
  else none

variable {c : Connection} {task : ReaderTask} {service : Service}

theorem verdict?_of_validating (service : Service) {token : String} {ready : Instant}
    (h : c.IsAt (.validating token ready)) :
    c.verdict? service = some (service.validate token) := by
  unfold verdict?
  rw [h.1, h.2]

theorem verdict?_of_not_validating (h : ∀ token ready, c.reader.task ≠ .validating token ready) :
    c.verdict? service = none := by
  unfold verdict?
  split
  · rename_i token ready _ ht
    exact absurd ht (h token ready)
  · rfl

theorem verdict?_eq_some {verdict : Except Error Identity}
    (h : c.verdict? service = some verdict) :
    ∃ token ready, c.IsAt (.validating token ready) ∧ service.validate token = verdict := by
  unfold verdict? at h
  split at h
  · rename_i token ready ho ht
    exact ⟨token, ready, ⟨ho, ht⟩, Option.some.inj h⟩
  · cases h

theorem hears?_of_listening (h : c.IsAt .listening) :
    c.hears? = c.socket.receive?.map (·.1) := by
  unfold hears?
  rw [h.1, h.2]

theorem hears?_eq_some {frame : Incoming} (h : c.hears? = some frame) :
    c.IsAt .listening ∧ ∃ socket, c.socket.receive? = some (frame, socket) := by
  unfold hears? at h
  split at h
  · rename_i ho ht
    obtain ⟨⟨frame', socket⟩, hreceive, rfl⟩ := Option.map_eq_some_iff.mp h
    exact ⟨⟨ho, ht⟩, socket, hreceive⟩
  · cases h

end Connection

/-- What a reader does after a number of failed handshakes. -/
def Settings.afterFailures (s : Settings) (failures : Nat) : ReaderTask :=
  if s.maxAuthAttempts ≤ failures then .finished .authAttemptsExhausted else .listening

theorem Settings.afterFailures_cases (s : Settings) (failures : Nat) :
    s.afterFailures failures = .finished .authAttemptsExhausted ∨
      s.afterFailures failures = .listening := by
  unfold afterFailures
  split
  · exact Or.inl rfl
  · exact Or.inr rfl

/--
`Stride site c asked r'`: in one step the reader of `c` becomes `r'` and the hub is asked what is
`asked`.
-/
inductive Stride (site : Site) (c : Connection) : Option Purpose → Reader → Prop
  /-- A reply is passed on. -/
  | pass {m : Message} {rest : List Message} :
      c.reader.outgoing = m :: rest → Stride site c none { c.reader with outgoing := rest }
  -- Frames.
  | skip {octets : List UInt8} :
      c.hears? = some (.ping octets) ∨ c.hears? = some (.pong octets) → c.IsAt .listening →
      Stride site c none c.reader
  | leave {why : Termination} :
      c.IsAt .listening → why = .clientClosed ∨ why = .readError →
      Stride site c none (c.reader.goOn (.finished why))
  | present {n : Nat} (token : String) (ready : Instant) :
      c.IsAt .listening → c.reader.session = .unauthenticated n →
      Stride site c none (c.reader.goOn (.validating token ready))
  | name {i : Identity} {topics : List Topic} {channels : List String} {text : String}
      {socket : Socket} :
      c.IsAt .listening → c.reader.session = .authenticated i topics →
      c.socket.receive? = some (.text text, socket) →
      ControlFrame.decode text = .ok (.subscribe channels) →
      Stride site c none (c.reader.goOn (.deciding i channels []))
  | drop {i : Identity} {topics : List Topic} (channels : List String) :
      c.IsAt .listening → c.reader.session = .authenticated i topics →
      Stride site c (some (.unsubscription i (channels.filterMap Topic.ofName?)))
        (c.reader.goOn (.awaiting (.unsubscription i (channels.filterMap Topic.ofName?))
          site.hub.nextTicket))
  -- Tokens.
  | refuse {n : Nat} {token : String} {ready : Instant} {e : Error} :
      c.IsAt (.validating token ready) → c.reader.session = .unauthenticated n →
      site.service.validate token = .error e → e.isFatal = false →
      Stride site c none
        ({ c.reader with session := .unauthenticated (n + 1) }.say (.authError e.code e.message)
          (c.settings.afterFailures (n + 1)))
  /-- Of a client that has authenticated no token is judged. -/
  | ignore {i : Identity} {topics : List Topic} {token : String} {ready : Instant} :
      c.IsAt (.validating token ready) → c.reader.session = .authenticated i topics →
      Stride site c none (c.reader.goOn .listening)
  | register {i : Identity} {token : String} {ready : Instant} :
      c.IsAt (.validating token ready) → site.service.validate token = .ok i →
      c.reader.holdsQueue = true →
      Stride site c (some (.registration i))
        ((c.reader.handOver (.registration i)).goOn
          (.awaiting (.registration i) site.hub.nextTicket))
  -- Channels.
  | allow {i : Identity} {t : Topic} {rest : List String} {allowed : List Topic} :
      c.IsAt (.deciding i (t.name :: rest) allowed) →
      (site.directory.authorize i t.name).1 = .allow t →
      Stride site c none (c.reader.goOn (.deciding i rest (allowed ++ [t])))
  | deny {i : Identity} {channel : String} {rest : List String} {allowed : List Topic}
      {denial : Denial} :
      c.IsAt (.deciding i (channel :: rest) allowed) →
      (site.directory.authorize i channel).1 = .deny denial →
      Stride site c none
        (c.reader.say (.subscribeRejected channel denial.code) (.deciding i rest allowed))
  | conclude {i : Identity} :
      c.IsAt (.deciding i [] []) → Stride site c none (c.reader.goOn .listening)
  | subscribe {i : Identity} {allowed : List Topic} :
      c.IsAt (.deciding i [] allowed) → allowed ≠ [] →
      Stride site c (some (.subscription i allowed))
        (c.reader.goOn (.awaiting (.subscription i allowed) site.hub.nextTicket))
  -- Answers.
  | welcome {i : Identity} {t : Ticket} {a : Answer} :
      c.IsAt (.awaiting (.registration i) t) → site.hub.answer? t = some a → a ≠ .unavailable →
      Stride site c none
        ({ c.reader with session := .authenticated i [] }.say (.authOk i.userId) .listening)
  | lost {p : Purpose} {t : Ticket} :
      c.IsAt (.awaiting p t) → site.hub.answer? t = some (.found false) →
      Stride site c none (c.reader.goOn (.finished .queueClosed))
  | subscribed {i : Identity} {topics : List Topic} {t : Ticket} {a : Answer} :
      c.IsAt (.awaiting (.subscription i topics) t) → site.hub.answer? t = some a →
      a ≠ .unavailable → a ≠ .found false →
      Stride site c none
        ({ c.reader with
            session := c.reader.session.updateTopics fun current =>
              topics.foldl Exchange.addTopic current }.say
          (.subscribed (topics.map Topic.name)) .listening)
  | unsubscribed {i : Identity} {topics : List Topic} {t : Ticket} {a : Answer} :
      c.IsAt (.awaiting (.unsubscription i topics) t) → site.hub.answer? t = some a →
      a ≠ .unavailable → a ≠ .found false →
      Stride site c none
        ({ c.reader with
            session := c.reader.session.updateTopics fun current =>
              current.filter (!topics.contains ·) }.say
          (.unsubscribed (topics.map Topic.name)) .listening)
  /-- The connection is given up because of an error. -/
  | violate {e : Error} :
      c.reader.outgoing = [] → (∀ why, c.reader.task ≠ .finished why) → e.isFatal = true →
      (∀ e', c.verdict? site.service = some (.error e') → e' = e) →
      (∀ i, c.verdict? site.service = some (.ok i) → c.reader.holdsQueue = false) →
      Stride site c none (c.reader.violate e)

/-! ## A step of the task -/

/-- What a failed handshake does to a reader whose client has not authenticated. -/
theorem Reader.failHandshake_of_unauthenticated {r : Reader} {n : Nat}
    (h : r.session = .unauthenticated n) (s : Settings) (e : Error) :
    r.failHandshake s e = { r with session := .unauthenticated (n + 1) }.say
      (.authError e.code e.message) (s.afterFailures (n + 1)) := by
  unfold failHandshake
  rw [h]
  rfl

/-- What comes of a reader's task: the reader moves on, or is about to ask the hub. -/
def Strides (site : Site) (c : Connection) (r : Reader) : Prop :=
  Stride site c none r ∨
    ∃ p : Purpose, r = c.reader.goOn (.asking p) ∧
      Stride site c (some p) ((c.reader.handOver p).goOn (.awaiting p site.hub.nextTicket))

section Tasks

variable {site : Site} {c : Connection}

/-- An error that is fatal, of a reader that judges no token. -/
theorem strides_fatal {task : ReaderTask} (h : c.IsAt task) (ht : ∀ why, task ≠ .finished why)
    (hv : c.verdict? site.service = none) {e : Error} (he : e.isFatal = true) :
    Strides site c (c.reader.fail c.settings e) := by
  unfold Reader.fail
  rw [if_pos he]
  refine Or.inl (.violate h.1 (h.2 ▸ ht) he ?_ ?_)
  · intro e' he'
    rw [hv] at he'
    cases he'
  · intro i hi
    rw [hv] at hi
    cases hi

theorem strides_obey {text : String} {socket : Socket} {frame : ControlFrame} {now : Instant}
    {delay : Millis} (h : c.IsAt .listening)
    (hs : c.socket.receive? = some (.text text, socket))
    (hf : ControlFrame.decode text = .ok frame) :
    Strides site c (c.reader.obey c.settings now delay frame) := by
  have hv : c.verdict? site.service = none :=
    Connection.verdict?_of_not_validating (by simp [h.2])
  cases frame with
  | auth token =>
    unfold Reader.obey
    dsimp only
    split
    · exact strides_fatal h (by simp) hv rfl
    · rename_i hsess
      exact Or.inl (.present token _ h hsess)
  | subscribe channels =>
    unfold Reader.obey
    dsimp only
    split
    · rename_i i topics hsess
      exact Or.inl (.name h hsess hs hf)
    · exact strides_fatal h (by simp) hv rfl
  | unsubscribe channels =>
    unfold Reader.obey
    dsimp only
    split
    · rename_i i topics hsess
      exact Or.inr ⟨_, rfl, .drop channels h hsess⟩
    · exact strides_fatal h (by simp) hv rfl

theorem strides_hear {frame : Incoming} {socket : Socket} {now : Instant} {delay : Millis}
    (h : c.IsAt .listening) (hs : c.socket.receive? = some (frame, socket)) :
    Strides site c (c.reader.hear c.settings now delay frame) := by
  have hv : c.verdict? site.service = none :=
    Connection.verdict?_of_not_validating (by simp [h.2])
  have hhears : c.hears? = some frame := by
    rw [Connection.hears?_of_listening h, hs]
    rfl
  cases frame with
  | text text =>
    unfold Reader.hear Reader.hearText
    dsimp only
    split
    · exact strides_fatal h (by simp) hv rfl
    · split
      · rename_i e he
        exact strides_fatal h (by simp) hv (ControlFrame.onlyFatal_decode text e he)
      · rename_i frame hf
        exact strides_obey h hs hf
  | binary octets => exact strides_fatal h (by simp) hv rfl
  | ping octets => exact Or.inl (.skip (Or.inl hhears) h)
  | pong octets => exact Or.inl (.skip (Or.inr hhears) h)
  | close code => exact Or.inl (.leave h (Or.inl rfl))
  | endOfStream => exact Or.inl (.leave h (Or.inl rfl))
  | failure reason => exact Or.inl (.leave h (Or.inr rfl))

theorem strides_judge {token : String} {ready : Instant} (h : c.IsAt (.validating token ready)) :
    Strides site c (c.reader.judge c.settings (site.service.validate token)) := by
  have hverdict : c.verdict? site.service = some (site.service.validate token) :=
    Connection.verdict?_of_validating site.service h
  cases hv : site.service.validate token with
  | error e =>
    rw [hv] at hverdict
    show Strides site c (c.reader.fail c.settings e)
    unfold Reader.fail
    split
    · rename_i he
      refine Or.inl (.violate h.1 (by simp [h.2]) he ?_ ?_)
      · intro e' he'
        rw [hverdict] at he'
        exact (Except.error.inj (Option.some.inj he')).symm
      · intro i hi
        rw [hverdict] at hi
        cases hi
    · rename_i he
      have he : e.isFatal = false := Bool.eq_false_iff.mpr he
      cases hsess : c.reader.session with
      | unauthenticated n =>
        rw [Reader.failHandshake_of_unauthenticated hsess]
        exact Or.inl (.refuse h hsess hv he)
      | authenticated i topics =>
        have hgo : c.reader.failHandshake c.settings e = c.reader.goOn .listening := by
          unfold Reader.failHandshake
          rw [hsess]
        rw [hgo]
        exact Or.inl (.ignore h hsess)
  | ok i =>
    rw [hv] at hverdict
    unfold Reader.judge
    dsimp only
    split
    · rename_i hq
      exact Or.inr ⟨_, rfl, .register h hv hq⟩
    · rename_i hq
      refine Or.inl (.violate h.1 (by simp [h.2]) rfl ?_ fun _ _ => ?_)
      · intro e' he'
        rw [hverdict] at he'
        cases he'
      · exact Bool.eq_false_iff.mpr hq

theorem strides_takeDecision {i : Identity} {channel : String} {rest : List String}
    {allowed : List Topic} (h : c.IsAt (.deciding i (channel :: rest) allowed)) :
    Strides site c (c.reader.takeDecision i channel rest allowed
      (site.directory.authorize i channel).1) := by
  cases hd : (site.directory.authorize i channel).1 with
  | allow t =>
    -- the topic that is allowed is the one that was named
    have hn : t.name = channel := Directory.name_of_authorize hd
    subst hn
    exact Or.inl (.allow h hd)
  | deny denial => exact Or.inl (.deny h hd)

theorem strides_conclude {i : Identity} {allowed : List Topic}
    (h : c.IsAt (.deciding i [] allowed)) : Strides site c (c.reader.conclude i allowed) := by
  unfold Reader.conclude
  split
  · rename_i hempty
    subst hempty
    exact Or.inl (.conclude h)
  · rename_i hne
    exact Or.inr ⟨_, rfl, .subscribe h hne⟩

theorem strides_learn {p : Purpose} {t : Ticket} {a : Answer} (h : c.IsAt (.awaiting p t))
    (ha : site.hub.answer? t = some a) : Strides site c (c.reader.learn c.settings p a) := by
  have hv : c.verdict? site.service = none :=
    Connection.verdict?_of_not_validating (by simp [h.2])
  by_cases hu : a = .unavailable
  · subst hu
    unfold Reader.learn
    exact strides_fatal h (by simp) hv rfl
  · unfold Reader.learn
    split
    · exact absurd rfl hu
    · exact Or.inl (.welcome h ha hu)
    · exact Or.inl (.lost h ha)
    · rename_i hf
      exact Or.inl (.subscribed h ha hu hf)
    · rename_i hf
      exact Or.inl (.unsubscribed h ha hu hf)

/-- What comes of the task, and what else a step of it does. -/
theorem strides_doTask? {c₁ : Connection} {site₁ : Site} (ho : c.reader.outgoing = [])
    (hr : ∀ p, c.reader.task ≠ .asking p) (h : c.doTask? site = some (c₁, site₁)) :
    Strides site c c₁.reader ∧ c₁.settings = c.settings ∧ c₁.queue = c.queue ∧
      c₁.phase = c.phase ∧ c₁.replies = c.replies ∧ site₁.hub = site.hub ∧
      (site₁.directory = site.directory ∨
        ∃ i channel rest allowed, c.IsAt (.deciding i (channel :: rest) allowed)) := by
  unfold Connection.doTask? at h
  dsimp only at h
  split at h
  · rename_i ht
    split at h
    · cases h
    · rename_i frame socket hs
      obtain ⟨rfl, rfl⟩ := Prod.mk.inj (Option.some.inj h)
      exact ⟨strides_hear ⟨ho, ht⟩ hs, rfl, rfl, rfl, rfl, rfl, Or.inl rfl⟩
  · rename_i token ready ht
    split at h
    · obtain ⟨rfl, rfl⟩ := Prod.mk.inj (Option.some.inj h)
      exact ⟨strides_judge ⟨ho, ht⟩, rfl, rfl, rfl, rfl, rfl, Or.inl rfl⟩
    · cases h
  · rename_i i channel rest allowed ht
    obtain ⟨rfl, rfl⟩ := Prod.mk.inj (Option.some.inj h)
    exact ⟨strides_takeDecision ⟨ho, ht⟩, rfl, rfl, rfl, rfl, rfl, Or.inr ⟨_, _, _, _, ho, ht⟩⟩
  · rename_i i allowed ht
    obtain ⟨rfl, rfl⟩ := Prod.mk.inj (Option.some.inj h)
    exact ⟨strides_conclude ⟨ho, ht⟩, rfl, rfl, rfl, rfl, rfl, Or.inl rfl⟩
  · rename_i p t ht
    split at h
    · cases h
    · rename_i a ha
      obtain ⟨rfl, rfl⟩ := Prod.mk.inj (Option.some.inj h)
      exact ⟨strides_learn ⟨ho, ht⟩ ha, rfl, rfl, rfl, rfl, rfl, Or.inl rfl⟩
  · rename_i p ht
    exact absurd ht (hr p)
  · cases h

/-- A reader does not stay about to ask. -/
theorem Stride.not_asking {asked : Option Purpose} {r : Reader} (h : Stride site c asked r)
    (hr : ∀ p, c.reader.task ≠ .asking p) (p : Purpose) : r.task ≠ .asking p := by
  intro hp
  cases h with
  | pass | skip => exact hr p hp
  | refuse =>
    rcases Settings.afterFailures_cases _ _ with ht | ht
    · cases ht.symm.trans hp
    · cases ht.symm.trans hp
  | leave | present | name | drop | ignore | register | allow | deny | conclude | subscribe
    | welcome | lost | subscribed | unsubscribed | violate => cases hp

section Origins

variable {asked : Option Purpose} {r : Reader}

/-- A reader passes something on, or is at a task that it has not finished. -/
theorem Stride.origin (h : Stride site c asked r) :
    (∃ m rest, c.reader.outgoing = m :: rest ∧ r = { c.reader with outgoing := rest }) ∨
      ∃ task, c.IsAt task ∧ ∀ why, task ≠ .finished why := by
  cases h with
  | pass ho => exact Or.inl ⟨_, _, ho, rfl⟩
  | skip _ hat | leave hat _ | present _ _ hat _ | name hat _ _ _ | drop _ hat _
    | refuse hat _ _ _ | ignore hat _ | register hat _ _ | allow hat _ | deny hat _
    | conclude hat | subscribe hat _ | welcome hat _ _ | lost hat _ | subscribed hat _ _ _
    | unsubscribed hat _ _ _ => exact Or.inr ⟨_, hat, by simp⟩
  | violate ho ht _ _ _ => exact Or.inr ⟨_, ⟨ho, rfl⟩, ht⟩

/-- A reader that has something to say does nothing else. -/
theorem Stride.of_outgoing (h : Stride site c asked r) {m : Message} {rest : List Message}
    (ho : c.reader.outgoing = m :: rest) : r = { c.reader with outgoing := rest } := by
  rcases h.origin with ⟨m', rest', ho', hr⟩ | ⟨task, hat, -⟩
  · rw [hr, (List.cons.inj (ho.symm.trans ho')).2]
  · rw [hat.1] at ho
    cases ho

/-- What comes of the judgement of a token. -/
theorem Stride.of_validating (h : Stride site c asked r) {token : String} {ready : Instant}
    (hat : c.IsAt (.validating token ready)) :
    (∃ n e, c.reader.session = .unauthenticated n ∧ site.service.validate token = .error e ∧
        e.isFatal = false ∧ asked = none ∧
        r = { c.reader with session := .unauthenticated (n + 1) }.say
          (.authError e.code e.message) (c.settings.afterFailures (n + 1))) ∨
      (∃ i topics, c.reader.session = .authenticated i topics) ∨
      (∃ i, site.service.validate token = .ok i ∧ asked = some (.registration i) ∧
        r = (c.reader.handOver (.registration i)).goOn
          (.awaiting (.registration i) site.hub.nextTicket)) ∨
      ∃ e, asked = none ∧ r = c.reader.violate e ∧
        (∀ e', site.service.validate token = .error e' → e'.isFatal = true) ∧
        ∀ i, site.service.validate token = .ok i → c.reader.holdsQueue = false := by
  have hv := Connection.verdict?_of_validating site.service hat
  cases h with
  | pass ho =>
    rw [hat.1] at ho
    cases ho
  | skip _ hat' | leave hat' _ | present _ _ hat' _ | name hat' _ _ _ | drop _ hat' _
    | allow hat' _ | deny hat' _ | conclude hat' | subscribe hat' _ | welcome hat' _ _
    | lost hat' _ | subscribed hat' _ _ _ | unsubscribed hat' _ _ _ =>
    cases hat.2.symm.trans hat'.2
  | refuse hat' hsess hrefused he =>
    obtain ⟨rfl, -⟩ := ReaderTask.validating.inj (hat.2.symm.trans hat'.2)
    exact Or.inl ⟨_, _, hsess, hrefused, he, rfl, rfl⟩
  | ignore _ hsess => exact Or.inr (Or.inl ⟨_, _, hsess⟩)
  | register hat' hok _ =>
    obtain ⟨rfl, -⟩ := ReaderTask.validating.inj (hat.2.symm.trans hat'.2)
    exact Or.inr (Or.inr (Or.inl ⟨_, hok, rfl, rfl⟩))
  | @violate e _ _ he herr hok =>
    refine Or.inr (Or.inr (Or.inr ⟨e, rfl, rfl, fun e' he' => ?_, fun i hi => hok i ?_⟩))
    · rw [herr e' (hv.trans (congrArg some he'))]
      exact he
    · exact hv.trans (congrArg some hi)

end Origins

/-! ## A step of the reader -/

variable {k : ConnectionId}

/-- The reader asks if that is what comes next, and then waits for the answer. -/
theorem submit_of_asking {c₁ : Connection} {p : Purpose} {r : Reader} (site : Site)
    (h : c₁.reader = r.goOn (.asking p)) :
    c₁.submit k site =
      ({ c₁ with reader := (r.handOver p).goOn (.awaiting p site.hub.nextTicket) },
        { site with hub := (site.hub.issue (p.request k c₁.queue)).2 }) := by
  unfold Connection.submit Reader.submit
  rw [h]
  cases p <;> rfl

theorem submit_of_not_asking {c₁ : Connection} (site : Site)
    (h : ∀ p, c₁.reader.task ≠ .asking p) : c₁.submit k site = (c₁, site) := by
  unfold Connection.submit Reader.submit
  cases ht : c₁.reader.task with
  | asking p => exact absurd ht (h p)
  | listening | validating | deciding | awaiting | finished => rfl

theorem asks?_of_doTask? {c₁ : Connection} {site₁ : Site} (hserv : c.isServing = true)
    (ho : c.reader.outgoing = []) (hd : c.doTask? site = some (c₁, site₁)) :
    c.asks? k site =
      match c₁.reader.task with
      | .asking p => some (p.request k c₁.queue)
      | _ => none := by
  unfold Connection.asks?
  rw [hserv, ho, hd]
  rfl

/-- What a step of the reader of `c` does. -/
structure Strode (k : ConnectionId) (c : Connection) (site : Site) (asked : Option Purpose)
    (c' : Connection) (site' : Site) : Prop where
  stride : Stride site c asked c'.reader
  settings : c'.settings = c.settings
  queue : c'.queue = c.queue
  phase : c'.phase = c.phase
  /-- A reply that is passed on goes to the writer, if there still is one. -/
  replies : c'.replies = c.replies ++
    if c.writer.isRunning then (c.reader.outgoing.head?.map site.hub.exchange.frame).toList else []
  asks : c.asks? k site = asked.map (·.request k c.queue)
  hub : site'.hub = asked.elim site.hub fun p => (site.hub.issue (p.request k c.queue)).2
  directory : site'.directory = site.directory ∨
    ∃ i channel rest allowed, c.IsAt (.deciding i (channel :: rest) allowed)

theorem strode_of_submit {c₁ c' : Connection} {site₁ site' : Site} (hserv : c.isServing = true)
    (ho : c.reader.outgoing = []) (hr : ∀ p, c.reader.task ≠ .asking p)
    (hd : c.doTask? site = some (c₁, site₁)) (h : c₁.submit k site₁ = (c', site')) :
    ∃ asked, Strode k c site asked c' site' := by
  obtain ⟨hstrides, hsettings, hqueue, hphase, hreplies, hhub, hdirectory⟩ :=
    strides_doTask? ho hr hd
  have hreplies : c₁.replies = c.replies ++ if c.writer.isRunning then
      (c.reader.outgoing.head?.map site.hub.exchange.frame).toList else [] := by
    rw [hreplies, ho]
    simp
  have hasks := asks?_of_doTask? (k := k) hserv ho hd
  rcases hstrides with hstride | ⟨p, hp, hstride⟩
  · have hna := hstride.not_asking hr
    rw [submit_of_not_asking site₁ hna] at h
    obtain ⟨rfl, rfl⟩ := Prod.mk.inj h
    refine ⟨none, hstride, hsettings, hqueue, hphase, hreplies, ?_, hhub, hdirectory⟩
    rw [hasks]
    split
    · rename_i p hp
      exact absurd hp (hna p)
    · rfl
  · have hask : c.asks? k site = some (p.request k c.queue) := by
      rw [hasks, hp, hqueue]
      rfl
    rw [submit_of_asking site₁ hp, hhub, hqueue] at h
    obtain ⟨rfl, rfl⟩ := Prod.mk.inj h
    exact ⟨some p, hstride, hsettings, rfl, hphase, hreplies, hask, rfl, hdirectory⟩

/-- **A step of a reader is one of its strides.** -/
theorem strode_of_step {c' : Connection} {site' : Site} (hr : ∀ p, c.reader.task ≠ .asking p)
    (h : c.stepReader? k site = some (c', site')) :
    c.isServing = true ∧ ∃ asked, Strode k c site asked c' site' := by
  unfold Connection.stepReader? at h
  split at h
  · cases h
  · rename_i hserv
    have hserv : c.isServing = true := by simpa using hserv
    refine ⟨hserv, ?_⟩
    split at h
    · -- replies are passed on before anything else is done
      rename_i m rest ho
      split at h
      · cases h
      · obtain ⟨rfl, rfl⟩ := Prod.mk.inj (Option.some.inj h)
        have hpass : (c.pass site m).settings = c.settings ∧ (c.pass site m).queue = c.queue ∧
            (c.pass site m).phase = c.phase ∧ (c.pass site m).replies = c.replies ++
              if c.writer.isRunning then [site.hub.exchange.frame m] else [] := by
          unfold Connection.pass
          split
          · exact ⟨rfl, rfl, rfl, rfl⟩
          · exact ⟨rfl, rfl, rfl, (List.append_nil _).symm⟩
        obtain ⟨hsettings, hqueue, hphase, hreplies⟩ := hpass
        refine ⟨none, .pass ho, hsettings, hqueue, hphase, ?_, ?_, rfl, Or.inl rfl⟩
        · rw [ho]
          exact hreplies
        · unfold Connection.asks?
          simp [ho]
    · rename_i ho
      split at h
      · cases h
      · rename_i c₁ site₁ hd
        exact strode_of_submit hserv ho hr hd (Option.some.inj h)

end Tasks

end Switchboard
