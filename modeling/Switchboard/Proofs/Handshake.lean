import Switchboard.Proofs.Departure
import Switchboard.Proofs.Life
import Switchboard.Token.Validator

/-!
# The handshake

How a client gets in. A token that is refused is answered and counted, one refusal too many ends the
reader, and the first token that is accepted is the last one that is judged: from then on there is
one identity, which is what the hub is told.

How far a handshake has got can be told from its judgements alone. `Stage` says what a reader is
about, given the refusals and the acceptances so far; a stride keeps it (`Stage.stride`), and
everything else in `Handshake` is read off it.
-/

namespace Switchboard

open Wire

/-! ## Judgements -/

/-- The error of a handshake that has failed and may be tried again. -/
def refusal? : Except Error Identity → Option Error
  | .error e => if e.isFatal then none else some e
  | .ok _ => none

/-- Whom a token was found to be of. -/
def acceptance? : Except Error Identity → Option Identity
  | .error _ => none
  | .ok i => some i

/-- The handshakes of a connection that have failed. -/
def refusals (k : ConnectionId) (past : List Moment) : List Error :=
  past.filterMap fun m => (m.verdict? k).bind refusal?

/-- The identities that tokens of a connection were found to be of. -/
def acceptances (k : ConnectionId) (past : List Moment) : List Identity :=
  past.filterMap fun m => (m.verdict? k).bind acceptance?

section Judgements

variable {k : ConnectionId} {past : List Moment} {m : Moment}

theorem refusals_snoc (k : ConnectionId) (past : List Moment) (m : Moment) :
    refusals k (past ++ [m]) = refusals k past ++ ((m.verdict? k).bind refusal?).toList :=
  filterMap_snoc (fun m : Moment => (m.verdict? k).bind refusal?) past m

theorem acceptances_snoc (k : ConnectionId) (past : List Moment) (m : Moment) :
    acceptances k (past ++ [m]) =
      acceptances k past ++ ((m.verdict? k).bind acceptance?).toList :=
  filterMap_snoc (fun m : Moment => (m.verdict? k).bind acceptance?) past m

theorem Moment.verdict?_of_ne (hm : m.move ≠ .act (.reader k)) : m.verdict? k = none :=
  ofReader?_of_ne hm

theorem refusals_of_not_acted (h : ∀ m ∈ past, m.move ≠ .act (.reader k)) :
    refusals k past = [] := by
  refine List.filterMap_eq_nil_iff.mpr fun m hm => ?_
  rw [Moment.verdict?_of_ne (h m hm)]
  rfl

theorem acceptances_of_not_acted (h : ∀ m ∈ past, m.move ≠ .act (.reader k)) :
    acceptances k past = [] := by
  refine List.filterMap_eq_nil_iff.mpr fun m hm => ?_
  rw [Moment.verdict?_of_ne (h m hm)]
  rfl

theorem refusal?_of_not_fatal {e : Error} (he : e.isFatal = false) :
    refusal? (.error e) = some e := if_neg (by simp [he])

theorem refusal?_of_fatal {e : Error} (he : e.isFatal = true) : refusal? (.error e) = none :=
  if_pos he

/-- Where nothing is judged, nothing is refused and nobody accepted. -/
theorem judged_of_none (past : List Moment) (hv : m.verdict? k = none) :
    refusals k (past ++ [m]) = refusals k past ∧
      acceptances k (past ++ [m]) = acceptances k past := by
  rw [refusals_snoc, acceptances_snoc, hv]
  exact ⟨List.append_nil _, List.append_nil _⟩

end Judgements

/-- How many handshakes may fail; the first failure is put up with in no case. -/
def Settings.patience (s : Settings) : Nat := max 1 s.maxAuthAttempts

/-- A reader goes on after a failure unless its patience is at an end. -/
theorem Settings.afterFailures_succ (s : Settings) {n : Nat} (h : n < s.patience) :
    (n + 1 < s.patience ∧ s.afterFailures (n + 1) = .listening) ∨
      (n + 1 = s.patience ∧ s.afterFailures (n + 1) = .finished .authAttemptsExhausted) := by
  unfold patience afterFailures at *
  split
  · exact Or.inr ⟨by omega, rfl⟩
  · exact Or.inl ⟨by omega, rfl⟩

/-! ## How far a handshake has got -/

/-- What a reader may be about before a token is accepted, after some failures. -/
def ReaderTask.Tries (limit failures : Nat) : ReaderTask → Prop
  | .listening | .validating .. => failures < limit
  | .finished why =>
    (why = .authAttemptsExhausted ∧ failures = limit) ∨
      (why ≠ .authAttemptsExhausted ∧ failures < limit)
  | .deciding .. | .asking _ | .awaiting .. => False

/-- What a reader may be about once a token has been accepted as an identity's. -/
def ReaderTask.Serves (i : Identity) (session : Session) : ReaderTask → Prop
  | .validating .. | .asking _ => False
  | .finished why => why ≠ .authAttemptsExhausted
  | .awaiting (.registration j) _ => j = i
  | .listening | .deciding .. | .awaiting .. => ∃ topics, session = .authenticated i topics

/-- A reader of which no token has been accepted, and the tokens that were `refused`. -/
structure Reader.Outside (limit : Nat) (refused : List Error) (r : Reader) : Prop where
  session : r.session = .unauthenticated refused.length
  holdsQueue : r.holdsQueue = true
  registered : r.registered = none
  task : r.task.Tries limit refused.length

/-- A reader of which a token has been accepted as an identity's, and the tokens that were `refused`
before. -/
structure Reader.Inside (limit : Nat) (refused : List Error) (i : Identity) (r : Reader) :
    Prop where
  bound : refused.length < limit
  holdsQueue : r.holdsQueue = false
  registered : r.registered = some i.userId
  identity : ∀ j topics, r.session = .authenticated j topics → j = i
  counted : ∀ n, r.session = .unauthenticated n → n = refused.length
  task : r.task.Serves i r.session

/--
`Stage limit refused r accepted`: the handshake of `r`, which may fail `limit` times, has got as far
as the tokens that were `refused` and `accepted`.
-/
inductive Stage (limit : Nat) (refused : List Error) (r : Reader) : List Identity → Prop
  | outside : r.Outside limit refused → Stage limit refused r []
  | inside {i : Identity} : r.Inside limit refused i → Stage limit refused r [i]

section Strides

variable {site : Site} {service : Service} {c : Connection} {asked : Option Purpose} {r : Reader}
  {limit : Nat} {refused : List Error} {accepted : List Identity} {i : Identity}
  {task : ReaderTask}

theorem Reader.Outside.tries (h : c.reader.Outside limit refused) (hat : c.IsAt task) :
    task.Tries limit refused.length := hat.2 ▸ h.task

theorem Reader.Inside.serves (h : c.reader.Inside limit refused i) (hat : c.IsAt task) :
    task.Serves i c.reader.session := hat.2 ▸ h.task

/-- Once a token has been accepted none is judged. -/
theorem Reader.Inside.unjudged (h : c.reader.Inside limit refused i) :
    c.verdict? service = none := by
  refine Connection.verdict?_of_not_validating fun token ready ht => ?_
  have htask := h.task
  rw [ht] at htask
  exact htask

/-- Whoever is inside stays inside. -/
theorem Reader.Inside.stride (h : c.reader.Inside limit refused i)
    (hs : Stride site c asked r) : r.Inside limit refused i := by
  have judging : ∀ {token ready}, ¬ c.IsAt (.validating token ready) := fun hat => h.serves hat
  obtain ⟨hlt, hq, hreg, hid, hn, htask⟩ := id h
  cases hs with
  | pass _ => exact ⟨hlt, hq, hreg, hid, hn, htask⟩
  | skip _ _ => exact h
  | leave _ hwhy =>
    refine ⟨hlt, hq, hreg, hid, hn, ?_⟩
    rcases hwhy with rfl | rfl
    · exact Termination.noConfusion
    · exact Termination.noConfusion
  | present _ _ hat hsess =>
    -- whoever is inside and listens has authenticated
    obtain ⟨topics, hsess'⟩ := h.serves hat
    rw [hsess] at hsess'
    cases hsess'
  | refuse hat _ _ _ | ignore hat _ | register hat _ _ => exact absurd hat judging
  | name hat _ _ _ | drop _ hat _ | allow hat _ | deny hat _ | conclude hat | subscribe hat _ =>
    have ht := h.serves hat
    exact ⟨hlt, hq, hreg, hid, hn, ht⟩
  | welcome hat _ _ =>
    obtain rfl : _ = i := h.serves hat
    refine ⟨hlt, hq, hreg, fun j topics hj => ?_, fun n hn => ?_, ⟨[], rfl⟩⟩
    · exact (Session.authenticated.inj hj).1.symm
    · cases hn
  | lost _ _ => exact ⟨hlt, hq, hreg, hid, hn, Termination.noConfusion⟩
  | subscribed hat _ _ _ | unsubscribed hat _ _ _ =>
    obtain ⟨topics, hsess⟩ := h.serves hat
    refine ⟨hlt, hq, hreg, fun j topics' hj => ?_, fun n hn' => ?_, ?_⟩
    · obtain ⟨_, hj'⟩ := session_updateTopics hj
      exact hid j _ hj'
    · dsimp only [Reader.say] at hn'
      rw [hsess] at hn'
      cases hn'
    · show ∃ topics', c.reader.session.updateTopics _ = .authenticated i topics'
      rw [hsess]
      exact ⟨_, rfl⟩
  | violate => exact ⟨hlt, hq, hreg, hid, hn, Termination.noConfusion⟩

section Outside

variable (h : c.reader.Outside c.settings.patience refused)

include h

theorem Reader.Outside.violate (ho : c.reader.outgoing = [])
    (hf : ∀ why, c.reader.task ≠ .finished why) (e : Error) :
    (c.reader.violate e).Outside c.settings.patience refused := by
  have hlt : refused.length < c.settings.patience := by
    cases ht : c.reader.task with
    | listening | validating => exact h.tries ⟨ho, ht⟩
    | finished why => exact absurd ht (hf why)
    | deciding | asking | awaiting => exact (h.tries ⟨ho, ht⟩).elim
  exact ⟨h.session, h.holdsQueue, h.registered, Or.inr ⟨Termination.noConfusion, hlt⟩⟩

/-- Whoever is outside stays there as long as no token is judged. -/
theorem Reader.Outside.stays (hs : Stride site c asked r)
    (hv : c.verdict? site.service = none) : r.Outside c.settings.patience refused := by
  have unknown : ∀ {i topics}, c.reader.session ≠ .authenticated i topics := by
    intro i topics hsess
    rw [h.session] at hsess
    cases hsess
  obtain ⟨hsess, hq, hreg, htask⟩ := id h
  cases hs with
  | pass _ => exact ⟨hsess, hq, hreg, htask⟩
  | skip _ _ => exact h
  | leave hat hwhy =>
    refine ⟨hsess, hq, hreg, Or.inr ⟨?_, h.tries hat⟩⟩
    rcases hwhy with rfl | rfl
    · exact Termination.noConfusion
    · exact Termination.noConfusion
  | present _ _ hat _ =>
    have ht := h.tries hat
    exact ⟨hsess, hq, hreg, ht⟩
  | name _ hauth _ _ | drop _ _ hauth | ignore _ hauth => exact absurd hauth unknown
  | refuse hat _ _ _ | register hat _ _ =>
    rw [Connection.verdict?_of_validating site.service hat] at hv
    cases hv
  | allow hat _ | deny hat _ | conclude hat | subscribe hat _ | welcome hat _ _ | lost hat _
    | subscribed hat _ _ _ | unsubscribed hat _ _ _ => exact (h.tries hat).elim
  | violate ho hf _ _ _ => exact h.violate ho hf _

/-- One failure more leaves the reader outside, at the end of its patience or not. -/
theorem Reader.Outside.refuse {token : String} {ready : Instant}
    (hat : c.IsAt (.validating token ready)) {n : Nat}
    (hn : c.reader.session = .unauthenticated n) (e : Error) :
    ({ c.reader with session := .unauthenticated (n + 1) }.say (.authError e.code e.message)
      (c.settings.afterFailures (n + 1))).Outside c.settings.patience (refused ++ [e]) := by
  obtain rfl := Session.unauthenticated.inj (hn.symm.trans h.session)
  have hlength : (refused ++ [e]).length = refused.length + 1 := by simp
  refine ⟨congrArg _ hlength.symm, h.holdsQueue, h.registered, ?_⟩
  rw [hlength]
  show (c.settings.afterFailures _).Tries _ _
  rcases c.settings.afterFailures_succ (h.tries hat) with ⟨hlt, ht⟩ | ⟨heq, ht⟩
  · rw [ht]
    exact hlt
  · rw [ht]
    exact Or.inl ⟨rfl, heq⟩

/-- Whoever is accepted is inside. -/
theorem Reader.Outside.register {token : String} {ready : Instant}
    (hat : c.IsAt (.validating token ready)) (i : Identity) (t : Ticket) :
    ((c.reader.handOver (.registration i)).goOn (.awaiting (.registration i) t)).Inside
      c.settings.patience refused i := by
  have hsess := h.session
  refine ⟨h.tries hat, rfl, rfl, fun j topics hj => ?_, fun n hn => ?_, rfl⟩
  · cases hsess.symm.trans hj
  · exact (Session.unauthenticated.inj (hsess.symm.trans hn)).symm

/-- What a stride makes of whoever is outside. -/
theorem Reader.Outside.stride (hs : Stride site c asked r) :
    Stage c.settings.patience (refused ++ ((c.verdict? site.service).bind refusal?).toList) r
      ((c.verdict? site.service).bind acceptance?).toList := by
  cases hv : c.verdict? site.service with
  | none =>
    show Stage _ (refused ++ []) _ []
    rw [List.append_nil]
    exact .outside (h.stays hs hv)
  | some verdict =>
    obtain ⟨token, ready, hat, rfl⟩ := Connection.verdict?_eq_some hv
    rcases hs.of_validating hat with ⟨n, e, hn, herr, he, -, rfl⟩ | ⟨i, topics, hsess⟩ |
      ⟨i, hok, -, rfl⟩ | ⟨e, -, rfl, herr, hok⟩
    · rw [herr, Option.bind_some, refusal?_of_not_fatal he]
      exact .outside (h.refuse hat hn e)
    · rw [h.session] at hsess
      cases hsess
    · rw [hok]
      show Stage _ (refused ++ []) _ [i]
      rw [List.append_nil]
      exact .inside (h.register hat i _)
    · have hout := h.violate hat.1 (by simp [hat.2]) e
      cases hj : site.service.validate token with
      | error e' =>
        rw [Option.bind_some, refusal?_of_fatal (herr e' hj)]
        show Stage _ (refused ++ []) _ []
        rw [List.append_nil]
        exact .outside hout
      | ok i =>
        -- the queue has not been handed over
        have := hok i hj
        rw [h.holdsQueue] at this
        cases this

end Outside

/-- Whoever's token is judged is outside. -/
theorem Stage.outside_of_verdict (h : Stage limit refused c.reader accepted)
    {verdict : Except Error Identity} (hv : c.verdict? service = some verdict) :
    c.reader.Outside limit refused := by
  cases h with
  | outside h => exact h
  | inside h =>
    rw [h.unjudged] at hv
    cases hv

/-- What a stride makes of a handshake. -/
theorem Stage.stride (h : Stage c.settings.patience refused c.reader accepted)
    (hs : Stride site c asked r) :
    Stage c.settings.patience (refused ++ ((c.verdict? site.service).bind refusal?).toList) r
      (accepted ++ ((c.verdict? site.service).bind acceptance?).toList) := by
  cases h with
  | outside h => exact h.stride hs
  | inside h =>
    rw [h.unjudged]
    show Stage _ (refused ++ []) _ (_ ++ [])
    rw [List.append_nil, List.append_nil]
    exact .inside (h.stride hs)

end Strides

/-! ## What is answered -/

/-- A reply that a handshake has failed. -/
def Wire.Message.isAuthError : Message → Bool
  | .authError .. => true
  | _ => false

/-- The reply that a handshake has failed with an error. -/
def Error.authError (e : Error) : Message := .authError e.code e.message

section Answers

variable {site site' : Site} {k : ConnectionId} {c c' : Connection} {asked : Option Purpose}
  {r : Reader} {limit : Nat} {refused : List Error}

/-- Where no token is judged, no reply says that a handshake has failed. -/
theorem Stride.unjudged (h : Stride site c asked r) (ho : c.reader.outgoing = [])
    (hv : c.verdict? site.service = none) : r.outgoing.filter Message.isAuthError = [] := by
  cases h with
  | pass ho' =>
    rw [ho'] at ho
    cases ho
  | skip | leave | present | name | drop | ignore | register | allow | conclude | subscribe
    | lost =>
    show c.reader.outgoing.filter Message.isAuthError = []
    rw [ho]
    rfl
  | deny | welcome | subscribed | unsubscribed | violate => rfl
  | refuse hat _ _ _ =>
    rw [Connection.verdict?_of_validating site.service hat] at hv
    cases hv

/-- A stride replies that a handshake has failed when it has, and at no other time. -/
theorem Stride.answers (hsound : c.reader.Sound) (h : Stride site c asked r)
    (ho : c.reader.outgoing = []) :
    r.outgoing.filter Message.isAuthError =
      ((c.verdict? site.service).bind refusal?).toList.map Error.authError := by
  cases hv : c.verdict? site.service with
  | none => exact h.unjudged ho hv
  | some verdict =>
    obtain ⟨token, ready, hat, rfl⟩ := Connection.verdict?_eq_some hv
    rcases h.of_validating hat with ⟨n, e, -, herr, he, -, rfl⟩ | ⟨i, topics, hsess⟩ |
      ⟨i, hok, -, rfl⟩ | ⟨e, -, rfl, herr, -⟩
    · rw [herr, Option.bind_some, refusal?_of_not_fatal he]
      rfl
    · -- of a client that has authenticated no token is judged
      obtain ⟨n, hn⟩ := hsound.suits hat
      cases hsess.symm.trans hn
    · rw [hok]
      show c.reader.outgoing.filter Message.isAuthError = []
      rw [ho]
      rfl
    · cases hj : site.service.validate token with
      | error e' =>
        rw [Option.bind_some, refusal?_of_fatal (herr e' hj)]
        rfl
      | ok i => rfl

/-- Until a token is accepted neither the hub nor the directory is asked anything. -/
theorem Reader.Outside.silent (h : c.reader.Outside limit refused)
    (hs : Strode k c site asked c' site')
    (hv : (c.verdict? site.service).bind acceptance? = none) :
    asked = none ∧ site'.directory = site.directory := by
  constructor
  · cases asked with
    | none => rfl
    | some p =>
      have hstride := hs.stride
      generalize c'.reader = r at hstride
      cases hstride with
      | drop _ _ hsess =>
        rw [h.session] at hsess
        cases hsess
      | register hat hok _ =>
        rw [Connection.verdict?_of_validating _ hat, hok] at hv
        cases hv
      | subscribe hat _ => exact (h.tries hat).elim
  · rcases hs.directory with hsame | ⟨i, channel, rest, allowed, hat⟩
    · exact hsame
    · exact (h.tries hat).elim

/-- What a reader asks when a token is accepted. -/
theorem Reader.Outside.registers (h : c.reader.Outside limit refused)
    (hs : Strode k c site asked c' site') {i : Identity}
    (hv : c.verdict? site.service = some (.ok i)) : asked = some (.registration i) := by
  obtain ⟨token, ready, hat, hok⟩ := Connection.verdict?_eq_some hv
  rcases hs.stride.of_validating hat with ⟨n, e, -, herr, -⟩ | ⟨j, topics, hsess⟩ |
    ⟨j, hok', hasked, -⟩ | ⟨e, -, -, -, hqueue⟩
  · cases hok.symm.trans herr
  · cases h.session.symm.trans hsess
  · rw [hasked, Except.ok.inj (hok.symm.trans hok')]
  · cases h.holdsQueue.symm.trans (hqueue i hok)

end Answers

/-! ## Single steps -/

/-- The control frame that a reader takes up next. -/
def Connection.reads? (c : Connection) : Option ControlFrame :=
  match c.hears? with
  | some (.text text) =>
    if c.settings.maxFrameBytes < text.utf8ByteSize then none
    else (ControlFrame.decode text).toOption
  | _ => none

section Steps

variable {site site' : Site} {k : ConnectionId} {c c' : Connection}

theorem Connection.reads?_eq_some {frame : ControlFrame} (h : c.reads? = some frame) :
    c.IsAt .listening ∧ ∃ text socket, c.socket.receive? = some (.text text, socket) ∧
      text.utf8ByteSize ≤ c.settings.maxFrameBytes ∧ ControlFrame.decode text = .ok frame := by
  unfold reads? at h
  split at h
  · rename_i text hhears
    split at h
    · cases h
    · rename_i hsize
      have hdecode : ControlFrame.decode text = .ok frame := by
        cases hd : ControlFrame.decode text with
        | error e =>
          rw [hd] at h
          cases h
        | ok frame' =>
          rw [hd] at h
          exact congrArg _ (Option.some.inj h)
      obtain ⟨hat, socket, hreceive⟩ := hears?_eq_some hhears
      exact ⟨hat, text, socket, hreceive, Nat.le_of_not_lt hsize, hdecode⟩
  · cases h

/-- A step of a reader that is at a task. -/
theorem stepReader?_of_isAt {task : ReaderTask} (hat : c.IsAt task)
    (h : c.stepReader? k site = some (c', site')) :
    ∃ c₁ site₁, c.doTask? site = some (c₁, site₁) ∧ c₁.submit k site₁ = (c', site') := by
  unfold Connection.stepReader? at h
  rw [hat.1] at h
  split at h
  · cases h
  · dsimp only at h
    split at h
    · cases h
    · rename_i c₁ site₁ hd
      exact ⟨c₁, site₁, hd, Option.some.inj h⟩

/-- A handshake that fails is answered and counted, and nothing else changes. -/
theorem stepReader?_of_refusal {token : String} {ready : Instant} {n : Nat} {e : Error}
    (hat : c.IsAt (.validating token ready)) (hsess : c.reader.session = .unauthenticated n)
    (hv : site.service.validate token = .error e) (he : e.isFatal = false)
    (h : c.stepReader? k site = some (c', site')) :
    c' = { c with reader := { c.reader with
          session := .unauthenticated (n + 1), outgoing := [e.authError],
          task := c.settings.afterFailures (n + 1) } } ∧ site' = site := by
  obtain ⟨c₁, site₁, hd, hsubmit⟩ := stepReader?_of_isAt hat h
  unfold Connection.doTask? at hd
  rw [hat.2] at hd
  dsimp only at hd
  split at hd
  · obtain ⟨rfl, rfl⟩ := Prod.mk.inj (Option.some.inj hd)
    have hjudge : c.reader.judge c.settings (.error e) =
        { c.reader with session := .unauthenticated (n + 1) }.say e.authError
          (c.settings.afterFailures (n + 1)) :=
      (if_neg (by simp [he])).trans
        (Reader.failHandshake_of_unauthenticated hsess c.settings e)
    rw [hv, hjudge, submit_of_not_asking] at hsubmit
    · obtain ⟨rfl, rfl⟩ := Prod.mk.inj hsubmit
      exact ⟨rfl, rfl⟩
    · intro p hp
      rcases c.settings.afterFailures_cases (n + 1) with ht | ht
      · cases ht.symm.trans hp
      · cases ht.symm.trans hp
  · cases hd

/-- A second handshake ends the connection. -/
theorem stepReader?_of_reauth {token : String} {i : Identity} {topics : List Topic}
    (hr : c.reads? = some (.auth token)) (hsess : c.reader.session = .authenticated i topics)
    (h : c.stepReader? k site = some (c', site')) :
    c'.reader = c.reader.violate Reader.alreadyAuthenticated ∧ site' = site := by
  obtain ⟨hat, text, socket, hreceive, hsize, hdecode⟩ := Connection.reads?_eq_some hr
  obtain ⟨c₁, site₁, hd, hsubmit⟩ := stepReader?_of_isAt hat h
  have hhear : c.reader.hear c.settings site.now site.service.validationTime (.text text) =
      c.reader.violate Reader.alreadyAuthenticated := by
    unfold Reader.hear Reader.hearText Reader.obey
    dsimp only
    rw [if_neg (Nat.not_lt.mpr hsize), hdecode]
    dsimp only
    rw [hsess]
    rfl
  unfold Connection.doTask? at hd
  rw [hat.2] at hd
  dsimp only at hd
  rw [hreceive] at hd
  dsimp only at hd
  rw [hhear] at hd
  obtain ⟨rfl, rfl⟩ := Prod.mk.inj (Option.some.inj hd)
  rw [submit_of_not_asking _ (by simp [Reader.violate, Reader.say])] at hsubmit
  obtain ⟨rfl, rfl⟩ := Prod.mk.inj hsubmit
  exact ⟨rfl, rfl⟩

/-- A reader that has finished takes up nothing. -/
theorem stepReader?_of_finished {why : Termination} (hf : c.reader.task = .finished why)
    (h : c.stepReader? k site = some (c', site')) :
    c'.socket = c.socket ∧ c'.reader = { c.reader with outgoing := c.reader.outgoing.tail } ∧
      site' = site := by
  unfold Connection.stepReader? at h
  split at h
  · cases h
  · split at h
    · rename_i m rest ho
      split at h
      · cases h
      · obtain ⟨rfl, rfl⟩ := Prod.mk.inj (Option.some.inj h)
        rw [ho]
        refine ⟨?_, rfl, rfl⟩
        show (c.pass site m).socket = c.socket
        unfold Connection.pass
        split <;> rfl
    · split at h
      · cases h
      · rename_i hd
        unfold Connection.doTask? at hd
        rw [hf] at hd
        cases hd

theorem directory_stepEnd? {half : Connection.Half}
    (h : c.stepEnd? k half site = some (c', site')) :
    site'.directory = site.directory := by
  unfold Connection.stepEnd? at h
  split at h
  · cases half with
    | writer | reader =>
      obtain ⟨why, -, heq⟩ := Option.map_eq_some_iff.mp h
      exact (congrArg (·.2.directory) heq).symm
  · split at h
    · exact (congrArg (·.2.directory) (Option.some.inj h)).symm
    · split at h
      · exact (congrArg (·.2.directory) (Option.some.inj h)).symm
      · cases h
  · cases h
  · cases h

end Steps

/-! ## Bearer tokens -/

namespace Token

variable {secret : Option String} {now : UnixTime} {token : String}

/-- A bearer token is refused for what it is, with or without a secret. -/
theorem fault_of_validate {e : Error} (h : validate secret now token = .error e) :
    ∃ fault, e.fault = .auth fault := by
  unfold validate at h
  split at h
  · exact ⟨_, congrArg Error.fault (Except.error.inj h).symm⟩
  · split at h
    · exact ⟨_, congrArg Error.fault (Except.error.inj h).symm⟩
    · split at h
      · exact ⟨_, congrArg Error.fault (Except.error.inj h).symm⟩
      · split at h
        · exact ⟨_, congrArg Error.fault (Except.error.inj h).symm⟩
        · split at h
          · exact ⟨_, congrArg Error.fault (Except.error.inj h).symm⟩
          · split at h
            · exact ⟨_, congrArg Error.fault (Except.error.inj h).symm⟩
            · cases h

/-- Whoever is let in by a bearer token has a name for the hub. -/
theorem userId_of_validate {i : Identity} (h : validate secret now token = .ok i) :
    i.userId ≠ "" := by
  unfold validate at h
  split at h
  · cases h
  · split at h
    · cases h
    · split at h
      · cases h
      · split at h
        · cases h
        · split at h
          · cases h
          · split at h
            · cases h
            · rename_i hsubject
              rw [← Except.ok.inj h]
              exact hsubject

end Token

/-! ## Over a course -/

/-- A step of a connection's own. -/
def Move.IsOf (m : Move) (k : ConnectionId) : Prop :=
  m = .act (.reader k) ∨ (∃ missed, m = .act (.writer k missed)) ∨
    ∃ half, m = .act (.client k half)

/-- What holds of the handshake of connection `k`, which has become `c` in the world `w`. -/
structure Handshake (past : List Moment) (w : World) (k : ConnectionId) (c : Connection) :
    Prop where
  /-- Until a token is accepted nothing is asked for the connection, neither of the hub nor of the
  directory. -/
  silent : ∀ m v, w.move? m = some v → m.IsOf k → acceptances k (past ++ [⟨w, m⟩]) = [] →
    Moment.request? ⟨w, m⟩ = none ∧ v.site.directory = w.site.directory
  /-- A handshake that fails is answered and counted, and nothing else changes. -/
  refused : ∀ v e, w.act? (.reader k) = some v →
    Moment.verdict? ⟨w, .act (.reader k)⟩ k = some (.error e) → e.isFatal = false →
    ∃ n, c.reader.session = .unauthenticated n ∧
      v = w.putBack k ({ c with reader := { c.reader with
        session := .unauthenticated (n + 1), outgoing := [e.authError],
        task := c.settings.afterFailures (n + 1) } }, w.site)
  /-- Every failure has had one answer, with its code, and there are no other such answers. -/
  answered : (uttered k past c).filter Message.isAuthError =
    (refusals k past).map Error.authError
  counted : ∀ n, c.reader.session = .unauthenticated n → n = (refusals k past).length
  /-- The count can be kept in 32 bits if the limit can. -/
  fits : c.settings.maxAuthAttempts < UInt32.size →
    ∀ n, c.reader.session = .unauthenticated n → n < UInt32.size
  bounded : (refusals k past).length ≤ max 1 c.settings.maxAuthAttempts
  /-- The reader gives up at the last failure that it puts up with, and at no other time. -/
  exhausted : c.reader.task = .finished .authAttemptsExhausted ↔
    (refusals k past).length = max 1 c.settings.maxAuthAttempts
  /-- When it has given up it only passes on what it has said. -/
  deaf : (refusals k past).length = max 1 c.settings.maxAuthAttempts →
    ∀ v, w.act? (.reader k) = some v → ∃ c', v = w.putBack k (c', w.site) ∧
      c'.socket = c.socket ∧ c'.reader = { c.reader with outgoing := c.reader.outgoing.tail }
  /-- The hub is asked to take in whoever has been accepted. -/
  registers : ∀ v i, w.act? (.reader k) = some v →
    Moment.verdict? ⟨w, .act (.reader k)⟩ k = some (.ok i) →
    Moment.request? ⟨w, .act (.reader k)⟩ = some (.register ⟨k, i, c.queue⟩)
  once : (acceptances k past).length ≤ 1
  session : ∀ i topics, c.reader.session = .authenticated i topics → acceptances k past = [i]
  registered : ∀ reg, .register reg ∈ ledger past → reg.connection = k →
    acceptances k past = [reg.identity]
  listed : ∀ e ∈ w.site.hub.exchange.registry, e.connection = k →
    acceptances k past = [e.identity]
  /-- Once a token has been accepted none is judged any more. -/
  settled : acceptances k past ≠ [] → ∀ m, Moment.verdict? ⟨w, m⟩ k = none
  /-- Another handshake ends the connection. -/
  again : acceptances k past ≠ [] → ∀ v token, c.reads? = some (.auth token) →
    w.act? (.reader k) = some v → ∃ c', v = w.putBack k (c', w.site) ∧
      c'.reader = c.reader.violate Reader.alreadyAuthenticated

section Courses

variable {callers : Request → Prop} {past : List Moment} {w v : World} {service : Service}
  {now : Instant} {clock : Time.Timestamp} {k : ConnectionId} {c : Connection}

theorem Course.stage (h : Course callers (.start service now clock) past w)
    (hk : w.connections[k]? = some c) :
    Stage c.settings.patience (refusals k past) c.reader (acceptances k past) := by
  refine h.life (P := fun past c =>
    Stage c.settings.patience (refusals k past) c.reader (acceptances k past)) ?_ ?_ ?_ hk
  · intro past c hstart hne
    rw [refusals_of_not_acted hne, acceptances_of_not_acted hne, hstart]
    exact .outside ⟨rfl, rfl, rfl, Nat.lt_of_lt_of_le Nat.one_pos (Nat.le_max_left _ _)⟩
  · intro past m c asked c' site hm hc hs hstage
    have hv : m.verdict? k = c.verdict? m.world.site.service := Moment.ofReader?_of_act hm hc
    rw [refusals_snoc, acceptances_snoc, hv, hs.settings]
    exact hstage.stride hs.stride
  · intro past m c c' hm hg hstage
    obtain ⟨hrefusals, hacceptances⟩ := judged_of_none past (Moment.verdict?_of_ne hm)
    rw [hrefusals, hacceptances, hg.settings, hg.reader]
    exact hstage

theorem Course.answered (h : Course callers (.start service now clock) past w)
    (hk : w.connections[k]? = some c) : (uttered k past c).filter Message.isAuthError =
      (refusals k past).map Error.authError := by
  refine (h.life (P := fun past c => c.reader.Sound ∧
    (uttered k past c).filter Message.isAuthError = (refusals k past).map Error.authError)
    ?_ ?_ ?_ hk).2
  · intro past c hstart hne
    rw [uttered_of_start hne hstart, refusals_of_not_acted hne, hstart]
    exact ⟨trivial, rfl⟩
  · intro past m c asked c' site hm hc hs ⟨hsound, hanswered⟩
    refine ⟨hs.stride.sound hsound, ?_⟩
    have hv : m.verdict? k = c.verdict? m.world.site.service := Moment.ofReader?_of_act hm hc
    rw [refusals_snoc, hv, List.map_append, ← hanswered]
    rcases uttered_of_stride past hm hc hs.stride with ⟨m', rest, ho, -, hu⟩ | ⟨ho, hu⟩
    · have hnone : c.verdict? m.world.site.service = none := by
        unfold Connection.verdict?
        rw [ho]
      rw [hu, hnone]
      exact (List.append_nil _).symm
    · rw [hu, List.filter_append, hs.stride.answers hsound ho]
  · intro past m c c' hm hg ⟨hsound, hanswered⟩
    have hrefusals := (judged_of_none past (Moment.verdict?_of_ne hm)).1
    rw [uttered_of_goesOn hm hg, hrefusals, hg.reader]
    exact ⟨hsound, hanswered⟩

/-- Whoever asks to be taken in has been validated. -/
theorem Course.validated (hr : RegistersNobody callers)
    (h : Course callers (.start service now clock) past w) {reg : Registration}
    (hreg : .register reg ∈ ledger past) : ∃ m ∈ past, m.Validates reg.connection reg.identity := by
  induction h with
  | start => cases hreg
  | @move past u v m hcourse hcall hmove ih =>
    rw [ledger_snoc] at hreg
    rcases List.mem_append.mp hreg with hreg | hreg
    · obtain ⟨m', hm', hval⟩ := ih hreg
      exact ⟨m', List.mem_append_left _ hm', hval⟩
    · obtain ⟨s, s', hnew⟩ := (effect_of_move hcourse.calm hmove).registers
        (fun r hr' => hr r (hcall r hr')) (Option.mem_toList.mp hreg)
      exact ⟨⟨u, m⟩, List.mem_append_right _ List.mem_cons_self, hnew.validates⟩

theorem mem_acceptances {m : Moment} {i : Identity} (hm : m ∈ past) (hv : m.Validates k i) :
    i ∈ acceptances k past := by
  obtain ⟨c, token, ready, ⟨hmove, hc, -, ho⟩, ht, hok⟩ := hv
  have hverdict : m.verdict? k = some (.ok i) := by
    have : m.verdict? k = c.verdict? m.world.site.service := Moment.ofReader?_of_act hmove hc
    rw [this, Connection.verdict?_of_validating _ ⟨ho, ht⟩, hok]
  refine List.mem_filterMap.mpr ⟨m, hm, ?_⟩
  rw [hverdict]
  rfl

/-- Until a token is accepted no step of the connection asks anything. -/
theorem Course.silent (h : Course callers (.start service now clock) past w)
    (hk : w.connections[k]? = some c) {m : Move} (hmove : w.move? m = some v) (hm : m.IsOf k)
    (hnone : acceptances k (past ++ [⟨w, m⟩]) = []) :
    Moment.request? ⟨w, m⟩ = none ∧ v.site.directory = w.site.directory := by
  have hstage := h.stage hk
  rw [acceptances_snoc] at hnone
  obtain ⟨hbefore, hnow⟩ := List.append_eq_nil_iff.mp hnone
  rw [hbefore] at hstage
  cases hstage with
  | outside hout =>
    rcases hm with rfl | ⟨missed, rfl⟩ | ⟨half, rfl⟩
    · obtain ⟨c', site, hstep, rfl, -⟩ := stepReader?_of_act? hmove hk
      obtain ⟨-, asked, hs⟩ := strode_of_step (h.calm k _ (stand?_of_connection hk)) hstep
      have hv : Moment.verdict? ⟨w, .act (.reader k)⟩ k = c.verdict? w.site.service :=
        Moment.ofReader?_of_act rfl hk
      rw [hv] at hnow
      obtain ⟨rfl, hdirectory⟩ := hout.silent hs (Option.toList_eq_nil_iff.mp hnow)
      refine ⟨?_, hdirectory⟩
      show (w.connections[k]?).bind _ = none
      rw [hk, Option.bind_some, hs.asks]
      rfl
    · obtain ⟨c₀, -, hmove⟩ := Option.bind_eq_some_iff.mp hmove
      obtain ⟨_, -, rfl⟩ := Option.map_eq_some_iff.mp hmove
      exact ⟨rfl, rfl⟩
    · obtain ⟨c₀, hc₀, hmove⟩ := Option.bind_eq_some_iff.mp hmove
      obtain rfl := Option.some.inj (hc₀.symm.trans hk)
      obtain ⟨⟨c', site⟩, hstep, rfl⟩ := Option.map_eq_some_iff.mp hmove
      refine ⟨?_, directory_stepEnd? hstep⟩
      show (w.connections[k]?).bind _ = none
      rw [hk, Option.bind_some]
      unfold Connection.farewell?
      rw [hout.registered]
      split <;> rfl

namespace Stage

variable {limit : Nat} {refused : List Error} {r : Reader} {accepted : List Identity}

theorem counted (h : Stage limit refused r accepted) {n : Nat}
    (hn : r.session = .unauthenticated n) : n = refused.length := by
  cases h with
  | outside h => exact Session.unauthenticated.inj (hn.symm.trans h.session)
  | inside h => exact h.counted n hn

theorem bounded (h : Stage limit refused r accepted) : refused.length ≤ limit := by
  cases h with
  | inside h => exact Nat.le_of_lt h.bound
  | outside h =>
    have htask := h.task
    unfold ReaderTask.Tries at htask
    split at htask
    · exact Nat.le_of_lt htask
    · exact Nat.le_of_lt htask
    · rcases htask with ⟨-, heq⟩ | ⟨-, hlt⟩
      · exact Nat.le_of_eq heq
      · exact Nat.le_of_lt hlt
    all_goals exact htask.elim

theorem exhausted (h : Stage limit refused r accepted) :
    r.task = .finished .authAttemptsExhausted ↔ refused.length = limit := by
  cases h with
  | inside h =>
    constructor
    · intro ht
      have htask := h.task
      rw [ht] at htask
      exact absurd rfl htask
    · intro heq
      exact absurd heq (Nat.ne_of_lt h.bound)
  | outside h =>
    have htask := h.task
    constructor
    · intro ht
      rw [ht] at htask
      rcases htask with ⟨-, heq⟩ | ⟨hne, -⟩
      · exact heq
      · exact absurd rfl hne
    · intro heq
      unfold ReaderTask.Tries at htask
      split at htask
      · exact absurd heq (Nat.ne_of_lt htask)
      · exact absurd heq (Nat.ne_of_lt htask)
      · rename_i why ht
        rcases htask with ⟨rfl, -⟩ | ⟨-, hlt⟩
        · exact ht
        · exact absurd heq (Nat.ne_of_lt hlt)
      all_goals exact htask.elim

theorem once (h : Stage limit refused r accepted) : accepted.length ≤ 1 := by
  cases h with
  | outside => exact Nat.zero_le 1
  | inside => exact Nat.le_refl 1

theorem eq_of_mem (h : Stage limit refused r accepted) {i : Identity} (hi : i ∈ accepted) :
    accepted = [i] := by
  cases h with
  | outside => cases hi
  | inside => rw [List.mem_singleton.mp hi]

theorem session (h : Stage limit refused r accepted) {i : Identity} {topics : List Topic}
    (hs : r.session = .authenticated i topics) : accepted = [i] := by
  cases h with
  | outside h =>
    rw [h.session] at hs
    cases hs
  | inside h => rw [h.identity i topics hs]

theorem inside_of_ne_nil (h : Stage limit refused r accepted) (hne : accepted ≠ []) :
    ∃ i, r.Inside limit refused i := by
  cases h with
  | outside => exact absurd rfl hne
  | inside h => exact ⟨_, h⟩

end Stage

/-- What a failed handshake does. -/
theorem Course.refused (h : Course callers (.start service now clock) past w)
    (hk : w.connections[k]? = some c) (hact : w.act? (.reader k) = some v) {e : Error}
    (hv : c.verdict? w.site.service = some (.error e)) (he : e.isFatal = false) :
    ∃ n, c.reader.session = .unauthenticated n ∧
      v = w.putBack k ({ c with reader := { c.reader with
        session := .unauthenticated (n + 1), outgoing := [e.authError],
        task := c.settings.afterFailures (n + 1) } }, w.site) := by
  obtain ⟨token, ready, hat, herr⟩ := Connection.verdict?_eq_some hv
  obtain ⟨n, hsess⟩ := (h.sound hk).suits hat
  obtain ⟨c', site, hstep, rfl, -⟩ := stepReader?_of_act? hact hk
  obtain ⟨rfl, rfl⟩ := stepReader?_of_refusal hat hsess herr he hstep
  exact ⟨n, hsess, rfl⟩

/-- What is asked of the hub when a token is accepted. -/
theorem Course.registers (h : Course callers (.start service now clock) past w)
    (hk : w.connections[k]? = some c) (hact : w.act? (.reader k) = some v) {i : Identity}
    (hv : c.verdict? w.site.service = some (.ok i)) :
    Moment.request? ⟨w, .act (.reader k)⟩ = some (.register ⟨k, i, c.queue⟩) := by
  obtain ⟨c', site, hstep, -, -⟩ := stepReader?_of_act? hact hk
  obtain ⟨-, asked, hs⟩ := strode_of_step (h.calm k _ (stand?_of_connection hk)) hstep
  have hasks : Moment.request? ⟨w, .act (.reader k)⟩ = c.asks? k w.site := by
    show (w.connections[k]?).bind _ = _
    rw [hk]
    rfl
  rw [hasks, hs.asks, ((h.stage hk).outside_of_verdict hv).registers hs hv]
  rfl

/-- What another handshake does. -/
theorem Course.again (h : Course callers (.start service now clock) past w)
    (hk : w.connections[k]? = some c) (hne : acceptances k past ≠ []) {token : String}
    (hreads : c.reads? = some (.auth token)) (hact : w.act? (.reader k) = some v) :
    ∃ c', v = w.putBack k (c', w.site) ∧
      c'.reader = c.reader.violate Reader.alreadyAuthenticated := by
  obtain ⟨i, hin⟩ := (h.stage hk).inside_of_ne_nil hne
  obtain ⟨topics, hsess⟩ := hin.serves (Connection.reads?_eq_some hreads).1
  obtain ⟨c', site, hstep, rfl, -⟩ := stepReader?_of_act? hact hk
  obtain ⟨hreader, rfl⟩ := stepReader?_of_reauth hreads hsess hstep
  exact ⟨c', rfl, hreader⟩

/--
**The handshake.** Whatever clients send and whichever tokens are believed, at every moment what
`Handshake` says holds of every connection. A bearer token that is refused fails one attempt and no
more, and whoever is let in by one has a user id.
-/
theorem handshake_of_course (hr : RegistersNobody callers)
    (h : Course callers (.start service now clock) past w) (hk : w.connections[k]? = some c) :
    Handshake past w k c ∧ ∀ secret time token,
      (∀ e, Token.validate secret time token = .error e →
        (∃ fault, e.fault = .auth fault) ∧ e.isFatal = false) ∧
      ∀ i, Token.validate secret time token = .ok i → i.userId ≠ "" := by
  have hstage := h.stage hk
  have hverdict : Moment.verdict? ⟨w, .act (.reader k)⟩ k = c.verdict? w.site.service :=
    Moment.ofReader?_of_act rfl hk
  have registered : ∀ reg, .register reg ∈ ledger past → reg.connection = k →
      acceptances k past = [reg.identity] := by
    rintro reg hreg rfl
    obtain ⟨m, hm, hval⟩ := h.validated hr hreg
    exact hstage.eq_of_mem (mem_acceptances hm hval)
  refine ⟨?handshake, fun secret time token => ⟨fun e he => ?refusal, fun i => ?acceptance⟩⟩
  case refusal =>
    obtain ⟨fault, hfault⟩ := Token.fault_of_validate he
    exact ⟨⟨fault, hfault⟩, congrArg Fault.isFatal hfault⟩
  case acceptance => exact Token.userId_of_validate
  case handshake =>
    refine ⟨fun m v hmove hm => h.silent hk hmove hm,
      fun v e hact hv => h.refused hk hact (hverdict ▸ hv), h.answered hk,
      fun n => hstage.counted, fun hN n hn => ?_, hstage.bounded, hstage.exhausted,
      fun hlength v hact => ?_, fun v i hact hv => h.registers hk hact (hverdict ▸ hv),
      hstage.once, fun i topics => hstage.session, registered, fun e he => ?_,
      fun hne m => ?_, fun hne v token hreads hact => h.again hk hne hreads hact⟩
    · -- the count is no more than the limit, or one
      have hone : 1 < UInt32.size := by decide
      have hcount := hstage.counted hn
      have hbound := hstage.bounded
      unfold Settings.patience at hbound
      omega
    · obtain ⟨c', site, hstep, rfl, -⟩ := stepReader?_of_act? hact hk
      obtain ⟨hsocket, hreader, rfl⟩ :=
        stepReader?_of_finished (hstage.exhausted.mpr hlength) hstep
      exact ⟨c', rfl, hsocket, hreader⟩
    · exact registered e.registration ((h.kept hr).1.entries e he)
    · obtain ⟨i, hin⟩ := hstage.inside_of_ne_nil hne
      by_cases hm : m = .act (.reader k)
      · rw [hm, hverdict]
        exact hin.unjudged
      · exact Moment.verdict?_of_ne hm

end Courses

/-! ## At the door -/

namespace Doorway

/-- One token is forged; any other is the name of whoever brings it. -/
def service : Service where
  validate token :=
    if token = "forged" then .error (.auth .invalidToken "Forged") else .ok ⟨token, token, false⟩
  validationTime := 0

def start : World := .start service 0 ⟨⟨2024, 1, 1⟩, 0, 0, 0, 0⟩

/-- Ann, who may fail twice, brings a forged token, says that she is there, and brings her own
twice. -/
def moves : List Move :=
  [.undergo (.connect { Settings.standard with maxAuthAttempts := 2 }
      ((Socket.new .plain).arrive
        [.text "\x7b\"type\":\"auth\",\"token\":\"forged\"\x7d", .ping [],
          .text "\x7b\"type\":\"auth\",\"token\":\"ann\"\x7d",
          .text "\x7b\"type\":\"auth\",\"token\":\"ann\"\x7d"]))] ++
  List.replicate 6 (.act (.reader 0)) ++ [.act (.hub [])] ++ List.replicate 2 (.act (.reader 0))

theorem possible : (start.follow? moves).isSome = true := by decide +kernel

/-- Ann has been let in, and her other frame waits. -/
def evening : World := (start.follow? moves).get possible

theorem course : Course (fun _ => False) start (start.trail moves) evening :=
  course_of_follow? (by simp [moves]) (Option.some_get possible).symm

theorem waiting : evening.connections[0]?.bind Connection.reads? = some (.auth "ann") := by
  decide +kernel

/-- One token has been refused and one accepted. -/
theorem judged : (refusals 0 (start.trail moves)).length = 1 ∧
    acceptances 0 (start.trail moves) = [⟨"ann", "ann", false⟩] := by
  decide +kernel

end Doorway

theorem handshake_of_course_doorway : ∃ c, Doorway.evening.connections[0]? = some c ∧
    Handshake (Doorway.start.trail Doorway.moves) Doorway.evening 0 c ∧
    c.reads? = some (.auth "ann") ∧
    (refusals 0 (Doorway.start.trail Doorway.moves)).length = 1 ∧
    acceptances 0 (Doorway.start.trail Doorway.moves) = [⟨"ann", "ann", false⟩] := by
  obtain ⟨c, hc, hreads⟩ := Option.bind_eq_some_iff.mp Doorway.waiting
  have hshake := (handshake_of_course (fun _ h => h.elim) Doorway.course hc).1
  exact ⟨c, hc, hshake, hreads, Doorway.judged⟩

end Switchboard
