import Switchboard.Proofs.Course
import Switchboard.Proofs.Veil

/-!
# Discretion

Connections under the veil. A reader carries the identity of its client from the token to the hub
and never says its name; writers and sockets hold frames and do not look at when they were sent. So
everything that can happen to an instance happens to what is veiled in the same way
(`World.move?_veil`).
-/

namespace Switchboard

open Wire

/-! ## What is veiled -/

/-- A session knows the identity that has authenticated. -/
def Session.veil : Session → Session
  | .authenticated identity topics => .authenticated identity.veil topics
  | session => session

/-- What a reader asks for, it asks for in the name of an identity. -/
def Purpose.veil : Purpose → Purpose
  | .registration identity => .registration identity.veil
  | .subscription identity topics => .subscription identity.veil topics
  | .unsubscription identity topics => .unsubscription identity.veil topics

/-- A reader carries the identity along while it decides, asks and waits. -/
def ReaderTask.veil : ReaderTask → ReaderTask
  | .deciding identity channels allowed => .deciding identity.veil channels allowed
  | .asking p => .asking p.veil
  | .awaiting p ticket => .awaiting p.veil ticket
  | task => task

/-- Nothing else of a reader holds a name: what it says to its client is as public as messages. -/
def Reader.veil (r : Reader) : Reader := { r with session := r.session.veil, task := r.task.veil }

/-- Of what is written, envelopes tell when they were made. -/
def Outgoing.veil : Outgoing → Outgoing
  | .envelope e => .envelope e.veil
  | frame => frame

/-- What has been written stays in the socket. -/
def Socket.veil (s : Socket) : Socket := { s with sent := s.sent.map Outgoing.veil }

/-- A socket that takes a frame has one more. -/
def Socket.Offer.veil : Socket.Offer → Socket.Offer
  | .taken s => .taken s.veil
  | offer => offer

/-- A writer may have a frame in hand. -/
def WriterTask.veil : WriterTask → WriterTask
  | .writing frame deadline => .writing frame.veil deadline
  | task => task

def Writer.veil (w : Writer) : Writer := { w with task := w.task.veil }

/-- What a writer can take up, and where it writes. -/
def Outlet.veil (o : Outlet) : Outlet :=
  { o with replies := o.replies.map Envelope.veil, queue := o.queue.veil, socket := o.socket.veil }

/-- A connection holds frames and, in its reader, an identity. -/
def Connection.veil (c : Connection) : Connection :=
  { c with
    socket := c.socket.veil
    replies := c.replies.map Envelope.veil
    reader := c.reader.veil
    writer := c.writer.veil }

/-- Tokens are judged to be an identity's, whose name may be nobody's business. -/
def Service.veil (s : Service) : Service :=
  { s with validate := fun token => (s.validate token).map Identity.veil }

def Site.veil (s : Site) : Site := { s with service := s.service.veil, hub := s.hub.veil }

/-- An instance as it can be seen. Settings and the directory hold no names. -/
def World.veil (w : World) : World := ⟨w.site.veil, w.connections.map Connection.veil⟩

/-- What comes from outside may bring frames and requests with it. -/
def Stimulus.veil : Stimulus → Stimulus
  | .connect settings socket => .connect settings socket.veil
  | .issue r => .issue r.veil
  | stimulus => stimulus

/-- A move without the names of anonymous users and without any time that frames are sent. -/
def Move.veil : Move → Move
  | .undergo s => .undergo s.veil
  | .setService service => .setService service.veil
  | .setClock _ => .setClock .epoch
  | .endWriter k writer => .endWriter k writer.veil
  | .act a => .act a

/-! ## Readers -/

namespace Directory

/-- The directory is asked about user ids. -/
theorem ask_veil (d : Directory) (i : Identity) (circle : String) :
    d.ask i.veil circle = d.ask i circle := by
  unfold ask
  rw [i.userId_veil]

/-- Who may listen where does not depend on names. -/
theorem authorize_veil (d : Directory) (i : Identity) (name : String) :
    d.authorize i.veil name = d.authorize i name := by
  unfold authorize
  simp only [i.userId_veil, d.ask_veil]

end Directory

/-- What a reader asks of the hub is what it asks under the veil. -/
@[simp] theorem Purpose.request_veil (p : Purpose) (c : ConnectionId) (q : QueueId) :
    p.veil.request c q = (p.request c q).veil := by
  cases p with
  | registration => rfl
  | subscription i topics => exact congrArg (Request.subscribe · c topics) i.userId_veil
  | unsubscription i topics => exact congrArg (Request.unsubscribe · c topics) i.userId_veil

namespace Reader

variable (s : Settings) (r : Reader)

@[simp] theorem task_veil : r.veil.task = r.task.veil := rfl

@[simp] theorem outgoing_veil : r.veil.outgoing = r.outgoing := rfl

@[simp] theorem holdsQueue_veil : r.veil.holdsQueue = r.holdsQueue := rfl

@[simp] theorem registered_veil : r.veil.registered = r.registered := rfl

/-- A failure is answered with its code, never with a name. -/
@[simp] theorem fail_veil (e : Error) : r.veil.fail s e = (r.fail s e).veil := by
  obtain ⟨session, outgoing, task, holdsQueue, registered⟩ := r
  unfold fail
  split
  · rfl
  · cases session with
    | authenticated => rfl
    | unauthenticated failures =>
      unfold failHandshake
      dsimp only [veil, Session.veil, say]
      split <;> rfl

/-- Whatever the client says in a control frame is obeyed alike, -/
@[simp] theorem obey_veil (now : Instant) (delay : Millis) (frame : ControlFrame) :
    r.veil.obey s now delay frame = (r.obey s now delay frame).veil := by
  obtain ⟨session, outgoing, task, holdsQueue, registered⟩ := r
  cases frame <;> cases session <;> rfl

/-- and so is any text, -/
@[simp] theorem hearText_veil (now : Instant) (delay : Millis) (text : String) :
    r.veil.hearText s now delay text = (r.hearText s now delay text).veil := by
  unfold hearText
  split
  · exact r.fail_veil s _
  · cases ControlFrame.decode text with
    | error e => exact r.fail_veil s e
    | ok frame => exact r.obey_veil s now delay frame

/-- and anything else that comes in. -/
@[simp] theorem hear_veil (now : Instant) (delay : Millis) (frame : Incoming) :
    r.veil.hear s now delay frame = (r.hear s now delay frame).veil := by
  cases frame with
  | text text => exact r.hearText_veil s now delay text
  | binary => exact r.fail_veil s _
  | ping | pong | close | endOfStream | failure => rfl

/-- A verdict that is veiled has the veiled effect. -/
@[simp] theorem judge_veil (verdict : Except Error Identity) :
    r.veil.judge s (verdict.map Identity.veil) = (r.judge s verdict).veil := by
  cases verdict with
  | error e => exact r.fail_veil s e
  | ok identity =>
    show (if r.veil.holdsQueue then _ else _) = _
    rw [r.holdsQueue_veil]
    unfold judge
    dsimp only
    split
    · rfl
    · exact r.fail_veil s _

/-- A channel is allowed or denied to the veiled identity alike, -/
@[simp] theorem takeDecision_veil (identity : Identity) (channel : String) (rest : List String)
    (allowed : List Topic) (decision : Decision) :
    r.veil.takeDecision identity.veil channel rest allowed decision =
      (r.takeDecision identity channel rest allowed decision).veil := by
  cases decision <;> rfl

/-- and the hub is asked for the same topics. -/
@[simp] theorem conclude_veil (identity : Identity) (allowed : List Topic) :
    r.veil.conclude identity.veil allowed = (r.conclude identity allowed).veil := by
  unfold conclude
  split <;> rfl

/-- A reader that registers remembers the user id. -/
theorem handOver_veil (p : Purpose) : r.veil.handOver p.veil = (r.handOver p).veil := by
  cases p with
  | registration i =>
    show ({ r.veil with holdsQueue := false, registered := some i.veil.userId } : Reader) = _
    rw [i.userId_veil]
    rfl
  | subscription | unsubscription => rfl

/-- Asking the hub has the veiled effect on both sides. -/
@[simp] theorem submit_veil (c : ConnectionId) (q : QueueId) (h : Hub) :
    r.veil.submit c q h.veil = ((r.submit c q h).1.veil, (r.submit c q h).2.veil) := by
  unfold submit
  rw [r.task_veil]
  cases r.task with
  | asking p =>
    dsimp only [ReaderTask.veil]
    rw [p.request_veil, h.issue_veil, r.handOver_veil]
    rfl
  | listening | validating | deciding | awaiting | finished => rfl

/-- What the hub answers is told to the client by user id and topics. -/
@[simp] theorem learn_veil (p : Purpose) (a : Answer) :
    r.veil.learn s p.veil a = (r.learn s p a).veil := by
  -- whatever was asked for, the same is said of it when the hub is gone
  have refused : ∀ p : Purpose, r.veil.learn s p.veil .unavailable =
      (r.learn s p .unavailable).veil := by
    intro p
    cases p <;> exact r.fail_veil s hubUnavailable
  obtain ⟨session, outgoing, task, holdsQueue, registered⟩ := r
  cases p with
  | registration i =>
    cases a with
    | unavailable => exact refused (.registration i)
    | registered | found | online | count =>
      show say _ (.authOk i.veil.userId) .listening = _
      rw [i.userId_veil]
      rfl
  | subscription i topics =>
    match a with
    | .unavailable => exact refused (.subscription i topics)
    | .found false => rfl
    | .found true | .registered | .online _ | .count _ => cases session <;> rfl
  | unsubscription i topics =>
    match a with
    | .unavailable => exact refused (.unsubscription i topics)
    | .found false => rfl
    | .found true | .registered | .online _ | .count _ => cases session <;> rfl

end Reader

/-! ## Sockets and writers -/

namespace Socket

variable (s : Socket)

theorem push_veil (frame : Outgoing) : s.veil.push frame.veil = (s.push frame).veil := by
  unfold push veil
  rw [List.map_append]
  rfl

theorem take_veil (n : Nat) : s.veil.take n = (s.take n).veil := by
  unfold take veil
  rw [List.length_map]

/-- A ping is echoed under the veil as well. -/
@[simp] theorem attend_veil (frame : Incoming) : s.veil.attend frame = (s.attend frame).veil := by
  obtain ⟨transport, incoming, sent, taken, window, failAfter, closeHangs, goodbye, ended⟩ := s
  cases transport with
  | plain => rfl
  | webSocket =>
    cases frame with
    | ping octets => exact push_veil _ (.pong octets)
    | text | binary | pong | close | endOfStream | failure => rfl

/-- What comes in has nothing to hide. -/
@[simp] theorem receive?_veil : s.veil.receive? = s.receive?.map fun p => (p.1, p.2.veil) := by
  have hincoming : s.veil.incoming = s.incoming := rfl
  unfold receive?
  rw [hincoming]
  cases s.incoming with
  | nil => rfl
  | cons frame incoming =>
    exact congrArg (fun s => some (frame, s)) (attend_veil { s with incoming } frame)

/-- Whether a socket takes a frame depends on how many it holds, and not on what they say. -/
@[simp] theorem offer_veil (frame : Outgoing) : s.veil.offer frame.veil = (s.offer frame).veil := by
  have hbroken : s.veil.isBroken = s.isBroken := by
    unfold isBroken veil
    rw [List.length_map]
  have hfull : s.veil.isFull = s.isFull := by
    unfold isFull unread veil
    rw [List.length_map]
  unfold offer
  rw [hbroken, hfull]
  split
  · rfl
  · split
    · rfl
    · exact congrArg Offer.taken (s.push_veil frame)

/-- The peer's goodbye is echoed. -/
@[simp] theorem finish_veil : s.veil.finish = s.finish.veil := by
  have hgoodbye : s.veil.goodbye = s.goodbye := rfl
  unfold finish
  rw [hgoodbye]
  cases s.goodbye with
  | none => rfl
  | some code =>
    dsimp only
    rw [show Outgoing.close (code.map echo) = (Outgoing.close (code.map echo)).veil from rfl,
      s.push_veil]
    rfl

end Socket

namespace Outlet

variable (o : Outlet)

@[simp] theorem replies_veil : o.veil.replies = o.replies.map Envelope.veil := rfl

@[simp] theorem hasReader_veil : o.veil.hasReader = o.hasReader := rfl

@[simp] theorem queue_veil : o.veil.queue = o.queue.veil := rfl

@[simp] theorem socket_veil : o.veil.socket = o.socket.veil := rfl

end Outlet

namespace Writer

variable (s : Settings) (now seen : Instant) (w : Writer)

@[simp] theorem task_veil : w.veil.task = w.task.veil := rfl

@[simp] theorem nextBeat_veil : w.veil.nextBeat = w.nextBeat := rfl

@[simp] theorem isRunning_veil : w.veil.isRunning = w.isRunning := by
  obtain ⟨task, beat⟩ := w
  cases task <;> rfl

/-- Silence is measured by when the peer was heard, -/
@[simp] theorem await_veil : w.veil.await s seen = (w.await s seen).veil := by
  unfold await
  split <;> rfl

/-- and beats by when the writer started. -/
@[simp] theorem start_veil : w.veil.start s now seen = (w.start s now seen).veil := by
  unfold start
  split
  · exact await_veil s seen { w with nextBeat := now + s.heartbeat }
  · rfl

theorem checkSilence_veil : w.veil.checkSilence s now seen = (w.checkSilence s now seen).veil := by
  unfold checkSilence
  split
  · rfl
  · exact w.await_veil s seen

/-- What a writer does next, veiled. -/
def veilStep (p : Writer × Outlet) : Writer × Outlet := (p.1.veil, p.2.veil)

theorem takeReply?_veil (o : Outlet) :
    w.veil.takeReply? s now o.veil = (w.takeReply? s now o).map veilStep := by
  unfold takeReply?
  rw [o.replies_veil, o.hasReader_veil]
  cases o.replies with
  | cons reply replies => rfl
  | nil => cases o.hasReader <;> rfl

theorem takeFrame?_veil (o : Outlet) :
    w.veil.takeFrame? s now o.veil = (w.takeFrame? s now o).map veilStep := by
  unfold takeFrame?
  rw [o.queue_veil, o.queue.pop?_veil, o.queue.isEnded_veil]
  cases o.queue.pop? with
  | some p => rfl
  | none =>
    dsimp only [Option.map_none]
    split <;> rfl

theorem takeTime?_veil (silence : Instant) :
    w.veil.takeTime? s now seen silence = (w.takeTime? s now seen silence).map veil := by
  unfold takeTime?
  rw [w.nextBeat_veil, w.checkSilence_veil]
  split
  · rfl
  · split <;> rfl

/-- A writer finds the same to do at each of its inlets, and looks at them in the same order. -/
@[simp] theorem takeUp?_veil (silence : Instant) (o : Outlet) (missed : List Inlet) :
    w.veil.takeUp? s now seen silence o.veil missed =
      (w.takeUp? s now seen silence o missed).map veilStep := by
  unfold takeUp?
  rw [w.takeReply?_veil, w.takeFrame?_veil, w.takeTime?_veil, Option.map_or, Option.map_or,
    Option.map_map, Option.map_map, apply_ite (Option.map veilStep),
    apply_ite (Option.map veilStep)]
  rfl

/-- A step of a writer does not depend on what its frames say. -/
@[simp] theorem step?_veil (o : Outlet) (missed : List Inlet) :
    w.veil.step? s now seen o.veil missed = (w.step? s now seen o missed).map veilStep := by
  have hhangs : o.socket.veil.closeHangs = o.socket.closeHangs := rfl
  unfold step?
  rw [w.task_veil]
  cases w.task with
  | starting =>
    dsimp only [WriterTask.veil]
    rw [w.start_veil]
    rfl
  | waiting silence => exact w.takeUp?_veil s now seen silence o missed
  | writing frame deadline =>
    dsimp only [WriterTask.veil]
    rw [o.socket_veil, o.socket.offer_veil]
    cases o.socket.offer frame with
    | taken socket =>
      dsimp only [Socket.Offer.veil]
      rw [w.await_veil]
      rfl
    | broken => rfl
    | stalled =>
      dsimp only [Socket.Offer.veil]
      split <;> rfl
  | leaving why deadline =>
    have hoffer : o.socket.veil.offer (.close none) = (o.socket.offer (.close none)).veil :=
      o.socket.offer_veil (.close none)
    dsimp only [WriterTask.veil]
    rw [o.socket_veil, hoffer]
    cases o.socket.offer (.close none) with
    | taken socket => rfl
    | broken => rfl
    | stalled =>
      dsimp only [Socket.Offer.veil]
      split <;> rfl
  | closing why deadline =>
    dsimp only [WriterTask.veil]
    rw [o.socket_veil, hhangs, o.socket.finish_veil]
    split
    · rfl
    · split <;> rfl
  | finished | crashed | aborted => rfl

end Writer

/-! ## Connections -/

namespace Site

variable (site : Site)

@[simp] theorem now_veil : site.veil.now = site.now := rfl

@[simp] theorem hub_veil : site.veil.hub = site.hub.veil := rfl

@[simp] theorem directory_veil : site.veil.directory = site.directory := rfl

end Site

namespace Connection

variable (s : Settings) (c : Connection)

@[simp] theorem settings_veil : c.veil.settings = c.settings := rfl

@[simp] theorem seen_veil : c.veil.seen = c.seen := rfl

@[simp] theorem queue_veil : c.veil.queue = c.queue := rfl

@[simp] theorem phase_veil : c.veil.phase = c.phase := rfl

@[simp] theorem socket_veil : c.veil.socket = c.socket.veil := rfl

@[simp] theorem reader_veil : c.veil.reader = c.reader.veil := rfl

@[simp] theorem writer_veil : c.veil.writer = c.writer.veil := rfl

@[simp] theorem isServing_veil : c.veil.isServing = c.isServing := rfl

@[simp] theorem outlet_veil (queue : Queue) :
    c.veil.outlet queue.veil = (c.outlet queue).veil := rfl

/-- A connection and the queues after a step of its writer, veiled. -/
def veilMail (p : Connection × Mail) : Connection × Mail := (p.1.veil, p.2.veil)

/-- A writer that has ended drops its queue under the veil too. -/
@[simp] theorem settleWriter_veil (mail : Mail) :
    c.veil.settleWriter mail.veil = veilMail (c.settleWriter mail) := by
  unfold settleWriter
  rw [c.writer_veil, c.writer.isRunning_veil]
  split
  · rfl
  · exact congrArg (Prod.mk _) (mail.modify_veil c.queue Queue.drop_veil)

/-- The writer takes the same step, -/
@[simp] theorem stepWriter?_veil (now : Instant) (mail : Mail) (missed : List Inlet) :
    c.veil.stepWriter? now mail.veil missed = (c.stepWriter? now mail missed).map veilMail := by
  unfold stepWriter?
  rw [c.queue_veil, mail.get?_veil]
  cases mail.get? c.queue with
  | none => rfl
  | some queue =>
    dsimp only [Option.map_some]
    rw [c.outlet_veil, c.writer_veil, c.settings_veil, c.seen_veil, c.writer.step?_veil]
    cases c.writer.step? c.settings now c.seen (c.outlet queue) missed with
    | none => rfl
    | some p =>
      obtain ⟨writer, o⟩ := p
      have hmail : mail.veil.modify c.queue (fun _ => o.queue.veil) =
          (mail.modify c.queue fun _ => o.queue).veil := mail.modify_veil c.queue fun _ => rfl
      have hsettle := settleWriter_veil
        { c with writer, replies := o.replies, socket := o.socket }
        (mail.modify c.queue fun _ => o.queue)
      dsimp only [Option.map_some, Writer.veilStep]
      rw [o.queue_veil, hmail]
      exact congrArg some hsettle

/-- What a step makes of a connection and of what all share, veiled. -/
def veilStep (p : Connection × Site) : Connection × Site := (p.1.veil, p.2.veil)

/-- A reply becomes an envelope, which may tell when it was made. -/
@[simp] theorem pass_veil (site : Site) (m : Message) :
    c.veil.pass site.veil m = (c.pass site m).veil := by
  unfold pass
  rw [c.writer_veil, c.writer.isRunning_veil]
  split
  · unfold veil
    dsimp only
    rw [List.map_append]
    rfl
  · rfl

/-- **A reader's task** goes on under the veil as it does without, whatever it is. -/
@[simp] theorem doTask?_veil (site : Site) :
    c.veil.doTask? site.veil = (c.doTask? site).map veilStep := by
  have hvalidate : ∀ token, site.veil.service.validate token =
      (site.service.validate token).map Identity.veil := fun _ => rfl
  unfold doTask?
  rw [c.reader_veil, c.reader.task_veil]
  cases c.reader.task with
  | listening =>
    dsimp only [ReaderTask.veil]
    rw [c.socket_veil, c.socket.receive?_veil]
    cases c.socket.receive? with
    | none => rfl
    | some p =>
      dsimp only [Option.map_some]
      rw [c.settings_veil, c.reader.hear_veil]
      rfl
  | validating token ready =>
    dsimp only [ReaderTask.veil]
    rw [c.settings_veil, hvalidate, c.reader.judge_veil, site.now_veil]
    split <;> rfl
  | deciding identity channels allowed =>
    cases channels with
    | nil =>
      dsimp only [ReaderTask.veil]
      rw [c.reader.conclude_veil]
      rfl
    | cons channel rest =>
      dsimp only [ReaderTask.veil]
      rw [site.directory_veil, site.directory.authorize_veil, c.reader.takeDecision_veil]
      rfl
  | awaiting p ticket =>
    dsimp only [ReaderTask.veil]
    rw [site.hub_veil, site.hub.answer?_veil]
    cases site.hub.answer? ticket with
    | none => rfl
    | some a =>
      dsimp only
      rw [c.settings_veil, c.reader.learn_veil]
      rfl
  | asking p => rfl
  | finished why => rfl

/-- The request that comes next is issued alike. -/
@[simp] theorem submit_veil (id : ConnectionId) (site : Site) :
    c.veil.submit id site.veil = veilStep (c.submit id site) := by
  unfold submit
  rw [c.reader_veil, c.queue_veil, site.hub_veil, c.reader.submit_veil]
  rfl

/-- The reader takes the same step, -/
@[simp] theorem stepReader?_veil (id : ConnectionId) (site : Site) :
    c.veil.stepReader? id site.veil = (c.stepReader? id site).map veilStep := by
  have hreplies : c.veil.replies.length = c.replies.length := List.length_map _
  unfold stepReader?
  rw [c.isServing_veil]
  split
  · rfl
  · rw [c.reader_veil, c.reader.outgoing_veil]
    cases c.reader.outgoing with
    | cons m outgoing =>
      dsimp only
      rw [c.writer_veil, c.writer.isRunning_veil, hreplies, c.pass_veil]
      split <;> rfl
    | nil =>
      dsimp only
      rw [c.doTask?_veil]
      cases c.doTask? site with
      | none => rfl
      | some p => exact congrArg some (p.1.submit_veil id p.2)

@[simp] theorem writerEnd?_veil : c.veil.writerEnd? = c.writerEnd? := by
  unfold writerEnd?
  rw [c.writer_veil, c.writer.task_veil]
  cases c.writer.task <;> rfl

/-- A reader ends for a reason that is no secret. -/
@[simp] theorem readerEnd?_veil : c.veil.readerEnd? = c.readerEnd? := by
  unfold readerEnd?
  rw [c.reader_veil, c.reader.outgoing_veil, c.reader.task_veil]
  cases c.reader.outgoing with
  | cons => rfl
  | nil => cases c.reader.task <;> rfl

/-- The hub is told by user id that a connection is gone. -/
@[simp] theorem letGo_veil (id : ConnectionId) (h : Hub) :
    c.veil.letGo id h.veil = (c.letGo id h).veil := by
  have hreleased : (if c.reader.holdsQueue then h.veil.update (·.release c.queue) else h.veil) =
      (if c.reader.holdsQueue then h.update (·.release c.queue) else h).veil := by
    split
    · exact h.update_veil (h.exchange.release_veil c.queue)
    · rfl
  unfold letGo
  rw [c.reader_veil, c.queue_veil, c.reader.holdsQueue_veil, c.reader.registered_veil]
  dsimp only
  rw [hreleased]
  cases c.reader.registered with
  | none => rfl
  | some user => exact congrArg Prod.snd (Hub.issue_veil _ (.unregister user id))

@[simp] theorem abort_veil (mail : Mail) :
    c.veil.abort mail.veil = veilMail (c.abort mail) :=
  settleWriter_veil { c with writer := { c.writer with task := .aborted } } mail

/-- and the connection ends for the same reason. -/
@[simp] theorem stepEnd?_veil (id : ConnectionId) (half : Half) (site : Site) :
    c.veil.stepEnd? id half site.veil = (c.stepEnd? id half site).map veilStep := by
  unfold stepEnd?
  rw [c.phase_veil]
  cases c.phase with
  | serving =>
    dsimp only
    rw [c.writerEnd?_veil, c.readerEnd?_veil, site.hub_veil, c.letGo_veil]
    cases half with
    | writer => cases c.writerEnd? <;> rfl
    | reader => cases c.readerEnd? <;> rfl
  | draining why deadline =>
    dsimp only
    rw [c.writer_veil, c.writer.isRunning_veil, site.hub_veil, site.hub.exchange_veil,
      site.hub.exchange.mail_veil, c.abort_veil, site.now_veil]
    split
    · rfl
    · split <;> rfl
  | ended | panicked => rfl

end Connection

/-! ## The world -/

namespace World

variable (w : World)

@[simp] theorem site_veil : w.veil.site = w.site.veil := rfl

theorem getElem?_veil (k : ConnectionId) :
    w.veil.connections[k]? = (w.connections[k]?).map Connection.veil := List.getElem?_map

theorem withMail_veil (mail : Mail) : w.veil.withMail mail.veil = (w.withMail mail).veil := rfl

/-- A connection that is changed under the veil is changed as it would be without. -/
theorem updateConnection_veil (k : ConnectionId) {f g : Connection → Connection}
    (h : ∀ c, f c.veil = (g c).veil) :
    w.veil.updateConnection k f = (w.updateConnection k g).veil := by
  unfold updateConnection veil
  congr 1
  refine List.ext_getElem? fun i => ?_
  rw [List.getElem?_modify, List.getElem?_map, List.getElem?_map, List.getElem?_modify]
  cases w.connections[i]? with
  | none => rfl
  | some c => by_cases hi : k = i <;> simp [hi, h]

theorem putWriter_veil (k : ConnectionId) (c : Connection) (mail : Mail) :
    (w.veil.withMail mail.veil).updateConnection k (fun _ => c.veil) =
      ((w.withMail mail).updateConnection k fun _ => c).veil :=
  updateConnection_veil (w.withMail mail) k fun _ => rfl

/-- A connection is put back under its number. -/
theorem putBack_veil (k : ConnectionId) (p : Connection × Site) :
    w.veil.putBack k (Connection.veilStep p) = (w.putBack k p).veil := by
  unfold putBack veil
  dsimp only
  rw [List.map_set]
  rfl

/-- Whoever acts can take the same step. -/
@[simp] theorem act?_veil (a : Actor) : w.veil.act? a = (w.act? a).map veil := by
  cases a with
  | hub missed =>
    unfold act?
    dsimp only
    rw [w.site_veil, w.site.hub_veil, w.site.hub.step?_veil]
    cases w.site.hub.step? missed <;> rfl
  | writer k missed =>
    unfold act?
    dsimp only
    rw [w.getElem?_veil]
    cases w.connections[k]? with
    | none => rfl
    | some c =>
      dsimp only [Option.map_some, Option.bind_some]
      rw [w.site_veil, w.site.now_veil, w.site.hub_veil, w.site.hub.exchange_veil,
        w.site.hub.exchange.mail_veil, c.stepWriter?_veil]
      cases c.stepWriter? w.site.now w.site.hub.exchange.mail missed with
      | none => rfl
      | some p => exact congrArg some (w.putWriter_veil k p.1 p.2)
  | reader k =>
    unfold act?
    dsimp only
    rw [w.getElem?_veil]
    cases w.connections[k]? with
    | none => rfl
    | some c =>
      dsimp only [Option.map_some, Option.bind_some]
      rw [w.site_veil, c.stepReader?_veil]
      cases c.stepReader? k w.site with
      | none => rfl
      | some p => exact congrArg some (w.putBack_veil k p)
  | client k half =>
    unfold act?
    dsimp only
    rw [w.getElem?_veil]
    cases w.connections[k]? with
    | none => rfl
    | some c =>
      dsimp only [Option.map_some, Option.bind_some]
      rw [w.site_veil, c.stepEnd?_veil]
      cases c.stepEnd? k half w.site with
      | none => rfl
      | some p => exact congrArg some (w.putBack_veil k p)

/-- A new connection gets the same number and the same queue. -/
theorem openConnection_veil (settings : Settings) (socket : Socket) :
    (w.veil.openConnection settings socket.veil).2 = (w.openConnection settings socket).2.veil := by
  unfold openConnection
  rw [w.site_veil, w.site.hub_veil, w.site.hub.exchange_veil, w.site.hub.exchange.mail_veil,
    w.site.hub.exchange.mail.create_veil]
  dsimp only
  rw [w.withMail_veil]
  unfold veil
  rw [List.map_append]
  split <;> rfl

/-- What comes from outside has the veiled effect. -/
@[simp] theorem undergo_veil (s : Stimulus) : w.veil.undergo s.veil = (w.undergo s).veil := by
  cases s with
  | connect settings socket => exact w.openConnection_veil settings socket
  | arrive k frames => exact w.updateConnection_veil k fun _ => rfl
  | take k n =>
    refine w.updateConnection_veil k fun c => ?_
    show { c.veil with socket := c.socket.veil.take n } = _
    rw [c.socket.take_veil]
    rfl
  | setWindow k window => exact w.updateConnection_veil k fun _ => rfl
  | issue r =>
    have hissue : (w.site.hub.veil.issue r.veil).2 = (w.site.hub.issue r).2.veil :=
      congrArg Prod.snd (w.site.hub.issue_veil r)
    exact congrArg (fun h => w.veil.updateHub fun _ => h) hissue
  | addMember | removeMember | setReachable | setNow => rfl

/-- A writer that ends lets go of the same queue. -/
@[simp] theorem endWriter?_veil (k : ConnectionId) (writer : Writer) :
    w.veil.endWriter? k writer.veil = (w.endWriter? k writer).map veil := by
  unfold endWriter?
  rw [writer.isRunning_veil]
  split
  · rfl
  · rw [w.getElem?_veil]
    cases w.connections[k]? with
    | none => rfl
    | some c =>
      have hsettle : ({ c.veil with writer := writer.veil } : Connection).settleWriter
          w.site.hub.exchange.mail.veil =
          Connection.veilMail (({ c with writer } : Connection).settleWriter _) :=
        Connection.settleWriter_veil { c with writer } w.site.hub.exchange.mail
      dsimp only [Option.map_some]
      rw [w.site_veil, w.site.hub_veil, w.site.hub.exchange_veil, w.site.hub.exchange.mail_veil,
        hsettle]
      exact congrArg some (w.putWriter_veil k _ _)

/-- **Whatever happens to an instance happens to it under the veil.** -/
theorem move?_veil (m : Move) : w.veil.move? m.veil = (w.move? m).map veil := by
  cases m with
  | act a => exact w.act?_veil a
  | undergo s => exact congrArg some (w.undergo_veil s)
  | setService service => rfl
  | setClock clock => rfl
  | endWriter k writer => exact w.endWriter?_veil k writer

end World

end Switchboard
