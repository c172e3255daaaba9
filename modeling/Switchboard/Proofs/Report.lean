import Switchboard.Proofs.Breaches
import Switchboard.Proofs.Entitlement
import Switchboard.Proofs.Handover
import Switchboard.Proofs.Silence
import Switchboard.Proofs.Winding

/-!
# Reports

A breach of the protocol is reported, and then the connection is closed. From the moment at which
the report is queued the connection is being wound up. Until it is over it can go on by itself, and
it does not go on for long; and when it is over, all replies have been written on it and the report
last, exactly if its writer has forsaken none of them (`breach_reported_iff_not_forsaken`). It can
forsake them, and the report with them: if the hub lets go of the connection between the writer's
look at the replies and that at the queue (`report_forsaken`).
-/

namespace Switchboard

open Wire

/-! ## Over a course -/

section Courses

variable {whole : Prop} {callers : Request → Prop} {past late : List Moment} {u w : World}
  {service : Service} {start : Instant} {clock : Time.Timestamp} {k : ConnectionId} {e : Error}
  {c₀ c : Connection}

/-- Every connection has a queue. -/
theorem Course.isSome_inbox (h : Course callers (.start service start clock) past w)
    (hc : w.connections[k]? = some c) :
    (w.site.hub.exchange.mail.get? c.queue).isSome = true := by
  rw [Exchange.isSome_get?]
  exact decide_eq_true (h.ownQueues.counted k c.stand (stand?_of_connection hc))

/-- A course begins in the world that its first move met. -/
theorem Course.origin_eq (h : Course callers u late w) : origin late w = u := by
  cases late with
  | nil => exact h.eq_of_nil
  | cons m late => exact h.uncons.1

/-- A connection's writer can act unless it is in its main loop and has a reader. -/
theorem Course.isSome_writer (h : Course callers (.start service start clock) past w)
    (hc : w.connections[k]? = some c) (hclear : c.socket.IsClear)
    (hrunning : c.writer.isRunning = true)
    (hnext : c.isServing = false ∨ ∀ silence, c.writer.task ≠ .waiting silence) :
    (w.act? (.writer k [])).isSome = true := by
  obtain ⟨queue, hqueue⟩ := Option.isSome_iff_exists.mp (h.isSome_inbox hc)
  have hsome : (c.writer.step? c.settings w.site.now c.seen (c.outlet queue) []).isSome = true :=
    Writer.isSome_step? hrunning hclear hnext
  obtain ⟨⟨writer, o⟩, hstep⟩ := Option.isSome_iff_exists.mp hsome
  show ((w.connections[k]?).bind _).isSome = true
  rw [hc, Option.bind_some, Option.isSome_map]
  unfold Connection.stepWriter?
  rw [hqueue]
  dsimp only
  rw [hstep]
  rfl

/-- A reader that does not act stays as it is. -/
theorem Course.same_reader (h₀ : Course callers (.start service start clock) past u)
    (hc₀ : u.connections[k]? = some c₀) (h : Course callers u late w)
    (hquiet : ∀ m ∈ late, m.move ≠ .act (.reader k)) :
    ∃ c, w.connections[k]? = some c ∧ c.reader = c₀.reader := by
  induction h with
  | start => exact ⟨c₀, hc₀, rfl⟩
  | @move late u' v m hcourse _ hmove ih =>
    obtain ⟨c, hc, hreader⟩ := ih fun m hm => hquiet m (List.mem_append_left _ hm)
    obtain ⟨c', hc', hbec⟩ := becomes_of_move (h₀.trans hcourse).calm hmove hc
    refine ⟨c', hc', ?_⟩
    cases hbec with
    | stride hm => exact absurd hm (hquiet ⟨u', m⟩ (by simp))
    | other _ hgoes => exact hgoes.reader.trans hreader

theorem said_append_of_ne (past : List Moment)
    (hquiet : ∀ m ∈ late, m.move ≠ .act (.reader k)) : said k (past ++ late) = said k past := by
  have hnone : late.filterMap (·.passesOn? k) = [] := Moment.filterMap_ofReader?_eq_nil hquiet
  unfold said
  rw [List.filterMap_append, hnone, List.append_nil]

/-- What one move makes of a connection that reports an error. -/
theorem Reporting.move {m : Moment} {v : World} (h : Reporting whole past k e m.world.site.now c)
    (hcourse : Course callers (.start service start clock) past m.world)
    (hc : m.world.connections[k]? = some c) (hclear : m.Clear k)
    (hmove : m.world.move? m.move = some v) :
    ∃ c', v.connections[k]? = some c' ∧ c.Fares m k c' ∧
      Reporting (whole ∧ ¬ m.Forsakes k) (past ++ [m]) k e v.site.now c' := by
  obtain ⟨c', hc', hfares⟩ := fares_of_move hcourse.calm hmove hc
  have hreport := h.fares (hcourse.penned hc) hc hclear hfares
  refine ⟨c', hc', hfares, ?_⟩
  by_cases htime : ∃ t, m.move = .undergo (.setNow t)
  · obtain ⟨t, ht⟩ := htime
    rw [ht] at hmove
    obtain rfl := Option.some.inj hmove
    obtain rfl : c = c' := Option.some.inj (hc.symm.trans hc')
    refine hreport.wait t fun hrunning => ?_
    -- time passes, so there is nothing for the writer to do
    have hidle := hclear.time t ht
    by_contra hbusy
    have hnext : c.isServing = false ∨ ∀ silence, c.writer.task ≠ .waiting silence := by
      by_cases hserving : c.isServing = true
      · exact .inr fun silence hwait => hbusy ⟨hserving, silence, hwait⟩
      · exact .inl (Bool.eq_false_iff.mpr hserving)
    have hacts := hcourse.isSome_writer hc (hclear.socket c hc) hrunning hnext
    rw [hidle] at hacts
    cases hacts
  · rw [now_of_move hmove fun t ht => htime ⟨t, ht⟩]
    exact hreport

/-- **A connection that reports an error goes on doing so**, its reader never acts again, and the
moves that it makes once it has stopped serving come to an end. -/
theorem Course.reporting (h₀ : Course callers (.start service start clock) past u)
    (hc₀ : u.connections[k]? = some c₀) (hreport : Reporting whole past k e u.site.now c₀)
    (h : Course callers u late w) (hclear : ∀ m ∈ late, m.Clear k) :
    ∃ c, w.connections[k]? = some c ∧
      Reporting (whole ∧ ∀ m ∈ late, ¬ m.Forsakes k) (past ++ late) k e w.site.now c ∧
      (∀ m ∈ late, m.move ≠ .act (.reader k)) ∧
      (c₀.isServing = false → c.isServing = false ∧
        (late.filter (·.isOwn k)).length + c.rest ≤
          c₀.rest + 2 * (late.filter (·.missesReplies k)).length) := by
  induction h with
  | start =>
    refine ⟨c₀, hc₀, ?_, fun m hm => (nomatch hm), fun hserving => ⟨hserving, ?_⟩⟩
    · rw [List.append_nil]
      exact hreport.congr (and_iff_left fun m hm => (nomatch hm)).symm
    · exact Nat.le_of_eq (Nat.zero_add _)
  | @move late u' v m hcourse _ hmove ih =>
    obtain ⟨c, hc, hreport, hquiet, hrest⟩ := ih fun m hm => hclear m (List.mem_append_left _ hm)
    have hclear : Moment.Clear ⟨u', m⟩ k := hclear _ (by simp)
    obtain ⟨c', hc', hfares, hreport'⟩ :=
      hreport.move (m := ⟨u', m⟩) (h₀.trans hcourse) hc hclear hmove
    refine ⟨c', hc', ?_, ?_, fun hserving => ?_⟩
    · rw [← List.append_assoc]
      refine hreport'.congr ?_
      rw [and_assoc, List.forall_mem_append, List.forall_mem_singleton]
    · intro m' hm'
      rcases List.mem_append.mp hm' with hm' | hm'
      · exact hquiet m' hm'
      · rw [List.mem_singleton.mp hm']
        exact hreport.not_read hfares
    · obtain ⟨hserving, hle⟩ := hrest hserving
      obtain ⟨hserving', hle'⟩ := hreport.closer (m := ⟨u', m⟩) hclear hserving hfares
      refine ⟨hserving', ?_⟩
      simp only [← List.countP_eq_length_filter, List.countP_append, List.countP_singleton]
        at hle ⊢
      omega

end Courses

/-! ## What comes of a breach -/

/--
What has come of the error `e` on a connection whose reader had said `replies` before: the moments
of `since` are those since the report was queued, and have led to the world `w`.
-/
structure Reported (k : ConnectionId) (e : Error) (replies : List Message)
    (past since : List Moment) (w : World) (c : Connection) : Prop where
  /-- Once the writer has ended it has written replies in their order, the report behind all of
  them, and between them only frames of the hub; and then a single goodbye. -/
  written : c.writer.isRunning = false →
    ∃ body, writtenBy k past = body ++ [.close none] ∧ IsOpen body ∧
      Merge (takenUp .reader (begunBy k past)) (takenUp .hub (begunBy k past)) (envelopes body) ∧
      (takenUp .reader (begunBy k past)).map (·.message) <+: replies ++ [.error e.code e.message]
  /-- It has written every reply and the report, exactly if it has forsaken none, -/
  complete : c.writer.isRunning = false →
    ((takenUp .reader (begunBy k past)).map (·.message) = replies ++ [.error e.code e.message] ↔
      ∀ m ∈ since, ¬ m.Forsakes k)
  /-- and none are forsaken but by a look that misses them. -/
  missed : ∀ m ∈ since, m.Forsakes k → m.missesReplies k = true
  /-- The connection ends after its writer, and because of the error unless the writer came
  first. -/
  outcome : c.isOver = true → c.writer.isRunning = false ∧
    (c.phase = .ended (.protocolViolation e.code) ∨
      ∃ why, c.writer.task = .finished why ∧ c.phase = .ended why)
  /-- It can stop serving at any time. -/
  stops : c.isServing = true → (w.act? (.client k .reader)).isSome = true
  /-- Until it is over, it can go on by a move of its own without time passing, -/
  goesOn : c.isOver = false → c.socket.IsClear →
    (w.act? (.client k .reader)).isSome = true ∨ (w.act? (.writer k [])).isSome = true
  /-- and once it has stopped serving there are few of those, but for looks that miss replies. -/
  ends : ∀ earlier later c₁, since = earlier ++ later →
    (origin later w).connections[k]? = some c₁ → c₁.isServing = false →
    (later.filter (·.isOwn k)).length ≤
      2 * c₁.replies.length + 5 + 2 * (later.filter (·.missesReplies k)).length

section Courses

variable {whole : Prop} {callers : Request → Prop} {past before between after : List Moment}
  {m₀ m₁ : Moment} {u w : World} {service : Service} {start : Instant} {clock : Time.Timestamp}
  {k : ConnectionId} {e : Error} {c₀ c₁ c : Connection}

/-- A connection whose reader has ended can stop serving, and then end when its writer has. -/
theorem Reporting.isSome_client {now : Instant} (h : Reporting whole past k e now c)
    (hc : w.connections[k]? = some c)
    (hnext : c.isServing = true ∨ (c.isOver = false ∧ c.writer.isRunning = false)) :
    (w.act? (.client k .reader)).isSome = true := by
  have hend : c.readerEnd? = some (.protocolViolation e.code) := by
    unfold Connection.readerEnd?
    rw [h.silent, h.reader]
  have hstep : (c.stepEnd? k .reader w.site).isSome = true := by
    unfold Connection.stepEnd?
    cases h.parting with
    | serving hphase =>
      rw [hphase, hend]
      rfl
    | draining hphase =>
      rcases hnext with hserving | ⟨-, hended⟩
      · cases hphase.symm.trans (Connection.phase_of_isServing hserving)
      · rw [hphase, hended]
        rfl
    | ended hphase =>
      rcases hnext with hserving | ⟨hover, -⟩
      · cases hphase.symm.trans (Connection.phase_of_isServing hserving)
      · unfold Connection.isOver at hover
        rw [hphase] at hover
        cases hover
  show ((w.connections[k]?).bind _).isSome = true
  rw [hc, Option.bind_some, Option.isSome_map]
  exact hstep

/-- How a connection is over whose reader has ended because of an error. -/
theorem Connection.Parting.outcome {now : Instant} (h : c.Parting e now)
    (hover : c.isOver = true) : c.writer.isRunning = false ∧
      (c.phase = .ended (.protocolViolation e.code) ∨
        ∃ why, c.writer.task = .finished why ∧ c.phase = .ended why) := by
  cases h with
  | ended hphase hended hwhy =>
    rcases hwhy with rfl | ht
    · exact ⟨hended, .inl hphase⟩
    · exact ⟨hended, .inr ⟨_, ht, hphase⟩⟩
  | serving hphase | draining hphase =>
    unfold isOver at hover
    rw [hphase] at hover
    cases hover

/-- What has been written once the writer has ended. -/
theorem SignedOff.report (h : SignedOff whole past k) (hpenned : Penned past k c) :
    ∃ body, writtenBy k past = body ++ [.close none] ∧ IsOpen body ∧
      Merge (takenUp .reader (begunBy k past)) (takenUp .hub (begunBy k past)) (envelopes body) ∧
      (takenUp .reader (begunBy k past)).map (·.message) <+: said k past := by
  obtain ⟨body, hwritten, hopen⟩ := h.written
  refine ⟨body, hwritten, hopen, ?_, h.replies⟩
  have hmerge := merge_takenUp hpenned.genuine
  have hgoodbye : envelopes (body ++ [.close none]) = envelopes body := by
    simp [envelopes, Outgoing.envelope?]
  rw [h.begun, hwritten, hgoodbye] at hmerge
  exact hmerge

/-- Once it has stopped serving, a connection makes few moves of its own. -/
theorem Course.ends (h₀ : Course callers (.start service start clock) past u)
    (hc₀ : u.connections[k]? = some c₀) (hreport : Reporting whole past k e u.site.now c₀)
    (h : Course callers u after w) (hclear : ∀ m ∈ after, m.Clear k) {earlier later : List Moment}
    (hsplit : after = earlier ++ later) (hc₁ : (origin later w).connections[k]? = some c₁)
    (hserving : c₁.isServing = false) : (later.filter (·.isOwn k)).length ≤
      2 * c₁.replies.length + 5 + 2 * (later.filter (·.missesReplies k)).length := by
  subst hsplit
  obtain ⟨v, hearlier, hlater⟩ := h.split
  rw [hlater.origin_eq] at hc₁
  obtain ⟨c₂, hc₂, hreport₂, -⟩ := h₀.reporting hc₀ hreport hearlier
    fun m hm => hclear m (List.mem_append_left _ hm)
  obtain rfl := Option.some.inj (hc₁.symm.trans hc₂)
  obtain ⟨c₃, -, -, -, hrest⟩ := (h₀.trans hearlier).reporting hc₁ hreport₂ hlater
    fun m hm => hclear m (List.mem_append_right _ hm)
  have hle := (hrest hserving).2
  have hbound := c₁.rest_le
  omega

/-- What has come of an error some time after its report was queued. -/
theorem Course.reported (h₀ : Course callers (.start service start clock) past u)
    (hc₀ : u.connections[k]? = some c₀) (hreport : Reporting True past k e u.site.now c₀)
    (h : Course callers u after w) (hclear : ∀ m ∈ after, m.Clear k) {replies : List Message}
    (hsaid : said k past = replies ++ [.error e.code e.message]) :
    ∃ c, w.connections[k]? = some c ∧ (∀ m ∈ after, m.move ≠ .act (.reader k)) ∧
      Reported k e replies (past ++ after) after w c := by
  obtain ⟨c, hc, hreport', hquiet, -⟩ := h₀.reporting hc₀ hreport h hclear
  have hcourse := h₀.trans h
  have hsaid : said k (past ++ after) = replies ++ [.error e.code e.message] :=
    (said_append_of_ne past hquiet).trans hsaid
  refine ⟨c, hc, hquiet, ⟨fun hended => ?_, fun hended => ?_,
    fun m _ => Moment.Forsakes.missesReplies, hreport'.parting.outcome,
    fun hserving => hreport'.isSome_client hc (.inl hserving), fun hover hsocket => ?_,
    fun earlier later c₁ hsplit hc₁ hserving =>
      h₀.ends hc₀ hreport h hclear hsplit hc₁ hserving⟩⟩
  · rw [← hsaid]
    exact (hreport'.winding.signedOff hended).report (hcourse.penned hc)
  · rw [← hsaid]
    exact (hreport'.winding.signedOff hended).complete.trans (and_iff_right trivial)
  · by_cases hserving : c.isServing = true
    · exact .inl (hreport'.isSome_client hc (.inl hserving))
    have hserving : c.isServing = false := Bool.eq_false_iff.mpr hserving
    by_cases hrunning : c.writer.isRunning = true
    · exact .inr (hcourse.isSome_writer hc hsocket hrunning (.inl hserving))
    · exact .inl (hreport'.isSome_client hc (.inr ⟨hover, Bool.eq_false_iff.mpr hrunning⟩))

/-- The report of an error is queued. -/
theorem reporting_of_pass {v : World} (h : Course callers (.start service start clock) past u)
    (hmove : u.move? (.act (.reader k)) = some v) (hc : u.connections[k]? = some c)
    (ho : c.reader.outgoing = [.error e.code e.message])
    (ht : c.reader.task = .finished (.protocolViolation e.code)) (hwork : c.AtWork u.site.now)
    (hwrite : 0 < c.settings.write) (hgrace : c.settings.hasGrace = true) :
    ∃ c', v.connections[k]? = some c' ∧
      Reporting True (past ++ [⟨u, .act (.reader k)⟩]) k e v.site.now c' := by
  obtain ⟨c', hc', hfares⟩ := fares_of_move h.calm hmove hc
  refine ⟨c', hc', ?_⟩
  rw [now_of_move hmove (by simp)]
  cases hfares with
  | read _ hserving hstrode hread =>
    have hreader := hstrode.stride.of_outgoing ho
    -- while it passes something on, a reader hears nothing, so the writer's deadline can still be
    have hseen : c'.seen = c.seen := by
      have hdeaf : c.hears? = none := by simp [Connection.hears?, ho]
      rw [hread.seen, hdeaf]
      rfl
    have hphase := Connection.phase_of_isServing hserving
    refine ⟨?_, ?_, hread.settings ▸ hwrite, hread.settings ▸ hgrace,
      .working ⟨?_, fun hs => ?_, ?_⟩ trivial, .serving (hread.phase.trans hphase)⟩
    · rw [hreader]
    · rw [hreader]
      exact ht
    · rw [hread.writer]
      exact hwork.looping
    · rw [hread.settings]
      exact hwork.beats (hread.writer ▸ hs)
    · rw [hread.settings, hseen]
      exact hwork.silence
  | write hm | part hm | cut hm | reach _ hm => cases hm
  | stay hactors => exact absurd rfl (hactors _ rfl).2.1

/--
**A breach of the protocol is reported, and then the connection is closed**, exactly if the writer
does not forsake the report. Let a connection's reader meet an error after which the connection
cannot go on, and let the writer still be in its main loop when the report is queued. If writers
have some time for a frame and nothing holds up the writing from then on, then whatever the hub, the
peer and the other connections do, the client is not listened to any more, and `Reported` says what
comes of the error.
-/
theorem breach_reported_iff_not_forsaken
    (h : Course callers (.start service start clock)
      (before ++ m₀ :: (between ++ m₁ :: after)) w)
    (hmeets : m₀.Meets k e) (hbetween : ∀ m ∈ between, m.move ≠ .act (.reader k))
    (hm₁ : m₁.move = .act (.reader k)) (hc₁ : m₁.world.connections[k]? = some c₁)
    (hwork : c₁.AtWork m₁.world.site.now) (hwrite : 0 < c₁.settings.write)
    (hgrace : c₁.settings.hasGrace = true) (hclear : ∀ m ∈ after, m.Clear k) :
    (∀ m ∈ between ++ m₁ :: after, m.ofReader? k Connection.hears? = none) ∧
      ∃ c, w.connections[k]? = some c ∧
        Reported k e (said k before) (before ++ m₀ :: (between ++ m₁ :: after)) after w c := by
  obtain ⟨c₀, ⟨hm₀, hc₀, -, ho₀⟩, hbreach⟩ := hmeets
  obtain ⟨u₀, hbefore, h⟩ := h.split
  obtain ⟨rfl, hcall₀, u₁, hmove₀, h⟩ := h.uncons
  -- the breach is met
  have h₁ := hbefore.move hcall₀ hmove₀
  rw [hm₀] at hmove₀
  obtain ⟨c₀', site, hstep, -, hc₀'⟩ := stepReader?_of_act? hmove₀ hc₀
  have hviolate := hbreach.violate hstep
  -- and its report waits to be passed on
  obtain ⟨u₂, hmid, h⟩ := h.split
  obtain ⟨rfl, hcall₁, u₃, hmove₁, hafter⟩ := h.uncons
  obtain ⟨c₁', hc₁', hreader⟩ := h₁.same_reader hc₀' hmid hbetween
  obtain rfl := Option.some.inj (hc₁.symm.trans hc₁')
  have hreports : c₁.reader = c₀.reader.violate e := hreader.trans hviolate
  have ho₁ : c₁.reader.outgoing = [.error e.code e.message] := by rw [hreports]; rfl
  have ht₁ : c₁.reader.task = .finished (.protocolViolation e.code) := by rw [hreports]; rfl
  -- until it is queued
  have h₂ := h₁.trans hmid
  have h₃ := h₂.move hcall₁ hmove₁
  have hm₁' : (⟨m₁.world, .act (.reader k)⟩ : Moment) = m₁ := by rw [← hm₁]
  rw [hm₁] at hmove₁
  obtain ⟨c₂, hc₂, hreport⟩ := reporting_of_pass h₂ hmove₁ hc₁ ho₁ ht₁ hwork hwrite hgrace
  rw [hm₁'] at hreport
  have hsaid : said k (before ++ [m₀] ++ between ++ [m₁]) =
      said k before ++ [.error e.code e.message] := by
    have hpass₀ : m₀.passesOn? k = none := by
      rw [Moment.passesOn?, Moment.ofReader?_of_act hm₀ hc₀, ho₀]
      rfl
    have hpass₁ : m₁.passesOn? k = some (.error e.code e.message) := by
      rw [Moment.passesOn?, Moment.ofReader?_of_act hm₁ hc₁, ho₁]
      rfl
    rw [said_snoc, said_append_of_ne _ hbetween, said_snoc, hpass₀, hpass₁]
    simp
  obtain ⟨c, hc, hquiet, hreported⟩ := h₃.reported hc₂ hreport hafter hclear hsaid
  refine ⟨fun m hm => ?_, c, hc, ?_⟩
  · rcases List.mem_append.mp hm with hm | hm
    · exact Moment.ofReader?_of_ne (hbetween m hm)
    rcases List.mem_cons.mp hm with rfl | hm
    · rw [Moment.ofReader?_of_act hm₁ hc₁]
      simp [Connection.hears?, ho₁]
    · exact Moment.ofReader?_of_ne (hquiet m hm)
  · have hpast : before ++ m₀ :: (between ++ m₁ :: after) =
        before ++ [m₀] ++ between ++ [m₁] ++ after := by simp
    rw [hpast]
    exact hreported

end Courses

/-! ## A report and what comes of it -/

/-- Time does not pass, nobody ends the writer, and the way out is clear. -/
def Moment.isClear (m : Moment) (k : ConnectionId) : Bool :=
  (m.world.connections[k]?).all (fun c =>
    !c.socket.isBroken && !c.socket.isFull && !c.socket.closeHangs) &&
  match m.move with
  | .undergo (.setNow _) | .endWriter _ _ => false
  | _ => true

theorem Moment.clear_of_isClear {m : Moment} {k : ConnectionId} (h : m.isClear k = true) :
    m.Clear k := by
  unfold isClear at h
  obtain ⟨hsocket, hmove⟩ := Bool.and_eq_true_iff.mp h
  refine ⟨fun c hc => ?_, fun t ht => ?_, fun writer hw => ?_⟩
  · rw [hc] at hsocket
    simp only [Option.all_some, Bool.and_eq_true, Bool.not_eq_true'] at hsocket
    exact ⟨hsocket.1.1, hsocket.1.2, hsocket.2⟩
  · rw [ht] at hmove
    cases hmove
  · rw [hw] at hmove
    cases hmove

/-- A connection's writer waits, its deadline can be, and it has some time to finish. -/
def Connection.isPoised (c : Connection) : Bool :=
  (match c.writer.task with
    | .waiting _ => true
    | _ => false) &&
  c.settings.hasSilence c.seen && decide (0 < c.settings.write) && c.settings.hasGrace

/-- The worlds of a run in which the reader of the first connection takes two steps: -/
structure Affair where
  /-- before the first of them and after it, -/
  noon : World
  heard : World
  /-- before the second and after it, -/
  poised : World
  spoken : World
  /-- and at the end. -/
  evening : World

/-- The run that makes the moves of `opening` before the two steps, those of `between` between them
and those of `ending` after them. -/
def World.affair? (start : World) (opening between ending : List Move) : Option Affair :=
  (start.follow? opening).bind fun noon =>
  (noon.move? (.act (.reader 0))).bind fun heard =>
  (heard.follow? between).bind fun poised =>
  (poised.move? (.act (.reader 0))).bind fun spoken =>
  (spoken.follow? ending).map fun evening => ⟨noon, heard, poised, spoken, evening⟩

namespace Affair

variable {callers : Request → Prop} {start : World} {opening between ending : List Move}
  {a : Affair}

def past (a : Affair) (start : World) (opening between ending : List Move) : List Moment :=
  start.trail opening ++ ⟨a.noon, .act (.reader 0)⟩ ::
    (a.heard.trail between ++ ⟨a.poised, .act (.reader 0)⟩ :: a.spoken.trail ending)

theorem course (h : start.affair? opening between ending = some a)
    (hcalls : ∀ r, .undergo (.issue r) ∉ opening ++ between ++ ending) :
    Course callers start (a.past start opening between ending) a.evening := by
  have uncalled : ∀ {moves : List Move}, (∀ m ∈ moves, m ∈ opening ++ between ++ ending) →
      ∀ r, .undergo (.issue r) ∈ moves → callers r := fun hin r hr => absurd (hin _ hr) (hcalls r)
  obtain ⟨noon, hopening, h⟩ := Option.bind_eq_some_iff.mp h
  obtain ⟨heard, hreads, h⟩ := Option.bind_eq_some_iff.mp h
  obtain ⟨poised, hbetween, h⟩ := Option.bind_eq_some_iff.mp h
  obtain ⟨spoken, hreports, h⟩ := Option.bind_eq_some_iff.mp h
  obtain ⟨evening, hending, rfl⟩ := Option.map_eq_some_iff.mp h
  have h₁ := course_of_follow? (uncalled fun m hm => by simp [hm]) hopening
  have h₂ := h₁.move (by simp) hreads
  have h₃ := h₂.trans (course_of_follow? (uncalled fun m hm => by simp [hm]) hbetween)
  have h₄ := h₃.move (by simp) hreports
  simpa [past] using h₄.trans (course_of_follow? (uncalled fun m hm => by simp [hm]) hending)

/-- The reader hears octets, its writer waits when they are to be reported, and nothing holds up the
writing from then on. -/
def IsScandal (a : Affair) (ending : List Move) : Prop :=
  a.noon.connections[0]?.map (fun c => (c.hears?, c.isServing, c.reader.outgoing.isEmpty)) =
    some (some (.binary []), true, true) ∧
  a.poised.connections[0]?.map Connection.isPoised = some true ∧
  (a.spoken.trail ending).all (·.isClear 0) = true

instance (a : Affair) (ending : List Move) : Decidable (a.IsScandal ending) :=
  inferInstanceAs (Decidable (_ ∧ _ ∧ _))

theorem IsScandal.meets (h : a.IsScandal ending) :
    Moment.Meets ⟨a.noon, .act (.reader 0)⟩ 0 Reader.binaryFrame := by
  obtain ⟨c, hc, hshout⟩ := Option.map_eq_some_iff.mp h.1
  obtain ⟨hhears, hrest⟩ := Prod.mk.inj hshout
  obtain ⟨hserving, hsilent⟩ := Prod.mk.inj hrest
  exact ⟨c, ⟨rfl, hc, hserving, List.isEmpty_iff.mp hsilent⟩, .binary hhears⟩

theorem IsScandal.atWork (h : a.IsScandal ending) :
    ∃ c, a.poised.connections[0]? = some c ∧ c.AtWork a.poised.site.now ∧ 0 < c.settings.write ∧
      c.settings.hasGrace = true := by
  obtain ⟨c, hc, hpoised⟩ := Option.map_eq_some_iff.mp h.2.1
  unfold Connection.isPoised at hpoised
  simp only [Bool.and_eq_true, decide_eq_true_eq] at hpoised
  obtain ⟨⟨⟨htask, hsilence⟩, hwrite⟩, hgrace⟩ := hpoised
  refine ⟨c, hc, ?_, hwrite, hgrace⟩
  split at htask
  · rename_i silence ht
    exact ⟨by rw [ht]; rfl, fun hs => (nomatch ht.symm.trans hs), hsilence⟩
  · cases htask

theorem IsScandal.clear (h : a.IsScandal ending) : ∀ m ∈ a.spoken.trail ending, m.Clear 0 :=
  fun m hm => Moment.clear_of_isClear (List.all_eq_true.mp h.2.2 m hm)

end Affair

/-! ## An outburst -/

namespace Outburst

/-- Ann signs in and then sends octets, and a ping after that; Bob signs in as well. -/
def opening : List Move :=
  [.undergo (.connect .standard ((Encounter.signIn "ann").arrive [.binary [], .ping []])),
    .undergo (.connect .standard (Encounter.signIn "bob")),
    .act (.reader 0), .act (.reader 0), .act (.hub []), .act (.reader 0), .act (.reader 0),
    .act (.reader 1), .act (.reader 1), .act (.hub [])]

/-- Ann's writer begins when the octets have been read. -/
def between : List Move := [.act (.writer 0 [])]

/-- It writes two replies and the news of Bob. Then her reader is let go. -/
def ending : List Move :=
  List.replicate 6 (.act (.writer 0 [])) ++ [.act (.client 0 .reader)] ++
    List.replicate 3 (.act (.writer 0 [])) ++ [.act (.client 0 .reader)]

theorem possible : (Encounter.start.affair? opening between ending).isSome = true := by
  decide +kernel

def affair : Affair := (Encounter.start.affair? opening between ending).get possible

def before : List Moment := Encounter.start.trail opening

def past : List Moment := affair.past Encounter.start opening between ending

def after : List Moment := affair.spoken.trail ending

theorem course : Course (fun _ => False) Encounter.start past affair.evening :=
  Affair.course (Option.some_get possible).symm (by simp [opening, between, ending])

theorem isScandal : affair.IsScandal ending := by decide +kernel

/-- One reply before the report, then the report, the news of Bob and a goodbye. -/
theorem written : (said 0 before).length = 1 ∧ (writtenBy 0 past).length = 4 ∧
    affair.evening.connections[0]?.map (fun c => match c.phase with
      | .ended why => some why
      | _ => none) = some (some (.protocolViolation "binary_frame_not_allowed")) := by
  decide +kernel

theorem unread : ∀ m ∈ affair.heard.trail between, m.move ≠ .act (.reader 0) := by
  intro m hm hreader
  have hin := World.move_mem_of_mem_trail hm
  rw [hreader] at hin
  simp [between] at hin

end Outburst

open Outburst in
theorem breach_reported_iff_not_forsaken_outburst :
    ∃ c, affair.evening.connections[0]? = some c ∧
      c.phase = .ended (.protocolViolation "binary_frame_not_allowed") ∧
      (said 0 before).length = 1 ∧ (writtenBy 0 past).length = 4 ∧
      Reported 0 Reader.binaryFrame (said 0 before) past after affair.evening c := by
  obtain ⟨c₁, hc₁, hwork, hwrite, hgrace⟩ := isScandal.atWork
  obtain ⟨-, c, hc, hreported⟩ := breach_reported_iff_not_forsaken course isScandal.meets unread
    rfl hc₁ hwork hwrite hgrace isScandal.clear
  obtain ⟨hreply, hfour, hconcluded⟩ := written
  obtain ⟨c', hc', hover⟩ := Option.map_eq_some_iff.mp hconcluded
  obtain rfl := Option.some.inj (hc.symm.trans hc')
  have hphase : c.phase = .ended (.protocolViolation "binary_frame_not_allowed") := by
    split at hover
    · rename_i why hphase
      rw [hphase, Option.some.inj hover]
    · cases hover
  exact ⟨c, hc, hphase, hreply, hfour, hreported⟩

/-! ## An interruption -/

namespace Interruption

/-- Ann signs in, is told so, and sends octets. -/
def opening : List Move :=
  [.undergo (.connect .standard ((Encounter.signIn "ann").arrive [.binary []])),
    .act (.reader 0), .act (.reader 0), .act (.hub []), .act (.reader 0), .act (.reader 0)] ++
  List.replicate 3 (.act (.writer 0 []))

/-- Her writer looks at the replies before the report is among them, and at the queue when the hub
has let go of it. -/
def ending : List Move :=
  [.act (.client 0 .reader), .act (.hub []), .act (.writer 0 [.replies])] ++
    List.replicate 2 (.act (.writer 0 [])) ++ [.act (.client 0 .reader)]

theorem possible : (Encounter.start.affair? opening [] ending).isSome = true := by decide +kernel

def affair : Affair := (Encounter.start.affair? opening [] ending).get possible

def past : List Moment := affair.past Encounter.start opening [] ending

theorem course : Course (fun _ => False) Encounter.start past affair.evening :=
  Affair.course (Option.some_get possible).symm (by simp [opening, ending])

theorem isScandal : affair.IsScandal ending := by decide +kernel

/-- The report is not among what is written, and the writer ends because of the hub. -/
theorem unwritten : (said 0 past).map Message.kind = [.authOk, .error] ∧
    (envelopes (writtenBy 0 past)).map (·.message.kind) = [.authOk] ∧
    (writtenBy 0 past).map Outgoing.isClose = [false, true] ∧
    affair.evening.connections[0]?.bind (·.writer.task.ending?) = some .queueClosed := by
  decide +kernel

end Interruption

open Interruption in
/-- **A report can be forsaken**: it is queued while the writer is in its main loop and nothing
holds up the writing, and the goodbye is written without it. -/
theorem report_forsaken : Course (fun _ => False) Encounter.start past affair.evening ∧
    Moment.Meets ⟨affair.noon, .act (.reader 0)⟩ 0 Reader.binaryFrame ∧
    (∃ c, affair.poised.connections[0]? = some c ∧ c.AtWork affair.poised.site.now ∧
      0 < c.settings.write ∧ c.settings.hasGrace = true) ∧
    (∀ m ∈ affair.spoken.trail ending, m.Clear 0) ∧
    (said 0 past).map Message.kind = [.authOk, .error] ∧
    (envelopes (writtenBy 0 past)).map (·.message.kind) = [.authOk] ∧
    (writtenBy 0 past).map Outgoing.isClose = [false, true] ∧
    affair.evening.connections[0]?.bind (·.writer.task.ending?) = some .queueClosed :=
  ⟨course, isScandal.meets, isScandal.atWork, isScandal.clear, unwritten⟩

end Switchboard
