import Switchboard.Proofs.Handshake

/-!
# Breaches of the protocol

When a reader gives up its connection because of an error. `Breach` lists the ways in which that can
come about: a reader that meets one of them reports it and is done (`Breach.violate`), and a reader
that is done for such a reason has met one of them (`breach_of_stepReader?`).
-/

namespace Switchboard

open Wire

/-! ## Breaches -/

/--
`Breach site c e`: the reader of `c` is about to find the error `e`, after which a connection cannot
go on.
-/
inductive Breach (site : Site) (c : Connection) : Error → Prop
  | binary {octets : List UInt8} :
      c.hears? = some (.binary octets) → Breach site c Reader.binaryFrame
  | oversized {text : String} :
      c.hears? = some (.text text) → c.settings.maxFrameBytes < text.utf8ByteSize →
      Breach site c Reader.frameTooLarge
  | illegible {text : String} {e : Error} :
      c.hears? = some (.text text) → text.utf8ByteSize ≤ c.settings.maxFrameBytes →
      ControlFrame.decode text = .error e → Breach site c e
  | again {token : String} {i : Identity} {topics : List Topic} :
      c.reads? = some (.auth token) → c.reader.session = .authenticated i topics →
      Breach site c Reader.alreadyAuthenticated
  | early {frame : ControlFrame} {failures : Nat} :
      c.reads? = some frame → (∀ token, frame ≠ .auth token) →
      c.reader.session = .unauthenticated failures → Breach site c Reader.notAuthenticated
  /-- Something goes wrong with a token that is not the client's fault. -/
  | verdict {e : Error} :
      c.verdict? site.service = some (.error e) → e.isFatal = true → Breach site c e
  | taken {i : Identity} :
      c.verdict? site.service = some (.ok i) → c.reader.holdsQueue = false →
      Breach site c Reader.alreadyRegistered
  /-- The hub has stopped. -/
  | unanswered {p : Purpose} {t : Ticket} :
      c.IsAt (.awaiting p t) → site.hub.answer? t = some .unavailable → Breach site c hubUnavailable

/-- A connection's reader finds an error after which the connection cannot go on. -/
def Moment.Meets (m : Moment) (k : ConnectionId) (e : Error) : Prop :=
  ∃ c, m.Works k c ∧ Breach m.world.site c e

/-- A reader that gives up the connection asks the hub nothing. -/
theorem Reader.violate_not_asking (r : Reader) (e : Error) (p : Purpose) :
    (r.violate e).task ≠ .asking p := nofun

section Steps

variable {site site' : Site} {k : ConnectionId} {c c' : Connection} {e : Error}

variable {r : Reader}

/-- What a reader's task comes to when it does not lead to a request. -/
theorem reader_of_doTask? {task : ReaderTask} (hat : c.IsAt task)
    (hask : ∀ p, r.task ≠ .asking p)
    (hd : ∀ c₁ site₁, c.doTask? site = some (c₁, site₁) → c₁.reader = r)
    (h : c.stepReader? k site = some (c', site')) : c'.reader = r ∧ c.asks? k site = none := by
  obtain ⟨c₁, site₁, hstep, hsubmit⟩ := stepReader?_of_isAt hat h
  have hreader := hd c₁ site₁ hstep
  rw [submit_of_not_asking _ (hreader ▸ hask)] at hsubmit
  obtain ⟨rfl, -⟩ := Prod.mk.inj hsubmit
  refine ⟨hreader, ?_⟩
  unfold Connection.asks?
  rw [hstep, Option.bind_some]
  split
  · dsimp only
    split
    · rename_i p hp
      exact absurd hp (hreader ▸ hask p)
    · rfl
  · rfl

theorem reader_of_hears? {frame : Incoming} (hh : c.hears? = some frame)
    (hask : ∀ p, r.task ≠ .asking p)
    (hv : c.reader.hear c.settings site.now site.service.validationTime frame = r)
    (h : c.stepReader? k site = some (c', site')) : c'.reader = r ∧ c.asks? k site = none := by
  obtain ⟨hat, socket, hreceive⟩ := Connection.hears?_eq_some hh
  refine reader_of_doTask? hat hask (fun c₁ site₁ hd => ?_) h
  unfold Connection.doTask? at hd
  rw [hat.2] at hd
  dsimp only at hd
  rw [hreceive] at hd
  obtain ⟨rfl, -⟩ := Prod.mk.inj (Option.some.inj hd)
  exact hv

theorem reader_of_reads? {frame : ControlFrame} (hr : c.reads? = some frame)
    (hask : ∀ p, r.task ≠ .asking p)
    (hv : c.reader.obey c.settings site.now site.service.validationTime frame = r)
    (h : c.stepReader? k site = some (c', site')) : c'.reader = r ∧ c.asks? k site = none := by
  obtain ⟨hat, text, socket, hreceive, hsize, hdecode⟩ := Connection.reads?_eq_some hr
  have hhears : c.hears? = some (.text text) := by
    rw [Connection.hears?_of_listening hat, hreceive]
    rfl
  refine reader_of_hears? hhears hask ?_ h
  unfold Reader.hear Reader.hearText
  dsimp only
  rw [if_neg (Nat.not_lt.mpr hsize), hdecode]
  exact hv

/-- What a reader makes of an answer that it has waited for. -/
theorem reader_of_answer? {p : Purpose} {t : Ticket} {a : Answer} (hat : c.IsAt (.awaiting p t))
    (ha : site.hub.answer? t = some a) (hask : ∀ p, r.task ≠ .asking p)
    (hv : c.reader.learn c.settings p a = r)
    (h : c.stepReader? k site = some (c', site')) : c'.reader = r ∧ c.asks? k site = none := by
  refine reader_of_doTask? hat hask (fun c₁ site₁ hd => ?_) h
  unfold Connection.doTask? at hd
  rw [hat.2] at hd
  dsimp only at hd
  rw [ha] at hd
  obtain ⟨rfl, -⟩ := Prod.mk.inj (Option.some.inj hd)
  exact hv

theorem violate_of_verdict? {verdict : Except Error Identity}
    (hverdict : c.verdict? site.service = some verdict)
    (hv : c.reader.judge c.settings verdict = c.reader.violate e)
    (h : c.stepReader? k site = some (c', site')) : c'.reader = c.reader.violate e := by
  obtain ⟨token, ready, hat, hjudged⟩ := Connection.verdict?_eq_some hverdict
  refine (reader_of_doTask? hat (c.reader.violate_not_asking e) (fun c₁ site₁ hd => ?_) h).1
  unfold Connection.doTask? at hd
  rw [hat.2] at hd
  dsimp only at hd
  rw [hjudged, hv] at hd
  split at hd
  · obtain ⟨rfl, -⟩ := Prod.mk.inj (Option.some.inj hd)
    rfl
  · cases hd

/-- **Whatever the breach, the reader reports it and is done.** -/
theorem Breach.violate (hb : Breach site c e) (h : c.stepReader? k site = some (c', site')) :
    c'.reader = c.reader.violate e := by
  have hask := c.reader.violate_not_asking e
  cases hb with
  | binary hh => exact (reader_of_hears? hh hask rfl h).1
  | oversized hh hsize =>
    refine (reader_of_hears? hh hask ?_ h).1
    unfold Reader.hear Reader.hearText
    dsimp only
    rw [if_pos hsize]
    rfl
  | @illegible text _ hh hsize hdecode =>
    refine (reader_of_hears? hh hask ?_ h).1
    unfold Reader.hear Reader.hearText
    dsimp only
    rw [if_neg (Nat.not_lt.mpr hsize), hdecode]
    exact if_pos (ControlFrame.onlyFatal_decode text e hdecode)
  | again hr hsess =>
    refine (reader_of_reads? hr hask ?_ h).1
    unfold Reader.obey
    dsimp only
    rw [hsess]
    rfl
  | @early frame _ hr hframe hsess =>
    refine (reader_of_reads? hr hask ?_ h).1
    cases frame with
    | auth token => exact absurd rfl (hframe token)
    | subscribe | unsubscribe =>
      unfold Reader.obey
      dsimp only
      rw [hsess]
      rfl
  | verdict hverdict he => exact violate_of_verdict? hverdict (if_pos he) h
  | taken hverdict hq =>
    refine violate_of_verdict? hverdict ?_ h
    unfold Reader.judge
    dsimp only
    rw [if_neg (by simp [hq])]
    rfl
  | @unanswered p t hat hanswer =>
    refine (reader_of_answer? hat hanswer hask ?_ h).1
    cases p <;> rfl

/-! And a reader gives up the connection for nothing else. -/

theorem Reader.code_of_violate {r : Reader} {code : String}
    (h : (r.violate e).task = .finished (.protocolViolation code)) : e.code = code :=
  Termination.protocolViolation.inj (ReaderTask.finished.inj h)

variable {code : String}

theorem breach_of_obey {frame : ControlFrame} {now : Instant} {delay : Millis}
    (hr : c.reads? = some frame)
    (ht : (c.reader.obey c.settings now delay frame).task =
      .finished (.protocolViolation code)) : ∃ e, Breach site c e ∧ e.code = code := by
  cases hsess : c.reader.session with
  | unauthenticated failures =>
    cases frame with
    | auth token =>
      simp only [Reader.obey, hsess, Reader.goOn] at ht
      cases ht
    | subscribe | unsubscribe =>
      simp only [Reader.obey, hsess] at ht
      exact ⟨_, .early hr (by simp) hsess, Reader.code_of_violate ht⟩
  | authenticated i topics =>
    cases frame with
    | auth token =>
      simp only [Reader.obey, hsess] at ht
      exact ⟨_, .again hr hsess, Reader.code_of_violate ht⟩
    | subscribe | unsubscribe =>
      simp only [Reader.obey, hsess, Reader.goOn] at ht
      cases ht

theorem breach_of_hear {frame : Incoming} {now : Instant} {delay : Millis}
    (hh : c.hears? = some frame)
    (ht : (c.reader.hear c.settings now delay frame).task =
      .finished (.protocolViolation code)) : ∃ e, Breach site c e ∧ e.code = code := by
  cases frame with
  | text text =>
    unfold Reader.hear Reader.hearText at ht
    dsimp only at ht
    split at ht
    · rename_i hsize
      exact ⟨_, .oversized hh hsize, Reader.code_of_violate ht⟩
    · rename_i hsize
      split at ht
      · rename_i e hdecode
        have hfail : c.reader.fail c.settings e = c.reader.violate e :=
          if_pos (ControlFrame.onlyFatal_decode text e hdecode)
        rw [hfail] at ht
        exact ⟨e, .illegible hh (Nat.le_of_not_lt hsize) hdecode, Reader.code_of_violate ht⟩
      · rename_i frame hdecode
        have hr : c.reads? = some frame := by
          unfold Connection.reads?
          rw [hh]
          dsimp only
          rw [if_neg hsize, hdecode]
          rfl
        exact breach_of_obey hr ht
  | binary octets => exact ⟨_, .binary hh, Reader.code_of_violate ht⟩
  | ping | pong =>
    -- a reader that listens goes on listening
    have hat := (Connection.hears?_eq_some hh).1
    rw [Reader.hear, hat.2] at ht
    cases ht
  | close | endOfStream | failure => cases ht

theorem breach_of_judge {verdict : Except Error Identity}
    (hv : c.verdict? site.service = some verdict)
    (ht : (c.reader.judge c.settings verdict).task = .finished (.protocolViolation code)) :
    ∃ e, Breach site c e ∧ e.code = code := by
  cases verdict with
  | error e =>
    simp only [Reader.judge, Reader.fail] at ht
    split at ht
    · rename_i he
      exact ⟨e, .verdict hv he, Reader.code_of_violate ht⟩
    · cases hsess : c.reader.session with
      | unauthenticated failures =>
        rw [Reader.failHandshake_of_unauthenticated hsess] at ht
        rcases c.settings.afterFailures_cases (failures + 1) with hafter | hafter
        · cases hafter.symm.trans ht
        · cases hafter.symm.trans ht
      | authenticated i topics =>
        simp only [Reader.failHandshake, hsess, Reader.goOn] at ht
        cases ht
  | ok i =>
    simp only [Reader.judge] at ht
    split at ht
    · cases ht
    · rename_i hq
      exact ⟨_, .taken hv (Bool.eq_false_iff.mpr hq), Reader.code_of_violate ht⟩

theorem breach_of_learn {p : Purpose} {t : Ticket} {a : Answer} (hat : c.IsAt (.awaiting p t))
    (ha : site.hub.answer? t = some a)
    (ht : (c.reader.learn c.settings p a).task = .finished (.protocolViolation code)) :
    ∃ e, Breach site c e ∧ e.code = code := by
  unfold Reader.learn at ht
  split at ht
  · exact ⟨_, .unanswered hat ha, Reader.code_of_violate ht⟩
  all_goals cases ht

/-- **A reader that gives up the connection has found a breach.** -/
theorem breach_of_stepReader? (ho : c.reader.outgoing = [])
    (ht : c'.reader.task = .finished (.protocolViolation code))
    (h : c.stepReader? k site = some (c', site')) : ∃ e, Breach site c e ∧ e.code = code := by
  obtain ⟨c₁, site₁, hd, hsubmit⟩ := stepReader?_of_isAt ⟨ho, rfl⟩ h
  have hask : ∀ p, c₁.reader.task ≠ .asking p := by
    intro p hp
    have hreader : c₁.reader = c₁.reader.goOn (.asking p) := by rw [← hp]; rfl
    rw [submit_of_asking site₁ hreader] at hsubmit
    obtain ⟨rfl, -⟩ := Prod.mk.inj hsubmit
    cases ht
  rw [submit_of_not_asking site₁ hask] at hsubmit
  obtain ⟨rfl, -⟩ := Prod.mk.inj hsubmit
  unfold Connection.doTask? at hd
  dsimp only at hd
  split at hd
  · rename_i htask
    split at hd
    · cases hd
    · rename_i frame socket hreceive
      obtain ⟨rfl, -⟩ := Prod.mk.inj (Option.some.inj hd)
      have hhears : c.hears? = some frame := by
        rw [Connection.hears?_of_listening ⟨ho, htask⟩, hreceive]
        rfl
      exact breach_of_hear hhears ht
  · rename_i token ready htask
    split at hd
    · obtain ⟨rfl, -⟩ := Prod.mk.inj (Option.some.inj hd)
      exact breach_of_judge (Connection.verdict?_of_validating _ ⟨ho, htask⟩) ht
    · cases hd
  · rename_i i channel rest allowed htask
    obtain ⟨rfl, -⟩ := Prod.mk.inj (Option.some.inj hd)
    dsimp only at ht
    unfold Reader.takeDecision at ht
    split at ht <;> cases ht
  · obtain ⟨rfl, -⟩ := Prod.mk.inj (Option.some.inj hd)
    dsimp only at ht
    unfold Reader.conclude at ht
    split at ht <;> cases ht
  · rename_i p t htask
    split at hd
    · cases hd
    · rename_i a ha
      obtain ⟨rfl, -⟩ := Prod.mk.inj (Option.some.inj hd)
      exact breach_of_learn ⟨ho, htask⟩ ha ht
  · rename_i p htask
    obtain ⟨rfl, -⟩ := Prod.mk.inj (Option.some.inj hd)
    exact absurd htask (hask p)
  · cases hd

end Steps

end Switchboard
