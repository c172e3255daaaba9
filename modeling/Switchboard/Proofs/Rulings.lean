import Switchboard.Proofs.Breaches
import Switchboard.Proofs.Transcript

/-!
# Rulings

How a reader deals with a frame that asks to listen on channels: it decides on one channel at a
step, reports each that is denied, and in the end asks the hub for all that were granted, if any
were. The directory may change between two decisions, so each is a `Ruling` of its own, made by what
the directory is like then. What the steps do is said exactly here; every one of them brings the
reader closer to the end of its task (`Reader.toil`).
-/

namespace Switchboard

open Wire

/-! ## Decisions on channels -/

/-- A channel that was asked for and what has been decided about it. -/
structure Ruling where
  channel : String
  decision : Decision
  deriving DecidableEq, Repr

namespace Ruling

def grant? (r : Ruling) : Option Topic :=
  match r.decision with
  | .allow t => some t
  | .deny _ => none

/-- What the client is told of a channel that is denied. -/
def rejection? (r : Ruling) : Option Message :=
  match r.decision with
  | .allow _ => none
  | .deny denial => some (.subscribeRejected r.channel denial.code)

end Ruling

def granted (rs : List Ruling) : List Topic := rs.filterMap Ruling.grant?

/-- The channels that were granted, as they were asked for. -/
def grantedNames (rs : List Ruling) : List String :=
  (rs.filter (·.grant?.isSome)).map Ruling.channel

def rejections (rs : List Ruling) : List Message := rs.filterMap Ruling.rejection?

/-- The decision that a reader takes next. -/
def Connection.rules? (c : Connection) (d : Directory) : Option Ruling :=
  match c.reader.outgoing, c.reader.task with
  | [], .deciding i (channel :: _) _ => some ⟨channel, (d.authorize i channel).1⟩
  | _, _ => none

/-- Whatever is granted is the topic that was named. -/
theorem Connection.name_of_rules? {c : Connection} {d : Directory} {r : Ruling}
    (h : c.rules? d = some r) {t : Topic} (ht : r.grant? = some t) : t.name = r.channel := by
  unfold rules? at h
  split at h
  · rename_i i channel rest allowed _ _
    obtain rfl := Option.some.inj h
    unfold Ruling.grant? at ht
    split at ht
    · rename_i t' hd
      obtain rfl := Option.some.inj ht
      exact Directory.name_of_authorize hd
    · cases ht
  · cases h

theorem Connection.rules?_of_deciding {c : Connection} {i : Identity} {channel : String}
    {rest : List String} {allowed : List Topic} (d : Directory)
    (hat : c.IsAt (.deciding i (channel :: rest) allowed)) :
    c.rules? d = some ⟨channel, (d.authorize i channel).1⟩ := by
  unfold rules?
  rw [hat.1, hat.2]

theorem Connection.rules?_of_not_deciding {c : Connection} {task : ReaderTask} (d : Directory)
    (hat : c.IsAt task)
    (ht : ∀ i channel rest allowed, task ≠ .deciding i (channel :: rest) allowed) :
    c.rules? d = none := by
  unfold rules?
  split
  · rename_i i channel rest allowed _ heq
    exact absurd (hat.2.symm.trans heq) (ht i channel rest allowed)
  · rfl

theorem Connection.rules?_of_outgoing {c : Connection} {m : Message} {rest : List Message}
    (d : Directory) (ho : c.reader.outgoing = m :: rest) : c.rules? d = none := by
  unfold rules?
  rw [ho]

theorem Connection.asks?_of_outgoing {c : Connection} {m : Message} {rest : List Message}
    (k : ConnectionId) (site : Site) (ho : c.reader.outgoing = m :: rest) :
    c.asks? k site = none := by
  unfold asks?
  rw [ho, List.isEmpty_cons, Bool.and_false]
  rfl

/-! ## What a connection's reader has done -/

/-- What a connection's reader decides. -/
def Moment.rules? (m : Moment) (k : ConnectionId) : Option Ruling :=
  m.ofReader? k (·.rules? m.world.site.directory)

/-- What a connection's reader asks of the hub. -/
def Moment.begs? (m : Moment) (k : ConnectionId) : Option Request :=
  m.ofReader? k (·.asks? k m.world.site)

def rulings (k : ConnectionId) (past : List Moment) : List Ruling := past.filterMap (·.rules? k)

def pleas (k : ConnectionId) (past : List Moment) : List Request := past.filterMap (·.begs? k)

/-- A connection as its reader found it at each of its steps. -/
def turns (k : ConnectionId) (past : List Moment) : List Connection :=
  past.filterMap (·.ofReader? k some)

theorem rulings_snoc (k : ConnectionId) (past : List Moment) (m : Moment) :
    rulings k (past ++ [m]) = rulings k past ++ (m.rules? k).toList :=
  filterMap_snoc (fun m : Moment => m.rules? k) past m

theorem pleas_snoc (k : ConnectionId) (past : List Moment) (m : Moment) :
    pleas k (past ++ [m]) = pleas k past ++ (m.begs? k).toList :=
  filterMap_snoc (fun m : Moment => m.begs? k) past m

theorem turns_snoc (k : ConnectionId) (past : List Moment) (m : Moment) :
    turns k (past ++ [m]) = turns k past ++ (m.ofReader? k some).toList :=
  filterMap_snoc (fun m : Moment => m.ofReader? k some) past m

theorem Moment.ofReader?_eq_some {α : Type} {m : Moment} {k : ConnectionId}
    {f : Connection → Option α} {a : α} (h : m.ofReader? k f = some a) :
    ∃ c, m.world.connections[k]? = some c ∧ f c = some a := by
  unfold ofReader? at h
  split at h
  · split at h
    · exact Option.bind_eq_some_iff.mp h
    · cases h
  · cases h

/-- The topics that a reader grants are those of the names that were asked for. -/
theorem names_granted_rulings (k : ConnectionId) (past : List Moment) :
    (granted (rulings k past)).map Topic.name = grantedNames (rulings k past) := by
  -- each is known for the moment at which it was made; the rest is about lists
  have hnames : ∀ r ∈ rulings k past, ∀ t, r.grant? = some t → t.name = r.channel := by
    intro r hr t ht
    obtain ⟨m, -, hm⟩ := List.mem_filterMap.mp hr
    obtain ⟨c, -, hc⟩ := Moment.ofReader?_eq_some hm
    exact Connection.name_of_rules? hc ht
  generalize rulings k past = rs at hnames
  induction rs with
  | nil => rfl
  | cons r rs ih =>
    have ih := ih fun r' hr' => hnames r' (List.mem_cons_of_mem r hr')
    unfold granted grantedNames at ih ⊢
    cases hg : r.grant? with
    | none => rw [List.filterMap_cons_none hg, List.filter_cons_of_neg (by simp [hg]), ih]
    | some t =>
      rw [List.filterMap_cons_some hg, List.filter_cons_of_pos (by simp [hg]), List.map_cons,
        List.map_cons, ih, hnames r List.mem_cons_self t hg]

/-! ## Single steps -/

section Steps

variable {site site' : Site} {k : ConnectionId} {c c' : Connection} {i : Identity}

/-- The frame is taken up. -/
theorem stepReader?_of_subscribe {channels : List String} {topics : List Topic}
    (hr : c.reads? = some (.subscribe channels))
    (hsess : c.reader.session = .authenticated i topics)
    (h : c.stepReader? k site = some (c', site')) :
    c'.reader = c.reader.goOn (.deciding i channels []) := by
  have hask : ∀ p, (c.reader.goOn (.deciding i channels [])).task ≠ .asking p := nofun
  refine (reader_of_reads? hr hask ?_ h).1
  unfold Reader.obey
  dsimp only
  rw [hsess]

theorem stepReader?_of_channel {channel : String} {rest : List String} {allowed : List Topic}
    (hat : c.IsAt (.deciding i (channel :: rest) allowed))
    (h : c.stepReader? k site = some (c', site')) :
    c'.reader =
        c.reader.takeDecision i channel rest allowed (site.directory.authorize i channel).1 ∧
      c.asks? k site = none := by
  refine reader_of_doTask? hat (fun p => ?_) (fun c₁ site₁ hd => ?_) h
  · unfold Reader.takeDecision
    split <;> nofun
  · unfold Connection.doTask? at hd
    rw [hat.2] at hd
    obtain ⟨rfl, -⟩ := Prod.mk.inj (Option.some.inj hd)
    rfl

/-- When no channel was granted, nothing is asked. -/
theorem stepReader?_of_none (hat : c.IsAt (.deciding i [] []))
    (h : c.stepReader? k site = some (c', site')) :
    c'.reader = c.reader.goOn .listening ∧ c.asks? k site = none := by
  have hask : ∀ p, (c.reader.goOn .listening).task ≠ .asking p := nofun
  refine reader_of_doTask? hat hask (fun c₁ site₁ hd => ?_) h
  unfold Connection.doTask? at hd
  rw [hat.2] at hd
  obtain ⟨rfl, -⟩ := Prod.mk.inj (Option.some.inj hd)
  rfl

/-- Otherwise the hub is asked for all that were. -/
theorem stepReader?_of_some {allowed : List Topic} (hat : c.IsAt (.deciding i [] allowed))
    (hne : allowed ≠ []) (h : c.stepReader? k site = some (c', site')) :
    c'.reader = c.reader.goOn (.awaiting (.subscription i allowed) site.hub.nextTicket) ∧
      c.asks? k site = some (.subscribe i.userId k allowed) := by
  have hserv : c.isServing = true := by
    by_contra hserv
    unfold Connection.stepReader? at h
    rw [Bool.eq_false_iff.mpr hserv] at h
    cases h
  obtain ⟨c₁, site₁, hd, hsubmit⟩ := stepReader?_of_isAt hat h
  have hasks := asks?_of_doTask? (k := k) hserv hat.1 hd
  unfold Connection.doTask? at hd
  rw [hat.2] at hd
  obtain ⟨rfl, rfl⟩ := Prod.mk.inj (Option.some.inj hd)
  -- the reader is about to ask only within the step: the hub has been asked at the end of it
  have hreader : c.reader.conclude i allowed =
      c.reader.goOn (.asking (.subscription i allowed)) := if_neg hne
  rw [submit_of_asking site hreader] at hsubmit
  obtain ⟨rfl, -⟩ := Prod.mk.inj hsubmit
  refine ⟨rfl, hasks.trans ?_⟩
  dsimp only
  rw [hreader]
  rfl

theorem stepReader?_of_hears? (hat : c.IsAt .listening) (hh : c.hears? = none) :
    c.stepReader? k site = none := by
  have hreceive : c.socket.receive? = none := by
    rw [Connection.hears?_of_listening hat] at hh
    exact Option.map_eq_none_iff.mp hh
  have hd : c.doTask? site = none := by
    unfold Connection.doTask?
    rw [hat.2]
    dsimp only
    rw [hreceive]
  cases h : c.stepReader? k site with
  | none => rfl
  | some p =>
    obtain ⟨c₁, site₁, hd', -⟩ := stepReader?_of_isAt hat h
    rw [hd] at hd'
    cases hd'

theorem answer?_of_stepReader? {p : Purpose} {t : Ticket} (hat : c.IsAt (.awaiting p t))
    (h : c.stepReader? k site = some (c', site')) : ∃ a, site.hub.answer? t = some a := by
  obtain ⟨c₁, site₁, hd, -⟩ := stepReader?_of_isAt hat h
  unfold Connection.doTask? at hd
  rw [hat.2] at hd
  dsimp only at hd
  split at hd
  · cases hd
  · rename_i a ha
    exact ⟨a, ha⟩

end Steps

/-! ## How much there is left to do -/

/-- How many steps at most a reader takes before it takes up a frame. -/
def Reader.toil (r : Reader) : Nat :=
  r.outgoing.length +
    match r.task with
    | .deciding _ rest _ => 2 * rest.length + 3
    | .awaiting .. => 2
    | .listening | .validating .. | .asking _ | .finished _ => 0

theorem Reader.toil_pass {r : Reader} {reply : Message} {more : List Message}
    (ho : r.outgoing = reply :: more) : { r with outgoing := more }.toil + 1 = r.toil := by
  unfold toil
  rw [ho, List.length_cons]
  exact Nat.add_right_comm _ _ _

/-- Nothing is left to do until a frame is taken up. -/
def Reader.IsThrough (r : Reader) : Prop :=
  r.outgoing = [] ∧ (r.task = .listening ∨ ∃ why, r.task = .finished why)

/-- A step of a reader that is at a task. -/
theorem isSome_stepReader? {c : Connection} {site : Site} (k : ConnectionId)
    (hserv : c.isServing = true) (ho : c.reader.outgoing = [])
    (hd : (c.doTask? site).isSome = true) : (c.stepReader? k site).isSome = true := by
  obtain ⟨⟨c₁, site₁⟩, hd⟩ := Option.isSome_iff_exists.mp hd
  unfold Connection.stepReader?
  rw [if_neg (by simp [hserv]), ho]
  dsimp only
  rw [hd]
  rfl

theorem isSome_stepReader?_of_outgoing {c : Connection} {site : Site} (k : ConnectionId)
    (hserv : c.isServing = true) (ho : c.reader.outgoing ≠ [])
    (hroom : ¬ (c.writer.isRunning = true ∧ Connection.replyCapacity ≤ c.replies.length)) :
    (c.stepReader? k site).isSome = true := by
  obtain ⟨m, rest, ho⟩ := List.exists_cons_of_ne_nil ho
  unfold Connection.stepReader?
  rw [if_neg (by simp [hserv]), ho]
  dsimp only
  rw [if_neg (by simpa using hroom)]
  rfl

end Switchboard
