import Switchboard.Proofs.Accounts

/-!
# The life of a connection

What becomes of one connection in the course of an instance. It changes by the strides of its own
reader; everything else that happens leaves its reader, its settings and its queue alone
(`becomes_of_move`). What its reader judges and says can be read off the moments at which that acts.

A reader's task and what it knows of its client go together: tokens are judged of clients that have
not authenticated, channels are decided on for the identity that has, and every topic that the hub
is asked for is one that can be named (`Reader.Sound`).
-/

namespace Switchboard

open Wire

/-! ## Moves and one connection -/

/-- Nothing about a connection has changed that its reader has to do with. -/
structure Connection.GoesOn (c c' : Connection) : Prop where
  reader : c'.reader = c.reader
  settings : c'.settings = c.settings
  queue : c'.queue = c.queue
  isServing : c'.isServing = true → c.isServing = true

theorem Connection.GoesOn.refl (c : Connection) : c.GoesOn c := ⟨rfl, rfl, rfl, id⟩

theorem Connection.goesOn_of_stand {c c' : Connection} (hs : c'.stand = c.stand)
    (hset : c'.settings = c.settings) : c.GoesOn c' where
  reader := congrArg Stand.reader hs
  settings := hset
  queue := congrArg Stand.queue hs
  isServing h := (congrArg Stand.isServing hs).symm.trans h

/-- What a move makes of a connection. -/
inductive Connection.Becomes (m : Moment) (k : ConnectionId) (c : Connection) (v : World) :
    Connection → Prop
  | stride {c' : Connection} {asked : Option Purpose} {site : Site} :
      m.move = .act (.reader k) → c.isServing = true → Strode k c m.world.site asked c' site →
      v = m.world.putBack k (c', site) → Becomes m k c v c'
  | other {c' : Connection} : m.move ≠ .act (.reader k) → c.GoesOn c' → Becomes m k c v c'

theorem settings_settleWriter (c : Connection) (mail : Mail) :
    (c.settleWriter mail).1.settings = c.settings := by
  unfold Connection.settleWriter
  split <;> rfl

theorem settings_stepWriter? {c c' : Connection} {now : Instant} {mail mail' : Mail}
    {missed : List Inlet} (h : c.stepWriter? now mail missed = some (c', mail')) :
    c'.settings = c.settings := by
  unfold Connection.stepWriter? at h
  split at h
  · cases h
  · split at h
    · cases h
    · have hc : c' = _ := (congrArg Prod.fst (Option.some.inj h)).symm
      rw [hc, settings_settleWriter]

theorem settings_abort {c c' : Connection} {mail mail' : Mail} (h : c.abort mail = (c', mail')) :
    c'.settings = c.settings := by
  have hc : c' = (c.abort mail).1 := (congrArg Prod.fst h).symm
  rw [hc]
  exact settings_settleWriter _ _

theorem settings_stepEnd? {k : ConnectionId} {half : Connection.Half} {c c' : Connection}
    {site site' : Site} (h : c.stepEnd? k half site = some (c', site')) :
    c'.settings = c.settings := by
  unfold Connection.stepEnd? at h
  split at h
  · cases half with
    | writer | reader =>
      obtain ⟨why, -, heq⟩ := Option.map_eq_some_iff.mp h
      exact (congrArg (·.1.settings) heq).symm
  · split at h
    · exact (congrArg (·.1.settings) (Option.some.inj h)).symm
    · split at h
      · cases ha : c.abort site.hub.exchange.mail with
        | mk c₁ mail =>
          rw [ha] at h
          exact (congrArg (·.1.settings) (Option.some.inj h)).symm.trans (settings_abort ha)
      · cases h
  · cases h
  · cases h

theorem goesOn_stepEnd? {k : ConnectionId} {half : Connection.Half} {c c' : Connection}
    {site site' : Site} (h : c.stepEnd? k half site = some (c', site')) : c.GoesOn c' := by
  have hset := settings_stepEnd? h
  rcases stepEnd?_cases h with ⟨hserv, hstand, -⟩ | ⟨-, hstand, -⟩
  · exact ⟨congrArg Stand.reader hstand, hset, congrArg Stand.queue hstand, fun _ => hserv⟩
  · exact Connection.goesOn_of_stand hstand hset

section Moves

variable {w v : World} {k j : ConnectionId} {c : Connection}

theorem becomes_modify {m : Move} (hm : m ≠ .act (.reader k)) (hc : w.connections[k]? = some c)
    {f : Connection → Connection} (hv : v.connections = w.connections.modify j f)
    (hf : ∀ c, w.connections[j]? = some c → c.GoesOn (f c)) :
    ∃ c', v.connections[k]? = some c' ∧ c.Becomes ⟨w, m⟩ k v c' := by
  by_cases hj : j = k
  · subst hj
    refine ⟨f c, ?_, .other hm (hf c hc)⟩
    rw [hv, List.getElem?_modify_eq, hc]
    rfl
  · refine ⟨c, ?_, .other hm (.refl c)⟩
    rw [hv, List.getElem?_modify_ne _ _ hj, hc]

theorem becomes_same {m : Move} (hm : m ≠ .act (.reader k)) (hc : w.connections[k]? = some c)
    (hv : v.connections = w.connections) :
    ∃ c', v.connections[k]? = some c' ∧ c.Becomes ⟨w, m⟩ k v c' :=
  ⟨c, hv ▸ hc, .other hm (.refl c)⟩

/-- What becomes of the world when a reader acts. -/
theorem stepReader?_of_act? (h : w.act? (.reader k) = some v)
    (hc : w.connections[k]? = some c) :
    ∃ c' site, c.stepReader? k w.site = some (c', site) ∧ v = w.putBack k (c', site) ∧
      v.connections[k]? = some c' := by
  obtain ⟨c₀, hc₀, h⟩ := Option.bind_eq_some_iff.mp h
  obtain rfl := Option.some.inj (hc₀.symm.trans hc)
  obtain ⟨⟨c', site⟩, hstep, rfl⟩ := Option.map_eq_some_iff.mp h
  exact ⟨c', site, hstep, rfl, List.getElem?_set_self (List.getElem?_eq_some_iff.mp hc).1⟩

theorem becomes_act {a : Actor} (hw : w.Calm) (h : w.act? a = some v)
    (hc : w.connections[k]? = some c) :
    ∃ c', v.connections[k]? = some c' ∧ c.Becomes ⟨w, .act a⟩ k v c' := by
  have hlt := (List.getElem?_eq_some_iff.mp hc).1
  cases a with
  | hub =>
    obtain ⟨g, -, rfl⟩ := Option.map_eq_some_iff.mp h
    exact becomes_same (by simp) hc rfl
  | writer j =>
    obtain ⟨c₀, hc₀, h⟩ := Option.bind_eq_some_iff.mp h
    obtain ⟨⟨c₁, mail⟩, hstep, rfl⟩ := Option.map_eq_some_iff.mp h
    refine becomes_modify (by simp) hc rfl fun c' hc' => ?_
    rw [hc₀] at hc'
    rw [← Option.some.inj hc']
    exact Connection.goesOn_of_stand (stand_stepWriter? hstep).1 (settings_stepWriter? hstep)
  | reader j =>
    by_cases hj : j = k
    · subst hj
      obtain ⟨c₁, site, hstep, hv, hc₁⟩ := stepReader?_of_act? h hc
      obtain ⟨hserv, asked, hstrode⟩ := strode_of_step (hw j _ (stand?_of_connection hc)) hstep
      exact ⟨c₁, hc₁, .stride rfl hserv hstrode hv⟩
    · obtain ⟨c₀, hc₀, h⟩ := Option.bind_eq_some_iff.mp h
      obtain ⟨⟨c₁, site⟩, hstep, rfl⟩ := Option.map_eq_some_iff.mp h
      refine ⟨c, (List.getElem?_set_ne hj).trans hc, .other ?_ (.refl c)⟩
      intro heq
      cases heq
      exact hj rfl
  | client j =>
    obtain ⟨c₀, hc₀, h⟩ := Option.bind_eq_some_iff.mp h
    obtain ⟨⟨c₁, site⟩, hstep, rfl⟩ := Option.map_eq_some_iff.mp h
    by_cases hj : j = k
    · subst hj
      obtain rfl := Option.some.inj (hc₀.symm.trans hc)
      exact ⟨c₁, List.getElem?_set_self hlt, .other (by simp) (goesOn_stepEnd? hstep)⟩
    · exact ⟨c, (List.getElem?_set_ne hj).trans hc, .other (by simp) (.refl c)⟩

/-- **A connection changes by the strides of its reader.** -/
theorem becomes_of_move {m : Move} (hw : w.Calm) (h : w.move? m = some v)
    (hc : w.connections[k]? = some c) :
    ∃ c', v.connections[k]? = some c' ∧ c.Becomes ⟨w, m⟩ k v c' := by
  have hsocket : ∀ (s : Stimulus) (j : ConnectionId) (f : Socket → Socket),
      v.connections = w.connections.modify j (fun c => { c with socket := f c.socket }) →
      ∃ c', v.connections[k]? = some c' ∧ c.Becomes ⟨w, .undergo s⟩ k v c' := by
    intro s j f hv
    exact becomes_modify (by simp) hc hv fun c _ => ⟨rfl, rfl, rfl, id⟩
  cases m with
  | act a => exact becomes_act hw h hc
  | undergo s =>
    have hv : v = w.undergo s := (Option.some.inj h).symm
    cases s with
    | connect settings socket =>
      subst hv
      exact ⟨c, List.getElem?_append_left (List.getElem?_eq_some_iff.mp hc).1 |>.trans hc,
        .other (by simp) (.refl c)⟩
    | arrive j frames =>
      subst hv
      exact hsocket _ j (·.arrive frames) rfl
    | take j n =>
      subst hv
      exact hsocket _ j (·.take n) rfl
    | setWindow j window =>
      subst hv
      exact hsocket _ j (fun s => { s with window }) rfl
    | addMember | removeMember | setReachable | issue | setNow =>
      subst hv
      exact becomes_same (by simp) hc rfl
  | setService service =>
    obtain rfl := Option.some.inj h
    exact becomes_same (by simp) hc rfl
  | setClock clock =>
    obtain rfl := Option.some.inj h
    exact becomes_same (by simp) hc rfl
  | endWriter j writer =>
    have h : w.endWriter? j writer = some v := h
    unfold World.endWriter? at h
    split at h
    · cases h
    · obtain ⟨c₀, hc₀, rfl⟩ := Option.map_eq_some_iff.mp h
      refine becomes_modify (by simp) hc rfl fun c' hc' => ?_
      rw [hc₀] at hc'
      rw [← Option.some.inj hc']
      exact Connection.goesOn_of_stand (stand_settleWriter _ _) (settings_settleWriter _ _)

/-- A connection that was not there has just been opened. -/
theorem start_of_move {m : Move} {c' : Connection} (hw : w.Calm) (h : w.move? m = some v)
    (hc : w.connections[k]? = none) (hc' : v.connections[k]? = some c') :
    c'.reader = .start ∧ m ≠ .act (.reader k) := by
  have hs' := stand?_of_connection hc'
  have hs : w.stand? k = none := by
    unfold World.stand?
    rw [hc]
    rfl
  rcases (effect_of_move hw h).before hs' with ⟨s₀, hs₀, -⟩ | ho
  · have hs₀ : w.stand? k = some s₀ := hs₀
    rw [hs] at hs₀
    cases hs₀
  · refine ⟨ho.reader, ?_⟩
    rintro rfl
    have h : w.act? (.reader k) = some v := h
    unfold World.act? at h
    dsimp only at h
    rw [hc] at h
    cases h

end Moves

/-! ## What a reader judges and says -/

namespace Moment

variable {α : Type} {m : Moment} {k : ConnectionId} {c : Connection} {f : Connection → Option α}

/-- What can be told of a connection when its reader acts. -/
def ofReader? (m : Moment) (k : ConnectionId) (f : Connection → Option α) : Option α :=
  match m.move with
  | .act (.reader k') => if k' = k then (m.world.connections[k]?).bind f else none
  | _ => none

theorem ofReader?_of_act (hm : m.move = .act (.reader k))
    (hc : m.world.connections[k]? = some c) : m.ofReader? k f = f c := by
  unfold ofReader?
  rw [hm]
  dsimp only
  rw [if_pos rfl, hc]
  rfl

theorem ofReader?_of_ne (hm : m.move ≠ .act (.reader k)) : m.ofReader? k f = none := by
  unfold ofReader?
  split
  · rename_i k' hk
    rw [if_neg]
    rintro rfl
    exact hm hk
  · rfl

/-- Nothing can be told of a connection whose reader has not acted. -/
theorem filterMap_ofReader?_eq_nil {past : List Moment} {f : Moment → Connection → Option α}
    (h : ∀ m ∈ past, m.move ≠ .act (.reader k)) :
    past.filterMap (fun m => m.ofReader? k (f m)) = [] :=
  List.filterMap_eq_nil_iff.mpr fun m hm => ofReader?_of_ne (h m hm)

/-- The judgement of a token that a connection's reader takes up. -/
def verdict? (m : Moment) (k : ConnectionId) : Option (Except Error Identity) :=
  m.ofReader? k (·.verdict? m.world.site.service)

/-- The reply that a connection's reader passes on. -/
def passesOn? (m : Moment) (k : ConnectionId) : Option Message :=
  m.ofReader? k (·.reader.outgoing.head?)

end Moment

/-- All that a connection's reader has said. -/
def said (k : ConnectionId) (past : List Moment) : List Message := past.filterMap (·.passesOn? k)

theorem said_snoc (k : ConnectionId) (past : List Moment) (m : Moment) :
    said k (past ++ [m]) = said k past ++ (m.passesOn? k).toList :=
  filterMap_snoc (fun m : Moment => m.passesOn? k) past m

/-- All that a connection's reader has said, and what it has still to pass on. -/
def uttered (k : ConnectionId) (past : List Moment) (c : Connection) : List Message :=
  said k past ++ c.reader.outgoing

section Utterances

variable {k : ConnectionId} {past : List Moment} {m : Moment} {c c' : Connection}

theorem uttered_of_start (h : ∀ m ∈ past, m.move ≠ .act (.reader k)) (hc : c.reader = .start) :
    uttered k past c = [] := by
  have hsaid : said k past = [] := Moment.filterMap_ofReader?_eq_nil h
  unfold uttered
  rw [hsaid, hc]
  rfl

theorem uttered_of_goesOn (hm : m.move ≠ .act (.reader k)) (h : c.GoesOn c') :
    uttered k (past ++ [m]) c' = uttered k past c := by
  have hpass : m.passesOn? k = none := Moment.ofReader?_of_ne hm
  unfold uttered
  rw [said_snoc, hpass, h.reader, Option.toList_none, List.append_nil]

/-- A reader passes on what it has said, or has done so and may say something new. -/
theorem uttered_of_stride (past : List Moment) (hm : m.move = .act (.reader k))
    (hc : m.world.connections[k]? = some c) {asked : Option Purpose}
    (h : Stride m.world.site c asked c'.reader) :
    (∃ reply rest, c.reader.outgoing = reply :: rest ∧
        c'.reader = { c.reader with outgoing := rest } ∧
        uttered k (past ++ [m]) c' = uttered k past c) ∨
      (c.reader.outgoing = [] ∧
        uttered k (past ++ [m]) c' = uttered k past c ++ c'.reader.outgoing) := by
  have hpass : m.passesOn? k = c.reader.outgoing.head? := Moment.ofReader?_of_act hm hc
  unfold uttered
  rw [said_snoc, hpass]
  cases ho : c.reader.outgoing with
  | nil =>
    refine Or.inr ⟨rfl, ?_⟩
    rw [List.head?_nil, Option.toList_none, List.append_nil]
  | cons reply rest =>
    have hr := h.of_outgoing ho
    refine Or.inl ⟨reply, rest, rfl, hr, ?_⟩
    rw [hr, List.head?_cons, Option.toList_some, List.append_assoc]
    rfl

end Utterances

/-! ## Tasks and sessions -/

/-- A client has authenticated, and the topics are ones that it can name. -/
def Session.MayListen (session : Session) (i : Identity) (topics : List Topic) : Prop :=
  (∃ current, session = .authenticated i current) ∧ ∀ t ∈ topics, Topic.ofName? t.name = some t

/-- What a reader asks of the hub goes with what it knows of its client. -/
def Purpose.Suits (session : Session) : Purpose → Prop
  | .registration _ => ∃ n, session = .unauthenticated n
  | .subscription i topics | .unsubscription i topics => session.MayListen i topics

/-- What a reader is about goes with what it knows of its client. -/
def ReaderTask.Suits (session : Session) : ReaderTask → Prop
  | .listening | .finished _ => True
  | .validating .. => ∃ n, session = .unauthenticated n
  | .deciding i _ allowed => session.MayListen i allowed
  | .asking p | .awaiting p _ => p.Suits session

def Reader.Sound (r : Reader) : Prop := r.task.Suits r.session

theorem Topic.ofName?_name {name : String} {t : Topic} (h : ofName? name = some t) :
    ofName? t.name = some t := by
  rw [name_ofName? h]
  exact h

section Soundness

variable {site : Site} {c : Connection} {asked : Option Purpose} {r : Reader}

theorem Reader.Sound.suits (h : c.reader.Sound) {task : ReaderTask} (hat : c.IsAt task) :
    task.Suits c.reader.session := hat.2 ▸ h

theorem Stride.sound (hs : c.reader.Sound) (h : Stride site c asked r) : r.Sound := by
  cases h with
  | pass | skip => exact hs
  | present token ready hat hsess => exact ⟨_, hsess⟩
  | name hat hsess _ _ => exact ⟨⟨_, hsess⟩, fun t ht => by cases ht⟩
  | drop channels hat hsess =>
    refine ⟨⟨_, hsess⟩, fun t ht => ?_⟩
    obtain ⟨name, -, hn⟩ := List.mem_filterMap.mp ht
    exact Topic.ofName?_name hn
  | refuse =>
    unfold Reader.Sound Reader.say
    rcases Settings.afterFailures_cases _ _ with ht | ht
    · rw [ht]
      trivial
    · rw [ht]
      trivial
  | register hat _ _ =>
    have := hs.suits hat
    exact this
  | @allow i t rest allowed hat hd =>
    obtain ⟨hsess, hall⟩ := hs.suits hat
    refine ⟨hsess, fun t' ht' => ?_⟩
    rcases List.mem_append.mp ht' with ht' | ht'
    · exact hall t' ht'
    · rw [List.mem_singleton.mp ht']
      exact (Directory.authorize_eq_allow hd).1
  | deny hat _ =>
    have := hs.suits hat
    exact this
  | subscribe hat _ =>
    have := hs.suits hat
    exact this
  | leave | ignore | conclude | welcome | lost | subscribed | unsubscribed | violate => trivial

end Soundness

/-! ## Over a course -/

section Courses

variable {callers : Request → Prop} {past : List Moment} {w : World} {service : Service}
  {now : Instant} {clock : Time.Timestamp}

theorem Course.calm (h : Course callers (.start service now clock) past w) : w.Calm := by
  induction h with
  | start =>
    intro k s hs
    cases hs
  | move _ _ hmove ih => exact (effect_of_move ih hmove).calm ih

/-- The reader of a connection that is not there has not acted. -/
theorem Course.not_acted (h : Course callers (.start service now clock) past w)
    {k : ConnectionId} (hk : w.connections[k]? = none) :
    ∀ m ∈ past, m.move ≠ .act (.reader k) := by
  induction h with
  | start =>
    intro m hm
    cases hm
  | @move past u v m hcourse _ hmove ih =>
    -- no connection goes away, so it has not been there
    have hu : u.connections[k]? = none := by
      cases hc : u.connections[k]? with
      | none => rfl
      | some c =>
        obtain ⟨c', hc', -⟩ := becomes_of_move hcourse.calm hmove hc
        rw [hk] at hc'
        cases hc'
    intro m' hm'
    rcases List.mem_append.mp hm' with hm' | hm'
    · exact ih hu m' hm'
    · rw [List.mem_singleton.mp hm']
      rintro rfl
      obtain ⟨c, hc, -⟩ := Option.bind_eq_some_iff.mp hmove
      rw [hu] at hc
      cases hc

/-- **The life of a connection.** What holds when it is opened and is kept by the strides of its
reader, and by whatever leaves the reader alone, holds as long as the connection is there. -/
theorem Course.life {k : ConnectionId} {P : List Moment → Connection → Prop}
    (hstart : ∀ past c, c.reader = .start → (∀ m ∈ past, m.move ≠ .act (.reader k)) → P past c)
    (hstride : ∀ past m c asked c' site, m.move = .act (.reader k) →
      m.world.connections[k]? = some c → Strode k c m.world.site asked c' site → P past c →
      P (past ++ [m]) c')
    (hother : ∀ past m c c', m.move ≠ .act (.reader k) → c.GoesOn c' → P past c →
      P (past ++ [m]) c')
    (h : Course callers (.start service now clock) past w) {c : Connection}
    (hc : w.connections[k]? = some c) : P past c := by
  induction h generalizing c with
  | start => cases hc
  | @move past u v m hcourse hcall hmove ih =>
    have hcalm := hcourse.calm
    cases hc₀ : u.connections[k]? with
    | none =>
      obtain ⟨hreader, hne⟩ := start_of_move hcalm hmove hc₀ hc
      refine hstart _ c hreader fun m' hm' => ?_
      rcases List.mem_append.mp hm' with hm' | hm'
      · exact hcourse.not_acted hc₀ m' hm'
      · rw [List.mem_singleton.mp hm']
        exact hne
    | some c₀ =>
      obtain ⟨c', hc', hbec⟩ := becomes_of_move hcalm hmove hc₀
      obtain rfl := Option.some.inj (hc.symm.trans hc')
      cases hbec with
      | stride hm _ hs _ => exact hstride past _ c₀ _ c _ hm hc₀ hs (ih hc₀)
      | other hm hg => exact hother past _ c₀ c hm hg (ih hc₀)

theorem Course.sound (h : Course callers (.start service now clock) past w) {k : ConnectionId}
    {c : Connection} (hc : w.connections[k]? = some c) : c.reader.Sound := by
  refine h.life (P := fun _ c => c.reader.Sound) ?_ ?_ ?_ hc
  · intro past c hstart _
    rw [hstart]
    trivial
  · intro past m c asked c' site _ _ hs hsound
    exact hs.stride.sound hsound
  · intro past m c c' _ hg hsound
    exact hg.reader ▸ hsound

end Courses

end Switchboard
