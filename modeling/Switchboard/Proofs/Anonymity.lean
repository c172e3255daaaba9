import Switchboard.Proofs.Discretion
import Switchboard.Proofs.Handover
import Switchboard.Proofs.Life

/-!
# Anonymous names stay hidden

Two courses of an instance that go alike step by step, but for the names of anonymous users and the
times at which frames are sent. `anonymous_names_hidden` says that nobody can tell them apart by
what the instance does: the same frames are put on every queue and sent on every connection, the
same replies and answers are given, the same is counted, and connections end in the same way.

The two courses are one and the same under the veil, since every move is (`World.move?_veil`), and
all that can be observed can be observed through the veil.
-/

namespace Switchboard

open Wire

/-- A moment without the names of anonymous users and without any time that frames are sent. -/
def Moment.veil (m : Moment) : Moment := ⟨m.world.veil, m.move.veil⟩

/-! ## Two courses -/

namespace Course

variable {callers callers' : Request → Prop} {w w' v v' : World} {past past' : List Moment}

/-- Courses that are alike under the veil from the start stay so. -/
theorem veil_eq (h : Course callers w past v) (h' : Course callers' w' past' v')
    (hw : w.veil = w'.veil) (hmoves : past.map (·.move.veil) = past'.map (·.move.veil)) :
    v.veil = v'.veil ∧ past.map Moment.veil = past'.map Moment.veil := by
  induction h generalizing past' v' with
  | start =>
    obtain rfl := List.map_eq_nil_iff.mp hmoves.symm
    obtain rfl := h'.eq_of_nil
    exact ⟨hw, rfl⟩
  | @move past u v m _ _ hm ih =>
    -- the other course has a last moment too, and the worlds before are alike already
    rw [List.map_append] at hmoves
    obtain ⟨first, last, rfl, hfirst, hlast⟩ := List.map_eq_append_iff.mp hmoves.symm
    obtain ⟨m', rfl, hm'⟩ := List.map_eq_singleton_iff.mp hlast
    have hm' : m'.move.veil = m.veil := hm'
    obtain ⟨hpast, hmove⟩ := h'.unsnoc
    obtain ⟨hu, hveil⟩ := ih hpast hfirst.symm
    have hv : v.veil = v'.veil := by
      have hstep := World.move?_veil u m
      rw [hm, hu, ← hm', World.move?_veil, hmove] at hstep
      exact (Option.some.inj hstep).symm
    refine ⟨hv, ?_⟩
    rw [List.map_append, List.map_append, hveil]
    have hmoment : Moment.veil ⟨u, m⟩ = m'.veil := by
      unfold Moment.veil
      rw [hu, hm']
    rw [List.map_singleton, List.map_singleton, hmoment]

end Course

/-! ## What can be observed -/

/-- The frames that are put on a queue at a moment: only the hub puts any. -/
def Moment.puts (q : QueueId) (m : Moment) : List Envelope :=
  match m.move with
  | .act (.hub missed) => Occasion.puts q ⟨m.hub, .handle missed⟩
  | _ => []

/-- Everything that is put on a queue in the course of an instance, in order. -/
def framesPut (q : QueueId) (past : List Moment) : List Envelope := past.flatMap (Moment.puts q)

theorem Exchange.framesOf_veil (x : Exchange) (q : QueueId) :
    x.veil.framesOf q = (x.framesOf q).map Envelope.veil := by
  unfold framesOf
  rw [mail_veil, Mail.get?_veil]
  cases x.mail.get? q <;> rfl

theorem Occasion.puts_veil (q : QueueId) (h : Hub) (missed : List Lane) :
    Occasion.puts q ⟨h.veil, .handle missed⟩ =
      (Occasion.puts q ⟨h, .handle missed⟩).map Envelope.veil := by
  unfold puts
  dsimp only
  rw [h.step?_veil, h.exchange_veil, h.exchange.framesOf_veil, List.length_map]
  cases h.step? missed with
  | none => rfl
  | some g =>
    dsimp only [Option.map_some]
    rw [g.exchange_veil, g.exchange.framesOf_veil, List.map_drop]

namespace Moment

variable (m : Moment)

theorem puts_veil (q : QueueId) : m.veil.puts q = (m.puts q).map Envelope.veil := by
  obtain ⟨w, move⟩ := m
  cases move with
  | act a =>
    cases a with
    | hub missed => exact Occasion.puts_veil q w.site.hub missed
    | writer | reader | client => rfl
  | undergo | setService | setClock | endWriter => rfl

theorem passesOn?_veil (k : ConnectionId) : m.veil.passesOn? k = m.passesOn? k := by
  obtain ⟨w, move⟩ := m
  cases move with
  | act a =>
    cases a with
    | reader k' =>
      show (if k' = k then (w.veil.connections[k]?).bind _ else none) =
        if k' = k then (w.connections[k]?).bind _ else none
      rw [w.getElem?_veil]
      cases w.connections[k]? <;> rfl
    | hub | writer | client => rfl
  | undergo | setService | setClock | endWriter => rfl

end Moment

theorem framesPut_veil (q : QueueId) (past : List Moment) :
    framesPut q (past.map Moment.veil) = (framesPut q past).map Envelope.veil := by
  unfold framesPut
  rw [List.flatMap_map, List.map_flatMap]
  simp only [Moment.puts_veil]

theorem said_veil (k : ConnectionId) (past : List Moment) :
    said k (past.map Moment.veil) = said k past := by
  unfold said
  rw [List.filterMap_map]
  exact List.filterMap_congr fun m _ => m.passesOn?_veil k

/-- Nobody can tell two courses apart by what the instance does. -/
structure Indistinct (past past' : List Moment) (v v' : World) : Prop where
  /-- On every queue the same frames have been put, except for the times they were sent. -/
  frames : ∀ q, (framesPut q past).map Envelope.veil = (framesPut q past').map Envelope.veil
  /-- Every client has been told the same. -/
  replies : ∀ k, said k past = said k past'
  /-- The hub has given the same answers, -/
  answers : v.site.hub.answers = v'.site.hub.answers
  /-- and has counted the same. -/
  stats : v.site.hub.exchange.stats = v'.site.hub.exchange.stats
  /-- The same has gone out on every connection, except for times. -/
  sent : v.connections.map (fun c => c.socket.sent.map Outgoing.veil) =
    v'.connections.map fun c => c.socket.sent.map Outgoing.veil
  /-- Every connection has got equally far, and if it has ended, it has for the same reason. -/
  phases : v.connections.map Connection.phase = v'.connections.map Connection.phase
  /-- What can happen next is the same. -/
  possible : ∀ m m' : Move, m.veil = m'.veil → (v.move? m).isSome = (v'.move? m').isSome

theorem indistinct_of_veil {past past' : List Moment} {v v' : World} (hv : v.veil = v'.veil)
    (hpast : past.map Moment.veil = past'.map Moment.veil) : Indistinct past past' v v' where
  frames q := by rw [← framesPut_veil, hpast, framesPut_veil]
  replies k := by rw [← said_veil, hpast, said_veil]
  answers := congrArg (·.site.hub.answers) hv
  stats := congrArg (·.site.hub.exchange.stats) hv
  sent := by
    have h := congrArg (fun w : World => w.connections.map fun c => c.socket.sent) hv
    dsimp only [World.veil] at h
    rw [List.map_map, List.map_map] at h
    exact h
  phases := by
    have h := congrArg (fun w : World => w.connections.map Connection.phase) hv
    dsimp only [World.veil] at h
    rw [List.map_map, List.map_map] at h
    exact h
  possible m m' hm := by
    have h := World.move?_veil v m
    rw [hv, hm, World.move?_veil] at h
    rw [← Option.isSome_map (f := World.veil), ← h, Option.isSome_map]

/--
**Anonymous names stay hidden.** Two courses start alike and go alike, whoever acts and whatever
comes from outside, except for the names of anonymous users and the times of sending. Then nobody
can tell them apart, in the end or at any moment before.
-/
theorem anonymous_names_hidden {callers callers' : Request → Prop} {w w' v v' : World}
    {past past' : List Moment} (h : Course callers w past v) (h' : Course callers' w' past' v')
    (hw : w.veil = w'.veil) (hmoves : past.map (·.move.veil) = past'.map (·.move.veil)) :
    Indistinct past past' v v' ∧
      ∀ earlier m later earlier' m' later', past = earlier ++ m :: later →
        past' = earlier' ++ m' :: later' → earlier.length = earlier'.length →
        Indistinct earlier earlier' m.world m'.world := by
  obtain ⟨hv, hpast⟩ := h.veil_eq h' hw hmoves
  refine ⟨indistinct_of_veil hv hpast, ?_⟩
  rintro earlier m later earlier' m' later' rfl rfl hlength
  rw [List.map_append, List.map_append, List.map_cons, List.map_cons] at hpast
  obtain ⟨hearlier, hrest⟩ := List.append_inj hpast (by simpa using hlength)
  exact indistinct_of_veil (congrArg Moment.world (List.cons.inj hrest).1) hearlier

/-! ## A masquerade -/

namespace Masquerade

/-- Two tokens are those of somebody who wears a mask and has the name given; any other is the name
of whoever brings it. -/
def service (name : String) : Service where
  validate token :=
    .ok (if token = "mask" then ⟨"ann", name, true⟩
      else if token = "cape" then ⟨"carl", name, true⟩
      else ⟨token, token, false⟩)
  validationTime := 0

def clock (hour : Nat) : Time.Timestamp := ⟨⟨2024, 1, 1⟩, hour, 0, 0, 0⟩

def start (name : String) : World := .start (service name) 0 (clock 0)

/-- A socket on which somebody signs in. -/
def signIn (token : String) : Socket :=
  (Socket.new .plain).arrive [.text ("\x7b\"type\":\"auth\",\"token\":\"" ++ token ++ "\"\x7d")]

/-- A client signs in and is told so. -/
def entrance (k : ConnectionId) : List Move :=
  [.act (.reader k), .act (.reader k), .act (.hub []), .act (.reader k), .act (.reader k)]

/-- Bob, whose queue has room for one frame, and Ann sign in; Ann does so again with a mask, and
Carl comes with one, of which Bob cannot be told. -/
def moves (hour : Nat) : List Move :=
  [.undergo (.connect { Settings.standard with queueCapacity := 1 } (signIn "bob")),
    .undergo (.connect .standard (signIn "ann")), .undergo (.connect .standard (signIn "mask")),
    .undergo (.connect .standard (signIn "cape"))] ++
  entrance 0 ++ entrance 1 ++ entrance 2 ++ [.setClock (clock hour)] ++ entrance 3

theorem possible_zoe : ((start "Zoe").follow? (moves 1)).isSome = true := by decide +kernel

theorem possible_eve : ((start "Eve").follow? (moves 2)).isSome = true := by decide +kernel

/-- The world if those with masks are called Zoe and it is one o'clock, -/
def zoe : World := ((start "Zoe").follow? (moves 1)).get possible_zoe

/-- and if they are called Eve and it is two. -/
def eve : World := ((start "Eve").follow? (moves 2)).get possible_eve

theorem course_zoe : Course (fun _ => False) (start "Zoe") ((start "Zoe").trail (moves 1)) zoe :=
  course_of_follow? (by simp [moves, entrance]) (Option.some_get possible_zoe).symm

theorem course_eve : Course (fun _ => False) (start "Eve") ((start "Eve").trail (moves 2)) eve :=
  course_of_follow? (by simp [moves, entrance]) (Option.some_get possible_eve).symm

theorem veil_service (name name' : String) : (service name).veil = (service name').veil := by
  unfold service Service.veil
  congr 1
  funext token
  dsimp only
  split
  · rfl
  · split <;> rfl

theorem veil_start : (start "Zoe").veil = (start "Eve").veil :=
  congrArg (World.start · 0 .epoch) (veil_service "Zoe" "Eve")

theorem veil_moves : ((start "Zoe").trail (moves 1)).map (·.move.veil) =
    ((start "Eve").trail (moves 2)).map (·.move.veil) := by
  have hzoe := World.map_move_trail (Option.some_get possible_zoe).symm
  have heve := World.map_move_trail (Option.some_get possible_eve).symm
  have hmoves : (moves 1).map Move.veil = (moves 2).map Move.veil := rfl
  rw [← hzoe, ← heve, List.map_map, List.map_map] at hmoves
  exact hmoves

theorem names : zoe.site.hub.exchange.registry.map (·.identity.displayName) = ["Zoe", "Zoe"] ∧
    eve.site.hub.exchange.registry.map (·.identity.displayName) = ["Eve", "Eve"] := by
  decide +kernel

theorem told : (framesPut 2 ((start "Zoe").trail (moves 1))).map (·.message.eventType) =
    ["user_online", "user_offline"] := by
  decide +kernel

end Masquerade

/-- Those with masks are in the registry under their names, and Ann has been told of Carl's coming
and of Bob's going; but nobody knows whether she and Carl are called Zoe or Eve. -/
theorem anonymous_names_hidden_masquerade :
    Course (fun _ => False) (Masquerade.start "Zoe")
      ((Masquerade.start "Zoe").trail (Masquerade.moves 1)) Masquerade.zoe ∧
    Course (fun _ => False) (Masquerade.start "Eve")
      ((Masquerade.start "Eve").trail (Masquerade.moves 2)) Masquerade.eve ∧
    (Masquerade.start "Zoe").veil = (Masquerade.start "Eve").veil ∧
    ((Masquerade.start "Zoe").trail (Masquerade.moves 1)).map (·.move.veil) =
      ((Masquerade.start "Eve").trail (Masquerade.moves 2)).map (·.move.veil) ∧
    Indistinct ((Masquerade.start "Zoe").trail (Masquerade.moves 1))
      ((Masquerade.start "Eve").trail (Masquerade.moves 2)) Masquerade.zoe Masquerade.eve ∧
    Masquerade.zoe.site.hub.exchange.registry.map (·.identity.displayName) = ["Zoe", "Zoe"] ∧
    Masquerade.eve.site.hub.exchange.registry.map (·.identity.displayName) = ["Eve", "Eve"] ∧
    (framesPut 2 ((Masquerade.start "Zoe").trail (Masquerade.moves 1))).map
      (·.message.eventType) = ["user_online", "user_offline"] :=
  ⟨Masquerade.course_zoe, Masquerade.course_eve, Masquerade.veil_start, Masquerade.veil_moves,
    (anonymous_names_hidden Masquerade.course_zoe Masquerade.course_eve Masquerade.veil_start
      Masquerade.veil_moves).1,
    Masquerade.names.1, Masquerade.names.2, Masquerade.told⟩

end Switchboard
