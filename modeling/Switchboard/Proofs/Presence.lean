import Mathlib.Data.List.Chain
import Switchboard.Proofs.Delivery

/-!
# Faithful presence

What a connection is told of another user's coming and going, set beside the registry. Announcing a
departure can put out others, who are announced later in the same breath, so in between a connection
has been told less than the registry knows. The invariant names the difference: a user is still
shown as online exactly if they are in the registry *or wait to be announced* (`Announcing.tracks`).
When nobody waits any more, what was told and what is agree.
-/

namespace Switchboard

open Wire Exchange

/-- Who has come or gone according to a frame, if it is about that. -/
def Wire.Envelope.presence? (e : Envelope) : Option (String × Bool) :=
  match e.message with
  | .event (.userOnline user _) => some (user, true)
  | .event (.userOffline user) => some (user, false)
  | _ => none

/-- What an announcement of the hub says of a user: that they have come, or gone, or nothing. -/
def Sending.tells (s : Sending) (user : String) : Option Bool :=
  if s.isAnnounced then (s.frame.presence?.filter (·.1 = user)).map (·.2) else none

/-- What the frames that came into a queue said of a user. -/
def presenceOn (q : QueueId) (user : String) (log : List Sending) : List Bool :=
  (log.filter (·.reaches q)).filterMap (·.tells user)

/-- `Flips was seen is`: `seen` goes back and forth, beginning from `was` and ending with `is`. -/
inductive Flips : Bool → List Bool → Bool → Prop
  | done (b : Bool) : Flips b [] b
  | flip {b c : Bool} {l : List Bool} : Flips (!b) l c → Flips b ((!b) :: l) c

namespace Flips

variable {b c d : Bool} {l l' : List Bool}

theorem append (h : Flips b l c) (h' : Flips c l' d) : Flips b (l ++ l') d := by
  induction h with
  | done b => exact h'
  | flip _ ih => exact .flip (ih h')

theorem head (h : Flips b l c) {a : Bool} (ha : l.head? = some a) : a = !b := by
  cases h with
  | done b => simp at ha
  | flip _ => exact (Option.some.inj ha).symm

theorem chain (h : Flips b l c) : l.IsChain (· ≠ ·) := by
  induction h with
  | done b => exact List.isChain_nil
  | @flip b c l h ih =>
    refine List.isChain_cons.mpr ⟨fun a ha heq => ?_, ih⟩
    have := h.head ha
    rw [← heq] at this
    simp at this

theorem last (h : Flips b l c) : c = l.getLast?.getD b := by
  induction h with
  | done b => rfl
  | @flip b c l h ih =>
    rw [List.getLast?_cons]
    exact ih

/-- Who was online and is not, and was only ever said to have gone, was said so once. -/
theorem eq_singleton (h : Flips true l false) (ho : ∀ a ∈ l, a = false) : l = [false] := by
  cases h with
  | @flip _ _ l h =>
    cases h with
    | done => rfl
    | flip h => simp at ho

end Flips

/-! ## Who is online -/

namespace Exchange

theorem isOnline_iff {x : Exchange} {user : String} :
    x.isOnline user = true ↔ user ∈ x.registry.map Entry.userId := by
  unfold isOnline find?
  rw [List.find?_isSome, List.mem_map]
  simp

theorem isOnline_eq_false_iff {x : Exchange} {user : String} :
    x.isOnline user = false ↔ user ∉ x.registry.map Entry.userId := by
  rw [← isOnline_iff, Bool.not_eq_true]

theorem isOnline_of_mem {x : Exchange} {e : Entry} (he : e ∈ x.registry) :
    x.isOnline e.userId = true := isOnline_iff.mpr (List.mem_map_of_mem he)

theorem isOnline_updateTopics (x : Exchange) (user : String) (c : ConnectionId)
    (f : List Topic → List Topic) (v : String) :
    (x.updateTopics user c f).isOnline v = x.isOnline v := by
  rw [Bool.eq_iff_iff, isOnline_iff, isOnline_iff, map_userId_updateTopics]

theorem isOnline_insert (x : Exchange) (r : Registration) (user : String) :
    (x.insert r.entry).isOnline user = (x.isOnline user || decide (user = r.identity.userId)) := by
  rw [Bool.eq_iff_iff, Bool.or_eq_true, isOnline_iff, isOnline_iff, decide_eq_true_eq]
  show user ∈ (x.registry ++ [r.entry]).map Entry.userId ↔ _
  rw [List.map_append, List.mem_append, List.map_singleton, List.mem_singleton]
  rfl

theorem isOnline_depart (x : Exchange) (e : Entry) (user : String) :
    (x.depart e).isOnline user = (x.isOnline user && decide (user ≠ e.userId)) := by
  rw [Bool.eq_iff_iff, Bool.and_eq_true, isOnline_iff, isOnline_iff, decide_eq_true_eq,
    List.mem_map, List.mem_map]
  constructor
  · rintro ⟨e', he', rfl⟩
    obtain ⟨hm, hu⟩ := mem_depart.mp he'
    exact ⟨⟨e', hm, rfl⟩, hu⟩
  · rintro ⟨⟨e', he', rfl⟩, hu⟩
    exact ⟨e', mem_depart.mpr ⟨he', hu⟩, rfl⟩

end Exchange

namespace Sending

/-- Whoever is still there has got the frame, if it was meant for them. -/
theorem reaches_of_mem_after {s : Sending} (h : s.before.WellKept) {e : Entry}
    (he : e ∈ s.after.registry) : s.reaches e.queue = s.target.selects e := by
  obtain ⟨hm, hr⟩ := mem_after.mp he
  have hp := hr
  rw [refuses_eq_putsOut h hm] at hp
  have hs : s.selects e.queue = s.target.selects e := by
    rw [Bool.eq_iff_iff]
    unfold selects
    rw [List.any_eq_true]
    constructor
    · rintro ⟨e', he', heq⟩
      rw [Bool.and_eq_true, decide_eq_true_eq] at heq
      rw [← h.eq_of_queue he' hm heq.1]
      exact heq.2
    · intro ht
      exact ⟨e, hm, by simp [ht]⟩
  unfold putsOut at hp
  rw [reaches_eq, hs]
  rw [hs] at hp
  cases ht : s.target.selects e with
  | false => rfl
  | true =>
    rw [ht, Bool.true_and] at hp
    rw [hp]
    rfl

/-- Those put out and those left make up those who were there. -/
theorem isOnline_after (s : Sending) {out : List Entry} (ho : out.Perm s.refusers)
    (user : String) :
    s.before.isOnline user =
      (s.after.isOnline user || decide (user ∈ out.map Entry.userId)) := by
  rw [Bool.eq_iff_iff, Bool.or_eq_true, isOnline_iff, isOnline_iff, decide_eq_true_eq,
    (ho.map _).mem_iff, List.mem_map, List.mem_map, List.mem_map]
  constructor
  · rintro ⟨e, he, rfl⟩
    by_cases hr : s.before.refuses s.target e = true
    · exact Or.inr ⟨e, mem_refusers.mpr ⟨he, hr⟩, rfl⟩
    · exact Or.inl ⟨e, mem_after.mpr ⟨he, Bool.eq_false_iff.mpr hr⟩, rfl⟩
  · rintro (⟨e, he, rfl⟩ | ⟨e, he, rfl⟩)
    · exact ⟨e, (mem_after.mp he).1, rfl⟩
    · exact ⟨e, (mem_refusers.mp he).1, rfl⟩

/-- Whoever is put out is not there any more. -/
theorem isOnline_after_of_refuser {s : Sending} (h : s.before.WellKept) {e : Entry}
    (he : e ∈ s.refusers) : s.after.isOnline e.userId = false := by
  rw [isOnline_eq_false_iff, List.mem_map]
  rintro ⟨e', he', hu⟩
  obtain ⟨hm, hr⟩ := mem_after.mp he'
  obtain ⟨hm', hr'⟩ := mem_refusers.mp he
  rw [h.users.eq_of_userId hm hm' hu, hr'] at hr
  exact Bool.noConfusion hr

@[simp] theorem tells_offline (x : Exchange) (user v : String) (time : Time.Timestamp) :
    (offline x user time).tells v = if user = v then some false else none := by
  unfold tells offline
  by_cases h : user = v <;> simp [Envelope.presence?, Envelope.wrap, Option.filter, h]

@[simp] theorem tells_online (x : Exchange) (i : Identity) (v : String) (time : Time.Timestamp) :
    (online x i time).tells v = if i.userId = v then some true else none := by
  unfold tells online
  by_cases h : i.userId = v <;> simp [Envelope.presence?, Envelope.wrap, Option.filter, h]

end Sending

/-! ## Announcing -/

theorem presenceOn_cons (q : QueueId) (user : String) (s : Sending) (log : List Sending) :
    presenceOn q user (s :: log) =
      (if s.reaches q then (s.tells user).toList else []) ++ presenceOn q user log := by
  unfold presenceOn
  by_cases h : s.reaches q = true
  · cases ht : s.tells user <;> simp [h, ht]
  · simp [h]

theorem presenceOn_append (q : QueueId) (user : String) (log log' : List Sending) :
    presenceOn q user (log ++ log') = presenceOn q user log ++ presenceOn q user log' := by
  unfold presenceOn
  rw [List.filter_append, List.filterMap_append]

/-- The users who wait are gone, and each waits once. -/
theorem waiting_next {s : Sending} (hs : s.before.WellKept) {out : List Entry}
    (ho : out.Perm s.refusers) {waiting : List String} (hw : waiting.Nodup)
    (hg : ∀ u ∈ waiting, s.before.isOnline u = false) :
    (out.map Entry.userId ++ waiting).Nodup ∧
      ∀ u ∈ out.map Entry.userId ++ waiting, s.after.isOnline u = false := by
  constructor
  · rw [List.nodup_append]
    refine ⟨?_, hw, ?_⟩
    · rw [(ho.map Entry.userId).nodup_iff]
      exact List.Nodup.sublist (List.filter_sublist.map _) hs.users
    · -- whoever waits is not in the registry, so nothing can put them out again
      rintro u hu v hv rfl
      have := s.isOnline_after ho u
      rw [hg u hv, decide_eq_true hu, Bool.or_true] at this
      exact Bool.noConfusion this
  · intro u hu
    rcases List.mem_append.mp hu with hu | hu
    · obtain ⟨e, he, rfl⟩ := List.mem_map.mp hu
      exact Sending.isOnline_after_of_refuser hs (ho.mem_iff.mp he)
    · have := s.isOnline_after ho u
      rw [hg u hu] at this
      exact (Bool.or_eq_false_iff.mp this.symm).1

/-- Whoever is still there has got the announcement that somebody has gone. -/
theorem reaches_offline {x : Exchange} (hx : x.WellKept) {user : String} {time : Time.Timestamp}
    (hoff : x.isOnline user = false) {e : Entry}
    (he : e ∈ (Sending.offline x user time).after.registry) :
    (Sending.offline x user time).reaches e.queue = true := by
  have hne : e.userId ≠ user := by
    intro heq
    have hon := isOnline_of_mem (Sending.mem_after.mp he).1
    rw [heq] at hon
    exact Bool.noConfusion (hon.symm.trans hoff)
  rw [Sending.reaches_of_mem_after hx he]
  exact decide_eq_true hne

/--
**What a connection is told keeps up with the registry.** Whoever is shown as online is in the
registry or waits to be announced.
-/
theorem Announcing.tracks {x y : Exchange} {waiting : List String} {log : List Sending}
    (h : Announcing x waiting log y) (hx : x.WellKept) (hw : waiting.Nodup)
    (hg : ∀ u ∈ waiting, x.isOnline u = false) {e : Entry} (he : e ∈ y.registry) {v : String}
    (hv : v ≠ e.userId) :
    Flips (x.isOnline v || decide (v ∈ waiting)) (presenceOn e.queue v log) (y.isOnline v) := by
  induction h with
  | done x =>
    rw [decide_eq_false List.not_mem_nil, Bool.or_false]
    exact .done _
  | @next x y user waiting log time out ho ha ih =>
    obtain ⟨hu, hw'⟩ := List.nodup_cons.mp hw
    have hg' : ∀ u ∈ waiting, (Sending.offline x user time).before.isOnline u = false :=
      fun u hu => hg u (List.mem_cons_of_mem user hu)
    obtain ⟨hnd, hgone⟩ := waiting_next hx ho hw' hg'
    have ih := ih (Sending.wellKept_after hx) hnd hgone he
    have hreach := reaches_offline hx (hg user List.mem_cons_self) (ha.linked.sublist.subset he)
    have hsplit := (Sending.offline x user time).isOnline_after ho v
    have hbefore : (Sending.offline x user time).before.isOnline v = x.isOnline v := rfl
    rw [presenceOn_cons, if_pos hreach, Sending.tells_offline]
    by_cases hvu : user = v
    · subst hvu
      -- the announcement is about the user in question
      rw [hbefore, hg user List.mem_cons_self] at hsplit
      obtain ⟨hoff, hout⟩ := Bool.or_eq_false_iff.mp hsplit.symm
      have hstart : ((Sending.offline x user time).after.isOnline user ||
          decide (user ∈ out.map Entry.userId ++ waiting)) = false := by
        rw [hoff, Bool.false_or, decide_eq_false_iff_not, List.mem_append]
        exact fun hm => hm.elim (of_decide_eq_false hout) hu
      rw [hstart] at ih
      rw [decide_eq_true List.mem_cons_self, Bool.or_true, if_pos rfl]
      exact .flip ih
    · -- the announcement is about somebody else: those it puts out are gone but wait instead
      have hstart : ((Sending.offline x user time).after.isOnline v ||
          decide (v ∈ out.map Entry.userId ++ waiting)) =
          (x.isOnline v || decide (v ∈ user :: waiting)) := by
        rw [← hbefore, hsplit]
        simp only [List.mem_append, List.mem_cons, Bool.decide_or, Ne.symm hvu, false_or,
          Bool.or_assoc]
      rw [hstart] at ih
      rw [if_neg hvu]
      exact ih

theorem Spreading.tracks {s : Sending} {y : Exchange} {log : List Sending}
    (h : Spreading s log y) (hs : s.before.WellKept) {e : Entry} (he : e ∈ y.registry)
    {v : String} (hv : v ≠ e.userId) :
    ∃ rest, log = s :: rest ∧ e ∈ s.after.registry ∧
      Flips (s.before.isOnline v) (presenceOn e.queue v rest) (y.isOnline v) := by
  cases h with
  | @mk out rest _ ho ha =>
    obtain ⟨hnd, hgone⟩ := waiting_next hs ho List.nodup_nil (fun u hu => by simp at hu)
    rw [List.append_nil] at hnd hgone
    refine ⟨rest, rfl, ha.linked.sublist.subset he, ?_⟩
    rw [s.isOnline_after ho v]
    exact ha.tracks (Sending.wellKept_after hs) hnd hgone he hv

/-- A newcomer is announced to whoever else is there. -/
theorem Spreading.tracks_join {x y : Exchange} {reg : Registration} {time : Time.Timestamp}
    {log : List Sending} (h : Spreading (.online (x.welcome reg) reg.identity time) log y)
    (hw : (x.welcome reg).WellKept) (hoff : x.isOnline reg.identity.userId = false) {e : Entry}
    (he : e ∈ y.registry) {v : String} (hv : v ≠ e.userId) :
    Flips (x.isOnline v) (presenceOn e.queue v log) (y.isOnline v) := by
  obtain ⟨rest, rfl, hafter, hflips⟩ := h.tracks hw he hv
  have hon : (Sending.online (x.welcome reg) reg.identity time).before.isOnline v =
      (x.isOnline v || decide (v = reg.identity.userId)) := isOnline_insert x reg v
  rw [hon] at hflips
  rw [presenceOn_cons, Sending.tells_online]
  by_cases hvr : reg.identity.userId = v
  · subst hvr
    have hreach : (Sending.online (x.welcome reg) reg.identity time).reaches e.queue = true := by
      rw [Sending.reaches_of_mem_after hw hafter]
      exact decide_eq_true (Ne.symm hv)
    rw [hoff, decide_eq_true rfl, Bool.false_or] at hflips
    rw [if_pos hreach, if_pos rfl, hoff]
    exact .flip hflips
  · rw [decide_eq_false (Ne.symm hvr), Bool.or_false] at hflips
    rw [if_neg hvr]
    simpa using hflips

theorem isOnline_register_of_find? {x : Exchange} {reg : Registration} {previous : Entry}
    (hf : x.find? reg.identity.userId = some previous) (v : String) :
    (x.register reg).isOnline v = x.isOnline v := by
  rw [register_replace hf]
  show ((x.depart previous).insert reg.entry).isOnline v = _
  rw [isOnline_insert, isOnline_depart, userId_of_find? hf]
  by_cases hvr : v = reg.identity.userId
  · subst hvr
    rw [isOnline_iff.mpr (List.mem_map.mpr ⟨previous, mem_of_find? hf, userId_of_find? hf⟩)]
    simp
  · simp [hvr]

/-- Whoever leaves is announced to whoever stays. -/
theorem Announcing.tracks_leave {x y : Exchange} {e' : Entry} {log : List Sending}
    (h : Announcing (x.discharge e') [e'.userId] log y) (hw : (x.discharge e').WellKept)
    (hm : e' ∈ x.registry) {e : Entry} (he : e ∈ y.registry) {v : String} (hv : v ≠ e.userId) :
    Flips (x.isOnline v) (presenceOn e.queue v log) (y.isOnline v) := by
  have hon : ∀ u, (x.discharge e').isOnline u = (x.isOnline u && decide (u ≠ e'.userId)) :=
    isOnline_depart x e'
  have hgone : ∀ u ∈ [e'.userId], (x.discharge e').isOnline u = false := by
    intro u hu
    rw [List.mem_singleton.mp hu, hon]
    simp
  have hflips := h.tracks hw (List.nodup_singleton _) hgone he hv
  have hstart : ((x.discharge e').isOnline v || decide (v ∈ [e'.userId])) = x.isOnline v := by
    rw [hon]
    by_cases hve : v = e'.userId
    · subst hve
      rw [isOnline_of_mem hm]
      simp
    · simp [hve]
  rw [hstart] at hflips
  exact hflips

/-- **Every request keeps up presence**, for those who are connected when it has been handled. -/
theorem Handling.tracks {x y : Exchange} {r : Request} {log : List Sending}
    (h : Handling x r log y) (hx : x.WellKept) (ha : x.Admits r) {e : Entry}
    (he : e ∈ y.registry) {v : String} (hv : v ≠ e.userId) :
    Flips (x.isOnline v) (presenceOn e.queue v log) (y.isOnline v) := by
  cases h with
  | join time hf hs =>
    refine hs.tracks_join (begins_welcome hx ha hf).wellKept ?_ he hv
    unfold isOnline
    rw [hf]
    rfl
  | replace hf =>
    rw [isOnline_register_of_find? hf]
    exact .done _
  | @leave _ user c e' _ hf hs =>
    obtain ⟨hfind, -⟩ := findConnection?_eq_some.mp hf
    have hm := mem_of_find? hfind
    obtain rfl := userId_of_find? hfind
    exact hs.tracks_leave (begins_discharge hx hm e'.userId c).wellKept hm he hv
  | stay hf => exact .done _
  | deliver hs =>
    have hw : (x.count fun s => { s with published := s.published + 1 }).WellKept :=
      wellKept_count hx _
    obtain ⟨rest, rfl, -, hflips⟩ := hs.tracks hw he hv
    have hflips' : Flips (x.isOnline v) (presenceOn e.queue v rest) (y.isOnline v) := hflips
    rw [presenceOn_cons]
    simpa [Sending.tells] using hflips'
  | subscribe user c topics =>
    have hon : (x.subscribe user c topics).isOnline v = x.isOnline v :=
      isOnline_updateTopics x user c _ v
    rw [hon]
    exact .done _
  | unsubscribe user c topics =>
    have hon : (x.unsubscribe user c topics).isOnline v = x.isOnline v :=
      isOnline_updateTopics x user c _ v
    rw [hon]
    exact .done _

/-! ## What is announced -/

/-- The hub announces that somebody has gone, or that somebody has come who was not there. -/
theorem Handling.kinds {x y : Exchange} {r : Request} {log : List Sending}
    (h : Handling x r log y) {s : Sending} (hs : s ∈ log) :
    s.isAnnounced = false ∨ (∃ x' user time, s = .offline x' user time) ∨
      ∃ reg time, r = .register reg ∧ x.isOnline reg.identity.userId = false ∧
        s = .online (x.welcome reg) reg.identity time := by
  cases h with
  | join time hf hsp =>
    rcases hsp.kinds hs with rfl | h
    · refine Or.inr (Or.inr ⟨_, time, rfl, ?_, rfl⟩)
      unfold isOnline
      rw [hf]
      rfl
    · exact Or.inr (Or.inl h)
  | replace hf => simp at hs
  | leave hf ha => exact Or.inr (Or.inl (ha.kinds hs))
  | stay hf => simp at hs
  | deliver hsp =>
    rcases hsp.kinds hs with rfl | h
    · exact Or.inl rfl
    · exact Or.inr (Or.inl h)
  | subscribe user c topics => simp at hs
  | unsubscribe user c topics => simp at hs

theorem Sending.tells_of_not_announced {s : Sending} (h : s.isAnnounced = false) (v : String) :
    s.tells v = none := by
  unfold tells
  rw [h]
  rfl

/-- Nobody who was there is said to have come. -/
theorem Handling.presenceOn_eq_false {x y : Exchange} {r : Request} {log : List Sending}
    (h : Handling x r log y) {v : String} (hv : x.isOnline v = true) {q : QueueId} {b : Bool}
    (hb : b ∈ presenceOn q v log) : b = false := by
  obtain ⟨s, hs, ht⟩ := List.mem_filterMap.mp hb
  rcases h.kinds (List.mem_filter.mp hs).1 with hn | ⟨x', user, time, rfl⟩ |
    ⟨reg, time, -, hoff, rfl⟩
  · rw [s.tells_of_not_announced hn] at ht
    simp at ht
  · rw [Sending.tells_offline] at ht
    split at ht
    · exact (Option.some.inj ht).symm
    · simp at ht
  · rw [Sending.tells_online] at ht
    split at ht
    · rename_i hvr
      rw [← hvr, hoff] at hv
      exact Bool.noConfusion hv
    · simp at ht

/-- An announcement is for everyone but the user it is about. -/
theorem Handling.tells_own {x y : Exchange} {r : Request} {log : List Sending}
    (h : Handling x r log y) {s : Sending} (hs : s ∈ log) (hw : s.before.WellKept) {e : Entry}
    (he : e ∈ s.before.registry) (hr : s.reaches e.queue = true) : s.tells e.userId = none := by
  have hsel : s.target.selects e = true := by
    rw [Sending.reaches_eq, Bool.and_eq_true] at hr
    obtain ⟨e', he', heq⟩ := List.any_eq_true.mp hr.1
    rw [Bool.and_eq_true, decide_eq_true_eq] at heq
    rw [← hw.eq_of_queue he' he heq.1]
    exact heq.2
  rcases h.kinds hs with hn | ⟨x', user, time, rfl⟩ | ⟨reg, time, -, -, rfl⟩
  · exact s.tells_of_not_announced hn _
  · rw [Sending.tells_offline, if_neg]
    exact Ne.symm (of_decide_eq_true hsel)
  · rw [Sending.tells_online, if_neg]
    exact Ne.symm (of_decide_eq_true hsel)

/-! ## Over a whole run -/

namespace Exchange.Run

variable {past : List Incident} {x : Exchange}

theorem handled_mem (h : Run past x) {x₁ x₂ : Exchange} {r : Request} {log : List Sending}
    (hi : Incident.handled x₁ r log x₂ ∈ past) :
    x₁.WellKept ∧ x₁.Admits r ∧ Handling x₁ r log x₂ := by
  induction h with
  | start clock => simp at hi
  | handle hr ha hh ih =>
    rcases List.mem_append.mp hi with hi | hi
    · exact ih hi
    · obtain ⟨rfl, rfl, rfl, rfl⟩ := Incident.handled.inj (List.mem_singleton.mp hi)
      exact ⟨hr.wellKept, ha, hh⟩
  | receive _ hm ih =>
    rcases List.mem_append.mp hi with hi | hi
    · exact ih hi
    · exact absurd hi hm.not_handled

theorem tracks (h : Run past x) {earlier later : List Incident} {x₀ x₁ : Exchange}
    {r : Registration} {log : List Sending}
    (hp : past = earlier ++ .handled x₀ (.register r) log x₁ :: later) (hr : x.Holds r)
    {v : String} (hv : v ≠ r.identity.userId) :
    Flips (x₀.isOnline v) (presenceOn r.queue v (log ++ sendings later)) (x.isOnline v) := by
  induction h generalizing later with
  | start clock => simp at hp
  | @handle past x y req log' hrun ha hh ih =>
    obtain ⟨e, he, rfl⟩ := hr
    have hstep : Flips (x.isOnline v) (presenceOn e.registration.queue v log') (y.isOnline v) :=
      hh.tracks hrun.wellKept ha he hv
    rcases split_snoc hp with ⟨rfl, rfl, hi⟩ | ⟨middle, rfl, hpast⟩
    · obtain ⟨rfl, rfl, rfl, rfl⟩ := Incident.handled.inj hi
      simpa [sendings] using hstep
    · -- who is there now was there before, since nobody comes back
      obtain ⟨-, x', hx', hpre, -⟩ := hrun.since hpast
      obtain ⟨x'', hb, hl⟩ := hh.begins hrun.wellKept ha
      have hold : x.Holds e.registration := by
        rcases hpre.holds hx' with hret | hold
        · have hret' := (hb.precedes.trans (hl.precedes hb.wellKept)).retired _ hret
          exact absurd ⟨e, he, rfl⟩ hret'.not_holds
        · exact hold
      have hold' := ih hpast hold
      rw [sendings_append, sendings_singleton, ← List.append_assoc, presenceOn_append]
      exact hold'.append hstep
  | @receive past new x m hrun hm ih =>
    obtain ⟨middle, rfl, hpast⟩ := split_append hp hm.not_handled
    rw [sendings_append, hm.sends_nothing, List.append_nil]
    exact ih hpast hr

end Exchange.Run

/-- What a connection was told of a user agrees with the registry, before and after. -/
structure Faithful (was : Bool) (seen : List Bool) (is : Bool) : Prop where
  /-- Coming and going alternate. -/
  alternates : seen.IsChain (· ≠ ·)
  /-- The first frame says that the user has gone if they were there, and has come if not. -/
  first : ∀ b, seen.head? = some b → b = !was
  /-- The user is there if the last frame says so, or if there is none and they were there. -/
  last : is = seen.getLast?.getD was

/-- What a connection was told of another user agrees with the registry, as long as it is there. -/
theorem Exchange.Run.faithful {past earlier later : List Incident} {x x₀ x₁ : Exchange}
    {r : Registration} {log : List Sending} (h : Run past x)
    (hp : past = earlier ++ .handled x₀ (.register r) log x₁ :: later) (hr : x.Holds r)
    {v : String} (hv : v ≠ r.identity.userId) :
    Faithful (x₀.isOnline v) (presenceOn r.queue v (log ++ sendings later)) (x.isOnline v) :=
  have hf := h.tracks hp hr hv
  ⟨hf.chain, fun _ hb => hf.head hb, hf.last⟩

/--
**Presence is faithful.** For as long as a connection is registered, what it was told of every other
user since it registered agrees with the registry. A departure is announced once to whoever is
there afterwards, a login that replaces another announces nothing, and nobody is told of
themselves.
-/
theorem presence_faithful {past : List Incident} {x : Exchange} (h : Run past x) :
    (∀ q, enqueued past x q = ((sendings past).filter (·.reaches q)).map (·.frame)) ∧
    (∀ earlier x₀ r log x₁ later, past = earlier ++ .handled x₀ (.register r) log x₁ :: later →
      x.Holds r → ∀ v, v ≠ r.identity.userId →
      Faithful (x₀.isOnline v) (presenceOn r.queue v (log ++ sendings later)) (x.isOnline v)) ∧
    (∀ x₁ req log x₂, Incident.handled x₁ req log x₂ ∈ past →
      (∀ r v, x₂.Holds r → v ≠ r.identity.userId → x₁.isOnline v = true →
        x₂.isOnline v = false → presenceOn r.queue v log = [false]) ∧
      (∀ r, req = .register r → x₁.isOnline r.identity.userId = true → log = []) ∧
      ∀ s ∈ log, ∀ e ∈ s.before.registry, s.reaches e.queue → s.tells e.userId = none) := by
  refine ⟨h.enqueued_eq, fun _ _ _ _ _ _ hp hr _ hv => h.faithful hp hr hv, ?_⟩
  · intro x₁ req log x₂ hi
    obtain ⟨hw, ha, hh⟩ := h.handled_mem hi
    refine ⟨?_, ?_, ?_⟩
    · rintro r v ⟨e, he, rfl⟩ hv hon hoff
      have hf := hh.tracks hw ha he hv
      rw [hon, hoff] at hf
      exact hf.eq_singleton fun b hb => hh.presenceOn_eq_false hon hb
    · rintro r rfl hon
      cases hh with
      | join time hf _ =>
        unfold isOnline at hon
        rw [hf] at hon
        exact Bool.noConfusion hon
      | replace hf => rfl
    · intro s hs e he hreach
      obtain ⟨x', hb, hl⟩ := hh.begins hw ha
      exact hh.tells_own hs (hl.between hb.wellKept hs).1 he hreach

/-- Bob sees Ann come, and go when her queue is full. -/
theorem presence_faithful_sample : Run Sample.past Sample.annGoes.after ∧
    Sample.annGoes.after.Holds Sample.bob ∧
    presenceOn 0 "ann" (sendings Sample.past) = [true, false] ∧
    Faithful (Sample.start.isOnline "ann") (presenceOn 0 "ann" (sendings Sample.past))
      (Sample.annGoes.after.isOnline "ann") :=
  have hold : Sample.annGoes.after.Holds Sample.bob := by decide
  ⟨Sample.run, hold, by decide,
    (presence_faithful Sample.run).2.1 [] _ _ _ _ _ rfl hold "ann" (by decide)⟩

end Switchboard
