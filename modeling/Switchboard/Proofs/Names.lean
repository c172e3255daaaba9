import Switchboard.Hub.Requests

/-!
# Names and topics

A name is read up to its first colon and written back with one, so reading and writing undo each
other exactly: a name that is read at all is written back letter for letter, and a topic is read
back from its name just when its scope is one that a name may carry. To publish by name and to
publish to a topic are therefore the same.
-/

namespace Switchboard

open Wire

namespace Topic

/-! ## What a name may look like -/

/-- The characters of a scope: the letters and digits of ASCII, the hyphen and the underscore. -/
def ScopeChar (c : Char) : Prop :=
  ('a' ≤ c ∧ c ≤ 'z') ∨ ('A' ≤ c ∧ c ≤ 'Z') ∨ ('0' ≤ c ∧ c ≤ '9') ∨ c = '-' ∨ c = '_'

/-- From 1 to 64 such characters. -/
def Scope (id : String) : Prop :=
  1 ≤ id.length ∧ id.length ≤ 64 ∧ ∀ c ∈ id.toList, ScopeChar c

/-- The names that topics have. -/
inductive Named : String → Prop where
  | posts : Named "posts"
  | responses : Named "responses"
  | ofScope {kind id : String} (hk : kind ∈ ["post", "user", "circle"]) (hid : Scope id) :
      Named (kind ++ ":" ++ id)

/-- A topic whose scope, if it has one, is one that a name may carry. -/
def WellScoped (t : Topic) : Prop := ∀ id, t.scope? = some id → Scope id

theorem isScopeChar_iff (c : Char) : isScopeChar c = true ↔ ScopeChar c := by
  have hchar : isScopeChar c = (decide ('A' ≤ c ∧ c ≤ 'Z') || (decide ('a' ≤ c) && decide (c ≤ 'z'))
      || (decide ('0' ≤ c) && decide (c ≤ '9')) || c == '-' || c == '_') := rfl
  simp only [hchar, Bool.or_eq_true, Bool.and_eq_true, decide_eq_true_eq, beq_iff_eq]
  constructor
  · rintro ((((h | h) | h) | h) | h)
    · exact .inr (.inl h)
    · exact .inl h
    · exact .inr (.inr (.inl h))
    · exact .inr (.inr (.inr (.inl h)))
    · exact .inr (.inr (.inr (.inr h)))
  · rintro (h | h | h | h | h)
    · exact .inl (.inl (.inl (.inr h)))
    · exact .inl (.inl (.inl (.inl h)))
    · exact .inl (.inl (.inr h))
    · exact .inl (.inr h)
    · exact .inr h

theorem isScope_iff (id : String) : isScope id = true ↔ Scope id := by
  unfold isScope maxScopeLength
  rw [Bool.and_eq_true, Bool.and_eq_true, decide_eq_true_eq, decide_eq_true_eq, List.all_eq_true,
    and_assoc]
  simp only [isScopeChar_iff, Scope, Nat.succ_le_iff]

/-- Every such character is a single octet. -/
theorem ScopeChar.utf8Size {c : Char} (h : ScopeChar c) : c.utf8Size = 1 := by
  have hsmall : c.val ≤ 'z'.val := by
    simp only [ScopeChar, Char.le_def] at h
    rcases h with h | h | h | rfl | rfl
    · exact h.2
    · exact UInt32.le_trans h.2 (by decide)
    · exact UInt32.le_trans h.2 (by decide)
    · decide
    · decide
  have : c.val ≤ 0x7f := UInt32.le_trans hsmall (by decide)
  simp [Char.utf8Size, this]

/-- It makes no difference to a scope whether its octets or its characters are counted. -/
theorem scope_iff_utf8ByteSize (id : String) :
    Scope id ↔ 1 ≤ id.utf8ByteSize ∧ id.utf8ByteSize ≤ 64 ∧ ∀ c ∈ id.toList, ScopeChar c := by
  have hsize : ∀ chars : List Char, (∀ c ∈ chars, ScopeChar c) →
      (String.ofList chars).utf8ByteSize = chars.length := by
    intro chars
    induction chars with
    | nil => intro _; rfl
    | cons c rest ih =>
      intro hall
      have hc := (hall c (by simp)).utf8Size
      have hrest := ih fun c hc => hall c (by simp [hc])
      rw [String.ofList_cons, String.utf8ByteSize_append, String.utf8ByteSize_singleton, hc, hrest,
        List.length_cons]
      omega
  unfold Scope
  have hid := hsize id.toList
  rw [String.ofList_toList, String.length_toList] at hid
  constructor
  · rintro ⟨hpos, hmax, hall⟩
    rw [hid hall]
    exact ⟨hpos, hmax, hall⟩
  · rintro ⟨hpos, hmax, hall⟩
    rw [hid hall] at hpos hmax
    exact ⟨hpos, hmax, hall⟩

/-! ## Reading a name and writing it back -/

/-- What stands before the first colon is the kind, and all that stands behind it is the scope. -/
theorem ofName?_colon {kind : String} (hk : ':' ∉ kind.toList) (id : String) :
    ofName? (kind ++ ":" ++ id) = if isScope id then ofScope? kind id else none := by
  have hname : (kind ++ ":" ++ id).toList = kind.toList ++ ':' :: id.toList := by
    simp [String.toList_append]
  -- the kind has no colon, so the first one in the name is the one behind it
  have hpos : ∀ c ∈ kind.toList, decide (c ≠ ':') = true := by
    intro c hc
    have : c ≠ ':' := fun heq => hk (heq ▸ hc)
    simpa using this
  have hdrop : (kind ++ ":" ++ id).toList.dropWhile (· ≠ ':') = ':' :: id.toList := by
    rw [hname, List.dropWhile_append_of_pos hpos]
    simp
  have htake : (kind ++ ":" ++ id).toList.takeWhile (· ≠ ':') = kind.toList := by
    rw [hname, List.takeWhile_append_of_pos hpos]
    simp
  simp only [ofName?, hdrop, htake, String.ofList_toList]

theorem ofName?_name_of_wellScoped {t : Topic} (h : t.WellScoped) : ofName? t.name = some t := by
  have key : ∀ kind {id}, t.scope? = some id → t.name = kind ++ ":" ++ id →
      ':' ∉ kind.toList → ofScope? kind id = some t → ofName? t.name = some t := by
    intro kind id hid hname hk hof
    rw [hname, ofName?_colon hk, (isScope_iff id).mpr (h id hid)]
    exact hof
  cases t with
  | posts => rfl
  | responses => rfl
  | post id => exact key "post" rfl rfl (by decide) rfl
  | user id => exact key "user" rfl rfl (by decide) rfl
  | circle id => exact key "circle" rfl rfl (by decide) rfl

theorem scope?_ofFeed? {name : String} {t : Topic} (h : ofFeed? name = some t) :
    t.scope? = none := by
  unfold ofFeed? at h
  split at h
  · obtain rfl := Option.some.inj h
    rfl
  · split at h
    · obtain rfl := Option.some.inj h
      rfl
    · simp at h

theorem scope?_ofScope? {kind id : String} {t : Topic} (h : ofScope? kind id = some t) :
    t.scope? = some id := by
  unfold ofScope? at h
  split at h
  · obtain rfl := Option.some.inj h
    rfl
  · split at h
    · obtain rfl := Option.some.inj h
      rfl
    · split at h
      · obtain rfl := Option.some.inj h
        rfl
      · simp at h

theorem wellScoped_of_ofName? {name : String} {t : Topic} (h : ofName? name = some t) :
    t.WellScoped := by
  intro id hid
  unfold ofName? at h
  split at h
  · rw [scope?_ofFeed? h] at hid
    simp at hid
  · dsimp only at h
    split at h
    · rename_i hscope
      rw [scope?_ofScope? h] at hid
      obtain rfl := Option.some.inj hid
      exact (isScope_iff _).mp hscope
    · simp at h

/-- Reading and writing are inverse on the topics with a proper scope. -/
theorem ofName?_eq_some {name : String} {t : Topic} :
    ofName? name = some t ↔ t.WellScoped ∧ t.name = name := by
  constructor
  · intro h
    exact ⟨wellScoped_of_ofName? h, name_ofName? h⟩
  · rintro ⟨hscope, rfl⟩
    exact ofName?_name_of_wellScoped hscope

theorem named_iff (name : String) : Named name ↔ ∃ t : Topic, t.WellScoped ∧ t.name = name := by
  have wellScoped : ∀ {t : Topic} {id}, t.scope? = some id → Scope id → t.WellScoped := by
    intro t id ht hid id' hid'
    rw [ht] at hid'
    exact Option.some.inj hid' ▸ hid
  constructor
  · intro h
    cases h with
    | posts => exact ⟨.posts, fun id hid => by simp [scope?] at hid, rfl⟩
    | responses => exact ⟨.responses, fun id hid => by simp [scope?] at hid, rfl⟩
    | @ofScope kind id hk hid =>
      simp only [List.mem_cons, List.not_mem_nil, or_false] at hk
      rcases hk with rfl | rfl | rfl
      · exact ⟨.post id, wellScoped rfl hid, rfl⟩
      · exact ⟨.user id, wellScoped rfl hid, rfl⟩
      · exact ⟨.circle id, wellScoped rfl hid, rfl⟩
  · rintro ⟨t, ht, rfl⟩
    have named : ∀ kind {id}, kind ∈ ["post", "user", "circle"] → Scope id →
        Named (kind ++ ":" ++ id) := fun _ _ => .ofScope
    cases t with
    | posts => exact .posts
    | responses => exact .responses
    | post id => exact named "post" (by simp) (ht id rfl)
    | user id => exact named "user" (by simp) (ht id rfl)
    | circle id => exact named "circle" (by simp) (ht id rfl)

theorem parse_eq_ok {name : String} {t : Topic} : parse name = .ok t ↔ ofName? name = some t := by
  unfold parse
  split
  · rename_i t' ht
    rw [ht]
    simp
  · rename_i ht
    rw [ht]
    simp

theorem parse_eq_error {name : String} {u : Unknown} :
    parse name = .error u ↔ ofName? name = none ∧ u = ⟨name⟩ := by
  unfold parse
  split
  · rename_i t' ht
    rw [ht]
    simp
  · rename_i ht
    rw [ht]
    simp [eq_comm]

end Topic

namespace Hub

theorem publishEvent_eq_broadcast {h : Hub} {name : String} {t : Topic} {e : Event}
    (ht : Topic.ofName? name = some t) : h.publishEvent name e = h.broadcast t e := by
  simp only [publishEvent, ht]

/-- To publish under the name of a topic is to ask for one delivery to it. -/
theorem publishEvent_of_some {h : Hub} {name : String} {t : Topic} {e : Event}
    (ht : Topic.ofName? name = some t) (hr : h.running = true) :
    (h.publishEvent name e).pending =
      h.pending ++ [(h.nextTicket, .dispatch (.topic t) (h.exchange.frame (.event e)))] := by
  rw [publishEvent_eq_broadcast ht, broadcast_eq, if_pos hr]

theorem publishEvent_of_none {h : Hub} {name : String} {e : Event}
    (ht : Topic.ofName? name = none) : h.publishEvent name e = h := by
  simp only [publishEvent, ht]

end Hub

open Topic in
/--
**Names.** A name is read if and only if it is one that topics have. What is read is written back
as the name it was read from, and a name that cannot be read is given back unchanged. Every topic
with a proper scope is read back from its name, and no other topic is ever read, so that two names
that can be read name one topic only if they are one name. To publish under a name is to publish to
the topic that it names, whatever the hub is doing (`Hub.broadcast_eq` says what that asks of the
hub), and under a name that no topic has it leaves the hub exactly as it is.
-/
theorem names_are_exact :
    (∀ name, (∃ t, parse name = .ok t) ↔ Named name) ∧
    (∀ name t, parse name = .ok t → t.name = name) ∧
    (∀ name u, parse name = .error u → u.name = name) ∧
    (∀ t, t.WellScoped → parse t.name = .ok t) ∧
    (∀ name t, parse name = .ok t → t.WellScoped) ∧
    (∀ name name' t t', parse name = .ok t → parse name' = .ok t' → (t = t' ↔ name = name')) ∧
    (∀ (h : Hub) name e t, parse name = .ok t → h.publishEvent name e = h.broadcast t e) ∧
    (∀ (h : Hub) name e, ¬ Named name → h.publishEvent name e = h) := by
  have hread : ∀ name, (∃ t, parse name = .ok t) ↔ Named name := by
    intro name
    rw [named_iff]
    simp only [parse_eq_ok, ofName?_eq_some]
  refine ⟨hread, ?_, ?_, ?_, ?_, ?_, ?_, ?_⟩
  · intro name t h
    exact name_ofName? (parse_eq_ok.mp h)
  · intro name u h
    rw [(parse_eq_error.mp h).2]
  · intro t h
    exact parse_eq_ok.mpr (ofName?_name_of_wellScoped h)
  · intro name t h
    exact wellScoped_of_ofName? (parse_eq_ok.mp h)
  · -- of a topic and a name that is read as it each determines the other
    intro name name' t t' h h'
    constructor
    · rintro rfl
      rw [← name_ofName? (parse_eq_ok.mp h), ← name_ofName? (parse_eq_ok.mp h')]
    · rintro rfl
      rw [h] at h'
      exact Except.ok.inj h'
  · intro h name e t ht
    exact Hub.publishEvent_eq_broadcast (parse_eq_ok.mp ht)
  · intro h name e hname
    refine Hub.publishEvent_of_none (Option.eq_none_iff_forall_ne_some.mpr ?_)
    intro t ht
    exact hname ((hread name).mp ⟨t, parse_eq_ok.mpr ht⟩)

open Topic in
/-- A circle's name is read, written back and published under; one with a second colon is not. -/
theorem names_are_exact_circle :
    Named "circle:a-1" ∧ Topic.name (.circle "a-1") = "circle:a-1" ∧
      ¬ Named "circle:4:2" ∧ (∀ u, parse "circle:4:2" = .error u → u.name = "circle:4:2") ∧
      (∀ (h : Hub) e, h.publishEvent "circle:a-1" e = h.broadcast (.circle "a-1") e) ∧
      (∀ (h : Hub) e, h.publishEvent "circle:4:2" e = h) := by
  obtain ⟨hread, hname, hunread, -, -, -, hpublish, hdrop⟩ := names_are_exact
  have hok : parse "circle:a-1" = .ok (.circle "a-1") := parse_eq_ok.mpr (by decide +kernel)
  have hbad : ¬ Named "circle:4:2" := by
    rw [← hread]
    rintro ⟨t, ht⟩
    have hnone : ofName? "circle:4:2" = none := by decide +kernel
    rw [parse_eq_ok, hnone] at ht
    cases ht
  exact ⟨(hread _).mp ⟨_, hok⟩, hname _ _ hok, hbad, hunread _,
    fun h e => hpublish h _ e _ hok, fun h e => hdrop h _ e hbad⟩

end Switchboard
