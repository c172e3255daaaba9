import Switchboard.Proofs.Fields
import Switchboard.Proofs.Moments
import Switchboard.Proofs.Rendering
import Switchboard.Wire.Envelope

/-!
# Messages come back as sent

What the server writes is read back as the message it wrote, in the version and with the time it was
written. The envelope, the message and its event share one flat object, each with a tag or fields of
its own, so the point is that no name is used twice: each reader takes its members and leaves the
others as they were. A payload may hold anything, these names among it, because it stands one
container deeper. The only message that does not come back is one whose payload is so deep that the
envelope around it is one container too many.
-/

namespace Switchboard.Wire

open Json Time

/-! ## Records -/

/-- A tag that occurs nowhere else is found. -/
theorem lookupOnce_cons_self {α : Type} {tag : String} {value : α} {members : List (String × α)}
    (h : ∀ m ∈ members, m.1 ≠ tag) :
    lookupOnce tag ((tag, value) :: members) = some (some value) := by
  have hrest : members.filter (·.1 = tag) = [] :=
    List.filter_eq_nil_iff.mpr fun m hm => by simpa using h m hm
  rw [lookupOnce, List.filter_cons_of_pos (by simp), hrest]

theorem lookupOnce_cons_ne {α : Type} {name other : String} (h : other ≠ name) (value : α)
    (members : List (String × α)) :
    lookupOnce name ((other, value) :: members) = lookupOnce name members := by
  rw [lookupOnce, List.filter_cons_of_neg (by simpa using h), lookupOnce]

/-- A tag in front that occurs nowhere else is split off. -/
theorem split?_cons_self {tag : String} {value : Value} {members : List (String × Value)}
    (h : ∀ m ∈ members, m.1 ≠ tag) :
    (Fields.named ((tag, value) :: members)).split? tag = some (value, .named members) := by
  have hrest : ((tag, value) :: members).filter (·.1 ≠ tag) = members := by
    rw [List.filter_cons_of_neg (by simp)]
    exact List.filter_eq_self.mpr fun m hm => by simpa using h m hm
  rw [Fields.split?, lookupOnce_cons_self h]
  dsimp only
  rw [hrest]

/-! ## Messages -/

theorem Event.fields_ne (e : Event) : ∀ m ∈ e.fields, m.1 ≠ "eventType" := by
  -- a missing display name has no member, so there are two shapes of these events
  cases e with
  | supporterJoined _ _ name | userOnline _ name =>
    cases name <;> simp [Event.fields, displayMember]
  | _ => simp [Event.fields]

theorem entryOf?_eventKind (k : EventKind) (byPosition : Bool) :
    entryOf? EventKind.all EventKind.name byPosition (.text k.name) = some k := by
  cases k <;> rfl

theorem Event.ofKind?_fields (e : Event) : Event.ofKind? (.named e.fields) e.kind = some e := by
  cases e with
  | supporterJoined _ _ name | userOnline _ name => cases name <;> rfl
  | _ => rfl

theorem Event.ofFields?_members (e : Event) (byPosition : Bool) :
    Event.ofFields? byPosition (.named e.members) = some e := by
  rw [Event.ofFields?, Event.members, split?_cons_self e.fields_ne]
  simp only [entryOf?_eventKind, Option.bind_some, e.ofKind?_fields]

theorem Message.fields_ne (m : Message) :
    ∀ p ∈ m.fields, p.1 ≠ "type" ∧ p.1 ≠ "version" ∧ p.1 ≠ "timestamp" := by
  cases m with
  | event e =>
    cases e with
    | supporterJoined _ _ name | userOnline _ name =>
      cases name <;> simp [Message.fields, Event.members, Event.fields, displayMember]
    | _ => simp [Message.fields, Event.members, Event.fields]
  | _ => simp [Message.fields]

theorem entryOf?_messageKind (k : MessageKind) (byPosition : Bool) :
    entryOf? MessageKind.all MessageKind.name byPosition (.text k.name) = some k := by
  cases k <;> rfl

theorem Message.ofKind?_fields (m : Message) :
    Message.ofKind? (.named m.fields) m.kind = some m := by
  cases m with
  | event e =>
    show (Event.ofFields? true (.named e.members)).map Message.event = _
    rw [e.ofFields?_members]
    rfl
  | subscribed channels =>
    show (textList channels).texts?.map Message.subscribed = _
    rw [texts?_eq_some_iff.mpr rfl]
    rfl
  | unsubscribed channels =>
    show (textList channels).texts?.map Message.unsubscribed = _
    rw [texts?_eq_some_iff.mpr rfl]
    rfl
  | _ => rfl

/-- A message is read back from its members. -/
theorem Message.ofFields?_members (m : Message) (byPosition : Bool) :
    Message.ofFields? byPosition (.named m.members) = some m := by
  rw [Message.ofFields?, Message.members, split?_cons_self fun p hp => (m.fields_ne p hp).1]
  simp only [entryOf?_messageKind, Option.bind_some, m.ofKind?_fields]

theorem Message.members_ne (m : Message) :
    ∀ p ∈ m.members, p.1 ≠ "version" ∧ p.1 ≠ "timestamp" := by
  intro p hp
  rcases List.mem_cons.mp hp with rfl | hp
  · simp
  · exact (m.fields_ne p hp).2

/-! ## Payloads -/

/-- What an event carries that is not its own. -/
def Event.payload? : Event → Option Value
  | newPost _ payload | newResponse _ _ payload | notification _ payload => some payload
  | _ => none

def Message.payload? : Message → Option Value
  | event e => e.payload?
  | _ => none

/-- The payload is a value as a reader makes it, with integers for numbers. -/
def Message.Plain (m : Message) : Prop := ∀ v ∈ m.payload?, v.Plain

/-- How many containers the payload nests. -/
def Message.payloadNesting (m : Message) : Nat :=
  match m.payload? with
  | some v => v.nesting
  | none => 0

theorem plain_textList (texts : List String) : (textList texts).Plain := by
  show PlainItems (texts.map .text)
  induction texts with
  | nil => trivial
  | cons text texts ih => exact ⟨trivial, ih⟩

theorem nesting_textList (texts : List String) : (textList texts).nesting = 1 := by
  have hitems : valueNesting (texts.map .text) = 0 := by
    induction texts with
    | nil => rfl
    | cons text texts ih => rw [List.map_cons, valueNesting, ih]; rfl
  rw [textList, Value.nesting, hitems]

theorem Message.plain_members {m : Message} (h : m.Plain) : PlainMembers m.members := by
  cases m with
  | event e =>
    cases e with
    | newPost | newResponse | notification =>
      simpa [PlainMembers, Value.Plain, Message.members, Message.fields, Event.members,
        Event.fields] using h _ rfl
    | supporterJoined _ _ name | userOnline _ name =>
      cases name <;> simp [PlainMembers, Value.Plain, Message.members, Message.fields,
        Event.members, Event.fields, displayMember]
    | _ =>
      simp [PlainMembers, Value.Plain, Message.members, Message.fields, Event.members, Event.fields]
  | subscribed channels | unsubscribed channels =>
    exact ⟨trivial, plain_textList channels, trivial⟩
  | _ => simp [PlainMembers, Value.Plain, Message.members, Message.fields]

theorem Message.namedNesting_members_le {m : Message} {limit : Nat} (hlimit : 1 ≤ limit) :
    namedNesting m.members ≤ limit ↔ m.payloadNesting ≤ limit := by
  cases m with
  | event e =>
    cases e with
    | supporterJoined _ _ name | userOnline _ name =>
      cases name <;> simp [namedNesting, Value.nesting, Message.members, Message.fields,
        Event.members, Event.fields, displayMember, payloadNesting, payload?, Event.payload?]
    | _ =>
      simp [namedNesting, Value.nesting, Message.members, Message.fields, Event.members,
        Event.fields, payloadNesting, payload?, Event.payload?]
  | subscribed channels | unsubscribed channels =>
    simpa [namedNesting, Value.nesting, Message.members, Message.fields, nesting_textList,
      payloadNesting, payload?] using hlimit
  | _ =>
    simp [namedNesting, Value.nesting, Message.members, Message.fields, payloadNesting, payload?]

namespace Envelope

/-! ## Envelopes -/

variable {e : Envelope} {ts : List (Spelling × Tree)}

theorem lookupOnce_version (e : Envelope) :
    lookupOnce "version" e.members = some (some (.text e.version.name)) := by
  refine lookupOnce_cons_self fun p hp => ?_
  rcases List.mem_cons.mp hp with rfl | hp
  · simp
  · exact (e.message.members_ne p hp).1

theorem lookupOnce_timestamp (e : Envelope) :
    lookupOnce "timestamp" e.members = some (some (.text e.timestamp.toText)) := by
  rw [members, lookupOnce_cons_ne (by decide)]
  exact lookupOnce_cons_self fun p hp => (e.message.members_ne p hp).2

theorem filter_members (e : Envelope) :
    e.members.filter (fun m => m.1 ≠ "version" ∧ m.1 ≠ "timestamp") = e.message.members := by
  rw [members, List.filter_cons_of_neg (by simp), List.filter_cons_of_neg (by simp)]
  exact List.filter_eq_self.mpr fun p hp => by simpa using e.message.members_ne p hp

theorem version?_eq {depth : Nat} (h : members? depth ts = some e.members) :
    version? (.object ts) = .ok e.version.name := by
  have hheader : header? ["version"] (.object ts) = some [some e.version.name] := by
    rw [header?_object h]
    simp [e.lookupOnce_version, optionalText?, Value.textOrNull?]
  rw [version?, hheader]

theorem check_name (v : Version) : Version.check v.name = .ok v := by
  cases v
  rfl

theorem ofName?_name (v : Version) : Version.ofName? v.name = some v := by
  cases v
  rfl

/-- An envelope is read back from its members. -/
theorem ofTree?_eq (h : members? (maxDepth - 1) ts = some e.members)
    (htime : e.timestamp.IsMoment) : ofTree? (.object ts) = some e := by
  have hversion := ofName?_name e.version
  have hmessage := e.message.ofFields?_members true
  rw [ofTree?, Fields.ofTree?, h]
  simp only [Option.map_some, Option.bind_eq_bind, Option.bind_some, lookupOnce_version,
    lookupOnce_timestamp, Value.text?, hversion, Timestamp.ofText?_toText htime, filter_members,
    hmessage]
  rfl

/-- A message is read back from its envelope, unless its payload nests too deep for one. -/
theorem decode_encode {now : Timestamp} {m : Message} (hnow : now.IsMoment) (hm : m.Plain) :
    decode (encode (.wrap now m)) =
      if m.payloadNesting ≤ 126 then .ok ⟨.v1, now, m⟩ else .error .malformed := by
  have hplain : PlainMembers (wrap now m).members := ⟨trivial, trivial, m.plain_members hm⟩
  obtain ⟨ts, hwritten, hnesting, hvalues⟩ := exists_echo_members _ hplain
  have htree : Tree.ofText? (encode (.wrap now m)) = some (.object ts) := by
    rw [Tree.ofText?, encode, String.toList_ofList, Tree.ofChars?_eq_some_iff]
    exact .fixed (l := ['\x7b']) rfl (hwritten.append (.single (.fixed rfl)))
  have hdeep : namedNesting (wrap now m).members ≤ 126 ↔ m.payloadNesting ≤ 126 := by
    rw [← m.namedNesting_members_le (by decide)]
    simp [wrap, members, namedNesting, Value.nesting]
  rw [decode, htree]
  dsimp only
  -- the header is found at any depth; only what is read after it counts containers
  rw [version?_eq (hvalues _ le_rfl)]
  dsimp only
  rw [check_name]
  split_ifs with hle
  · rw [ofTree?_eq (hvalues _ (hdeep.mpr hle)) hnow]
    rfl
  · have hnone : members? (maxDepth - 1) ts = none := by
      rw [← Option.not_isSome_iff_eq_none, members?_isSome_iff, hnesting]
      exact fun h => hle (hdeep.mp h.2)
    rw [ofTree?, Fields.ofTree?, hnone]
    rfl

/-- A number in as many objects, each with a name that the envelope uses too. -/
def nested : Nat → Value
  | 0 => .number (.int (-1))
  | count + 1 => .object [("type", nested count)]

theorem plain_nested (count : Nat) : (nested count).Plain := by
  induction count with
  | zero => exact ⟨by decide, by decide⟩
  | succ count ih => exact ⟨List.pairwise_singleton _ _, ih, trivial⟩

theorem nesting_nested (count : Nat) : (nested count).nesting = count := by
  induction count with
  | zero => rfl
  | succ count ih => rw [nested, Value.nesting, namedNesting, namedNesting, ih, Nat.max_zero]

/-- A leap second, when some payloads are sent. -/
def leapSecond : Timestamp := ⟨⟨2016, 12, 31⟩, 23, 59, 60, 500⟩

theorem isMoment_leapSecond : leapSecond.IsMoment := ⟨by decide, by decide⟩

theorem decode_encode_nested :
    decode (encode (.wrap leapSecond (.event (.notification "ann" (nested 126))))) =
        .ok ⟨.v1, leapSecond, .event (.notification "ann" (nested 126))⟩ ∧
      decode (encode (.wrap leapSecond (.event (.notification "ann" (nested 127))))) =
        .error .malformed := by
  have hplain : ∀ count, (Message.event (.notification "ann" (nested count))).Plain := by
    rintro count _ ⟨⟩
    exact plain_nested count
  constructor
  · rw [decode_encode isMoment_leapSecond (hplain 126), if_pos]
    exact Nat.le_of_eq (nesting_nested 126)
  · rw [decode_encode isMoment_leapSecond (hplain 127), if_neg]
    exact Nat.not_le.mpr (Nat.lt_of_lt_of_eq (by decide) (nesting_nested 127).symm)

end Envelope

end Switchboard.Wire
