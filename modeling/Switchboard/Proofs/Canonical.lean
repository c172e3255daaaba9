import Switchboard.Proofs.Commands
import Switchboard.Proofs.RoundTrip

/-!
# Reading and writing again

Many texts say one thing: members in any order and among others, escapes, repeated names inside a
payload, timestamps with offsets and fractions of any length. What a reader makes of them has lost
all that. Its objects are in order, its times are moments of universal time and it nests no deeper
than a text may, so it is written in one way, and that text is read as the same again. Only doubles
are left aside, whose decimals are a matter of their own.
-/

namespace Switchboard.Json

/-! ## Objects in order -/

theorem mem_setMember {α : Type} {name : String} {value : α} {members : List (String × α)}
    {m : String × α} (h : m ∈ setMember name value members) : m = (name, value) ∨ m ∈ members := by
  induction members with
  | nil => exact .inl (List.mem_singleton.mp h)
  | cons p members ih =>
    rw [setMember] at h
    split_ifs at h
    · exact List.mem_cons.mp h
    · rcases List.mem_cons.mp h with h | h
      · exact .inl h
      · exact .inr (List.mem_cons_of_mem _ h)
    · rcases List.mem_cons.mp h with h | h
      · exact .inr (h ▸ List.mem_cons_self)
      · exact (ih h).imp_right (List.mem_cons_of_mem _)

theorem setMember_ascending {α : Type} {name : String} {value : α} {members : List (String × α)}
    (h : (members.map (·.1)).Pairwise (· < ·)) :
    ((setMember name value members).map (·.1)).Pairwise (· < ·) := by
  induction members with
  | nil => exact List.pairwise_singleton _ _
  | cons p members ih =>
    rw [List.map_cons, List.pairwise_cons] at h
    obtain ⟨hp, hmembers⟩ := h
    rw [setMember]
    split_ifs with hbefore hsame
    · rw [List.map_cons, List.map_cons, List.pairwise_cons]
      refine ⟨?_, List.pairwise_cons.mpr ⟨hp, hmembers⟩⟩
      intro other hother
      rcases List.mem_cons.mp hother with rfl | hother
      · exact hbefore
      · exact lt_trans hbefore (hp other hother)
    · rw [List.map_cons, List.pairwise_cons]
      exact ⟨hsame ▸ hp, hmembers⟩
    · rw [List.map_cons, List.pairwise_cons]
      refine ⟨?_, ih hmembers⟩
      intro other hother
      obtain ⟨m, hm, rfl⟩ := List.mem_map.mp hother
      rcases mem_setMember hm with rfl | hm
      · exact lt_of_le_of_ne (not_lt.mp hbefore) (Ne.symm hsame)
      · exact hp m.1 (List.mem_map_of_mem hm)

/-- Sorting gives names that ascend, and no member that was not there. -/
theorem sortMembers_spec {α : Type} (members : List (String × α)) :
    ((sortMembers members).map (·.1)).Pairwise (· < ·) ∧
      ∀ m ∈ sortMembers members, m ∈ members := by
  have hfold : ∀ rest sorted : List (String × α), (sorted.map (·.1)).Pairwise (· < ·) →
      ((rest.foldl (fun sorted m => setMember m.1 m.2 sorted) sorted).map (·.1)).Pairwise (· < ·) ∧
        ∀ m ∈ rest.foldl (fun sorted m => setMember m.1 m.2 sorted) sorted,
          m ∈ sorted ∨ m ∈ rest := by
    intro rest
    induction rest with
    | nil => exact fun sorted h => ⟨h, fun m hm => .inl hm⟩
    | cons p rest ih =>
      intro sorted h
      obtain ⟨hascending, hmem⟩ := ih (setMember p.1 p.2 sorted) (setMember_ascending h)
      refine ⟨hascending, fun m hm => ?_⟩
      rcases hmem m hm with hm | hm
      · rcases mem_setMember hm with rfl | hm
        · exact .inr List.mem_cons_self
        · exact .inl hm
      · exact .inr (List.mem_cons_of_mem _ hm)
  obtain ⟨hascending, hmem⟩ := hfold members [] List.Pairwise.nil
  exact ⟨hascending, fun m hm => (hmem m hm).resolve_left List.not_mem_nil⟩

/-! ## Integers -/

/-- A numeral without a point or a power of ten that fits in 64 bits, with a sign or without. -/
def Numeral.IsInteger (n : Numeral) : Prop :=
  n.fraction = [] ∧ n.exponent = none ∧
    if n.negative then natOfDigits n.whole ≤ 2 ^ 63 else natOfDigits n.whole < 2 ^ 64

/-- A token that is no number, or an integer. -/
def Token.Integral : Token → Prop
  | .number n => n.IsInteger
  | _ => True

/-- All the numbers in a tree are integers. -/
def Tree.Integral (t : Tree) : Prop := ∀ a ∈ t.tokens, a.Integral

instance (n : Numeral) : Decidable n.IsInteger :=
  inferInstanceAs (Decidable (_ ∧ _ ∧ ite _ _ _))

instance (a : Token) : Decidable a.Integral :=
  match a with
  | .number n => inferInstanceAs (Decidable n.IsInteger)
  | .openArray | .closeArray | .openObject | .closeObject | .comma | .colon | .null | .bool _
  | .text _ => isTrue trivial

instance (t : Tree) : Decidable t.Integral :=
  inferInstanceAs (Decidable (∀ a ∈ t.tokens, a.Integral))

theorem gather_zero {ds : List Digit} (h : natOfDigits ds = 0) :
    gather 0 ds = (0, ds.length, 0) := by
  induction ds with
  | nil => rfl
  | cons d ds ih =>
    rw [natOfDigits_cons] at h
    obtain ⟨hd, hds⟩ := Nat.add_eq_zero_iff.mp h
    have hzero : d.val = 0 :=
      (Nat.mul_eq_zero.mp hd).resolve_right (Nat.pow_pos (by decide)).ne'
    rw [gather, hzero, ih hds]
    rfl

/-- A zero with a sign is a double of its own. -/
theorem Numeral.number?_negative_zero {n : Numeral} (hn : n.IsInteger) (hnegative : n.negative)
    (hzero : natOfDigits n.whole = 0) : n.number? = some (.real (Decimal.Double.zero true)) := by
  obtain ⟨hfraction, hexponent, -⟩ := hn
  have hint : n.int? = none := by
    simp [int?, hfraction, hexponent, hnegative, hzero]
  have hdouble : n.double? = some (Decimal.Double.zero true) := by
    rw [double?, gather_zero hzero, hfraction, hnegative]
    simp [gather, Decimal.Double.ofDecimal, Decimal.Double.nearest, Decimal.Double.shift,
      Decimal.Double.zero]
  rw [number?, hint, hdouble]
  rfl

theorem Number.returns_negative_zero : (Number.real (Decimal.Double.zero true)).Returns := by
  -- it is written with a point, and digits behind it
  refine ⟨⟨true, [0], [0], none⟩, ?_, ?_⟩
  · exact .mk (n := ⟨true, [0], [0], none⟩) ⟨by decide, fun _ => rfl⟩ .absent
  · decide +kernel

/-- What an integer stands for comes back. -/
theorem Numeral.IsInteger.returns {n : Numeral} (hn : n.IsInteger) {v : Number}
    (h : n.number? = some v) : v.Returns := by
  by_cases hzero : n.negative ∧ natOfDigits n.whole = 0
  · rw [number?_negative_zero hn hzero.1 hzero.2] at h
    obtain rfl := Option.some.inj h
    exact Number.returns_negative_zero
  · obtain ⟨hfraction, hexponent, hsize⟩ := hn
    have hint : ∃ i, n.int? = some i ∧ (Number.int i).Fits := by
      have hsigned : Nat.pow 2 63 = 9223372036854775808 := by decide
      have hunsigned : wordLimit = 18446744073709551616 := by decide
      by_cases hnegative : n.negative
      · rw [if_pos hnegative] at hsize
        have hpositive : natOfDigits n.whole ≠ 0 := fun h => hzero ⟨hnegative, h⟩
        have hbound : 1 ≤ natOfDigits n.whole ∧ natOfDigits n.whole ≤ Nat.pow 2 63 := by omega
        refine ⟨-(natOfDigits n.whole : Int), ?_, ?_⟩
        · simp [int?, hfraction, hexponent, hnegative, hbound]
        · unfold Number.Fits
          omega
      · rw [if_neg hnegative] at hsize
        have hbound : natOfDigits n.whole < wordLimit := by omega
        refine ⟨natOfDigits n.whole, ?_, ?_⟩
        · simp [int?, hfraction, hexponent, hnegative, hbound]
        · unfold Number.Fits
          omega
    obtain ⟨i, hi, hfits⟩ := hint
    rw [number?, hi] at h
    obtain rfl := Option.some.inj h
    exact Number.returns_of_fits hfits

/-! ## Values that were read -/

theorem membersReturn_iff {ms : List (String × Value)} :
    MembersReturn ms ↔ ∀ m ∈ ms, m.2.Returns := by
  induction ms with
  | nil => simp [MembersReturn]
  | cons m ms ih => rw [MembersReturn, ih, List.forall_mem_cons]

theorem namedNesting_le_iff {ms : List (String × Value)} {depth : Nat} :
    namedNesting ms ≤ depth ↔ ∀ m ∈ ms, m.2.nesting ≤ depth := by
  induction ms with
  | nil => simp [namedNesting]
  | cons m ms ih => rw [namedNesting, Nat.max_le, ih, List.forall_mem_cons]

/-- A value that comes back, and nests no deeper than allowed. -/
structure Value.ReturnsIn (v : Value) (depth : Nat) : Prop where
  returns : v.Returns
  nesting : v.nesting ≤ depth

mutual

/-- What is read of a tree with integers comes back. -/
theorem Tree.returnsIn_of_value? (t : Tree) (depth : Nat) {v : Value} (ht : t.Integral)
    (h : t.value? depth = some v) : v.ReturnsIn depth := by
  match t, depth with
  | .null, _ | .bool _, _ =>
    obtain rfl := Option.some.inj h
    exact ⟨trivial, Nat.zero_le _⟩
  | .number n, _ =>
    obtain ⟨m, hm, rfl⟩ := Option.map_eq_some_iff.mp h
    have hn : n.IsInteger := ht (.number n) (List.mem_singleton_self _)
    exact ⟨hn.returns hm, Nat.zero_le _⟩
  | .text s, _ =>
    obtain ⟨_, -, rfl⟩ := Option.map_eq_some_iff.mp h
    exact ⟨trivial, Nat.zero_le _⟩
  | .array _, 0 | .object _, 0 => simp [Tree.value?] at h
  | .array items, depth + 1 =>
    obtain ⟨vs, hvs, rfl⟩ := Option.map_eq_some_iff.mp h
    have hitems : ∀ a ∈ itemTokens items, a.Integral := by
      intro a ha
      exact ht a (by simp [Tree.tokens, ha])
    obtain ⟨hreturns, hnesting⟩ := returnsIn_of_values? items depth hitems hvs
    exact ⟨hreturns, Nat.succ_le_succ hnesting⟩
  | .object members, depth + 1 =>
    obtain ⟨ms, hms, rfl⟩ := Option.map_eq_some_iff.mp h
    have hmembers : ∀ a ∈ memberTokens members, a.Integral := by
      intro a ha
      exact ht a (by simp [Tree.tokens, ha])
    have hreturnsIn := returnsIn_of_members? members depth hmembers hms
    obtain ⟨hascending, hmem⟩ := sortMembers_spec ms
    refine ⟨⟨hascending, membersReturn_iff.mpr ?_⟩, Nat.succ_le_succ (namedNesting_le_iff.mpr ?_)⟩
    · exact fun m hm => (hreturnsIn m (hmem m hm)).returns
    · exact fun m hm => (hreturnsIn m (hmem m hm)).nesting

theorem returnsIn_of_values? (items : List Tree) (depth : Nat) {vs : List Value}
    (ht : ∀ a ∈ itemTokens items, a.Integral) (h : values? depth items = some vs) :
    ItemsReturn vs ∧ valueNesting vs ≤ depth := by
  match items with
  | [] =>
    obtain rfl := Option.some.inj h
    exact ⟨trivial, Nat.zero_le _⟩
  | t :: items =>
    rw [forall_mem_itemTokens_cons trivial] at ht
    rw [values?_eq_some_iff] at h
    obtain ⟨v, vs, hv, hvs, rfl⟩ := List.forall₂_cons_left_iff.mp h
    have hfirst := t.returnsIn_of_value? depth ht.1 hv
    obtain ⟨hreturns, hnesting⟩ :=
      returnsIn_of_values? items depth ht.2 (values?_eq_some_iff.mpr hvs)
    exact ⟨⟨hfirst.returns, hreturns⟩, Nat.max_le.mpr ⟨hfirst.nesting, hnesting⟩⟩

theorem returnsIn_of_members? (members : List (Spelling × Tree)) (depth : Nat)
    {ms : List (String × Value)} (ht : ∀ a ∈ memberTokens members, a.Integral)
    (h : members? depth members = some ms) : ∀ m ∈ ms, m.2.ReturnsIn depth := by
  match members with
  | [] =>
    obtain rfl := Option.some.inj h
    exact fun m hm => absurd hm List.not_mem_nil
  | (name, t) :: members =>
    rw [forall_mem_memberTokens_cons trivial trivial] at ht
    rw [members?_eq_some_iff] at h
    obtain ⟨m, ms, hm, hms, rfl⟩ := List.forall₂_cons_left_iff.mp h
    refine List.forall_mem_cons.mpr ⟨t.returnsIn_of_value? depth ht.2.1 hm.2, ?_⟩
    exact returnsIn_of_members? members depth ht.2.2 (members?_eq_some_iff.mpr hms)

end

end Switchboard.Json

namespace Switchboard.Wire

open Json Time

/-! ## Payloads that were read -/

/-- The member that holds an event's payload. -/
def Event.payloadName? : Event → Option String
  | newPost .. => some "post"
  | newResponse .. => some "response"
  | notification .. => some "notification"
  | _ => none

def Message.payloadName? : Message → Option String
  | event e => e.payloadName?
  | _ => none

/-- The tree is that of the message's payload in the tree of its envelope. -/
def Carries (t : Tree) (m : Message) (payload : Tree) : Prop :=
  ∃ members, t = .object members ∧ ∃ name ∈ m.payloadName?, payload ∈ named name members

theorem mem_of_lookupOnce {α : Type} {name : String} {members : List (String × α)} {value : α}
    (h : lookupOnce name members = some (some value)) : (name, value) ∈ members := by
  rw [lookupOnce_eq, only_eq_singleton_iff] at h
  have hvalue : value ∈ (members.filter (·.1 = name)).map (·.2) := h ▸ List.mem_singleton_self _
  obtain ⟨m, hm, rfl⟩ := List.mem_map.mp hvalue
  obtain ⟨hmem, hname⟩ := List.mem_filter.mp hm
  obtain rfl : m.1 = name := by simpa using hname
  exact hmem

/-- The value of a member is that of a tree with its name. -/
theorem exists_named {depth : Nat} {trees : List (Spelling × Tree)} {vs : List (String × Value)}
    (h : members? depth trees = some vs) {name : String} {v : Value} (hv : (name, v) ∈ vs) :
    ∃ t ∈ named name trees, t.value? depth = some v := by
  have hvalue : v ∈ (vs.filter (·.1 = name)).map (·.2) :=
    List.mem_map.mpr ⟨_, List.mem_filter.mpr ⟨hv, by simp⟩, rfl⟩
  have hsome := List.mem_map_of_mem (f := some) hvalue
  rw [← map_value?_named h] at hsome
  exact List.mem_map.mp hsome

/-- What is taken under a name is a member. -/
theorem mem_of_take? {names : List String} {members : List (String × Value)}
    {values : List (Option Value)} (h : (Fields.named members).take? names = some values)
    {name : String} {v : Value} (hv : (name, some v) ∈ names.zip values) : (name, v) ∈ members := by
  rw [Fields.take?, mapM_eq_some_iff, List.forall₂_iff_zip] at h
  exact mem_of_lookupOnce (h.2 hv)

/-- The rest of a record is part of it. -/
theorem mem_of_split? {tag : String} {members : List (String × Value)} {v : Value} {rest : Fields}
    (h : (Fields.named members).split? tag = some (v, rest)) :
    ∃ others, rest = .named others ∧ ∀ m ∈ others, m ∈ members := by
  rw [Fields.split?] at h
  split at h
  · obtain ⟨-, rfl⟩ := Prod.mk.inj (Option.some.inj h)
    exact ⟨_, rfl, fun m hm => List.mem_of_mem_filter hm⟩
  · cases h

section Payload

variable {members : List (String × Value)}

theorem Event.payload_mem_of_ofKind? {k : EventKind} {e : Event}
    (h : Event.ofKind? (.named members) k = some e) :
    ∀ v ∈ e.payload?, ∃ name ∈ e.payloadName?, (name, v) ∈ members := by
  cases k with
  | newPost | newResponse | notification =>
    simp only [Event.ofKind?] at h
    split at h
    · rename_i htake
      obtain rfl := Option.some.inj h
      rintro v ⟨⟩
      exact ⟨_, rfl, mem_of_take? htake (by simp)⟩
    · cases h
  | supporterJoined | userOnline =>
    simp only [Event.ofKind?] at h
    split at h
    · obtain ⟨_, -, rfl⟩ := Option.map_eq_some_iff.mp h
      rintro v ⟨⟩
    · cases h
  | postDeleted | userOffline =>
    simp only [Event.ofKind?] at h
    split at h
    · obtain rfl := Option.some.inj h
      rintro v ⟨⟩
    · cases h

theorem Event.payload_mem {byPosition : Bool} {e : Event}
    (h : Event.ofFields? byPosition (.named members) = some e) :
    ∀ v ∈ e.payload?, ∃ name ∈ e.payloadName?, (name, v) ∈ members := by
  unfold Event.ofFields? at h
  split at h
  · cases h
  · rename_i hsplit
    obtain ⟨others, rfl, hothers⟩ := mem_of_split? hsplit
    obtain ⟨_, -, hkind⟩ := Option.bind_eq_some_iff.mp h
    intro v hv
    obtain ⟨name, hname, hmem⟩ := Event.payload_mem_of_ofKind? hkind v hv
    exact ⟨name, hname, hothers _ hmem⟩

theorem Message.payload_mem_of_ofKind? {k : MessageKind} {m : Message}
    (h : Message.ofKind? (.named members) k = some m) :
    ∀ v ∈ m.payload?, ∃ name ∈ m.payloadName?, (name, v) ∈ members := by
  cases k with
  | event =>
    obtain ⟨e, he, rfl⟩ := Option.map_eq_some_iff.mp h
    exact Event.payload_mem he
  | subscribed | unsubscribed =>
    simp only [Message.ofKind?] at h
    split at h
    · obtain ⟨_, -, rfl⟩ := Option.map_eq_some_iff.mp h
      rintro v ⟨⟩
    · cases h
  | authOk | authError | subscribeRejected | error =>
    simp only [Message.ofKind?] at h
    split at h
    · obtain rfl := Option.some.inj h
      rintro v ⟨⟩
    · cases h

/-- The payload of a message is the value of its member. -/
theorem Message.payload_mem {byPosition : Bool} {m : Message}
    (h : Message.ofFields? byPosition (.named members) = some m) :
    ∀ v ∈ m.payload?, ∃ name ∈ m.payloadName?, (name, v) ∈ members := by
  unfold Message.ofFields? at h
  split at h
  · cases h
  · rename_i hsplit
    obtain ⟨others, rfl, hothers⟩ := mem_of_split? hsplit
    obtain ⟨_, -, hkind⟩ := Option.bind_eq_some_iff.mp h
    intro v hv
    obtain ⟨name, hname, hmem⟩ := Message.payload_mem_of_ofKind? hkind v hv
    exact ⟨name, hname, hothers _ hmem⟩

end Payload

/-- A member of a message is a text, a list of texts or the payload. -/
theorem Message.members_forms (m : Message) : ∀ p ∈ m.members,
    (∃ text, p.2 = .text text) ∨ (∃ texts, p.2 = textList texts) ∨ p.2 ∈ m.payload? := by
  cases m with
  | event e =>
    cases e with
    | supporterJoined _ _ name | userOnline _ name =>
      cases name <;> simp [members, fields, Event.members, Event.fields, displayMember]
    | _ =>
      simp [members, fields, Event.members, Event.fields, payload?, Event.payload?]
  | _ => simp [members, fields]

theorem membersReturn_of_payload {m : Message} (h : ∀ v ∈ m.payload?, v.Returns) :
    MembersReturn m.members := by
  rw [membersReturn_iff]
  intro p hp
  rcases m.members_forms p hp with ⟨text, htext⟩ | ⟨texts, htexts⟩ | hpayload
  · rw [htext]
    trivial
  · rw [htexts]
    exact Value.returns_of_plain _ (plain_textList texts)
  · exact h _ hpayload

namespace Envelope

/-! ## Envelopes -/

/-- A sound envelope: a moment, and a payload that comes back and fits into an envelope. -/
structure Sound (e : Envelope) : Prop where
  moment : e.timestamp.IsMoment
  payload : ∀ v ∈ e.message.payload?, v.ReturnsIn (maxDepth - 1)

/-- A sound envelope is read back from what it is written as. -/
theorem Sound.reads_back {e : Envelope} (h : e.Sound) : decode (encode e) = .ok e := by
  have hreturn : MembersReturn e.members :=
    ⟨trivial, trivial, membersReturn_of_payload fun v hv => (h.payload v hv).returns⟩
  obtain ⟨ts, hwritten, -, hvalues⟩ := exists_echo_named _ hreturn
  have htree : Tree.ofText? (encode e) = some (.object ts) := by
    rw [Tree.ofText?, encode, String.toList_ofList, Tree.ofChars?_eq_some_iff]
    exact .fixed (l := ['\x7b']) rfl (hwritten.append (.single (.fixed rfl)))
  have hpayload : e.message.payloadNesting ≤ maxDepth - 1 := by
    unfold Message.payloadNesting
    split
    · rename_i v hv
      exact (h.payload v hv).nesting
    · exact Nat.zero_le _
  have hnesting : namedNesting e.members ≤ maxDepth - 1 := by
    rw [← e.message.namedNesting_members_le (by decide)] at hpayload
    simpa [members, namedNesting, Value.nesting] using hpayload
  have hmembers := hvalues _ hnesting
  rw [decode, htree]
  dsimp only
  rw [version?_eq hmembers]
  dsimp only
  rw [check_name]
  dsimp only
  rw [ofTree?_eq hmembers h.moment]

/-- What is read from a text is found in its tree. -/
theorem ofTree?_of_decode {text : String} {t : Tree} {e : Envelope}
    (ht : t.Written text.toList) (h : decode text = .ok e) : ofTree? t = some e := by
  rw [decode, Tree.ofText?, Tree.ofChars?_eq_some_iff.mpr ht] at h
  dsimp only at h
  split at h
  · cases h
  split at h
  · cases h
  split at h
  · cases h
  · rename_i htree
    rw [htree, Except.ok.inj h]

/-- An envelope that was read is sound if the numbers in its payload are integers. -/
theorem sound_of_ofTree? {t : Tree} {e : Envelope} (h : ofTree? t = some e)
    (hintegers : ∀ payload, Carries t e.message payload → payload.Integral) : e.Sound := by
  unfold ofTree? at h
  split at h
  · rename_i members hfields
    simp only [Option.bind_eq_bind, Option.bind_eq_some_iff, Option.pure_def,
      Option.some.injEq] at h
    obtain ⟨_, -, _, -, _, -, _, -, _, -, _, -, _, -, _, htime, m, hm, rfl⟩ := h
    refine ⟨Timestamp.isMoment_of_ofText? htime, fun v hv => ?_⟩
    obtain ⟨name, hname, hmem⟩ := Message.payload_mem hm v hv
    cases t with
    | object trees =>
      obtain ⟨vs, hvs, hnamed⟩ := Option.map_eq_some_iff.mp hfields
      obtain rfl := Fields.named.inj hnamed
      obtain ⟨payload, hpayload, hvalue⟩ := exists_named hvs (List.mem_of_mem_filter hmem)
      have hcarries : Carries (.object trees) m payload := ⟨trees, rfl, name, hname, hpayload⟩
      exact payload.returnsIn_of_value? _ (hintegers payload hcarries) hvalue
    | array items =>
      obtain ⟨_, -, hlisted⟩ := Option.map_eq_some_iff.mp hfields
      cases hlisted
    | _ => cases hfields
  · cases h

/--
Writing what was read gives a normal form. Whatever text is accepted, with integers for the numbers
in its payload, the text its envelope is written as is read as the same envelope, and so written as
itself again; and no other envelope is written as it.
-/
theorem decode_encode_of_decode {text : String} {t : Tree} {e : Envelope}
    (ht : t.Written text.toList) (h : decode text = .ok e)
    (hintegers : ∀ payload, Carries t e.message payload → payload.Integral) :
    decode (encode e) = .ok e ∧ (decode (encode e)).map encode = .ok (encode e) ∧
      ∀ text' t' e', t'.Written text'.toList → decode text' = .ok e' →
        (∀ payload, Carries t' e'.message payload → payload.Integral) →
        (encode e' = encode e ↔ e' = e) := by
  have hback := (sound_of_ofTree? (ofTree?_of_decode ht h) hintegers).reads_back
  refine ⟨hback, by rw [hback]; rfl, ?_⟩
  intro text' t' e' ht' h' hintegers'
  have hback' := (sound_of_ofTree? (ofTree?_of_decode ht' h') hintegers').reads_back
  constructor
  · intro hsame
    rw [hsame] at hback'
    exact Except.ok.inj (hback'.symm.trans hback)
  · exact congrArg encode

namespace Loose

open ControlFrame.Rewriting (plain digitsIn)

/-- A post with members out of order and one of no meaning, an escape, a name given twice, a zero
with a sign, the largest integer, and a leap second at an offset with a fraction that is too
long. -/
def loose : String :=
  "\x7b\"x\":1e5,\"post\":\x7b\"b\":1,\"\\u0061\":-0,\"b\":18446744073709551615\x7d," ++
    "\"timestamp\":\"+10000-01-01t00:15:60.1234567891+00:30\",\"eventType\":\"new_post\"," ++
    "\"postId\":\"p\",\"type\":\"event\",\"version\":\"v1\"\x7d"

def whole (negative : Bool) (digits : String) : Numeral := ⟨negative, digitsIn digits, [], none⟩

def payloadTree : Tree :=
  .object [(plain "b", .number (whole false "1")), ([.escaped 'a'], .number (whole true "0")),
    (plain "b", .number (whole false "18446744073709551615"))]

def looseTree : Tree :=
  .object [(plain "x", .number ⟨false, digitsIn "1", [], some (.ofNat 5)⟩),
    (plain "post", payloadTree),
    (plain "timestamp", .text (plain "+10000-01-01t00:15:60.1234567891+00:30")),
    (plain "eventType", .text (plain "new_post")), (plain "postId", .text (plain "p")),
    (plain "type", .text (plain "event")), (plain "version", .text (plain "v1"))]

set_option maxRecDepth 4000 in
theorem written_loose : looseTree.Written loose.toList := by
  repeat refine .of_read rfl ?_
  exact .nil

def post : Value :=
  .object [("a", .number (.real (Decimal.Double.zero true))),
    ("b", .number (.int 18446744073709551615))]

/-- What the post is read as. -/
def envelope : Envelope :=
  ⟨.v1, ⟨⟨9999, 12, 31⟩, 23, 45, 60, 123456789⟩, .event (.newPost "p" post)⟩

theorem ofTree?_looseTree : ofTree? looseTree = some envelope := by with_unfolding_all rfl

end Loose

open Loose in
theorem decode_encode_of_decode_loose :
    decode loose = .ok envelope ∧ decode (encode envelope) = .ok envelope ∧
      encode envelope =
        "\x7b\"version\":\"v1\",\"timestamp\":\"9999-12-31T23:45:60.123456789Z\"," ++
          "\"type\":\"event\",\"eventType\":\"new_post\",\"postId\":\"p\"," ++
          "\"post\":\x7b\"a\":-0.0,\"b\":18446744073709551615\x7d\x7d" := by
  have hdecode : decode loose = .ok envelope := by
    have hversion : version? looseTree = .ok "v1" := rfl
    have hcheck : Version.check "v1" = .ok .v1 := rfl
    rw [decode, Tree.ofText?, Tree.ofChars?_eq_some_iff.mpr written_loose]
    simp only [hversion, hcheck, ofTree?_looseTree]
  have hintegers : ∀ payload, Carries looseTree envelope.message payload → payload.Integral := by
    intro payload hcarries
    obtain ⟨members, hmembers, name, ⟨⟩, hpayload⟩ := hcarries
    obtain rfl := Tree.object.inj hmembers
    obtain rfl : payload = payloadTree := List.mem_singleton.mp hpayload
    decide
  refine ⟨hdecode, (decode_encode_of_decode written_loose hdecode hintegers).1, ?_⟩
  decide +kernel

end Envelope

end Switchboard.Wire
