import Switchboard.Proofs.Fields
import Switchboard.Proofs.Magnitude
import Switchboard.Wire.Control

/-!
# What a client may say

The grammar of control frames, and a proof that the reader accepts exactly it. A frame is read
twice: a header pass looks for the type and the version and passes over everything else, and a
second pass understands all of the text. On a strict text both passes see the same thing, the
values of the members by name; so acceptance and the frame that is read depend on four names only,
and on nothing else about how the text is written.
-/

namespace Switchboard.Wire.ControlFrame

open Json

/-- The members hold what a frame carries besides its type. -/
def Carried (members : List (Spelling × Tree)) : ControlFrame → Prop
  | auth token => ∃ t, named "token" members = [t] ∧ Says t token
  | subscribe channels | unsubscribe channels =>
    ∃ items, named "channels" members = [.array items] ∧ List.Forall₂ Says items channels ∧
      1 ≤ channels.length ∧ channels.length ≤ 32

/-- The members of an object that is a frame; the others may be anything. -/
structure Object (members : List (Spelling × Tree)) (f : ControlFrame) : Prop where
  type : ∃ t, named "type" members = [t] ∧ Says t f.type.name
  version : named "version" members = [] ∨
    ∃ t, named "version" members = [t] ∧ (t = .null ∨ Says t "v1")
  carried : f.Carried members

/-- The trees that are frames. -/
inductive Grammar : Tree → ControlFrame → Prop
  | object {members : List (Spelling × Tree)} {f : ControlFrame} : f.Object members →
      Grammar (.object members) f
  /-- Of the positional spellings only one is a frame: its second item is version and token. -/
  | array {type version : Tree} : Says type "auth" → Says version "v1" →
      Grammar (.array [type, version]) (.auth "v1")

/-- The names that a frame is known by. -/
def knownNames : List String := ["type", "version", "token", "channels"]

/--
Two trees say the same to a reader of frames: they are objects whose members of the known names have
the same values, or they have one value that is no object.
-/
inductive Alike : Tree → Tree → Prop
  | object {members members' : List (Spelling × Tree)} :
      (∀ name ∈ knownNames, ((named name members).map (Tree.value? (maxDepth - 1))).Perm
        ((named name members').map (Tree.value? (maxDepth - 1)))) →
      Alike (.object members) (.object members')
  | value {t t' : Tree} {v : Value} : (∀ members, v ≠ .object members) →
      t.value? maxDepth = some v → t'.value? maxDepth = some v → Alike t t'

/-! ## The steps of the reader -/

/-- A frame is read when every step of reading it succeeds. -/
theorem decode_eq_ok_iff_steps {text : String} {f : ControlFrame} :
    decode text = .ok f ↔ ∃ t type version, Tree.ofText? text = some t ∧
      header? t = some (type, version) ∧ checkVersion version = .ok () ∧
      checkType type = .ok () ∧ ofTree? t = some f ∧ f.check = .ok () := by
  constructor
  · intro h
    unfold decode at h
    split at h
    · rename_i t htext
      split at h
      · rename_i type version hheader
        obtain ⟨⟨⟩, hversion, h⟩ := bind_eq_ok_iff.mp h
        obtain ⟨⟨⟩, htype, h⟩ := bind_eq_ok_iff.mp h
        split at h
        · rename_i g htree
          obtain ⟨⟨⟩, hcheck, h⟩ := bind_eq_ok_iff.mp h
          obtain rfl := Except.ok.inj h
          exact ⟨t, type, version, htext, hheader, hversion, htype, htree, hcheck⟩
        · cases h
      · cases h
    · cases h
  · rintro ⟨t, type, version, htext, hheader, hversion, htype, htree, hcheck⟩
    simp only [decode, htext, hheader, htree]
    exact bind_eq_ok_iff.mpr ⟨(), hversion, bind_eq_ok_iff.mpr ⟨(), htype,
      bind_eq_ok_iff.mpr ⟨(), hcheck, rfl⟩⟩⟩

theorem checkVersion_eq_ok_iff {version : Option String} :
    checkVersion version = .ok () ↔ version = none ∨ version = some "v1" := by
  cases version with
  | none => simp [checkVersion]
  | some name =>
    by_cases h : "v1" = name
    · simp [checkVersion, Version.check, Version.ofName?, Version.supported, Version.name, h]
    · simp [checkVersion, Version.check, Version.ofName?, Version.supported, Version.name, h,
        Ne.symm h]

theorem checkType_name (k : ControlType) : checkType (some k.name) = .ok () := by
  cases k <;> rfl

theorem checkChannels_eq_ok_iff {channels : List String} :
    checkChannels channels = .ok () ↔ 1 ≤ channels.length ∧ channels.length ≤ 32 := by
  unfold checkChannels maxChannels
  split
  · rename_i h
    simp [h]
  · rename_i h
    have hpos := List.length_pos_iff.mpr h
    split <;> simp <;> omega

/-! ## What a frame carries -/

/-- The name and the value of what a frame carries besides its type. -/
def field : ControlFrame → String × Value
  | auth token => ("token", .text token)
  | subscribe channels | unsubscribe channels => ("channels", textList channels)

theorem field_ne_type (f : ControlFrame) : f.field.1 ≠ "type" := by
  cases f <;> simp [field]

theorem ofType?_eq_some_iff {fields : Fields} {k : ControlType} {f : ControlFrame} :
    ofType? fields k = some f ↔
      f.type = k ∧ fields.take? [f.field.1] = some [some f.field.2] := by
  cases k with
  | auth =>
    simp only [ofType?]
    split
    · rename_i token htoken
      cases f <;> simp [type, field, htoken]
    · rename_i hno
      cases f <;> simp [type, field]
      exact hno _
  | subscribe | unsubscribe =>
    simp only [ofType?]
    split
    · rename_i v hv
      cases f <;> simp [type, field, hv, texts?_eq_some_iff]
    · rename_i hno
      cases f <;> simp [type, field]
      exact hno _

theorem take?_named_iff {vs : List (String × Value)} {name : String} {v : Value} :
    (Fields.named vs).take? [name] = some [some v] ↔ lookupOnce name vs = some (some v) := by
  rw [Fields.take?, mapM_eq_some_iff, List.forall₂_cons]
  simp

theorem take?_listed_iff {vs : List Value} {name : String} {v : Value} :
    (Fields.listed vs).take? [name] = some [some v] ↔ vs = [v] := by
  match vs with
  | [] | [_] | _ :: _ :: _ => simp [Fields.take?]

theorem entryOf?_eq_some_iff {tag : Value} {k : ControlType} :
    entryOf? ControlType.all ControlType.name false tag = some k ↔ tag = .text k.name := by
  cases tag with
  | text s =>
    constructor
    · intro h
      have hname := List.find?_some (p := fun k => decide (ControlType.name k = s)) h
      rw [of_decide_eq_true hname]
    · intro h
      obtain rfl := Value.text.inj h
      cases k <;> rfl
  | number n => cases n <;> simp [entryOf?]
  | _ => simp [entryOf?]

/-! ## Strict texts -/

theorem strict_iff {t : Tree} : t.Strict ↔ (t.value? maxDepth).isSome := by
  rw [Tree.value?_isSome_iff]
  exact ⟨fun h => ⟨h.sound, h.nesting⟩, fun h => ⟨h.1, h.2⟩⟩

theorem strict_object_iff {members : List (Spelling × Tree)} :
    (Tree.object members).Strict ↔ ∃ vs, members? (maxDepth - 1) members = some vs := by
  rw [strict_iff, ← Option.isSome_iff_exists]
  exact Bool.eq_iff_iff.mp Option.isSome_map

theorem strict_array_iff {items : List Tree} :
    (Tree.array items).Strict ↔ ∃ vs, values? (maxDepth - 1) items = some vs := by
  rw [strict_iff, ← Option.isSome_iff_exists]
  exact Bool.eq_iff_iff.mp Option.isSome_map

section Object

variable {members : List (Spelling × Tree)} {vs : List (String × Value)} {f : ControlFrame}

theorem header?_object_iff (h : members? (maxDepth - 1) members = some vs)
    {type version : Option String} :
    header? (.object members) = some (type, version) ↔
      (lookupOnce "type" vs).bind optionalText? = some type ∧
        (lookupOnce "version" vs).bind optionalText? = some version := by
  rw [header?, header?_object h]
  cases htype : (lookupOnce "type" vs).bind optionalText? <;>
    cases hversion : (lookupOnce "version" vs).bind optionalText? <;>
      simp [List.mapM_cons, htype, hversion]

theorem ofTree?_object_iff (h : members? (maxDepth - 1) members = some vs) :
    ofTree? (.object members) = some f ↔
      lookupOnce "type" vs = some (some (.text f.type.name)) ∧
        lookupOnce f.field.1 vs = some (some f.field.2) := by
  have hfields : (Fields.ofTree? (.object members)).bind (·.split? "type") =
      (Fields.named vs).split? "type" := by
    rw [Fields.ofTree?, h]
    rfl
  rw [ofTree?, hfields, Fields.split?]
  match lookupOnce "type" vs with
  | none | some none => simp
  | some (some tag) =>
    simp only [Option.bind_eq_some_iff, entryOf?_eq_some_iff, ofType?_eq_some_iff, take?_named_iff,
      lookupOnce_filter_ne f.field_ne_type, Option.some.injEq]
    constructor
    · rintro ⟨_, htag, rfl, hfield⟩
      exact ⟨htag, hfield⟩
    · rintro ⟨htag, hfield⟩
      exact ⟨_, htag, rfl, hfield⟩

/-- The versions that a header may give. -/
theorem version_iff : (∃ version, (lookupOnce "version" vs).bind optionalText? = some version ∧
      checkVersion version = .ok ()) ↔
    lookupOnce "version" vs = some none ∨ lookupOnce "version" vs = some (some .null) ∨
      lookupOnce "version" vs = some (some (.text "v1")) := by
  match lookupOnce "version" vs with
  | none => simp
  | some none => simp [optionalText?, checkVersion_eq_ok_iff]
  | some (some v) => cases v <;> simp [optionalText?, Value.textOrNull?, checkVersion_eq_ok_iff]

theorem version_named_iff (h : members? (maxDepth - 1) members = some vs) :
    (named "version" members = [] ∨
      ∃ t, named "version" members = [t] ∧ (t = .null ∨ Says t "v1")) ↔
    ∃ version, (lookupOnce "version" vs).bind optionalText? = some version ∧
      checkVersion version = .ok () := by
  rw [version_iff, lookupOnce_eq_none_iff h, lookupOnce_eq_some_iff h, lookupOnce_eq_some_iff h]
  simp only [value?_eq_null_iff, value?_eq_text_iff]
  constructor
  · rintro (hnone | ⟨t, ht, rfl | hsays⟩)
    · exact .inl hnone
    · exact .inr (.inl ⟨_, ht, rfl⟩)
    · exact .inr (.inr ⟨t, ht, hsays⟩)
  · rintro (hnone | ⟨t, ht, rfl⟩ | ⟨t, ht, hsays⟩)
    · exact .inl hnone
    · exact .inr ⟨_, ht, .inl rfl⟩
    · exact .inr ⟨t, ht, .inr hsays⟩

theorem carried_iff (h : members? (maxDepth - 1) members = some vs) :
    f.Carried members ↔ lookupOnce f.field.1 vs = some (some f.field.2) ∧ f.check = .ok () := by
  rw [lookupOnce_eq_some_iff h]
  cases f with
  | auth token => simp [Carried, field, check, value?_eq_text_iff]
  | subscribe channels | unsubscribe channels =>
    have hlist : ∀ t, Tree.value? (maxDepth - 1) t = some (textList channels) ↔
        ∃ items, t = .array items ∧ List.Forall₂ Says items channels :=
      fun t => value?_eq_textList_iff
    simp only [Carried, field, check, checkChannels_eq_ok_iff, hlist]
    constructor
    · rintro ⟨items, hitems, hsays, hbounds⟩
      exact ⟨⟨_, hitems, items, rfl, hsays⟩, hbounds⟩
    · rintro ⟨⟨_, hitems, items, rfl, hsays⟩, hbounds⟩
      exact ⟨items, hitems, hsays, hbounds⟩

/-- What the grammar says of an object's members, said of their values. -/
theorem object_iff (h : members? (maxDepth - 1) members = some vs) :
    f.Object members ↔
      lookupOnce "type" vs = some (some (.text f.type.name)) ∧
      (∃ version, (lookupOnce "version" vs).bind optionalText? = some version ∧
        checkVersion version = .ok ()) ∧
      lookupOnce f.field.1 vs = some (some f.field.2) ∧ f.check = .ok () := by
  have htype : (∃ t, named "type" members = [t] ∧ Says t f.type.name) ↔
      lookupOnce "type" vs = some (some (.text f.type.name)) := by
    simp only [lookupOnce_eq_some_iff h, value?_eq_text_iff]
  rw [← htype, ← version_named_iff h, ← carried_iff h]
  exact ⟨fun h => ⟨h.type, h.version, h.carried⟩, fun h => ⟨h.1, h.2.1, h.2.2⟩⟩

end Object

section Array

variable {items : List Tree} {vs : List Value} {f : ControlFrame}

theorem header?_array_iff (h : values? (maxDepth - 1) items = some vs)
    {type version : Option String} :
    header? (.array items) = some (type, version) ↔
      ∃ a b, vs = [a, b] ∧ a.textOrNull? = some type ∧ b.textOrNull? = some version := by
  rw [header?, header?_array h]
  match vs with
  | [] | [_] | _ :: _ :: _ :: _ => simp
  | [a, b] =>
    cases ha : a.textOrNull? <;> cases hb : b.textOrNull? <;> simp [List.mapM_cons, ha, hb]

theorem ofTree?_array_iff (h : values? (maxDepth - 1) items = some vs) :
    ofTree? (.array items) = some f ↔ vs = [.text f.type.name, f.field.2] := by
  have hfields : (Fields.ofTree? (.array items)).bind (·.split? "type") =
      (Fields.listed vs).split? "type" := by
    rw [Fields.ofTree?, h]
    rfl
  rw [ofTree?, hfields]
  cases vs with
  | nil => simp [Fields.split?]
  | cons tag vs =>
    simp only [Fields.split?, Option.bind_eq_some_iff, entryOf?_eq_some_iff, ofType?_eq_some_iff,
      take?_listed_iff, List.cons.injEq]
    constructor
    · rintro ⟨_, htag, rfl, hfield⟩
      exact ⟨htag, hfield⟩
    · rintro ⟨htag, hfield⟩
      exact ⟨_, htag, rfl, hfield⟩

/-- What the grammar says of an array's items, said of their values. -/
theorem array_iff (h : values? (maxDepth - 1) items = some vs) :
    Grammar (.array items) f ↔ vs = [.text "auth", .text "v1"] ∧ f = .auth "v1" := by
  constructor
  · rintro (_ | ⟨htype, hversion⟩)
    refine ⟨Option.some.inj (h.symm.trans (values?_eq_some_iff.mpr ?_)), rfl⟩
    exact .cons (value?_eq_text_iff.mpr htype) (.cons (value?_eq_text_iff.mpr hversion) .nil)
  · rintro ⟨rfl, rfl⟩
    obtain _ | ⟨htype, _ | ⟨hversion, ⟨⟩⟩⟩ := values?_eq_some_iff.mp h
    exact .array (value?_eq_text_iff.mp htype) (value?_eq_text_iff.mp hversion)

end Array

/-- The steps of the reader succeed on the strict trees of the grammar, and on no others. -/
theorem steps_iff_grammar {t : Tree} {f : ControlFrame} :
    (∃ type version, header? t = some (type, version) ∧ checkVersion version = .ok () ∧
      checkType type = .ok () ∧ ofTree? t = some f ∧ f.check = .ok ()) ↔
      t.Strict ∧ Grammar t f := by
  cases t with
  | object members =>
    have hgrammar : Grammar (.object members) f ↔ f.Object members :=
      ⟨fun h => by cases h; assumption, .object⟩
    rw [hgrammar, strict_object_iff]
    cases h : members? (maxDepth - 1) members with
    | none => simp [ofTree?, Fields.ofTree?, h]
    | some vs =>
      simp only [header?_object_iff h, ofTree?_object_iff h, object_iff h]
      constructor
      · rintro ⟨type, version, ⟨-, hversion⟩, hcheck, -, ⟨hname, hfield⟩, hbounds⟩
        exact ⟨⟨_, rfl⟩, hname, ⟨version, hversion, hcheck⟩, hfield, hbounds⟩
      · rintro ⟨-, hname, ⟨version, hversion, hcheck⟩, hfield, hbounds⟩
        exact ⟨some f.type.name, version, ⟨by rw [hname]; rfl, hversion⟩, hcheck, checkType_name _,
          ⟨hname, hfield⟩, hbounds⟩
  | array items =>
    rw [strict_array_iff]
    cases h : values? (maxDepth - 1) items with
    | none => simp [ofTree?, Fields.ofTree?, h]
    | some vs =>
      simp only [header?_array_iff h, ofTree?_array_iff h, array_iff h]
      constructor
      · -- the second item is a version to the first pass and what the frame carries to the other
        rintro ⟨_, _, ⟨a, b, rfl, -, hb⟩, hversion, -, hvs, -⟩
        obtain ⟨rfl, rfl⟩ : a = .text f.type.name ∧ b = f.field.2 := by simpa using hvs
        cases f with
        | auth token =>
          obtain rfl := Option.some.inj hb
          obtain rfl : token = "v1" := by simpa using checkVersion_eq_ok_iff.mp hversion
          exact ⟨⟨_, rfl⟩, rfl, rfl⟩
        | subscribe | unsubscribe => simp [field, textList, Value.textOrNull?] at hb
      · rintro ⟨-, rfl, rfl⟩
        exact ⟨some "auth", some "v1", ⟨_, _, rfl, rfl, rfl⟩, rfl, rfl, rfl, rfl⟩
  | _ =>
    constructor
    · rintro ⟨type, version, hheader, -⟩
      simp [header?, Wire.header?] at hheader
    · rintro ⟨-, hgrammar⟩
      cases hgrammar

/-- The reader accepts exactly the grammar. -/
theorem decode_eq_ok_iff {text : String} {f : ControlFrame} :
    decode text = .ok f ↔ ∃ t, t.Written text.toList ∧ t.Strict ∧ Grammar t f := by
  simp only [decode_eq_ok_iff_steps, Tree.ofText?, Tree.ofChars?_eq_some_iff,
    ← steps_iff_grammar, exists_and_left]

/-! ## What does not matter -/

theorem lookupOnce_alike {members members' : List (Spelling × Tree)}
    {vs vs' : List (String × Value)} (h : members? (maxDepth - 1) members = some vs)
    (h' : members? (maxDepth - 1) members' = some vs') {name : String}
    (hperm : ((named name members).map (Tree.value? (maxDepth - 1))).Perm
      ((named name members').map (Tree.value? (maxDepth - 1)))) :
    lookupOnce name vs = lookupOnce name vs' := by
  rw [map_value?_named h, map_value?_named h'] at hperm
  rw [lookupOnce_eq, lookupOnce_eq]
  exact only_perm (by simpa using hperm.filterMap id)

theorem field_mem_knownNames (f : ControlFrame) : f.field.1 ∈ knownNames := by
  cases f <;> simp [field, knownNames]

theorem value?_eq_array_iff {t : Tree} {depth : Nat} {vs : List Value} :
    t.value? (depth + 1) = some (.array vs) ↔
      ∃ items, t = .array items ∧ values? depth items = some vs := by
  cases t <;> simp [Tree.value?, Value.ofMembers]

theorem passes_scalar {t : Tree} {v : Value} (h : t.value? maxDepth = some v)
    (hobject : ∀ members, v ≠ .object members) (harray : ∀ vs, v ≠ .array vs) :
    header? t = none ∧ ofTree? t = none := by
  cases t with
  | array items =>
    obtain ⟨vs, -, rfl⟩ := Option.map_eq_some_iff.mp h
    exact absurd rfl (harray vs)
  | object members =>
    obtain ⟨vs, -, rfl⟩ := Option.map_eq_some_iff.mp h
    exact absurd rfl (hobject _)
  | _ => exact ⟨rfl, rfl⟩

/-- On strict trees that say the same, both passes find the same. -/
theorem Alike.passes {t t' : Tree} (h : Alike t t') (ht : t.Strict) (ht' : t'.Strict) :
    header? t = header? t' ∧ ofTree? t = ofTree? t' := by
  cases h with
  | @object members members' hperm =>
    obtain ⟨vs, hvs⟩ := strict_object_iff.mp ht
    obtain ⟨vs', hvs'⟩ := strict_object_iff.mp ht'
    have hlookup : ∀ name ∈ knownNames, lookupOnce name vs = lookupOnce name vs' :=
      fun name hname => lookupOnce_alike hvs hvs' (hperm name hname)
    have htype := hlookup "type" (by decide)
    constructor
    · refine Option.ext fun header => ?_
      rw [header?_object_iff hvs, header?_object_iff hvs', htype, hlookup "version" (by decide)]
    · refine Option.ext fun f => ?_
      rw [ofTree?_object_iff hvs, ofTree?_object_iff hvs', htype,
        hlookup _ f.field_mem_knownNames]
  | @value _ _ v hobject hv hv' =>
    -- of what is no object only arrays are looked into, and these by position
    by_cases harray : ∃ vs, v = .array vs
    · obtain ⟨vs, rfl⟩ := harray
      obtain ⟨items, rfl, hvs⟩ := value?_eq_array_iff.mp hv
      obtain ⟨items', rfl, hvs'⟩ := value?_eq_array_iff.mp hv'
      constructor
      · refine Option.ext fun header => ?_
        rw [header?_array_iff hvs, header?_array_iff hvs']
      · refine Option.ext fun f => ?_
        rw [ofTree?_array_iff hvs, ofTree?_array_iff hvs']
    · rw [not_exists] at harray
      obtain ⟨hheader, htree⟩ := passes_scalar hv hobject harray
      obtain ⟨hheader', htree'⟩ := passes_scalar hv' hobject harray
      exact ⟨hheader.trans hheader'.symm, htree.trans htree'.symm⟩

/-- How a frame is written does not matter beyond what it says. -/
theorem decode_alike {text text' : String} {t t' : Tree} (h : t.Written text.toList)
    (h' : t'.Written text'.toList) (ht : t.Strict) (ht' : t'.Strict) (halike : Alike t t') :
    decode text = decode text' := by
  obtain ⟨hheader, htree⟩ := halike.passes ht ht'
  rw [decode, decode, Tree.ofText?, Tree.ofText?, Tree.ofChars?_eq_some_iff.mpr h,
    Tree.ofChars?_eq_some_iff.mpr h']
  simp only [hheader, htree]

/--
The reader accepts exactly the strict texts of the grammar, and what it makes of a strict text
depends on nothing but the values of the known names: not on the order of the members, on blanks, on
escapes or on any other member. Whether a number is in range is up to the reader's arithmetic
between two sizes that share fifteen digits, and up to its size elsewhere.
-/
theorem decode_exact :
    (∀ text f, decode text = .ok f ↔ ∃ t, t.Written text.toList ∧ t.Strict ∧ Grammar t f) ∧
      (∀ text text' t t', t.Written text.toList → t'.Written text'.toList → t.Strict → t'.Strict →
        Alike t t' → decode text = decode text') ∧
      ∀ n : Numeral, (n.size ≤ keptSize → n.InRange) ∧ (lostSize ≤ n.size → ¬n.InRange) :=
  ⟨fun _ _ => decode_eq_ok_iff, fun _ _ _ _ => decode_alike,
    fun _ => ⟨Numeral.inRange_of_size_le, Numeral.not_inRange_of_le_size⟩⟩

namespace Rewriting

/-- A string without escapes. -/
def plain (s : String) : Spelling := s.toList.map .literal

theorem paired_plain (s : String) : (plain s).Paired := by
  rw [plain]
  induction s.toList with
  | nil => exact .nil
  | cons c cs ih => exact .literal c ih

/-- A frame as it is usually written. -/
def usual : String := "\x7b\"type\":\"auth\",\"token\":\"t\"\x7d"

/-- The same frame in another order, with blanks, an escape and a member of no meaning. -/
def unusual : String := " \x7b\"token\": \"\\u0074\", \"x\": [null], \"type\": \"auth\"\x7d"

def usualTree : Tree :=
  .object [(plain "type", .text (plain "auth")), (plain "token", .text (plain "t"))]

def unusualTree : Tree :=
  .object [(plain "token", .text [.escaped 't']), (plain "x", .array [.null]),
    (plain "type", .text (plain "auth"))]

theorem written_usual : usualTree.Written usual.toList := by
  repeat refine .of_read rfl ?_
  exact .nil

theorem written_unusual : unusualTree.Written unusual.toList := by
  repeat first | refine .space rfl ?_ | refine .of_read rfl ?_
  exact .nil

/-- The digits in a text. -/
def digitsIn (s : String) : List Digit := s.toList.filterMap digit?

/-- A whole number with 293 zeros that are not spelled out. -/
def scaled (ds : List Digit) : Numeral := ⟨false, ds, [], some 293⟩

theorem size_scaled (ds : List Digit) : (scaled ds).size = natOfDigits ds * 10 ^ 293 := by
  rw [Numeral.size, scaled, List.append_nil, List.length_nil, pow_zero, div_one, Option.getD_some]
  exact congrArg _ (zpow_natCast 10 293)

end Rewriting

open Rewriting in
theorem decode_exact_rewriting :
    decode usual = .ok (.auth "t") ∧ decode unusual = decode usual ∧
      (scaled (digitsIn "1797693134862315")).InRange ∧
      ¬(scaled (digitsIn "1797693134862317")).InRange := by
  have hkept : natOfDigits (digitsIn "1797693134862315") = 1797693134862315 := by decide
  have hlost : natOfDigits (digitsIn "1797693134862317") = 1797693134862317 := by decide
  have husual : usualTree.Strict := strict_iff.mpr rfl
  have hunusual : unusualTree.Strict := strict_iff.mpr rfl
  refine ⟨?_, ?_, (decode_exact.2.2 _).1 ?_, (decode_exact.2.2 _).2 ?_⟩
  · refine (decode_exact.1 usual (.auth "t")).mpr ⟨_, written_usual, husual, .object ⟨?_, ?_, ?_⟩⟩
    · exact ⟨_, rfl, _, rfl, rfl⟩
    · exact .inl rfl
    · exact ⟨_, rfl, _, rfl, rfl⟩
  · refine decode_exact.2.1 _ _ _ _ written_unusual written_usual hunusual husual (.object ?_)
    simp only [knownNames, List.forall_mem_cons]
    refine ⟨?_, ?_, ?_, ?_, by simp⟩
    all_goals exact .of_eq rfl
  · rw [size_scaled, hkept, keptSize]
    norm_num
  · rw [size_scaled, hlost, lostSize]
    norm_num

/-! ## Between the two sizes -/

/-- What would make a token sound if a number were judged by its size alone. -/
def SoundBySize : Token → Prop
  | .text s => s.Paired
  | .number n => n.size ≤ Decimal.largest
  | _ => True

namespace Rewriting

/-- The largest double as it is usually written, with two zeros behind the last digit. -/
def padded : String := "\x7b\"type\":\"auth\",\"token\":\"t\",\"x\":1.797693134862315700e308\x7d"

def paddedNumeral : Numeral :=
  ⟨false, digitsIn "1", digitsIn "797693134862315700", some 308⟩

def paddedTree : Tree :=
  .object [(plain "type", .text (plain "auth")), (plain "token", .text (plain "t")),
    (plain "x", .number paddedNumeral)]

theorem written_padded : paddedTree.Written padded.toList := by
  repeat refine .of_read rfl ?_
  exact .nil

theorem size_paddedNumeral_le : paddedNumeral.size ≤ Decimal.largest := by
  have hsize : paddedNumeral.size = 17976931348623157 / 10 * 10 ^ 293 := by
    have hdigits : natOfDigits (paddedNumeral.whole ++ paddedNumeral.fraction) =
        1797693134862315700 := by decide
    have hpower : (10 : ℚ) ^ paddedNumeral.exponent.getD 0 = 10 ^ 15 * 10 ^ 293 :=
      (zpow_natCast 10 (15 + 293)).trans (pow_add 10 15 293)
    have hplaces : paddedNumeral.fraction.length = 18 := by decide
    rw [Numeral.size, hdigits, hplaces, hpower, ← mul_assoc]
    congr 1
    norm_num
  have hpos : (0 : ℚ) < 2 ^ 971 := by positivity
  obtain ⟨-, hten⟩ := ten_pow_bounds
  rw [hsize, Decimal.largest]
  generalize (2 : ℚ) ^ 971 = t at hten hpos ⊢
  generalize (10 : ℚ) ^ 293 = u at hten ⊢
  linarith

end Rewriting

open Rewriting in
/-- Size alone does not decide: a number may be lost though the largest double is no smaller. -/
theorem decode_padded : ∃ t : Tree, t.Written padded.toList ∧ (∀ a ∈ t.tokens, SoundBySize a) ∧
    t.nesting ≤ maxDepth ∧ Grammar t (.auth "t") ∧ decode padded = .error .malformed := by
  refine ⟨paddedTree, written_padded, ?_, by decide, .object ⟨?_, ?_, ?_⟩, ?_⟩
  · simp [paddedTree, Tree.tokens, memberTokens, SoundBySize, paired_plain, size_paddedNumeral_le]
  · exact ⟨_, rfl, _, rfl, rfl⟩
  · exact .inl rfl
  · exact ⟨_, rfl, _, rfl, rfl⟩
  · have hheader : header? paddedTree = some (some "auth", none) := rfl
    have htree : ofTree? paddedTree = none := by decide +kernel
    rw [decode, Tree.ofText?, Tree.ofChars?_eq_some_iff.mpr written_padded]
    simp only [hheader, htree]
    rfl

end Switchboard.Wire.ControlFrame
