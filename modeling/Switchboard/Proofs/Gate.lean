import Switchboard.Proofs.Commands
import Switchboard.Wire.Envelope

/-!
# The version gate

A frame's version is judged before anything else in it is understood. The header pass needs the
names of the members, and of the values only those of its own fields; everything else has to be
grammar and nothing more. So a frame of a version that is not in service is refused as such,
whatever else it holds, and one of a version in service never is.
-/

namespace Switchboard.Wire

open Json

/-- Exactly one member has the name, and it is a string that stands for the text. -/
def Declares (members : List (Spelling × Tree)) (name text : String) : Prop :=
  ∃ t, named name members = [t] ∧ Says t text

/-- At most one member has the name, and it is null or a string that stands for a text. -/
def MayDeclare (members : List (Spelling × Tree)) (name : String) : Prop :=
  named name members = [] ∨
    ∃ t, named name members = [t] ∧ (t = .null ∨ ∃ text, Says t text)

/-- No version in service has the name. -/
def Version.Unsupported (name : String) : Prop := ∀ v ∈ Version.supported, v.name ≠ name

/-- The error that a version is not in service. -/
def unsupported (version : String) : Error :=
  .protocol (.unsupportedVersion version) "Unsupported schema version"

/-! ## The header -/

theorem headerText?_eq_text_iff {t : Tree} {text : String} :
    headerText? t = some (some text) ↔ Says t text := by
  cases t <;> simp [headerText?, Says]

theorem headerText?_eq_null_iff {t : Tree} : headerText? t = some none ↔ t = .null := by
  cases t <;> simp [headerText?]

section Header

variable {members : List (Spelling × Tree)} {name text : String}

theorem headerField?_eq_text_iff :
    headerField? members name = some (some text) ↔ Declares members name text := by
  unfold headerField? Declares
  cases named name members with
  | nil => simp [only]
  | cons t rest =>
    cases rest with
    | nil => simp [only, headerText?_eq_text_iff]
    | cons => simp [only]

theorem headerField?_eq_none_iff :
    headerField? members name = some none ↔
      named name members = [] ∨ named name members = [.null] := by
  unfold headerField?
  cases named name members with
  | nil => simp [only]
  | cons t rest =>
    cases rest with
    | nil => simp [only, headerText?_eq_null_iff]
    | cons => simp [only]

theorem exists_headerField?_iff :
    (∃ field, headerField? members name = some field) ↔ MayDeclare members name := by
  have hsplit : (∃ field, headerField? members name = some field) ↔
      headerField? members name = some none ∨
        ∃ text, headerField? members name = some (some text) :=
    Option.exists
  rw [hsplit, headerField?_eq_none_iff]
  simp only [headerField?_eq_text_iff, Declares]
  constructor
  · rintro ((hnone | hnull) | ⟨text, t, ht, hsays⟩)
    · exact .inl hnone
    · exact .inr ⟨_, hnull, .inl rfl⟩
    · exact .inr ⟨t, ht, .inr ⟨text, hsays⟩⟩
  · rintro (hnone | ⟨t, ht, rfl | ⟨text, hsays⟩⟩)
    · exact .inl (.inl hnone)
    · exact .inl (.inr ht)
    · exact .inr ⟨text, t, ht, hsays⟩

/-- A header is found only where all names can be read. -/
theorem legible_of_header? {names : List String} {fields : List (Option String)}
    (h : header? names (.object members) = some fields) : Legible members := by
  rw [header?] at h
  cases hnames : decodeNames? members with
  | none => simp [hnames] at h
  | some decoded => exact legible_of_decodeNames? hnames

theorem version?_eq_ok_iff {version : String} :
    Envelope.version? (.object members) = .ok version ↔
      Legible members ∧ Declares members "version" version := by
  constructor
  · intro h
    unfold Envelope.version? at h
    split at h
    · rename_i version' hheader
      obtain rfl := Except.ok.inj h
      have hlegible := legible_of_header? hheader
      rw [header?_of_legible hlegible, mapM_eq_some_iff, List.forall₂_cons] at hheader
      exact ⟨hlegible, headerField?_eq_text_iff.mp hheader.1⟩
    · cases h
    · cases h
  · rintro ⟨hlegible, hversion⟩
    have hfield := headerField?_eq_text_iff.mpr hversion
    rw [Envelope.version?, header?_of_legible hlegible]
    simp [hfield]

theorem ControlFrame.header?_eq_some_iff {type version : Option String} :
    ControlFrame.header? (.object members) = some (type, version) ↔
      Legible members ∧ headerField? members "type" = some type ∧
        headerField? members "version" = some version := by
  unfold ControlFrame.header?
  constructor
  · intro h
    split at h
    · rename_i type' version' hheader
      obtain ⟨rfl, rfl⟩ := Prod.mk.inj (Option.some.inj h)
      have hlegible := legible_of_header? hheader
      rw [header?_of_legible hlegible, mapM_eq_some_iff, List.forall₂_cons, List.forall₂_cons]
        at hheader
      exact ⟨hlegible, hheader.1, hheader.2.1⟩
    · cases h
  · rintro ⟨hlegible, htype, hversion⟩
    rw [header?_of_legible hlegible]
    simp [htype, hversion]

end Header

/-! ## The gate -/

theorem Version.check_eq_error_iff {name : String} {e : Error} :
    Version.check name = .error e ↔ Unsupported name ∧ e = unsupported name := by
  unfold Version.check Version.ofName?
  cases h : Version.supported.find? (·.name = name) with
  | none =>
    have hnone : Unsupported name := by simpa [Unsupported] using List.find?_eq_none.mp h
    simp [hnone, unsupported, eq_comm]
  | some v =>
    have hsome : ¬Unsupported name := fun hv =>
      hv v (List.mem_of_find?_eq_some h) (by simpa using List.find?_some h)
    simp [hsome]

theorem Version.not_unsupported_v1 : ¬Unsupported "v1" := fun h => h .v1 (by decide) rfl

/-- If something goes wrong, it is not that a version is not in service. -/
def NotTheVersion {α : Type} (x : Except Error α) : Prop :=
  ∀ e v, x = .error e → e.fault ≠ .protocol (.unsupportedVersion v)

namespace NotTheVersion

theorem ok {α : Type} (a : α) : NotTheVersion (.ok a) := fun _ _ h => by cases h

theorem error {α : Type} {e : Error} (h : ∀ v, e.fault ≠ .protocol (.unsupportedVersion v)) :
    NotTheVersion (α := α) (.error e) := fun _ v he => Except.error.inj he ▸ h v

theorem bind {α β : Type} {x : Except Error α} {g : α → Except Error β} (hx : NotTheVersion x)
    (hg : ∀ a, NotTheVersion (g a)) : NotTheVersion (x >>= g) := by
  intro e v he
  cases x with
  | error e' => exact hx e v (congrArg Except.error (Except.error.inj he))
  | ok a => exact hg a e v he

end NotTheVersion

theorem notTheVersion_checkType (type : Option String) :
    NotTheVersion (ControlFrame.checkType type) := by
  unfold ControlFrame.checkType
  split
  · exact .error (by simp [Error.protocol])
  · split
    · exact .error (by simp [Error.protocol])
    · split
      · exact .ok ()
      · exact .error (by simp [Error.protocol])

theorem notTheVersion_check (frame : ControlFrame) : NotTheVersion frame.check := by
  have hchannels : ∀ channels, NotTheVersion (ControlFrame.checkChannels channels) := by
    intro channels
    unfold ControlFrame.checkChannels
    split
    · exact .error (by simp [Error.protocol])
    · split
      · exact .error (by simp [Error.protocol])
      · exact .ok ()
  cases frame with
  | auth token => exact .ok ()
  | subscribe channels | unsubscribe channels => exact hchannels channels

theorem notTheVersion_malformed {α : Type} : NotTheVersion (α := α) (.error .malformed) :=
  .error (by simp [Error.malformed])

/-- What comes after a step that is not to blame changes nothing about a version that is refused. -/
theorem refused_iff {α β : Type} {x : Except Error α} {g : α → Except Error β}
    (hg : ∀ a, NotTheVersion (g a)) {e : Error} {v : String} :
    ((x >>= g) = .error e ∧ e.fault = .protocol (.unsupportedVersion v)) ↔
      x = .error e ∧ e.fault = .protocol (.unsupportedVersion v) := by
  cases x with
  | error e' => exact and_congr_left fun _ => ⟨fun h => congrArg _ (Except.error.inj h),
      fun h => congrArg _ (Except.error.inj h)⟩
  | ok a =>
    constructor
    · rintro ⟨he, hfault⟩
      exact absurd hfault (hg a e v he)
    · rintro ⟨he, -⟩
      cases he

section Refusal

variable {text : String} {t : Tree} {e : Error} {v : String}

theorem notTheVersion_version? (t : Tree) : NotTheVersion (Envelope.version? t) := by
  unfold Envelope.version?
  split
  · exact .ok _
  · exact .error (by simp [Error.protocol])
  · exact notTheVersion_malformed

/-- The steps of reading an envelope. -/
theorem Envelope.decode_steps (ht : Tree.ofText? text = some t) :
    Envelope.decode text =
      (Envelope.version? t >>= Version.check) >>= fun _ =>
        match Envelope.ofTree? t with
        | none => .error .malformed
        | some e => .ok e := by
  rw [Envelope.decode, ht]
  dsimp only
  cases Envelope.version? t with
  | error e => rfl
  | ok version =>
    have hbind : (Except.ok version >>= Version.check) = Version.check version := rfl
    rw [hbind]
    dsimp only
    cases Version.check version <;> rfl

/-- An envelope is refused for its version exactly if it has one that is not in service. -/
theorem Envelope.refused_iff (ht : Tree.ofText? text = some t) :
    (Envelope.decode text = .error e ∧ e.fault = .protocol (.unsupportedVersion v)) ↔
      Envelope.version? t = .ok v ∧ Version.Unsupported v ∧ e = unsupported v := by
  rw [Envelope.decode_steps ht, Wire.refused_iff]
  · cases hversion : Envelope.version? t with
    | error e' =>
      constructor
      · rintro ⟨he, hfault⟩
        obtain rfl : e' = e := Except.error.inj he
        exact absurd hfault (notTheVersion_version? t e' v hversion)
      · rintro ⟨hv, -⟩
        cases hv
    | ok version =>
      show Version.check version = .error e ∧ _ ↔ _
      rw [Version.check_eq_error_iff]
      constructor
      · rintro ⟨⟨hunsupported, rfl⟩, hfault⟩
        obtain rfl : version = v := by simpa [unsupported, Error.protocol] using hfault
        exact ⟨rfl, hunsupported, rfl⟩
      · rintro ⟨hv, hunsupported, rfl⟩
        rw [Except.ok.inj hv]
        exact ⟨⟨hunsupported, rfl⟩, rfl⟩
  · intro _
    split
    · exact notTheVersion_malformed
    · exact .ok _

theorem checkVersion_eq_error_iff {version : Option String} :
    ControlFrame.checkVersion version = .error e ↔
      ∃ name, version = some name ∧ Version.Unsupported name ∧ e = unsupported name := by
  cases version with
  | none => simp [ControlFrame.checkVersion]
  | some name =>
    simp only [Option.some.injEq, exists_eq_left']
    rw [← Version.check_eq_error_iff, ControlFrame.checkVersion]
    cases Version.check name <;> simp

/-- A control frame is refused for its version exactly if its header has one that is not in
service. -/
theorem ControlFrame.refused_iff (ht : Tree.ofText? text = some t) :
    (ControlFrame.decode text = .error e ∧ e.fault = .protocol (.unsupportedVersion v)) ↔
      (∃ type, ControlFrame.header? t = some (type, some v)) ∧ Version.Unsupported v ∧
        e = unsupported v := by
  rw [ControlFrame.decode, ht]
  dsimp only
  cases ControlFrame.header? t with
  | none =>
    simp only [reduceCtorEq, exists_false, false_and, iff_false, not_and]
    exact fun he => notTheVersion_malformed e v he
  | some header =>
    obtain ⟨type, version⟩ := header
    dsimp only
    rw [Wire.refused_iff]
    · rw [checkVersion_eq_error_iff]
      constructor
      · rintro ⟨⟨name, rfl, hunsupported, rfl⟩, hfault⟩
        obtain rfl : name = v := by simpa [unsupported, Error.protocol] using hfault
        exact ⟨⟨type, rfl⟩, hunsupported, rfl⟩
      · rintro ⟨⟨type', hheader⟩, hunsupported, rfl⟩
        obtain ⟨-, rfl⟩ := Prod.mk.inj (Option.some.inj hheader)
        exact ⟨⟨v, rfl, hunsupported, rfl⟩, rfl⟩
    · -- the type and everything behind it is looked at only after the version
      intro _
      refine (notTheVersion_checkType type).bind fun _ => ?_
      split
      · exact (notTheVersion_check _).bind fun _ => .ok _
      · exact notTheVersion_malformed

end Refusal

/-! ## Objects -/

section Objects

variable {text : String} {members : List (Spelling × Tree)} {e : Error} {v : String}

theorem ofText?_of_written {t : Tree} (h : t.Written text.toList) : Tree.ofText? text = some t :=
  Tree.ofChars?_eq_some_iff.mpr h

theorem Envelope.refused_object_iff (h : (Tree.object members).Written text.toList) :
    (Envelope.decode text = .error e ∧ e.fault = .protocol (.unsupportedVersion v)) ↔
      Legible members ∧ Declares members "version" v ∧ Version.Unsupported v ∧
        e = unsupported v := by
  rw [Envelope.refused_iff (ofText?_of_written h), version?_eq_ok_iff, and_assoc]

theorem ControlFrame.refused_object_iff (h : (Tree.object members).Written text.toList) :
    (ControlFrame.decode text = .error e ∧ e.fault = .protocol (.unsupportedVersion v)) ↔
      Legible members ∧ MayDeclare members "type" ∧ Declares members "version" v ∧
        Version.Unsupported v ∧ e = unsupported v := by
  rw [ControlFrame.refused_iff (ofText?_of_written h)]
  simp only [ControlFrame.header?_eq_some_iff, headerField?_eq_text_iff, ← exists_headerField?_iff]
  constructor
  · rintro ⟨⟨type, hlegible, htype, hversion⟩, hunsupported, he⟩
    exact ⟨hlegible, ⟨type, htype⟩, hversion, hunsupported, he⟩
  · rintro ⟨hlegible, ⟨type, htype⟩, hversion, hunsupported, he⟩
    exact ⟨⟨type, hlegible, htype, hversion⟩, hunsupported, he⟩

/-- A member that says one version leaves no room for another. -/
theorem Declares.eq {name text text' : String} (h : Declares members name text) {t : Tree}
    (ht : t ∈ named name members) (htext : Says t text') : text = text' := by
  obtain ⟨u, hu, s, rfl, hs⟩ := h
  obtain rfl := List.mem_singleton.mp (hu ▸ ht)
  obtain ⟨s', heq, hs'⟩ := htext
  obtain rfl := Tree.text.inj heq
  exact Option.some.inj (hs.symm.trans hs')

end Objects

/--
**The version gate.** Of an object whose names can be read and whose one version is not in service,
either reader says so and nothing else, whatever the object holds besides; the reader of control
frames has to find nothing wrong with the type as a field of the header. Any two such objects fail
alike, nothing else fails in this way, and so no object that gives its version as `v1` does.
-/
theorem version_gate :
    (∀ text members v, (Tree.object members).Written text.toList → Legible members →
      Declares members "version" v → Version.Unsupported v →
      Envelope.decode text = .error (unsupported v) ∧
        (MayDeclare members "type" → ControlFrame.decode text = .error (unsupported v))) ∧
    (∀ text members text' members' v, (Tree.object members).Written text.toList →
      (Tree.object members').Written text'.toList → Legible members → Legible members' →
      Declares members "version" v → Declares members' "version" v → Version.Unsupported v →
      Envelope.decode text = Envelope.decode text' ∧
        (MayDeclare members "type" → MayDeclare members' "type" →
          ControlFrame.decode text = ControlFrame.decode text')) ∧
    (∀ text members e v, (Tree.object members).Written text.toList →
      e.fault = .protocol (.unsupportedVersion v) →
      Envelope.decode text = .error e ∨ ControlFrame.decode text = .error e →
      Legible members ∧ Declares members "version" v ∧ Version.Unsupported v) ∧
    ∀ text members e v t, (Tree.object members).Written text.toList →
      t ∈ named "version" members → Says t "v1" →
      e.fault = .protocol (.unsupportedVersion v) →
      Envelope.decode text ≠ .error e ∧ ControlFrame.decode text ≠ .error e := by
  have hrefused : ∀ text members v, (Tree.object members).Written text.toList → Legible members →
      Declares members "version" v → Version.Unsupported v →
      Envelope.decode text = .error (unsupported v) ∧
        (MayDeclare members "type" → ControlFrame.decode text = .error (unsupported v)) := by
    intro text members v h hlegible hversion hunsupported
    constructor
    · exact ((Envelope.refused_object_iff h).mpr ⟨hlegible, hversion, hunsupported, rfl⟩).1
    · intro htype
      exact ((ControlFrame.refused_object_iff h).mpr
        ⟨hlegible, htype, hversion, hunsupported, rfl⟩).1
  have honly : ∀ text members e v, (Tree.object members).Written text.toList →
      e.fault = .protocol (.unsupportedVersion v) →
      Envelope.decode text = .error e ∨ ControlFrame.decode text = .error e →
      Legible members ∧ Declares members "version" v ∧ Version.Unsupported v := by
    intro text members e v h hfault he
    rcases he with he | he
    · obtain ⟨hlegible, hversion, hunsupported, -⟩ :=
        (Envelope.refused_object_iff h).mp ⟨he, hfault⟩
      exact ⟨hlegible, hversion, hunsupported⟩
    · obtain ⟨hlegible, -, hversion, hunsupported, -⟩ :=
        (ControlFrame.refused_object_iff h).mp ⟨he, hfault⟩
      exact ⟨hlegible, hversion, hunsupported⟩
  refine ⟨hrefused, ?_, honly, ?_⟩
  · intro text members text' members' v h h' hlegible hlegible' hversion hversion' hunsupported
    obtain ⟨henvelope, hcontrol⟩ := hrefused text members v h hlegible hversion hunsupported
    obtain ⟨henvelope', hcontrol'⟩ := hrefused text' members' v h' hlegible' hversion' hunsupported
    refine ⟨henvelope.trans henvelope'.symm, fun htype htype' => ?_⟩
    exact (hcontrol htype).trans (hcontrol' htype').symm
  · intro text members e v t h ht hsays hfault
    have hnever : ¬(Envelope.decode text = .error e ∨ ControlFrame.decode text = .error e) := by
      intro he
      obtain ⟨-, hversion, hunsupported⟩ := honly text members e v h hfault he
      obtain rfl := hversion.eq ht hsays
      exact Version.not_unsupported_v1 hunsupported
    exact not_or.mp hnever

namespace Gate

open ControlFrame.Rewriting (plain digitsIn)

/-- A frame of another version that nothing else is right with: half a surrogate pair, a number
beyond all doubles, and a type that only servers send. -/
def foreign : String :=
  "\x7b\"x\":[\"\\ud800\",1e999],\"type\":\"event\",\"version\":\"v9\"\x7d"

def foreignMembers : List (Spelling × Tree) :=
  [(plain "x", .array [.text [.half 0xd800], .number ⟨false, digitsIn "1", [], some (.ofNat 999)⟩]),
    (plain "type", .text (plain "event")), (plain "version", .text (plain "v9"))]

theorem written_foreign : (Tree.object foreignMembers).Written foreign.toList := by
  repeat refine .of_read rfl ?_
  exact .nil

end Gate

open Gate in
theorem version_gate_foreign :
    Envelope.decode foreign = .error (unsupported "v9") ∧
      ControlFrame.decode foreign = .error (unsupported "v9") := by
  have hlegible : Legible foreignMembers := by
    simp [Legible, foreignMembers, ControlFrame.Rewriting.paired_plain]
  have hversion : Declares foreignMembers "version" "v9" := ⟨_, rfl, _, rfl, rfl⟩
  have htype : MayDeclare foreignMembers "type" := .inr ⟨_, rfl, .inr ⟨"event", _, rfl, rfl⟩⟩
  have hunsupported : Version.Unsupported "v9" := by
    intro v _ hname
    cases v
    exact absurd hname (by decide)
  obtain ⟨henvelope, hcontrol⟩ :=
    version_gate.1 foreign foreignMembers "v9" written_foreign hlegible hversion hunsupported
  exact ⟨henvelope, hcontrol htype⟩

end Switchboard.Wire
