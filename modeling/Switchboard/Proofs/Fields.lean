import Switchboard.Proofs.Meaning
import Switchboard.Wire.Message

/-!
# Fields by name

The values of an object's members, looked up by name, before and after they are understood. A header
is taken from the tree and a record from the values; where all of the text is understood the two
agree, so everything that is known of a record can be said by name and value.
-/

namespace Switchboard.Wire

open Json

/-- A tree is a string that stands for a text. -/
def Says (t : Tree) (text : String) : Prop := ∃ s, t = .text s ∧ s.text? = some text

/-- The values of the members with a name, in the order written. -/
def named (name : String) (members : List (Spelling × Tree)) : List Tree :=
  (members.filter fun m => m.1.text? = some name).map (·.2)

theorem mapM_eq_some_iff {α β : Type} {f : α → Option β} {l : List α} {l' : List β} :
    l.mapM f = some l' ↔ List.Forall₂ (fun a b => f a = some b) l l' := by
  induction l generalizing l' with
  | nil => simp [eq_comm]
  | cons a l ih =>
    rw [List.mapM_cons]
    cases l' with
    | nil => cases f a <;> cases l.mapM f <;> simp
    | cons b l' =>
      rw [List.forall₂_cons, ← ih]
      cases f a <;> cases l.mapM f <;> simp

/-! ## Members by name -/

/-- The only element of a list, if there is one; a list with several has none. -/
def only {α : Type} : List α → Option (Option α)
  | [] => some none
  | [a] => some (some a)
  | _ => none

theorem only_eq_nil_iff {α : Type} {l : List α} : only l = some none ↔ l = [] := by
  match l with
  | [] | [_] | _ :: _ :: _ => simp [only]

theorem only_eq_singleton_iff {α : Type} {l : List α} {a : α} :
    only l = some (some a) ↔ l = [a] := by
  match l with
  | [] | [_] | _ :: _ :: _ => simp [only]

theorem only_perm {α : Type} {l l' : List α} (h : l.Perm l') : only l = only l' := by
  have hlength := h.length_eq
  match l, l', h with
  | [], [], _ => rfl
  | [_], [_], h => rw [List.perm_singleton.mp h]
  | _ :: _ :: _, _ :: _ :: _, _ => rfl
  | [], _ :: _, _ | _ :: _, [], _ | [_], _ :: _ :: _, _ | _ :: _ :: _, [_], _ => simp at hlength

theorem lookupOnce_eq {α : Type} (name : String) (members : List (String × α)) :
    lookupOnce name members = only ((members.filter (·.1 = name)).map (·.2)) := by
  unfold lookupOnce
  generalize members.filter (·.1 = name) = l
  match l with
  | [] | [_] | _ :: _ :: _ => rfl

theorem lookupOnce_filter_ne {α : Type} {name tag : String} (h : name ≠ tag)
    (members : List (String × α)) :
    lookupOnce name (members.filter (·.1 ≠ tag)) = lookupOnce name members := by
  have hfilter : (members.filter (·.1 ≠ tag)).filter (·.1 = name) =
      members.filter (·.1 = name) := by
    rw [List.filter_filter]
    refine List.filter_congr fun m _ => ?_
    by_cases hm : m.1 = name
    · simp [hm, h]
    · simp [hm]
  rw [lookupOnce, hfilter, lookupOnce]

/-! ## Names that can be read -/

/-- The names of an object's members all stand for texts. -/
def Legible (members : List (Spelling × Tree)) : Prop := ∀ m ∈ members, m.1.Paired

theorem decodeNames?_of_legible {members : List (Spelling × Tree)} (h : Legible members) :
    ∃ decoded, decodeNames? members = some decoded ∧
      ∀ name, (decoded.filter (·.1 = name)).map (·.2) = named name members := by
  induction members with
  | nil => exact ⟨[], rfl, fun _ => rfl⟩
  | cons m members ih =>
    obtain ⟨decoded, hdecoded, hnamed⟩ := ih fun m' hm' => h m' (List.mem_cons_of_mem _ hm')
    obtain ⟨text, htext⟩ :=
      Option.isSome_iff_exists.mp (Spelling.text?_isSome_iff.mpr (h m List.mem_cons_self))
    refine ⟨(text, m.2) :: decoded, ?_, fun name => ?_⟩
    · rw [decodeNames?] at hdecoded ⊢
      rw [List.mapM_cons, hdecoded]
      simp [htext]
    · by_cases hname : text = name
      · simpa [named, htext, hname] using hnamed name
      · simpa [named, htext, hname] using hnamed name

theorem legible_of_decodeNames? {members : List (Spelling × Tree)} {decoded : List (String × Tree)}
    (h : decodeNames? members = some decoded) : Legible members := by
  rw [decodeNames?, mapM_eq_some_iff] at h
  induction h with
  | nil => simp [Legible]
  | cons hm _ ih =>
    obtain ⟨text, htext, -⟩ := Option.map_eq_some_iff.mp hm
    refine List.forall_mem_cons.mpr ⟨?_, ih⟩
    exact Spelling.text?_isSome_iff.mp (Option.isSome_iff_exists.mpr ⟨text, htext⟩)

/-- What a header takes from the members of a name. -/
def headerField? (members : List (Spelling × Tree)) (name : String) : Option (Option String) :=
  (only (named name members)).bind fun t => t.elim (some none) headerText?

/-- A header is found field by field where the names can be read. -/
theorem header?_of_legible {members : List (Spelling × Tree)} (h : Legible members)
    (names : List String) :
    header? names (.object members) = names.mapM (headerField? members) := by
  obtain ⟨decoded, hdecoded, hnamed⟩ := decodeNames?_of_legible h
  rw [header?, hdecoded]
  dsimp only
  congr 1
  funext name
  rw [headerField?, lookupOnce_eq, hnamed]
  match only (named name members) with
  | none | some none | some (some _) => rfl

section Members

variable {depth : Nat} {members : List (Spelling × Tree)} {vs : List (String × Value)}

/-- The members of a name have the same values as written and as understood. -/
theorem map_value?_named (h : members? depth members = some vs) (name : String) :
    (named name members).map (Tree.value? depth) =
      ((vs.filter (·.1 = name)).map (·.2)).map some := by
  rw [members?_eq_some_iff] at h
  induction h with
  | nil => rfl
  | @cons m v members vs hm _ ih =>
    -- a member has the name on both sides or on neither
    by_cases hname : v.1 = name
    · simpa [named, hm.1, hm.2, hname] using ih
    · simpa [named, hm.1, hname] using ih

theorem lookupOnce_eq_none_iff (h : members? depth members = some vs) (name : String) :
    lookupOnce name vs = some none ↔ named name members = [] := by
  have hmap := map_value?_named h name
  rw [lookupOnce_eq, only_eq_nil_iff]
  rw [← List.map_eq_nil_iff (f := some), ← hmap, List.map_eq_nil_iff]

theorem lookupOnce_eq_some_iff (h : members? depth members = some vs) (name : String) (v : Value) :
    lookupOnce name vs = some (some v) ↔
      ∃ t, named name members = [t] ∧ t.value? depth = some v := by
  have hmap := map_value?_named h name
  rw [lookupOnce_eq, only_eq_singleton_iff]
  constructor
  · intro hv
    rw [hv, List.map_singleton, List.map_eq_singleton_iff] at hmap
    exact hmap
  · rintro ⟨t, ht, hv⟩
    rw [ht, List.map_singleton, hv] at hmap
    obtain ⟨w, hw, hwv⟩ := List.map_eq_singleton_iff.mp hmap.symm
    rw [hw, Option.some.inj hwv]

/-- What a header takes from a value is what it takes from the tree. -/
theorem headerText?_of_value? {t : Tree} {v : Value} (h : t.value? depth = some v) :
    headerText? t = v.textOrNull? := by
  cases t with
  | text s =>
    obtain ⟨text, htext, rfl⟩ := Option.map_eq_some_iff.mp h
    simp [headerText?, htext, Value.textOrNull?]
  | number n =>
    obtain ⟨_, -, rfl⟩ := Option.map_eq_some_iff.mp h
    rfl
  | null | bool =>
    obtain rfl := Option.some.inj h
    rfl
  | array items =>
    cases depth with
    | zero => simp [Tree.value?] at h
    | succ depth =>
      obtain ⟨_, -, rfl⟩ := Option.map_eq_some_iff.mp h
      rfl
  | object members =>
    cases depth with
    | zero => simp [Tree.value?] at h
    | succ depth =>
      obtain ⟨_, -, rfl⟩ := Option.map_eq_some_iff.mp h
      rfl

theorem legible_of_members? (h : members? depth members = some vs) : Legible members := by
  rw [members?_eq_some_iff] at h
  induction h with
  | nil => simp [Legible]
  | cons hm _ ih =>
    refine List.forall_mem_cons.mpr ⟨?_, ih⟩
    exact Spelling.text?_isSome_iff.mp (Option.isSome_iff_exists.mpr ⟨_, hm.1⟩)

/-- Where everything is understood, the header is found among the values. -/
theorem header?_object (h : members? depth members = some vs) (names : List String) :
    Wire.header? names (.object members) =
      names.mapM fun name => (lookupOnce name vs).bind optionalText? := by
  rw [header?_of_legible (legible_of_members? h)]
  congr 1
  funext name
  have hmap := map_value?_named h name
  rw [headerField?, lookupOnce_eq]
  generalize named name members = ts at hmap
  generalize (vs.filter (·.1 = name)).map (·.2) = ws at hmap
  match ts, ws, hmap with
  | [], [], _ => rfl
  | [t], [v], hmap => exact headerText?_of_value? (by simpa using hmap)
  | _ :: _ :: _, _ :: _ :: _, _ => rfl
  | [_], _ :: _ :: _, hmap | _ :: _ :: _, [_], hmap => simp at hmap

end Members

theorem header?_array {depth : Nat} {items : List Tree} {vs : List Value}
    (h : values? depth items = some vs) (names : List String) :
    Wire.header? names (.array items) =
      if vs.length = names.length then vs.mapM Value.textOrNull? else none := by
  rw [values?_eq_some_iff] at h
  rw [Wire.header?, h.length_eq]
  congr 1
  induction h with
  | nil => rfl
  | cons hv _ ih => rw [List.mapM_cons, List.mapM_cons, ih, headerText?_of_value? hv]

/-! ## Values and what they are written as -/

theorem value?_eq_text_iff {t : Tree} {depth : Nat} {text : String} :
    t.value? depth = some (.text text) ↔ Says t text := by
  cases t with
  | array | object => cases depth <;> simp [Tree.value?, Says, Value.ofMembers]
  | _ => simp [Tree.value?, Says]

theorem value?_eq_null_iff {t : Tree} {depth : Nat} : t.value? depth = some .null ↔ t = .null := by
  cases t with
  | array | object => cases depth <;> simp [Tree.value?, Value.ofMembers]
  | _ => simp [Tree.value?]

theorem value?_eq_textList_iff {t : Tree} {depth : Nat} {texts : List String} :
    t.value? (depth + 1) = some (textList texts) ↔
      ∃ items, t = .array items ∧ List.Forall₂ Says items texts := by
  cases t with
  | array items =>
    simp only [Tree.value?, textList, Option.map_eq_some_iff, Value.array.injEq,
      exists_eq_right, values?_eq_some_iff, List.forall₂_map_right_iff, value?_eq_text_iff,
      Tree.array.injEq, exists_eq_left']
  | _ => simp [Tree.value?, textList, Value.ofMembers]

theorem text?_eq_some_iff {v : Value} {text : String} : v.text? = some text ↔ v = .text text := by
  cases v <;> simp [Value.text?]

theorem texts?_eq_some_iff {v : Value} {texts : List String} :
    v.texts? = some texts ↔ v = textList texts := by
  cases v with
  | array items =>
    simp only [Value.texts?, textList, Value.array.injEq, mapM_eq_some_iff, text?_eq_some_iff]
    rw [← List.forall₂_map_right_iff (R := Eq), List.forall₂_eq_eq_eq]
  | _ => simp [Value.texts?, textList]

end Switchboard.Wire
