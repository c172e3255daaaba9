import Mathlib.Data.List.Induction
import Switchboard.Membership

/-!
# Who belongs to which circle

Each operation on the membership is said here by what it makes of `isMember`, so that the table of
circles need not be opened again. A circle that is deserted answers as one that is not there, which
is why nobody's answer depends on when such a circle is taken out. After any history a user belongs
to a circle if the last change that names the two was to add them.
-/

namespace Switchboard

namespace Membership

variable {m : Membership} {circle user c u : String}

/-! ## What the operations make of the table -/

/-- A change to the users of one circle is seen under that circle alone. -/
theorem lookup_map_circle (circles : List (String × List String)) (circle c : String)
    (f : List String → List String) :
    (circles.map fun (name, us) => (name, if name = circle then f us else us)).lookup c =
      (circles.lookup c).map fun us => if c = circle then f us else us := by
  induction circles with
  | nil => rfl
  | cons p rest ih =>
    obtain ⟨name, us⟩ := p
    simp only [List.map_cons, List.lookup_cons, ih]
    cases hc : c == name with
    | true => simp [beq_iff_eq.mp hc]
    | false => rfl

theorem lookup_filter_ne (circles : List (String × List String)) (circle c : String) :
    (circles.filter (·.1 ≠ circle)).lookup c =
      if c = circle then none else circles.lookup c := by
  induction circles with
  | nil => simp
  | cons p rest ih =>
    obtain ⟨name, us⟩ := p
    by_cases hname : name = circle
    · subst hname
      simp only [ne_eq, not_true, decide_false, Bool.false_eq_true, not_false_eq_true,
        List.filter_cons_of_neg, ih, List.lookup_cons]
      by_cases hc : c = name
      · simp [hc]
      · simp [hc, beq_eq_false_iff_ne.mpr hc]
    · simp only [ne_eq, hname, not_false_eq_true, decide_true, List.filter_cons_of_pos,
        List.lookup_cons, ih]
      by_cases hc : c = name
      · simp [hc, hname]
      · simp [beq_eq_false_iff_ne.mpr hc]

theorem lookup_add (m : Membership) (circle user c : String) :
    (m.add circle user).circles.lookup c =
      if c = circle then some (enrol user (m.members circle)) else m.circles.lookup c := by
  have hany : m.circles.any (·.1 = circle) = (m.circles.lookup circle).isSome := by
    induction m.circles with
    | nil => rfl
    | cons p rest ih =>
      obtain ⟨name, us⟩ := p
      rw [List.any_cons, List.lookup_cons, ih]
      by_cases hname : name = circle
      · simp [hname]
      · simp [hname, beq_eq_false_iff_ne.mpr (Ne.symm hname)]
  unfold add
  rw [hany]
  cases hus : m.circles.lookup circle with
  | some us =>
    simp only [Option.isSome_some, if_true, lookup_map_circle]
    by_cases hc : c = circle
    · simp [hc, hus, members]
    · simp [hc]
  | none =>
    simp only [Option.isSome_none, Bool.false_eq_true, if_false, List.lookup_append]
    by_cases hc : c = circle
    · simp [hc, hus, members, enrol]
    · simp [List.lookup_cons, hc, beq_eq_false_iff_ne.mpr hc]

theorem lookup_dismiss (m : Membership) (circle user c : String) :
    (m.dismiss circle user).circles.lookup c =
      (m.circles.lookup c).map fun us => if c = circle then us.filter (· ≠ user) else us :=
  lookup_map_circle ..

theorem lookup_dissolve (m : Membership) (circle c : String) :
    (m.dissolve circle).circles.lookup c = if c = circle then none else m.circles.lookup c :=
  lookup_filter_ne ..

/-! ## What the operations make of the members -/

theorem mem_enrol {users : List String} : u ∈ enrol user users ↔ u = user ∨ u ∈ users := by
  unfold enrol
  split
  · rename_i h
    have hin : user ∈ users := by simpa using h
    constructor
    · exact .inr
    · rintro (rfl | h)
      · exact hin
      · exact h
  · rw [List.mem_append, List.mem_singleton, or_comm]

theorem isMember_iff : m.isMember c u = true ↔ u ∈ (m.circles.lookup c).getD [] := by
  simp [isMember, members]

theorem isMember_add : (m.add circle user).isMember c u = true ↔
    (c = circle ∧ u = user) ∨ m.isMember c u = true := by
  rw [isMember_iff, isMember_iff, lookup_add]
  by_cases hc : c = circle
  · simp [hc, mem_enrol, members]
  · simp [hc]

theorem isMember_dismiss : (m.dismiss circle user).isMember c u = true ↔
    ¬ (c = circle ∧ u = user) ∧ m.isMember c u = true := by
  rw [isMember_iff, isMember_iff, lookup_dismiss]
  cases hus : m.circles.lookup c with
  | none => simp
  | some us =>
    by_cases hc : c = circle
    · simp [hc, and_comm]
    · simp [hc]

theorem isMember_dissolve : (m.dissolve circle).isMember c u = true ↔
    c ≠ circle ∧ m.isMember c u = true := by
  rw [isMember_iff, isMember_iff, lookup_dissolve]
  by_cases hc : c = circle
  · simp [hc]
  · simp [hc]

theorem isDeserted_iff : m.isDeserted c = true ↔ m.circles.lookup c = some [] := by
  simp [isDeserted]

/-- Nobody is in a circle that is deserted. -/
theorem isMember_of_isDeserted (h : m.isDeserted circle = true) : m.isMember circle u = false := by
  simp [isMember, members, isDeserted_iff.mp h]

/-- To take out a deserted circle changes nothing that can be asked. -/
theorem isMember_dissolve_of_isDeserted (h : m.isDeserted circle = true) :
    (m.dissolve circle).isMember c u = m.isMember c u := by
  rw [Bool.eq_iff_iff, isMember_dissolve]
  constructor
  · exact And.right
  · intro hm
    refine ⟨?_, hm⟩
    rintro rfl
    rw [isMember_of_isDeserted h] at hm
    cases hm

/-- Whether a circle left empty is kept or not makes no difference to any answer. -/
theorem isMember_remove_eq :
    (m.remove circle user).isMember c u = (m.dismiss circle user).isMember c u := by
  unfold remove
  dsimp only
  split
  · rename_i h
    exact isMember_dissolve_of_isDeserted h
  · rfl

theorem isMember_remove : (m.remove circle user).isMember c u = true ↔
    ¬ (c = circle ∧ u = user) ∧ m.isMember c u = true := by
  rw [isMember_remove_eq, isMember_dismiss]

@[simp] theorem isMember_empty : empty.isMember c u = false := rfl

/-! ## Circles left empty -/

theorem isDeserted_add : (m.add circle user).isDeserted c = true ↔
    c ≠ circle ∧ m.isDeserted c = true := by
  rw [isDeserted_iff, isDeserted_iff, lookup_add]
  by_cases hc : c = circle
  · -- whoever has been added is in it
    have : enrol user (m.members circle) ≠ [] := fun heq => by
      have := mem_enrol.mpr (.inl rfl : user = user ∨ user ∈ m.members circle)
      simp [heq] at this
    simp [hc, this]
  · simp [hc]

theorem isDeserted_dismiss_of_ne (hc : c ≠ circle) :
    (m.dismiss circle user).isDeserted c = m.isDeserted c := by
  rw [Bool.eq_iff_iff, isDeserted_iff, isDeserted_iff, lookup_dismiss]
  simp [hc]

theorem isDeserted_dissolve : (m.dissolve circle).isDeserted c = true ↔
    c ≠ circle ∧ m.isDeserted c = true := by
  rw [isDeserted_iff, isDeserted_iff, lookup_dissolve]
  by_cases hc : c = circle
  · simp [hc]
  · simp [hc]

theorem isDeserted_remove : (m.remove circle user).isDeserted c = true ↔
    c ≠ circle ∧ m.isDeserted c = true := by
  unfold remove
  dsimp only
  by_cases hc : c = circle
  · subst hc
    split
    · simp [isDeserted_dissolve]
    · rename_i h
      simp [h]
  · split
    · simp [isDeserted_dissolve, isDeserted_dismiss_of_ne hc]
    · simp [isDeserted_dismiss_of_ne hc, hc]

/-! ## Histories -/

/-- The last of some events to touch a matter is one that settles it. -/
def Prevails {α : Type} (settles touches : α → Prop) (events : List α) : Prop :=
  ∃ before event later, events = before ++ event :: later ∧ settles event ∧
    ∀ other ∈ later, ¬ touches other

section Prevailing

variable {α : Type} {settles touches : α → Prop}

theorem prevails_nil : ¬ Prevails settles touches [] := by
  rintro ⟨before, event, later, heq, -⟩
  simp at heq

theorem prevails_snoc (events : List α) (last : α) :
    Prevails settles touches (events ++ [last]) ↔
      settles last ∨ ¬ touches last ∧ Prevails settles touches events := by
  constructor
  · rintro ⟨before, event, later, heq, hsettles, hlater⟩
    -- the event that settles it is the last one, or the last one is among those that leave it be
    rcases later.eq_nil_or_concat with rfl | ⟨later, x, rfl⟩
    · obtain ⟨-, hlast⟩ := List.append_inj' heq rfl
      exact .inl (List.singleton_inj.mp hlast ▸ hsettles)
    · rw [List.concat_eq_append, ← List.cons_append, ← List.append_assoc] at heq
      obtain ⟨hevents, hlast⟩ := List.append_inj' heq rfl
      obtain rfl := List.singleton_inj.mp hlast
      refine .inr ⟨hlater _ (by simp), before, event, later, hevents, hsettles, ?_⟩
      intro other hother
      exact hlater other (by simp [hother])
  · rintro (hsettles | ⟨hlast, before, event, later, rfl, hsettles, hlater⟩)
    · exact ⟨events, last, [], rfl, hsettles, fun other hother => by simp at hother⟩
    · refine ⟨before, event, later ++ [last], by simp, hsettles, fun other hother => ?_⟩
      rcases List.mem_append.mp hother with hother | hother
      · exact hlater other hother
      · exact List.mem_singleton.mp hother ▸ hlast

/-- Where nothing else touches the matter, one event that settles it is enough. -/
theorem prevails_of_mem {events : List α} (h : ∃ event ∈ events, settles event)
    (hall : ∀ event ∈ events, touches event → settles event) :
    Prevails settles touches events := by
  induction events using List.reverseRecOn with
  | nil =>
    obtain ⟨event, hevent, -⟩ := h
    simp at hevent
  | append_singleton events last ih =>
    rw [prevails_snoc]
    by_cases hlast : settles last
    · exact .inl hlast
    · refine .inr ⟨fun ht => hlast (hall last (by simp) ht), ih ?_ ?_⟩
      · obtain ⟨event, hevent, hsettles⟩ := h
        rcases List.mem_append.mp hevent with hevent | hevent
        · exact ⟨event, hevent, hsettles⟩
        · exact absurd (List.mem_singleton.mp hevent ▸ hsettles) hlast
      · intro event hevent
        exact hall event (by simp [hevent])

/--
Where some events add a user to a circle, some others touch that and all the rest leave it alone,
the last one to touch it decides, and what was there before does if none has.
-/
theorem isMember_foldl {f : Membership → α → Membership}
    (hf : ∀ m a, (f m a).isMember c u = true ↔
      settles a ∨ ¬ touches a ∧ m.isMember c u = true) (m : Membership) (events : List α) :
    (events.foldl f m).isMember c u = true ↔
      Prevails settles touches events ∨
        m.isMember c u = true ∧ ∀ event ∈ events, ¬ touches event := by
  induction events using List.reverseRecOn with
  | nil => simp [prevails_nil]
  | append_singleton events last ih =>
    rw [List.foldl_append, List.foldl_cons, List.foldl_nil, hf, ih, prevails_snoc]
    constructor
    · rintro (hlast | ⟨hlast, hprevails | ⟨hm, hnone⟩⟩)
      · exact .inl (.inl hlast)
      · exact .inl (.inr ⟨hlast, hprevails⟩)
      · refine .inr ⟨hm, fun event hevent => ?_⟩
        rcases List.mem_append.mp hevent with hevent | hevent
        · exact hnone event hevent
        · exact List.mem_singleton.mp hevent ▸ hlast
    · rintro ((hlast | ⟨hlast, hprevails⟩) | ⟨hm, hnone⟩)
      · exact .inl hlast
      · exact .inr ⟨hlast, .inl hprevails⟩
      · refine .inr ⟨hnone last (by simp), .inr ⟨hm, fun event hevent => ?_⟩⟩
        exact hnone event (by simp [hevent])

end Prevailing

/-- A change that somebody makes to the membership. -/
inductive Change where
  | add (circle user : String)
  | remove (circle user : String)
  deriving DecidableEq, Repr

/-- Whether a change is about a user in a circle. -/
def Change.Names (circle user : String) : Change → Prop
  | .add c u | .remove c u => c = circle ∧ u = user

def change (m : Membership) : Change → Membership
  | .add circle user => m.add circle user
  | .remove circle user => m.remove circle user

/-- The membership after some changes, the first of them first. -/
def after (m : Membership) (history : List Change) : Membership := history.foldl change m

theorem after_snoc (m : Membership) (history : List Change) (last : Change) :
    m.after (history ++ [last]) = (m.after history).change last := by
  simp [after]

/-- The last change that names the two was to add the user. -/
def LastAdded (history : List Change) (circle user : String) : Prop :=
  Prevails (· = .add circle user) (Change.Names circle user) history

theorem isMember_change (m : Membership) (last : Change) :
    (m.change last).isMember c u = true ↔
      last = .add c u ∨ ¬ last.Names c u ∧ m.isMember c u = true := by
  cases last with
  | add circle user =>
    rw [change, isMember_add, Change.add.injEq, Change.Names]
    by_cases h : circle = c ∧ user = u
    · simp [h.1, h.2]
    · have h' : ¬ (c = circle ∧ u = user) := fun ⟨hc, hu⟩ => h ⟨hc.symm, hu.symm⟩
      simp [h, h']
  | remove circle user =>
    rw [change, isMember_remove, Change.Names, @eq_comm _ c, @eq_comm _ u]
    simp

theorem isMember_after (m : Membership) (history : List Change) :
    (m.after history).isMember c u = true ↔ LastAdded history c u ∨
      m.isMember c u = true ∧ ∀ change ∈ history, ¬ change.Names c u :=
  isMember_foldl isMember_change m history

/-- A user belongs to a circle if the last change that names the two was to add them. -/
theorem isMember_after_empty (history : List Change) :
    (empty.after history).isMember c u = true ↔ LastAdded history c u := by
  rw [isMember_after]
  simp

end Membership

end Switchboard
