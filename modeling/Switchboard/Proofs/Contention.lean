import Switchboard.Proofs.Circles

/-!
# Changes at the same time

Whoever takes the last member out of a circle sees that it is empty, lets go of it, and takes it out
in a later step. Who comes in between is taken out with it, as no order of the calls would do. Short
of that nothing is lost. What a call does at once is an `Act`, and the last act to touch a user in a
circle decides about the two; as long as no circle is taken out with anyone in it, the acts come to
what the calls come to one after the other, in the order in which they began.
-/

namespace Switchboard.Membership

/-! ## Calls, act by act -/

/-- What a call does to the membership at once. -/
inductive Act where
  | add (circle user : String)
  | dismiss (circle user : String)
  | dissolve (circle : String)
  deriving DecidableEq, Repr

def Act.perform (m : Membership) : Act → Membership
  | .add circle user => m.add circle user
  | .dismiss circle user => m.dismiss circle user
  | .dissolve circle => m.dissolve circle

/-- Whether an act decides if a user is in a circle. -/
def Act.Touches (circle user : String) : Act → Prop
  | .add c u | .dismiss c u => c = circle ∧ u = user
  | .dissolve c => c = circle

/-- The call that an act is the first of. -/
def Act.begins? : Act → Option Change
  | .add circle user => some (.add circle user)
  | .dismiss circle user => some (.remove circle user)
  | .dissolve _ => none

/-- How far a call has come. -/
inductive Stage where
  | waiting
  /-- The circle was left empty and let go of, and is to be taken out. -/
  | leaving
  | over
  deriving DecidableEq, Repr

def Change.circle : Change → String
  | .add circle _ | .remove circle _ => circle

/-- What a call does next, and how far it has come then. -/
def Change.next? (m : Membership) : Change → Stage → Option (Act × Stage)
  | .add circle user, .waiting => some (.add circle user, .over)
  | .remove circle user, .waiting =>
    some (.dismiss circle user,
      if (m.dismiss circle user).isDeserted circle then .leaving else .over)
  | .remove circle _, .leaving => some (.dissolve circle, .over)
  | _, _ => none

/-- A membership that several calls are changing. -/
structure Contention where
  membership : Membership
  calls : List (Change × Stage)
  /-- What has been done, the first act first. -/
  log : List Act
  deriving DecidableEq, Repr

namespace Contention

def start (m : Membership) (changes : List Change) : Contention :=
  ⟨m, changes.map (·, .waiting), []⟩

/-- Lets one of the calls go on. -/
def act? (s : Contention) (k : Nat) : Option Contention :=
  match s.calls[k]? with
  | none => none
  | some (change, stage) =>
    (change.next? s.membership stage).map fun (act, stage) =>
      ⟨act.perform s.membership, s.calls.set k (change, stage), s.log ++ [act]⟩

/-- Lets calls go on in the order given. -/
def run? (s : Contention) (schedule : List Nat) : Option Contention := schedule.foldlM act? s

def IsOver (s : Contention) : Prop := ∀ call ∈ s.calls, call.2 = .over

/-- The calls that have begun, the first of them first. -/
def order (s : Contention) : List Change := s.log.filterMap Act.begins?

end Contention

/-- No circle has been taken out with anyone in it. -/
def Considerate (m : Membership) (log : List Act) : Prop :=
  ∀ before circle later, log = before ++ .dissolve circle :: later →
    ∀ user, (before.foldl Act.perform m).isMember circle user = false

/-- The same circles with the same members. -/
def Same (m m' : Membership) : Prop :=
  ∀ circle, (m.circles.lookup circle).isSome = (m'.circles.lookup circle).isSome ∧
    ∀ user, m.isMember circle user = m'.isMember circle user

variable {m m' : Membership} {c u : String}

/-! ## What a circle holds, and whether it is there -/

theorem isSome_lookup_iff : (m.circles.lookup c).isSome = true ↔
    m.isDeserted c = true ∨ ∃ u, m.isMember c u = true := by
  simp only [isDeserted_iff, isMember_iff]
  cases m.circles.lookup c with
  | none => simp
  | some us =>
    cases us with
    | nil => simp
    | cons user us => exact ⟨fun _ => .inr ⟨user, by simp⟩, fun _ => rfl⟩

theorem same_of (hd : ∀ c, m.isDeserted c = true ↔ m'.isDeserted c = true)
    (hm : ∀ c u, m.isMember c u = m'.isMember c u) : m.Same m' := by
  intro c
  refine ⟨?_, hm c⟩
  rw [Bool.eq_iff_iff, isSome_lookup_iff, isSome_lookup_iff, hd c]
  simp only [hm c]

theorem isDeserted_change (m : Membership) (change : Change) :
    (m.change change).isDeserted c = true ↔ change.circle ≠ c ∧ m.isDeserted c = true := by
  cases change with
  | add circle user => exact isDeserted_add.trans (and_congr_left' ne_comm)
  | remove circle user => exact isDeserted_remove.trans (and_congr_left' ne_comm)

/-- A circle that was left empty before stays so only as long as no call is about it. -/
theorem isDeserted_after (m : Membership) (history : List Change) :
    (m.after history).isDeserted c = true ↔
      (∀ change ∈ history, change.circle ≠ c) ∧ m.isDeserted c = true := by
  induction history using List.reverseRecOn with
  | nil => simp [after]
  | append_singleton history last ih =>
    rw [after_snoc, isDeserted_change, ih]
    simp only [List.mem_append, List.mem_singleton, or_imp, forall_and, forall_eq]
    constructor
    · rintro ⟨hlast, hall, hm⟩
      exact ⟨⟨hall, hlast⟩, hm⟩
    · rintro ⟨⟨hall, hlast⟩, hm⟩
      exact ⟨hlast, hall, hm⟩

/-! ## Acts -/

theorem isMember_perform (m : Membership) (act : Act) :
    (act.perform m).isMember c u = true ↔
      act = .add c u ∨ ¬ act.Touches c u ∧ m.isMember c u = true := by
  cases act with
  | add circle user =>
    refine (isMember_change m (.add circle user)).trans ?_
    simp [Act.Touches, Change.Names]
  | dismiss circle user =>
    rw [Act.perform, isMember_dismiss, Act.Touches, @eq_comm _ c, @eq_comm _ u]
    simp
  | dissolve circle =>
    rw [Act.perform, isMember_dissolve, Act.Touches, ne_comm]
    simp

/-- The last act to touch a user in a circle decides. -/
theorem isMember_perform_log (m : Membership) (log : List Act) :
    (log.foldl Act.perform m).isMember c u = true ↔
      Prevails (· = .add c u) (Act.Touches c u) log ∨
        m.isMember c u = true ∧ ∀ act ∈ log, ¬ act.Touches c u :=
  isMember_foldl isMember_perform m log

/-- If no circle is taken out with anyone in it, what was begun has been done in that order. -/
theorem isMember_order {log : List Act} (h : Considerate m log) :
    (log.foldl Act.perform m).isMember c u =
      (m.after (log.filterMap Act.begins?)).isMember c u := by
  induction log using List.reverseRecOn with
  | nil => rfl
  | append_singleton log last ih =>
    have hlog : Considerate m log := by
      intro before circle later heq
      exact h before circle (later ++ [last]) (by simp [heq])
    have ih := ih hlog
    rw [List.foldl_append, List.filterMap_append]
    rw [Bool.eq_iff_iff] at ih ⊢
    rw [List.foldl_cons, List.foldl_nil, isMember_perform, ih]
    cases last with
    | add circle user =>
      rw [show [Act.add circle user].filterMap Act.begins? = [.add circle user] from rfl,
        after_snoc, isMember_change]
      simp [Act.Touches, Change.Names]
    | dismiss circle user =>
      rw [show [Act.dismiss circle user].filterMap Act.begins? = [.remove circle user] from rfl,
        after_snoc, isMember_change]
      simp [Act.Touches, Change.Names]
    | dissolve circle =>
      -- nobody is in the circle that goes, so nobody goes with it
      have hempty := h log circle [] rfl
      rw [show [Act.dissolve circle].filterMap Act.begins? = [] from rfl, List.append_nil]
      simp only [reduceCtorEq, false_or, Act.Touches, and_iff_right_iff_imp]
      rintro hmem rfl
      rw [← ih, hempty u] at hmem
      cases hmem

/-! ## What is kept from act to act -/

/-- What one call does when it goes on. -/
theorem next?_cases {change : Change} {stage stage' : Stage} {act : Act}
    (h : change.next? m stage = some (act, stage')) :
    (∃ circle user, change = .add circle user ∧ stage = .waiting ∧ act = .add circle user ∧
      stage' = .over) ∨
    (∃ circle user, change = .remove circle user ∧ stage = .waiting ∧
      act = .dismiss circle user ∧
      stage' = if (m.dismiss circle user).isDeserted circle then .leaving else .over) ∨
    ∃ circle user, change = .remove circle user ∧ stage = .leaving ∧ act = .dissolve circle ∧
      stage' = .over := by
  unfold Change.next? at h
  split at h
  · obtain ⟨rfl, rfl⟩ := Prod.mk.inj (Option.some.inj h)
    exact .inl ⟨_, _, rfl, rfl, rfl, rfl⟩
  · obtain ⟨rfl, rfl⟩ := Prod.mk.inj (Option.some.inj h)
    exact .inr (.inl ⟨_, _, rfl, rfl, rfl, rfl⟩)
  · obtain ⟨rfl, rfl⟩ := Prod.mk.inj (Option.some.inj h)
    exact .inr (.inr ⟨_, _, rfl, rfl, rfl, rfl⟩)
  · cases h

theorem exists_split {α : Type} {l : List α} {k : Nat} {a : α} (h : l[k]? = some a) :
    ∃ before later, l = before ++ a :: later ∧ ∀ b, l.set k b = before ++ b :: later := by
  obtain ⟨hk, rfl⟩ := List.getElem?_eq_some_iff.mp h
  refine ⟨l.take k, l.drop (k + 1), ?_, fun b => ?_⟩
  · rw [List.getElem_cons_drop, List.take_append_drop]
  · exact List.set_eq_take_append_cons_drop ▸ by simp [hk]

namespace Contention

variable {s s' : Contention} {changes : List Change} {k : Nat}

theorem act?_eq_some (h : s.act? k = some s') :
    ∃ change stage act stage' before later, s.calls = before ++ (change, stage) :: later ∧
      change.next? s.membership stage = some (act, stage') ∧
      s' = ⟨act.perform s.membership, before ++ (change, stage') :: later, s.log ++ [act]⟩ := by
  unfold act? at h
  split at h
  · cases h
  · rename_i change stage hk
    obtain ⟨⟨act, stage'⟩, hnext, rfl⟩ := Option.map_eq_some_iff.mp h
    obtain ⟨before, later, hcalls, hset⟩ := exists_split hk
    exact ⟨change, stage, act, stage', before, later, hcalls, hnext, by rw [← hset]⟩

/-- The calls that have begun, as they stand in the list. -/
def begun (calls : List (Change × Stage)) : List Change :=
  (calls.filter (·.2 ≠ .waiting)).map Prod.fst

/-- Some call is about to take a circle out. -/
def Leaves (calls : List (Change × Stage)) (circle : String) : Prop :=
  ∃ call ∈ calls, call.2 = .leaving ∧ call.1.circle = circle

theorem mem_begun {calls : List (Change × Stage)} (call : Change × Stage) (h : call ∈ calls)
    (hs : call.2 ≠ .waiting) : call.1 ∈ begun calls :=
  List.mem_map_of_mem (List.mem_filter.mpr ⟨h, by simpa using hs⟩)

/-- A call that begins is begun once more than before. -/
theorem perm_begun {before later : List (Change × Stage)} {change : Change} {stage : Stage}
    {order : List Change} (hs : stage ≠ .waiting)
    (h : order.Perm (begun (before ++ (change, .waiting) :: later))) :
    (order ++ [change]).Perm (begun (before ++ (change, stage) :: later)) := by
  have hbegun : begun (before ++ (change, stage) :: later) =
      begun before ++ change :: begun later := by
    simp [begun, hs]
  have hwaiting : begun (before ++ (change, .waiting) :: later) = begun before ++ begun later := by
    simp [begun]
  rw [hwaiting] at h
  rw [hbegun]
  exact (List.perm_append_comm.trans (h.cons change)).trans List.perm_middle.symm

theorem Leaves.of_other {before later : List (Change × Stage)} {call call' : Change × Stage}
    (h : Leaves (before ++ call :: later) c) (hne : call.2 = .leaving → call.1.circle ≠ c) :
    Leaves (before ++ call' :: later) c := by
  obtain ⟨found, hfound, hstage, hcircle⟩ := h
  rcases List.mem_append.mp hfound with hin | hin
  · exact ⟨found, by simp [hin], hstage, hcircle⟩
  · rcases List.mem_cons.mp hin with rfl | hin
    · exact absurd hcircle (hne hstage)
    · exact ⟨found, by simp [hin], hstage, hcircle⟩

/-- What holds between any two acts. -/
structure Kept (m : Membership) (changes : List Change) (s : Contention) : Prop where
  membership : s.membership = s.log.foldl Act.perform m
  calls : s.calls.map Prod.fst = changes
  order : s.order.Perm (begun s.calls)
  /-- An empty circle is about to go, or was there before and no call has been about it. -/
  deserted : ∀ c, s.membership.isDeserted c = true → Leaves s.calls c ∨
    (∀ change ∈ s.order, change.circle ≠ c) ∧ m.isDeserted c = true
  untouched : ∀ c, (∀ change ∈ s.order, change.circle ≠ c) → m.isDeserted c = true →
    s.membership.isDeserted c = true
  /-- Only who takes members out of a circle touches it otherwise than by adding. -/
  origin : ∀ act ∈ s.log, ∀ c u, act.Touches c u →
    act = .add c u ∨ ∃ user, Change.remove c user ∈ changes

theorem kept_start (m : Membership) (changes : List Change) : Kept m changes (start m changes) where
  membership := rfl
  calls := by simp [start, Function.comp_def]
  order := by
    have : begun (start m changes).calls = [] := by
      simp [begun, start]
    rw [this]
    exact .nil
  deserted := fun c h => .inr ⟨fun change hc => by simp [order, start] at hc, h⟩
  untouched := fun c _ h => h
  origin := fun act hact => by simp [start] at hact

theorem order_snoc (s : Contention) (m : Membership) (calls : List (Change × Stage)) (act : Act) :
    Contention.order ⟨m, calls, s.log ++ [act]⟩ = s.order ++ act.begins?.toList := by
  rw [Contention.order, Contention.order, List.filterMap_append]
  cases act <;> rfl

theorem Kept.act (hk : Kept m changes s) (h : s.act? k = some s') : Kept m changes s' := by
  obtain ⟨change, stage, act, stage', before, later, hcalls, hnext, rfl⟩ := act?_eq_some h
  obtain ⟨hmembership, hchanges, horder, hdeserted, huntouched, horigin⟩ := hk
  have hmem : change ∈ changes := by
    rw [← hchanges, hcalls]
    simp
  have hchanges' : (before ++ (change, stage') :: later).map Prod.fst = changes := by
    rw [← hchanges, hcalls]
    simp
  have hlog : act.perform s.membership = (s.log ++ [act]).foldl Act.perform m := by
    rw [hmembership, List.foldl_append, List.foldl_cons, List.foldl_nil]
  have horigin' : (∀ c u, act.Touches c u → act = .add c u ∨ ∃ user, .remove c user ∈ changes) →
      ∀ other ∈ s.log ++ [act], ∀ c u, other.Touches c u →
        other = .add c u ∨ ∃ user, .remove c user ∈ changes := by
    intro hact other hother
    rcases List.mem_append.mp hother with hother | hother
    · exact horigin other hother
    · exact List.mem_singleton.mp hother ▸ hact
  have hsnoc := order_snoc s (act.perform s.membership) (before ++ (change, stage') :: later) act
  rw [hcalls] at horder hdeserted
  rcases next?_cases hnext with ⟨circle, user, rfl, rfl, rfl, rfl⟩ |
    ⟨circle, user, rfl, rfl, rfl, hstage⟩ | ⟨circle, user, rfl, rfl, rfl, rfl⟩
  · -- a user is added, and the call is over
    refine ⟨hlog, hchanges', ?_, ?_, ?_, horigin' ?_⟩
    · rw [hsnoc]
      exact perm_begun (by simp) horder
    · intro c hc
      obtain ⟨hne, hc⟩ := isDeserted_add.mp hc
      rw [hsnoc]
      rcases hdeserted c hc with hleaves | ⟨hall, hm⟩
      · exact .inl (hleaves.of_other fun hstage => by cases hstage)
      · refine .inr ⟨List.forall_mem_append.mpr ⟨hall, ?_⟩, hm⟩
        simpa [Act.begins?, Change.circle] using hne.symm
    · intro c hall hm
      rw [hsnoc] at hall
      obtain ⟨hall, hlast⟩ := List.forall_mem_append.mp hall
      have hne : circle ≠ c := hlast (.add circle user) (by simp [Act.begins?])
      exact isDeserted_add.mpr ⟨hne.symm, huntouched c hall hm⟩
    · rintro c u ⟨rfl, rfl⟩
      exact .inl rfl
  · -- a member is taken out, and the call goes on if the circle is left empty
    refine ⟨hlog, hchanges', ?_, ?_, ?_, horigin' ?_⟩
    · rw [hsnoc]
      refine perm_begun ?_ horder
      rw [hstage]
      split <;> simp
    · intro c hc
      rw [hsnoc]
      by_cases hne : c = circle
      · -- this very call has left the circle empty, and will take it out
        subst hne
        have hleaving : stage' = .leaving := hstage.trans (if_pos hc)
        exact .inl ⟨(.remove c user, stage'), by simp, hleaving, rfl⟩
      · rw [Act.perform, isDeserted_dismiss_of_ne hne] at hc
        rcases hdeserted c hc with hleaves | ⟨hall, hm⟩
        · exact .inl (hleaves.of_other fun hstage => by cases hstage)
        · refine .inr ⟨List.forall_mem_append.mpr ⟨hall, ?_⟩, hm⟩
          simpa [Act.begins?, Change.circle] using Ne.symm hne
    · intro c hall hm
      rw [hsnoc] at hall
      obtain ⟨hall, hlast⟩ := List.forall_mem_append.mp hall
      have hne : circle ≠ c := hlast (.remove circle user) (by simp [Act.begins?])
      exact (isDeserted_dismiss_of_ne hne.symm).trans (huntouched c hall hm)
    · rintro c u ⟨rfl, rfl⟩
      exact .inr ⟨_, hmem⟩
  · -- the circle is taken out; the call began before, so the order is the same
    have hsame : Contention.order ⟨(Act.dissolve circle).perform s.membership,
        before ++ (.remove circle user, .over) :: later, s.log ++ [.dissolve circle]⟩ =
        s.order := by
      rw [hsnoc]
      simp [Act.begins?]
    refine ⟨hlog, hchanges', ?_, ?_, ?_, horigin' ?_⟩
    · rw [hsame]
      simpa [begun] using horder
    · intro c hc
      obtain ⟨hne, hc⟩ := isDeserted_dissolve.mp hc
      rw [hsame]
      rcases hdeserted c hc with hleaves | huntouched
      · exact .inl (hleaves.of_other fun _ => Ne.symm hne)
      · exact .inr huntouched
    · intro c hall hm
      rw [hsame] at hall
      -- the call that takes the circle out has begun before
      have hbegan : Change.remove circle user ∈ s.order :=
        horder.mem_iff.mpr (mem_begun (.remove circle user, .leaving) (by simp) (by simp))
      exact isDeserted_dissolve.mpr ⟨(hall _ hbegan).symm, huntouched c hall hm⟩
    · rintro c u rfl
      exact .inr ⟨_, hmem⟩

theorem Kept.run {schedule : List Nat} (hk : Kept m changes s)
    (h : s.run? schedule = some s') : Kept m changes s' := by
  induction schedule generalizing s with
  | nil => exact Option.some.inj h ▸ hk
  | cons k schedule ih =>
    obtain ⟨next, hact, hrun⟩ := Option.bind_eq_some_iff.mp h
    exact ih (hk.act hact) hrun

theorem perm_of_isOver (hk : Kept m changes s) (h : s.IsOver) : s.order.Perm changes := by
  have hbegun : begun s.calls = changes := by
    rw [begun, List.filter_eq_self.mpr, hk.calls]
    intro call hcall
    simp [h call hcall]
  exact hbegun ▸ hk.order

/-- Once every call is over, an empty circle is one that no call has been about. -/
theorem isDeserted_of_isOver (hk : Kept m changes s) (h : s.IsOver) :
    s.membership.isDeserted c = true ↔ (m.after s.order).isDeserted c = true := by
  rw [isDeserted_after]
  constructor
  · intro hc
    rcases hk.deserted c hc with ⟨call, hcall, hleaving, -⟩ | huntouched
    · rw [h call hcall] at hleaving
      cases hleaving
    · exact huntouched
  · rintro ⟨hall, hm⟩
    exact hk.untouched c hall hm

/-- A call that is carried out with no other in between is a change of its own. -/
theorem alone (m : Membership) (change : Change) :
    ∃ schedule final, (start m [change]).run? schedule = some final ∧ final.IsOver ∧
      final.membership = m.change change := by
  cases change with
  | add circle user =>
    refine ⟨[0], ⟨m.add circle user, [(.add circle user, .over)], [.add circle user]⟩, rfl, ?_, rfl⟩
    intro call hcall
    rw [List.mem_singleton.mp hcall]
  | remove circle user =>
    by_cases h : (m.dismiss circle user).isDeserted circle = true
    · refine ⟨[0, 0], ⟨(m.dismiss circle user).dissolve circle, [(.remove circle user, .over)],
        [.dismiss circle user, .dissolve circle]⟩, ?_, ?_, ?_⟩
      · simp [run?, act?, start, Change.next?, h, Act.perform]
      · intro call hcall
        rw [List.mem_singleton.mp hcall]
      · simp [change, remove, h]
    · refine ⟨[0], ⟨m.dismiss circle user, [(.remove circle user, .over)],
        [.dismiss circle user]⟩, ?_, ?_, ?_⟩
      · simp [run?, act?, start, Change.next?, h, Act.perform]
      · intro call hcall
        rw [List.mem_singleton.mp hcall]
      · simp [change, remove, h]

end Contention

/-! ## Some order of the calls -/

/--
**Contention.** Let any calls change any membership, act by act, until all are over. A user is in a
circle at the end if and only if the last act to touch the two was to add the user, or none has
touched them and the user was there. Nobody is lost who is added to a circle that no call takes
anyone out of. And if no circle was taken out with anyone in it, the circles and their members are
those which the calls leave one after the other, in the order in which they began, so that whoever
was added and is taken out by no call is there.
-/
theorem settled_by_last_act (m : Membership) (changes : List Change) (schedule : List Nat)
    (final : Contention) (hrun : (Contention.start m changes).run? schedule = some final)
    (hover : final.IsOver) :
    (∀ c u, final.membership.isMember c u = true ↔
      Prevails (· = .add c u) (Act.Touches c u) final.log ∨
        m.isMember c u = true ∧ ∀ act ∈ final.log, ¬ act.Touches c u) ∧
    (∀ c u, .add c u ∈ changes → (∀ user, .remove c user ∉ changes) →
      final.membership.isMember c u = true) ∧
    (Considerate m final.log →
      final.order.Perm changes ∧ Same final.membership (m.after final.order) ∧
      ∀ c u, .add c u ∈ changes → .remove c u ∉ changes →
        final.membership.isMember c u = true) := by
  have hk := (Contention.kept_start m changes).run hrun
  have hperm := Contention.perm_of_isOver hk hover
  refine ⟨?_, ?_, ?_⟩
  · intro c u
    rw [hk.membership]
    exact isMember_perform_log m final.log
  · intro c u hadd hremove
    rw [hk.membership]
    refine (isMember_perform_log m final.log).mpr (.inl (prevails_of_mem ?_ ?_))
    · obtain ⟨act, hact, hbegins⟩ := List.mem_filterMap.mp (hperm.mem_iff.mpr hadd)
      cases act with
      | add circle user =>
        obtain ⟨rfl, rfl⟩ := Change.add.inj (Option.some.inj hbegins)
        exact ⟨_, hact, rfl⟩
      | dismiss | dissolve => cases hbegins
    · intro act hact htouches
      rcases hk.origin act hact c u htouches with heq | ⟨user, huser⟩
      · exact heq
      · exact absurd huser (hremove user)
  · intro hconsiderate
    have hmember : ∀ c u, final.membership.isMember c u = (m.after final.order).isMember c u := by
      intro c u
      rw [hk.membership]
      exact isMember_order hconsiderate
    refine ⟨hperm, same_of (fun c => Contention.isDeserted_of_isOver hk hover) hmember, ?_⟩
    intro c u hadd hremove
    rw [hmember, isMember_after]
    refine .inl (prevails_of_mem ⟨_, hperm.mem_iff.mpr hadd, rfl⟩ ?_)
    intro change hchange hnames
    cases change with
    | add circle user =>
      obtain ⟨rfl, rfl⟩ := hnames
      rfl
    | remove circle user =>
      obtain ⟨rfl, rfl⟩ := hnames
      exact absurd (hperm.mem_iff.mp hchange) hremove

namespace Contest

/-- Ada is alone in her circle. -/
def before : Membership := Membership.empty.add "1" "ada"

/-- Ada is taken out while bob is added. -/
def calls : List Change := [.remove "1" "ada", .add "1" "bob"]

/-- The circle is empty for a moment, bob comes in, and the circle goes. -/
def lost : Contention :=
  ⟨⟨[]⟩, calls.map (·, .over), [.dismiss "1" "ada", .add "1" "bob", .dissolve "1"]⟩

/-- Bob comes in before ada is taken out. -/
def kept : Contention :=
  ⟨⟨[("1", ["bob"])]⟩, calls.map (·, .over), [.add "1" "bob", .dismiss "1" "ada"]⟩

end Contest

open Contest in
/-- Bob has been added and nobody takes him out, but he is gone, as after no order of the calls. -/
theorem enrolment_lost :
    (Contention.start before calls).run? [0, 1, 0] = some lost ∧ lost.IsOver ∧
      .add "1" "bob" ∈ calls ∧ .remove "1" "bob" ∉ calls ∧
      lost.membership.isMember "1" "bob" = false ∧
      ∀ order : List Change, order.Perm calls →
        (before.after order).isMember "1" "bob" = true ∧
          ¬ Same lost.membership (before.after order) := by
  refine ⟨by decide +kernel, by unfold Contention.IsOver; decide +kernel, by decide, by decide,
    by decide +kernel, ?_⟩
  intro order horder
  have hbob : (before.after order).isMember "1" "bob" = true := by
    refine (isMember_after before order).mpr
      (.inl (prevails_of_mem ⟨_, horder.mem_iff.mpr (by decide), rfl⟩ ?_))
    intro change hchange hnames
    have hin := horder.mem_iff.mp hchange
    simp only [calls, List.mem_cons, List.not_mem_nil, or_false] at hin
    rcases hin with rfl | rfl
    · exact absurd hnames.2 (by decide)
    · rfl
  refine ⟨hbob, fun hsame => ?_⟩
  have hlost : lost.membership.isMember "1" "bob" = false := by decide +kernel
  rw [(hsame "1").2 "bob", hbob] at hlost
  cases hlost

open Contest in
/-- When bob comes in first, the circle is not empty and stays. -/
theorem settled_by_last_act_kept :
    (Contention.start before calls).run? [1, 0] = some kept ∧ kept.IsOver ∧
      Considerate before kept.log ∧ kept.order.Perm calls ∧
      Same kept.membership (before.after [.add "1" "bob", .remove "1" "ada"]) ∧
      kept.membership.isMember "1" "bob" = true := by
  have hrun : (Contention.start before calls).run? [1, 0] = some kept := by decide +kernel
  have hover : kept.IsOver := by
    unfold Contention.IsOver
    decide +kernel
  have hconsiderate : Considerate before kept.log := by
    intro early circle later heq
    have : Act.dissolve circle ∈ kept.log := heq ▸ by simp
    simp [kept] at this
  obtain ⟨-, -, h⟩ := settled_by_last_act before calls [1, 0] kept hrun hover
  obtain ⟨hperm, hsame, hin⟩ := h hconsiderate
  exact ⟨hrun, hover, hconsiderate, hperm, hsame, hin "1" "bob" (by decide) (by decide)⟩

end Switchboard.Membership
