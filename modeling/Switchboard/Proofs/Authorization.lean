import Switchboard.Authorizer
import Switchboard.Proofs.Circles
import Switchboard.Proofs.Names

/-!
# Authorization and the history of the membership

The authorizer reads the name first, and asks the directory only about a circle. What the directory
says depends on the whole history of the membership, but only through the last change that names
the circle and the user.
-/

namespace Switchboard

open Topic Switchboard.Membership

/-- Who may listen to a topic, by what has happened to the membership. -/
def Identity.MayListen (i : Identity) (history : List Change) : Topic → Prop
  | .posts | .responses | .post _ => True
  | .user id => id = i.userId
  | .circle id => LastAdded history id i.userId

namespace Directory

/-! ## The authorizer, topic by topic -/

section Decisions

variable {d : Directory} {i : Identity} {name id : String} {t : Topic}

theorem authorize_of_none (h : ofName? name = none) :
    d.authorize i name = (.deny .unknownChannel, d) := by
  simp only [authorize, h]

theorem authorize_of_user (h : ofName? name = some (.user id)) :
    d.authorize i name = (if id = i.userId then .allow (.user id) else .deny .notOwner, d) := by
  simp only [authorize, h]

theorem authorize_of_circle (h : ofName? name = some (.circle id)) :
    d.authorize i name =
      (.ofMembership (.circle id) (d.answer i.userId id),
        { d with lookups := d.lookups ++ [⟨id, i.userId, d.answer i.userId id⟩] }) := by
  simp only [authorize, h, ask]

/-- The feeds and the posts are open to everyone. -/
theorem authorize_of_open (h : ofName? name = some t) (hu : ∀ id, t ≠ .user id)
    (hc : ∀ id, t ≠ .circle id) : d.authorize i name = (.allow t, d) := by
  cases t with
  | user id => exact absurd rfl (hu id)
  | circle id => exact absurd rfl (hc id)
  | posts | responses | post => simp only [authorize, h]

theorem answer_eq_some (d : Directory) (user circle : String) (hr : d.reachable = true) :
    d.answer user circle = some (d.membership.isMember circle user) := by
  simp only [answer, hr, if_true]

theorem answer_eq_none (d : Directory) (user circle : String) (hr : d.reachable = false) :
    d.answer user circle = none := by
  simp [answer, hr]

theorem answer_congr {d' : Directory} {user circle : String} (hr : d.reachable = d'.reachable)
    (h : d.membership.isMember circle user = d'.membership.isMember circle user) :
    d.answer user circle = d'.answer user circle := by
  rw [answer, answer, hr, h]

/-- The directory counts for circles alone. -/
theorem authorize_eq_of_not_circle (d' : Directory)
    (h : ∀ id, ofName? name ≠ some (.circle id)) :
    (d.authorize i name).1 = (d'.authorize i name).1 ∧ (d.authorize i name).2 = d := by
  cases ht : ofName? name with
  | none =>
    rw [authorize_of_none ht, authorize_of_none ht]
    exact ⟨rfl, rfl⟩
  | some t =>
    cases t with
    | circle id => exact absurd ht (h id)
    | user id =>
      rw [authorize_of_user ht, authorize_of_user ht]
      exact ⟨rfl, rfl⟩
    | posts | responses | post =>
      rw [authorize_of_open ht (by simp) (by simp), authorize_of_open ht (by simp) (by simp)]
      exact ⟨rfl, rfl⟩

/-- And only by what it says about the one user in the one circle. -/
theorem authorize_congr {d' : Directory}
    (h : ∀ id, ofName? name = some (.circle id) → d.answer i.userId id = d'.answer i.userId id) :
    (d.authorize i name).1 = (d'.authorize i name).1 := by
  -- of a name that is not a circle's the directory is not asked at all
  by_cases hc : ∃ id, ofName? name = some (.circle id)
  · obtain ⟨id, hid⟩ := hc
    rw [authorize_of_circle hid, authorize_of_circle hid, h id hid]
  · exact (authorize_eq_of_not_circle _ fun id hid => hc ⟨id, hid⟩).1

theorem ofMembership_eq_allow {t t' : Topic} {answer : Option Bool} :
    Decision.ofMembership t answer = .allow t' ↔ answer = some true ∧ t = t' := by
  unfold Decision.ofMembership
  split <;> simp

/-- Who is allowed where, when the directory answers. -/
theorem authorize_eq_allow_iff {history : List Change} {lookups : List Lookup} :
    ((⟨.after .empty history, true, lookups⟩ : Directory).authorize i name).1 = .allow t ↔
      ofName? name = some t ∧ i.MayListen history t := by
  cases ht : ofName? name with
  | none =>
    rw [authorize_of_none ht]
    simp
  | some t' =>
    rw [Option.some.injEq]
    cases t' with
    | user id =>
      rw [authorize_of_user ht]
      by_cases hid : id = i.userId
      · simp only [hid, if_true, Decision.allow.injEq]
        exact ⟨fun h => ⟨h, h ▸ rfl⟩, And.left⟩
      · simp only [hid, if_false, reduceCtorEq, false_iff]
        rintro ⟨rfl, hmay⟩
        exact hid hmay
    | circle id =>
      rw [authorize_of_circle ht, ofMembership_eq_allow, answer_eq_some _ _ _ rfl,
        Option.some.injEq, isMember_after_empty]
      constructor
      · rintro ⟨hadded, rfl⟩
        exact ⟨rfl, hadded⟩
      · rintro ⟨rfl, hmay⟩
        exact ⟨hmay, rfl⟩
    | posts | responses | post =>
      rw [authorize_of_open ht (by simp) (by simp), Decision.allow.injEq]
      exact ⟨fun h => ⟨h, h ▸ trivial⟩, And.left⟩

end Decisions

end Directory

/--
**Authorization.** Let the directory hold what any history of changes has left, and let any name be
asked about for any identity. The identity is allowed on a topic if and only if the name is the
topic's and the topic is open to everyone, or the identity's own, or a circle's to which the last
change that names the two has added it; and whoever is allowed has written the topic's name. When
the directory is out of reach, every circle is denied for that reason and nothing else is decided
differently. A name of a circle's takes exactly one question, about that circle and that identity,
and any other name takes none. To take out a member, and with the last one the circle, leaves every
decision as it was that is not about that user in that circle, and no decision depends on whether
the empty circle was taken out.
-/
theorem authorization_by_history (history : List Change) (i : Identity) (name : String)
    (reachable : Bool) (lookups : List Lookup) :
    let membership := Membership.empty.after history
    let d : Directory := ⟨membership, reachable, lookups⟩
    (∀ t, reachable = true →
      ((d.authorize i name).1 = .allow t ↔ parse name = .ok t ∧ i.MayListen history t)) ∧
    (∀ t, (d.authorize i name).1 = .allow t → t.name = name) ∧
    (reachable = false →
      (∀ id, parse name = .ok (.circle id) →
        (d.authorize i name).1 = .deny .membershipUnavailable) ∧
      ((∀ id, parse name ≠ .ok (.circle id)) →
        (d.authorize i name).1 = ((⟨membership, true, lookups⟩ : Directory).authorize i name).1)) ∧
    (∀ id, parse name = .ok (.circle id) → (d.authorize i name).2 =
      ⟨membership, reachable, lookups ++ [⟨id, i.userId, d.answer i.userId id⟩]⟩) ∧
    ((∀ id, parse name ≠ .ok (.circle id)) → (d.authorize i name).2 = d) ∧
    (∀ circle user, ¬ (parse name = .ok (.circle circle) ∧ i.userId = user) →
      ((d.update (·.remove circle user)).authorize i name).1 = (d.authorize i name).1) ∧
    (∀ circle user, ((d.update (·.remove circle user)).authorize i name).1 =
      ((d.update (·.dismiss circle user)).authorize i name).1) := by
  intro membership d
  simp only [parse_eq_ok, ne_eq]
  refine ⟨?_, ?_, ?_, ?_, ?_, ?_, ?_⟩
  · rintro t rfl
    exact Directory.authorize_eq_allow_iff
  · intro t h
    exact Directory.name_of_authorize h
  · rintro rfl
    refine ⟨fun id hid => ?_, fun h => (Directory.authorize_eq_of_not_circle _ h).1⟩
    rw [Directory.authorize_of_circle hid, Directory.answer_eq_none _ _ _ rfl]
    rfl
  · intro id hid
    rw [Directory.authorize_of_circle hid]
  · intro h
    exact (Directory.authorize_eq_of_not_circle d h).2
  · intro circle user hother
    refine Directory.authorize_congr fun id hid => Directory.answer_congr rfl ?_
    rw [Bool.eq_iff_iff]
    refine isMember_remove.trans ?_
    refine and_iff_right ?_
    rintro ⟨rfl, hu⟩
    exact hother ⟨hid, hu⟩
  · intro circle user
    exact Directory.authorize_congr fun id _ => Directory.answer_congr rfl isMember_remove_eq

/-- A circle that was taken out with its last member and made anew lets in the one added since. -/
theorem authorization_by_history_reopened :
    let history : List Change :=
      [.add "1" "ada", .add "1" "bob", .remove "1" "bob", .remove "1" "ada", .add "1" "bob"]
    let bob : Identity := ⟨"bob", "Bob", false⟩
    let ada : Identity := ⟨"ada", "Ada", false⟩
    let d (reachable : Bool) : Directory := ⟨Membership.empty.after history, reachable, []⟩
    ((d true).authorize bob "circle:1").1 = .allow (.circle "1") ∧
      (((d true).authorize bob "circle:1").2.lookups = [⟨"1", "bob", some true⟩]) ∧
      (∀ t, ((d true).authorize ada "circle:1").1 ≠ .allow t) ∧
      ((d false).authorize bob "circle:1").1 = .deny .membershipUnavailable := by
  intro history bob ada d
  have hname : parse "circle:1" = .ok (.circle "1") := parse_eq_ok.mpr (by decide +kernel)
  have hbob : LastAdded history "1" "bob" :=
    ⟨history.take 4, .add "1" "bob", [], rfl, rfl, fun change hc => by simp at hc⟩
  have hada : ¬ LastAdded history "1" "ada" := by
    rw [← isMember_after_empty]
    decide +kernel
  obtain ⟨hallow, -, -, hlookup, -⟩ := authorization_by_history history bob "circle:1" true []
  obtain ⟨hdeny, -⟩ := authorization_by_history history ada "circle:1" true []
  obtain ⟨-, -, hfail, -⟩ := authorization_by_history history bob "circle:1" false []
  refine ⟨(hallow _ rfl).mpr ⟨hname, hbob⟩, ?_, ?_, (hfail rfl).1 _ hname⟩
  · rw [hlookup _ hname, Directory.answer_eq_some _ _ _ rfl,
      (isMember_after_empty history).mpr hbob]
    rfl
  · intro t ht
    obtain ⟨ht, hmay⟩ := (hdeny t rfl).mp ht
    obtain rfl := Except.ok.inj (hname.symm.trans ht)
    exact hada hmay

end Switchboard
