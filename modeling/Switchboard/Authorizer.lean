import Switchboard.Error
import Switchboard.Membership
import Switchboard.Topic

/-!
# Authorization

Who may listen where: anyone on the feeds and on posts, a user on their own channel, members on
their circle's. A directory out of reach is a reason to deny.
-/

namespace Switchboard

/-- The answer to a request to listen. -/
inductive Decision where
  | allow (topic : Topic)
  | deny (denial : Denial)
  deriving DecidableEq, Repr

/-- What a member of the circle, or not, is told. -/
def Decision.ofMembership (topic : Topic) : Option Bool → Decision
  | some true => .allow topic
  | some false => .deny .notMember
  | none => .deny .membershipUnavailable

/-- Decides whether an identity may listen on the channel of a name. -/
def Directory.authorize (d : Directory) (i : Identity) (name : String) : Decision × Directory :=
  match Topic.ofName? name with
  | none => (.deny .unknownChannel, d)
  | some (.user id) => (if id = i.userId then .allow (.user id) else .deny .notOwner, d)
  | some (.circle id) =>
    let (answer, d) := d.ask i id
    (.ofMembership (.circle id) answer, d)
  | some topic => (.allow topic, d)

namespace Directory

variable {d : Directory} {i : Identity} {name : String} {t : Topic}

/-- Whoever is allowed on a channel has named it, owns it if it is a user's, and was found to be a
member if it is a circle's. -/
theorem authorize_eq_allow (h : (d.authorize i name).1 = .allow t) :
    Topic.ofName? name = some t ∧ (∀ id, t = .user id → id = i.userId) ∧
      ∀ id, t = .circle id → d.answer i.userId id = some true := by
  unfold authorize at h
  split at h
  · simp at h
  · rename_i id ht
    dsimp only at h
    split at h
    · rename_i hid
      obtain rfl := Decision.allow.inj h
      exact ⟨ht, fun id' heq => (Topic.user.inj heq) ▸ hid, fun _ heq => by simp at heq⟩
    · simp at h
  · rename_i id ht
    have ha : (d.ask i id).1 = some true ∧ .circle id = t := by
      dsimp only at h
      unfold Decision.ofMembership at h
      split at h
      · rename_i ha
        exact ⟨ha, Decision.allow.inj h⟩
      · simp at h
      · simp at h
    obtain ⟨ha, rfl⟩ := ha
    exact ⟨ht, fun _ heq => by simp at heq, fun id' heq => (Topic.circle.inj heq) ▸ ha⟩
  · rename_i hu hc ht
    obtain rfl := Decision.allow.inj h
    exact ⟨ht, fun id heq => absurd heq (hu id), fun id heq => absurd heq (hc id)⟩

theorem name_of_authorize (h : (d.authorize i name).1 = .allow t) : t.name = name :=
  Topic.name_ofName? (authorize_eq_allow h).1

end Directory

end Switchboard
