/-!
# Topics

The channels that events are published to and that connections listen on. There are two feeds for
everyone and three kinds of scoped channel, and no others: any other name is unknown.
-/

namespace Switchboard

/-- A channel; the scope of a scoped one is the id of a post, a user or a circle. -/
inductive Topic where
  | posts
  | responses
  | post (id : String)
  /-- What is meant for one user alone. -/
  | user (id : String)
  /-- What the members of one circle share. -/
  | circle (id : String)
  deriving DecidableEq, Repr

namespace Topic

/-- A name that no channel has. -/
structure Unknown where
  name : String
  deriving DecidableEq, Repr

/-- The part of a name before the colon. -/
def kind : Topic → String
  | posts => "posts"
  | responses => "responses"
  | post _ => "post"
  | user _ => "user"
  | circle _ => "circle"

/-- The part of a name after the colon. -/
def scope? : Topic → Option String
  | posts | responses => none
  | post id | user id | circle id => some id

def name (t : Topic) : String :=
  match t.scope? with
  | none => t.kind
  | some id => t.kind ++ ":" ++ id

/-- A character that a scope may hold. -/
def isScopeChar (c : Char) : Bool := c.isAlphanum || c == '-' || c == '_'

def maxScopeLength : Nat := 64

/-- A scope that a name may carry. -/
def isScope (id : String) : Bool :=
  0 < id.length && id.length ≤ maxScopeLength && id.toList.all isScopeChar

def ofScope? (kind : String) (id : String) : Option Topic :=
  if kind = "post" then some (.post id)
  else if kind = "user" then some (.user id)
  else if kind = "circle" then some (.circle id)
  else none

/-- The channel without a scope of a given name. -/
def ofFeed? (name : String) : Option Topic :=
  if name = "posts" then some .posts
  else if name = "responses" then some .responses
  else none

/-- The channel of a name: the first colon ends the kind. -/
def ofName? (name : String) : Option Topic :=
  match name.toList.dropWhile (· ≠ ':') with
  | [] => ofFeed? name
  | _ :: id =>
    let kind := String.ofList (name.toList.takeWhile (· ≠ ':'))
    let id := String.ofList id
    if isScope id then ofScope? kind id else none

/-- Reads a name; an unknown one is given back whole. -/
def parse (name : String) : Except Unknown Topic :=
  match ofName? name with
  | some t => .ok t
  | none => .error ⟨name⟩

/-! ## A channel's name is what it was read from -/

theorem name_ofFeed? {name : String} {t : Topic} (h : ofFeed? name = some t) : t.name = name := by
  unfold ofFeed? at h
  split at h
  · rename_i hn
    rw [hn, ← Option.some.inj h]
    rfl
  · split at h
    · rename_i hn
      rw [hn, ← Option.some.inj h]
      rfl
    · simp at h

theorem name_ofScope? {kind id : String} {t : Topic} (h : ofScope? kind id = some t) :
    t.name = kind ++ ":" ++ id := by
  unfold ofScope? at h
  split at h
  · rename_i hk
    rw [hk, ← Option.some.inj h]
    rfl
  · split at h
    · rename_i hk
      rw [hk, ← Option.some.inj h]
      rfl
    · split at h
      · rename_i hk
        rw [hk, ← Option.some.inj h]
        rfl
      · simp at h

theorem name_ofName? {name : String} {t : Topic} (h : ofName? name = some t) : t.name = name := by
  unfold ofName? at h
  split at h
  · exact name_ofFeed? h
  · rename_i c id hd
    dsimp only at h
    split at h
    · rw [name_ofScope? h]
      have hc : c = ':' := by
        have := List.head?_dropWhile_not (fun a : Char => decide (a ≠ ':')) name.toList
        rw [hd] at this
        simpa using this
      have hsplit := List.takeWhile_append_dropWhile (p := fun a : Char => decide (a ≠ ':'))
        (l := name.toList)
      rw [hd, hc] at hsplit
      apply String.toList_inj.mp
      simp only [String.toList_append, String.toList_ofList]
      rw [List.append_assoc]
      exact hsplit
    · simp at h

end Topic

end Switchboard
