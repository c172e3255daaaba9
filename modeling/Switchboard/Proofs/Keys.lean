import Switchboard.Proofs.Confluence

/-!
# The registry by keys

The registry is kept by user: an entry is put under the user of the registration, looked up and
removed under the user that a request names, and those whom a frame puts out are removed under the
users of their identities. `Table.ofHistory` keeps such a table through a history by these
operations alone, and `ofHistory_eq` says that it is the registry with every entry under its own
user. So no operation ever misses the entry that it is about.
-/

namespace Switchboard

open Wire Exchange

/-- Entries under keys, in the order in which they were put there. -/
abbrev Table := List (String × Entry)

namespace Table

def get? (t : Table) (key : String) : Option Entry := (t.find? (·.1 = key)).map (·.2)

def remove (t : Table) (key : String) : Table := t.filter (·.1 ≠ key)

/-- Puts an entry under a key, in the place of the one that was there. -/
def insert (t : Table) (key : String) (e : Entry) : Table := t.remove key ++ [(key, e)]

/-- Changes the topics of the entry under a key. -/
def retopic (t : Table) (key : String) (f : List Topic → List Topic) : Table :=
  t.map fun p => if p.1 = key then (p.1, { p.2 with topics := f p.2.topics }) else p

/-- Whether the entry under a key is of the connection given. -/
def isOf (t : Table) (key : String) (c : ConnectionId) : Bool :=
  (t.get? key).any (·.connection = c)

/-- The table once a request has changed it directly and before anything is sent. -/
def begun (t : Table) : Request → Table
  | .register r => t.insert r.identity.userId r.entry
  | .unregister user c => if t.isOf user c then t.remove user else t
  | .subscribe user c topics =>
    if t.isOf user c then t.retopic user fun current => topics.foldl addTopic current else t
  | .unsubscribe user c topics =>
    if t.isOf user c then t.retopic user fun current => current.filter fun t => !topics.contains t
    else t
  | .dispatch .. | .isOnline _ | .onlineCount | .shutdown => t

/-- The table without those whom a frame puts out. -/
def evict (t : Table) (s : Sending) : Table :=
  s.refusers.foldl (fun t e => t.remove e.identity.userId) t

/-- The table after an incident. -/
def record (t : Table) : Incident → Table
  | .handled _ r log _ => log.foldl evict (t.begun r)
  | .taken .. => t

/-- The table after a history that began with none. -/
def ofHistory (past : List Incident) : Table := past.foldl record []

/-- Some entries under their own users. -/
def keyed (entries : List Entry) : Table := entries.map fun e => (e.userId, e)

variable {x : Exchange}

theorem get?_keyed (x : Exchange) (user : String) :
    (keyed x.registry).get? user = x.find? user := by
  unfold get? keyed find?
  rw [List.find?_map, Option.map_map]
  exact congrFun Option.map_id _

theorem remove_keyed (entries : List Entry) (user : String) :
    (keyed entries).remove user = keyed (entries.filter (·.userId ≠ user)) :=
  List.filter_map

theorem keyed_append (a b : List Entry) : keyed (a ++ b) = keyed a ++ keyed b := List.map_append

theorem isOf_keyed (x : Exchange) (user : String) (c : ConnectionId) :
    (keyed x.registry).isOf user c = (x.findConnection? user c).isSome := by
  unfold isOf findConnection?
  rw [get?_keyed]
  cases x.find? user with
  | none => rfl
  | some e => by_cases hc : e.connection = c <;> simp [hc]

/-- An entry is changed under its user exactly if it is of the connection that was named. -/
theorem retopic_keyed (hx : x.UniqueUsers) (user : String) (c : ConnectionId)
    (f : List Topic → List Topic) :
    (if (keyed x.registry).isOf user c then (keyed x.registry).retopic user f
      else keyed x.registry) = keyed (x.updateTopics user c f).registry := by
  rw [isOf_keyed]
  have hsame : ∀ e ∈ x.registry, e.userId = user →
      ((x.findConnection? user c).isSome = true ↔ e.connection = c) := by
    intro e he hu
    have hfind : x.find? user = some e := (find?_eq_some_iff hx).mpr ⟨he, hu⟩
    unfold findConnection?
    rw [hfind, Option.filter_some]
    by_cases hc : e.connection = c <;> simp [hc]
  split
  · rename_i hfound
    unfold retopic keyed updateTopics
    rw [List.map_map, List.map_map]
    refine List.map_congr_left fun e he => ?_
    by_cases hu : e.userId = user
    · have hc := (hsame e he hu).mp hfound
      simp only [Function.comp_apply, hu, hc, and_self, if_true]
      rw [← hu]
      rfl
    · simp [hu]
  · rename_i hfound
    unfold keyed updateTopics
    rw [List.map_map]
    refine List.map_congr_left fun e he => ?_
    by_cases hu : e.userId = user
    · have hc : e.connection ≠ c := fun hc => hfound ((hsame e he hu).mpr hc)
      simp [hc]
    · simp [hu]

/-- A table by keys is changed as the registry is. -/
theorem begun_keyed {y : Exchange} {r : Request} (h : x.Outset r y) (hx : x.UniqueUsers) :
    (keyed x.registry).begun r = keyed y.registry := by
  have hput : ∀ r : Registration, (keyed x.registry).begun (.register r) =
      keyed (x.registry.filter (·.userId ≠ r.identity.userId) ++ [r.entry]) := by
    intro r
    show (keyed x.registry).remove r.identity.userId ++ keyed [r.entry] = _
    rw [remove_keyed, keyed_append]
  cases h with
  | @join r hf =>
    have hself : x.registry.filter (·.userId ≠ r.identity.userId) = x.registry := by
      rw [List.filter_eq_self]
      intro e he
      simpa using find?_eq_none.mp hf e he
    rw [hput, hself]
    rfl
  | @replace r previous hf =>
    rw [hput, ← userId_of_find? hf]
    rfl
  | @leave user c e hf =>
    unfold begun
    dsimp only
    rw [isOf_keyed, hf, Option.isSome_some, if_pos rfl, remove_keyed,
      ← userId_of_find? (findConnection?_eq_some.mp hf).1]
    rfl
  | @stay user c hf =>
    unfold begun
    dsimp only
    rw [isOf_keyed, hf]
    rfl
  | subscribe user c topics => exact retopic_keyed hx user c _
  | unsubscribe user c topics => exact retopic_keyed hx user c _
  | dispatch | isOnline | onlineCount | shutdown => rfl

theorem foldl_remove_keyed (entries out : List Entry) :
    out.foldl (fun t e => remove t e.identity.userId) (keyed entries) =
      keyed (entries.filter fun e => decide (e.userId ∉ out.map Entry.userId)) := by
  induction out generalizing entries with
  | nil =>
    have hself : entries.filter (fun e => decide (e.userId ∉ ([] : List Entry).map Entry.userId)) =
        entries := by simp
    rw [hself]
    rfl
  | cons e₀ out ih =>
    rw [List.foldl_cons, remove_keyed, ih, List.filter_filter]
    refine congrArg keyed (List.filter_congr fun e _ => ?_)
    rw [Bool.eq_iff_iff]
    simp only [Bool.and_eq_true, decide_eq_true_eq, List.map_cons, List.mem_cons, not_or]
    exact and_comm

/-- Whoever is put out is removed under their own user, and nobody else is. -/
theorem evict_keyed {s : Sending} (hx : s.before.UniqueUsers) :
    (keyed s.before.registry).evict s = keyed s.after.registry := by
  unfold evict
  rw [foldl_remove_keyed]
  refine congrArg keyed (List.filter_congr fun e he => ?_)
  rw [Bool.eq_iff_iff, decide_eq_true_eq, Bool.not_eq_true', List.mem_map]
  constructor
  · intro hout
    rw [Bool.eq_false_iff]
    exact fun hr => hout ⟨e, Sending.mem_refusers.mpr ⟨he, hr⟩, rfl⟩
  · rintro hr ⟨e', he', hu⟩
    obtain ⟨hm, hr'⟩ := Sending.mem_refusers.mp he'
    rw [hx.eq_of_userId hm he hu, hr] at hr'
    cases hr'

theorem evictions_keyed {x y : Exchange} {log : List Sending} (h : Linked x log y)
    (hx : x.UniqueUsers) : log.foldl evict (keyed x.registry) = keyed y.registry := by
  induction h with
  | nil x => rfl
  | @cons s log y _ ih =>
    rw [List.foldl_cons, evict_keyed hx]
    exact ih (hx.sublist s.after_sublist)

/-- **The table is the registry, and every key is the user of its entry's identity.** -/
theorem ofHistory_eq {past : List Incident} (h : Run past x) :
    ofHistory past = keyed x.registry := by
  induction h with
  | start clock => rfl
  | @handle past x y r log hr ha hh ih =>
    have hx := hr.wellKept
    rw [ofHistory, List.foldl_append] at *
    rw [ih]
    show log.foldl evict ((keyed x.registry).begun r) = _
    rw [begun_keyed (x.outset r) hx.users]
    exact evictions_keyed hh.linked ((x.outset r).wellKept hx ha).users
  | receive _ hm ih =>
    rw [ofHistory, List.foldl_append] at *
    rw [ih]
    cases hm <;> rfl

end Table

end Switchboard
