import Switchboard.Json.Tree
import Switchboard.Proofs.Lexemes

/-!
# The grammar of JSON

A tree says which tokens spell it, and a text spells a tree when it is those tokens with blanks
between them. This is the grammar in its usual form: commas between the items of an array, a name
and a colon before each value of an object, and one value in all. The reader with its stack of open
containers is shown to take exactly this grammar. One half follows a run token by token and keeps
count of what was consumed: the open containers and the value in hand spell it. The other half
follows a tree.
-/

namespace Switchboard.Json

mutual

/-- The tokens that spell a tree. -/
def Tree.tokens : Tree → List Token
  | .null => [.null]
  | .bool b => [.bool b]
  | .number n => [.number n]
  | .text s => [.text s]
  | .array items => .openArray :: (itemTokens items ++ [.closeArray])
  | .object members => .openObject :: (memberTokens members ++ [.closeObject])

/-- The tokens of an array's items, a comma between two. -/
def itemTokens : List Tree → List Token
  | [] => []
  | [t] => t.tokens
  | t :: u :: rest => t.tokens ++ .comma :: itemTokens (u :: rest)

/-- The tokens of an object's members, a comma between two. -/
def memberTokens : List (Spelling × Tree) → List Token
  | [] => []
  | [(name, t)] => .text name :: .colon :: t.tokens
  | (name, t) :: m :: rest =>
    .text name :: .colon :: (t.tokens ++ .comma :: memberTokens (m :: rest))

end

/-- A text spells a tree. -/
def Tree.Written (t : Tree) (s : List Char) : Prop := Spaced t.tokens s

/-! ## What is read spells what was consumed -/

/-- The tokens of items that each have a comma behind them. -/
def closedItems (items : List Tree) : List Token := items.flatMap fun t => t.tokens ++ [.comma]

/-- The tokens of members that each have a comma behind them. -/
def closedMembers (members : List (Spelling × Tree)) : List Token :=
  members.flatMap fun m => .text m.1 :: .colon :: (m.2.tokens ++ [.comma])

/-- The tokens an open container has taken. -/
def Frame.tokens : Frame → List Token
  | .array done => .openArray :: closedItems done.reverse
  | .object done name => .openObject :: (closedMembers done.reverse ++ [.text name, .colon])

/-- The tokens that all the open containers have taken. -/
def openTokens : List Frame → List Token
  | [] => []
  | f :: stack => openTokens stack ++ f.tokens

/-- The tokens taken since the last container was opened. -/
def Expect.tokens : Expect → List Token
  | .value | .firstItem => []
  | .firstName => [.openObject]
  | .nextName done => .openObject :: closedMembers done.reverse
  | .colon done name => .openObject :: (closedMembers done.reverse ++ [.text name])
  | .after t => t.tokens

/-- All the tokens taken so far. -/
def consumed (stack : List Frame) (expect : Expect) : List Token :=
  openTokens stack ++ expect.tokens

/-- A first item is expected only in an array that has none. -/
def Expect.Fits (stack : List Frame) : Expect → Prop
  | .firstItem => stack.head? = some (.array [])
  | _ => True

theorem closedItems_append (items : List Tree) (t : Tree) :
    closedItems (items ++ [t]) = closedItems items ++ (t.tokens ++ [.comma]) := by
  simp [closedItems]

theorem closedMembers_append (members : List (Spelling × Tree)) (name : Spelling) (t : Tree) :
    closedMembers (members ++ [(name, t)]) =
      closedMembers members ++ (.text name :: .colon :: (t.tokens ++ [.comma])) := by
  simp [closedMembers]

theorem itemTokens_append (items : List Tree) (t : Tree) :
    itemTokens (items ++ [t]) = closedItems items ++ t.tokens := by
  induction items with
  | nil => simp [itemTokens, closedItems]
  | cons u items ih =>
    have hcons : closedItems (u :: items) = u.tokens ++ [.comma] ++ closedItems items := rfl
    cases items with
    | nil => simp [itemTokens, closedItems]
    | cons w items =>
      rw [List.cons_append] at ih
      rw [hcons, List.cons_append, List.cons_append, itemTokens, ih]
      simp

theorem memberTokens_append (members : List (Spelling × Tree)) (name : Spelling) (t : Tree) :
    memberTokens (members ++ [(name, t)]) =
      closedMembers members ++ (.text name :: .colon :: t.tokens) := by
  induction members with
  | nil => simp [memberTokens, closedMembers]
  | cons m members ih =>
    have hcons : closedMembers (m :: members) =
      .text m.1 :: .colon :: (m.2.tokens ++ [.comma]) ++ closedMembers members := rfl
    cases members with
    | nil => simp [memberTokens, closedMembers]
    | cons w members =>
      rw [List.cons_append] at ih
      rw [hcons, List.cons_append, List.cons_append, memberTokens, ih]
      simp

theorem Expect.step_firstItem (stack : List Frame) {t : Token} (h : t ≠ .closeArray) :
    Expect.step stack .firstItem t = Expect.step stack .value t := by
  cases t <;> first | rfl | exact absurd rfl h

theorem consumed_step_value {stack stack' : List Frame} {e : Expect} {t : Token}
    (h : Expect.step stack .value t = some (e, stack')) :
    consumed stack' e = consumed stack .value ++ [t] ∧ e.Fits stack' := by
  cases t with
  | closeArray | closeObject | comma | colon => simp [Expect.step] at h
  | _ =>
    obtain ⟨rfl, rfl⟩ := Prod.mk.inj (Option.some.inj h)
    simp [consumed, openTokens, Frame.tokens, closedItems, Expect.tokens, Tree.tokens, Expect.Fits]

/-- Each token read stands behind those taken before it. -/
theorem consumed_step {stack stack' : List Frame} {e e' : Expect} {t : Token}
    (h : e.step stack t = some (e', stack')) (hfits : e.Fits stack) :
    consumed stack' e' = consumed stack e ++ [t] ∧ e'.Fits stack' := by
  cases e with
  | value => exact consumed_step_value h
  | firstItem =>
    by_cases ht : t = .closeArray
    · subst ht
      obtain ⟨rfl, rfl⟩ := Prod.mk.inj (Option.some.inj h)
      obtain ⟨rest, rfl⟩ := List.head?_eq_some_iff.mp hfits
      simp [consumed, openTokens, Frame.tokens, closedItems, Expect.tokens, Tree.tokens, itemTokens,
        Expect.Fits]
    · rw [Expect.step_firstItem stack ht] at h
      exact consumed_step_value h
  | firstName =>
    cases t with
    | closeObject | text =>
      obtain ⟨rfl, rfl⟩ := Prod.mk.inj (Option.some.inj h)
      simp [consumed, closedMembers, Expect.tokens, Tree.tokens, memberTokens, Expect.Fits]
    | _ => simp [Expect.step] at h
  | nextName done =>
    cases t with
    | text =>
      obtain ⟨rfl, rfl⟩ := Prod.mk.inj (Option.some.inj h)
      simp [consumed, Expect.tokens, Expect.Fits]
    | _ => simp [Expect.step] at h
  | colon done name =>
    cases t with
    | colon =>
      obtain ⟨rfl, rfl⟩ := Prod.mk.inj (Option.some.inj h)
      simp [consumed, openTokens, Frame.tokens, Expect.tokens, Expect.Fits]
    | _ => simp [Expect.step] at h
  | after v =>
    -- a comma moves the value in hand into its container, and a bracket closes that container
    cases t with
    | comma =>
      match stack, h with
      | .array done :: stack, h =>
        obtain ⟨rfl, rfl⟩ := Prod.mk.inj (Option.some.inj h)
        simp [consumed, openTokens, Frame.tokens, Expect.tokens, Expect.Fits, closedItems_append]
      | .object done name :: stack, h =>
        obtain ⟨rfl, rfl⟩ := Prod.mk.inj (Option.some.inj h)
        simp [consumed, openTokens, Frame.tokens, Expect.tokens, Expect.Fits, closedMembers_append]
    | closeArray =>
      match stack, h with
      | .array done :: stack, h =>
        obtain ⟨rfl, rfl⟩ := Prod.mk.inj (Option.some.inj h)
        simp [consumed, openTokens, Frame.tokens, Expect.tokens, Expect.Fits, Tree.tokens,
          itemTokens_append]
    | closeObject =>
      match stack, h with
      | .object done name :: stack, h =>
        obtain ⟨rfl, rfl⟩ := Prod.mk.inj (Option.some.inj h)
        simp [consumed, openTokens, Frame.tokens, Expect.tokens, Expect.Fits, Tree.tokens,
          memberTokens_append]
    | _ => simp [Expect.step] at h

/-- The tokens a tree was built from are the tokens that spell it. -/
theorem tokens_of_build {stack : List Frame} {e : Expect} {ts : List Token} {t : Tree}
    (h : build stack e ts = some t) (hfits : e.Fits stack) : consumed stack e ++ ts = t.tokens := by
  -- what was consumed and what is left make up the same list after every step
  induction ts generalizing stack e with
  | nil =>
    match e, stack, h with
    | .after v, [], h =>
      obtain rfl := Option.some.inj h
      simp [consumed, openTokens, Expect.tokens]
  | cons u ts ih =>
    unfold build at h
    split at h
    · simp at h
    · rename_i e' stack' hstep
      obtain ⟨hconsumed, hfits'⟩ := consumed_step hstep hfits
      rw [← ih h hfits', hconsumed]
      simp

/-! ## What spells a tree is read as it -/

theorem itemTokens_cons (t : Tree) (items : List Tree) :
    ∃ a ts, itemTokens (t :: items) = a :: ts ∧ a ≠ .closeArray := by
  have htree : ∃ a ts, t.tokens = a :: ts ∧ a ≠ .closeArray := by
    cases t <;> exact ⟨_, _, rfl, by simp⟩
  obtain ⟨a, ts, hts, ha⟩ := htree
  cases items with
  | nil => exact ⟨a, ts, hts, ha⟩
  | cons u items =>
    exact ⟨a, ts ++ .comma :: itemTokens (u :: items), by simp [itemTokens, hts], ha⟩

/-- The first item of an array is read like any other. -/
theorem build_firstItem (stack : List Frame) (t : Tree) (items : List Tree) (rest : List Token) :
    build stack .firstItem (itemTokens (t :: items) ++ rest) =
      build stack .value (itemTokens (t :: items) ++ rest) := by
  obtain ⟨a, ts, hts, ha⟩ := itemTokens_cons t items
  rw [hts, List.cons_append, build, build, Expect.step_firstItem stack ha]

/-- The first member of an object is read like any other. -/
theorem build_firstName (stack : List Frame) (m : Spelling × Tree)
    (members : List (Spelling × Tree)) (rest : List Token) :
    build stack .firstName (memberTokens (m :: members) ++ rest) =
      build stack (.nextName []) (memberTokens (m :: members) ++ rest) := by
  cases members <;> rfl

mutual

/-- Where a value is expected the tokens of a tree are taken as that tree. -/
theorem build_tokens (t : Tree) (stack : List Frame) (rest : List Token) :
    build stack .value (t.tokens ++ rest) = build stack (.after t) rest := by
  match t with
  | .null | .bool _ | .number _ | .text _ => rfl
  | .array [] => rfl
  | .array (u :: items) =>
    have htokens : (Tree.array (u :: items)).tokens ++ rest =
        .openArray :: (itemTokens (u :: items) ++ .closeArray :: rest) := by
      simp [Tree.tokens]
    rw [htokens]
    exact (build_firstItem _ u items _).trans
      (build_itemTokens (u :: items) (List.cons_ne_nil _ _) [] stack rest)
  | .object [] => rfl
  | .object (m :: members) =>
    have htokens : (Tree.object (m :: members)).tokens ++ rest =
        .openObject :: (memberTokens (m :: members) ++ .closeObject :: rest) := by
      simp [Tree.tokens]
    rw [htokens]
    exact (build_firstName _ m members _).trans
      (build_memberTokens (m :: members) (List.cons_ne_nil _ _) [] stack rest)

theorem build_itemTokens (items : List Tree) (hne : items ≠ []) (done : List Tree)
    (stack : List Frame) (rest : List Token) :
    build (.array done :: stack) .value (itemTokens items ++ .closeArray :: rest) =
      build stack (.after (.array (done.reverse ++ items))) rest := by
  match items with
  | [t] =>
    rw [itemTokens, build_tokens t, ← List.reverse_cons]
    rfl
  | t :: u :: items =>
    have hrest := build_itemTokens (u :: items) (List.cons_ne_nil _ _) (t :: done) stack rest
    rw [List.reverse_cons, List.append_assoc] at hrest
    rw [itemTokens, List.append_assoc, build_tokens t]
    exact hrest

theorem build_memberTokens (members : List (Spelling × Tree)) (hne : members ≠ [])
    (done : List (Spelling × Tree)) (stack : List Frame) (rest : List Token) :
    build stack (.nextName done) (memberTokens members ++ .closeObject :: rest) =
      build stack (.after (.object (done.reverse ++ members))) rest := by
  match members with
  | [(name, t)] =>
    have hvalue := build_tokens t (.object done name :: stack) (.closeObject :: rest)
    rw [← List.reverse_cons]
    exact hvalue
  | (name, t) :: m :: members =>
    have hvalue := build_tokens t (.object done name :: stack)
      (.comma :: (memberTokens (m :: members) ++ .closeObject :: rest))
    have hrest := build_memberTokens (m :: members) (List.cons_ne_nil _ _) ((name, t) :: done)
      stack rest
    rw [List.reverse_cons, List.append_assoc] at hrest
    rw [memberTokens, List.cons_append, List.cons_append, List.append_assoc]
    exact hvalue.trans hrest

end

/-! ## In a tree no number stands right behind another -/

/-- These tokens may stand right behind a number. -/
structure Following (ts : List Token) : Prop where
  separate : Separate ts
  head : ∀ u ∈ ts.head?, u.isNumber = false

theorem Following.nil : Following [] := ⟨.nil, by simp⟩

theorem Following.cons {t : Token} {ts : List Token} (ht : t.isNumber = false)
    (hts : Separate ts) : Following (t :: ts) := by
  refine ⟨List.isChain_cons.mpr ⟨fun _ _ hnumber => ?_, hts⟩, ?_⟩
  · rw [ht] at hnumber
    simp at hnumber
  · rintro u hu
    obtain rfl := Option.some.inj hu
    exact ht

mutual

theorem separate_tokens (t : Tree) {r : List Token} (hr : Following r) :
    Separate (t.tokens ++ r) := by
  match t with
  | .number n => exact List.isChain_cons.mpr ⟨fun u hu _ => hr.head u hu, hr.separate⟩
  | .null | .bool _ | .text _ => exact (Following.cons rfl hr.separate).separate
  | .array items =>
    have hitems := separate_itemTokens items (.cons (t := .closeArray) rfl hr.separate)
    simpa [Tree.tokens] using (Following.cons rfl hitems).separate
  | .object members =>
    have hmembers := separate_memberTokens members (.cons (t := .closeObject) rfl hr.separate)
    simpa [Tree.tokens] using (Following.cons rfl hmembers).separate

theorem separate_itemTokens (items : List Tree) {r : List Token} (hr : Following r) :
    Separate (itemTokens items ++ r) := by
  match items with
  | [] => exact hr.separate
  | [t] => exact separate_tokens t hr
  | t :: u :: items =>
    rw [itemTokens, List.append_assoc]
    exact separate_tokens t (.cons rfl (separate_itemTokens (u :: items) hr))

theorem separate_memberTokens (members : List (Spelling × Tree)) {r : List Token}
    (hr : Following r) : Separate (memberTokens members ++ r) := by
  match members with
  | [] => exact hr.separate
  | [(name, t)] => exact
    (Following.cons rfl (Following.cons rfl (separate_tokens t hr)).separate).separate
  | (name, t) :: m :: members =>
    have hvalue : Separate (t.tokens ++ .comma :: (memberTokens (m :: members) ++ r)) :=
      separate_tokens t (.cons rfl (separate_memberTokens (m :: members) hr))
    rw [memberTokens, List.cons_append, List.cons_append, List.append_assoc]
    exact (Following.cons rfl (Following.cons rfl hvalue).separate).separate

end

/-- A text is read as a tree exactly when it spells that tree. -/
theorem Tree.ofChars?_eq_some_iff {s : List Char} {t : Tree} :
    Tree.ofChars? s = some t ↔ t.Written s := by
  unfold Tree.ofChars?
  constructor
  · intro h
    split at h
    · simp at h
    · rename_i ts hts
      obtain rfl : ts = t.tokens := tokens_of_build h trivial
      exact .of_tokens? hts
  · intro h
    have hseparate : Separate t.tokens := by
      simpa using separate_tokens t .nil
    rw [h.tokens? hseparate]
    have hbuild := build_tokens t [] []
    rwa [List.append_nil] at hbuild

end Switchboard.Json
