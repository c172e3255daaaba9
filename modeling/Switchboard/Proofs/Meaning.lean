import Mathlib.Data.List.Forall2
import Switchboard.Json.Value
import Switchboard.Proofs.Grammar

/-!
# Which trees have a value

A tree has a value when nothing in it is out of bounds: no string is left with half a surrogate
pair, no number is too large for a double, and not too many containers nest. Strings and numbers
count wherever they stand, names and values that nobody asks for included, so the condition is put
on the tree's tokens; only the nesting needs the tree itself.
-/

namespace Switchboard.Json

/-- The halves of surrogate pairs stand in pairs, and no octet is left over. -/
inductive Spelling.Paired : Spelling → Prop
  | nil : Paired []
  | literal (c : Char) {rest : Spelling} : Paired rest → Paired (.literal c :: rest)
  | escaped (c : Char) {rest : Spelling} : Paired rest → Paired (.escaped c :: rest)
  | halves {high low : Nat} {rest : Spelling} : isHigh high = true → isLow low = true →
      Paired rest → Paired (.half high :: .half low :: rest)

/-- What the reader's arithmetic makes of the number is finite. -/
def Numeral.InRange (n : Numeral) : Prop := n.number? ≠ none

/-- A string spells text, and a number is in range. -/
def Token.Sound : Token → Prop
  | .text s => s.Paired
  | .number n => n.InRange
  | _ => True

mutual

/-- How many containers a tree nests. -/
def Tree.nesting : Tree → Nat
  | .array items => itemNesting items + 1
  | .object members => memberNesting members + 1
  | _ => 0

def itemNesting : List Tree → Nat
  | [] => 0
  | t :: rest => max t.nesting (itemNesting rest)

def memberNesting : List (Spelling × Tree) → Nat
  | [] => 0
  | (_, t) :: rest => max t.nesting (memberNesting rest)

end

/-- Everything in a tree is sound, and it does not nest too deep. -/
structure Tree.Strict (t : Tree) : Prop where
  sound : ∀ token ∈ t.tokens, token.Sound
  nesting : t.nesting ≤ maxDepth

/-! ## Strings -/

theorem Spelling.Paired.chars?_isSome {s : Spelling} (h : s.Paired) : s.chars?.isSome := by
  induction h with
  | nil => rfl
  | literal c _ ih | escaped c _ ih => simpa [Spelling.chars?] using ih
  | halves hh hl _ ih => simpa [Spelling.chars?, hh, hl] using ih

theorem Spelling.paired_of_chars? {s : Spelling} (h : s.chars?.isSome) : s.Paired := by
  fun_induction Spelling.chars? s with
  | case1 => exact .nil
  | case2 c rest ih => exact .literal c (ih (by simpa using h))
  | case3 c rest ih => exact .escaped c (ih (by simpa using h))
  | case4 high low rest hpair ih =>
    simp only [Bool.and_eq_true] at hpair
    exact .halves hpair.1 hpair.2 (ih (by simpa using h))
  | case5 | case6 | case7 => simp at h

/-- A spelling stands for a text exactly when its halves are paired. -/
theorem Spelling.text?_isSome_iff {s : Spelling} : s.text?.isSome ↔ s.Paired := by
  rw [Spelling.text?, Option.isSome_map]
  exact ⟨paired_of_chars?, Paired.chars?_isSome⟩

/-! ## Trees -/

theorem forall_mem_itemTokens_cons {p : Token → Prop} (hcomma : p .comma) (t : Tree)
    (items : List Tree) : (∀ a ∈ itemTokens (t :: items), p a) ↔
      (∀ a ∈ t.tokens, p a) ∧ ∀ a ∈ itemTokens items, p a := by
  cases items with
  | nil => simp [itemTokens]
  | cons u items => simp [itemTokens, or_imp, forall_and, hcomma]

theorem forall_mem_memberTokens_cons {p : Token → Prop} (hcomma : p .comma) (hcolon : p .colon)
    (name : Spelling) (t : Tree) (members : List (Spelling × Tree)) :
    (∀ a ∈ memberTokens ((name, t) :: members), p a) ↔
      p (.text name) ∧ (∀ a ∈ t.tokens, p a) ∧ ∀ a ∈ memberTokens members, p a := by
  cases members with
  | nil => simp [memberTokens, hcolon]
  | cons m members => simp [memberTokens, or_imp, forall_and, hcomma, hcolon]

/-- An array's values are those of its items, one by one. -/
theorem values?_eq_some_iff {depth : Nat} {items : List Tree} {vs : List Value} :
    values? depth items = some vs ↔
      List.Forall₂ (fun t v => t.value? depth = some v) items vs := by
  induction items generalizing vs with
  | nil => simp [values?, eq_comm]
  | cons t items ih =>
    rw [values?]
    cases vs with
    | nil => cases t.value? depth <;> simp
    | cons v vs =>
      rw [List.forall₂_cons, ← ih]
      cases t.value? depth <;> simp [and_comm]

/-- An object's members have the names and the values of those written, one by one. -/
theorem members?_eq_some_iff {depth : Nat} {members : List (Spelling × Tree)}
    {vs : List (String × Value)} :
    members? depth members = some vs ↔
      List.Forall₂ (fun m v => m.1.text? = some v.1 ∧ m.2.value? depth = some v.2) members vs := by
  induction members generalizing vs with
  | nil => simp [members?, eq_comm]
  | cons m members ih =>
    obtain ⟨name, t⟩ := m
    rw [members?]
    cases vs with
    | nil => cases name.text? <;> cases t.value? depth <;> simp
    | cons v vs =>
      rw [List.forall₂_cons, ← ih]
      cases name.text? <;> cases t.value? depth <;> simp [Prod.ext_iff, and_comm]

theorem values?_cons_isSome {depth : Nat} {t : Tree} {items : List Tree} :
    (values? depth (t :: items)).isSome ↔
      (t.value? depth).isSome ∧ (values? depth items).isSome := by
  rw [values?]
  cases t.value? depth <;> simp

theorem members?_cons_isSome {depth : Nat} {name : Spelling} {t : Tree}
    {members : List (Spelling × Tree)} :
    (members? depth ((name, t) :: members)).isSome ↔
      name.text?.isSome ∧ (t.value? depth).isSome ∧ (members? depth members).isSome := by
  rw [members?]
  cases name.text? <;> cases t.value? depth <;> simp

mutual

/-- A tree has a value exactly when all its tokens are sound and it nests no deeper than allowed. -/
theorem Tree.value?_isSome_iff (t : Tree) (depth : Nat) :
    (t.value? depth).isSome ↔ (∀ a ∈ t.tokens, a.Sound) ∧ t.nesting ≤ depth := by
  match t, depth with
  | .null, _ | .bool _, _ => simp [Tree.value?, Tree.tokens, Tree.nesting, Token.Sound]
  | .number n, _ =>
    simp [Tree.value?, Tree.tokens, Tree.nesting, Token.Sound, Numeral.InRange,
      Option.isSome_iff_ne_none]
  | .text s, _ =>
    simp [Tree.value?, Tree.tokens, Tree.nesting, Token.Sound, ← Spelling.text?_isSome_iff]
  | .array items, 0 | .object members, 0 => simp [Tree.value?, Tree.nesting]
  | .array items, depth + 1 =>
    simp [Tree.value?, Tree.tokens, Tree.nesting, Token.Sound, or_imp, forall_and,
      values?_isSome_iff items depth]
  | .object members, depth + 1 =>
    simp [Tree.value?, Tree.tokens, Tree.nesting, Token.Sound, or_imp, forall_and,
      members?_isSome_iff members depth]

theorem values?_isSome_iff (items : List Tree) (depth : Nat) :
    (values? depth items).isSome ↔
      (∀ a ∈ itemTokens items, a.Sound) ∧ itemNesting items ≤ depth := by
  match items with
  | [] => simp [values?, itemTokens, itemNesting]
  | t :: items =>
    rw [values?_cons_isSome, Tree.value?_isSome_iff t, values?_isSome_iff items,
      forall_mem_itemTokens_cons trivial, itemNesting, Nat.max_le]
    exact and_and_and_comm

theorem members?_isSome_iff (members : List (Spelling × Tree)) (depth : Nat) :
    (members? depth members).isSome ↔
      (∀ a ∈ memberTokens members, a.Sound) ∧ memberNesting members ≤ depth := by
  match members with
  | [] => simp [members?, memberTokens, memberNesting]
  | (name, t) :: members =>
    rw [members?_cons_isSome, Tree.value?_isSome_iff t, members?_isSome_iff members,
      forall_mem_memberTokens_cons trivial trivial, memberNesting, Nat.max_le,
      Spelling.text?_isSome_iff]
    exact (and_congr_right' and_and_and_comm).trans and_assoc.symm

end

end Switchboard.Json
