import Mathlib.Data.String.Basic
import Switchboard.Json.Printer
import Switchboard.Proofs.Meaning

/-!
# Values are read back as written

A value is written in one way, and that text spells a tree which has the value again, as long as it
may nest as deep as the value does. This holds of values as a reader makes them, with the names of
each object in order, and with numbers that come back on their own. Integers do; whether a double
comes back is a question about decimals, not about the grammar, and is left aside.
-/

namespace Switchboard.Json

open Decimal (digitsOf)

/-- An integer that fits in 64 bits, with a sign or without. -/
def Number.Fits : Number → Prop
  | .int i => -0x8000000000000000 ≤ i ∧ i < 0x10000000000000000
  | .real _ => False

mutual

/-- The numbers are integers that fit, and the names of each object ascend. -/
def Value.Plain : Value → Prop
  | .number n => n.Fits
  | .array items => PlainItems items
  | .object members => (members.map (·.1)).Pairwise (· < ·) ∧ PlainMembers members
  | _ => True

def PlainItems : List Value → Prop
  | [] => True
  | v :: rest => v.Plain ∧ PlainItems rest

def PlainMembers : List (String × Value) → Prop
  | [] => True
  | (_, v) :: rest => v.Plain ∧ PlainMembers rest

end

/-- What the number is written as is read as the number. -/
def Number.Returns (n : Number) : Prop := ∃ m : Numeral, m.Spelled n.render ∧ m.number? = some n

mutual

/-- The numbers come back, and the names of each object ascend. -/
def Value.Returns : Value → Prop
  | .number n => n.Returns
  | .array items => ItemsReturn items
  | .object members => (members.map (·.1)).Pairwise (· < ·) ∧ MembersReturn members
  | _ => True

def ItemsReturn : List Value → Prop
  | [] => True
  | v :: rest => v.Returns ∧ ItemsReturn rest

def MembersReturn : List (String × Value) → Prop
  | [] => True
  | (_, v) :: rest => v.Returns ∧ MembersReturn rest

end

mutual

/-- How many containers a value nests. -/
def Value.nesting : Value → Nat
  | .array items => valueNesting items + 1
  | .object members => namedNesting members + 1
  | _ => 0

def valueNesting : List Value → Nat
  | [] => 0
  | v :: rest => max v.nesting (valueNesting rest)

def namedNesting : List (String × Value) → Nat
  | [] => 0
  | (_, v) :: rest => max v.nesting (namedNesting rest)

end

/-! ## Numbers and strings -/

theorem Number.returns_of_fits {n : Number} (h : n.Fits) : n.Returns := by
  cases n with
  | real d => exact h.elim
  | int i =>
    obtain ⟨ds, hchars, hvalue, hwhole⟩ := exists_digits i.natAbs
    obtain ⟨hlow, hhigh⟩ := h
    have hsigned : Nat.pow 2 63 = 9223372036854775808 := by decide
    have hunsigned : wordLimit = 18446744073709551616 := by decide
    refine ⟨⟨decide (i < 0), ds, [], none⟩, ?_, ?_⟩
    · have hspelled := Numeral.Spelled.mk (n := ⟨decide (i < 0), ds, [], none⟩) hwhole .absent
      by_cases hi : i < 0
      · simpa [Number.render, hi, signChars, fractionChars, hchars] using hspelled
      · simpa [Number.render, hi, signChars, fractionChars, hchars] using hspelled
    · have hint : Numeral.int? ⟨decide (i < 0), ds, [], none⟩ = some i := by
        by_cases hi : i < 0
        · have hsize : 1 ≤ i.natAbs ∧ i.natAbs ≤ Nat.pow 2 63 := by omega
          have hneg : -(i.natAbs : Int) = i := by omega
          simp only [Numeral.int?, and_self, if_true, hi, decide_true, hvalue, hsize, hneg]
        · have hsize : i.natAbs < wordLimit := by omega
          have hpos : (i.natAbs : Int) = i := by omega
          simp [Numeral.int?, hi, hvalue, hsize, hpos]
      rw [Numeral.number?, hint]

theorem unit?_control : ∀ n < 0x20,
    unit? '0' '0' (Text.hexDigit (n / 16)) (Text.hexDigit (n % 16)) = some n := by
  decide

/-- A character is written as one piece that stands for it. -/
theorem escape_spelled (c : Char) :
    ∃ p : Piece, p.Spelled (escape c) ∧ (p = .literal c ∨ p = .escaped c) := by
  unfold escape
  iterate 7
    split
    · subst c
      exact ⟨_, .escaped rfl, .inr rfl⟩
  split
  · rename_i hcontrol
    have hlow : c.toNat < 0x20 := by simpa [isControl] using hcontrol
    have hescaped : Piece.ofUnit c.toNat = .escaped c := by
      have hhigh : isHigh c.toNat = false := by simp [isHigh]; omega
      have hlow' : isLow c.toNat = false := by simp [isLow]; omega
      simp [Piece.ofUnit, hhigh, hlow', Char.ofNat_toNat]
    exact ⟨_, .unit (unit?_control _ hlow), .inr hescaped⟩
  · rename_i hquote hslash _ _ _ _ _ hcontrol
    exact ⟨_, .literal (by simpa using hcontrol) hslash hquote, .inl rfl⟩

theorem exists_spelling (s : String) :
    ∃ ps : Spelling, ps.Spelled (s.toList.flatMap escape) ∧ ps.text? = some s := by
  have hchars : ∀ l : List Char,
      ∃ ps : Spelling, ps.Spelled (l.flatMap escape) ∧ ps.chars? = some l := by
    intro l
    induction l with
    | nil => exact ⟨[], .nil, rfl⟩
    | cons c l ih =>
      obtain ⟨ps, hspelled, hps⟩ := ih
      obtain ⟨p, hp, rfl | rfl⟩ := escape_spelled c
      · exact ⟨_, .cons hp hspelled, by simp [Spelling.chars?, hps]⟩
      · exact ⟨_, .cons hp hspelled, by simp [Spelling.chars?, hps]⟩
  obtain ⟨ps, hspelled, hps⟩ := hchars s.toList
  exact ⟨ps, hspelled, by rw [Spelling.text?, hps, Option.map_some, String.ofList_toList]⟩

/-! ## Members in order -/

theorem setMember_last {α : Type} {name : String} {value : α} {members : List (String × α)}
    (h : ∀ m ∈ members, m.1 < name) :
    setMember name value members = members ++ [(name, value)] := by
  induction members with
  | nil => rfl
  | cons m members ih =>
    have hm := h m List.mem_cons_self
    rw [setMember, if_neg (lt_asymm hm), if_neg (ne_of_gt hm),
      ih fun m' hm' => h m' (List.mem_cons_of_mem _ hm')]
    rfl

/-- Members whose names ascend are in order already. -/
theorem sortMembers_sorted {α : Type} {members : List (String × α)}
    (h : (members.map (·.1)).Pairwise (· < ·)) : sortMembers members = members := by
  have hfold : ∀ sorted rest : List (String × α),
      ((sorted ++ rest).map (·.1)).Pairwise (· < ·) →
      rest.foldl (fun sorted m => setMember m.1 m.2 sorted) sorted = sorted ++ rest := by
    intro sorted rest
    -- everything inserted so far is below what is still to come, so each insertion is at the end
    induction rest generalizing sorted with
    | nil => simp
    | cons m rest ih =>
      intro hsorted
      have hlast : ∀ m' ∈ sorted, m'.1 < m.1 := by
        rw [List.map_append, List.pairwise_append] at hsorted
        exact fun m' hm' => hsorted.2.2 _ (List.mem_map_of_mem hm') _ (by simp)
      rw [List.foldl_cons, setMember_last hlast, ih _ (by simpa using hsorted)]
      simp
  exact hfold [] members h

/-! ## Texts of tokens, put together -/

theorem Spaced.append {ts us : List Token} {s r : List Char} (h : Spaced ts s)
    (h' : Spaced us r) : Spaced (ts ++ us) (s ++ r) := by
  induction h with
  | nil => exact h'
  | space hc _ ih => exact .space hc ih
  | token hl _ ih =>
    rw [List.append_assoc]
    exact .token hl ih

theorem Spaced.fixed {t : Token} {l : List Char} (h : t.chars? = some l) {ts : List Token}
    {s : List Char} (hs : Spaced ts s) : Spaced (t :: ts) (l ++ s) := .token (.fixed h) hs

theorem Spaced.single {t : Token} {l : List Char} (h : t.Spelled l) : Spaced [t] l := by
  rw [← List.append_nil l]
  exact .token h .nil

theorem Spaced.member {name : String} {ps : Spelling} {ts : List Token} {s : List Char}
    (hname : ps.Spelled (name.toList.flatMap escape)) (hs : Spaced ts s) :
    Spaced (.text ps :: .colon :: ts) (quote name ++ ':' :: s) :=
  .token (.text hname) (.fixed (l := [':']) rfl hs)

/-! ## Values -/

/-- A tree is written as a value is, nests as deep, and has that value wherever it may. -/
structure Value.Echo (v : Value) (t : Tree) : Prop where
  written : t.Written v.render
  nesting : t.nesting = v.nesting
  value? : ∀ depth, v.nesting ≤ depth → t.value? depth = some v

mutual

theorem Value.exists_echo (v : Value) (h : v.Returns) : ∃ t, v.Echo t := by
  match v with
  | .null => exact ⟨.null, .single (.fixed rfl), rfl, fun _ _ => rfl⟩
  | .bool true => exact ⟨.bool true, .single (.fixed rfl), rfl, fun _ _ => rfl⟩
  | .bool false => exact ⟨.bool false, .single (.fixed rfl), rfl, fun _ _ => rfl⟩
  | .number n =>
    obtain ⟨m, hspelled, hm⟩ := h
    exact ⟨.number m, .single (.number hspelled), rfl, fun _ _ => by rw [Tree.value?, hm]; rfl⟩
  | .text s =>
    obtain ⟨ps, hspelled, hps⟩ := exists_spelling s
    exact ⟨.text ps, .single (.text hspelled), rfl, fun _ _ => by rw [Tree.value?, hps]; rfl⟩
  | .array items =>
    obtain ⟨ts, hwritten, hnesting, hvalues⟩ := exists_echo_items items h
    refine ⟨.array ts, ?_, ?_, ?_⟩
    · exact .fixed (l := ['[']) rfl (hwritten.append (.single (.fixed rfl)))
    · rw [Tree.nesting, Value.nesting, hnesting]
    · intro depth hdepth
      match depth with
      | 0 => simp [Value.nesting] at hdepth
      | depth + 1 => rw [Tree.value?, hvalues depth (Nat.le_of_succ_le_succ hdepth)]; rfl
  | .object members =>
    obtain ⟨ts, hwritten, hnesting, hvalues⟩ := exists_echo_named members h.2
    refine ⟨.object ts, ?_, ?_, ?_⟩
    · exact .fixed (l := ['\x7b']) rfl (hwritten.append (.single (.fixed rfl)))
    · rw [Tree.nesting, Value.nesting, hnesting]
    · intro depth hdepth
      match depth with
      | 0 => simp [Value.nesting] at hdepth
      | depth + 1 =>
        rw [Tree.value?, hvalues depth (Nat.le_of_succ_le_succ hdepth), Option.map_some,
          Value.ofMembers, sortMembers_sorted h.1]

theorem exists_echo_items (vs : List Value) (h : ItemsReturn vs) :
    ∃ ts, Spaced (itemTokens ts) (renderItems vs) ∧ itemNesting ts = valueNesting vs ∧
      ∀ depth, valueNesting vs ≤ depth → values? depth ts = some vs := by
  match vs with
  | [] => exact ⟨[], .nil, rfl, fun _ _ => rfl⟩
  | [v] =>
    obtain ⟨t, hv⟩ := v.exists_echo h.1
    refine ⟨[t], hv.written, ?_, fun depth hdepth => ?_⟩
    · rw [itemNesting, valueNesting, hv.nesting]
      rfl
    · rw [values?, hv.value? depth (le_trans (le_max_left _ _) hdepth)]
      rfl
  | v :: w :: rest =>
    obtain ⟨t, hv⟩ := v.exists_echo h.1
    obtain ⟨ts, hwritten, hnesting, hvalues⟩ := exists_echo_items (w :: rest) h.2
    refine ⟨t :: ts, ?_, ?_, fun depth hdepth => ?_⟩
    · -- the rest has an item, because it has a value of one, so a comma stands before it
      match ts with
      | [] => exact absurd (hvalues _ le_rfl) (by simp [values?])
      | u :: ts => exact hv.written.append (.fixed (l := [',']) rfl hwritten)
    · rw [itemNesting, valueNesting, hv.nesting, hnesting]
    · rw [values?, hv.value? depth (le_trans (le_max_left _ _) hdepth),
        hvalues depth (le_trans (le_max_right _ _) hdepth)]
      rfl

theorem exists_echo_named (ms : List (String × Value)) (h : MembersReturn ms) :
    ∃ ts, Spaced (memberTokens ts) (renderMembers ms) ∧ memberNesting ts = namedNesting ms ∧
      ∀ depth, namedNesting ms ≤ depth → members? depth ts = some ms := by
  match ms with
  | [] => exact ⟨[], .nil, rfl, fun _ _ => rfl⟩
  | [(name, v)] =>
    obtain ⟨ps, hspelled, hps⟩ := exists_spelling name
    obtain ⟨t, hv⟩ := v.exists_echo h.1
    refine ⟨[(ps, t)], ?_, ?_, fun depth hdepth => ?_⟩
    · exact Spaced.member hspelled hv.written
    · rw [memberNesting, namedNesting, hv.nesting]
      rfl
    · rw [members?, hps, hv.value? depth (le_trans (le_max_left _ _) hdepth)]
      rfl
  | (name, v) :: m :: rest =>
    obtain ⟨ps, hspelled, hps⟩ := exists_spelling name
    obtain ⟨t, hv⟩ := v.exists_echo h.1
    obtain ⟨ts, hwritten, hnesting, hvalues⟩ := exists_echo_named (m :: rest) h.2
    refine ⟨(ps, t) :: ts, ?_, ?_, fun depth hdepth => ?_⟩
    · match ts with
      | [] => exact absurd (hvalues _ le_rfl) (by simp [members?])
      | u :: ts =>
        exact (Spaced.member hspelled hv.written).append (.fixed (l := [',']) rfl hwritten)
    · rw [memberNesting, namedNesting, hv.nesting, hnesting]
    · rw [members?, hps, hv.value? depth (le_trans (le_max_left _ _) hdepth),
        hvalues depth (le_trans (le_max_right _ _) hdepth)]
      rfl

end

mutual

/-- Integers come back, and so does what holds no other numbers. -/
theorem Value.returns_of_plain (v : Value) (h : v.Plain) : v.Returns := by
  match v with
  | .number n => exact Number.returns_of_fits h
  | .array items => exact itemsReturn_of_plain items h
  | .object members => exact ⟨h.1, membersReturn_of_plain members h.2⟩
  | .null | .bool _ | .text _ => trivial

theorem itemsReturn_of_plain (vs : List Value) (h : PlainItems vs) : ItemsReturn vs := by
  match vs with
  | [] => trivial
  | v :: vs => exact ⟨v.returns_of_plain h.1, itemsReturn_of_plain vs h.2⟩

theorem membersReturn_of_plain (ms : List (String × Value)) (h : PlainMembers ms) :
    MembersReturn ms := by
  match ms with
  | [] => trivial
  | (_, v) :: ms => exact ⟨v.returns_of_plain h.1, membersReturn_of_plain ms h.2⟩

end

theorem exists_echo_members (ms : List (String × Value)) (h : PlainMembers ms) :
    ∃ ts, Spaced (memberTokens ts) (renderMembers ms) ∧ memberNesting ts = namedNesting ms ∧
      ∀ depth, namedNesting ms ≤ depth → members? depth ts = some ms :=
  exists_echo_named ms (membersReturn_of_plain ms h)

end Switchboard.Json
