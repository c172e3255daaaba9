import Mathlib.Data.List.Chain
import Switchboard.Json.Token
import Switchboard.Proofs.Digits

/-!
# The spelling of tokens

How each token of a JSON text may be spelled, said without a reader: a numeral by its digits, a
string piece by piece, and a text as lexemes with blanks between them. The readers are then shown to
take exactly these spellings. A numeral has no closing mark, so the reader of one has to be told
that the text does not go on with more of it (`Ends`); nothing else needs to know what follows.
-/

namespace Switchboard.Json

/-! ## Numerals -/

/-- The text does not begin with anything that a numeral could go on with. -/
def Ends (s : List Char) : Prop :=
  ∀ c ∈ s.head?, digit? c = none ∧ c ≠ '.' ∧ c ≠ 'e' ∧ c ≠ 'E'

theorem Ends.noDigit {s : List Char} (h : Ends s) : NoDigit s := fun c hc => (h c hc).1

/-- The spelling of a fraction; no digits are spelled without a point. -/
def fractionChars (ds : List Digit) : List Char := if ds = [] then [] else '.' :: ds.map digitChar

/-- How the power of ten may be spelled. -/
inductive Power : Option Int → List Char → Prop
  | absent : Power none []
  | plain {c : Char} {ds : List Digit} : c = 'e' ∨ c = 'E' → ds ≠ [] →
      Power (some (natOfDigits ds)) (c :: ds.map digitChar)
  | plus {c : Char} {ds : List Digit} : c = 'e' ∨ c = 'E' → ds ≠ [] →
      Power (some (natOfDigits ds)) (c :: '+' :: ds.map digitChar)
  | minus {c : Char} {ds : List Digit} : c = 'e' ∨ c = 'E' → ds ≠ [] →
      Power (some (-(natOfDigits ds : Int))) (c :: '-' :: ds.map digitChar)

/-- The spelling of a sign; only a minus is spelled. -/
def signChars (negative : Bool) : List Char := if negative then ['-'] else []

/-- How a numeral may be spelled. -/
inductive Numeral.Spelled : Numeral → List Char → Prop
  | mk {n : Numeral} {power : List Char} : IsWhole n.whole → Power n.exponent power →
      Spelled n (signChars n.negative ++
        (n.whole.map digitChar ++ (fractionChars n.fraction ++ power)))

section Numerals

variable {s r : List Char} {ds : List Digit}

theorem takeWhole_sound (h : takeWhole s = some (ds, r)) :
    IsWhole ds ∧ s = ds.map digitChar ++ r := by
  unfold takeWhole at h
  split at h
  · simp at h
  · rename_i d ds' r' heq
    split at h
    · simp at h
    · rename_i hz
      obtain ⟨rfl, rfl⟩ := Prod.mk.inj (Option.some.inj h)
      refine ⟨⟨List.cons_ne_nil _ _, fun hd => ?_⟩, eq_of_takeDigits heq⟩
      have hzero : d = 0 := Fin.ext (Option.some.inj hd)
      by_contra hne
      exact hz ⟨hzero, hne⟩

theorem takeWhole_append (h : IsWhole ds) (hr : NoDigit r) :
    takeWhole (ds.map digitChar ++ r) = some (ds, r) := by
  unfold takeWhole
  rw [takeDigits_append ds hr]
  cases ds with
  | nil => exact absurd rfl h.1
  | cons d ds =>
    have hz : ¬ (d = 0 ∧ ds ≠ []) := by
      rintro ⟨rfl, hne⟩
      exact hne (h.2 rfl)
    simp only [if_neg hz]

theorem takeFraction_sound (h : takeFraction s = some (ds, r)) : s = fractionChars ds ++ r := by
  unfold takeFraction at h
  split at h
  · split at h
    · simp at h
    · rename_i ds' r' hne heq
      obtain ⟨rfl, rfl⟩ := Prod.mk.inj (Option.some.inj h)
      have hds : ds' ≠ [] := hne
      rw [fractionChars, if_neg hds, List.cons_append, ← eq_of_takeDigits heq]
  · obtain ⟨rfl, rfl⟩ := Prod.mk.inj (Option.some.inj h)
    rfl

theorem takeFraction_append (ds : List Digit) (hr : NoDigit r) (hp : ∀ c ∈ r.head?, c ≠ '.') :
    takeFraction (fractionChars ds ++ r) = some (ds, r) := by
  cases ds with
  | nil =>
    have hnone : fractionChars [] ++ r = r := rfl
    rw [hnone]
    unfold takeFraction
    split
    · exact absurd rfl (hp '.' rfl)
    · rfl
  | cons d ds =>
    have hsome : fractionChars (d :: ds) ++ r = '.' :: ((d :: ds).map digitChar ++ r) := rfl
    rw [hsome, takeFraction, takeDigits_append _ hr]

theorem takePower_sound {negative : Bool} {e : Option Int}
    (h : takePower negative s = some (e, r)) :
    ∃ ds, ds ≠ [] ∧ s = ds.map digitChar ++ r ∧
      e = some (if negative then -(natOfDigits ds : Int) else natOfDigits ds) := by
  unfold takePower at h
  split at h
  · simp at h
  · rename_i ds r' hne heq
    obtain ⟨rfl, rfl⟩ := Prod.mk.inj (Option.some.inj h)
    exact ⟨ds, hne, eq_of_takeDigits heq, rfl⟩

theorem takePower_append (negative : Bool) (hne : ds ≠ []) (hr : NoDigit r) :
    takePower negative (ds.map digitChar ++ r) =
      some (some (if negative then -(natOfDigits ds : Int) else natOfDigits ds), r) := by
  unfold takePower
  rw [takeDigits_append ds hr]
  cases ds with
  | nil => exact absurd rfl hne
  | cons d ds => rfl

theorem takeExponent_sound {e : Option Int} (h : takeExponent s = some (e, r)) :
    ∃ power, Power e power ∧ s = power ++ r := by
  unfold takeExponent at h
  split at h
  · rename_i c rest
    split at h
    · rename_i hc
      split at h
      · obtain ⟨ds, hne, rfl, rfl⟩ := takePower_sound h
        exact ⟨_, .minus hc hne, rfl⟩
      · obtain ⟨ds, hne, rfl, rfl⟩ := takePower_sound h
        exact ⟨_, .plus hc hne, rfl⟩
      · obtain ⟨ds, hne, rfl, rfl⟩ := takePower_sound h
        exact ⟨_, .plain hc hne, rfl⟩
    · obtain ⟨rfl, rfl⟩ := Prod.mk.inj (Option.some.inj h)
      exact ⟨[], .absent, rfl⟩
  · obtain ⟨rfl, rfl⟩ := Prod.mk.inj (Option.some.inj h)
    exact ⟨[], .absent, rfl⟩

theorem takeExponent_append {e : Option Int} {power : List Char} (h : Power e power)
    (hr : Ends r) : takeExponent (power ++ r) = some (e, r) := by
  cases h with
  | absent =>
    cases r with
    | nil => rfl
    | cons c r =>
      obtain ⟨-, -, he, hE⟩ := hr c rfl
      simp [takeExponent, he, hE]
  | plain hc hne =>
    rename_i c ds
    -- the first digit is not taken for a sign
    have hsign : ∀ c ∈ (ds.map digitChar ++ r).head?, c ≠ '-' ∧ c ≠ '+' := by
      cases ds with
      | nil => exact absurd rfl hne
      | cons d ds =>
        rintro c hc
        obtain rfl := Option.some.inj hc
        exact ⟨digitChar_ne (by decide) d, digitChar_ne (by decide) d⟩
    rw [List.cons_append, takeExponent, if_pos hc]
    · exact takePower_append false hne hr.noDigit
    · intro rest heq
      exact (hsign '-' (by rw [heq]; rfl)).1 rfl
    · intro rest heq
      exact (hsign '+' (by rw [heq]; rfl)).2 rfl
  | plus hc hne =>
    rw [List.cons_append, List.cons_append, takeExponent, if_pos hc]
    exact takePower_append false hne hr.noDigit
  | minus hc hne =>
    rw [List.cons_append, List.cons_append, takeExponent, if_pos hc]
    exact takePower_append true hne hr.noDigit

theorem Numeral.readUnsigned_sound {negative : Bool} {n : Numeral}
    (h : readUnsigned negative s = some (n, r)) :
    ∃ l, n.Spelled l ∧ signChars negative ++ s = l ++ r := by
  unfold readUnsigned at h
  split at h
  · simp at h
  · rename_i whole s₁ hwhole
    split at h
    · simp at h
    · rename_i fraction s₂ hfraction
      split at h
      · simp at h
      · rename_i exponent s₃ hexponent
        obtain ⟨rfl, rfl⟩ := Prod.mk.inj (Option.some.inj h)
        obtain ⟨hw, rfl⟩ := takeWhole_sound hwhole
        obtain rfl := takeFraction_sound hfraction
        obtain ⟨power, hp, rfl⟩ := takeExponent_sound hexponent
        exact ⟨_, .mk hw hp, by simp only [List.append_assoc]⟩

/-- What a numeral is read from spells it. -/
theorem Numeral.read_sound {n : Numeral} (h : Numeral.read s = some (n, r)) :
    ∃ l, n.Spelled l ∧ s = l ++ r := by
  unfold Numeral.read at h
  split at h
  · exact readUnsigned_sound h
  · exact readUnsigned_sound h

theorem Power.head {e : Option Int} {power : List Char} (h : Power e power) :
    ∀ c ∈ power.head?, c = 'e' ∨ c = 'E' := by
  cases h with
  | absent => simp
  | plain hc _ => simpa using hc
  | plus hc _ => simpa using hc
  | minus hc _ => simpa using hc

theorem Numeral.readUnsigned_append {n : Numeral} {power : List Char} (hw : IsWhole n.whole)
    (hp : Power n.exponent power) (hr : Ends r) :
    readUnsigned n.negative (n.whole.map digitChar ++ (fractionChars n.fraction ++ (power ++ r))) =
      some (n, r) := by
  -- what follows each part does not begin with a digit, and behind the fraction with no point
  have htail : ∀ c ∈ (power ++ r).head?, digit? c = none ∧ c ≠ '.' := by
    cases power with
    | nil => exact fun c hc => ⟨(hr c hc).1, (hr c hc).2.1⟩
    | cons c power =>
      intro d hd
      obtain rfl := Option.some.inj hd
      rcases hp.head c rfl with rfl | rfl <;> decide
  have hfraction : NoDigit (fractionChars n.fraction ++ (power ++ r)) := by
    unfold fractionChars
    split
    · exact fun c hc => (htail c hc).1
    · intro c hc
      obtain rfl := Option.some.inj hc
      decide
  rw [readUnsigned, takeWhole_append hw hfraction]
  dsimp only
  rw [takeFraction_append _ (fun c hc => (htail c hc).1) fun c hc => (htail c hc).2]
  dsimp only
  rw [takeExponent_append hp hr]

theorem Numeral.Spelled.head {n : Numeral} {l : List Char} (h : n.Spelled l) :
    ∃ c l', l = c :: l' ∧ (c = '-' ∨ ∃ d, c = digitChar d) := by
  obtain ⟨hw, -⟩ := h
  unfold signChars
  split
  · exact ⟨'-', _, rfl, .inl rfl⟩
  · cases hn : n.whole with
    | nil => exact absurd hn hw.1
    | cons d ds => exact ⟨_, _, rfl, .inr ⟨d, rfl⟩⟩

/-- A spelling of a numeral is read as it where the text does not go on with more digits. -/
theorem Numeral.read_append {n : Numeral} {l : List Char} (h : n.Spelled l) (hr : Ends r) :
    Numeral.read (l ++ r) = some (n, r) := by
  obtain ⟨hw, hp⟩ := h
  rename_i power
  have hrest := readUnsigned_append hw hp hr
  cases hn : n.negative with
  | true =>
    rw [hn] at hrest
    simpa [signChars, Numeral.read] using hrest
  | false =>
    rw [hn] at hrest
    cases hwhole : n.whole with
    | nil => exact absurd hwhole hw.1
    | cons d ds =>
      rw [hwhole] at hrest
      have hminus : digitChar d ≠ '-' := digitChar_ne (by decide) d
      simpa [signChars, Numeral.read, hminus] using hrest

end Numerals

/-! ## Strings -/

/-- How a piece of a string may be spelled. -/
inductive Piece.Spelled : Piece → List Char → Prop
  | literal {c : Char} : isControl c = false → c ≠ '\\' → c ≠ '"' → Spelled (.literal c) [c]
  | escaped {e c : Char} : escaped? e = some c → Spelled (.escaped c) ['\\', e]
  | unit {a b c d : Char} {u : Nat} : unit? a b c d = some u →
      Spelled (Piece.ofUnit u) ['\\', 'u', a, b, c, d]

/-- How the inside of a string may be spelled. -/
inductive Spelling.Spelled : Spelling → List Char → Prop
  | nil : Spelled [] []
  | cons {p : Piece} {ps : Spelling} {l m : List Char} : p.Spelled l → Spelled ps m →
      Spelled (p :: ps) (l ++ m)

theorem Spelling.read_sound {s r : List Char} {ps : Spelling} (h : Spelling.read s = some (ps, r)) :
    ∃ l, Spelling.Spelled ps l ∧ s = l ++ '"' :: r := by
  fun_induction Spelling.read s generalizing ps r with
  | case1 => simp at h
  | case2 rest =>
    obtain ⟨rfl, rfl⟩ := Prod.mk.inj (Option.some.inj h)
    exact ⟨[], .nil, rfl⟩
  | case3 => simp at h
  | case4 a b c d rest unit hu ih =>
    simp only [Option.map_eq_some_iff, Prod.mk.injEq, Prod.exists] at h
    obtain ⟨ps', r', hread, rfl, rfl⟩ := h
    obtain ⟨l, hl, rfl⟩ := ih hread
    exact ⟨_, .cons (.unit hu) hl, rfl⟩
  | case5 => simp at h
  | case6 e rest _ c he ih =>
    simp only [Option.map_eq_some_iff, Prod.mk.injEq, Prod.exists] at h
    obtain ⟨ps', r', hread, rfl, rfl⟩ := h
    obtain ⟨l, hl, rfl⟩ := ih hread
    exact ⟨_, .cons (.escaped he) hl, rfl⟩
  | case7 => simp at h
  | case8 c rest hquote _ _ hplain ih =>
    simp only [Option.map_eq_some_iff, Prod.mk.injEq, Prod.exists] at h
    obtain ⟨ps', r', hread, rfl, rfl⟩ := h
    obtain ⟨l, hl, rfl⟩ := ih hread
    simp only [Bool.or_eq_true, beq_iff_eq, not_or, Bool.not_eq_true] at hplain
    exact ⟨_, .cons (.literal hplain.1 hplain.2 hquote) hl, rfl⟩

theorem Spelling.read_append {ps : Spelling} {l : List Char} (h : Spelling.Spelled ps l)
    (r : List Char) : Spelling.read (l ++ '"' :: r) = some (ps, r) := by
  induction h with
  | nil => simp [Spelling.read]
  | cons hp _ ih =>
    rw [List.append_assoc]
    cases hp with
    | literal hc hslash hquote => simp [Spelling.read, ih, hc, hslash]
    | escaped he =>
      rename_i e c
      have hu : e ≠ 'u' := by
        rintro rfl
        simp [escaped?] at he
      simp [Spelling.read, ih, he, hu]
    | unit hu => simp [Spelling.read, ih, hu]

/-! ## Tokens -/

/-- The spelling of a token that has only one. -/
def Token.chars? : Token → Option (List Char)
  | .openArray => some ['[']
  | .closeArray => some [']']
  | .openObject => some ['\x7b']
  | .closeObject => some ['\x7d']
  | .comma => some [',']
  | .colon => some [':']
  | .null => some ['n', 'u', 'l', 'l']
  | .bool true => some ['t', 'r', 'u', 'e']
  | .bool false => some ['f', 'a', 'l', 's', 'e']
  | .number _ | .text _ => none

/-- How a token may be spelled. -/
inductive Token.Spelled : Token → List Char → Prop
  | fixed {t : Token} {l : List Char} : t.chars? = some l → Spelled t l
  | number {n : Numeral} {l : List Char} : n.Spelled l → Spelled (.number n) l
  | text {ps : Spelling} {l : List Char} : ps.Spelled l → Spelled (.text ps) ('"' :: (l ++ ['"']))

def Token.isNumber : Token → Bool
  | .number _ => true
  | _ => false

theorem Token.read_sound {s r : List Char} {t : Token} (h : Token.read s = some (t, r)) :
    ∃ l, t.Spelled l ∧ s = l ++ r := by
  unfold Token.read at h
  split at h
  case h_10 rest =>
    simp only [Option.map_eq_some_iff, Prod.mk.injEq, Prod.exists] at h
    obtain ⟨ps, r', hread, rfl, rfl⟩ := h
    obtain ⟨l, hl, rfl⟩ := Spelling.read_sound hread
    exact ⟨_, .text hl, by simp⟩
  case h_11 =>
    simp only [Option.map_eq_some_iff, Prod.mk.injEq, Prod.exists] at h
    obtain ⟨n, r', hread, rfl, rfl⟩ := h
    obtain ⟨l, hl, rfl⟩ := Numeral.read_sound hread
    exact ⟨_, .number hl, rfl⟩
  all_goals
    obtain ⟨rfl, rfl⟩ := Prod.mk.inj (Option.some.inj h)
    exact ⟨_, .fixed rfl, rfl⟩

theorem Token.read_append {t : Token} {l r : List Char} (h : t.Spelled l)
    (hr : t.isNumber = true → Ends r) : Token.read (l ++ r) = some (t, r) := by
  cases h with
  | fixed hfixed =>
    cases t with
    | bool b => cases b <;> (obtain rfl := Option.some.inj hfixed; rfl)
    | number | text => simp [Token.chars?] at hfixed
    | _ => obtain rfl := Option.some.inj hfixed; rfl
  | number hn =>
    rename_i n
    have hread := Numeral.read_append hn (hr rfl)
    obtain ⟨c, l', rfl, hc⟩ := hn.head
    unfold Token.read
    split
    case h_11 => rw [hread]; rfl
    all_goals
      rename_i heq
      obtain ⟨rfl, -⟩ := List.cons.inj heq
      exact absurd hc (by decide)
  | text hps => simp [Token.read, Spelling.read_append hps]

theorem isSpace_digitChar (d : Digit) : isSpace (digitChar d) = false := by
  revert d
  decide

theorem ends_cons {c : Char} {s : List Char}
    (h : digit? c = none ∧ c ≠ '.' ∧ c ≠ 'e' ∧ c ≠ 'E') : Ends (c :: s) := by
  intro d hd
  obtain rfl := Option.some.inj hd
  exact h

/-- No token begins with a blank, and only a number could go on with a numeral. -/
theorem Token.Spelled.head {t : Token} {l : List Char} (h : t.Spelled l) :
    ∃ c l', l = c :: l' ∧ isSpace c = false ∧ (t.isNumber = false → ∀ r, Ends (l ++ r)) := by
  cases h with
  | fixed hfixed =>
    cases t with
    | bool b =>
      cases b <;>
        (obtain rfl := Option.some.inj hfixed
         exact ⟨_, _, rfl, by decide, fun _ _ => ends_cons (by decide)⟩)
    | number | text => simp [Token.chars?] at hfixed
    | _ =>
      obtain rfl := Option.some.inj hfixed
      exact ⟨_, _, rfl, by decide, fun _ _ => ends_cons (by decide)⟩
  | number hn =>
    obtain ⟨c, l', rfl, hc⟩ := hn.head
    refine ⟨c, l', rfl, ?_, nofun⟩
    rcases hc with rfl | ⟨d, rfl⟩
    · decide
    · exact isSpace_digitChar d
  | text => exact ⟨_, _, rfl, by decide, fun _ _ => ends_cons (by decide)⟩

/-! ## Texts of tokens -/

/-- How a list of tokens may be spelled: with any blanks before each of them and at the end. -/
inductive Spaced : List Token → List Char → Prop
  | nil : Spaced [] []
  | space {c : Char} {ts : List Token} {s : List Char} : isSpace c = true → Spaced ts s →
      Spaced ts (c :: s)
  | token {t : Token} {ts : List Token} {l s : List Char} : t.Spelled l → Spaced ts s →
      Spaced (t :: ts) (l ++ s)

/-- No number stands right behind another one. -/
def Separate : List Token → Prop :=
  List.IsChain fun t u => t.isNumber = true → u.isNumber = false

/-- The token that is read first stands first. -/
theorem Spaced.of_read {t : Token} {ts : List Token} {s r : List Char}
    (h : Token.read s = some (t, r)) (hr : Spaced ts r) : Spaced (t :: ts) s := by
  obtain ⟨l, hl, rfl⟩ := Token.read_sound h
  exact .token hl hr

theorem Spaced.of_tokens? {s : List Char} {ts : List Token} (h : tokens? s = some ts) :
    Spaced ts s := by
  fun_induction tokens? s generalizing ts with
  | case1 =>
    obtain rfl := Option.some.inj h
    exact .nil
  | case2 c rest hc ih => exact .space hc (ih h)
  | case3 => simp at h
  | case4 c rest _ t rest' hread _ ih =>
    obtain ⟨ts', hts, rfl⟩ := Option.map_eq_some_iff.mp h
    exact .of_read hread (ih hts)

/-- A text of tokens that does not begin with a number does not go on with a numeral either. -/
theorem Spaced.ends {s : List Char} {ts : List Token} (h : Spaced ts s)
    (hno : ∀ t ∈ ts.head?, t.isNumber = false) : Ends s := by
  cases h with
  | nil => simp [Ends]
  | space hc _ =>
    simp only [isSpace, Bool.or_eq_true, beq_iff_eq] at hc
    rcases hc with ((rfl | rfl) | rfl) | rfl <;> exact ends_cons (by decide)
  | token hl _ =>
    obtain ⟨-, -, -, -, hends⟩ := hl.head
    exact hends (hno _ rfl) _

theorem tokens?_append {t : Token} {l r : List Char} {ts : List Token} (hl : t.Spelled l)
    (hr : t.isNumber = true → Ends r) (hts : tokens? r = some ts) :
    tokens? (l ++ r) = some (t :: ts) := by
  have hread := Token.read_append hl hr
  obtain ⟨c, l', rfl, hc, -⟩ := hl.head
  rw [List.cons_append] at hread ⊢
  rw [tokens?, if_neg (by rw [hc]; decide)]
  split
  · rename_i hnone
    rw [hread] at hnone
    simp at hnone
  · rename_i t' r' hsome
    obtain ⟨rfl, rfl⟩ := Prod.mk.inj (Option.some.inj (hread.symm.trans hsome))
    rw [hts]
    rfl

/-- The tokens of a text are read back from every spelling of it. -/
theorem Spaced.tokens? {s : List Char} {ts : List Token} (h : Spaced ts s) (hts : Separate ts) :
    tokens? s = some ts := by
  induction h with
  | nil => simp [Json.tokens?]
  | space hc _ ih => rw [Json.tokens?, if_pos hc, ih hts]
  | token hl hs ih =>
    refine tokens?_append hl (fun hnumber => hs.ends fun u hu => ?_) (ih hts.tail)
    exact (List.isChain_cons.mp hts).1 u hu hnumber

end Switchboard.Json
