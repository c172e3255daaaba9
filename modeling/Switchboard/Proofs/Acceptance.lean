import Switchboard.Config.CommandLine
import Switchboard.Proofs.Digits
import Switchboard.Proofs.Limits
import Switchboard.Web.Instance

/-!
# Accepted configurations

Which limits a configuration may set for connections, and which of those a connection can be served
with. Reading puts one value after the other into a draft (`Drafted`), and a number is asked nothing
but whether it can be kept: all that can be kept are accepted (`read_environmentOf`). A connection
asks for more, so some configurations are accepted that no connection can live with
(`limits_borne_exactly`).
-/

namespace Switchboard

/-- The limits of a connection as a configuration sets them, with times in seconds. -/
structure Limits where
  capacity : Nat
  heartbeat : Nat
  pong : Nat
  write : Nat

namespace Limits

/-- Every limit is a number that 64 bits hold. -/
structure Keepable (l : Limits) : Prop where
  capacity : l.capacity < 2 ^ 64
  heartbeat : l.heartbeat < 2 ^ 64
  pong : l.pong < 2 ^ 64
  write : l.write < 2 ^ 64

/-- A connection can be served with the limits until an instant. -/
structure Bearable (l : Limits) (last : Instant) : Prop where
  one_le_capacity : 1 ≤ l.capacity
  capacity_lt : l.capacity < 2 ^ 61
  heartbeat_pos : 0 < l.heartbeat
  heartbeat_lt : last + l.heartbeat * 1000 < 2 ^ 63 * 1000
  pong_lt : last + l.pong * 1000 < 2 ^ 63 * 1000
  /-- A writer's grace is twice the time for a write. -/
  write_lt : l.write < 2 ^ 63

end Limits

namespace Config

def limits (c : Config) : Limits := ⟨c.queueCapacity, c.heartbeatSecs, c.pongSecs, c.writeSecs⟩

/-! ## Drafts -/

/-- Drafts come from the empty one by values that are put in. -/
inductive Drafted : Draft → Prop
  | empty : Drafted .empty
  | put {d d' : Draft} {value : String} {s : Setting} :
      Drafted d → d.put value s = .ok d' → Drafted d'

namespace Reading

variable {r r' : Reading} {s : Setting}

theorem drafted_judge {value : String} (hr : Drafted r.draft) (h : r.judge s value = .ok r') :
    Drafted r'.draft := by
  unfold judge at h
  split at h
  · cases h
  · split at h
    · rename_i d hput
      exact Except.ok.inj h ▸ hr.put hput
    · cases h

theorem drafted_resolve (hr : Drafted r.draft) (h : r.resolve = .ok r') : Drafted r'.draft := by
  unfold resolve at h
  split at h
  · exact Except.ok.inj h ▸ hr
  · cases h
  · exact drafted_judge hr h

theorem drafted_begin {attached : Option String} (hr : Drafted r.draft)
    (h : r.begin s attached = .ok r') : Drafted r'.draft := by
  unfold begin at h
  split at h
  · rename_i r₁ value hresolve
    exact drafted_judge (drafted_resolve hr hresolve) h
  · rename_i r₁ hresolve
    have hr₁ : Drafted r₁.draft := drafted_resolve hr hresolve
    exact Except.ok.inj h ▸ hr₁
  · cases h

/-- A request for information ends the line without a draft. -/
theorem finish_ne_ok {e : UsageError} : r.finish e ≠ .ok r' := by
  unfold finish
  split
  · exact nofun
  · exact nofun

theorem drafted_readWord {w : Word} (hr : Drafted r.draft) (h : r.readWord w = .ok r') :
    Drafted r'.draft := by
  unfold readWord at h
  split at h
  · exact Except.ok.inj h ▸ hr
  · split at h
    · exact drafted_begin hr h
    · exact absurd h finish_ne_ok
    · exact absurd h finish_ne_ok
    · cases h
    · cases h
  · split at h
    · exact drafted_begin hr h
    · exact absurd h finish_ne_ok
    · exact absurd h finish_ne_ok
    · cases h
  · split at h
    · exact Except.ok.inj h ▸ hr
    · cases h

theorem drafted_read {arg : String} (hr : Drafted r.draft) (h : r.read arg = .ok r') :
    Drafted r'.draft := by
  unfold read at h
  split at h
  · cases h
  · exact drafted_readWord hr h

end Reading

/-- What every step keeps holds in the end. -/
theorem foldlM_induct {α β ε : Type} {P : β → Prop} {f : β → α → Except ε β}
    (hf : ∀ b a b', P b → f b a = .ok b' → P b') {as : List α} {b b' : β} (hb : P b)
    (h : as.foldlM f b = .ok b') : P b' := by
  induction as generalizing b with
  | nil => exact Except.ok.inj h ▸ hb
  | cons a as ih =>
    rw [List.foldlM_cons] at h
    obtain ⟨b₁, hstep, h⟩ := bind_eq_ok_iff.mp h
    exact ih (hf b a b₁ hb hstep) h

section Reads

variable {args : List String} {environment : List (String × String)} {d d' : Draft} {c : Config}

theorem drafted_readLine (h : readLine args = .ok d) : Drafted d := by
  obtain ⟨r, hargs, h⟩ := bind_eq_ok_iff.mp h
  obtain ⟨r', hresolve, h⟩ := bind_eq_ok_iff.mp h
  have hr : Drafted r.draft :=
    foldlM_induct (P := fun r => Drafted r.draft) (fun _ _ _ => Reading.drafted_read) .empty hargs
  exact Except.ok.inj h ▸ Reading.drafted_resolve hr hresolve

theorem drafted_readVariables (hd : Drafted d) (h : readVariables environment d = .ok d') :
    Drafted d' := by
  refine foldlM_induct (fun d s d' hd hd' => ?_) hd h
  split at hd'
  · exact Except.ok.inj hd' ▸ hd
  · split at hd'
    · exact hd.put hd'
    · exact Except.ok.inj hd' ▸ hd

/-- **A configuration is a completed draft.** -/
theorem drafted_of_read (h : Config.read args environment = .ok c) :
    ∃ d, Drafted d ∧ c = d.complete := by
  obtain ⟨d, hline, h⟩ := bind_eq_ok_iff.mp h
  obtain ⟨d', hvariables, h⟩ := bind_eq_ok_iff.mp h
  exact ⟨d', drafted_readVariables (drafted_readLine hline) hvariables, (Except.ok.inj h).symm⟩

end Reads

/-! ## Numbers that are accepted -/

section Numbers

variable {limit n : Nat} {value : String} {d d' : Draft}

theorem lt_of_unsigned? (h : unsigned? limit value = some n) : n < limit :=
  of_decide_eq_true (Option.filter_eq_some_iff.mp h).2

theorem lt_of_signed? (hlimit : 0 < limit) (h : signed? limit value = some n) : n < limit := by
  unfold signed? at h
  split at h
  · have hzero : n = 0 := of_decide_eq_true (Option.filter_eq_some_iff.mp h).2
    exact hzero ▸ hlimit
  · exact lt_of_unsigned? h

/-- Every number that a draft has can be kept. -/
structure Draft.Counted (d : Draft) : Prop where
  queueCapacity : ∀ n ∈ d.queueCapacity, n < limit64
  heartbeatSecs : ∀ n ∈ d.heartbeatSecs, n < limit64
  pongSecs : ∀ n ∈ d.pongSecs, n < limit64
  writeSecs : ∀ n ∈ d.writeSecs, n < limit64
  maxFrameBytes : ∀ n ∈ d.maxFrameBytes, n < limit64
  maxAuthAttempts : ∀ n ∈ d.maxAuthAttempts, n < limit32
  port : ∀ n ∈ d.port, n < limit16

theorem exists_of_orElse {α : Type} {e : UsageError} {v : Option α} {set : α → Draft}
    (h : Draft.orElse e v set = .ok d) : ∃ a, v = some a ∧ d = set a := by
  cases v with
  | none => cases h
  | some a => exact ⟨a, rfl, (Except.ok.inj h).symm⟩

theorem Draft.Counted.put {s : Setting} (hd : d.Counted) (h : d.put value s = .ok d') :
    d'.Counted := by
  have kept {limit n : Nat} (hn : n < limit) : ∀ m ∈ some n, m < limit := by
    rintro m ⟨⟩
    exact hn
  cases s with
  | allowedOrigins | jwtSecret | interface => exact Except.ok.inj h ▸ { hd with }
  | logLevel | environment =>
    obtain ⟨a, -, rfl⟩ := exists_of_orElse h
    exact { hd with }
  | queueCapacity =>
    obtain ⟨n, hn, rfl⟩ := exists_of_orElse h
    exact { hd with queueCapacity := kept (lt_of_unsigned? hn) }
  | heartbeatSecs =>
    obtain ⟨n, hn, rfl⟩ := exists_of_orElse h
    exact { hd with heartbeatSecs := kept (lt_of_unsigned? hn) }
  | pongSecs =>
    obtain ⟨n, hn, rfl⟩ := exists_of_orElse h
    exact { hd with pongSecs := kept (lt_of_unsigned? hn) }
  | writeSecs =>
    obtain ⟨n, hn, rfl⟩ := exists_of_orElse h
    exact { hd with writeSecs := kept (lt_of_unsigned? hn) }
  | maxFrameBytes =>
    obtain ⟨n, hn, rfl⟩ := exists_of_orElse h
    exact { hd with maxFrameBytes := kept (lt_of_unsigned? hn) }
  | maxAuthAttempts =>
    obtain ⟨n, hn, rfl⟩ := exists_of_orElse h
    exact { hd with maxAuthAttempts := kept (lt_of_signed? (by decide) hn) }
  | port =>
    obtain ⟨n, hn, rfl⟩ := exists_of_orElse h
    exact { hd with port := kept (lt_of_signed? (by decide) hn) }

theorem Drafted.counted (h : Drafted d) : d.Counted := by
  induction h with
  | empty => constructor <;> exact nofun
  | put _ hput ih => exact ih.put hput

/-- The limits that an accepted configuration sets can be kept. -/
theorem keepable_of_read {args : List String} {environment : List (String × String)} {c : Config}
    (h : Config.read args environment = .ok c) : c.limits.Keepable := by
  obtain ⟨d, hd, rfl⟩ := drafted_of_read h
  have lt_getD {o : Option Nat} {default : Nat} (ho : ∀ n ∈ o, n < limit64)
      (hdefault : default < limit64) : o.getD default < limit64 := by
    cases o with
    | none => exact hdefault
    | some n => exact ho n rfl
  exact ⟨lt_getD hd.counted.queueCapacity (by decide), lt_getD hd.counted.heartbeatSecs (by decide),
    lt_getD hd.counted.pongSecs (by decide), lt_getD hd.counted.writeSecs (by decide)⟩

end Numbers

/-! ## Numbers read back -/

section Digits

open Json (Digit digitChar natOfDigits exists_digits digitChar_ne)

theorem foldlM_digits (ds : List Digit) (n : Nat) :
    (ds.map digitChar).foldlM
        (fun n c => if c.isDigit then some (n * 10 + (c.toNat - 48)) else none) n =
      some (ds.foldl (fun n d => n * 10 + d.val) n) := by
  have hdigit : ∀ d : Digit, (digitChar d).isDigit = true ∧ (digitChar d).toNat - 48 = d.val := by
    decide
  induction ds generalizing n with
  | nil => rfl
  | cons d ds ih =>
    obtain ⟨hisDigit, hval⟩ := hdigit d
    rw [List.map_cons, List.foldlM_cons, if_pos hisDigit, hval]
    exact ih (n * 10 + d.val)

theorem digitsValue?_digits {ds : List Digit} (h : ds ≠ []) :
    digitsValue? (ds.map digitChar) = some (natOfDigits ds) := by
  cases ds with
  | nil => exact absurd rfl h
  | cons d ds => exact foldlM_digits (d :: ds) 0

/-- A number as it is written. -/
def figures (n : Nat) : String := String.ofList (Decimal.digitsOf n)

/-- A number that can be kept is read back. -/
theorem unsigned?_figures {limit n : Nat} (h : n < limit) :
    unsigned? limit (figures n) = some n := by
  obtain ⟨ds, hds, rfl, hne, -⟩ := exists_digits n
  have hvalue : digitsValue? (ds.map digitChar) = some (natOfDigits ds) := digitsValue?_digits hne
  unfold unsigned? figures
  rw [String.toList_ofList, hds]
  split
  · rename_i cs hcs
    -- no digit is a sign
    cases ds with
    | nil => exact absurd rfl hne
    | cons d ds => exact absurd (List.cons.inj hcs).1 (digitChar_ne (by decide) d)
  · exact (congrArg _ hvalue).trans (Option.filter_some_pos (decide_eq_true h))

end Digits

/-! ## Limits from the environment -/

/-- An environment that says the limits. -/
def environmentOf (l : Limits) : List (String × String) :=
  [(Setting.queueCapacity.variableName, figures l.capacity),
    (Setting.heartbeatSecs.variableName, figures l.heartbeat),
    (Setting.pongSecs.variableName, figures l.pong),
    (Setting.writeSecs.variableName, figures l.write)]

/-- A draft with the limits and nothing else. -/
def Draft.ofLimits (l : Limits) : Draft :=
  { Draft.empty with
    queueCapacity := some l.capacity
    heartbeatSecs := some l.heartbeat
    pongSecs := some l.pong
    writeSecs := some l.write }

/-- **All limits that can be kept are accepted.** -/
theorem read_environmentOf {l : Limits} (h : l.Keepable) :
    Config.read [] (environmentOf l) = .ok (Draft.ofLimits l).complete := by
  have hlookup : ∀ s, (environmentOf l).lookup (Setting.variableName s) =
      match s with
      | .queueCapacity => some (figures l.capacity)
      | .heartbeatSecs => some (figures l.heartbeat)
      | .pongSecs => some (figures l.pong)
      | .writeSecs => some (figures l.write)
      | _ => none := by
    intro s
    cases s <;> rfl
  have hkept : ∀ n, n < 2 ^ 64 → unsigned? limit64 (figures n) = some n :=
    fun n hn => unsigned?_figures hn
  have hvariables : readVariables (environmentOf l) .empty = .ok (Draft.ofLimits l) := by
    simp [readVariables, Setting.all, hlookup, Draft.empty, Draft.isSet, Draft.put, Draft.orElse,
      Draft.ofLimits, hkept _ h.capacity, hkept _ h.heartbeat, hkept _ h.pong, hkept _ h.write,
      bind, Except.bind, pure, Except.pure]
  have hline : readLine [] = .ok .empty := rfl
  unfold Config.read
  rw [hline]
  show (readVariables (environmentOf l) .empty >>= _) = _
  rw [hvariables]
  rfl

/-! ## Limits that are borne -/

theorem fits_settings_iff {c : Config} {last : Instant} :
    c.settings.Fits last ↔ c.limits.Bearable last := by
  have hqueue : c.settings.hasQueue = true ↔ 1 ≤ c.queueCapacity ∧ c.queueCapacity < 2 ^ 61 := by
    unfold Settings.hasQueue Settings.maxCapacity
    simp only [Bool.and_eq_true, decide_eq_true_eq]
    exact and_congr_right fun _ => Nat.le_sub_one_iff_lt (by decide)
  have hheartbeat : c.settings.hasHeartbeat last = true ↔
      0 < c.heartbeatSecs ∧ last + c.heartbeatSecs * 1000 < 2 ^ 63 * 1000 := by
    unfold Settings.hasHeartbeat
    simp only [Bool.and_eq_true, decide_eq_true_eq]
    exact and_congr (Nat.mul_pos_iff_of_pos_right (by decide)) decide_eq_true_iff
  have hsilence : c.settings.hasSilence last = true ↔
      last + c.pongSecs * 1000 < 2 ^ 63 * 1000 := decide_eq_true_iff
  have hgrace : c.settings.hasGrace = true ↔ c.writeSecs < 2 ^ 63 := by
    have hspan : c.settings.hasGrace = true ↔ c.writeSecs * 1000 * 2 < 2 ^ 64 * 1000 :=
      decide_eq_true_iff
    exact hspan.trans (by omega)
  constructor
  · rintro ⟨h₁, h₂, h₃, h₄⟩
    exact ⟨(hqueue.mp h₁).1, (hqueue.mp h₁).2, (hheartbeat.mp h₂).1, (hheartbeat.mp h₂).2,
      hsilence.mp h₃, hgrace.mp h₄⟩
  · rintro ⟨h₁, h₂, h₃, h₄, h₅, h₆⟩
    exact ⟨hqueue.mpr ⟨h₁, h₂⟩, hheartbeat.mpr ⟨h₃, h₄⟩, hsilence.mpr h₅, hgrace.mpr h₆⟩

end Config

/--
**Which accepted limits are borne.** The limits that some configuration is accepted with are exactly
those that can be kept. Whoever is let in and whatever the clock shows, a configuration with
bearable limits breaks no connection until the instant, and one with others does.
-/
theorem limits_borne_exactly (l : Limits) (service : Service) (clock : Time.Timestamp)
    (last : Instant) :
    ((∃ args environment c, Config.read args environment = .ok c ∧ c.limits = l) ↔ l.Keepable) ∧
    ∀ args environment c, Config.read args environment = .ok c → c.limits = l →
      (c.settings.AreBorne service clock last ↔ l.Bearable last) := by
  refine ⟨⟨?_, fun h => ⟨_, _, _, Config.read_environmentOf h, rfl⟩⟩, ?_⟩
  · rintro ⟨args, environment, c, hread, rfl⟩
    exact Config.keepable_of_read hread
  · rintro args environment c - rfl
    exact Settings.areBorne_iff.trans Config.fits_settings_iff

/-- When nothing is said, connections are served for the first thirty years; a queue without room
is accepted as well, with any times. -/
theorem limits_borne_exactly_unset :
    Config.Draft.empty.complete.settings.AreBorne
      ⟨fun _ => .error (.auth .expired "Expired"), 0⟩ ⟨⟨2024, 1, 1⟩, 0, 0, 0, 0⟩ (10 ^ 12) ∧
    ∃ args environment c, Config.read args environment = .ok c ∧
      c.limits = ⟨0, 0, 2 ^ 64 - 1, 2 ^ 63⟩ := by
  constructor
  · refine ((limits_borne_exactly ⟨256, 54, 60, 10⟩ _ _ _).2 [] [] _ rfl rfl).mpr ?_
    constructor <;> decide
  · refine (limits_borne_exactly _ ⟨fun _ => .error (.auth .expired "Expired"), 0⟩
      ⟨⟨2024, 1, 1⟩, 0, 0, 0, 0⟩ 0).1.mpr ?_
    constructor <;> decide

/-- A queue without room is accepted, and the first connection ends where it is opened. -/
theorem roomless_queue_accepted :
    ∃ (c : Config) (opened : Connection),
      Config.read ["--jwt-secret", "test-secret", "--ws-outbound-queue-capacity", "0"] [] = .ok c ∧
      (Web.openSocket c (.start (Web.service c 0) 0 ⟨⟨2024, 1, 1⟩, 0, 0, 0, 0⟩)).2.connections =
        [opened] ∧ opened.phase = .panicked := by
  have hread : (Config.read
      ["--jwt-secret", "test-secret", "--ws-outbound-queue-capacity", "0"] []).toOption.map
        (·.settings.hasQueue) = some false := by decide +kernel
  obtain ⟨c, hc, hqueue⟩ := Option.map_eq_some_iff.mp hread
  refine ⟨c, .stillborn c.settings (.new .webSocket) 0 0, ?_, ?_, rfl⟩
  · cases hread : Config.read _ _ with
    | error e =>
      rw [hread] at hc
      cases hc
    | ok c' =>
      rw [hread] at hc
      exact congrArg _ (Option.some.inj hc)
  · show [if c.settings.hasQueue then Connection.start c.settings (.new .webSocket) 0 0
      else .stillborn c.settings (.new .webSocket) 0 0] = _
    rw [hqueue]
    rfl

end Switchboard
