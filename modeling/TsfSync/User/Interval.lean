import Mathlib.Tactic.Ring
import TsfSync.User.Text

/-!
# The health interval

`parse_interval` of `src/daemon.rs` reads `10s`, `5m`, `100ms` or a bare number of seconds. It is exact but for minutes
whose seconds do not fit (`parseInterval_exact_iff`): `m * 60` then panics in a debug build and wraps in a release build.
-/

namespace TsfSync.User

/-! ## Durations -/

/-- `std::time::Duration`. -/
structure Duration where
  secs : UInt64
  nanos : UInt32
  nanos_lt : nanos.toNat < 10 ^ 9
  deriving DecidableEq, Repr

namespace Duration

/-- The nanoseconds of a duration. -/
def ns (d : Duration) : Nat := d.secs.toNat * 10 ^ 9 + d.nanos.toNat

/-- `Duration::from_secs`. -/
def fromSecs (secs : UInt64) : Duration := ⟨secs, 0, by decide⟩

theorem nanos_fromMillis (millis : UInt64) :
    ((millis % 1000).toUInt32 * 1000000).toNat = millis.toNat % 1000 * 1000000 := by
  have hsmall : millis.toNat % 1000 < 1000 := Nat.mod_lt _ (by decide)
  have hmod : (millis % 1000).toNat = millis.toNat % 1000 := rfl
  rw [UInt32.toNat_mul, UInt64.toNat_toUInt32, hmod, Nat.mod_eq_of_lt (a := millis.toNat % 1000) (by omega)]
  show millis.toNat % 1000 * 1000000 % 2 ^ 32 = millis.toNat % 1000 * 1000000
  omega

/-- `Duration::from_millis`. -/
def fromMillis (millis : UInt64) : Duration where
  secs := millis / 1000
  nanos := (millis % 1000).toUInt32 * 1000000
  nanos_lt := by
    rw [nanos_fromMillis]
    omega

@[simp] theorem ns_fromSecs (secs : UInt64) : (fromSecs secs).ns = secs.toNat * 10 ^ 9 := by
  simp [ns, fromSecs]

@[simp] theorem ns_fromMillis (millis : UInt64) : (fromMillis millis).ns = millis.toNat * 10 ^ 6 := by
  have hdiv : (millis / 1000).toNat = millis.toNat / 1000 := rfl
  unfold ns fromMillis
  dsimp only
  rw [nanos_fromMillis, hdiv]
  omega

theorem ns_lt (d : Duration) : d.ns < 2 ^ 64 * 10 ^ 9 := by
  have hsecs := d.secs.toNat_lt
  have hnanos := d.nanos_lt
  unfold ns
  omega

theorem ns_inj {d e : Duration} (h : d.ns = e.ns) : d = e := by
  obtain ⟨dsecs, dnanos, hd⟩ := d
  obtain ⟨esecs, enanos, he⟩ := e
  unfold ns at h
  dsimp only at h
  have hsecs : dsecs = esecs := by
    apply UInt64.toNat_inj.mp
    omega
  have hnanos : dnanos = enanos := by
    apply UInt32.toNat_inj.mp
    omega
  subst hsecs hnanos
  rfl

end Duration

/-! ## `parse_interval` -/

/-- The two profiles of cargo. -/
inductive Build
  | debug
  | release
  deriving DecidableEq, Repr

/-- `*` on `u64`: out of range it panics in a debug build and wraps in a release build. -/
def Build.mul (build : Build) (x y : UInt64) : Option UInt64 :=
  if x.toNat * y.toNat < 2 ^ 64 then some (x * y)
  else
    match build with
    | .debug => none
    | .release => some (x * y)

theorem Build.mul_of_lt {x y : UInt64} (h : x.toNat * y.toNat < 2 ^ 64) (build : Build) : build.mul x y = some (x * y) :=
  if_pos h

theorem Build.mul_of_le {x y : UInt64} (h : 2 ^ 64 ≤ x.toNat * y.toNat) (build : Build) : build.mul x y =
    match build with
    | .debug => none
    | .release => some (x * y) := if_neg (Nat.not_lt.mpr h)

/-- `parse_interval`; no result is a panic. -/
def parseInterval (build : Build) (s : Text) : Option (Except Text Duration) :=
  let s := trim s
  match stripSuffix s ['m', 's'] with
  | some rest => some (((u64FromStr rest).map Duration.fromMillis).mapError ParseIntError.message)
  | none =>
    match stripSuffix s ['s'] with
    | some rest => some (((u64FromStr rest).map Duration.fromSecs).mapError ParseIntError.message)
    | none =>
      match stripSuffix s ['m'] with
      | some rest =>
        match u64FromStr rest with
        | .ok m => (build.mul m 60).map fun secs => .ok (Duration.fromSecs secs)
        | .error e => some (.error e.message)
      | none =>
        some (((u64FromStr s).map Duration.fromSecs).mapError fun e =>
          "invalid interval '".toList ++ s ++ "': ".toList ++ e.message)

/-! ## What an interval denotes -/

/-- The units of an interval. -/
inductive IntervalUnit
  | millis
  | secs
  | minutes
  | bare
  deriving DecidableEq, Repr

namespace IntervalUnit

/-- How a unit is written. -/
def suffix : IntervalUnit → Text
  | millis => ['m', 's']
  | secs => ['s']
  | minutes => ['m']
  | bare => []

/-- The nanoseconds of a unit. -/
def ns : IntervalUnit → Nat
  | millis => 10 ^ 6
  | secs => 10 ^ 9
  | minutes => 60 * 10 ^ 9
  | bare => 10 ^ 9

/-- `rest` of a unit is the duration `d`: a numeral that fits a `u64`, as does its number of whole seconds. -/
def Denotes (unit : IntervalUnit) (rest : Text) (d : Duration) : Prop :=
  ∃ n, IsNumeral rest n ∧ n < 2 ^ 64 ∧ n * unit.ns / 10 ^ 9 < 2 ^ 64 ∧ d.ns = n * unit.ns

end IntervalUnit

/-- A trimmed text denotes a duration. -/
def Denotes (t : Text) (d : Duration) : Prop :=
  ∃ (unit : IntervalUnit) (rest : Text), t = rest ++ unit.suffix ∧ unit.Denotes rest d

/-- `parse_interval` gives the duration that its argument denotes and an error if it denotes none, and it never panics. -/
structure ParsedExactly (build : Build) (s : Text) : Prop where
  accepts : ∀ d, parseInterval build s = some (.ok d) ↔ Denotes (trim s) d
  rejects : (∀ d, ¬Denotes (trim s) d) → ∃ e, parseInterval build s = some (.error e)
  total : parseInterval build s ≠ none

/-- Minutes whose number fits and whose seconds do not. -/
def MinutesOverflow (t : Text) : Prop := ∃ rest n, t = rest ++ ['m'] ∧ IsNumeral rest n ∧ n < 2 ^ 64 ∧ 2 ^ 64 ≤ n * 60

/-! ## Units are unambiguous -/

section Units

variable {build : Build} {s t rest w : Text} {n : Nat} {d : Duration} {unit : IntervalUnit}

/-- The unit that the tests of `parse_interval` find, and what stands before it. -/
def splitUnit (t : Text) : IntervalUnit × Text :=
  match stripSuffix t ['m', 's'] with
  | some rest => (.millis, rest)
  | none =>
    match stripSuffix t ['s'] with
    | some rest => (.secs, rest)
    | none =>
      match stripSuffix t ['m'] with
      | some rest => (.minutes, rest)
      | none => (.bare, t)

theorem append_splitUnit (t : Text) : t = (splitUnit t).2 ++ (splitUnit t).1.suffix := by
  unfold splitUnit
  split
  · rename_i rest h
    exact stripSuffix_eq_some_iff.mp h
  · split
    · rename_i rest h
      exact stripSuffix_eq_some_iff.mp h
    · split
      · rename_i rest h
        exact stripSuffix_eq_some_iff.mp h
      · exact (List.append_nil t).symm

/-- A text that ends in one character does not end in another. -/
theorem stripSuffix_eq_none {a c : Char} (ht : t.getLast? = some c) (hne : a ≠ c) (front : Text) :
    stripSuffix t (front ++ [a]) = none := by
  rw [Option.eq_none_iff_forall_ne_some]
  intro rest h
  rw [stripSuffix_eq_some_iff] at h
  rw [h, ← List.append_assoc, List.getLast?_concat] at ht
  exact hne (Option.some.inj ht)

theorem stripSuffix_append (rest suffix : Text) : stripSuffix (rest ++ suffix) suffix = some rest :=
  stripSuffix_eq_some_iff.mpr rfl

/-- The unit after a numeral is found, since a numeral ends in a digit. -/
theorem splitUnit_append (h : IsNumeral w n) (unit : IntervalUnit) : splitUnit (w ++ unit.suffix) = (unit, w) := by
  obtain ⟨c, hlast, hdigit⟩ := h.getLast?
  have hs : 's' ≠ c := by
    rintro rfl
    exact absurd hdigit (by decide)
  have hm : 'm' ≠ c := by
    rintro rfl
    exact absurd hdigit (by decide)
  unfold splitUnit
  cases unit with
  | millis =>
    rw [IntervalUnit.suffix, stripSuffix_append]
  | secs =>
    have hms : stripSuffix (w ++ ['s']) ['m', 's'] = none := by
      rw [Option.eq_none_iff_forall_ne_some]
      intro rest hrest
      rw [stripSuffix_eq_some_iff] at hrest
      have hw : w = rest ++ ['m'] := List.append_cancel_right (hrest.trans (List.append_assoc rest ['m'] ['s']).symm)
      rw [hw, List.getLast?_concat] at hlast
      exact hm (Option.some.inj hlast)
    rw [IntervalUnit.suffix, hms, stripSuffix_append]
  | minutes =>
    have hend : (w ++ ['m']).getLast? = some 'm' := List.getLast?_concat
    have hms := stripSuffix_eq_none hend (show 's' ≠ 'm' by decide) ['m']
    have hs' := stripSuffix_eq_none hend (show 's' ≠ 'm' by decide) []
    rw [List.singleton_append] at hms
    rw [List.nil_append] at hs'
    rw [IntervalUnit.suffix, hms, hs', stripSuffix_append]
  | bare =>
    have hms := stripSuffix_eq_none hlast hs ['m']
    have hs' := stripSuffix_eq_none hlast hs []
    have hm' := stripSuffix_eq_none hlast hm []
    rw [List.singleton_append] at hms
    rw [List.nil_append] at hs' hm'
    rw [IntervalUnit.suffix, List.append_nil, hms, hs', hm']

/-- A text denotes what it denotes in the unit that is found. -/
theorem denotes_iff : Denotes t d ↔ (splitUnit t).1.Denotes (splitUnit t).2 d := by
  constructor
  · rintro ⟨unit, rest, rfl, n, hn, hrest⟩
    rw [splitUnit_append hn]
    exact ⟨n, hn, hrest⟩
  · intro h
    exact ⟨_, _, append_splitUnit t, h⟩

theorem minutesOverflow_iff : MinutesOverflow t ↔ (splitUnit t).1 = .minutes ∧
    ∃ n, IsNumeral (splitUnit t).2 n ∧ n < 2 ^ 64 ∧ 2 ^ 64 ≤ n * 60 := by
  constructor
  · rintro ⟨rest, n, rfl, hn, hrest⟩
    have hsplit : splitUnit (rest ++ ['m']) = (.minutes, rest) := splitUnit_append hn .minutes
    rw [hsplit]
    exact ⟨rfl, n, hn, hrest⟩
  · rintro ⟨hunit, n, hn, hrest⟩
    have happ := append_splitUnit t
    rw [hunit] at happ
    exact ⟨_, n, happ, hn, hrest⟩

/-- A unit that is read without a multiplication. -/
theorem denotes_iff_of_ns {f : UInt64 → Duration} (hf : ∀ x, (f x).ns = x.toNat * unit.ns) :
    unit.Denotes rest d ↔ ∃ x, u64FromStr rest = .ok x ∧ f x = d := by
  constructor
  · rintro ⟨n, hn, hlt, -, hd⟩
    have hx : (UInt64.ofNat n).toNat = n := UInt64.toNat_ofNat_of_lt' hlt
    refine ⟨UInt64.ofNat n, u64FromStr_eq_ok_iff.mpr (by rwa [hx]), ?_⟩
    apply Duration.ns_inj
    rw [hf, hx, hd]
  · rintro ⟨x, hx, rfl⟩
    refine ⟨x.toNat, u64FromStr_eq_ok_iff.mp hx, x.toNat_lt, ?_, hf x⟩
    have hlt := (f x).ns_lt
    rw [hf x] at hlt
    exact Nat.div_lt_of_lt_mul (by omega)

end Units

/-! ## Exactness -/

section Exact

variable {build : Build} {s rest : Text} {d : Duration}

/-- What `parse_interval` makes of each unit. -/
theorem parseInterval_eq (build : Build) (s : Text) : parseInterval build s =
    match splitUnit (trim s) with
    | (.millis, rest) => some (((u64FromStr rest).map Duration.fromMillis).mapError ParseIntError.message)
    | (.secs, rest) => some (((u64FromStr rest).map Duration.fromSecs).mapError ParseIntError.message)
    | (.minutes, rest) =>
      match u64FromStr rest with
      | .ok m => (build.mul m 60).map fun secs => .ok (Duration.fromSecs secs)
      | .error e => some (.error e.message)
    | (.bare, rest) =>
      some (((u64FromStr rest).map Duration.fromSecs).mapError fun e =>
        "invalid interval '".toList ++ rest ++ "': ".toList ++ e.message) := by
  unfold parseInterval splitUnit
  dsimp only
  cases stripSuffix (trim s) ['m', 's'] with
  | some rest => rfl
  | none =>
    cases stripSuffix (trim s) ['s'] with
    | some rest => rfl
    | none =>
      cases stripSuffix (trim s) ['m'] with
      | some rest => rfl
      | none => rfl

/-- A number that is turned into a duration. -/
theorem map_mapError_eq_ok_iff {r : Except ParseIntError UInt64} {f : UInt64 → Duration} {g : ParseIntError → Text} :
    (r.map f).mapError g = .ok d ↔ ∃ x, r = .ok x ∧ f x = d := by
  cases r with
  | error e => simp [Except.map, Except.mapError]
  | ok x => simp [Except.map, Except.mapError]

/-- What is either a duration or an error is exact as soon as it accepts what is denoted. -/
theorem parsedExactly_of_some {r : Except Text Duration} (h : parseInterval build s = some r)
    (hr : ∀ d, r = .ok d ↔ Denotes (trim s) d) : ParsedExactly build s := by
  refine ⟨?_, ?_, by simp [h]⟩
  · intro d
    rw [h, Option.some.injEq]
    exact hr d
  · intro hnone
    cases r with
    | ok d => exact (hnone d ((hr d).mp rfl)).elim
    | error e => exact ⟨e, h⟩

/-- Minutes whose seconds fit are read exactly. -/
theorem minutes_denotes_iff (hfits : ∀ x, u64FromStr rest = .ok x → x.toNat * 60 < 2 ^ 64) :
    IntervalUnit.minutes.Denotes rest d ↔ ∃ x, u64FromStr rest = .ok x ∧ Duration.fromSecs (x * 60) = d := by
  have hns : ∀ x, u64FromStr rest = .ok x → (Duration.fromSecs (x * 60)).ns = x.toNat * (60 * 10 ^ 9) := by
    intro x hx
    have hmul : (x * 60).toNat = x.toNat * 60 := by
      rw [UInt64.toNat_mul]
      exact Nat.mod_eq_of_lt (hfits x hx)
    rw [Duration.ns_fromSecs, hmul]
    ring
  constructor
  · rintro ⟨n, hn, hlt, -, hd⟩
    have hx : (UInt64.ofNat n).toNat = n := UInt64.toNat_ofNat_of_lt' hlt
    have hread : u64FromStr rest = .ok (UInt64.ofNat n) := u64FromStr_eq_ok_iff.mpr (by rwa [hx])
    refine ⟨_, hread, ?_⟩
    apply Duration.ns_inj
    rw [hns _ hread, hx, hd]
    rfl
  · rintro ⟨x, hx, rfl⟩
    have hlt := hfits x hx
    refine ⟨x.toNat, u64FromStr_eq_ok_iff.mp hx, x.toNat_lt, ?_, hns x hx⟩
    show x.toNat * (60 * 10 ^ 9) / 10 ^ 9 < 2 ^ 64
    omega

/-- **`parse_interval` is exact** except on minutes whose number fits a `u64` and whose seconds do not, in either build. -/
theorem parseInterval_exact_iff (build : Build) (s : Text) : ParsedExactly build s ↔ ¬MinutesOverflow (trim s) := by
  have hdenotes := fun d => denotes_iff (t := trim s) (d := d)
  have hparse := parseInterval_eq build s
  rw [minutesOverflow_iff]
  rcases hsplit : splitUnit (trim s) with ⟨unit, rest⟩
  simp only [hsplit] at hdenotes hparse ⊢
  cases unit with
  | millis =>
    refine iff_of_true (parsedExactly_of_some hparse fun d => ?_) (fun h => by cases h.1)
    rw [hdenotes, map_mapError_eq_ok_iff, denotes_iff_of_ns Duration.ns_fromMillis]
  | secs =>
    refine iff_of_true (parsedExactly_of_some hparse fun d => ?_) (fun h => by cases h.1)
    rw [hdenotes, map_mapError_eq_ok_iff, denotes_iff_of_ns Duration.ns_fromSecs]
  | bare =>
    refine iff_of_true (parsedExactly_of_some hparse fun d => ?_) (fun h => by cases h.1)
    rw [hdenotes, map_mapError_eq_ok_iff, denotes_iff_of_ns Duration.ns_fromSecs]
  | minutes =>
    dsimp only at hparse
    by_cases hover : ∃ x, u64FromStr rest = .ok x ∧ 2 ^ 64 ≤ x.toNat * 60
    · obtain ⟨x, hx, hlarge⟩ := hover
      have hx' := u64FromStr_eq_ok_iff.mp hx
      refine iff_of_false ?_ (not_not.mpr ⟨rfl, x.toNat, hx', x.toNat_lt, hlarge⟩)
      intro hexact
      rw [hx] at hparse
      dsimp only at hparse
      rw [Build.mul_of_le (y := 60) hlarge] at hparse
      cases build with
      | debug => exact hexact.total hparse
      | release =>
        -- the wrapped product is accepted, but it denotes no duration
        obtain ⟨n, hn, hlt, hsecs, -⟩ := (hdenotes _).mp ((hexact.accepts _).mp hparse)
        have hn' : (UInt64.ofNat n).toNat = n := UInt64.toNat_ofNat_of_lt' hlt
        have hread : u64FromStr rest = .ok (UInt64.ofNat n) := u64FromStr_eq_ok_iff.mpr (by rwa [hn'])
        have hxn : x.toNat = n := by
          rw [hx, Except.ok.injEq] at hread
          rw [hread, hn']
        have hminutes : n * (60 * 10 ^ 9) / 10 ^ 9 < 2 ^ 64 := hsecs
        omega
    · have hfits : ∀ x, u64FromStr rest = .ok x → x.toNat * 60 < 2 ^ 64 := by
        intro x hx
        by_contra hlt
        exact hover ⟨x, hx, Nat.not_lt.mp hlt⟩
      have hsome : parseInterval build s =
          some (((u64FromStr rest).map fun m => Duration.fromSecs (m * 60)).mapError ParseIntError.message) := by
        rw [hparse]
        cases hr : u64FromStr rest with
        | error e => rfl
        | ok x =>
          dsimp only
          rw [Build.mul_of_lt (y := 60) (hfits x hr)]
          rfl
      refine iff_of_true (parsedExactly_of_some hsome fun d => ?_) ?_
      · rw [hdenotes, map_mapError_eq_ok_iff, minutes_denotes_iff hfits]
      · rintro ⟨-, n, hn, hlt, hlarge⟩
        have hn' : (UInt64.ofNat n).toNat = n := UInt64.toNat_ofNat_of_lt' hlt
        have := hfits (UInt64.ofNat n) (u64FromStr_eq_ok_iff.mpr (by rwa [hn']))
        omega

/-- `2 ^ 64 / 60` minutes and one: a debug build panics, and in a release build the health check runs every 44 s. -/
theorem parseInterval_exact_counterexample :
    parseInterval .debug "307445734561825861m".toList = none ∧
    parseInterval .release "307445734561825861m".toList = some (.ok (Duration.fromSecs 44)) ∧
    ¬ParsedExactly .debug "307445734561825861m".toList ∧ ¬ParsedExactly .release "307445734561825861m".toList := by
  have hdebug : parseInterval .debug "307445734561825861m".toList = none := by decide
  have hrelease : parseInterval .release "307445734561825861m".toList = some (.ok (Duration.fromSecs 44)) := by decide
  refine ⟨hdebug, hrelease, fun h => h.total hdebug, fun h => ?_⟩
  obtain ⟨n, -, -, hsecs, hns⟩ := denotes_iff.mp ((h.accepts _).mp hrelease)
  have hunit : (splitUnit (trim "307445734561825861m".toList)).1.ns = 60 * 10 ^ 9 := by decide
  rw [hunit, Duration.ns_fromSecs] at hns
  have h44 : (44 : UInt64).toNat = 44 := rfl
  rw [h44] at hns
  omega

end Exact

end TsfSync.User
