import PodmanLens.BytePositions

/-!
# Native timestamps

The inspected timestamps are kept as text once a positional scanner accepts them. It accepts
exactly the date and time texts of the calendar, with an optional fraction of a second and a zone,
and never looks beyond the end of a text.
-/

namespace PodmanLens
open Positions Text

section Scanner

def timestampDaysInMonth (year month : ℕ) : ℕ :=
  match month with
  | 1 | 3 | 5 | 7 | 8 | 10 | 12 => 31
  | 4 | 6 | 9 | 11 => 30
  | 2 => if year % 400 = 0 ∨ (year % 4 = 0 ∧ year % 100 ≠ 0) then 29 else 28
  | _ => 0

variable (bytes : List UInt8)

def standsAt (separator : ℕ × Char) : Noted ℕ Bool := do
  return (← byteAt bytes separator.1) == some (asciiByte separator.2)

def timestampSeparators : List (ℕ × Char) :=
  [(4, '-'), (7, '-'), (10, 'T'), (13, ':'), (16, ':')]

structure ClockFields where
  year : ℕ
  month : ℕ
  day : ℕ
  hour : ℕ
  minute : ℕ
  second : ℕ

def ClockFields.inCalendar (clock : ClockFields) : Bool :=
  !(clock.month < 1 || 12 < clock.month || clock.day == 0 ||
    timestampDaysInMonth clock.year clock.month < clock.day || 23 < clock.hour ||
    59 < clock.minute || 60 < clock.second)

def clockFields : OptionT (Noted ℕ) ClockFields := do
  let year ← OptionT.mk (digitsAt bytes 0 4)
  let month ← OptionT.mk (digitsAt bytes 5 2)
  let day ← OptionT.mk (digitsAt bytes 8 2)
  let hour ← OptionT.mk (digitsAt bytes 11 2)
  let minute ← OptionT.mk (digitsAt bytes 14 2)
  let second ← OptionT.mk (digitsAt bytes 17 2)
  return ⟨year, month, day, hour, minute, second⟩

/-- The position behind the seconds and an optional fraction of one to nine digits. -/
def fractionEnd : Noted ℕ (Option ℕ) := do
  if (← byteAt bytes 19) == some (asciiByte '.') then
    let suffix ← skipDigits bytes 20
    return if suffix = 20 ∨ 9 < suffix - 20 then none else some suffix
  else return some 19

def zoneOffset (suffix : ℕ) : Noted ℕ Bool := do
  if suffix + 6 ≠ bytes.length then return false
  if (← byteAt bytes (suffix + 3)) != some (asciiByte ':') then return false
  if !(← digitsAt bytes (suffix + 1) 2).any (· ≤ 23) then return false
  return (← digitsAt bytes (suffix + 4) 2).any (· ≤ 59)

def zoneEnds (suffix : ℕ) : Noted ℕ Bool := do
  match ← byteAt bytes suffix with
  | some byte =>
    if byte = asciiByte 'Z' then return suffix + 1 == bytes.length
    else if byte = asciiByte '+' ∨ byte = asciiByte '-' then zoneOffset bytes suffix
    else return false
  | none => return false

/-- Whether the bytes are a timestamp, with the positions looked at. -/
def scanTimestamp : Noted ℕ Bool := do
  if bytes.length < 20 ∨ 35 < bytes.length then return false
  if !(← timestampSeparators.allM (standsAt bytes)) then return false
  let some clock ← (clockFields bytes).run | return false
  if !clock.inCalendar then return false
  let some suffix ← fractionEnd bytes | return false
  zoneEnds bytes suffix

end Scanner

def nativeTimestampIsRfc3339 (value : String) : Bool :=
  (scanTimestamp (utf8Bytes value.toList)).value

section Texts

def LeapYear (year : ℕ) : Prop := 4 ∣ year ∧ (100 ∣ year → 400 ∣ year)

instance (year : ℕ) : Decidable (LeapYear year) := inferInstanceAs (Decidable (_ ∧ _))

/-- The length of a month in the proleptic Gregorian calendar. -/
def monthLength (year month : ℕ) : ℕ :=
  if month = 2 then if LeapYear year then 29 else 28
  else if month ∈ [4, 6, 9, 11] then 30
  else 31

/-- The date and the time of day in a calendar of four-digit years. -/
structure ClockTime extends ClockFields where
  year_lt : year < 10000
  month_pos : 1 ≤ month
  month_le : month ≤ 12
  day_pos : 1 ≤ day
  day_le : day ≤ monthLength year month
  hour_le : hour ≤ 23
  minute_le : minute ≤ 59
  second_le : second ≤ 60

inductive Zone
  | utc
  | offset (west : Bool) (hour minute : ℕ) (hour_le : hour ≤ 23) (minute_le : minute ≤ 59)

/-- The digits of a fraction of a second. -/
structure Fraction where
  digits : List Char
  isDigit : ∀ c ∈ digits, c.isDigit = true
  nonempty : 1 ≤ digits.length
  bounded : digits.length ≤ 9

structure Timestamp where
  clock : ClockTime
  fraction : Option Fraction
  zone : Zone

def ClockFields.chars (clock : ClockFields) : List Char :=
  padded 4 clock.year ++ ['-'] ++ padded 2 clock.month ++ ['-'] ++ padded 2 clock.day ++ ['T'] ++
    padded 2 clock.hour ++ [':'] ++ padded 2 clock.minute ++ [':'] ++ padded 2 clock.second

def Zone.chars : Zone → List Char
  | .utc => ['Z']
  | .offset west hour minute _ _ =>
    [if west then '-' else '+'] ++ padded 2 hour ++ [':'] ++ padded 2 minute

def fractionChars : Option Fraction → List Char
  | none => []
  | some fraction => ['.'] ++ fraction.digits

def Timestamp.chars (timestamp : Timestamp) : List Char :=
  timestamp.clock.chars ++ fractionChars timestamp.fraction ++ timestamp.zone.chars

def Timestamp.text (timestamp : Timestamp) : String := String.ofList timestamp.chars

end Texts

section Exactness
variable {bytes : List UInt8}

theorem value_separators :
    (timestampSeparators.allM (standsAt bytes)).value = true ↔
      ∀ separator ∈ timestampSeparators, SpellsAt bytes separator.1 [separator.2] := by
  rw [Noted.value_allM, List.all_eq_true]
  refine forall₂_congr fun separator _ => ?_
  rw [standsAt, Noted.value_bind, Noted.value_pure, beq_iff_eq, value_byteAt]

theorem value_clockFields {clock : ClockFields} :
    (clockFields bytes).run.value = some clock ↔
      (digitsAt bytes 0 4).value = some clock.year ∧
      (digitsAt bytes 5 2).value = some clock.month ∧
      (digitsAt bytes 8 2).value = some clock.day ∧
      (digitsAt bytes 11 2).value = some clock.hour ∧
      (digitsAt bytes 14 2).value = some clock.minute ∧
      (digitsAt bytes 17 2).value = some clock.second := by
  simp only [clockFields, Noted.value_run_bind, OptionT.run_mk, Option.bind_eq_some_iff]
  constructor
  · rintro ⟨year, hyear, month, hmonth, day, hday, hour, hhour, minute, hminute, second, hsecond,
      hclock⟩
    cases hclock
    exact ⟨hyear, hmonth, hday, hhour, hminute, hsecond⟩
  · rintro ⟨hyear, hmonth, hday, hhour, hminute, hsecond⟩
    exact ⟨_, hyear, _, hmonth, _, hday, _, hhour, _, hminute, _, hsecond, rfl⟩

/-- The calendar check refuses nothing that the month lengths allow. -/
theorem timestampDaysInMonth_eq {year month : ℕ} (hpos : 1 ≤ month) (hle : month ≤ 12) :
    timestampDaysInMonth year month = monthLength year month := by
  have hleap : (year % 400 = 0 ∨ (year % 4 = 0 ∧ year % 100 ≠ 0)) ↔ LeapYear year := by
    rw [LeapYear]
    omega
  interval_cases month <;> simp [timestampDaysInMonth, monthLength, hleap]

def ClockFields.Fits (clock : ClockFields) : Prop :=
  clock.year < 10 ^ 4 ∧ clock.month < 10 ^ 2 ∧ clock.day < 10 ^ 2 ∧ clock.hour < 10 ^ 2 ∧
    clock.minute < 10 ^ 2 ∧ clock.second < 10 ^ 2

/-- The separators and the fields together are the first nineteen characters. -/
theorem spellsAt_clock {clock : ClockFields} :
    ((timestampSeparators.allM (standsAt bytes)).value = true ∧
        (clockFields bytes).run.value = some clock) ↔
      clock.Fits ∧ SpellsAt bytes 0 clock.chars := by
  have hfour : 0 < 4 := by decide
  have htwo : 0 < 2 := by decide
  rw [value_separators, value_clockFields, value_digitsAt hfour, value_digitsAt htwo,
    value_digitsAt htwo, value_digitsAt htwo, value_digitsAt htwo, value_digitsAt htwo,
    ClockFields.chars, ClockFields.Fits]
  simp only [spellsAt_append, List.length_append, length_padded, List.length_singleton,
    timestampSeparators, List.forall_mem_cons, List.not_mem_nil, false_implies, implies_true,
    and_true, Nat.zero_add, Nat.reduceAdd]
  tauto

theorem length_clock (clock : ClockFields) : clock.chars.length = 19 := by
  simp [ClockFields.chars, length_padded]

theorem inCalendar_iff (clock : ClockFields) :
    clock.inCalendar = true ↔ 1 ≤ clock.month ∧ clock.month ≤ 12 ∧ 1 ≤ clock.day ∧
      clock.day ≤ monthLength clock.year clock.month ∧ clock.hour ≤ 23 ∧ clock.minute ≤ 59 ∧
      clock.second ≤ 60 := by
  have hbounds : clock.inCalendar = true ↔ 1 ≤ clock.month ∧ clock.month ≤ 12 ∧ 1 ≤ clock.day ∧
      clock.day ≤ timestampDaysInMonth clock.year clock.month ∧ clock.hour ≤ 23 ∧
      clock.minute ≤ 59 ∧ clock.second ≤ 60 := by
    simp [ClockFields.inCalendar, and_assoc, Nat.one_le_iff_ne_zero]
  rw [hbounds]
  refine and_congr_right fun hpos => and_congr_right fun hle => ?_
  rw [timestampDaysInMonth_eq hpos hle]

theorem value_zoneOffset {suffix : ℕ} :
    (zoneOffset bytes suffix).value = true ↔ ∃ hour ≤ 23, ∃ minute ≤ 59,
      SpellsAt bytes (suffix + 1) (padded 2 hour ++ [':'] ++ padded 2 minute) ∧
        suffix + 6 = bytes.length := by
  have htwo : 0 < 2 := by decide
  have hpart (start bound : ℕ) (hbound : bound < 10 ^ 2) :
      (digitsAt bytes start 2).value.any (· ≤ bound) = true ↔
        ∃ value ≤ bound, SpellsAt bytes start (padded 2 value) := by
    rw [Option.any_eq_true]
    simp only [value_digitsAt htwo, decide_eq_true_eq]
    refine exists_congr fun value => ⟨fun h => ⟨h.2, h.1.2⟩, fun h => ⟨⟨?_, h.2⟩, h.1⟩⟩
    exact lt_of_le_of_lt h.1 hbound
  have hvalue : (zoneOffset bytes suffix).value = true ↔ suffix + 6 = bytes.length ∧
      (byteAt bytes (suffix + 3)).value = some (asciiByte ':') ∧
      (digitsAt bytes (suffix + 1) 2).value.any (· ≤ 23) = true ∧
      (digitsAt bytes (suffix + 4) 2).value.any (· ≤ 59) = true := by
    simp [zoneOffset, apply_ite Noted.value]
  rw [hvalue, value_byteAt, hpart _ _ (by decide), hpart _ _ (by decide)]
  simp only [spellsAt_append, length_padded, List.length_append, List.length_singleton]
  constructor
  · rintro ⟨hlength, hcolon, ⟨hour, hhour, hhours⟩, minute, hminute, hminutes⟩
    exact ⟨hour, hhour, minute, hminute, ⟨⟨hhours, hcolon⟩, hminutes⟩, hlength⟩
  · rintro ⟨hour, hhour, minute, hminute, ⟨⟨hhours, hcolon⟩, hminutes⟩, hlength⟩
    exact ⟨hlength, hcolon, ⟨hour, hhour, hhours⟩, minute, hminute, hminutes⟩

theorem spellsAt_offset {suffix hour minute : ℕ} {west : Bool} (hhour : hour ≤ 23)
    (hminute : minute ≤ 59) :
    SpellsAt bytes suffix (Zone.offset west hour minute hhour hminute).chars ↔
      SpellsAt bytes suffix [if west then '-' else '+'] ∧
        SpellsAt bytes (suffix + 1) (padded 2 hour ++ [':'] ++ padded 2 minute) := by
  have hchars : (Zone.offset west hour minute hhour hminute).chars =
      [if west then '-' else '+'] ++ (padded 2 hour ++ [':'] ++ padded 2 minute) := by
    simp only [Zone.chars, List.append_assoc]
  rw [hchars, spellsAt_append]
  rfl

theorem length_offset {hour minute : ℕ} {west : Bool} (hhour : hour ≤ 23) (hminute : minute ≤ 59) :
    (Zone.offset west hour minute hhour hminute).chars.length = 6 := by
  simp [Zone.chars, length_padded]

theorem value_zoneEnds {suffix : ℕ} :
    (zoneEnds bytes suffix).value = true ↔
      ∃ zone : Zone, SpellsAt bytes suffix zone.chars ∧
        suffix + zone.chars.length = bytes.length := by
  have hvalue : (zoneEnds bytes suffix).value = true ↔
      ((byteAt bytes suffix).value = some (asciiByte 'Z') ∧ suffix + 1 = bytes.length) ∨
      (((byteAt bytes suffix).value = some (asciiByte '+') ∨
          (byteAt bytes suffix).value = some (asciiByte '-')) ∧
        (zoneOffset bytes suffix).value = true) := by
    rw [zoneEnds, Noted.value_bind]
    cases (byteAt bytes suffix).value with
    | none => simp
    | some byte =>
        by_cases hutc : byte = asciiByte 'Z'
        · subst hutc
          simp [show asciiByte 'Z' ≠ asciiByte '+' by decide,
            show asciiByte 'Z' ≠ asciiByte '-' by decide]
        · by_cases hsign : byte = asciiByte '+' ∨ byte = asciiByte '-'
          · simp [hutc, hsign]
          · simp [hutc, hsign]
  rw [hvalue, value_byteAt, value_byteAt, value_byteAt, value_zoneOffset]
  constructor
  · rintro (⟨hspells, hlength⟩ | ⟨hsign, hour, hhour, minute, hminute, hspells, hlength⟩)
    · exact ⟨.utc, hspells, hlength⟩
    · rcases hsign with hsign | hsign
      · exact ⟨.offset false hour minute hhour hminute,
          (spellsAt_offset hhour hminute).mpr ⟨hsign, hspells⟩, by rwa [length_offset]⟩
      · exact ⟨.offset true hour minute hhour hminute,
          (spellsAt_offset hhour hminute).mpr ⟨hsign, hspells⟩, by rwa [length_offset]⟩
  · rintro ⟨zone, hspells, hlength⟩
    cases zone with
    | utc => exact Or.inl ⟨hspells, hlength⟩
    | offset west hour minute hhour hminute =>
        rw [length_offset] at hlength
        obtain ⟨hsign, hdigits⟩ := (spellsAt_offset hhour hminute).mp hspells
        refine Or.inr ⟨?_, hour, hhour, minute, hminute, hdigits, hlength⟩
        cases west with
        | false => exact Or.inl hsign
        | true => exact Or.inr hsign

theorem fraction_of_fractionEnd {suffix : ℕ} (h : (fractionEnd bytes).value = some suffix) :
    ∃ fraction : Option Fraction, SpellsAt bytes 19 (fractionChars fraction) ∧
      suffix = 19 + (fractionChars fraction).length := by
  rw [fractionEnd, Noted.value_bind] at h
  by_cases hdot : (byteAt bytes 19).value = some (asciiByte '.')
  · rw [hdot, if_pos (beq_self_eq_true _), Noted.value_bind, Noted.value_pure,
      value_skipDigits] at h
    obtain ⟨hrange, hsuffix⟩ := Option.ite_none_left_eq_some.mp h
    obtain ⟨cs, hdigits, hcs⟩ := exists_digits ((bytes.drop 20).takeWhile isDigitByte)
      fun byte hbyte => List.mem_takeWhile_imp hbyte
    rw [hcs, asciiBytes, List.length_map] at hrange hsuffix
    refine ⟨some ⟨cs, hdigits, by omega, by omega⟩, ?_, ?_⟩
    · rw [fractionChars, spellsAt_append]
      refine ⟨value_byteAt.mp hdot, ?_⟩
      rw [SpellsAt, ← hcs]
      exact List.takeWhile_prefix _
    · have hlength : (fractionChars (some ⟨cs, hdigits, by omega, by omega⟩)).length =
          1 + cs.length := by rw [fractionChars, List.length_append, List.length_singleton]
      rw [hlength, ← Option.some.inj hsuffix]
      omega
  · rw [if_neg (by simpa using hdot)] at h
    refine ⟨none, List.nil_prefix, ?_⟩
    exact (Option.some.inj h).symm

/-- A zone begins with neither a point nor a digit. -/
theorem exists_head_zone (zone : Zone) :
    ∃ c rest, zone.chars = c :: rest ∧ asciiByte c ≠ asciiByte '.' ∧
      isDigitByte (asciiByte c) = false := by
  cases zone with
  | utc => exact ⟨'Z', [], rfl, by decide, by decide⟩
  | offset west hour minute hhour hminute =>
      cases west with
      | false => exact ⟨'+', _, rfl, by decide, by decide⟩
      | true => exact ⟨'-', _, rfl, by decide, by decide⟩

theorem fractionEnd_of_spells {fraction : Option Fraction} {zone : Zone}
    (h : SpellsAt bytes 19 (fractionChars fraction ++ zone.chars)) :
    (fractionEnd bytes).value = some (19 + (fractionChars fraction).length) := by
  rw [fractionEnd, Noted.value_bind]
  obtain ⟨c, rest, hzone, hpoint, hdigit⟩ := exists_head_zone zone
  cases fraction with
  | none =>
      rw [fractionChars, List.nil_append, hzone, spellsAt_cons] at h
      have hdot : (byteAt bytes 19).value ≠ some (asciiByte '.') := by
        rw [value_byteAt.mpr h.1]
        exact fun hbyte => hpoint (Option.some.inj hbyte)
      rw [if_neg (by simpa using hdot)]
      rfl
  | some fraction =>
      rw [fractionChars, List.append_assoc, spellsAt_append] at h
      rw [value_byteAt.mpr h.1, if_pos (beq_self_eq_true _), Noted.value_bind, Noted.value_pure,
        value_skipDigits]
      have hrun : (bytes.drop 20).takeWhile isDigitByte = asciiBytes fraction.digits := by
        obtain ⟨after, hafter⟩ := h.2
        rw [List.length_singleton, hzone] at hafter
        rw [← hafter, asciiBytes, List.map_append, List.append_assoc, List.takeWhile_append_of_pos,
          List.map_cons, List.cons_append, List.takeWhile_cons_of_neg (by simpa using hdigit),
          List.append_nil]
        · rfl
        · intro byte hbyte
          obtain ⟨c, hc, rfl⟩ := List.mem_map.mp hbyte
          exact isDigitByte_of_isDigit (fraction.isDigit c hc)
      have hpositive := fraction.nonempty
      have hbounded := fraction.bounded
      rw [hrun, asciiBytes, List.length_map, if_neg (by omega), fractionChars, List.length_append,
        List.length_singleton]
      congr 1
      omega

/-- The date and time of the calendar that the fields give. -/
def ClockFields.toClockTime (clock : ClockFields) (hyear : clock.year < 10000)
    (hcalendar : clock.inCalendar = true) : ClockTime :=
  let h := (inCalendar_iff clock).mp hcalendar
  { clock with
    year_lt := hyear
    month_pos := h.1
    month_le := h.2.1
    day_pos := h.2.2.1
    day_le := h.2.2.2.1
    hour_le := h.2.2.2.2.1
    minute_le := h.2.2.2.2.2.1
    second_le := h.2.2.2.2.2.2 }

theorem ClockTime.fits (clock : ClockTime) : clock.Fits := by
  have hday := clock.day_le
  have hmonth : monthLength clock.year clock.month ≤ 31 := by
    rw [monthLength]
    split_ifs <;> decide
  exact ⟨clock.year_lt, by have := clock.month_le; omega, by omega,
    by have := clock.hour_le; omega, by have := clock.minute_le; omega,
    by have := clock.second_le; omega⟩

theorem ClockTime.inCalendar (clock : ClockTime) : clock.toClockFields.inCalendar = true :=
  (inCalendar_iff _).mpr ⟨clock.month_pos, clock.month_le, clock.day_pos, clock.day_le,
    clock.hour_le, clock.minute_le, clock.second_le⟩

theorem Timestamp.length_chars (timestamp : Timestamp) :
    20 ≤ timestamp.chars.length ∧ timestamp.chars.length ≤ 35 := by
  have hzone : 1 ≤ timestamp.zone.chars.length ∧ timestamp.zone.chars.length ≤ 6 := by
    cases timestamp.zone with
    | utc => decide
    | offset west hour minute hhour hminute =>
        rw [length_offset]
        decide
  have hfraction : (fractionChars timestamp.fraction).length ≤ 10 := by
    cases timestamp.fraction with
    | none => exact Nat.zero_le _
    | some fraction =>
        rw [fractionChars, List.length_append, List.length_singleton]
        have := fraction.bounded
        omega
  rw [chars, List.length_append, List.length_append, length_clock]
  omega

/-- The scan takes its parts one after the other. -/
theorem scanTimestamp_eq_true :
    (scanTimestamp bytes).value = true ↔ (20 ≤ bytes.length ∧ bytes.length ≤ 35) ∧
      (timestampSeparators.allM (standsAt bytes)).value = true ∧
      ∃ clock, (clockFields bytes).run.value = some clock ∧ clock.inCalendar = true ∧
        ∃ suffix, (fractionEnd bytes).value = some suffix ∧
          (zoneEnds bytes suffix).value = true := by
  rw [scanTimestamp]
  by_cases hlength : bytes.length < 20 ∨ 35 < bytes.length
  · rw [if_pos hlength]
    refine iff_of_false Bool.false_ne_true fun h => ?_
    omega
  rw [if_neg hlength]
  have hwindow : 20 ≤ bytes.length ∧ bytes.length ≤ 35 := by omega
  rw [Noted.value_bind]
  cases (timestampSeparators.allM (standsAt bytes)).value with
  | false => simp
  | true =>
      rw [if_neg (by decide), Noted.value_bind]
      cases (clockFields bytes).run.value with
      | none => simp
      | some clock =>
          dsimp only
          cases hcalendar : clock.inCalendar with
          | false => simp [hcalendar]
          | true =>
              rw [if_neg (by decide), Noted.value_bind]
              cases hend : (fractionEnd bytes).value with
              | none => simp
              | some suffix => simp [hwindow, hcalendar]

/-- The scan accepts the bytes of the timestamps and no others. -/
theorem value_scanTimestamp :
    (scanTimestamp bytes).value = true ↔ ∃ timestamp : Timestamp,
      bytes = asciiBytes timestamp.chars := by
  rw [scanTimestamp_eq_true]
  constructor
  · rintro ⟨-, hseparators, clock, hclock, hcalendar, suffix, hsuffix, hzone⟩
    obtain ⟨hfits, hfront⟩ := spellsAt_clock.mp ⟨hseparators, hclock⟩
    obtain ⟨fraction, hfraction, rfl⟩ := fraction_of_fractionEnd hsuffix
    obtain ⟨zone, hspells, hlength⟩ := value_zoneEnds.mp hzone
    refine ⟨⟨clock.toClockTime hfits.1 hcalendar, fraction, zone⟩, eq_asciiBytes_iff.mpr ⟨?_, ?_⟩⟩
    · rw [Timestamp.chars, spellsAt_append, spellsAt_append, List.length_append, length_clock,
        Nat.zero_add, Nat.zero_add]
      exact ⟨⟨hfront, hfraction⟩, hspells⟩
    · rw [Timestamp.chars, List.length_append, List.length_append, length_clock, ← hlength]
  · rintro ⟨timestamp, htext⟩
    have hwindow := timestamp.length_chars
    obtain ⟨hspells, hlength⟩ := eq_asciiBytes_iff.mp htext
    rw [Timestamp.chars, List.append_assoc, spellsAt_append, length_clock, Nat.zero_add] at hspells
    obtain ⟨hseparators, hclock⟩ := spellsAt_clock.mpr ⟨timestamp.clock.fits, hspells.1⟩
    refine ⟨hlength ▸ hwindow, hseparators, _, hclock, timestamp.clock.inCalendar, _,
      fractionEnd_of_spells hspells.2, value_zoneEnds.mpr ⟨timestamp.zone, ?_, ?_⟩⟩
    · exact (spellsAt_append.mp hspells.2).2
    · rw [← hlength, Timestamp.chars, List.length_append, List.length_append, length_clock]

theorem toNat_lt_of_mem_padded {width value : ℕ} {c : Char} (h : c ∈ padded width value) :
    c.toNat < 128 := by
  induction width generalizing value with
  | zero => exact absurd h List.not_mem_nil
  | succ width ih =>
      rcases List.mem_append.mp h with h | h
      · exact ih h
      · have htable : ∀ digit < 10, (Nat.digitChar digit).toNat < 128 := by decide
        rw [List.mem_singleton.mp h]
        exact htable _ (Nat.mod_lt _ (by decide))

theorem Timestamp.toNat_lt (timestamp : Timestamp) : ∀ c ∈ timestamp.chars, c.toNat < 128 := by
  have hpadded (width value : ℕ) : ∀ c ∈ padded width value, c.toNat < 128 :=
    fun c hc => toNat_lt_of_mem_padded hc
  have hzone : ∀ c ∈ timestamp.zone.chars, c.toNat < 128 := by
    cases timestamp.zone with
    | utc =>
        intro c hc
        rw [List.mem_singleton.mp hc]
        decide
    | offset west hour minute hhour hminute =>
        have hsign : (if west then '-' else '+').toNat < 128 := by cases west <;> decide
        simp only [Zone.chars, List.forall_mem_append, List.forall_mem_singleton]
        exact ⟨⟨⟨hsign, hpadded 2 hour⟩, by decide⟩, hpadded 2 minute⟩
  have hfraction : ∀ c ∈ fractionChars timestamp.fraction, c.toNat < 128 := by
    cases timestamp.fraction with
    | none => exact fun c hc => absurd hc List.not_mem_nil
    | some fraction =>
        simp only [fractionChars, List.forall_mem_append, List.forall_mem_singleton]
        refine ⟨by decide, fun c hc => ?_⟩
        have hrange : 48 ≤ c.toNat ∧ c.toNat ≤ 57 :=
          Char.isDigit_iff_toNat.mp (fraction.isDigit c hc)
        omega
  simp only [chars, ClockFields.chars, List.forall_mem_append, List.forall_mem_singleton]
  refine ⟨⟨⟨⟨⟨⟨⟨⟨⟨⟨⟨⟨hpadded 4 _, ?_⟩, hpadded 2 _⟩, ?_⟩, hpadded 2 _⟩, ?_⟩, hpadded 2 _⟩, ?_⟩,
    hpadded 2 _⟩, ?_⟩, hpadded 2 _⟩, hfraction⟩, hzone⟩ <;> decide

end Exactness

section Positions
variable {bytes : List UInt8} {bound : ℕ}

theorem all_byteAt {index : ℕ} (h : index < bound) : (byteAt bytes index).All (· < bound) :=
  List.forall_mem_singleton.mpr h

theorem all_digitsAt {start length : ℕ} (h : start + length ≤ bound) :
    (digitsAt bytes start length).All (· < bound) := by
  intro position hposition
  have hrange := List.mem_range'_1.mp hposition
  exact lt_of_lt_of_le hrange.2 h

theorem all_clockFields (h : 19 ≤ bound) : (clockFields bytes).run.All (· < bound) := by
  rw [clockFields]
  refine (all_digitsAt (by omega)).run_bind fun year => ?_
  refine (all_digitsAt (by omega)).run_bind fun month => ?_
  refine (all_digitsAt (by omega)).run_bind fun day => ?_
  refine (all_digitsAt (by omega)).run_bind fun hour => ?_
  refine (all_digitsAt (by omega)).run_bind fun minute => ?_
  refine (all_digitsAt (by omega)).run_bind fun second => ?_
  exact Noted.all_pure _

/-- Behind a point the digits are looked at, and the position that ends them. -/
theorem all_fractionEnd (h : 19 < bound)
    (hdigits : (byteAt bytes 19).value = some (asciiByte '.') →
      (skipDigits bytes 20).value < bound) : (fractionEnd bytes).All (· < bound) := by
  rw [fractionEnd]
  refine (all_byteAt h).bind ?_
  split_ifs with hpoint
  · refine Noted.All.bind (fun index hindex => ?_) (Noted.all_pure _)
    exact lt_of_le_of_lt (notes_skipDigits 20 index hindex) (hdigits (beq_iff_eq.mp hpoint))
  · exact Noted.all_pure _

/-- The end of a fraction is still inside. -/
theorem fractionEnd_le {suffix : ℕ} (h : 20 ≤ bytes.length)
    (hsuffix : (fractionEnd bytes).value = some suffix) : suffix ≤ bytes.length := by
  obtain ⟨fraction, hspells, rfl⟩ := fraction_of_fractionEnd hsuffix
  have hlength := hspells.length_le
  rw [asciiBytes, List.length_map, List.length_drop] at hlength
  omega

theorem all_zoneEnds {suffix : ℕ} (hlength : bytes.length ≤ bound) (h : suffix < bound) :
    (zoneEnds bytes suffix).All (· < bound) := by
  rw [zoneEnds]
  refine (all_byteAt h).bind ?_
  cases (byteAt bytes suffix).value with
  | none => exact Noted.all_pure _
  | some byte =>
      dsimp only
      split_ifs
      · exact Noted.all_pure _
      · rw [zoneOffset]
        split_ifs with hoffset
        · exact Noted.all_pure _
        refine (all_byteAt (by omega)).bind ?_
        split_ifs
        · exact Noted.all_pure _
        refine (all_digitsAt (by omega)).bind ?_
        split_ifs
        · exact Noted.all_pure _
        exact (all_digitsAt (by omega)).bind (Noted.all_pure _)
      · exact Noted.all_pure _

/-- Where the fraction and its digits end decides how far the scan looks. -/
theorem all_scanTimestamp (hlength : bytes.length ≤ bound)
    (hdigits : (byteAt bytes 19).value = some (asciiByte '.') →
      (skipDigits bytes 20).value < bound)
    (hend : ∀ suffix, (fractionEnd bytes).value = some suffix → suffix < bound) :
    (scanTimestamp bytes).All (· < bound) := by
  rw [scanTimestamp]
  split_ifs with hwindow
  · exact Noted.all_pure _
  refine Noted.All.bind (Noted.all_allM fun separator hseparator => ?_) ?_
  · refine (all_byteAt ?_).bind (Noted.all_pure _)
    have hinside : ∀ separator ∈ timestampSeparators, separator.1 ≤ 16 := by decide
    exact lt_of_le_of_lt (hinside separator hseparator) (by omega)
  split_ifs
  · exact Noted.all_pure _
  refine (all_clockFields (by omega)).bind ?_
  cases (clockFields bytes).run.value with
  | none => exact Noted.all_pure _
  | some clock =>
      dsimp only
      split_ifs
      · exact Noted.all_pure _
      refine (all_fractionEnd (by omega) hdigits).bind ?_
      cases hsuffix : (fractionEnd bytes).value with
      | none => exact Noted.all_pure _
      | some suffix => exact all_zoneEnds hlength (hend suffix hsuffix)

/-- The scan looks at most at the end, where no byte is. -/
theorem le_of_mem_scanTimestamp {position : ℕ} (h : position ∈ (scanTimestamp bytes).notes) :
    position ≤ bytes.length := by
  by_cases hwindow : bytes.length < 20 ∨ 35 < bytes.length
  · rw [scanTimestamp, if_pos hwindow] at h
    exact absurd h List.not_mem_nil
  · refine Nat.le_of_lt_succ (all_scanTimestamp (Nat.le_succ _) (fun _ => ?_) ?_ position h)
    · exact Nat.lt_succ_of_le (skipDigits_le (by omega))
    · exact fun suffix hsuffix => Nat.lt_succ_of_le (fractionEnd_le (by omega) hsuffix)

/-- In a timestamp the digits of a fraction end before the zone. -/
theorem lt_of_mem_scanTimestamp {position : ℕ} (hvalue : (scanTimestamp bytes).value = true)
    (h : position ∈ (scanTimestamp bytes).notes) : position < bytes.length := by
  obtain ⟨-, -, clock, -, -, suffix, hsuffix, hzone⟩ := scanTimestamp_eq_true.mp hvalue
  obtain ⟨zone, -, hlength⟩ := value_zoneEnds.mp hzone
  obtain ⟨c, rest, hchars, -⟩ := exists_head_zone zone
  rw [hchars, List.length_cons] at hlength
  refine all_scanTimestamp le_rfl (fun hpoint => ?_) (fun found hfound => ?_) position h
  · rw [fractionEnd, Noted.value_bind, if_pos (beq_iff_eq.mpr hpoint), Noted.value_bind,
      Noted.value_pure, Option.ite_none_left_eq_some] at hsuffix
    rw [Option.some.inj hsuffix.2]
    omega
  · cases hfound.symm.trans hsuffix
    omega

end Positions

/-- A text is a timestamp for the scanner exactly when it is one. Every byte is read inside the text,
and a scan that finds no byte at its end refuses it. -/
theorem nativeTimestampIsRfc3339_iff :
    (∀ value : String, nativeTimestampIsRfc3339 value = true ↔
      ∃ timestamp : Timestamp, value = timestamp.text) ∧
    ∀ bytes : List UInt8, ∀ position ∈ (scanTimestamp bytes).notes, position < bytes.length ∨
      (position = bytes.length ∧ bytes[position]? = none ∧
        (scanTimestamp bytes).value = false) := by
  refine ⟨fun value => ?_, fun bytes position hposition => ?_⟩
  case refine_2 =>
    rcases (le_of_mem_scanTimestamp hposition).lt_or_eq with hinside | hend
    · exact Or.inl hinside
    · refine Or.inr ⟨hend, List.getElem?_eq_none hend.ge, ?_⟩
      rw [← Bool.not_eq_true]
      exact fun hvalue => (lt_of_mem_scanTimestamp hvalue hposition).ne hend
  rw [nativeTimestampIsRfc3339, value_scanTimestamp]
  refine exists_congr fun timestamp => ?_
  rw [← utf8Bytes_of_ascii timestamp.toNat_lt, Timestamp.text]
  constructor
  · intro h
    refine utf8Bytes_injective ?_
    rw [h, String.toList_ofList]
  · rintro rfl
    rw [String.toList_ofList]

end PodmanLens
