/-!
# Calendar time

The date and time of day of a number of seconds since the start of 1970, in the calendar with leap
years, and their text as it stands in the record of runs.

* `Date.next`: the day after a date, by the lengths of the months and the leap years.
* `Date.ofMarch`: a day of a year that starts in March, where `Date.next` goes on to the next day.
* `Date.ofDay_eq_repeat`: **the number of a day counts the days after 1 January 1970.**
-/

namespace AgentFlow.Runs

structure Date where
  year : Nat
  month : Nat
  day : Nat
  deriving DecidableEq

/-- The days from 1 March of the year 0 to 1 January 1970. -/
def daysToEpoch : Nat := 719468

/-- The days of four hundred years. -/
def daysOfEra : Nat := 146097

/-- The day with a number, counted from 1 January 1970.  Years are taken to start in March, so that
a leap day is the last day of its year. -/
def Date.ofDay (n : Nat) : Date :=
  let era := (n + daysToEpoch) / daysOfEra
  let inEra := (n + daysToEpoch) % daysOfEra
  let year := (inEra - inEra / 1460 + inEra / 36524 - inEra / 146096) / 365
  let inYear := inEra - (365 * year + year / 4 - year / 100)
  let month := (5 * inYear + 2) / 153
  { year := year + 400 * era + (if month < 10 then 0 else 1)
    month := if month < 10 then month + 3 else month - 9
    day := inYear - (153 * month + 2) / 5 + 1 }

def digitsAtLeast (width n : Nat) : String :=
  let digits := toString n
  String.ofList (List.replicate (width - digits.length) '0') ++ digits

/-- The text of a number of seconds since the start of 1970, in universal time. -/
def timeText (seconds : Nat) : String :=
  let date := Date.ofDay (seconds / 86400)
  let rest := seconds % 86400
  digitsAtLeast 4 date.year ++ "-" ++ digitsAtLeast 2 date.month ++ "-" ++
    digitsAtLeast 2 date.day ++ "T" ++ digitsAtLeast 2 (rest / 3600) ++ ":" ++
    digitsAtLeast 2 (rest / 60 % 60) ++ ":" ++ digitsAtLeast 2 (rest % 60) ++ "+00:00"

/-! ### Day by day -/

def isLeapYear (year : Nat) : Bool :=
  year % 4 = 0 ∧ (year % 100 ≠ 0 ∨ year % 400 = 0)

def daysOfMonth (leap : Bool) (month : Nat) : Nat :=
  if month = 2 then if leap then 29 else 28
  else if month ∈ [4, 6, 9, 11] then 30
  else 31

def Date.next (d : Date) : Date :=
  if d.day < daysOfMonth (isLeapYear d.year) d.month then { d with day := d.day + 1 }
  else if d.month < 12 then ⟨d.year, d.month + 1, 1⟩
  else ⟨d.year + 1, 1, 1⟩

/-- The days from 1 March of the year 0 to 1 March of another year. -/
def daysToMarch (year : Nat) : Nat := 365 * year + year / 4 - year / 100 + year / 400

/-- A year that starts in March ends with the February of the next one. -/
theorem daysToMarch_succ (year : Nat) :
    daysToMarch (year + 1) =
      daysToMarch year + (337 + daysOfMonth (isLeapYear (year + 1)) 2) := by
  simp only [daysToMarch, isLeapYear, daysOfMonth, decide_eq_true_eq, if_true]
  by_cases h4 : (year + 1) % 4 = 0
  · by_cases h100 : (year + 1) % 100 = 0
    · by_cases h400 : (year + 1) % 400 = 0
      · rw [if_pos ⟨h4, .inr h400⟩]
        omega
      · rw [if_neg (by omega)]
        omega
    · rw [if_pos ⟨h4, .inl h100⟩]
      omega
  · have hspan : (year + 1) / 4 = year / 4 := by omega
    have hcentury : (year + 1) / 100 = year / 100 := by omega
    have hera : (year + 1) / 400 = year / 400 := by omega
    rw [if_neg (by omega), hspan, hcentury, hera]
    omega

/-- Every day lies in a year that starts in March. -/
theorem exists_daysToMarch (d : Nat) :
    ∃ year r, d = daysToMarch year + r ∧ daysToMarch year + r < daysToMarch (year + 1) := by
  induction d with
  | zero => exact ⟨0, 0, by decide, by decide⟩
  | succ d ih =>
    obtain ⟨year, r, rfl, hr⟩ := ih
    by_cases hlast : daysToMarch year + r + 1 < daysToMarch (year + 1)
    · exact ⟨year, r + 1, rfl, hlast⟩
    · have hsucc := daysToMarch_succ (year + 1)
      exact ⟨year + 1, 0, by omega, by omega⟩

namespace Date

/-- The date of a day of a year that starts in March. -/
def ofMarch (year inYear : Nat) : Date :=
  let month := (5 * inYear + 2) / 153
  { year := year + (if month < 10 then 0 else 1)
    month := if month < 10 then month + 3 else month - 9
    day := inYear - (153 * month + 2) / 5 + 1 }

/-- The lengths of the months from March to January. -/
theorem daysOfMonth_march : ∀ leap : Bool, ∀ m < 11,
    daysOfMonth leap (if m < 10 then m + 3 else m - 9) =
      (153 * (m + 1) + 2) / 5 - (153 * m + 2) / 5 := by
  decide

variable {year r : Nat}

/-- A day before the end of January. -/
theorem next_ofMarch_of_lt (h : r < 337) :
    (ofMarch year r).next = ofMarch year (r + 1) := by
  obtain ⟨m, hm⟩ : ∃ m, (5 * r + 2) / 153 = m := ⟨_, rfl⟩
  have hlength := daysOfMonth_march (isLeapYear (ofMarch year r).year) m (by omega)
  rw [next]
  by_cases hstays : (5 * (r + 1) + 2) / 153 = m
  · rw [if_pos]
    · simp only [ofMarch, hm, hstays, mk.injEq, true_and]
      omega
    · simp only [ofMarch, hm] at hlength ⊢
      omega
  · have hturns : (5 * (r + 1) + 2) / 153 = m + 1 := by omega
    rw [if_neg]
    · simp only [ofMarch, hm, hturns]
      split <;> split <;> split <;> simp <;> omega
    · simp only [ofMarch, hm] at hlength ⊢
      omega

/-- The last days of such a year are those of February. -/
theorem ofMarch_february (h : 337 ≤ r) (hr : r ≤ 365) :
    ofMarch year r = ⟨year + 1, 2, r - 336⟩ := by
  have hm : (5 * r + 2) / 153 = 11 := by omega
  have hday : r - (153 * 11 + 2) / 5 + 1 = r - 336 := by omega
  rw [ofMarch, hm, hday]
  rfl

theorem le_february (leap : Bool) : 28 ≤ daysOfMonth leap 2 := by
  cases leap <;> decide

theorem february_le (leap : Bool) : daysOfMonth leap 2 ≤ 29 := by
  cases leap <;> decide

theorem next_february (day : Nat) :
    (⟨year, 2, day⟩ : Date).next = if day < daysOfMonth (isLeapYear year) 2 then ⟨year, 2, day + 1⟩
      else ⟨year, 3, 1⟩ :=
  rfl

/-- Within a year that starts in March, the days follow one another. -/
theorem next_ofMarch (h : daysToMarch year + r + 1 < daysToMarch (year + 1)) :
    (ofMarch year r).next = ofMarch year (r + 1) := by
  by_cases hr : r < 337
  · exact next_ofMarch_of_lt hr
  · rw [daysToMarch_succ] at h
    have hle := february_le (isLeapYear (year + 1))
    rw [ofMarch_february (by omega) (by omega), ofMarch_february (by omega) (by omega),
      next_february, if_pos (by omega), Nat.sub_add_comm (by omega)]

/-- The next such year follows the last of them. -/
theorem next_ofMarch_last (h : daysToMarch year + r + 1 = daysToMarch (year + 1)) :
    (ofMarch year r).next = ofMarch (year + 1) 0 := by
  rw [daysToMarch_succ] at h
  have hle := february_le (isLeapYear (year + 1))
  have hge := le_february (isLeapYear (year + 1))
  rw [ofMarch_february (by omega) (by omega), next_february, if_neg (by omega)]
  rfl

/-! ### Numbers of days -/

/-- The year of a day of an era, which has centuries, spans of four years and years: what is taken
off for the leap days before it leaves years of the same length. -/
theorem year_inEra {c q t r d : Nat} (hc : c ≤ 3) (hq : q ≤ 24) (ht : t ≤ 3) (hr : r ≤ 365)
    (hleap : r = 365 → t = 3 ∧ (q = 24 → c = 3)) (hd : d = 36524 * c + 1461 * q + 365 * t + r) :
    (d - d / 1460 + d / 36524 - d / 146096) / 365 = 100 * c + 4 * q + t := by
  by_cases hlast : d = 146096
  · subst hlast
    omega
  · have hcentury : d / 36524 = c := by omega
    have hera : d / 146096 = 0 := by omega
    -- A leap day may be taken off before it is over, but not on the first day of its year.
    obtain ⟨e, hspan, hre, he⟩ : ∃ e, d / 1460 = 25 * c + q + e ∧ e ≤ r ∧ r < 365 + e :=
      ⟨d / 1460 - (25 * c + q), by omega, by omega, by omega⟩
    have hdays : d - d / 1460 + d / 36524 - d / 146096 = 365 * (100 * c + 4 * q + t) + (r - e) := by
      omega
    rw [hdays, Nat.mul_add_div (by decide), Nat.div_eq_of_lt (by omega), Nat.add_zero]

theorem daysToMarch_inEra {c q t : Nat} (hc : c ≤ 3) (hq : q ≤ 24) (ht : t ≤ 3) (e : Nat) :
    daysToMarch (400 * e + (100 * c + 4 * q + t)) =
      daysOfEra * e + (36524 * c + 1461 * q + 365 * t) := by
  rw [daysToMarch, daysOfEra]
  omega

/-- A day with the number 365 is the leap day of a year in which there is one. -/
theorem year_of_leapDay {c q t e : Nat} (hc : c ≤ 3) (ht : t ≤ 3)
    (h : daysToMarch (400 * e + (100 * c + 4 * q + t)) + 365 <
      daysToMarch (400 * e + (100 * c + 4 * q + t) + 1)) : t = 3 ∧ (q = 24 → c = 3) := by
  rw [daysToMarch, daysToMarch] at h
  omega

theorem le_of_lt_daysToMarch_succ (h : daysToMarch year + r < daysToMarch (year + 1)) :
    r ≤ 365 := by
  rw [daysToMarch_succ] at h
  have hle := february_le (isLeapYear (year + 1))
  omega

theorem ofDay_eq_ofMarch {n : Nat} (h : n + daysToEpoch = daysToMarch year + r)
    (hin : daysToMarch year + r < daysToMarch (year + 1)) : ofDay n = ofMarch year r := by
  obtain ⟨e, y, rfl, hy⟩ : ∃ e y, year = 400 * e + y ∧ y < 400 :=
    ⟨year / 400, year % 400, by omega, by omega⟩
  obtain ⟨c, q, t, rfl, hc, hq, ht⟩ : ∃ c q t, y = 100 * c + 4 * q + t ∧ c ≤ 3 ∧ q ≤ 24 ∧ t ≤ 3 :=
    ⟨y / 100, y % 100 / 4, y % 4, by omega, by omega, by omega, by omega⟩
  have hr : r ≤ 365 := le_of_lt_daysToMarch_succ hin
  have hleap : r = 365 → t = 3 ∧ (q = 24 → c = 3) := by
    rintro rfl
    exact year_of_leapDay hc ht hin
  have hlt : 36524 * c + 1461 * q + 365 * t + r < daysOfEra := by
    rw [daysOfEra]
    omega
  rw [daysToMarch_inEra hc hq ht, Nat.add_assoc] at h
  have hera : (n + daysToEpoch) / daysOfEra = e := by
    rw [h, Nat.mul_add_div (by decide), Nat.div_eq_of_lt hlt, Nat.add_zero]
  have hinEra : (n + daysToEpoch) % daysOfEra = 36524 * c + 1461 * q + 365 * t + r := by
    rw [h, Nat.mul_add_mod, Nat.mod_eq_of_lt hlt]
  have hinYear : 36524 * c + 1461 * q + 365 * t + r - (365 * (100 * c + 4 * q + t) +
      (100 * c + 4 * q + t) / 4 - (100 * c + 4 * q + t) / 100) = r := by
    omega
  simp only [ofDay, ofMarch, hera, hinEra, year_inEra hc hq ht hr hleap rfl, hinYear,
    Nat.add_comm (400 * e)]

theorem ofDay_succ (n : Nat) : ofDay (n + 1) = (ofDay n).next := by
  obtain ⟨year, r, h, hr⟩ := exists_daysToMarch (n + daysToEpoch)
  rw [ofDay_eq_ofMarch h hr]
  by_cases hlast : daysToMarch year + r + 1 < daysToMarch (year + 1)
  · have hnext : n + 1 + daysToEpoch = daysToMarch year + (r + 1) := by omega
    rw [next_ofMarch hlast, ofDay_eq_ofMarch hnext hlast]
  · have hnext : n + 1 + daysToEpoch = daysToMarch (year + 1) + 0 := by omega
    have hsucc := daysToMarch_succ (year + 1)
    rw [next_ofMarch_last (by omega), ofDay_eq_ofMarch hnext (by omega)]

/-- **The date of a day is found by going on from day to day,** from 1 January 1970. -/
theorem ofDay_eq_repeat (n : Nat) : ofDay n = n.repeat next ⟨1970, 1, 1⟩ := by
  induction n with
  | zero => decide
  | succ n ih => rw [ofDay_succ, ih, Nat.repeat]

example : ofDay 11016 = ⟨2000, 2, 29⟩ := by decide

end Date

end AgentFlow.Runs
