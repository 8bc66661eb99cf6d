import Mathlib
import Protogen.Time.Civil

set_option autoImplicit false

namespace Protogen.Time

theorem daysBeforeYear_mono {y z : Int} (before : y ≤ z) : daysBeforeYear y ≤ daysBeforeYear z := by
  simp only [daysBeforeYear]
  omega

theorem daysBeforeYear_succ (y : Int) :
    daysBeforeYear (y + 1) = daysBeforeYear y + ((monthLengths (isLeap y)).sum : Nat) := by
  by_cases leap : isLeap y = true
  · have length : ((monthLengths (isLeap y)).sum : Nat) = 366 := by
      rw [leap]
      decide
    simp only [isLeap, decide_eq_true_eq] at leap
    simp only [length, daysBeforeYear]
    omega
  · have length : ((monthLengths (isLeap y)).sum : Nat) = 365 := by
      rw [Bool.eq_false_iff.2 leap]
      decide
    simp only [isLeap, decide_eq_true_eq] at leap
    simp only [length, daysBeforeYear]
    omega

theorem year_bounds (n : Int) :
    daysBeforeYear (yearOfDay n) ≤ n ∧ n < daysBeforeYear (yearOfDay n + 1) := by
  -- A guess by the mean length of a year misses by a year at most.
  have near : daysBeforeYear (400 * n / 146097 - 1) ≤ n ∧
      n < daysBeforeYear (400 * n / 146097 + 1 + 1) := by
    simp only [daysBeforeYear]
    omega
  simp only [yearOfDay]
  split
  next before =>
    rw [Int.sub_add_cancel]
    exact ⟨near.1, before⟩
  next after =>
    split
    next past => exact ⟨past, near.2⟩
    next => omega

theorem monthOfDay_eq {lens : List Nat} {n : Nat} (inside : n < lens.sum) (month : Nat) :
    ∃ k day, monthOfDay lens month n = (month + k, day + 1) ∧ k < lens.length ∧
      day < lens.getD k 0 ∧ (lens.take k).sum + day = n := by
  induction lens generalizing month n with
  | nil => simp at inside
  | cons len lens ih =>
    rw [List.sum_cons] at inside
    by_cases here : n < len
    · exact ⟨0, n, by simp [monthOfDay, here], by simp, by simpa using here, by simp⟩
    · obtain ⟨k, day, same, bound, short, total⟩ := ih (n := n - len) (by omega) (month + 1)
      refine ⟨k + 1, day, ?_, by simpa using bound, by simpa using short, ?_⟩
      · simp only [monthOfDay, here, if_false, same]
        congr 1
        omega
      · rw [List.take_succ_cons, List.sum_cons]
        omega

theorem daysInMonth_le (year : Int) (month : Nat) : daysInMonth year month ≤ 31 := by
  have all : ∀ leap, ∀ len ∈ monthLengths leap, len ≤ 31 := by decide
  rw [daysInMonth, List.getD_eq_getElem?_getD]
  cases length : (monthLengths (isLeap year))[month - 1]? with
  | none => decide
  | some len => exact all _ len (List.mem_of_getElem? length)

namespace Date

theorem bounds_of_isValid {d : Date} (valid : d.isValid = true) :
    1 ≤ d.month ∧ d.month ≤ 12 ∧ 1 ≤ d.day ∧ d.day ≤ 31 := by
  have short := daysInMonth_le d.year d.month
  simp only [isValid, decide_eq_true_eq] at valid
  omega

theorem ofDays_eq (days : Int) : ∃ k day : Nat,
    ofDays days = ⟨yearOfDay (days + epochDay), k + 1, day + 1⟩ ∧ k < 12 ∧
      day < (monthLengths (isLeap (yearOfDay (days + epochDay)))).getD k 0 ∧
      days + epochDay = daysBeforeYear (yearOfDay (days + epochDay)) +
        (((monthLengths (isLeap (yearOfDay (days + epochDay)))).take k).sum + day : Nat) := by
  obtain ⟨low, high⟩ := year_bounds (days + epochDay)
  rw [daysBeforeYear_succ] at high
  have inside : (days + epochDay - daysBeforeYear (yearOfDay (days + epochDay))).toNat <
      (monthLengths (isLeap (yearOfDay (days + epochDay)))).sum := by omega
  obtain ⟨k, day, same, bound, short, total⟩ := monthOfDay_eq inside 1
  refine ⟨k, day, ?_, bound, short, ?_⟩
  · simp only [ofDays, same]
    rw [Nat.add_comm 1 k]
  · omega

theorem toDays_ofDays (days : Int) : (ofDays days).toDays = days := by
  obtain ⟨k, day, same, -, -, total⟩ := ofDays_eq days
  generalize yearOfDay (days + epochDay) = year at same total
  rw [same]
  change daysBeforeYear year + (((monthLengths (isLeap year)).take k).sum : Nat) +
    ((day + 1 : Nat) : Int) - 1 - epochDay = days
  omega

theorem isValid_ofDays (days : Int) : (ofDays days).isValid = true := by
  obtain ⟨k, day, same, bound, short, -⟩ := ofDays_eq days
  rw [same]
  simp only [isValid, daysInMonth, Nat.add_sub_cancel, decide_eq_true_eq]
  omega

theorem year_ofDays (days : Int) : (ofDays days).year = yearOfDay (days + epochDay) := by
  obtain ⟨k, day, same, -⟩ := ofDays_eq days
  rw [same]

theorem toDays_first (year : Int) : (Date.mk year 1 1).toDays = daysBeforeYear year - epochDay := by
  simp [toDays]

theorem days_of_year_bounds {days low high : Int} (first : low ≤ (ofDays days).year)
    (last : (ofDays days).year ≤ high) :
    (Date.mk low 1 1).toDays ≤ days ∧ days < (Date.mk (high + 1) 1 1).toDays := by
  rw [year_ofDays] at first last
  have bounds := year_bounds (days + epochDay)
  have below := daysBeforeYear_mono first
  have above := daysBeforeYear_mono (Int.add_le_add_right last 1)
  rw [toDays_first, toDays_first]
  omega

theorem year_bounds_of_days {days low high : Int} (first : (Date.mk low 1 1).toDays ≤ days)
    (last : days < (Date.mk (high + 1) 1 1).toDays) :
    low ≤ (ofDays days).year ∧ (ofDays days).year ≤ high := by
  rw [toDays_first] at first last
  have bounds := year_bounds (days + epochDay)
  rw [year_ofDays]
  constructor
  · by_contra before
    have := daysBeforeYear_mono (Int.add_one_le_of_lt (Int.not_le.1 before))
    omega
  · by_contra after
    have := daysBeforeYear_mono (Int.add_one_le_of_lt (Int.not_le.1 after))
    omega

end Date

end Protogen.Time
