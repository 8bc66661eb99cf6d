import Protogen.Proofs.Time.MomentText

set_option autoImplicit false

namespace Protogen.Time

open Number (Range isDigit ofDigits digitValue)

theorem ofDigits_lt {cs : List Char} (digits : ∀ c ∈ cs, isDigit c = true) : ofDigits cs < 10 ^ cs.length := by
  induction cs using List.reverseRecOn with
  | nil => decide
  | append_singleton cs c ih =>
    have front := ih fun d member => digits d (List.mem_append_left _ member)
    have value : digitValue c ≤ 9 := by
      have digit := digits c (by simp)
      simp only [isDigit, Bool.and_eq_true, decide_eq_true_eq] at digit
      have last : c.toNat ≤ 57 := digit.2
      exact Nat.sub_le_of_le_add last
    rw [ofDigits, List.foldl_append, List.length_append]
    change 10 * ofDigits cs + digitValue c < 10 ^ (cs.length + 1)
    rw [Nat.pow_succ]
    omega

theorem Date.toDays_bounds {d : Date} (valid : d.isValid = true) :
    daysBeforeYear d.year ≤ d.toDays + epochDay ∧ d.toDays + epochDay < daysBeforeYear d.year + 397 := by
  have bounds := bounds_of_isValid valid
  have months : ((monthLengths (isLeap d.year)).take (d.month - 1)).sum ≤ 366 := by
    refine Nat.le_trans ((List.take_sublist ..).sum_le_sum fun _ _ => Nat.zero_le _) ?_
    cases isLeap d.year <;> decide
  change ((monthLengths (isLeap d.year)).take (d.month - 1)).foldr (· + ·) 0 ≤ 366 at months
  simp only [toDays]
  omega

namespace Moment

-- The instant lies, in UTC, in one of the years from the first to the last.
def InYears (first last : Int) (m : Moment) : Prop :=
  (Date.mk first 1 1).toDays * 86400000000000 ≤ m.nanos ∧
    m.nanos < (Date.mk (last + 1) 1 1).toDays * 86400000000000

instance (first last : Int) (m : Moment) : Decidable (m.InYears first last) :=
  inferInstanceAs (Decidable (_ ∧ _))

theorem isRepresentable_iff_inYears {m : Moment} :
    isRepresentable m.nanos = true ↔ m.InYears (-9999) 9999 :=
  decide_eq_true_iff

theorem exists_text?_iff {m : Moment} :
    (∃ s, (Moment.mk m.nanos 0).text? = some s) ↔ m.InYears 0 9999 := by
  constructor
  · rintro ⟨s, text⟩
    obtain ⟨low, high, -⟩ := text?_utc text
    have days := Date.days_of_year_bounds low high
    rw [InYears]
    omega
  · rintro ⟨first, last⟩
    exact exists_text? first last

theorem digits?_lt {n k : Nat} {cs rest : List Char} (read : digits? n cs = some (k, rest)) : k < 10 ^ n := by
  rw [digits?] at read
  split at read
  next front =>
    cases read
    have small := ofDigits_lt (List.all_eq_true.1 front.2)
    rwa [front.1] at small
  next => cases read

theorem fraction?_lt {k : Nat} {cs rest : List Char} (read : fraction? cs = some (k, rest)) : k < 1000000000 := by
  unfold fraction? at read
  split at read
  next cs =>
    dsimp only at read
    split at read
    next => cases read
    next =>
      cases read
      have digits : ∀ c ∈ (cs.takeWhile isDigit ++ List.replicate 9 '0').take 9, isDigit c = true := by
        intro c member
        rcases List.mem_append.1 (List.mem_of_mem_take member) with digit | zero
        · exact List.all_eq_true.1 List.all_takeWhile c digit
        · rw [List.eq_of_mem_replicate zero]
          decide
      have short : ((cs.takeWhile isDigit ++ List.replicate 9 '0').take 9).length ≤ 9 := List.length_take_le ..
      exact Nat.lt_of_lt_of_le (ofDigits_lt digits) (Nat.pow_le_pow_right (by decide) short)
  next =>
    cases read
    decide

theorem offset?_bounds {offset : Int} {cs rest : List Char} (read : offset? cs = some (offset, rest)) :
    -1440 < offset ∧ offset < 1440 := by
  unfold offset? at read
  dsimp only at read
  split at read
  -- UTC is a letter, in either case; any other offset is a sign with hours and minutes behind it.
  iterate 2
    next =>
      cases read
      decide
  iterate 2
    next =>
      obtain ⟨⟨hours, cs⟩, -, read⟩ := Option.bind_eq_some_iff.1 read
      obtain ⟨cs, -, read⟩ := Option.bind_eq_some_iff.1 read
      obtain ⟨⟨minutes, cs⟩, -, read⟩ := Option.bind_eq_some_iff.1 read
      split at read
      next small =>
        cases read
        dsimp only at small
        omega
      next => cases read
  next => cases read

theorem exists_of_parse? {s : String} {m : Moment} (parsed : parse? s = some m) :
    ∃ (date : Date) (second fraction : Nat) (offset : Int), date.isValid = true ∧ 0 ≤ date.year ∧
      date.year ≤ 9999 ∧ second < 86400 ∧ fraction < 1000000000 ∧ -1440 < offset ∧ offset < 1440 ∧
      m = ⟨(date.toDays * 86400 + second - offset * 60) * 1000000000 + fraction, offset⟩ := by
  rw [parse?] at parsed
  obtain ⟨⟨year, cs⟩, digits, parsed⟩ := Option.bind_eq_some_iff.1 parsed
  obtain ⟨cs, -, parsed⟩ := Option.bind_eq_some_iff.1 parsed
  obtain ⟨⟨month, cs⟩, -, parsed⟩ := Option.bind_eq_some_iff.1 parsed
  obtain ⟨cs, -, parsed⟩ := Option.bind_eq_some_iff.1 parsed
  obtain ⟨⟨day, cs⟩, -, parsed⟩ := Option.bind_eq_some_iff.1 parsed
  dsimp only at parsed
  split at parsed
  next c cs =>
    split at parsed
    next =>
      obtain ⟨cs, -, parsed⟩ := Option.bind_eq_some_iff.1 parsed
      obtain ⟨⟨hour, cs⟩, -, parsed⟩ := Option.bind_eq_some_iff.1 parsed
      obtain ⟨cs, -, parsed⟩ := Option.bind_eq_some_iff.1 parsed
      obtain ⟨⟨minute, cs⟩, -, parsed⟩ := Option.bind_eq_some_iff.1 parsed
      obtain ⟨cs, -, parsed⟩ := Option.bind_eq_some_iff.1 parsed
      obtain ⟨⟨second, cs⟩, -, parsed⟩ := Option.bind_eq_some_iff.1 parsed
      obtain ⟨⟨fraction, cs⟩, part, parsed⟩ := Option.bind_eq_some_iff.1 parsed
      obtain ⟨⟨offset, cs⟩, zone, parsed⟩ := Option.bind_eq_some_iff.1 parsed
      dsimp only at parsed
      split at parsed
      next => cases parsed
      next valid =>
        -- The sixtieth second counts as the end of the one before.
        have shown : (if second = 60 then 59 else second) ≤ 59 := by
          split <;> omega
        have rest : (if second = 60 then 999999999 else fraction) < 1000000000 := by
          have := fraction?_lt part
          split <;> omega
        generalize (if second = 60 then 59 else second) = second' at shown parsed
        generalize (if second = 60 then 999999999 else fraction) = fraction' at rest parsed
        split at parsed
        next => cases parsed
        next =>
          cases parsed
          have years := digits?_lt digits
          have clock := offset?_bounds zone
          simp only [not_or, Bool.not_eq_true', Bool.not_eq_false] at valid
          obtain ⟨-, valid, hours, minutes, -⟩ := valid
          refine ⟨_, hour * 3600 + minute * 60 + second', fraction', offset, valid, ?_, ?_, ?_, rest, clock.1,
            clock.2, rfl⟩
          · exact Int.natCast_nonneg year
          · change (year : Int) ≤ 9999
            omega
          · omega
    next => cases parsed
  next => cases parsed

theorem seconds_of_parse? {s : String} {m : Moment} (parsed : parse? s = some m) :
    Range.int64.contains m.seconds = true := by
  obtain ⟨date, second, fraction, offset, valid, low, high, time, small, behind, ahead, rfl⟩ :=
    exists_of_parse? parsed
  have days := date.toDays_bounds valid
  simp only [daysBeforeYear, epochDay] at days
  simp only [Range.contains_iff, seconds, nanosPerSecond, Range.int64]
  omega

end Moment

end Protogen.Time
