import Protogen.Proofs.Number.IntegerText
import Protogen.Proofs.Time.Calendar
import Protogen.Time.Moment

set_option autoImplicit false

namespace Protogen.Time.Moment

open Number (isDigit ofDigits natText)

theorem ofDigits_zeros (k : Nat) (cs : List Char) :
    ofDigits (List.replicate k '0' ++ cs) = ofDigits cs := by
  change Nat.ofDigitChars 10 (List.replicate k '0' ++ cs) 0 = Nat.ofDigitChars 10 cs 0
  rw [Nat.ofDigitChars_append, Nat.ofDigitChars_replicate_zero, Nat.mul_zero]

theorem ofDigits_padded (width n : Nat) : ofDigits (padded width n) = n := by
  rw [padded, ofDigits_zeros, Number.ofDigits_natText]

theorem length_padded {width n : Nat} (positive : 0 < width) (fits : n < 10 ^ width) :
    (padded width n).length = width := by
  have short : (natText n).length ≤ width := (Nat.length_toDigits_le_iff (by decide) positive).2 fits
  rw [padded, List.length_append, List.length_replicate]
  omega

theorem isDigit_of_mem_padded {c : Char} {width n : Nat} (member : c ∈ padded width n) :
    isDigit c = true := by
  rcases List.mem_append.1 member with zero | digit
  · rw [List.eq_of_mem_replicate zero]
    decide
  · exact Number.isDigit_of_mem_natText digit

theorem digits?_padded {width n : Nat} (positive : 0 < width) (fits : n < 10 ^ width)
    (rest : List Char) : digits? width (padded width n ++ rest) = some (n, rest) := by
  have length := length_padded positive fits
  have front : (padded width n ++ rest).take width = padded width n := by
    rw [List.take_append_of_le_length (Nat.le_of_eq length.symm), List.take_of_length_le (Nat.le_of_eq length)]
  have back : (padded width n ++ rest).drop width = rest := by
    rw [List.drop_append_of_le_length (Nat.le_of_eq length.symm), List.drop_of_length_le (Nat.le_of_eq length),
      List.nil_append]
  have digits : (padded width n).all isDigit = true :=
    List.all_eq_true.2 fun _ member => isDigit_of_mem_padded member
  simp only [digits?, front, back, length, digits, ofDigits_padded, and_self, if_true]

theorem char?_cons (c : Char) (cs : List Char) : char? c (c :: cs) = some cs := by
  simp only [char?, if_true]

theorem dropZeros_append (cs : List Char) : ∃ k,
    (cs.reverse.dropWhile (· = '0')).reverse ++ List.replicate k '0' = cs := by
  have split := List.takeWhile_append_dropWhile (p := (· = '0')) (l := cs.reverse)
  have zeros : cs.reverse.takeWhile (· = '0') =
      List.replicate (cs.reverse.takeWhile (· = '0')).length '0' := by
    refine List.eq_replicate_of_mem fun c member => ?_
    simpa using List.all_eq_true.1 (List.all_takeWhile (p := (· = '0')) (l := cs.reverse)) c member
  refine ⟨(cs.reverse.takeWhile (· = '0')).length, ?_⟩
  rw [zeros] at split
  have reversed := congrArg List.reverse split
  rwa [List.reverse_append, List.reverse_reverse, List.reverse_replicate] at reversed

theorem fractionText_of_pos {n : Nat} (positive : 0 < n) (fits : n < 1000000000) : ∃ ds,
    fractionText n = '.' :: ds ∧ ds ≠ [] ∧ (∀ c ∈ ds, isDigit c = true) ∧
      (ds ++ List.replicate 9 '0').take 9 = padded 9 n := by
  obtain ⟨k, split⟩ := dropZeros_append (padded 9 n)
  have length : (padded 9 n).length = 9 := length_padded (by decide) fits
  refine ⟨_, by rw [fractionText, if_neg (Nat.ne_of_gt positive)], ?_, ?_, ?_⟩
  · -- Nothing but zeros would be the text of zero.
    intro empty
    have value := ofDigits_padded 9 n
    rw [← split, empty, List.nil_append, ← List.append_nil (List.replicate k '0'), ofDigits_zeros] at value
    change 0 = n at value
    omega
  · intro c member
    have shown : c ∈ padded 9 n := by
      rw [← split]
      exact List.mem_append_left _ member
    exact isDigit_of_mem_padded shown
  · generalize ((padded 9 n).reverse.dropWhile (· = '0')).reverse = ds at split
    have short : ds.length + k = 9 := by
      rw [← length, ← split, List.length_append, List.length_replicate]
    rw [List.take_append, List.take_of_length_le (by omega), List.take_replicate, ← split]
    congr 2
    omega

theorem fraction?_digits {ds : List Char} (nonempty : ds ≠ []) (digits : ∀ c ∈ ds, isDigit c = true) :
    fraction? ('.' :: (ds ++ ['Z'])) = some (ofDigits ((ds ++ List.replicate 9 '0').take 9), ['Z']) := by
  have front : (ds ++ ['Z']).takeWhile isDigit = ds := by
    rw [List.takeWhile_append_of_pos digits]
    exact List.append_nil ds
  have back : (ds ++ ['Z']).dropWhile isDigit = ['Z'] := by
    rw [List.dropWhile_append_of_pos digits]
    rfl
  have isEmpty : ds.isEmpty = false := List.isEmpty_eq_false_iff.2 nonempty
  simp only [fraction?, front, back, isEmpty, Bool.false_eq_true, if_false]

theorem fraction?_fractionText {n : Nat} (fits : n < 1000000000) :
    fraction? (fractionText n ++ ['Z']) = some (n, ['Z']) := by
  by_cases zero : n = 0
  · rw [zero]
    rfl
  · obtain ⟨ds, text, nonempty, digits, filled⟩ := fractionText_of_pos (Nat.pos_of_ne_zero zero) fits
    rw [text, List.cons_append, fraction?_digits nonempty digits, filled, ofDigits_padded]

-- The text of a time of day in UTC.
def clockText (date : Date) (second fraction : Nat) : List Char :=
  padded 4 date.year.toNat ++ '-' :: (padded 2 date.month ++ '-' :: (padded 2 date.day ++ 'T' ::
    (padded 2 (second / 3600) ++ ':' :: (padded 2 (second / 60 % 60) ++ ':' ::
      (padded 2 (second % 60) ++ (fractionText fraction ++ ['Z']))))))

theorem text?_utc {nanos : Int} {s : String} (text : (Moment.mk nanos 0).text? = some s) :
    0 ≤ (Date.ofDays (nanos / 86400000000000)).year ∧
      (Date.ofDays (nanos / 86400000000000)).year ≤ 9999 ∧
      s = String.ofList (clockText (Date.ofDays (nanos / 86400000000000))
        ((nanos % 86400000000000).toNat / 1000000000) ((nanos % 86400000000000).toNat % 1000000000)) := by
  have clock : (Moment.mk nanos 0).clock =
      (nanos / 86400000000000, (nanos % 86400000000000).toNat) := by
    simp [clock, nanosPerSecond]
  simp only [text?, clock] at text
  split at text
  next year =>
    refine ⟨year.1, year.2, ?_⟩
    rw [← Option.some.inj text]
    simp [clockText, offsetText]
  next => cases text

theorem parse?_clockText {date : Date} {second fraction : Nat} (valid : date.isValid = true)
    (low : 0 ≤ date.year) (high : date.year ≤ 9999) (time : second < 86400)
    (fits : fraction < 1000000000) :
    parse? (String.ofList (clockText date second fraction)) =
      some ⟨(date.toDays * 86400 + second) * 1000000000 + fraction, 0⟩ := by
  have bounds := Date.bounds_of_isValid valid
  have year (rest : List Char) : digits? 4 (padded 4 date.year.toNat ++ rest) =
      some (date.year.toNat, rest) := digits?_padded (by decide) (by omega) rest
  have two (n : Nat) (small : n < 100) (rest : List Char) : digits? 2 (padded 2 n ++ rest) = some (n, rest) :=
    digits?_padded (by decide) small rest
  have zone : offset? ['Z'] = some (0, []) := rfl
  have ascii : 'T'.toNat < 128 := by decide
  have same : Date.mk date.year.toNat date.month date.day = date := by
    rw [Int.toNat_of_nonneg low]
  have ordinary : ¬second % 60 = 60 := by omega
  have inside : ¬(23 < second / 3600 ∨ 59 < second / 60 % 60 ∨ 60 < second % 60) := by omega
  rw [parse?, clockText, String.toList_ofList]
  -- One step for each part of the text.
  refine Option.bind_eq_some_iff.2 ⟨_, year _, ?_⟩
  refine Option.bind_eq_some_iff.2 ⟨_, char?_cons _ _, ?_⟩
  refine Option.bind_eq_some_iff.2 ⟨_, two date.month (by omega) _, ?_⟩
  refine Option.bind_eq_some_iff.2 ⟨_, char?_cons _ _, ?_⟩
  refine Option.bind_eq_some_iff.2 ⟨_, two date.day (by omega) _, ?_⟩
  refine (if_pos ascii).trans ?_
  refine Option.bind_eq_some_iff.2 ⟨_, rfl, ?_⟩
  refine Option.bind_eq_some_iff.2 ⟨_, two (second / 3600) (by omega) _, ?_⟩
  refine Option.bind_eq_some_iff.2 ⟨_, char?_cons _ _, ?_⟩
  refine Option.bind_eq_some_iff.2 ⟨_, two (second / 60 % 60) (by omega) _, ?_⟩
  refine Option.bind_eq_some_iff.2 ⟨_, char?_cons _ _, ?_⟩
  refine Option.bind_eq_some_iff.2 ⟨_, two (second % 60) (by omega) _, ?_⟩
  refine Option.bind_eq_some_iff.2 ⟨_, fraction?_fractionText fits, ?_⟩
  refine Option.bind_eq_some_iff.2 ⟨_, zone, ?_⟩
  simp only [same, valid, ordinary, inside, if_false, List.isEmpty_nil, Bool.not_true,
    Bool.false_eq_true, false_or, false_and]
  congr 2
  simp only [nanosPerSecond]
  omega

theorem isRepresentable_iff {nanos : Int} : isRepresentable nanos = true ↔
    -377705116800000000000 ≤ nanos ∧ nanos < 253402300800000000000 := by
  have first : (Date.mk (-9999) 1 1).toDays = -4371587 := by decide
  have last : (Date.mk 10000 1 1).toDays = 2932897 := by decide
  simp only [isRepresentable, first, last, nanosPerSecond, decide_eq_true_eq]
  omega

theorem exists_text? {nanos : Int} (first : (Date.mk 0 1 1).toDays * 86400000000000 ≤ nanos)
    (last : nanos < (Date.mk (9999 + 1) 1 1).toDays * 86400000000000) :
    ∃ s, (Moment.mk nanos 0).text? = some s := by
  have clock : (Moment.mk nanos 0).clock =
      (nanos / 86400000000000, (nanos % 86400000000000).toNat) := by
    simp [clock, nanosPerSecond]
  have year : 0 ≤ (Date.ofDays (nanos / 86400000000000)).year ∧
      (Date.ofDays (nanos / 86400000000000)).year ≤ 9999 :=
    Date.year_bounds_of_days (by omega) (by omega)
  exact ⟨_, by simp only [text?, clock]; exact if_pos year⟩

theorem parse?_text {nanos : Int} {s : String} (text : (Moment.mk nanos 0).text? = some s) :
    parse? s = some ⟨nanos, 0⟩ ∧ isRepresentable nanos = true := by
  obtain ⟨low, high, rfl⟩ := text?_utc text
  constructor
  · rw [parse?_clockText (Date.isValid_ofDays _) low high (by omega) (by omega), Date.toDays_ofDays]
    congr 2
    omega
  · have bounds := Date.days_of_year_bounds low high
    have first : (Date.mk 0 1 1).toDays = -719528 := by decide
    have last : (Date.mk (9999 + 1) 1 1).toDays = 2932897 := by decide
    rw [first, last] at bounds
    rw [isRepresentable_iff]
    omega

end Protogen.Time.Moment
