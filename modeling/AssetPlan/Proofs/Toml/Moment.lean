import AssetPlan.Proofs.Text.Blank
import AssetPlan.Toml.Basic

/-! # Texts of date-times

A date-time is written as numbers with marks between them. A number ends where its digits do, and
the mark behind it tells which part of the date-time it belongs to: `-` in a date, `:` in a time of
day, `T` between the two, and a sign or `Z` in front of an offset. So a text is read back part by
part, and date-times with the same text are the same, as long as a second has less than a thousand
million nanoseconds.
-/

namespace AssetPlan.Toml

open Text

variable {w n n' : Nat} {digits digits' rest rest' : List Char}

/-- What stands behind a number does not start with another digit. -/
def EndsNumber (rest : List Char) : Prop := ∀ c ∈ rest.head?, c.isDigit = false

theorem endsNumber_cons {c : Char} (mark : c.isDigit = false) (rest : List Char) :
    EndsNumber (c :: rest) := by
  rintro _ ⟨⟩
  exact mark

theorem takeWhile_isDigit_append (decimal : ∀ c ∈ digits, c.isDigit = true)
    (ends : EndsNumber rest) : (digits ++ rest).takeWhile Char.isDigit = digits := by
  rw [List.takeWhile_append_of_pos decimal]
  cases rest with
  | nil => rw [List.takeWhile_nil, List.append_nil]
  | cons c rest =>
    have mark : ¬ c.isDigit = true := Bool.eq_false_iff.mp (ends c rfl)
    rw [List.takeWhile_cons_of_neg mark, List.append_nil]

/-- Digits are told from what stands behind them. -/
theorem digits_append_inj (decimal : ∀ c ∈ digits, c.isDigit = true)
    (decimal' : ∀ c ∈ digits', c.isDigit = true) (ends : EndsNumber rest)
    (ends' : EndsNumber rest') (same : digits ++ rest = digits' ++ rest') :
    digits = digits' ∧ rest = rest' := by
  have front : digits = digits' := by
    rw [← takeWhile_isDigit_append decimal ends, same, takeWhile_isDigit_append decimal' ends']
  subst front
  exact ⟨rfl, List.append_cancel_left same⟩

theorem toList_zeroPadded (w n : Nat) : (zeroPadded w n).toList =
    List.replicate (w - (Nat.toDigits 10 n).length) '0' ++ Nat.toDigits 10 n := by
  rw [zeroPadded, String.toList_append, String.toList_ofList, Nat.toString_eq_repr,
    Nat.toList_repr, ← String.length_toList, Nat.toList_repr]

theorem isDigit_of_mem_zeroPadded {c : Char} (member : c ∈ (zeroPadded w n).toList) :
    c.isDigit = true := by
  rw [toList_zeroPadded, List.mem_append] at member
  rcases member with zero | digit
  · rw [List.eq_of_mem_replicate zero]
    rfl
  · exact Nat.isDigit_of_mem_toDigits (by decide) (by decide) digit

/-- Zeros in front do not change what a number is read as. -/
theorem ofDigitChars_zeroPadded (w n : Nat) :
    Nat.ofDigitChars 10 (zeroPadded w n).toList 0 = n := by
  rw [toList_zeroPadded, Nat.ofDigitChars_append, Nat.ofDigitChars_replicate_zero, Nat.mul_zero,
    Nat.ofDigitChars_toDigits (by decide) (by decide)]

theorem zeroPadded_inj (same : (zeroPadded w n).toList = (zeroPadded w n').toList) : n = n' := by
  rw [← ofDigitChars_zeroPadded w n, same, ofDigitChars_zeroPadded]

theorem zeroPadded_append_inj (ends : EndsNumber rest) (ends' : EndsNumber rest')
    (same : (zeroPadded w n).toList ++ rest = (zeroPadded w n').toList ++ rest') :
    n = n' ∧ rest = rest' := by
  obtain ⟨number, behind⟩ := digits_append_inj (fun _ => isDigit_of_mem_zeroPadded)
    (fun _ => isDigit_of_mem_zeroPadded) ends ends' same
  exact ⟨zeroPadded_inj number, behind⟩

/-- A number starts with a digit. -/
theorem exists_zeroPadded_eq_cons (w n : Nat) :
    ∃ c digits, (zeroPadded w n).toList = c :: digits ∧ c.isDigit = true := by
  cases shape : (zeroPadded w n).toList with
  | nil =>
    rw [toList_zeroPadded, List.append_eq_nil_iff] at shape
    exact absurd shape.2 Nat.toDigits_ne_nil
  | cons c digits =>
    exact ⟨c, digits, rfl, isDigit_of_mem_zeroPadded (shape ▸ List.mem_cons_self)⟩

theorem length_zeroPadded (small : n < Nat.pow 10 w) (wide : 0 < w) :
    (zeroPadded w n).toList.length = w := by
  have short := (Nat.length_toDigits_le_iff (by decide) wide).mpr small
  rw [toList_zeroPadded, List.length_append, List.length_replicate, Nat.sub_add_cancel short]

theorem Date.toList_text (d : Date) : d.text.toList =
    (zeroPadded 4 d.year).toList ++ '-' :: ((zeroPadded 2 d.month).toList ++
      '-' :: (zeroPadded 2 d.day).toList) := by
  simp [Date.text, String.toList_append]

theorem Date.text_append_inj {d d' : Date} (ends : EndsNumber rest) (ends' : EndsNumber rest')
    (same : d.text.toList ++ rest = d'.text.toList ++ rest') : d = d' ∧ rest = rest' := by
  obtain ⟨year, month, day⟩ := d
  obtain ⟨year', month', day'⟩ := d'
  simp only [Date.toList_text, List.append_assoc, List.cons_append] at same
  have mark (after : List Char) : EndsNumber ('-' :: after) := endsNumber_cons rfl after
  obtain ⟨rfl, months⟩ := zeroPadded_append_inj (mark _) (mark _) same
  obtain ⟨rfl, days⟩ := zeroPadded_append_inj (mark _) (mark _) (List.cons.inj months).2
  obtain ⟨rfl, behind⟩ := zeroPadded_append_inj ends ends' (List.cons.inj days).2
  exact ⟨rfl, behind⟩

/-- The fraction of a second, with its point; a whole second has none. -/
def fractionChars (n : Nat) : List Char :=
  if n = 0 then [] else '.' :: dropTrailing (· == '0') (zeroPadded 9 n).toList

theorem Time.toList_text (t : Time) : t.text.toList =
    (zeroPadded 2 t.hour).toList ++ ':' :: ((zeroPadded 2 t.minute).toList ++
      ':' :: ((zeroPadded 2 t.second).toList ++ fractionChars t.nanosecond)) := by
  rw [Time.text, fractionChars, dropTrailing]
  split <;> simp [String.toList_append]

/-- The zeros at the end of nine digits can be put back. -/
theorem dropTrailing_zeroPadded_inj (small : n < 1000000000) (small' : n' < 1000000000)
    (same : dropTrailing (· == '0') (zeroPadded 9 n).toList =
      dropTrailing (· == '0') (zeroPadded 9 n').toList) : n = n' := by
  apply zeroPadded_inj (w := 9)
  rw [← dropTrailing_append_replicate '0' (zeroPadded 9 n).toList,
    ← dropTrailing_append_replicate '0' (zeroPadded 9 n').toList, same,
    length_zeroPadded (w := 9) small (by decide), length_zeroPadded (w := 9) small' (by decide)]

theorem fractionChars_append_inj (small : n < 1000000000) (small' : n' < 1000000000)
    (ends : EndsNumber rest) (ends' : EndsNumber rest') (other : rest.head? ≠ some '.')
    (other' : rest'.head? ≠ some '.')
    (same : fractionChars n ++ rest = fractionChars n' ++ rest') : n = n' ∧ rest = rest' := by
  have decimal (k : Nat) : ∀ c ∈ dropTrailing (· == '0') (zeroPadded 9 k).toList,
      c.isDigit = true := fun c member =>
    isDigit_of_mem_zeroPadded ((dropTrailing_prefix_self _ _).subset member)
  unfold fractionChars at same
  split_ifs at same with whole whole' whole'
  · exact ⟨whole.trans whole'.symm, same⟩
  · exact absurd (congrArg List.head? same) other
  · exact absurd (congrArg List.head? same).symm other'
  · obtain ⟨digits, behind⟩ :=
      digits_append_inj (decimal n) (decimal n') ends ends' (List.cons.inj same).2
    exact ⟨dropTrailing_zeroPadded_inj small small' digits, behind⟩

theorem endsNumber_fractionChars (n : Nat) (ends : EndsNumber rest) :
    EndsNumber (fractionChars n ++ rest) := by
  rw [fractionChars]
  split
  · exact ends
  · exact endsNumber_cons rfl _

/-- The fraction of the second has no more nanoseconds than fit. -/
def Time.InRange (t : Time) : Prop := t.nanosecond < 1000000000

theorem Time.text_append_inj {t t' : Time} (inRange : t.InRange) (inRange' : t'.InRange)
    (ends : EndsNumber rest) (ends' : EndsNumber rest') (other : rest.head? ≠ some '.')
    (other' : rest'.head? ≠ some '.')
    (same : t.text.toList ++ rest = t'.text.toList ++ rest') : t = t' ∧ rest = rest' := by
  obtain ⟨hour, minute, second, n⟩ := t
  obtain ⟨hour', minute', second', n'⟩ := t'
  simp only [Time.toList_text, List.append_assoc, List.cons_append] at same
  have mark (after : List Char) : EndsNumber (':' :: after) := endsNumber_cons rfl after
  obtain ⟨rfl, minutes⟩ := zeroPadded_append_inj (mark _) (mark _) same
  obtain ⟨rfl, seconds⟩ := zeroPadded_append_inj (mark _) (mark _) (List.cons.inj minutes).2
  obtain ⟨rfl, fractions⟩ := zeroPadded_append_inj (endsNumber_fractionChars n ends)
    (endsNumber_fractionChars n' ends') (List.cons.inj seconds).2
  obtain ⟨rfl, behind⟩ :=
    fractionChars_append_inj inRange inRange' ends ends' other other' fractions
  exact ⟨rfl, behind⟩

/-- The text of an offset, if there is one. -/
def offsetChars (o : Option Offset) : List Char := ((o.map Offset.text).getD "").toList

theorem offsetChars_minutes (n : Int) : offsetChars (some (.minutes n)) =
    (if n < 0 then '-' else '+') :: ((zeroPadded 2 (n.natAbs / 60)).toList ++
      ':' :: (zeroPadded 2 (n.natAbs % 60)).toList) := by
  simp only [offsetChars, Option.map_some, Option.getD_some, Offset.text, String.toList_append]
  split <;> simp

theorem mem_head?_offsetChars {o : Option Offset} {c : Char} (first : c ∈ (offsetChars o).head?) :
    c = 'Z' ∨ c = '-' ∨ c = '+' := by
  match o with
  | none => cases first
  | some .universal => cases first; exact .inl rfl
  | some (.minutes n) =>
    rw [offsetChars_minutes] at first
    obtain rfl := Option.some.inj first
    split
    · exact .inr (.inl rfl)
    · exact .inr (.inr rfl)

theorem endsNumber_offsetChars (o : Option Offset) : EndsNumber (offsetChars o) := by
  intro c first
  rcases mem_head?_offsetChars first with rfl | rfl | rfl <;> rfl

theorem head?_offsetChars_ne {o : Option Offset} {c : Char}
    (other : c ≠ 'Z' ∧ c ≠ '-' ∧ c ≠ '+') : (offsetChars o).head? ≠ some c := fun first => by
  rcases mem_head?_offsetChars first with rfl | rfl | rfl
  · exact other.1 rfl
  · exact other.2.1 rfl
  · exact other.2.2 rfl

/-- A number is told from an offset by its first character. -/
theorem zeroPadded_append_ne_offsetChars (w n : Nat) (after : List Char) (o : Option Offset) :
    (zeroPadded w n).toList ++ after ≠ offsetChars o := by
  obtain ⟨c, digits, number, digit⟩ := exists_zeroPadded_eq_cons w n
  intro same
  have first : c ∈ (offsetChars o).head? := by
    rw [← same, number]
    rfl
  cases digit.symm.trans (endsNumber_offsetChars o c first)

/-- The sign, the hours and the minutes make up the offset. -/
theorem minutes_inj {n n' : Int}
    (same : offsetChars (some (.minutes n)) = offsetChars (some (.minutes n'))) : n = n' := by
  rw [offsetChars_minutes, offsetChars_minutes, List.cons.injEq] at same
  obtain ⟨sign, numbers⟩ := same
  have mark (after : List Char) : EndsNumber (':' :: after) := endsNumber_cons rfl after
  obtain ⟨hours, minutes⟩ := zeroPadded_append_inj (mark _) (mark _) numbers
  have minutes := zeroPadded_inj (List.cons.inj minutes).2
  have signs : n < 0 ↔ n' < 0 := by
    split_ifs at sign with negative negative' negative'
    · exact iff_of_true negative negative'
    · cases sign
    · cases sign
    · exact iff_of_false negative negative'
  omega

theorem offsetChars_inj {o o' : Option Offset} (same : offsetChars o = offsetChars o') :
    o = o' := by
  match o, o' with
  | none, none => rfl
  | some .universal, some .universal => rfl
  | some (.minutes n), some (.minutes n') => rw [minutes_inj same]
  | none, some .universal | some .universal, none => cases same
  | none, some (.minutes n) | some .universal, some (.minutes n) =>
    rw [offsetChars_minutes] at same
    split at same <;> cases same
  | some (.minutes n), none | some (.minutes n), some .universal =>
    rw [offsetChars_minutes] at same
    split at same <;> cases same

/-- The time is in range, if there is one. -/
def Moment.InRange (m : Moment) : Prop := ∀ t ∈ m.time, t.InRange

/-- The text of a time, if there is one, and of an offset. -/
def clockChars (t : Option Time) (o : Option Offset) : List Char :=
  ((t.map Time.text).getD "").toList ++ offsetChars o

theorem clockChars_some (t : Time) (o : Option Offset) :
    clockChars (some t) o = t.text.toList ++ offsetChars o := rfl

theorem clockChars_none (o : Option Offset) : clockChars none o = offsetChars o := rfl

/-- A time starts with the digits of its hour, and a colon stands behind them. -/
theorem exists_clockChars_some (t : Time) (o : Option Offset) : ∃ after,
    clockChars (some t) o = (zeroPadded 2 t.hour).toList ++ ':' :: after := by
  rw [clockChars_some, Time.toList_text, List.append_assoc, List.cons_append]
  exact ⟨_, rfl⟩

theorem clockChars_some_ne (t : Time) (o o' : Option Offset) :
    clockChars (some t) o ≠ clockChars none o' := by
  obtain ⟨after, text⟩ := exists_clockChars_some t o
  rw [text, clockChars_none]
  exact zeroPadded_append_ne_offsetChars 2 t.hour _ o'

theorem clockChars_inj {t t' : Option Time} {o o' : Option Offset}
    (inRange : ∀ s ∈ t, s.InRange) (inRange' : ∀ s ∈ t', s.InRange)
    (same : clockChars t o = clockChars t' o') : t = t' ∧ o = o' := by
  cases t with
  | none =>
    cases t' with
    | none => exact ⟨rfl, offsetChars_inj same⟩
    | some t => exact absurd same.symm (clockChars_some_ne t o' o)
  | some t =>
    cases t' with
    | none => exact absurd same (clockChars_some_ne t o o')
    | some t' =>
      have ends := endsNumber_offsetChars o
      have ends' := endsNumber_offsetChars o'
      have noPoint {o : Option Offset} : (offsetChars o).head? ≠ some '.' :=
        head?_offsetChars_ne (by decide)
      obtain ⟨rfl, offsets⟩ :=
        Time.text_append_inj (inRange t rfl) (inRange' t' rfl) ends ends' noPoint noPoint same
      exact ⟨rfl, offsetChars_inj offsets⟩

/-- What stands behind a date: nothing or an offset, or the mark of a time, and the time. -/
def afterDate (t : Option Time) (o : Option Offset) : List Char :=
  if t.isSome then 'T' :: clockChars t o else clockChars t o

theorem Moment.toList_text (m : Moment) : m.text.toList =
    match m.date with
    | none => clockChars m.time m.offset
    | some d => d.text.toList ++ afterDate m.time m.offset := by
  obtain ⟨date, time, offset⟩ := m
  cases date <;> cases time <;>
    simp [Moment.text, clockChars, afterDate, offsetChars, String.toList_append]

theorem endsNumber_afterDate (t : Option Time) (o : Option Offset) :
    EndsNumber (afterDate t o) := by
  cases t with
  | none => exact endsNumber_offsetChars o
  | some t => exact endsNumber_cons rfl _

theorem afterDate_inj {t t' : Option Time} {o o' : Option Offset}
    (inRange : ∀ s ∈ t, s.InRange) (inRange' : ∀ s ∈ t', s.InRange)
    (same : afterDate t o = afterDate t' o') : t = t' ∧ o = o' := by
  have noMark {o : Option Offset} {after : List Char} : offsetChars o ≠ 'T' :: after :=
    fun same => head?_offsetChars_ne (o := o) (c := 'T') (by decide) (congrArg List.head? same)
  cases t with
  | none =>
    cases t' with
    | none => exact clockChars_inj inRange inRange' same
    | some _ => exact absurd same noMark
  | some _ =>
    cases t' with
    | none => exact absurd same.symm noMark
    | some _ => exact clockChars_inj inRange inRange' (List.cons.inj same).2

/-- A date is told from a time by the mark behind its first number. -/
theorem date_append_ne (d : Date) (after : List Char) (t : Option Time) (o : Option Offset) :
    d.text.toList ++ after ≠ clockChars t o := by
  rw [Date.toList_text, List.append_assoc, List.cons_append]
  cases t with
  | none =>
    rw [clockChars_none]
    exact zeroPadded_append_ne_offsetChars 4 d.year _ o
  | some t =>
    obtain ⟨behind, text⟩ := exists_clockChars_some t o
    rw [text]
    intro same
    have marks := (digits_append_inj (fun _ => isDigit_of_mem_zeroPadded)
      (fun _ => isDigit_of_mem_zeroPadded) (endsNumber_cons rfl _) (endsNumber_cons rfl _) same).2
    cases marks

/-- Date-times with the same text are the same. -/
theorem Moment.eq_of_text_eq {m n : Moment} (inRange : m.InRange) (inRange' : n.InRange)
    (same : m.text = n.text) : m = n := by
  obtain ⟨date, time, offset⟩ := m
  obtain ⟨date', time', offset'⟩ := n
  rw [← String.toList_inj, toList_text, toList_text] at same
  cases date with
  | none =>
    cases date' with
    | none =>
      obtain ⟨rfl, rfl⟩ := clockChars_inj inRange inRange' same
      rfl
    | some d => exact absurd same.symm (date_append_ne d _ _ _)
  | some d =>
    cases date' with
    | none => exact absurd same (date_append_ne d _ _ _)
    | some d' =>
      obtain ⟨rfl, behind⟩ :=
        Date.text_append_inj (endsNumber_afterDate _ _) (endsNumber_afterDate _ _) same
      obtain ⟨rfl, rfl⟩ := afterDate_inj inRange inRange' behind
      rfl

end AssetPlan.Toml
