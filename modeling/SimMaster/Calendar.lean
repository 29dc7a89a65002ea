import Mathlib

/-!
# Civil dates and times

Dates of the proleptic Gregorian calendar with a time of day, their number of seconds since 1970
and their text, `YYYY-MM-DDTHH:MM:SSZ`. Of two valid ones the earlier in year, month, day and time
of day has the smaller number (`seconds_lt`), and for years of four digits also the smaller text
(`text_lt_iff`), so texts may be compared in place of instants.
-/

namespace CivilTime

open List

/-- A date and a time of day. -/
structure Civil where
  year : ℤ
  month : ℕ
  day : ℕ
  hour : ℕ
  minute : ℕ
  second : ℕ
  deriving DecidableEq

def isLeap (year : ℤ) : Bool := year % 4 = 0 && (year % 100 ≠ 0 || year % 400 = 0)

def daysInMonth (leap : Bool) : ℕ → ℕ
  | 1 | 3 | 5 | 7 | 8 | 10 | 12 => 31
  | 4 | 6 | 9 | 11 => 30
  | 2 => if leap then 29 else 28
  | _ => 0

/-- The days of the months before a month. -/
def daysBeforeMonth (leap : Bool) (month : ℕ) : ℕ :=
  ((range month).map (daysInMonth leap)).sum

/-- The days from the first of January of the year 0. -/
def daysBeforeYear (year : ℤ) : ℤ :=
  365 * year + (year + 3) / 4 - (year + 99) / 100 + (year + 399) / 400

namespace Civil

structure Valid (c : Civil) : Prop where
  month : 1 ≤ c.month ∧ c.month ≤ 12
  day : 1 ≤ c.day ∧ c.day ≤ daysInMonth (isLeap c.year) c.month
  hour : c.hour < 24
  minute : c.minute < 60
  second : c.second < 60

/-- The day of the year, from 0. -/
def dayOfYear (c : Civil) : ℕ := daysBeforeMonth (isLeap c.year) c.month + (c.day - 1)

/-- The second of the day, from 0. -/
def secondOfDay (c : Civil) : ℕ := c.hour * 3600 + c.minute * 60 + c.second

/-- The seconds since the beginning of the year 1970. -/
def seconds (c : Civil) : ℤ :=
  (daysBeforeYear c.year - daysBeforeYear 1970 + c.dayOfYear) * 86400 + c.secondOfDay

/-- Earlier in year, month, day and time of day, in this order. -/
def Earlier (a b : Civil) : Prop :=
  a.year < b.year ∨ a.year = b.year ∧ (a.month < b.month ∨ a.month = b.month ∧
    (a.day < b.day ∨ a.day = b.day ∧ (a.hour < b.hour ∨ a.hour = b.hour ∧
      (a.minute < b.minute ∨ a.minute = b.minute ∧ a.second < b.second))))

theorem earlier_total (a b : Civil) : Earlier a b ∨ a = b ∨ Earlier b a := by
  obtain ⟨y, m, d, h, mi, s⟩ := a
  obtain ⟨y', m', d', h', mi', s'⟩ := b
  simp only [Earlier, Civil.mk.injEq]
  omega

end Civil

/-! ## Seconds -/

/-- A year ends before the next begins. -/
theorem daysBeforeYear_succ (year : ℤ) :
    daysBeforeYear (year + 1) = daysBeforeYear year + if isLeap year then 366 else 365 := by
  have hleap : isLeap year = true ↔ year % 4 = 0 ∧ (year % 100 ≠ 0 ∨ year % 400 = 0) := by
    simp [isLeap]
  rw [daysBeforeYear, daysBeforeYear]
  split
  · next h =>
    have := hleap.mp h
    omega
  · next h =>
    have := mt hleap.mpr h
    omega

theorem daysBeforeYear_mono {year later : ℤ} (h : year ≤ later) :
    daysBeforeYear year ≤ daysBeforeYear later := by
  rw [daysBeforeYear, daysBeforeYear]
  omega

theorem daysBeforeMonth_succ (leap : Bool) (month : ℕ) :
    daysBeforeMonth leap (month + 1) = daysBeforeMonth leap month + daysInMonth leap month := by
  rw [daysBeforeMonth, range_succ, map_append, sum_append, map_singleton, sum_singleton]
  rfl

theorem daysBeforeMonth_mono (leap : Bool) {month later : ℕ} (h : month ≤ later) :
    daysBeforeMonth leap month ≤ daysBeforeMonth leap later := by
  induction h with
  | refl => exact le_rfl
  | step _ ih =>
    rw [daysBeforeMonth_succ]
    omega

theorem daysBeforeMonth_year (leap : Bool) :
    daysBeforeMonth leap 13 = if leap then 366 else 365 := by
  cases leap <;> rfl

namespace Civil

variable {a b c : Civil}

theorem Valid.dayOfYear_lt (h : c.Valid) : daysBeforeYear c.year + c.dayOfYear <
    daysBeforeYear (c.year + 1) := by
  have hmonth := daysBeforeMonth_mono (isLeap c.year) (Nat.succ_le_succ h.month.2)
  rw [daysBeforeMonth_succ, daysBeforeMonth_year] at hmonth
  have hday := h.day
  rw [daysBeforeYear_succ, dayOfYear]
  cases hleap : isLeap c.year <;> rw [hleap] at hmonth hday <;>
    simp only [Bool.false_eq_true, if_false, if_true] at hmonth ⊢ <;> omega

theorem Valid.secondOfDay_lt (h : c.Valid) : c.secondOfDay < 86400 := by
  have hhour := h.hour
  have hminute := h.minute
  have hsecond := h.second
  rw [secondOfDay]
  omega

/-- An earlier day is over before a later one begins. -/
theorem seconds_lt_of_days (ha : a.Valid)
    (h : daysBeforeYear a.year + a.dayOfYear < daysBeforeYear b.year + b.dayOfYear) :
    a.seconds < b.seconds := by
  have hsecond := ha.secondOfDay_lt
  rw [seconds, seconds]
  omega

/-- **Seconds.** The earlier has the smaller number. -/
theorem seconds_lt (ha : a.Valid) (h : Earlier a b) : a.seconds < b.seconds := by
  rcases h with hyear | ⟨hyear, hmonth | ⟨hmonth, hday | ⟨hday, htime⟩⟩⟩
  · refine seconds_lt_of_days ha ?_
    have hlt := ha.dayOfYear_lt
    have hmono := daysBeforeYear_mono (Int.add_one_le_of_lt hyear)
    omega
  · refine seconds_lt_of_days ha ?_
    have hmono := daysBeforeMonth_mono (isLeap a.year) (Nat.succ_le_of_lt hmonth)
    rw [Nat.succ_eq_add_one, daysBeforeMonth_succ] at hmono
    have hday := ha.day
    rw [dayOfYear, dayOfYear, ← hyear]
    omega
  · refine seconds_lt_of_days ha ?_
    have hpos := ha.day.1
    rw [dayOfYear, dayOfYear, ← hyear, ← hmonth]
    omega
  · have hsame : b.dayOfYear = a.dayOfYear := by rw [dayOfYear, dayOfYear, hyear, hmonth, hday]
    have hminute := ha.minute
    have hsecond := ha.second
    have hless : a.secondOfDay < b.secondOfDay := by
      rw [secondOfDay, secondOfDay]
      omega
    rw [seconds, seconds, hyear, hsame]
    omega

theorem seconds_lt_iff (ha : a.Valid) (hb : b.Valid) : a.seconds < b.seconds ↔ Earlier a b := by
  refine ⟨fun h => ?_, seconds_lt ha⟩
  rcases earlier_total a b with hlt | rfl | hgt
  · exact hlt
  · exact absurd h (lt_irrefl _)
  · exact absurd h (lt_asymm (seconds_lt hb hgt))

end Civil

/-! ## Texts -/

/-- A decimal digit. -/
def digit (n : ℕ) : Char := Char.ofNat (48 + n)

/-- A number with so many digits, leading zeros included. -/
def pad : ℕ → ℕ → List Char
  | 0, _ => []
  | width + 1, n => digit (n / 10 ^ width) :: pad width (n % 10 ^ width)

variable {m n : ℕ}

theorem digit_lt (hn : n < 10) (h : m < n) : digit m < digit n := by
  have hall : ∀ n : Fin 10, ∀ m : Fin 10, m < n → digit m < digit n := by decide
  exact hall ⟨n, hn⟩ ⟨m, h.trans hn⟩ h

/-- The smaller number has the smaller text, whatever follows. -/
theorem pad_append_lt {width : ℕ} (hn : n < 10 ^ width) (h : m < n) (r s : List Char) :
    pad width m ++ r < pad width n ++ s := by
  induction width generalizing m n with
  | zero => omega
  | succ width ih =>
    have hpos : 0 < 10 ^ width := Nat.pow_pos (by decide)
    have hdigit : n / 10 ^ width < 10 := Nat.div_lt_of_lt_mul (by rwa [pow_succ] at hn)
    rw [pad, pad, cons_append, cons_append, cons_lt_cons_iff]
    rcases (Nat.div_le_div_right (c := 10 ^ width) h.le).lt_or_eq with hlt | heq
    · exact Or.inl (digit_lt hdigit hlt)
    · refine Or.inr ⟨by rw [heq], ih (Nat.mod_lt n hpos) ?_⟩
      have hm := Nat.div_add_mod m (10 ^ width)
      have hn := Nat.div_add_mod n (10 ^ width)
      rw [heq] at hm
      omega

/-- The same text and then a smaller one. -/
theorem append_lt_append (front : List Char) {r s : List Char} (h : r < s) :
    front ++ r < front ++ s := by
  induction front with
  | nil => exact h
  | cons c front ih =>
    rw [cons_append, cons_append, cons_lt_cons_iff]
    exact Or.inr ⟨rfl, ih⟩

namespace Civil

variable {a b c : Civil}

/-- The text of a date and a time of day. -/
def text (c : Civil) : List Char :=
  pad 4 c.year.toNat ++ '-' :: (pad 2 c.month ++ '-' :: (pad 2 c.day ++ 'T' ::
    (pad 2 c.hour ++ ':' :: (pad 2 c.minute ++ ':' :: (pad 2 c.second ++ ['Z'])))))

/-- The year has at most four digits. -/
def FourDigits (c : Civil) : Prop := 0 ≤ c.year ∧ c.year < 10000

theorem Valid.day_lt (h : c.Valid) : c.day < 32 := by
  have hall : ∀ leap : Bool, ∀ month : Fin 13, daysInMonth leap month < 32 := by decide
  have hmonth : c.month < 13 := Nat.lt_succ_of_le h.month.2
  exact h.day.2.trans_lt (hall (isLeap c.year) ⟨c.month, hmonth⟩)

theorem text_lt (hb : b.Valid) (hsmall : 0 ≤ a.year) (hfour : b.FourDigits) (h : Earlier a b) :
    a.text < b.text := by
  have hday := hb.day_lt
  obtain ⟨⟨hmonth1, hmonth2⟩, -, hhour, hminute, hsecond⟩ := hb
  obtain ⟨hfour1, hfour2⟩ := hfour
  have hcons : ∀ (c : Char) {r s : List Char}, r < s → c :: r < c :: s := fun c _ _ h =>
    append_lt_append [c] h
  rw [text, text]
  rcases h with h | ⟨h, h'⟩
  · exact pad_append_lt (by omega) (by omega) _ _
  rw [h]
  refine append_lt_append _ (hcons _ ?_)
  rcases h' with h | ⟨h, h'⟩
  · exact pad_append_lt (by omega) h _ _
  rw [h]
  refine append_lt_append _ (hcons _ ?_)
  rcases h' with h | ⟨h, h'⟩
  · exact pad_append_lt (by omega) h _ _
  rw [h]
  refine append_lt_append _ (hcons _ ?_)
  rcases h' with h | ⟨h, h'⟩
  · exact pad_append_lt (by omega) h _ _
  rw [h]
  refine append_lt_append _ (hcons _ ?_)
  rcases h' with h | ⟨h, h⟩
  · exact pad_append_lt (by omega) h _ _
  rename_i hsame
  rw [hsame]
  exact append_lt_append _ (hcons _ (pad_append_lt (by omega) h _ _))

/-- **Texts.** The texts of valid dates of four digits compare as the numbers of seconds do. -/
theorem text_lt_iff (ha : a.Valid) (hb : b.Valid) (hfa : a.FourDigits) (hfb : b.FourDigits) :
    a.text < b.text ↔ a.seconds < b.seconds := by
  rw [seconds_lt_iff ha hb]
  refine ⟨fun h => ?_, text_lt hb hfa.1 hfb⟩
  rcases earlier_total a b with hlt | rfl | hgt
  · exact hlt
  · exact absurd h (lt_irrefl _)
  · exact absurd h (lt_asymm (text_lt ha hfb.1 hfa hgt))

end Civil

end CivilTime
