import SimMaster.Parse

/-!
# UTF-8 round trips

`from_utf8` and its lossy form read back what `as_bytes` writes. A character is one to four
octets. The decoder takes exactly those octets off the front, by the range its scalar value is in
(`utf8Step_utf8Octets`), and so a text is decoded character by character. In octets that need not be
UTF-8, an octet below 0x80 is never part of a longer sequence, valid or not: what is before it and
what is after it are decoded apart (`utf8Chars_append_ascii`).
-/

namespace Rust

open List

variable {b : UInt8} (tail : Bytes)

theorem utf8Step_one (h : b.toNat < 0x80) : utf8Step b tail = (some (Char.ofNat b.toNat), 0) := by
  rw [utf8Step.eq_def, if_pos (UInt8.lt_iff_toNat_lt.mpr h)]

theorem isContinuation_iff (b : UInt8) : isContinuation b = true ↔ 0x80 ≤ b.toNat ∧
    b.toNat ≤ 0xbf := by
  simp [isContinuation, UInt8.le_iff_toNat_le]

variable {b1 : UInt8}

theorem utf8Step_two (hb : 0xc2 ≤ b.toNat ∧ b.toNat ≤ 0xdf) (h1 : isContinuation b1 = true) :
    utf8Step b (b1 :: tail) = (some (Char.ofNat (b.toNat % 32 * 64 + continuationBits b1)), 1) := by
  have hnot : ¬ b < 0x80 := by simp [UInt8.lt_iff_toNat_lt]; omega
  have hlead : 0xc2 ≤ b ∧ b ≤ 0xdf := by simpa [UInt8.le_iff_toNat_le] using hb
  simp only [utf8Step, if_neg hnot, if_pos hlead, h1, if_true]

variable {b2 : UInt8}

theorem utf8Step_three (hb : 0xe0 ≤ b.toNat ∧ b.toNat ≤ 0xef)
    (h1 : isSecond b b1 = true) (h2 : isContinuation b2 = true) :
    utf8Step b (b1 :: b2 :: tail) = (some (Char.ofNat ((b.toNat % 16 * 64 + continuationBits b1) *
      64 + continuationBits b2)), 2) := by
  have hnot : ¬ b < 0x80 := by simp [UInt8.lt_iff_toNat_lt]; omega
  have htwo : ¬ (0xc2 ≤ b ∧ b ≤ 0xdf) := by simp [UInt8.le_iff_toNat_le]; omega
  have hlead : 0xe0 ≤ b ∧ b ≤ 0xef := by simpa [UInt8.le_iff_toNat_le] using hb
  simp only [utf8Step, if_neg hnot, if_neg htwo, if_pos hlead, h1, h2, if_true]

theorem utf8Step_four {b3 : UInt8} (hb : 0xf0 ≤ b.toNat ∧ b.toNat ≤ 0xf4)
    (h1 : isSecond b b1 = true) (h2 : isContinuation b2 = true) (h3 : isContinuation b3 = true) :
    utf8Step b (b1 :: b2 :: b3 :: tail) =
      (some (Char.ofNat (((b.toNat % 8 * 64 + continuationBits b1) * 64 +
        continuationBits b2) * 64 + continuationBits b3)), 3) := by
  have hnot : ¬ b < 0x80 := by simp [UInt8.lt_iff_toNat_lt]; omega
  have htwo : ¬ (0xc2 ≤ b ∧ b ≤ 0xdf) := by simp [UInt8.le_iff_toNat_le]; omega
  have hthree : ¬ (0xe0 ≤ b ∧ b ≤ 0xef) := by simp [UInt8.le_iff_toNat_le]; omega
  have hlead : 0xf0 ≤ b ∧ b ≤ 0xf4 := by simpa [UInt8.le_iff_toNat_le] using hb
  simp only [utf8Step, if_neg hnot, if_neg htwo, if_neg hthree, if_pos hlead, h1, h2, h3, if_true]

theorem isSecond_iff (lead second : UInt8) : isSecond lead second = true ↔
    (if lead.toNat = 0xe0 then 0xa0 ≤ second.toNat ∧ second.toNat ≤ 0xbf
    else if lead.toNat = 0xed then 0x80 ≤ second.toNat ∧ second.toNat ≤ 0x9f
    else if lead.toNat = 0xf0 then 0x90 ≤ second.toNat ∧ second.toNat ≤ 0xbf
    else if lead.toNat = 0xf4 then 0x80 ≤ second.toNat ∧ second.toNat ≤ 0x8f
    else 0x80 ≤ second.toNat ∧ second.toNat ≤ 0xbf) := by
  simp only [isSecond, UInt8.le_iff_toNat_le, ← UInt8.toNat_inj, isContinuation]
  split_ifs <;> simp_all

/-- Decoding takes the octets of a character off the front. -/
theorem utf8Step_utf8Octets (c : Char) : ∃ b tail, utf8Octets c = b :: tail ∧
    ∀ data, utf8Step b (tail ++ data) = (some c, tail.length) := by
  have hc : Char.ofNat c.toNat = c := Char.ofNat_toNat c
  have hscalar : c.toNat < 0xd800 ∨ 0xdfff < c.toNat ∧ c.toNat < 0x110000 := c.valid
  rw [utf8Octets]
  generalize c.toNat = n at hc hscalar
  have hnat : ∀ x < 256, (UInt8.ofNat x).toNat = x := fun x hx => UInt8.toNat_ofNat_of_lt hx
  split_ifs with h1 h2 h3
  · refine ⟨_, [], rfl, fun data => ?_⟩
    rw [utf8Step_one _ (by rw [hnat] <;> omega), hnat n (by omega), hc]
    rfl
  · refine ⟨_, [_], rfl, fun data => ?_⟩
    have hb := hnat (0xc0 + n / 64) (by omega)
    have hb1 := hnat (0x80 + n % 64) (by omega)
    rw [singleton_append, utf8Step_two _ (by rw [hb]; omega)
      (by rw [isContinuation_iff, hb1]; omega), continuationBits, hb, hb1]
    have hvalue : (0xc0 + n / 64) % 32 * 64 + (0x80 + n % 64) % 64 = n := by omega
    rw [hvalue, hc]
    rfl
  · refine ⟨_, [_, _], rfl, fun data => ?_⟩
    have hb := hnat (0xe0 + n / 4096) (by omega)
    have hb1 := hnat (0x80 + n / 64 % 64) (by omega)
    have hb2 := hnat (0x80 + n % 64) (by omega)
    rw [cons_append, singleton_append, utf8Step_three _ (by rw [hb]; omega)
      (by rw [isSecond_iff, hb, hb1]; split_ifs <;> omega)
      (by rw [isContinuation_iff, hb2]; omega), continuationBits, continuationBits, hb, hb1, hb2]
    have hvalue : ((0xe0 + n / 4096) % 16 * 64 + (0x80 + n / 64 % 64) % 64) * 64 +
        (0x80 + n % 64) % 64 = n := by omega
    rw [hvalue, hc]
    rfl
  · refine ⟨_, [_, _, _], rfl, fun data => ?_⟩
    have hb := hnat (0xf0 + n / 262144) (by omega)
    have hb1 := hnat (0x80 + n / 4096 % 64) (by omega)
    have hb2 := hnat (0x80 + n / 64 % 64) (by omega)
    have hb3 := hnat (0x80 + n % 64) (by omega)
    rw [cons_append, cons_append, singleton_append, utf8Step_four _
      (by rw [hb]; omega) (by rw [isSecond_iff, hb, hb1]; split_ifs <;> omega)
      (by rw [isContinuation_iff, hb2]; omega) (by rw [isContinuation_iff, hb3]; omega),
      continuationBits, continuationBits, continuationBits, hb, hb1, hb2, hb3]
    have hvalue : (((0xf0 + n / 262144) % 8 * 64 + (0x80 + n / 4096 % 64) % 64) * 64 +
        (0x80 + n / 64 % 64) % 64) * 64 + (0x80 + n % 64) % 64 = n := by omega
    rw [hvalue, hc]
    rfl

theorem utf8Chars_go_congr (fuel : ℕ) : ∀ (fuel' : ℕ) (data : Bytes), data.length ≤ fuel →
    data.length ≤ fuel' → utf8Chars.go fuel data = utf8Chars.go fuel' data := by
  induction fuel with
  | zero =>
    intro fuel' data h _
    rw [length_eq_zero_iff.mp (Nat.le_zero.mp h)]
    cases fuel' <;> rfl
  | succ fuel ih =>
    intro fuel' data h h'
    cases data with
    | nil => cases fuel' <;> rfl
    | cons b tail =>
      cases fuel' with
      | zero => exact absurd h' (Nat.not_succ_le_zero _)
      | succ fuel' =>
        rw [utf8Chars.go, utf8Chars.go]
        rw [length_cons] at h h'
        generalize utf8Step b tail = decoded
        obtain ⟨c, used⟩ := decoded
        have hrest : (tail.drop used).length ≤ tail.length := by simp
        exact congrArg (c :: ·) (ih fuel' (tail.drop used) (by omega) (by omega))

/-- The characters of a text are decoded one by one. -/
theorem utf8Chars_append (c : Char) (data : Bytes) :
    utf8Chars (utf8Octets c ++ data) = some c :: utf8Chars data := by
  obtain ⟨b, tail, hoctets, hstep⟩ := utf8Step_utf8Octets c
  rw [hoctets, utf8Chars, cons_append, length_cons, utf8Chars.go, hstep]
  dsimp only
  rw [drop_left, utf8Chars, utf8Chars_go_congr _ data.length data (by simp) le_rfl]

theorem utf8Chars_asBytes (s : Str) : utf8Chars (asBytes s) = s.map some := by
  induction s with
  | nil => rfl
  | cons c s ih => rw [asBytes, flatMap_cons, utf8Chars_append, map_cons, ← ih, asBytes]

/-- `from_utf8` reads back what `as_bytes` writes. -/
theorem fromUtf8_asBytes (s : Str) : fromUtf8 (asBytes s) = some s := by
  rw [fromUtf8, utf8Chars_asBytes]
  induction s with
  | nil => rfl
  | cons c s ih => simp [mapM_cons, ih]

theorem fromUtf8Lossy_asBytes (s : Str) : fromUtf8Lossy (asBytes s) = s := by
  rw [fromUtf8Lossy, utf8Chars_asBytes, map_map]
  exact map_id s

/-! ## ASCII octets -/

variable {c : UInt8}

theorem isContinuation_ascii (hc : c.toNat < 0x80) : isContinuation c = false := by
  rw [← Bool.not_eq_true, isContinuation_iff]
  omega

theorem isSecond_ascii (lead : UInt8) (hc : c.toNat < 0x80) : isSecond lead c = false := by
  rw [← Bool.not_eq_true, isSecond_iff]
  split_ifs <;> omega

theorem utf8Step_used_le (b : UInt8) (tail : Bytes) : (utf8Step b tail).2 ≤ tail.length := by
  rw [utf8Step.eq_def]
  split_ifs
  case pos => exact Nat.zero_le _
  case neg => exact Nat.zero_le _
  all_goals repeat' split
  all_goals simp

/-- An octet below 0x80 ends a sequence as the end of the input does. -/
theorem utf8Step_append_ascii (b : UInt8) (tail : Bytes) (hc : c.toNat < 0x80)
    (rest : Bytes) : utf8Step b (tail ++ c :: rest) = utf8Step b tail := by
  have hcont := isContinuation_ascii hc
  have hsecond : ∀ lead, isSecond lead c = false := fun lead => isSecond_ascii lead hc
  rw [utf8Step.eq_def, utf8Step.eq_def]
  split_ifs
  case pos => rfl
  case neg => rfl
  all_goals
    rcases tail with _ | ⟨b1, _ | ⟨b2, _ | ⟨b3, tail⟩⟩⟩
  all_goals simp [hcont, hsecond]

theorem utf8Chars_cons (b : UInt8) (tail : Bytes) : utf8Chars (b :: tail) =
    (utf8Step b tail).1 :: utf8Chars (tail.drop (utf8Step b tail).2) := by
  rw [utf8Chars, length_cons, utf8Chars.go, utf8Chars]
  exact congrArg _ (utf8Chars_go_congr _ _ _ (by simp) le_rfl)

/-- Octets on both sides of an octet below 0x80 are decoded apart. -/
theorem utf8Chars_append_ascii (data : Bytes) (hc : c.toNat < 0x80) (rest : Bytes) :
    utf8Chars (data ++ c :: rest) =
      utf8Chars data ++ some (Char.ofNat c.toNat) :: utf8Chars rest := by
  induction hn : data.length using Nat.strong_induction_on generalizing data with
  | _ n ih =>
    cases data with
    | nil =>
      rw [nil_append, utf8Chars_cons, utf8Step_one _ hc]
      rfl
    | cons b tail =>
      have hused := utf8Step_used_le b tail
      have hless : (tail.drop (utf8Step b tail).2).length < n := by
        rw [← hn, length_cons, length_drop]
        omega
      rw [cons_append, utf8Chars_cons, utf8Step_append_ascii b tail hc, utf8Chars_cons,
        drop_append_of_le_length hused, ih _ hless _ rfl]
      rfl

theorem fromUtf8Lossy_append_ascii (data : Bytes) (hc : c.toNat < 0x80)
    (rest : Bytes) : fromUtf8Lossy (data ++ c :: rest) =
      fromUtf8Lossy data ++ Char.ofNat c.toNat :: fromUtf8Lossy rest := by
  rw [fromUtf8Lossy, utf8Chars_append_ascii data hc rest, map_append]
  rfl

variable {c : Char}

/-- A sequence of several octets is not a character below 0x80. -/
theorem utf8Step_ascii {tail : Bytes}
    (h : (utf8Step b tail).1 = some c) (hpos : c.toNat ≠ 0) (hc : c.toNat < 0x80) :
    b.toNat = c.toNat := by
  have hvalue : ∀ n, some (Char.ofNat n) = some c → n = c.toNat := by
    intro n hn
    rw [Option.some.injEq] at hn
    by_cases hvalid : n.isValidChar
    · rw [← hn, Char.toNat_ofNat, if_pos hvalid]
    · rw [← hn, Char.toNat_ofNat, if_neg hvalid] at hpos
      exact absurd rfl hpos
  rw [utf8Step.eq_def] at h
  split_ifs at h with hone htwo hthree hfour
  · exact hvalue _ h
  · repeat' split at h
    case isTrue b1 _ hb1 =>
      have hn := hvalue _ h
      have hlead : 0xc2 ≤ b.toNat ∧ b.toNat ≤ 0xdf := by
        simpa [UInt8.le_iff_toNat_le] using htwo
      omega
    all_goals cases h
  · repeat' split at h
    case isTrue b1 hb1 _ b2 _ hb2 =>
      have hn := hvalue _ h
      have hlead : 0xe0 ≤ b.toNat ∧ b.toNat ≤ 0xef := by
        simpa [UInt8.le_iff_toNat_le] using hthree
      have hsecond := (isSecond_iff b b1).mp hb1
      rw [continuationBits] at hn
      split_ifs at hsecond <;> omega
    all_goals cases h
  · repeat' split at h
    case isTrue b1 hb1 _ b2 hb2 _ b3 _ hb3 =>
      have hn := hvalue _ h
      have hlead : 0xf0 ≤ b.toNat ∧ b.toNat ≤ 0xf4 := by
        simpa [UInt8.le_iff_toNat_le] using hfour
      have hsecond := (isSecond_iff b b1).mp hb1
      rw [continuationBits] at hn
      split_ifs at hsecond <;> omega
    all_goals cases h

/-- A character below 0x80 that is not among the octets is not in their text. -/
theorem notMem_fromUtf8Lossy {data : Bytes} (hpos : c.toNat ≠ 0)
    (hc : c.toNat < 0x80) (h : UInt8.ofNat c.toNat ∉ data) : c ∉ fromUtf8Lossy data := by
  induction hn : data.length using Nat.strong_induction_on generalizing data with
  | _ n ih =>
    cases data with
    | nil => exact not_mem_nil
    | cons b tail =>
      rw [mem_cons, not_or] at h
      have hless : (tail.drop (utf8Step b tail).2).length < n := by
        rw [← hn, length_cons, length_drop]
        omega
      have hrest : c ∉ fromUtf8Lossy (tail.drop (utf8Step b tail).2) :=
        ih _ hless (fun hmem => h.2 (mem_of_mem_drop hmem)) rfl
      rw [fromUtf8Lossy, utf8Chars_cons, map_cons, mem_cons, not_or]
      refine ⟨fun heq => ?_, hrest⟩
      cases hstep : (utf8Step b tail).1 with
      | none =>
        rw [hstep, Option.getD_none] at heq
        rw [heq] at hc
        exact absurd hc (by decide)
      | some d =>
        rw [hstep, Option.getD_some] at heq
        rw [← heq] at hstep
        have hb := utf8Step_ascii hstep hpos hc
        exact h.1 (by rw [← hb, UInt8.ofNat_toNat])

end Rust
