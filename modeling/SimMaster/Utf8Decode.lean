import SimMaster.Utf8

/-!
# UTF-8 is decoded one to one

`as_bytes` writes back the octets that `from_utf8` reads (`asBytes_of_fromUtf8`): a character that
is decoded has no other octets than those it was read from (`utf8Octets_of_utf8Step`).
-/

namespace Rust

open List Option

variable {n : ℕ} {b : UInt8}

theorem octet_eq (h : n = b.toNat) : UInt8.ofNat n = b := by
  rw [h, UInt8.ofNat_toNat]

theorem isContinuation_bounds (h : isContinuation b = true) :
    0x80 ≤ b.toNat ∧ b.toNat ≤ 0xbf := (isContinuation_iff b).mp h

/-- The octets of a scalar value, by its range. -/
theorem utf8Octets_ofNat (h : n < 0xd800 ∨ 0xdfff < n ∧ n < 0x110000) : utf8Octets (Char.ofNat n) =
      if n < 0x80 then [UInt8.ofNat n]
      else if n < 0x800 then [UInt8.ofNat (0xc0 + n / 64), UInt8.ofNat (0x80 + n % 64)]
      else if n < 0x10000 then [UInt8.ofNat (0xe0 + n / 4096), UInt8.ofNat (0x80 + n / 64 % 64),
          UInt8.ofNat (0x80 + n % 64)] else
        [UInt8.ofNat (0xf0 + n / 262144), UInt8.ofNat (0x80 + n / 4096 % 64),
          UInt8.ofNat (0x80 + n / 64 % 64), UInt8.ofNat (0x80 + n % 64)] := by
  have hn : (Char.ofNat n).toNat = n := by
    rw [Char.toNat_ofNat, if_pos h]
  rw [utf8Octets, hn]

theorem utf8Octets_of_utf8Step {tail : Bytes} {c : Char} {used : ℕ}
    (h : utf8Step b tail = (some c, used)) :
    utf8Octets c = b :: tail.take used ∧ used ≤ tail.length := by
  have hnone : ∀ {k : ℕ}, ((none, k) : Option Char × ℕ) = (some c, used) → False :=
    fun heq => by cases (Prod.mk.inj heq).1
  rw [utf8Step.eq_def] at h
  split_ifs at h with h1 h2 h3 h4
  · obtain ⟨hc, rfl⟩ := Prod.mk.inj h
    obtain rfl := some.inj hc
    have hb : b.toNat < 0x80 := UInt8.lt_iff_toNat_lt.mp h1
    rw [utf8Octets_ofNat (Or.inl (by omega)), if_pos hb, UInt8.ofNat_toNat]
    exact ⟨rfl, Nat.zero_le _⟩
  · have hb : 0xc2 ≤ b.toNat ∧ b.toNat ≤ 0xdf :=
      ⟨UInt8.le_iff_toNat_le.mp h2.1, UInt8.le_iff_toNat_le.mp h2.2⟩
    rcases tail with _ | ⟨b1, tail⟩
    · exact absurd h hnone
    dsimp only at h
    split_ifs at h with hc1
    · obtain ⟨hc, rfl⟩ := Prod.mk.inj h
      obtain rfl := some.inj hc
      have hb1 := isContinuation_bounds hc1
      rw [continuationBits, utf8Octets_ofNat (Or.inl (by omega)), if_neg (by omega),
        if_pos (by omega), octet_eq (n := 0xc0 + _) (b := b) (by omega),
        octet_eq (b := b1) (by omega)]
      exact ⟨rfl, by simp⟩
    · exact absurd h hnone
  · have hb : 0xe0 ≤ b.toNat ∧ b.toNat ≤ 0xef :=
      ⟨UInt8.le_iff_toNat_le.mp h3.1, UInt8.le_iff_toNat_le.mp h3.2⟩
    rcases tail with _ | ⟨b1, tail⟩
    · exact absurd h hnone
    dsimp only at h
    split_ifs at h with hs1
    · rcases tail with _ | ⟨b2, tail⟩
      · exact absurd h hnone
      dsimp only at h
      split_ifs at h with hc2
      · obtain ⟨hc, rfl⟩ := Prod.mk.inj h
        obtain rfl := some.inj hc
        have hb2 := isContinuation_bounds hc2
        have hb1 := (isSecond_iff b b1).mp hs1
        have hb1' : 0x80 ≤ b1.toNat ∧ b1.toNat ≤ 0xbf ∧ (b.toNat = 0xe0 → 0xa0 ≤ b1.toNat) ∧
            (b.toNat = 0xed → b1.toNat ≤ 0x9f) := by
          split_ifs at hb1 <;> omega
        rw [continuationBits, continuationBits, utf8Octets_ofNat (by omega), if_neg (by omega),
          if_neg (by omega), if_pos (by omega), octet_eq (b := b) (by omega),
          octet_eq (b := b1) (by omega), octet_eq (b := b2) (by omega)]
        exact ⟨rfl, by simp⟩
      · exact absurd h hnone
    · exact absurd h hnone
  · have hb : 0xf0 ≤ b.toNat ∧ b.toNat ≤ 0xf4 :=
      ⟨UInt8.le_iff_toNat_le.mp h4.1, UInt8.le_iff_toNat_le.mp h4.2⟩
    rcases tail with _ | ⟨b1, tail⟩
    · exact absurd h hnone
    dsimp only at h
    split_ifs at h with hs1
    · rcases tail with _ | ⟨b2, tail⟩
      · exact absurd h hnone
      dsimp only at h
      split_ifs at h with hc2
      · rcases tail with _ | ⟨b3, tail⟩
        · exact absurd h hnone
        dsimp only at h
        split_ifs at h with hc3
        · obtain ⟨hc, rfl⟩ := Prod.mk.inj h
          obtain rfl := some.inj hc
          have hb2 := isContinuation_bounds hc2
          have hb3 := isContinuation_bounds hc3
          have hb1 := (isSecond_iff b b1).mp hs1
          have hb1' : 0x80 ≤ b1.toNat ∧ b1.toNat ≤ 0xbf ∧ (b.toNat = 0xf0 → 0x90 ≤ b1.toNat) ∧
              (b.toNat = 0xf4 → b1.toNat ≤ 0x8f) := by
            split_ifs at hb1 <;> omega
          rw [continuationBits, continuationBits, continuationBits, utf8Octets_ofNat (by omega),
            if_neg (by omega), if_neg (by omega), if_neg (by omega), octet_eq (b := b) (by omega),
            octet_eq (b := b1) (by omega), octet_eq (b := b2) (by omega),
            octet_eq (b := b3) (by omega)]
          exact ⟨rfl, by simp⟩
        · exact absurd h hnone
      · exact absurd h hnone
    · exact absurd h hnone
  · exact absurd h hnone

/-- **Decoding.** The octets that are decoded are those of the text. -/
theorem asBytes_of_fromUtf8 {data : Bytes} {s : Str} (h : fromUtf8 data = some s) :
    asBytes s = data := by
  rw [fromUtf8] at h
  induction hn : data.length using Nat.strong_induction_on generalizing data s with
  | _ n ih =>
    cases data with
    | nil =>
      obtain rfl : [] = s := some.inj h
      rfl
    | cons b tail =>
      rw [utf8Chars_cons, mapM_cons] at h
      obtain ⟨c, hc, h⟩ := bind_eq_some_iff.mp h
      obtain ⟨rest, hrest, h⟩ := bind_eq_some_iff.mp h
      obtain rfl : c :: rest = s := some.inj h
      have hstep : utf8Step b tail = (some c, (utf8Step b tail).2) := Prod.ext hc rfl
      obtain ⟨hoctets, hused⟩ := utf8Octets_of_utf8Step hstep
      have hless : (tail.drop (utf8Step b tail).2).length < n := by
        rw [← hn, length_cons, length_drop]
        omega
      rw [asBytes, flatMap_cons, hoctets, ← asBytes, ih _ hless hrest rfl, cons_append,
        take_append_drop]

end Rust
