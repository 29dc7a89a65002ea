import Mathlib

/-!
# Rust text and results

The part of Rust's standard library the modelled code leans on, as plain
functions over lists. A `&str` is a list of scalar values (`Str`), a `&[u8]` a
list of octets (`Bytes`), and a `Result` is an `Except`. Nothing here knows the
program: these are the operations every parser and builder below is written in,
together with the facts their proofs use.
-/

namespace Rust

open List

/-- `str` / `String`: a sequence of Unicode scalar values. -/
abbrev Str : Type := List Char

instance : LawfulBEq Str := inferInstance

/-- `[u8]` / `Vec<u8>`. -/
abbrev Bytes : Type := List UInt8

/-! ## Results -/

section Results

universe u v w

variable {ε : Type u} {α β : Type v}

variable {x : Except ε α}

/-- Inversion of `?`: a successful bind succeeded at both steps. -/
theorem bind_eq_ok {f : α → Except ε β} {r : β} :
    (x >>= f) = .ok r ↔ ∃ a, x = .ok a ∧ f a = .ok r := by
  cases x with
  | error e => simp [bind, Except.bind]
  | ok a => simp [bind, Except.bind]

@[simp] theorem ok_bind (a : α) (f : α → Except ε β) : ((.ok a : Except ε α) >>= f) = f a := rfl

theorem toOption_eq_some {a : α} : x.toOption = some a ↔ x = .ok a := by
  cases x with
  | error e => simp [Except.toOption]
  | ok b => simp [Except.toOption]

variable {ι : Type w}

/-- A collected loop that succeeded, succeeded on every element. -/
theorem forall₂_of_mapM_eq_ok {f : ι → Except ε β} :
    ∀ {xs : List ι} {ys : List β}, xs.mapM f = .ok ys →
      Forall₂ (fun x y => f x = .ok y) xs ys := by
  intro xs
  induction xs with
  | nil =>
    intro ys h
    rw [mapM_nil] at h
    obtain rfl : [] = ys := Except.ok.inj h
    exact Forall₂.nil
  | cons x rest ih =>
    intro ys h
    rw [mapM_cons] at h
    obtain ⟨y, hy, h⟩ := bind_eq_ok.mp h
    obtain ⟨ys', hys, h⟩ := bind_eq_ok.mp h
    obtain rfl : y :: ys' = ys := Except.ok.inj h
    exact Forall₂.cons hy (ih hys)

/-- A collected loop over options that holds at every element. -/
theorem mapM_eq_some_of_forall₂ {f : ι → Option β} :
    ∀ {xs : List ι} {ys : List β}, Forall₂ (fun x y => f x = some y) xs ys →
      xs.mapM f = some ys := by
  intro xs ys h
  induction h with
  | nil => rfl
  | cons hxy _ ih => simp [mapM_cons, hxy, ih]

/-- `u8::try_from`, with the error the caller maps it to. -/
def tryU8 (e : ε) (n : ℕ) : Except ε UInt8 :=
  if n < 256 then .ok (UInt8.ofNat n) else .error e

theorem tryU8_eq_ok {e : ε} {n : ℕ} {b : UInt8} (h : tryU8 e n = .ok b) :
    n < 256 ∧ b.toNat = n := by
  unfold tryU8 at h
  split at h
  · next hlt =>
    obtain rfl := Except.ok.inj h
    exact ⟨hlt, by simp [Nat.mod_eq_of_lt hlt]⟩
  · cases h

end Results

/-- `usize::div_ceil`. -/
def divCeil (a b : ℕ) : ℕ := (a + b - 1) / b

/-- `format!("{n:x}")`. -/
def hex (n : ℕ) : Str := Nat.toDigits 16 n

/-- `format!("{byte:02x}")` over a sequence of octets. -/
def hexLower (data : Bytes) : Str :=
  data.flatMap fun b => [Nat.digitChar (b.toNat / 16), Nat.digitChar (b.toNat % 16)]

/-! ## Trimming -/

/-- `char::is_whitespace`: the Unicode `White_Space` property. -/
def isWhitespace (c : Char) : Bool :=
  let n := c.toNat
  (0x09 ≤ n && n ≤ 0x0d) || n == 0x20 || n == 0x85 || n == 0xa0 || n == 0x1680 ||
    (0x2000 ≤ n && n ≤ 0x200a) || n == 0x2028 || n == 0x2029 || n == 0x202f ||
    n == 0x205f || n == 0x3000

/-- `str::trim_end_matches` over a character class. -/
def trimEndMatches (p : Char → Bool) (s : Str) : Str := s.rdropWhile p

/-- `str::trim_start`. -/
def trimStart (s : Str) : Str := s.dropWhile isWhitespace

/-- `str::trim_end`. -/
def trimEnd (s : Str) : Str := trimEndMatches isWhitespace s

/-- `str::trim`. -/
def trim (s : Str) : Str := trimEnd (trimStart s)

variable {s : Str}

theorem isWhitespace_head_trim (h : trim s ≠ []) : isWhitespace ((trim s).head h) = false := by
  obtain ⟨rest, hrest⟩ := rdropWhile_prefix isWhitespace (trimStart s)
  have hstart : trimStart s = trim s ++ rest := hrest.symm
  have hfirst := head?_dropWhile_not isWhitespace s
  rw [← trimStart, hstart, head?_append_of_ne_nil _ h, head?_eq_some_head h] at hfirst
  simpa using hfirst

theorem isWhitespace_getLast_trim (h : trim s ≠ []) :
    isWhitespace ((trim s).getLast h) = false := by
  exact Bool.eq_false_of_not_eq_true (rdropWhile_last_not isWhitespace (trimStart s) h)

/-- A text without white space at its ends is not changed. -/
theorem trim_of_ends (h : s ≠ []) (hhead : isWhitespace (s.head h) = false)
    (hlast : isWhitespace (s.getLast h) = false) : trim s = s := by
  have hstart : trimStart s = s := by
    cases s with
    | nil => rfl
    | cons c s => exact dropWhile_cons_of_neg (by simpa using hhead)
  rw [trim, hstart]
  exact rdropWhile_eq_self_iff.mpr fun _ => by simpa using hlast

theorem trim_of_all (h : ∀ c ∈ s, isWhitespace c = false) : trim s = s := by
  by_cases hne : s = []
  · rw [hne]
    rfl
  · exact trim_of_ends hne (h _ (head_mem hne)) (h _ (getLast_mem hne))

/-- What is trimmed is not changed by another trim. -/
theorem trim_trim (s : Str) : trim (trim s) = trim s := by
  by_cases hne : trim s = []
  · rw [hne]
    rfl
  · exact trim_of_ends hne (isWhitespace_head_trim hne) (isWhitespace_getLast_trim hne)

/-- `str::strip_prefix`. -/
def stripPrefix (front s : Str) : Option Str :=
  if front <+: s then some (s.drop front.length) else none

theorem head_stripPrefix {a : Char} {front s rest : Str}
    (h : stripPrefix (a :: front) s = some rest) : s.head? = some a := by
  rw [stripPrefix] at h
  split at h
  · next hprefix =>
    obtain ⟨more, rfl⟩ := hprefix
    rfl
  · cases h

/-! ## UTF-16 -/

/-- `char::len_utf16`. -/
def lenUtf16 (c : Char) : ℕ := if c.toNat < 0x10000 then 1 else 2

/-- `char::encode_utf16`: one unit in the basic plane, else a surrogate pair. -/
def utf16Units (c : Char) : List UInt16 :=
  if c.toNat < 0x10000 then [UInt16.ofNat c.toNat]
  else [UInt16.ofNat (0xd800 + (c.toNat - 0x10000) / 0x400),
    UInt16.ofNat (0xdc00 + (c.toNat - 0x10000) % 0x400)]

/-- `str::encode_utf16`. -/
def encodeUtf16 (s : Str) : List UInt16 := s.flatMap utf16Units

/-- `String::from_utf16`: refuses a surrogate without its partner. -/
def fromUtf16 : List UInt16 → Option Str
  | [] => some []
  | [u] =>
    if u.toNat < 0xd800 ∨ 0xe000 ≤ u.toNat then some [Char.ofNat u.toNat] else none
  | u :: v :: rest =>
    if u.toNat < 0xd800 ∨ 0xe000 ≤ u.toNat then
      (fromUtf16 (v :: rest)).map (Char.ofNat u.toNat :: ·)
    else if u.toNat < 0xdc00 ∧ 0xdc00 ≤ v.toNat ∧ v.toNat < 0xe000 then
      (fromUtf16 rest).map
        (Char.ofNat (0x10000 + (u.toNat - 0xd800) * 0x400 + (v.toNat - 0xdc00)) :: ·)
    else none

@[simp] theorem length_utf16Units (c : Char) : (utf16Units c).length = lenUtf16 c := by
  unfold utf16Units lenUtf16
  split <;> rfl

theorem length_encodeUtf16 (s : Str) : (encodeUtf16 s).length = (s.map lenUtf16).sum := by
  simp [encodeUtf16, length_flatMap]

/-- A scalar value is below the surrogates or above them. -/
theorem toNat_scalar (c : Char) : c.toNat < 0xd800 ∨ (0xe000 ≤ c.toNat ∧ c.toNat < 0x110000) := by
  have := c.valid
  simp only [UInt32.isValidChar, Nat.isValidChar] at this
  have hn : c.toNat = c.val.toNat := rfl
  omega

/-- Reading the units of one character and then the rest. -/
theorem fromUtf16_utf16Units (c : Char) (us : List UInt16) :
    fromUtf16 (utf16Units c ++ us) = (fromUtf16 us).map (c :: ·) := by
  have hc := toNat_scalar c
  unfold utf16Units
  split
  · next hlt =>
    have hn : (UInt16.ofNat c.toNat).toNat = c.toNat := by
      simp [Nat.mod_eq_of_lt hlt]
    have hs : c.toNat < 0xd800 ∨ 0xe000 ≤ c.toNat := by omega
    cases us with
    | nil =>
      simp only [append_nil, fromUtf16, Option.map_some, hn, Char.ofNat_toNat]
      exact if_pos hs
    | cons v rest => rw [singleton_append, fromUtf16, hn, if_pos hs, Char.ofNat_toNat]
  · next hge =>
    have hhi : (UInt16.ofNat (0xd800 + (c.toNat - 0x10000) / 0x400)).toNat =
        0xd800 + (c.toNat - 0x10000) / 0x400 := by
      rw [UInt16.toNat_ofNat']
      omega
    have hlo : (UInt16.ofNat (0xdc00 + (c.toNat - 0x10000) % 0x400)).toNat =
        0xdc00 + (c.toNat - 0x10000) % 0x400 := by
      rw [UInt16.toNat_ofNat']
      omega
    rw [cons_append, singleton_append, fromUtf16, hhi, hlo, if_neg (by omega), if_pos (by omega)]
    have hback : 0x10000 + (0xd800 + (c.toNat - 0x10000) / 0x400 - 0xd800) * 0x400 +
        (0xdc00 + (c.toNat - 0x10000) % 0x400 - 0xdc00) = c.toNat := by
      omega
    rw [hback, Char.ofNat_toNat]

/-- **UTF-16 round trip**: what `encode_utf16` writes, `from_utf16` reads back. -/
theorem fromUtf16_encodeUtf16 (s : Str) : fromUtf16 (encodeUtf16 s) = some s := by
  induction s with
  | nil => rfl
  | cons c rest ih =>
    have hsplit : encodeUtf16 (c :: rest) = utf16Units c ++ encodeUtf16 rest := by
      simp [encodeUtf16]
    rw [hsplit, fromUtf16_utf16Units, ih, Option.map_some]

/-- `u16::to_be_bytes` over a sequence of units. -/
def beBytes (us : List UInt16) : Bytes :=
  us.flatMap fun u => [UInt8.ofNat (u.toNat / 256), UInt8.ofNat (u.toNat % 256)]

/-- `chunks_exact(2)` read with `u16::from_be_bytes`; a trailing octet is left out. -/
def fromBeBytes : Bytes → List UInt16
  | hi :: lo :: rest => UInt16.ofNat (hi.toNat * 256 + lo.toNat) :: fromBeBytes rest
  | _ => []

theorem length_beBytes (us : List UInt16) : (beBytes us).length = 2 * us.length := by
  induction us with
  | nil => rfl
  | cons u rest ih =>
    simp only [beBytes, flatMap_cons, length_append, length_cons, length_nil] at ih ⊢
    omega

theorem fromBeBytes_beBytes (us : List UInt16) : fromBeBytes (beBytes us) = us := by
  induction us with
  | nil => rfl
  | cons u rest ih =>
    have hu : u.toNat < 65536 := u.toNat_lt
    have hback : UInt16.ofNat
        ((UInt8.ofNat (u.toNat / 256)).toNat * 256 + (UInt8.ofNat (u.toNat % 256)).toNat) = u := by
      rw [UInt8.toNat_ofNat', UInt8.toNat_ofNat']
      apply UInt16.toNat.inj
      rw [UInt16.toNat_ofNat']
      omega
    have hcons : beBytes (u :: rest) =
        UInt8.ofNat (u.toNat / 256) :: UInt8.ofNat (u.toNat % 256) :: beBytes rest := rfl
    rw [hcons, fromBeBytes, ih, hback]

end Rust
