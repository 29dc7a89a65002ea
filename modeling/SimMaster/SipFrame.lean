import SimMaster.Parse
import SimMaster.Framing

/-!
# SIP message framing

`complete_frame_len` finds the message at the front of a stream buffer: the header block ends at the
first CRLFCRLF, or, when there is none, at the first LFLF, and the Content-Length header in it says
how long the body is. The sum of the two is taken on `usize`; an overflow is an outcome of its own
here (`ArithmeticOverflow`), which stops a build with overflow checks and wraps in one without.

The boundary of a message is fixed once it is found only if it came from CRLFCRLF: a later CRLFCRLF
takes precedence over an LFLF before it. `completeFrameLen_framed_iff` is the exact condition on a
buffer, and `completeFrameLen_framing` adds what it gives for a whole stream.
-/

namespace SimMaster

open Rust List Option

/-- A sum that does not fit the machine word. -/
inductive ArithmeticOverflow where
  | usizeAdd
  deriving DecidableEq, Repr

/-- CR LF CR LF. -/
def crlfCrlf : Bytes := [0x0d, 0x0a, 0x0d, 0x0a]

/-- LF LF. -/
def lfLf : Bytes := [0x0a, 0x0a]

/-- Offset just past the end-of-headers terminator (CRLFCRLF, or LFLF), or `none`. -/
def findHeaderEnd (buf : Bytes) : Option ℕ :=
  ((findSub crlfCrlf buf).map (· + 4)).or ((findSub lfLf buf).map (· + 2))

/-- The Content-Length of a header block: the first line of that name whose value is a `usize`. -/
def contentLength (headers : Bytes) : Option ℕ :=
  (lines (fromUtf8Lossy headers)).findSome? fun line =>
    match splitOnce ':' line with
    | none => none
    | some (name, value) =>
      if eqIgnoreAsciiCase name "content-length".toList then parseUnsigned usizeMax (trim value)
      else none

/-- Exact length of the complete message at the front of `buf`; `none` means more bytes are
needed. -/
def completeFrameLen (buf : Bytes) : Except ArithmeticOverflow (Option ℕ) :=
  match findHeaderEnd buf with
  | none => .ok none
  | some headerEnd =>
    match contentLength (buf.take headerEnd) with
    | some len =>
      if usizeMax < headerEnd + len then .error .usizeAdd
      else if headerEnd + len ≤ buf.length then .ok (some (headerEnd + len))
      else .ok none
    | none => .ok (some headerEnd)

/-- Whether `buf` contains at least one complete message. -/
def isComplete (buf : Bytes) : Except ArithmeticOverflow Bool :=
  (completeFrameLen buf).map Option.isSome

/-! ## The end of the header block -/

variable {buf : Bytes} {headerEnd : ℕ}

theorem findHeaderEnd_bounds
    (h : findHeaderEnd buf = some headerEnd) : 0 < headerEnd ∧ headerEnd ≤ buf.length := by
  rw [findHeaderEnd, or_eq_some_iff] at h
  rcases h with h | ⟨-, h⟩
  · obtain ⟨i, hi, rfl⟩ := map_eq_some_iff.1 h
    exact ⟨Nat.succ_pos _, findSub_le hi⟩
  · obtain ⟨i, hi, rfl⟩ := map_eq_some_iff.1 h
    exact ⟨Nat.succ_pos _, findSub_le hi⟩

/-- After CRLFCRLF has arrived the end of the header block is fixed. -/
theorem findHeaderEnd_append (h : crlfCrlf <:+: buf) (ext : Bytes) :
    findHeaderEnd (buf ++ ext) = findHeaderEnd buf := by
  cases hi : findSub crlfCrlf buf with
  | none => exact absurd h ((findSub_eq_none_iff (by decide) buf).1 hi)
  | some i => simp [findHeaderEnd, hi, findSub_append hi ext]

/-- Before, a CRLFCRLF that arrives later moves it behind everything received so far. -/
theorem findHeaderEnd_append_crlfCrlf (h : ¬ crlfCrlf <:+: buf) :
    ∃ headerEnd, findHeaderEnd (buf ++ crlfCrlf) = some headerEnd ∧ buf.length < headerEnd := by
  have hnone := (findSub_eq_none_iff (by decide) buf).2 h
  cases hi : findSub crlfCrlf (buf ++ crlfCrlf) with
  | none =>
    exact absurd (suffix_append _ _).isInfix ((findSub_eq_none_iff (by decide) _).1 hi)
  | some i =>
    refine ⟨i + 4, by simp [findHeaderEnd, hi], ?_⟩
    exact lt_of_findSub_append (by decide) hnone hi

/-! ## One buffer -/

/-- What a reader of a stream needs at the buffer `buf`: no overflow, and a length that covers the
header block, lies in the buffer and stays the same however the buffer grows. -/
def Framed (buf : Bytes) : Prop :=
  (∃ r, completeFrameLen buf = .ok r) ∧
    ∀ n, completeFrameLen buf = .ok (some n) →
      (∃ headerEnd, findHeaderEnd buf = some headerEnd ∧ 0 < headerEnd ∧ headerEnd ≤ n ∧
        n ≤ buf.length) ∧
      ∀ ext, completeFrameLen (buf ++ ext) = .ok (some n)

/-- The header block, if it is complete, announces a body whose end is a `usize`, and either ends
with CRLFCRLF or its body has not arrived yet. -/
def FirmHeader (buf : Bytes) : Prop :=
  ∀ headerEnd, findHeaderEnd buf = some headerEnd →
    (∀ len, contentLength (buf.take headerEnd) = some len → headerEnd + len ≤ usizeMax) ∧
      (crlfCrlf <:+: buf ∨
        ∃ len, contentLength (buf.take headerEnd) = some len ∧ buf.length < headerEnd + len)

/-- Every outcome of `completeFrameLen` at a complete header block. -/
theorem completeFrameLen_cases (h : findHeaderEnd buf = some headerEnd) :
    (∃ len, contentLength (buf.take headerEnd) = some len ∧ usizeMax < headerEnd + len ∧
      completeFrameLen buf = .error .usizeAdd) ∨
    (∃ len, contentLength (buf.take headerEnd) = some len ∧ headerEnd + len ≤ usizeMax ∧
      buf.length < headerEnd + len ∧ completeFrameLen buf = .ok none) ∨
    ∃ n, completeFrameLen buf = .ok (some n) ∧ headerEnd ≤ n ∧ n ≤ buf.length ∧
      n = headerEnd + (contentLength (buf.take headerEnd)).getD 0 ∧
      ∀ len, contentLength (buf.take headerEnd) = some len → headerEnd + len ≤ usizeMax := by
  have hle := (findHeaderEnd_bounds h).2
  simp only [completeFrameLen, h]
  cases hlen : contentLength (buf.take headerEnd) with
  | none => simp [hle]
  | some len =>
    simp only [some.injEq, exists_eq_left', forall_eq', getD_some]
    split_ifs with hover hshort
    · exact Or.inl ⟨hover, rfl⟩
    · exact Or.inr (Or.inr ⟨_, rfl, by omega, hshort, rfl, by omega⟩)
    · exact Or.inr (Or.inl ⟨by omega, by omega, rfl⟩)

theorem completeFrameLen_append {n : ℕ} (hend : crlfCrlf <:+: buf)
    (h : completeFrameLen buf = .ok (some n)) (ext : Bytes) :
    completeFrameLen (buf ++ ext) = .ok (some n) := by
  cases hfind : findHeaderEnd buf with
  | none => simp [completeFrameLen, hfind] at h
  | some headerEnd =>
    have hle := (findHeaderEnd_bounds hfind).2
    have hfind' := (findHeaderEnd_append hend ext).trans hfind
    have htake : (buf ++ ext).take headerEnd = buf.take headerEnd :=
      take_append_of_le_length hle
    simp only [completeFrameLen, hfind] at h
    simp only [completeFrameLen, hfind', htake]
    cases hlen : contentLength (buf.take headerEnd) with
    | none => simpa [hlen] using h
    | some len =>
      simp only [hlen] at h ⊢
      split_ifs at h with hover hshort
      · rw [if_neg hover, if_pos (by rw [length_append]; omega)]
        exact h
      · cases h

/-- **One buffer.** The code frames a buffer as a stream reader needs it exactly if the header
block is firm. -/
theorem framed_iff (buf : Bytes) : Framed buf ↔ FirmHeader buf := by
  constructor
  · rintro ⟨⟨r, hr⟩, hframed⟩ headerEnd hfind
    rcases completeFrameLen_cases hfind with ⟨len, -, -, herr⟩ | ⟨len, hlen, hle, hlt, -⟩ |
      ⟨n, hn, -, hle, -, hfits⟩
    · rw [hr] at herr
      cases herr
    · refine ⟨fun len' hlen' => ?_, Or.inr ⟨len, hlen, hlt⟩⟩
      rw [hlen] at hlen'
      cases hlen'
      exact hle
    · refine ⟨hfits, Or.inl ?_⟩
      -- otherwise a CRLFCRLF moves the header end behind the message just found
      by_contra hno
      obtain ⟨headerEnd', hfind', hlt⟩ := findHeaderEnd_append_crlfCrlf hno
      have hn' := (hframed n hn).2 crlfCrlf
      rcases completeFrameLen_cases hfind' with ⟨_, -, -, h⟩ | ⟨_, -, -, -, h⟩ | ⟨m, h, hge, -⟩ <;>
        rw [hn'] at h <;> cases h
      exact absurd (hge.trans hle) (Nat.not_le.2 hlt)
  · intro hfirm
    cases hfind : findHeaderEnd buf with
    | none =>
      have hnone : completeFrameLen buf = .ok none := by simp [completeFrameLen, hfind]
      refine ⟨⟨none, hnone⟩, fun n hn => ?_⟩
      rw [hnone] at hn
      cases hn
    | some headerEnd =>
      obtain ⟨hfits, hend⟩ := hfirm headerEnd hfind
      rcases completeFrameLen_cases hfind with ⟨len, hlen, hover, -⟩ | ⟨len, -, -, -, hnone⟩ |
        ⟨n, hn, hge, hle, hsum, -⟩
      · exact absurd (hfits len hlen) (Nat.not_le.2 hover)
      · refine ⟨⟨none, hnone⟩, fun n hn => ?_⟩
        rw [hnone] at hn
        cases hn
      · refine ⟨⟨some n, hn⟩, fun m hm => ?_⟩
        rw [hn] at hm
        obtain rfl : n = m := by cases hm; rfl
        refine ⟨⟨headerEnd, hfind, (findHeaderEnd_bounds hfind).1, hge, hle⟩, ?_⟩
        have hcrlf : crlfCrlf <:+: buf := by
          rcases hend with hcrlf | ⟨len, hlen, hlt⟩
          · exact hcrlf
          · rw [hlen, getD_some] at hsum
            omega
        exact completeFrameLen_append hcrlf hn

theorem Framed.stable (h : Framed buf) : Framing.Stable completeFrameLen buf where
  isOk := h.1
  bounds n hn := by
    obtain ⟨⟨headerEnd, -, hpos, hge, hle⟩, -⟩ := h.2 n hn
    exact ⟨hpos.trans_le hge, hle⟩
  append n hn := (h.2 n hn).2

/-! ## Whole streams -/

/-- **Framing.** A buffer is framed soundly exactly if its header block is firm; and if this is so
of every buffer met on a stream, the messages drained from it are those of the whole stream, however
it is cut into reads, and nothing is lost. -/
theorem completeFrameLen_framing (buf : Bytes) (chunks : List Bytes) :
    (Framed buf ↔ FirmHeader buf) ∧
      ((∀ met, Framing.Met completeFrameLen chunks.flatten met → FirmHeader met) →
        Framing.receive completeFrameLen [] chunks = Framing.drain completeFrameLen chunks.flatten ∧
        ∃ frames rest, Framing.drain completeFrameLen chunks.flatten = .ok (frames, rest) ∧
          frames.flatten ++ rest = chunks.flatten) :=
  ⟨framed_iff buf, fun hfirm => Framing.receive_eq_drain
    (fun met hmet => ((framed_iff met).2 (hfirm met hmet)).stable) rfl⟩

/-- Two empty messages in one read or in three. -/
theorem completeFrameLen_framing_two_messages : Framing.receive completeFrameLen []
        [[0x0d, 0x0a], [0x0d, 0x0a, 0x0d], [0x0a, 0x0d, 0x0a]] =
      Framing.drain completeFrameLen (crlfCrlf ++ crlfCrlf) := by
  refine ((completeFrameLen_framing [] [[0x0d, 0x0a], [0x0d, 0x0a, 0x0d], [0x0a, 0x0d, 0x0a]]).2
    ?_).1
  -- the reader looks for a message at three places, and each header there is firm
  have hframe : ∀ rest ∈ [crlfCrlf ++ crlfCrlf, crlfCrlf, []], ∀ buf ∈ rest.inits,
      completeFrameLen buf = .ok none ∨ completeFrameLen buf = .ok (some 4) ∧
        rest.drop 4 ∈ [crlfCrlf ++ crlfCrlf, crlfCrlf, []] := by decide +kernel
  have hfirm : ∀ rest ∈ [crlfCrlf ++ crlfCrlf, crlfCrlf, []], ∀ buf ∈ rest.inits,
      findHeaderEnd buf = none ∨ findHeaderEnd buf = some 4 ∧
        contentLength (buf.take 4) = none ∧ crlfCrlf <:+: buf := by decide +kernel
  rintro buf ⟨rest, hb, hp⟩
  have hrest : rest ∈ [crlfCrlf ++ crlfCrlf, crlfCrlf, []] := by
    clear hp
    induction hb with
    | start => exact mem_cons_self
    | next _ hp' hn ih =>
      rcases hframe _ ih _ ((mem_inits _ _).2 hp') with hnone | ⟨hfour, hdrop⟩
      · rw [hnone] at hn
        cases hn
      · rw [hfour] at hn
        cases hn
        exact hdrop
  intro headerEnd hfind
  rcases hfirm rest hrest buf ((mem_inits _ _).2 hp) with hnone | ⟨hfour, hlen, hcrlf⟩
  · rw [hnone] at hfind
    cases hfind
  · rw [hfour] at hfind
    cases hfind
    refine ⟨fun len h => ?_, Or.inl hcrlf⟩
    rw [hlen] at h
    cases h

/-- `"A" LF LF` is a complete message of 3 octets until CR LF CR LF follows, and a Content-Length of
`usize::MAX` overflows. -/
theorem not_framed : ¬ (Framed [0x41, 0x0a, 0x0a] ∨ Framed
    ("Content-Length: 18446744073709551615\r\n\r\n".toList.map fun c => UInt8.ofNat c.toNat)) := by
  rintro (⟨-, h⟩ | ⟨⟨r, hr⟩, -⟩)
  · have hshort : completeFrameLen [0x41, 0x0a, 0x0a] = .ok (some 3) := by decide +kernel
    have hgrown : completeFrameLen [0x41, 0x0a, 0x0a, 0x0d, 0x0a, 0x0d, 0x0a] = .ok (some 7) := by
      decide +kernel
    have hstays := (h 3 hshort).2 crlfCrlf
    rw [crlfCrlf, cons_append, cons_append, cons_append, nil_append, hgrown] at hstays
    cases hstays
  · have herr : completeFrameLen ("Content-Length: 18446744073709551615\r\n\r\n".toList.map
        fun c => UInt8.ofNat c.toNat) = .error .usizeAdd := by decide +kernel
    rw [herr] at hr
    cases hr

end SimMaster
