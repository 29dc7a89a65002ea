import SimMaster.ResponseRoutes
import SimMaster.Segmentation
import SimMaster.SipText

/-!
# SIP over a stream

What arrives over TCP or TLS is cut into SIP messages and the line breaks that keep the connection
alive: CRLFCRLF is a ping, a lone CRLF a pong. A message ends where its Content-Length says.

The header block of a message may be `MAX_HEADER` octets long. While its end has not arrived, the
code compares this limit with all that has arrived, and that may be the header block and up to
three octets of its end. So a header block of the last three lengths is refused when the input is
cut inside its end, and taken when it is not (`segmented_iff`).
-/

namespace SimMaster.SipStream

open Rust List Option

def MAX_FRAME : ℕ := 1048576
def MAX_HEADER : ℕ := 16384

/-- CR LF. -/
def crlfOctets : Bytes := [0x0d, 0x0a]

inductive StreamFrame where
  | sip (frame : Bytes)
  | ping
  | pong
  deriving DecidableEq, Repr

/-! ## One message -/

def isControlByte (c : Char) : Bool := c.toNat < 32 || c.toNat = 127

/-- A status line with a status of three digits, or a request line of three parts. -/
def startLineValid (start : Str) : Bool :=
  !start.any isControlByte &&
    match start.dropPrefix? "SIP/2.0 ".toList with
    | some response =>
      match splitOnce ' ' response with
      | some (status, _) =>
        utf8Len status = 3 && status.all isAsciiDigit &&
          (parseUnsigned u16Max status).any fun status => 100 ≤ status && status ≤ 699
      | none => false
    | none =>
      match splitBy (· = ' ') start with
      | [method, uri, version] => token method && !uri.isEmpty && version = "SIP/2.0".toList
      | _ => false

/-- At most 128 lines without control characters, each a field with a token for its name or the
continuation of one. -/
def headerLinesValid : ℕ → Bool → List Str → Bool
  | _, _, [] => true
  | count, hadHeader, line :: rest =>
    if 128 ≤ count || line.any fun c => (c.toNat < 32 && c != '\t') || c.toNat = 127 then false
    else if isFolded line then hadHeader && headerLinesValid (count + 1) hadHeader rest
    else
      match splitOnce ':' line with
      | none => false
      | some (name, _) =>
        token (trimEndMatches (fun c => c = ' ' || c = '\t') name) &&
          headerLinesValid (count + 1) true rest

/-- The values of the Content-Length fields, in either form of the name. -/
def lengthValues (frame : Bytes) : List Str :=
  headerValues frame "Content-Length".toList ++ headerValues frame "l".toList

/-- The length of the message at the front of the buffer, whose header block ends at
`headerEnd`. -/
def messageSize (buffer : Bytes) (headerEnd : ℕ) : Option ℕ :=
  match fromUtf8 (buffer.take headerEnd) with
  | none => none
  | some header =>
    match splitCrlf header with
    | [] => none
    | start :: lines =>
      if !startLineValid start || !headerLinesValid 0 false lines then none
      else
        match lengthValues buffer with
        | [length] =>
          let length := trim length
          if length.isEmpty || !length.all isAsciiDigit then none
          else
            ((parseUnsigned usizeMax length).map fun body => headerEnd + 4 + body).filter
              fun size => size ≤ usizeMax && size ≤ MAX_FRAME
        | _ => none

/-- `take_frame`: the frame at the front of the buffer and how many octets it takes off. -/
def takeFrame (expectPong : Bool) (buffer : Bytes) : Except ImsError (Option (StreamFrame × ℕ)) :=
  if crlfCrlf <+: buffer then .ok (some (.ping, 4))
  else if crlfOctets <+: buffer then
    -- the first half of a ping is not consumed
    if buffer.length = 2 ∧ !expectPong ∨ buffer.length = 3 ∧ buffer[2]? = some 0x0d then .ok none
    else .ok (some (.pong, 2))
  else if buffer = [0x0d] then .ok none
  else
    match findSub crlfCrlf buffer with
    | none =>
      if MAX_HEADER < buffer.length then .error CHANNEL_STREAM_FRAME_INVALID else .ok none
    | some headerEnd =>
      if MAX_HEADER < headerEnd then .error CHANNEL_STREAM_FRAME_INVALID
      else
        match messageSize buffer headerEnd with
        | none => .error CHANNEL_STREAM_FRAME_INVALID
        | some size =>
          if buffer.length < size then .ok none else .ok (some (.sip (buffer.take size), size))

/-! ## Growing buffers -/

section Growing

variable {buf rest ext : Bytes} {headerEnd n : ℕ} {frame : StreamFrame}

section

variable (h : findSub crlfCrlf buf = some headerEnd)
include h

theorem findHeaderEnd_of_findSub : findHeaderEnd buf = some (headerEnd + 4) := by
  rw [findHeaderEnd, h]
  rfl

/-- The header lines of a buffer stay the same when the buffer grows. -/
theorem headerLines_append (ext : Bytes) : headerLines (buf ++ ext) = headerLines buf := by
  have hle : headerEnd + 4 ≤ buf.length := findSub_le h
  rw [headerLines, headerLines, findHeaderEnd_of_findSub h,
    findHeaderEnd_of_findSub (findSub_append h ext)]
  dsimp only
  rw [take_append_of_le_length hle]

theorem lengthValues_append (ext : Bytes) : lengthValues (buf ++ ext) = lengthValues buf := by
  rw [lengthValues, lengthValues, headerValues, headerValues, headerLines_append h, headerValues,
    headerValues]

/-- So does the length of the message. -/
theorem messageSize_append (ext : Bytes) :
    messageSize (buf ++ ext) headerEnd = messageSize buf headerEnd := by
  have hle : headerEnd + 4 ≤ buf.length := findSub_le h
  rw [messageSize, messageSize, lengthValues_append h, take_append_of_le_length (by omega)]

end

/-- The number that a text of digits is parsed to. -/
theorem eq_digitsValue_of_parseUnsigned {max : ℕ} {s : Str} (hdigits : s.all isAsciiDigit = true)
    (h : parseUnsigned max s = some n) : n = digitsValue s := by
  have hplus : stripPlus s = s := by
    cases s with
    | nil => rfl
    | cons c rest =>
      have hc : c ≠ '+' := by
        rintro rfl
        simp [isAsciiDigit] at hdigits
      rw [stripPlus.eq_def]
      split
      next heq => exact absurd (cons.inj heq).1 hc
      next => rfl
  rw [parseUnsigned, hplus] at h
  split at h
  · exact (some.inj h).symm
  · cases h

/-- A message has one length, and it ends after its header block. -/
theorem messageSize_spec {size : ℕ} (h : messageSize buf headerEnd = some size) :
    ∃ value, lengthValues buf = [value] ∧ (trim value).all isAsciiDigit ∧
      size = headerEnd + 4 + digitsValue (trim value) ∧ size ≤ MAX_FRAME := by
  rw [messageSize] at h
  split at h
  · cases h
  · split at h
    · cases h
    · split at h
      · cases h
      · split at h
        next value hvalue =>
          dsimp only at h
          split at h
          · cases h
          next hdigits =>
            obtain ⟨hsize, hle⟩ := filter_eq_some_iff.mp h
            obtain ⟨body, hbody, rfl⟩ := map_eq_some_iff.mp hsize
            simp only [Bool.or_eq_true, not_or, Bool.not_eq_true, Bool.not_eq_false'] at hdigits
            simp only [Bool.and_eq_true, decide_eq_true_eq] at hle
            have hvalue' := eq_digitsValue_of_parseUnsigned hdigits.2 hbody
            exact ⟨value, hvalue, hdigits.2, by rw [hvalue'], hle.2⟩
        · cases h

theorem not_prefix_append {pat : Bytes} (hpat : pat.length ≤ buf.length) (h : ¬ pat <+: buf)
    (ext : Bytes) : ¬ pat <+: buf ++ ext := fun hprefix =>
  h (prefix_of_prefix_length_le hprefix (prefix_append buf ext) hpat)

/-! ## Outcomes -/

/-- What the code does at a buffer that does not start with a line break. -/
theorem takeFrame_message {expectPong : Bool} (hcrlf : ¬ crlfOctets <+: buf) (hcr : buf ≠ [0x0d]) :
    takeFrame expectPong buf = match findSub crlfCrlf buf with
      | none =>
        if MAX_HEADER < buf.length then .error CHANNEL_STREAM_FRAME_INVALID else .ok none
      | some headerEnd =>
        if MAX_HEADER < headerEnd then .error CHANNEL_STREAM_FRAME_INVALID
        else
          match messageSize buf headerEnd with
          | none => .error CHANNEL_STREAM_FRAME_INVALID
          | some size =>
            if buf.length < size then .ok none
            else .ok (some (.sip (buf.take size), size)) := by
  have hping : ¬ crlfCrlf <+: buf := fun h => hcrlf ((by decide : crlfOctets <+: crlfCrlf).trans h)
  rw [takeFrame, if_neg hping, if_neg hcrlf, if_neg hcr]

/-- The frames and what they are taken from. -/
inductive Takes (buf : Bytes) : StreamFrame → ℕ → Prop
  | ping (h : crlfCrlf <+: buf) : Takes buf .ping 4
  | pong (h : ¬ crlfCrlf <+: buf) {c : UInt8} {rest : Bytes} (hbuf :
      buf = 0x0d :: 0x0a :: c :: rest)
      (hrest : c = 0x0d → rest ≠ []) : Takes buf .pong 2
  | sip (hcrlf : ¬ crlfOctets <+: buf) {headerEnd size : ℕ}
      (hfind : findSub crlfCrlf buf = some headerEnd) (hmax : headerEnd ≤ MAX_HEADER)
      (hsize : messageSize buf headerEnd = some size) (hle : size ≤ buf.length) :
      Takes buf (.sip (buf.take size)) size

theorem ne_cr_of_findSub (h : findSub crlfCrlf buf = some headerEnd) : buf ≠ [0x0d] := by
  rintro rfl
  cases h

/-- A buffer gives a frame in these ways only. -/
theorem takeFrame_eq_ok_iff : takeFrame false buf = .ok (some (frame, n)) ↔ Takes buf frame n := by
  constructor
  · intro h
    by_cases hping : crlfCrlf <+: buf
    · rw [takeFrame, if_pos hping] at h
      cases h
      exact .ping hping
    by_cases hcrlf : crlfOctets <+: buf
    · rw [takeFrame, if_neg hping, if_pos hcrlf] at h
      split at h
      · cases h
      next hwait =>
        cases h
        obtain ⟨tail, rfl⟩ := hcrlf
        cases tail with
        | nil => exact absurd (.inl ⟨rfl, rfl⟩) hwait
        | cons c rest =>
          refine .pong hping rfl fun hc hrest => hwait (.inr ?_)
          rw [hc, hrest]
          exact ⟨rfl, rfl⟩
    by_cases hcr : buf = [0x0d]
    · rw [takeFrame, if_neg hping, if_neg hcrlf, if_pos hcr] at h
      cases h
    rw [takeFrame_message hcrlf hcr] at h
    split at h
    · split at h <;> cases h
    next headerEnd hfind =>
      split at h
      · cases h
      next hmax =>
        split at h
        · cases h
        next size hsize =>
          split at h
          · cases h
          next hle =>
            cases h
            exact .sip hcrlf hfind (Nat.le_of_not_lt hmax) hsize (Nat.le_of_not_lt hle)
  · rintro (hping | ⟨hping, rfl, hrest⟩ | ⟨hcrlf, hfind, hmax, hsize, hle⟩)
    · rw [takeFrame, if_pos hping]
    · rw [takeFrame, if_neg hping, if_pos ⟨_, rfl⟩, if_neg]
      rintro (⟨hlength, -⟩ | ⟨hlength, hc⟩)
      · simp at hlength
      · simp only [length_cons] at hlength
        exact hrest (by simpa using hc) (length_eq_zero_iff.mp (by omega))
    · rw [takeFrame_message hcrlf (ne_cr_of_findSub hfind), hfind]
      dsimp only
      rw [if_neg (Nat.not_lt.mpr hmax), hsize]
      dsimp only
      rw [if_neg (Nat.not_lt.mpr hle)]

theorem Takes.bounds (h : Takes buf frame n) : 0 < n ∧ n ≤ buf.length := by
  cases h with
  | ping hping => exact ⟨by decide, hping.length_le⟩
  | pong _ hbuf => exact ⟨by decide, by simp [hbuf]⟩
  | sip _ hfind _ hsize hle =>
    obtain ⟨value, -, -, hn, -⟩ := messageSize_spec hsize
    exact ⟨by omega, hle⟩

/-- A frame that was complete stays the first one. -/
theorem Takes.append (h : Takes buf frame n) (ext : Bytes) : Takes (buf ++ ext) frame n := by
  cases h with
  | ping hping => exact .ping (hping.trans (prefix_append _ _))
  | pong hping hbuf hrest =>
    subst hbuf
    refine .pong ?_ rfl fun hc hnil => hrest hc (append_eq_nil_iff.mp hnil).1
    -- with a carriage return after the line break there is a fourth octet already
    intro hprefix
    rename_i c rest
    have hc : c = 0x0d := by
      simp only [crlfCrlf, cons_append, cons_prefix_cons] at hprefix
      exact hprefix.2.2.1.symm
    cases rest with
    | nil => exact hrest hc rfl
    | cons d rest => exact not_prefix_append (by simp [crlfCrlf]) hping ext hprefix
  | sip hcrlf hfind hmax hsize hle =>
    have hlong := findSub_le hfind
    have htake : (buf ++ ext).take n = buf.take n := take_append_of_le_length hle
    rw [← htake]
    refine .sip (not_prefix_append (hlong.trans' ?_) hcrlf ext) (findSub_append hfind ext) hmax
      ((messageSize_append hfind ext).trans hsize) (by rw [length_append]; omega)
    simp [crlfOctets, crlfCrlf]

/-- A frame is also taken from a part of the buffer that has two octets more than it. -/
theorem Takes.of_part (h : Takes rest frame n) (hbuf : buf <+: rest)
    (hlength : n + 2 ≤ buf.length) :
    Takes buf frame n := by
  cases h with
  | ping hping =>
    exact .ping (prefix_of_prefix_length_le hping hbuf (by simp [crlfCrlf]; omega))
  | pong hping hrest hc =>
    subst hrest
    obtain ⟨tail, htail⟩ := hbuf
    rcases buf with _ | ⟨b₀, _ | ⟨b₁, _ | ⟨b₂, _ | ⟨b₃, more⟩⟩⟩⟩
    · simp at hlength
    · simp at hlength
    · simp at hlength
    · simp at hlength
    · cases htail
      exact .pong (fun h => hping (h.trans (prefix_append _ _))) rfl
        fun _ => cons_ne_nil _ _
  | sip hcrlf hfind hmax hsize hle =>
    obtain ⟨tail, rfl⟩ := hbuf
    obtain ⟨value, -, -, hn, -⟩ := messageSize_spec hsize
    cases hshort : findSub crlfCrlf buf with
    | none =>
      have hlt := lt_of_findSub_append (by decide) hshort hfind
      have hpattern : crlfCrlf.length = 4 := rfl
      omega
    | some i =>
      obtain rfl : i = _ := some.inj ((findSub_append hshort tail).symm.trans hfind)
      rw [take_append_of_le_length (by omega)]
      exact .sip (fun h => hcrlf (h.trans (prefix_append _ _))) hshort hmax
        ((messageSize_append hshort tail).symm.trans hsize) (by omega)

theorem takeFrame_bounded : Segmentation.Bounded (takeFrame false) :=
  fun _ _ _ h => (takeFrame_eq_ok_iff.mp h).bounds

/-- A message whose header block has one of the last three lengths below the limit. -/
def NearLimit (rest : Bytes) : Prop :=
  ¬ crlfOctets <+: rest ∧ ∃ headerEnd size, findSub crlfCrlf rest = some headerEnd ∧
    MAX_HEADER < headerEnd + 3 ∧ headerEnd ≤ MAX_HEADER ∧ messageSize rest headerEnd = some size

/-- A refused buffer stays refused, unless the end of its header block is still to come. -/
theorem takeFrame_error_append {e : ImsError} (h : takeFrame false buf = .error e)
    (hclear : ¬ NearLimit (buf ++ ext)) : takeFrame false (buf ++ ext) = .error e := by
  by_cases hping : crlfCrlf <+: buf
  · rw [takeFrame, if_pos hping] at h
    cases h
  by_cases hcrlf : crlfOctets <+: buf
  · rw [takeFrame, if_neg hping, if_pos hcrlf] at h
    split at h <;> cases h
  by_cases hcr : buf = [0x0d]
  · rw [takeFrame, if_neg hping, if_neg hcrlf, if_pos hcr] at h
    cases h
  rw [takeFrame_message hcrlf hcr] at h
  have hlong : ∀ i, 2 ≤ i → i ≤ buf.length → ¬ crlfOctets <+: buf ++ ext ∧ buf ++ ext ≠ [0x0d] := by
    intro i hi hle
    refine ⟨not_prefix_append (by simp [crlfOctets]; omega) hcrlf ext, fun heq => ?_⟩
    have hlength := congrArg List.length heq
    simp at hlength
    omega
  split at h
  next hnone =>
    split at h
    next hmax =>
      cases h
      obtain ⟨hcrlf', hcr'⟩ := hlong (MAX_HEADER + 1) (by decide) hmax
      rw [takeFrame_message hcrlf' hcr']
      cases hfind : findSub crlfCrlf (buf ++ ext) with
      | none => exact if_pos (by rw [length_append]; omega)
      | some headerEnd =>
        dsimp only
        by_cases hover : MAX_HEADER < headerEnd
        · rw [if_pos hover]
        rw [if_neg hover]
        cases hsize : messageSize (buf ++ ext) headerEnd with
        | none => rfl
        | some size =>
          have hlt := lt_of_findSub_append (by decide) hnone hfind
          have hpattern : crlfCrlf.length = 4 := rfl
          exact absurd ⟨hcrlf', headerEnd, size, hfind, by omega, by omega, hsize⟩ hclear
    · cases h
  next headerEnd hfind =>
    have hle : headerEnd + 4 ≤ buf.length := findSub_le hfind
    obtain ⟨hcrlf', hcr'⟩ := hlong (headerEnd + 4) (by omega) hle
    rw [takeFrame_message hcrlf' hcr', findSub_append hfind]
    dsimp only
    split at h
    next hover => rw [if_pos hover]; exact h
    next hover =>
      rw [if_neg hover, messageSize_append hfind]
      split at h
      next hsize => exact h
      · split at h <;> cases h

/-- A header block near the limit is refused while its end is still to come. -/
theorem NearLimit.takeFrame_take (h : NearLimit rest) :
    takeFrame false (rest.take (MAX_HEADER + 1)) = .error CHANNEL_STREAM_FRAME_INVALID ∧
      ∀ e, takeFrame false rest ≠ .error e := by
  obtain ⟨hcrlf, headerEnd, size, hfind, hnear, hmax, hsize⟩ := h
  have hle : headerEnd + 4 ≤ rest.length := findSub_le hfind
  have hlength : (rest.take (MAX_HEADER + 1)).length = MAX_HEADER + 1 :=
    length_take_of_le (by omega)
  constructor
  · have hcrlf' : ¬ crlfOctets <+: rest.take (MAX_HEADER + 1) := fun h =>
      hcrlf (h.trans ( take_prefix _ _))
    have hcr : rest.take (MAX_HEADER + 1) ≠ [0x0d] := by
      intro heq
      rw [heq] at hlength
      cases hlength
    have hnone : findSub crlfCrlf (rest.take (MAX_HEADER + 1)) = none := by
      cases hfind' : findSub crlfCrlf (rest.take (MAX_HEADER + 1)) with
      | none => rfl
      | some i =>
        have hfound := findSub_append hfind' (rest.drop (MAX_HEADER + 1))
        rw [take_append_drop, hfind, some.injEq] at hfound
        have hpattern : crlfCrlf.length = 4 := rfl
        have hend := findSub_le hfind'
        omega
    rw [takeFrame_message hcrlf' hcr, hnone]
    exact if_pos (by omega)
  · intro e
    rw [takeFrame_message hcrlf (ne_cr_of_findSub hfind), hfind]
    dsimp only
    rw [if_neg (Nat.not_lt.mpr hmax), hsize]
    dsimp only
    split <;> nofun

end Growing

/-! ## Streams -/

/-- What is left of a stream after some pings, pongs and messages. -/
inductive Remainder (stream : Bytes) : Bytes → Prop
  | start : Remainder stream stream
  | ping {rest : Bytes} : Remainder stream (crlfCrlf ++ rest) → Remainder stream rest
  | pong {rest : Bytes} : Remainder stream (crlfOctets ++ rest) → ¬ crlfOctets <+: rest →
      rest ≠ [] → rest ≠ [0x0d] → Remainder stream rest
  | message {rest : Bytes} {headerEnd size : ℕ} : Remainder stream rest →
      ¬ crlfOctets <+: rest → findSub crlfCrlf rest = some headerEnd → headerEnd ≤ MAX_HEADER →
      messageSize rest headerEnd = some size → size ≤ rest.length →
      Remainder stream (rest.drop size)

section Streams

variable {stream rest : Bytes}

theorem Remainder.boundary (h : Remainder stream rest) :
    Segmentation.Boundary (takeFrame false) stream rest := by
  induction h with
  | start => exact .start
  | @ping rest _ ih =>
    have htakes : Takes (crlfCrlf ++ rest) .ping 4 := .ping (prefix_append _ _)
    exact .next ih (takeFrame_eq_ok_iff.mpr htakes)
  | @pong rest _ hcrlf hnil hcr ih =>
    cases rest with
    | nil => exact absurd rfl hnil
    | cons c rest =>
      have hping : ¬ crlfCrlf <+: crlfOctets ++ c :: rest := fun h =>
        hcrlf ((prefix_append_right_inj crlfOctets).mp h)
      have htakes : Takes (crlfOctets ++ c :: rest) .pong 2 :=
        .pong hping rfl fun hc hrest => hcr (by rw [hc, hrest])
      exact .next ih (takeFrame_eq_ok_iff.mpr htakes)
  | message _ hcrlf hfind hmax hsize hle ih =>
    exact .next ih (takeFrame_eq_ok_iff.mpr (.sip hcrlf hfind hmax hsize hle))

theorem remainder_of_boundary (h : Segmentation.Boundary (takeFrame false) stream rest) :
    Remainder stream rest := by
  induction h with
  | start => exact .start
  | next _ hsome ih =>
    rcases takeFrame_eq_ok_iff.mp hsome with ⟨tail, rfl⟩ | ⟨hping, rfl, hrest⟩ |
      ⟨hcrlf, hfind, hmax, hsize, hle⟩
    · exact .ping ih
    · refine .pong ih (fun hprefix => hping ?_) (cons_ne_nil _ _) fun heq => ?_
      · exact (prefix_append_right_inj crlfOctets).mpr hprefix
      · obtain ⟨hc, hnil⟩ := cons.inj heq
        exact hrest hc hnil
    · exact .message ih hcrlf hfind hmax hsize hle

/-- No message of the stream has a header block of one of the last three lengths below the
limit. -/
def HeadersClear (stream : Bytes) : Prop := ∀ rest, Remainder stream rest → ¬ NearLimit rest

/-- Reads the chunks, taking frames after each. -/
def readFrames (chunks : List Bytes) : List StreamFrame × Except ImsError Bytes :=
  Segmentation.receive (takeFrame false) [] chunks

/-- What is read does not depend on the cuts exactly if no header block is near the limit. -/
theorem readFrames_eq_iff (stream : Bytes) :
    (∀ chunks chunks' : List Bytes, chunks.flatten = stream → chunks'.flatten = stream →
      readFrames chunks = readFrames chunks') ↔ HeadersClear stream := by
  have hempty : takeFrame false [] = .ok none := rfl
  constructor
  · intro hsame rest hrest hnear
    obtain ⟨hbad, hgood⟩ := hnear.takeFrame_take
    obtain ⟨-, headerEnd, size, hfind, hlong, -⟩ := hnear
    have hle : headerEnd + 4 ≤ rest.length := findSub_le hfind
    have hslack : 2 ≤ (rest.take (MAX_HEADER + 1)).length := by
      have hmax : MAX_HEADER = 16384 := rfl
      rw [length_take]
      omega
    obtain ⟨chunks, hchunks, hne⟩ := Segmentation.exists_receive_ne_drain 2 takeFrame_bounded
      (fun rest item n hsome buf hbuf hlength =>
        takeFrame_eq_ok_iff.mpr ((takeFrame_eq_ok_iff.mp hsome).of_part hbuf hlength))
      hrest.boundary ( take_prefix (MAX_HEADER + 1) rest) hslack hbad hgood
    refine hne ((hsame chunks [stream] hchunks (by simp)).trans ?_)
    exact Segmentation.receive_singleton stream
  · intro hclear chunks chunks' hchunks hchunks'
    have hpersists : ∀ rest, Segmentation.Boundary (takeFrame false) stream rest →
        ∀ buf, buf <+: rest → Segmentation.Persists (takeFrame false) buf rest := by
      rintro rest hrest buf ⟨ext, rfl⟩
      refine ⟨fun item n hsome => ?_, fun e herr => ?_⟩
      · exact takeFrame_eq_ok_iff.mpr ((takeFrame_eq_ok_iff.mp hsome).append ext)
      · exact takeFrame_error_append herr (hclear _ (remainder_of_boundary hrest))
    rw [readFrames, readFrames,
      Segmentation.receive_eq_drain takeFrame_bounded hempty hpersists hchunks,
      Segmentation.receive_eq_drain takeFrame_bounded hempty hpersists hchunks']

/-- A message is its header block, CRLFCRLF and a body of the one announced length. -/
def IsSipFrame (frame : Bytes) : Prop :=
  ∃ headerEnd value, findSub crlfCrlf frame = some headerEnd ∧ headerEnd ≤ MAX_HEADER ∧
    lengthValues frame = [value] ∧ (trim value).all isAsciiDigit = true ∧
    frame.length = headerEnd + 4 + digitsValue (trim value) ∧ frame.length ≤ MAX_FRAME

/-- A ping, or a message that ends where its header says. -/
def WellFormedFrame : StreamFrame → Prop
  | .sip frame => ¬ crlfOctets <+: frame ∧ ∃ headerEnd, findSub crlfCrlf frame = some headerEnd ∧
      headerEnd ≤ MAX_HEADER ∧ messageSize frame headerEnd = some frame.length
  | .ping => True
  | .pong => False

/-- The octets of a frame. -/
def StreamFrame.octets : StreamFrame → Bytes
  | sip frame => frame
  | ping => crlfCrlf
  | pong => crlfOctets

theorem Takes.isSipFrame {buf frame : Bytes} {n : ℕ} (h : Takes buf (.sip frame) n) :
    IsSipFrame frame := by
  cases h with
  | sip hcrlf hfind hmax hsize hle =>
    rename_i headerEnd
    obtain ⟨value, hvalue, hdigits, hn, hframe⟩ := messageSize_spec hsize
    have hlength : (buf.take n).length = n := length_take_of_le hle
    have hfind' : findSub crlfCrlf (buf.take n) = some headerEnd := by
      cases hshort : findSub crlfCrlf (buf.take n) with
      | none =>
        have hwhole : findSub crlfCrlf (buf.take n ++ buf.drop n) = some headerEnd := by
          rwa [take_append_drop]
        have hlt := lt_of_findSub_append (by decide) hshort hwhole
        have hpattern : crlfCrlf.length = 4 := rfl
        omega
      | some i =>
        have hfound := findSub_append hshort (buf.drop n)
        rw [take_append_drop, hfind] at hfound
        exact hfound.symm
    have hvalues : lengthValues (buf.take n) = lengthValues buf := by
      conv_rhs => rw [← take_append_drop n buf]
      exact (lengthValues_append hfind' _).symm
    exact ⟨headerEnd, value, hfind', hmax, hvalues.trans hvalue, hdigits, by rw [hlength, hn],
      by rw [hlength]; exact hframe⟩

/-- Well-formed frames are drained one by one. -/
theorem drains_wellFormed {items : List StreamFrame}
    (hitems : ∀ item ∈ items, WellFormedFrame item) :
    Segmentation.Drains (takeFrame false) (items.flatMap StreamFrame.octets) items (.ok []) := by
  induction items with
  | nil => exact .stop rfl
  | cons item items ih =>
    obtain ⟨hitem, hmore⟩ := forall_mem_cons.mp hitems
    rw [flatMap_cons]
    have htakes : Takes (item.octets ++ items.flatMap StreamFrame.octets) item
        item.octets.length := by
      cases item with
      | ping => exact .ping (prefix_append _ _)
      | pong => exact hitem.elim
      | sip frame =>
        obtain ⟨hcrlf, headerEnd, hfind, hmax, hsize⟩ := hitem
        have htakes : Takes frame (.sip (frame.take frame.length)) frame.length :=
          .sip hcrlf hfind hmax hsize le_rfl
        rw [take_length] at htakes
        exact htakes.append _
    refine .item (takeFrame_eq_ok_iff.mpr htakes) ?_
    rw [drop_left]
    exact ih hmore

/-- What a stream's framing should be: the same however the stream is cut, messages as they
announce themselves, and well-formed frames unchanged. -/
structure Segmented (stream : Bytes) : Prop where
  same : ∀ chunks chunks' : List Bytes, chunks.flatten = stream → chunks'.flatten = stream →
    readFrames chunks = readFrames chunks'
  frames : ∀ chunks : List Bytes, chunks.flatten = stream →
    ∀ frame, .sip frame ∈ (readFrames chunks).1 → IsSipFrame frame
  unchanged : ∀ items : List StreamFrame, (∀ item ∈ items, WellFormedFrame item) →
    items.flatMap StreamFrame.octets = stream →
    ∀ chunks : List Bytes, chunks.flatten = stream → readFrames chunks = (items, .ok [])

/-- **Framing.** A stream is framed as it should be exactly if none of its messages has a header
block of one of the last three lengths below the limit. -/
theorem segmented_iff (stream : Bytes) : Segmented stream ↔ HeadersClear stream := by
  refine ⟨fun h => (readFrames_eq_iff stream).mp h.same, fun hclear => ?_⟩
  have hsame := (readFrames_eq_iff stream).mpr hclear
  refine ⟨hsame, fun chunks _ frame hframe => ?_, fun items hitems hoctets chunks hchunks => ?_⟩
  · exact Segmentation.forall_mem_receive (P := fun item => ∀ frame, item = .sip frame →
      IsSipFrame frame)
      (fun buf item n hsome frame heq => (takeFrame_eq_ok_iff.mp (heq ▸ hsome)).isSipFrame)
      takeFrame_bounded chunks [] _ hframe frame rfl
  · rw [hsame chunks [stream] hchunks (by simp), readFrames, Segmentation.receive_singleton]
    exact Segmentation.drain_eq takeFrame_bounded (hoctets ▸ drains_wellFormed hitems)

end Streams

/-! ## A header block at the limit -/

theorem length_asBytes {s : Str} (h : ∀ c ∈ s, c.toNat < 0x80) : (asBytes s).length = s.length := by
  induction s with
  | nil => rfl
  | cons c s ih =>
    obtain ⟨hc, hs⟩ := forall_mem_cons.mp h
    have hone : utf8Octets c = [UInt8.ofNat c.toNat] := by rw [utf8Octets, if_pos hc]
    rw [asBytes, flatMap_cons, hone, length_append, length_cons, ← asBytes, ih hs]
    simp [Nat.add_comm]

/-- A field with `n` octets of padding. -/
def paddingLine (n : ℕ) : Str := "X: ".toList ++ replicate n 'a'

/-- A message without a body, whose header block has 45 octets and the padding. -/
def paddedMessage (n : ℕ) : Bytes :=
  messageOf ["MESSAGE sip:u SIP/2.0".toList, "Content-Length: 0".toList, paddingLine n] []

theorem mem_paddingLine {n : ℕ} {c : Char} (h : c ∈ paddingLine n) : c ∈ ['X', ':', ' ', 'a'] := by
  rcases mem_append.mp h with h | h
  · simp at h ⊢
    tauto
  · rw [(mem_replicate.mp h).2]
    decide

theorem paddedMessage_lines (n : ℕ) : ∀ line ∈ ["MESSAGE sip:u SIP/2.0".toList,
    "Content-Length: 0".toList, paddingLine n], HeaderLine line := by
  have hpadding : HeaderLine (paddingLine n) := by
    refine ⟨cons_ne_nil _ _, fun h => ?_⟩
    exact absurd (mem_paddingLine h) (by decide)
  simp only [forall_mem_cons]
  exact ⟨⟨by decide, by decide⟩, ⟨by decide, by decide⟩, hpadding, nofun⟩

theorem length_paddedMessage (n : ℕ) : (asBytes (headerText ["MESSAGE sip:u SIP/2.0".toList,
    "Content-Length: 0".toList, paddingLine n])).length = n + 45 := by
  have hpadding : (asBytes (paddingLine n)).length = n + 3 := by
    rw [length_asBytes fun c hc => ?_]
    · simp only [paddingLine, length_append, length_replicate]
      exact Nat.add_comm 3 n
    · have hc' := mem_paddingLine hc
      have hall : ∀ c ∈ ['X', ':', ' ', 'a'], c.toNat < 0x80 := by simp
      exact hall c hc'
  have hfirst : (asBytes "MESSAGE sip:u SIP/2.0".toList).length = 21 := by decide +kernel
  have hsecond : (asBytes "Content-Length: 0".toList).length = 17 := by decide +kernel
  have hbreak : (asBytes crlf).length = 2 := rfl
  simp only [headerText, flatMap_cons, flatMap_nil, asBytes_append, length_append,
    hfirst, hsecond, hbreak, hpadding, asBytes_nil, length_nil]
  omega

theorem lengthValues_paddedMessage (n : ℕ) : lengthValues (paddedMessage n) = ["0".toList] := by
  have hsplit : splitOnce ':' (paddingLine n) =
      some ("X".toList, " ".toList ++ replicate n 'a') := rfl
  have hunfolded : ∀ line ∈ ["MESSAGE sip:u SIP/2.0".toList, "Content-Length: 0".toList,
      paddingLine n], isFolded line = false := by
    simp only [forall_mem_cons]
    exact ⟨rfl, rfl, rfl, nofun⟩
  have hvalues := fun name => headerValues_messageOf (paddedMessage_lines n) hunfolded
    (cons_ne_nil _ _) [] name
  have hother : ∀ name ∈ ["Content-Length".toList, "l".toList],
      (fieldOf (paddingLine n)).bind (namedValue name) = none := by
    intro name hname
    have hne : eqIgnoreAsciiCase (trim "X".toList) name = false := by
      revert name
      decide +kernel
    rw [fieldOf, hsplit, map_some, bind_some, namedValue, hne]
    rfl
  have hlong : (fieldOf "Content-Length: 0".toList).bind (namedValue "Content-Length".toList) =
      some "0".toList := by decide +kernel
  have hcompact : (fieldOf "Content-Length: 0".toList).bind (namedValue "l".toList) = none := by
    decide +kernel
  have hstart : fieldOf "MESSAGE sip:u SIP/2.0".toList =
      some ("MESSAGE sip".toList, "u SIP/2.0".toList) := by decide +kernel
  rw [lengthValues, paddedMessage, hvalues, hvalues]
  simp only [filterMap_cons, filterMap_nil, hlong, hcompact, hstart,
    hother _ (by simp : "Content-Length".toList ∈ _), hother _ (by simp : "l".toList ∈ _)]
  rfl

theorem headerLinesValid_cons {count : ℕ} {hadHeader : Bool} {line name value : Str}
    {rest : List Str} (hcount : count < 128)
    (hchars : line.any (fun c => (c.toNat < 32 && c != '\t') || c.toNat = 127) = false)
    (hfolded : isFolded line = false) (hsplit : splitOnce ':' line = some (name, value))
    (htoken : token (trimEndMatches (fun c => c = ' ' || c = '\t') name) = true) :
    headerLinesValid count hadHeader (line :: rest) = headerLinesValid (count + 1) true rest := by
  have hle : ¬ 128 ≤ count := Nat.not_le.mpr hcount
  simp only [headerLinesValid, hchars, hfolded, hsplit, htoken]
  simp [hle]

/-- The header block of the padded message is well formed, however long the padding is. -/
theorem messageSize_paddedMessage {n : ℕ} (hn : n + 49 ≤ MAX_FRAME) :
    findSub crlfCrlf (paddedMessage n) = some (n + 45) ∧
      messageSize (paddedMessage n) (n + 45) = some (n + 49) := by
  have hfind := findSub_messageOf (paddedMessage_lines n) []
  rw [length_paddedMessage] at hfind
  refine ⟨hfind, ?_⟩
  have htext : (paddedMessage n).take (n + 45) =
      asBytes (headerText ["MESSAGE sip:u SIP/2.0".toList,
      "Content-Length: 0".toList, paddingLine n]) := by
    exact take_left' (length_paddedMessage n)
  have hlines : headerLinesValid 0 false ["Content-Length: 0".toList, paddingLine n] = true := by
    have hchars : (paddingLine n).any (fun c => (c.toNat < 32 && c != '\t') || c.toNat = 127) =
        false := by
      rw [List.any_eq_false]
      intro c hc
      have hall : ∀ c ∈ ['X', ':', ' ', 'a'],
          ¬ (((c.toNat < 32 && c != '\t') || c.toNat = 127) = true) := by simp
      exact hall c (mem_paddingLine hc)
    have hfield : ∀ name ∈ ["Content-Length".toList, "X".toList],
        token (trimEndMatches (fun c => c = ' ' || c = '\t') name) = true := by decide +kernel
    have hsplit : splitOnce ':' "Content-Length: 0".toList =
        some ("Content-Length".toList, " 0".toList) := by decide +kernel
    have hsplit' : splitOnce ':' (paddingLine n) =
        some ("X".toList, " ".toList ++ replicate n 'a') := rfl
    rw [headerLinesValid_cons (by decide) (by decide +kernel) (by decide +kernel) hsplit
        (hfield _ (by simp)),
      headerLinesValid_cons (by decide) hchars rfl hsplit' (hfield _ (by simp))]
    rfl
  have hstart : startLineValid "MESSAGE sip:u SIP/2.0".toList = true := by decide +kernel
  have hvalue : trim "0".toList = ['0'] := by decide +kernel
  have hzero : parseUnsigned usizeMax ['0'] = some 0 := by decide +kernel
  have hword : n + 45 + 4 + 0 ≤ usizeMax := by
    have hmax : MAX_FRAME ≤ usizeMax := by decide
    omega
  rw [messageSize, htext, fromUtf8_asBytes]
  dsimp only
  rw [splitCrlf_headerText _ (paddedMessage_lines n) (cons_ne_nil _ _)]
  dsimp only
  rw [lengthValues_paddedMessage, hlines, hstart]
  dsimp only
  rw [hvalue, hzero]
  simp [isAsciiDigit, hword, hn]

theorem not_crlf_paddedMessage (n : ℕ) : ¬ crlfOctets <+: paddedMessage n := by
  have hhead : (paddedMessage n).head? = some 0x4d := rfl
  rintro ⟨tail, htail⟩
  rw [← htail] at hhead
  cases hhead

/-- A message whose header block is as long as allowed is read when it arrives whole, and refused
when the last three octets of the header block's end are still to come. -/
theorem framing_depends_on_cut : let message := paddedMessage 16339
    readFrames [message] = ([.sip message], .ok []) ∧
      readFrames [message.take 16385, message.drop 16385] =
        ([], .error CHANNEL_STREAM_FRAME_INVALID) := by
  intro message
  obtain ⟨hfind, hsize⟩ := messageSize_paddedMessage (n := 16339) (by decide)
  have hcrlf := not_crlf_paddedMessage 16339
  have hlength : message.length = 16388 := by
    have htext := length_paddedMessage 16339
    rw [show message = paddedMessage 16339 from rfl, paddedMessage, messageOf, length_append, htext]
    rfl
  have hnear : NearLimit message := ⟨hcrlf, 16384, 16388, hfind, by decide, by decide, hsize⟩
  constructor
  · have htakes : Takes message (.sip (message.take 16388)) 16388 :=
      .sip hcrlf hfind (by decide) hsize hlength.ge
    rw [take_of_length_le hlength.le] at htakes
    have hrest : Segmentation.Drains (takeFrame false) (message.drop 16388) [] (.ok []) := by
      rw [drop_eq_nil_of_le hlength.le]
      exact .stop rfl
    rw [readFrames, Segmentation.receive_singleton]
    exact Segmentation.drain_eq takeFrame_bounded (.item (takeFrame_eq_ok_iff.mpr htakes) hrest)
  · have hdrain : Segmentation.drain (takeFrame false) (message.take 16385) =
        ([], .error CHANNEL_STREAM_FRAME_INVALID) :=
      Segmentation.drain_eq takeFrame_bounded (.fail hnear.takeFrame_take.1)
    rw [readFrames, Segmentation.receive, nil_append, hdrain]

end SimMaster.SipStream
