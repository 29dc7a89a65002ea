import SimMaster.RegEventFrame
import SimMaster.SipText

/-!
# The length of the first message on a stream

Three readers of the same header block coexist. `header_values` trims a field's name and unfolds its
value, `Frame::parse` also knows the compact name `l`, and `complete_frame_len`, which cuts the
stream into messages, compares the name as it stands and reads one physical line. A message is
written here as octet lines, which need not be UTF-8, with one field that one of the first two
readers takes for the Content-Length and a body of exactly the length it declares.

`completeFrameLen` returns the length of that message if and only if the field has its plain name
and its number on the first line, or the body is empty (`completeFrameLen_iff_plain`).
-/

namespace SimMaster

open Rust List Option

/-! ## Messages as octet lines -/

/-- A line of a header block on the wire: not empty and without line feeds. -/
structure WireLine (line : Bytes) : Prop where
  ne_nil : line ≠ []
  lf_notMem : 0x0a ∉ line

/-- The message with the header lines, each ended by CR LF, the empty line and the body. -/
def wireMessage (lines : List Bytes) (body : Bytes) : Bytes :=
  lines.flatMap (· ++ [0x0d, 0x0a]) ++ ([0x0d, 0x0a] ++ body)

theorem wireMessage_cons (line : Bytes) (lines : List Bytes) (body : Bytes) :
    wireMessage (line :: lines) body = line ++ 0x0d :: 0x0a :: wireMessage lines body := by
  simp [wireMessage]

theorem wireMessage_append (lines : List Bytes) (body further : Bytes) :
    wireMessage lines body ++ further = wireMessage lines (body ++ further) := by
  simp [wireMessage]

/-- The header block with the empty line after it. -/
def wireHeader (lines : List Bytes) : Bytes := wireMessage lines []

theorem wireMessage_eq (lines : List Bytes) (body : Bytes) :
    wireMessage lines body = wireHeader lines ++ body := by
  rw [wireHeader, wireMessage_append, nil_append]

/-- The octets of a line do not start a line break. -/
theorem WireLine.not_break {line : Bytes} (h : WireLine line) (more rest : Bytes) :
    line ++ 0x0d :: more ≠ 0x0d :: 0x0a :: rest := by
  intro heq
  rcases line with _ | ⟨b, _ | ⟨c, line⟩⟩
  · exact h.ne_nil rfl
  · cases heq
  · cases heq
    exact h.lf_notMem (mem_cons_of_mem _ mem_cons_self)

/-- The header block ends where the empty line was written. -/
theorem findSub_wireMessage {lines : List Bytes} (hlines : ∀ line ∈ lines, WireLine line)
    (hne : lines ≠ []) (body : Bytes) :
    (findSub crlfCrlf (wireMessage lines body)).map (· + 4) = some (wireHeader lines).length := by
  induction lines with
  | nil => exact absurd rfl hne
  | cons line rest ih =>
    obtain ⟨hline, hmore⟩ := forall_mem_cons.mp hlines
    rw [wireMessage_cons, findSub_crlfCrlf_skip hline.lf_notMem, wireHeader, wireMessage_cons]
    cases rest with
    | nil =>
      have hfound : findSub crlfCrlf (0x0d :: 0x0a :: wireMessage [] body) = some 0 := by
        rw [findSub, if_pos ⟨body, rfl⟩]
      rw [hfound]
      simp [wireMessage]
    | cons next rest =>
      have hnext := (hmore next mem_cons_self).not_break
      have hih := ih hmore (cons_ne_nil _ _)
      rw [wireMessage_cons] at hih ⊢
      rw [findSub_crlf (hnext _), Option.map_map, Option.map_map]
      cases hfind : findSub crlfCrlf (next ++ 0x0d :: 0x0a :: wireMessage rest body) with
      | none => rw [hfind] at hih; cases hih
      | some i =>
        rw [hfind, wireHeader] at hih
        simp only [map_some, some.injEq, Function.comp_apply, length_append, length_cons] at hih ⊢
        omega

theorem findHeaderEnd_wireMessage {lines : List Bytes} (hlines : ∀ line ∈ lines, WireLine line)
    (hne : lines ≠ []) (body : Bytes) :
    findHeaderEnd (wireMessage lines body) = some (wireHeader lines).length := by
  rw [findHeaderEnd, findSub_wireMessage hlines hne]
  rfl

/-- The header lines are read as their own texts, and the empty line. -/
theorem lines_wireHeader {lines : List Bytes} (hlines : ∀ line ∈ lines, WireLine line) :
    Rust.lines (fromUtf8Lossy (wireHeader lines)) = lines.map fromUtf8Lossy ++ [[]] := by
  induction lines with
  | nil => decide
  | cons line rest ih =>
    obtain ⟨hline, hmore⟩ := forall_mem_cons.mp hlines
    have hlf : '\n' ∉ fromUtf8Lossy line :=
      notMem_fromUtf8Lossy (by decide) (by decide) hline.lf_notMem
    have hcut : fromUtf8Lossy (wireHeader (line :: rest)) =
        fromUtf8Lossy line ++ (crlf ++ fromUtf8Lossy (wireHeader rest)) := by
      rw [wireHeader, wireMessage_cons, fromUtf8Lossy_append_ascii line (by decide)]
      have hfeed := fromUtf8Lossy_append_ascii [] (c := 0x0a) (by decide) (wireHeader rest)
      rw [nil_append] at hfeed
      rfl
    rw [hcut, lines_cons hlf, ih hmore]
    rfl

/-! ## The field that declares the length -/

/-- A name that `header_values` or `Frame::parse` takes for Content-Length. -/
def NamesLength (name : Str) : Prop :=
  eqIgnoreAsciiCase (trim name) "content-length".toList = true ∨
    RegEvent.longName (trimEndMatches (fun c => c = ' ' || c = '\t') name) =
      "content-length".toList

/-- A line that starts the Content-Length field for one of the two readers. -/
def StartsLength (line : Str) : Prop :=
  isFolded line = false ∧ ∃ name value, splitOnce ':' line = some (name, value) ∧ NamesLength name

instance : DecidablePred NamesLength := fun _ => inferInstanceAs (Decidable (_ ∨ _))

instance : DecidablePred StartsLength := fun line =>
  decidable_of_iff (isFolded line = false ∧ ∃ parts ∈ splitOnce ':' line, NamesLength parts.1)
    (and_congr_right fun _ =>
      ⟨fun ⟨parts, hparts, hnamed⟩ => ⟨parts.1, parts.2, hparts, hnamed⟩,
        fun ⟨name, value, hparts, hnamed⟩ => ⟨(name, value), hparts, hnamed⟩⟩)

instance (line : Bytes) : Decidable (WireLine line) :=
  decidable_of_iff (line ≠ [] ∧ 0x0a ∉ line)
    ⟨fun h => ⟨h.1, h.2⟩, fun h => ⟨h.1, h.2⟩⟩

/-- A message with exactly one Content-Length field and a body of the length it declares. The field
starts with `name`, a colon and `value`, and the `folds` continue it. -/
structure LengthMessage where
  before : List Bytes
  line : Bytes
  folds : List Bytes
  after : List Bytes
  body : Bytes
  name : Str
  value : Str
  isWire : ∀ octets ∈ before ++ line :: (folds ++ after), WireLine octets
  unfolded : isFolded (fromUtf8Lossy line) = false
  isField : splitOnce ':' (fromUtf8Lossy line) = some (name, value)
  named : NamesLength name
  continued : ∀ octets ∈ folds, isFolded (fromUtf8Lossy octets) = true
  finished : ∀ octets ∈ after.head?, isFolded (fromUtf8Lossy octets) = false
  only : ∀ octets ∈ before ++ after, ¬ StartsLength (fromUtf8Lossy octets)
  declared : parseUnsigned usizeMax
    (trim ((folds.map fromUtf8Lossy).foldl unfoldLine (trim value))) =
    some body.length

namespace LengthMessage

def lines (message : LengthMessage) : List Bytes :=
  message.before ++ message.line :: (message.folds ++ message.after)

def wire (message : LengthMessage) : Bytes := wireMessage message.lines message.body

theorem lines_ne_nil (message : LengthMessage) : message.lines ≠ [] := by
  simp [lines]

theorem wireLine (message : LengthMessage) : ∀ line ∈ message.lines, WireLine line := message.isWire

end LengthMessage

/-! ## Continuation lines -/

/-- What the continuation lines add to a value: nothing, or text after a blank that does not end in
white space. -/
theorem foldl_unfoldLine (value : Str) (folds : List Str) :
    ∃ rest, folds.foldl unfoldLine value = value ++ rest ∧
      (rest = [] ∨ ' ' ∈ rest ∧ ∃ h : rest ≠ [], isWhitespace (rest.getLast h) = false) := by
  induction folds using reverseRecOn with
  | nil => exact ⟨[], (append_nil _).symm, .inl rfl⟩
  | append_singleton folds line ih =>
    obtain ⟨rest, hrest, hends⟩ := ih
    rw [foldl_concat, hrest, unfoldLine]
    by_cases hempty : trim line = []
    · exact ⟨rest, by rw [hempty]; rfl, hends⟩
    · refine ⟨rest ++ ' ' :: trim line, ?_, .inr ⟨by simp, by simp, ?_⟩⟩
      · rw [if_neg (by simpa using hempty), append_assoc]
      · rw [getLast_append_of_ne_nil _ (cons_ne_nil _ _), getLast_cons hempty]
        exact isWhitespace_getLast_trim hempty

variable {max n : ℕ}

theorem blank_notMem_of_parseUnsigned {s : Str} (h : parseUnsigned max s = some n) : ' ' ∉ s := by
  simp only [parseUnsigned] at h
  split_ifs at h with hdigits
  have hall := all_eq_true.mp hdigits.2.1
  intro hmem
  have hmem' : ' ' ∈ stripPlus s := by
    rw [stripPlus.eq_def]
    split
    · exact (mem_cons.mp hmem).resolve_left (by decide)
    · exact hmem
  exact absurd (hall _ hmem') (by decide)

variable {value line name : Str}

/-- A number that is declared in one piece stands on the first line, if anything does. -/
theorem declared_on_first {folds : List Str} (hvalue : trim value ≠ [])
    (h : parseUnsigned max (trim (folds.foldl unfoldLine (trim value))) = some n) :
    parseUnsigned max (trim value) = some n := by
  obtain ⟨rest, hrest, rfl | ⟨hblank, hne, hlast⟩⟩ := foldl_unfoldLine (trim value) folds
  · rw [hrest, append_nil] at h
    rwa [trim_of_ends hvalue (isWhitespace_head_trim hvalue)
      (isWhitespace_getLast_trim hvalue)] at h
  · have hkept : trim (trim value ++ rest) = trim value ++ rest := by
      refine trim_of_ends (by simp [hne]) ?_ ?_
      · rw [head_append_of_ne_nil hvalue]
        exact isWhitespace_head_trim hvalue
      · rw [getLast_append_of_ne_nil _ hne]
        exact hlast
    rw [hrest, hkept] at h
    exact absurd (mem_append_right _ hblank) (blank_notMem_of_parseUnsigned h)

/-! ## What `complete_frame_len` reads -/

/-- The length `complete_frame_len` finds on one line. -/
def lengthOnLine (line : Str) : Option ℕ :=
  (splitOnce ':' line).bind fun parts =>
    if eqIgnoreAsciiCase parts.1 "content-length".toList then
      parseUnsigned usizeMax (trim parts.2)
    else none

theorem contentLength_eq (headers : Bytes) :
    contentLength headers = (Rust.lines (fromUtf8Lossy headers)).findSome? lengthOnLine := by
  rw [contentLength]
  congr 1
  funext line
  rw [lengthOnLine]
  cases splitOnce ':' line <;> rfl

theorem lengthOnLine_of_name (h : splitOnce ':' line = some (name, value)) :
    lengthOnLine line = if eqIgnoreAsciiCase name "content-length".toList then
      parseUnsigned usizeMax (trim value) else none := by
  rw [lengthOnLine, h]
  rfl

/-- White space has no other case. -/
theorem toLower_of_isWhitespace {c : Char} (h : isWhitespace c = true) : c.toLower = c := by
  rw [Char.toLower, dif_neg]
  rintro ⟨hlow, hhigh⟩
  have hlow' : 65 ≤ c.toNat := hlow
  have hhigh' : c.toNat ≤ 90 := hhigh
  simp only [isWhitespace, Bool.or_eq_true, Bool.and_eq_true, decide_eq_true_eq, beq_iff_eq] at h
  omega

/-- A name that is Content-Length as it stands is so when it is trimmed. -/
theorem trim_of_eqIgnoreAsciiCase
    (h : eqIgnoreAsciiCase name "content-length".toList = true) : trim name = name := by
  refine trim_of_all fun c hc => ?_
  by_contra hspace
  have hspace : isWhitespace c = true := by simpa using hspace
  have hmem : c.toLower ∈ toAsciiLowercase name := mem_map_of_mem hc
  rw [eqIgnoreAsciiCase, beq_iff_eq] at h
  rw [h, toLower_of_isWhitespace hspace] at hmem
  have hnone : (toAsciiLowercase "content-length".toList).all (!isWhitespace ·) = true := by decide
  have hplain := all_eq_true.mp hnone c hmem
  rw [hspace] at hplain
  cases hplain

theorem splitOnce_cons {sep c : Char} {rest : Str}
    (h : splitOnce sep (c :: rest) = some (name, value)) : name = [] ∨ name.head? = some c := by
  rw [splitOnce] at h
  split_ifs at h with hc
  · cases h
    exact .inl rfl
  · obtain ⟨parts, -, hparts⟩ := map_eq_some_iff.mp h
    cases hparts
    exact .inr rfl

/-- No length is found on a line that does not start the field. -/
theorem lengthOnLine_other (h : ¬ StartsLength line) : lengthOnLine line = none := by
  cases hsplit : splitOnce ':' line with
  | none => rw [lengthOnLine, hsplit]; rfl
  | some parts =>
    obtain ⟨name, value⟩ := parts
    rw [lengthOnLine_of_name hsplit]
    refine if_neg fun hname => ?_
    have hnamed : NamesLength name := .inl (by rwa [trim_of_eqIgnoreAsciiCase hname])
    have hfolded : isFolded line = true := by
      by_contra hfolded
      exact h ⟨by simpa using hfolded, name, value, hsplit, hnamed⟩
    -- a continuation line starts with white space, and so would the name
    cases line with
    | nil => cases hfolded
    | cons c rest =>
      have hspace : isWhitespace c = true := by
        rcases Bool.or_eq_true_iff.mp hfolded with hc | hc
        · rw [some.inj (of_decide_eq_true hc)]; rfl
        · rw [some.inj (of_decide_eq_true hc)]; rfl
      rcases splitOnce_cons hsplit with rfl | hhead
      · exact absurd hname (by decide)
      · rw [← trim_of_eqIgnoreAsciiCase hname] at hhead
        have hne : trim name ≠ [] := by
          rintro heq
          rw [heq] at hhead
          cases hhead
        have hfirst := isWhitespace_head_trim hne
        rw [head?_eq_some_head hne, some.injEq] at hhead
        rw [hhead, hspace] at hfirst
        cases hfirst

theorem lengthOnLine_folded (h : isFolded line = true) : lengthOnLine line = none :=
  lengthOnLine_other fun hstarts => absurd (h.symm.trans hstarts.1) (by decide)

namespace LengthMessage

/-! ## The length of the first message -/

/-- The number stands after the plain name on the first line of the field. -/
def Plain (message : LengthMessage) : Prop :=
  eqIgnoreAsciiCase message.name "content-length".toList = true ∧ trim message.value ≠ []

variable (message : LengthMessage)

/-- All that is found is what the first line of the field says. -/
theorem contentLength_wireHeader :
    contentLength (wireHeader message.lines) = lengthOnLine (fromUtf8Lossy message.line) := by
  have hbefore : (message.before.map fromUtf8Lossy).findSome? lengthOnLine = none := by
    rw [findSome?_eq_none_iff]
    intro text htext
    obtain ⟨octets, hmem, rfl⟩ := mem_map.mp htext
    exact lengthOnLine_other (message.only octets (mem_append_left _ hmem))
  have hfolds : (message.folds.map fromUtf8Lossy).findSome? lengthOnLine = none := by
    rw [findSome?_eq_none_iff]
    intro text htext
    obtain ⟨octets, hmem, rfl⟩ := mem_map.mp htext
    exact lengthOnLine_folded (message.continued octets hmem)
  have hafter : (message.after.map fromUtf8Lossy).findSome? lengthOnLine = none := by
    rw [findSome?_eq_none_iff]
    intro text htext
    obtain ⟨octets, hmem, rfl⟩ := mem_map.mp htext
    exact lengthOnLine_other (message.only octets (mem_append_right _ hmem))
  have hempty : lengthOnLine [] = none := rfl
  rw [contentLength_eq, lines_wireHeader message.wireLine, lines]
  simp only [map_append, map_cons, findSome?_append, findSome?_cons, hbefore,
    hfolds, hafter, hempty, findSome?_nil, none_or]
  cases lengthOnLine (fromUtf8Lossy message.line) <;> rfl

/-- The field is read if it is plain, and else the message has no length for
`complete_frame_len`. -/
theorem lengthOnLine_line (hplain : message.Plain) :
    lengthOnLine (fromUtf8Lossy message.line) = some message.body.length := by
  rw [lengthOnLine_of_name message.isField, if_pos hplain.1]
  exact declared_on_first hplain.2 message.declared

theorem lengthOnLine_line_none (hplain : ¬ message.Plain) :
    lengthOnLine (fromUtf8Lossy message.line) = none := by
  rw [lengthOnLine_of_name message.isField]
  split_ifs with hname
  · have hvalue : trim message.value = [] := by
      by_contra hvalue
      exact hplain ⟨hname, hvalue⟩
    rw [hvalue]
    rfl
  · rfl

/-- The first message on the stream is given its own length if and only if its Content-Length is
plain, or it has no body. -/
theorem completeFrameLen_iff_plain (message : LengthMessage) (further : Bytes)
    (hsize : (message.wire ++ further).length ≤ usizeMax) :
    completeFrameLen (message.wire ++ further) = .ok (some message.wire.length) ↔
      message.Plain ∨ message.body = [] := by
  have hwire : message.wire ++ further =
      wireHeader message.lines ++ (message.body ++ further) := by
    rw [wire, wireMessage_eq, append_assoc]
  have hlength : message.wire.length =
      (wireHeader message.lines).length + message.body.length := by
    rw [wire, wireMessage_eq, length_append]
  have hfind : findHeaderEnd (message.wire ++ further) =
      some (wireHeader message.lines).length := by
    rw [wire, wireMessage_append]
    exact findHeaderEnd_wireMessage message.wireLine message.lines_ne_nil _
  have htake : (message.wire ++ further).take (wireHeader message.lines).length =
      wireHeader message.lines := by
    rw [hwire, take_left]
  have hfits : message.wire.length ≤ (message.wire ++ further).length := by simp
  rw [completeFrameLen, hfind]
  dsimp only
  rw [htake, contentLength_wireHeader]
  by_cases hplain : message.Plain
  · rw [message.lengthOnLine_line hplain, hlength]
    dsimp only
    rw [if_neg (by omega), if_pos (by omega)]
    exact iff_of_true rfl (.inl hplain)
  · rw [message.lengthOnLine_line_none hplain, hlength]
    dsimp only
    constructor
    · intro h
      injection h with h
      injection h with h
      exact .inr (length_eq_zero_iff.mp (by omega))
    · rintro (h | h)
      · exact absurd h hplain
      · rw [h]
        rfl

/-- A request with a field for the body `abc` in the given spelling. -/
def abc (field name value : String)
    (hline : WireLine (asBytes field.toList) ∧
      isFolded (fromUtf8Lossy (asBytes field.toList)) = false ∧
      splitOnce ':' (fromUtf8Lossy (asBytes field.toList)) = some (name.toList, value.toList))
    (hnamed : NamesLength name.toList)
    (hdeclared : parseUnsigned usizeMax (trim (trim value.toList)) = some 3) : LengthMessage where
  before := [asBytes "MESSAGE sip:ims SIP/2.0".toList]
  line := asBytes field.toList
  folds := []
  after := [asBytes "Subject: length".toList]
  body := asBytes "abc".toList
  name := name.toList
  value := value.toList
  isWire := forall_mem_cons.mpr ⟨by decide, forall_mem_cons.mpr ⟨hline.1, by decide⟩⟩
  unfolded := hline.2.1
  isField := hline.2.2
  named := hnamed
  continued := by simp
  finished := by decide
  only := by decide
  declared := hdeclared

/-- A plain Content-Length gives the message, and leaves the next one on the stream. -/
theorem completeFrameLen_iff_plain_abc : completeFrameLen
      ((abc "Content-Length: 3" "Content-Length" " 3" (by decide) (by decide) (by decide)).wire ++
        asBytes "SIP/2.0".toList) = .ok (some 66) :=
  (completeFrameLen_iff_plain
    (abc "Content-Length: 3" "Content-Length" " 3" (by decide) (by decide) (by decide)) _
      (by decide)).mpr (.inl ⟨by decide, by decide⟩)

/-- The compact form of the field is not seen, and the body is left on the stream. -/
theorem compact_cuts_header : ¬ ∀ (message : LengthMessage) (further : Bytes),
    (message.wire ++ further).length ≤ usizeMax →
      completeFrameLen (message.wire ++ further) = .ok (some message.wire.length) := by
  intro h
  have hcompact := h (abc "l: 3" "l" " 3" (by decide) (by decide) (by decide)) [] (by decide)
  revert hcompact
  decide +kernel

end LengthMessage

end SimMaster
