import SimMaster.DigestResponse
import SimMaster.RegisterFailure
import SimMaster.ResponseRoutes

/-!
# The Retry-After field

`parseRetryAfter` looks for the field in the lines up to the first empty one and reads its unfolded
value: a number of seconds, a comment, parameters. `retry_after_parsed` says of every frame what is
read from it, in terms of the grammar (`RetryAfterValue`).

The header section ends at the first CRLFCRLF of the frame, and only where there is none at the
first LFLF. So what stands after an LFLF may have a say (`retry_after_not_parsed`).
-/

namespace SimMaster.RetryAfterField

open Rust List
open Digest (isBlank)
open ResponseAuth (stripCr)
open SipStream (isTokenChar)

/-- Octets of the header section. -/
def maxHeadersBytes : ℕ := 32768
/-- Lines behind the status line. -/
def maxHeaders : ℕ := 128
/-- Octets of the unfolded value. -/
def maxValueBytes : ℕ := 1024
/-- Parameters behind the delay. -/
def maxParameters : ℕ := 16
/-- Comments inside each other. -/
def maxCommentDepth : ℕ := 4

/-! ## The value

The scanner stands before the characters it still has to read. -/

def whitespace (s : Str) : Str := s.dropWhile isBlank

/-- The number grows with every digit, so one check is enough. -/
def seconds (s : Str) : Except RetryAfterInvalid (ℕ × Str) :=
  let digits := s.takeWhile isAsciiDigit
  if u32Max < digitsValue digits then .error .overflow
  else if digits = [] then .error .syntaxError
  else .ok (digitsValue digits, s.dropWhile isAsciiDigit)

/-- The characters that may follow a backslash. -/
def isEscapable (c : Char) : Bool := c = '\t' || (0x20 ≤ c.toNat && c.toNat ≤ 0x7e)

/-- The characters that stand for themselves in comments and quoted strings. -/
def isText (c : Char) : Bool := isEscapable c || 0x80 ≤ c.toNat

/-- What is left after a comment or a quoted string in which `depth` levels are open. -/
def quoted (comment : Bool) : (depth : ℕ) → Str → Except RetryAfterInvalid Str
  | _, [] => .error .syntaxError
  | depth, c :: rest =>
    if c = '\\' then match rest with
      | [] => .error .syntaxError
      | escaped :: rest =>
        if isEscapable escaped then quoted comment depth rest else .error .syntaxError
    else if comment ∧ c = '(' then
      if maxCommentDepth < depth + 1 then .error .syntaxError else quoted comment (depth + 1) rest
    else if comment ∧
      c = ')' then if depth - 1 = 0 then .ok rest else quoted comment (depth - 1) rest
    else if comment = false ∧ c = '"' then .ok rest
    else if isText c then quoted comment depth rest
    else .error .syntaxError

/-- What is left after the value of a parameter. -/
def parameterValue (duration : Bool) (s : Str) : Except RetryAfterInvalid Str :=
  if duration then (seconds s).map Prod.snd
  else match s with
  | '"' :: rest => quoted false 1 rest
  | '[' :: rest =>
    let host := rest.takeWhile (· ≠ ']')
    match rest.dropWhile (· ≠ ']') with
    | [] => .error .syntaxError
    | _ :: rest => if isIpv6 host then .ok rest else .error .syntaxError
  | s => if s.takeWhile isTokenChar = [] then .error .syntaxError else .ok (s.dropWhile isTokenChar)

def isDuration (name : Str) : Bool := eqIgnoreAsciiCase name "duration".toList

/-- The loop over the parameters; there is `room` for so many more. -/
def parameterLoop : (room : ℕ) → (parameters : List Str) → Str → Except RetryAfterInvalid Str
  | room, parameters, ';' :: s =>
    let name := (whitespace s).takeWhile isTokenChar
    match room with
    | 0 => .error .syntaxError
    | room + 1 =>
      if name = [] ∨ parameters.any (eqIgnoreAsciiCase · name) then .error .syntaxError
      else match whitespace ((whitespace s).dropWhile isTokenChar) with
      | '=' :: s => do
        let s ← parameterValue (isDuration name) (whitespace s)
        parameterLoop room (parameters ++ [name]) (whitespace s)
      | s =>
        if isDuration name then .error .syntaxError else parameterLoop room (parameters ++ [name]) s
  | _, _, s => .ok s

/-- The delay, an optional comment, the parameters, and nothing behind. -/
def parse (value : Str) : Except RetryAfterInvalid ℕ := do
  let (seconds, s) ← seconds value
  let s ← match whitespace s with
    | '(' :: s => (quoted true 1 s).map whitespace
    | s => .ok s
  let s ← parameterLoop maxParameters [] s
  if s = [] then return seconds else throw .syntaxError

/-! ## The header section -/

def trimBlanks (s : Str) : Str := trimEndMatches isBlank (whitespace s)

/-- A folded line begins with a blank. -/
def isContinuation (line : Str) : Bool := line.head?.any isBlank

def isRetryAfter (name : Str) : Bool :=
  eqIgnoreAsciiCase (trimEndMatches isBlank name) "Retry-After".toList

/-- The loop over the lines: the value so far, and whether the field of the last line is its. -/
def headersLoop : (index : ℕ) → Option (Str × Bool) → List Str →
    Except RetryAfterInvalid (Option Str)
  | _, value, [] => .ok (value.map Prod.fst)
  | index, value, rawLine :: lines =>
    if maxHeaders ≤ index then .error .tooManyHeaders
    else
      let line := stripCr rawLine
      if '\r' ∈ line then .error .syntaxError
      else if line = [] then .ok (value.map Prod.fst)
      else if isContinuation line then match value with
        | some (text, true) =>
          if maxValueBytes < utf8Len text + 1 + utf8Len (trimBlanks line) then .error .valueTooLarge
          else headersLoop (index + 1) (some (text ++ ' ' :: trimBlanks line, true)) lines
        | value => headersLoop (index + 1) value lines
      else match splitOnce ':' line with
        | none => .error .syntaxError
        | some (name, field) =>
          if isRetryAfter name then
            if value.isSome then .error .duplicate
            else if maxValueBytes < utf8Len (trimBlanks field) then .error .valueTooLarge
            else headersLoop (index + 1) (some (trimBlanks field, true)) lines
          else headersLoop (index + 1) (value.map fun value => (value.1, false)) lines

/-- What is read from the lines. -/
def readLines (rawLines : List Str) : RetryAfter :=
  match headersLoop 0 none rawLines with
  | .error reason => .invalid reason
  | .ok none => .absent
  | .ok (some value) => match parse value with
    | .error reason => .invalid reason
    | .ok seconds => .delaySeconds (UInt32.ofNat seconds)

/-- Cut one octet behind the limit, so that a section too long is told from one without an end. -/
def parseRetryAfter (frame : Bytes) : RetryAfter :=
  let bounded := frame.take (maxHeadersBytes + 1)
  match findHeaderEnd bounded with
  | none => .invalid (if maxHeadersBytes < frame.length then .headersTooLarge else .syntaxError)
  | some headerEnd =>
    if maxHeadersBytes < headerEnd then .invalid .headersTooLarge
    else match fromUtf8 (bounded.take headerEnd) with
    | none => .invalid .syntaxError
    | some headers => readLines (splitBy (· = '\n') headers).tail

/-! ## The grammar -/

/-- The inside of a comment, or of a quoted string; comments may be nested `levels` deep. -/
inductive Inside (comment : Bool) : (levels : ℕ) → Str → Prop
  | nil {levels : ℕ} : Inside comment levels []
  | text {levels : ℕ} {c : Char} {s : Str} (hc : isText c = true)
      (hplain : c ≠ '\\' ∧ if comment then c ≠ '(' ∧ c ≠ ')' else c ≠ '"') (h :
        Inside comment levels s) :
      Inside comment levels (c :: s)
  | pair {levels : ℕ} {c : Char} {s : Str} (hc : isEscapable c = true) (h :
      Inside comment levels s) :
      Inside comment levels ('\\' :: c :: s)
  | nested {levels : ℕ} {inner s : Str} (hcomment : comment = true) (hinner :
      Inside comment levels inner)
      (h : Inside comment (levels + 1) s) : Inside comment (levels + 1) ('(' :: (inner ++ ')' :: s))

def Number (digits : Str) : Prop :=
  digits ≠ [] ∧ (∀ c ∈ digits, isAsciiDigit c = true) ∧ digitsValue digits ≤ u32Max

def Token (name : Str) : Prop := name ≠ [] ∧ ∀ c ∈ name, isTokenChar c = true

def Blank (s : Str) : Prop := ∀ c ∈ s, isBlank c = true

/-- `duration` takes a number, every other name one of the rest. -/
inductive ParameterValue : (duration : Bool) → Str → Prop
  | number {digits : Str} (h : Number digits) : ParameterValue true digits
  | token {value : Str} (h : Token value) : ParameterValue false value
  | quoted {inner : Str} (h : Inside false 0 inner) : ParameterValue false ('"' :: (inner ++ ['"']))
  | host {host : Str} (h : isIpv6 host = true) (hclose : ']' ∉ host) :
      ParameterValue false ('[' :: (host ++ [']']))

/-- A parameter with its name; that a duration has a value is all that is special about it. -/
inductive Parameter : (name : Str) → Str → Prop
  | plain {a name b : Str} (ha : Blank a) (hname : Token name) (hb : Blank b)
      (hduration : isDuration name = false) : Parameter name (';' :: (a ++ (name ++ b)))
  | valued {a name b c value d : Str} (ha : Blank a) (hname : Token name) (hb :
      Blank b) (hc : Blank c)
      (hvalue : ParameterValue (isDuration name) value) (hd : Blank d) :
      Parameter name (';' :: (a ++ (name ++ (b ++ '=' :: (c ++ (value ++ d))))))

/-- Parameters one after another, with their names. -/
inductive Parameters : (names : List Str) → Str → Prop
  | nil : Parameters [] []
  | cons {name text rest : Str} {names : List Str} (h : Parameter name text)
      (hrest : Parameters names rest) : Parameters (name :: names) (text ++ rest)

/-- Seconds, a comment and parameters. -/
def RetryAfterValue (n : ℕ) (value : Str) : Prop :=
  ∃ digits a comment text names, value = digits ++ (a ++ (comment ++ text)) ∧ Number digits ∧
    digitsValue digits = n ∧ Blank a ∧
    (comment = [] ∨ ∃ inner b, comment = '(' :: (inner ++ ')' :: b) ∧
      Inside true 3 inner ∧ Blank b) ∧
    Parameters names text ∧ names.length ≤ maxParameters ∧ (names.map toAsciiLowercase).Nodup

/-- The lines of a header section up to the first empty one. -/
def fieldLines (rawLines : List Str) : List Str := (rawLines.map stripCr).takeWhile (· ≠ [])

/-- The lines that are looked at, the empty one with them, are lines of header fields, and few. -/
structure WellFormed (index : ℕ) (rawLines : List Str) : Prop where
  few : ∀ i < rawLines.length, i ≤ (fieldLines rawLines).length → index + i < maxHeaders
  lines : ∀ line ∈ fieldLines rawLines, '\r' ∉ line ∧
  (isContinuation line = true ∨ (splitOnce ':' line).isSome)

/-- The Retry-After fields, each with its continuation lines. -/
def retryAfterFields : List Str → List (Str × List Str)
  | [] => []
  | line :: lines =>
    if isContinuation line then retryAfterFields lines
    else match splitOnce ':' line with
      | none => retryAfterFields lines
      | some (name, field) =>
        if isRetryAfter name then (field, lines.takeWhile isContinuation) :: retryAfterFields lines
        else retryAfterFields lines

/-- A value with its continuation lines. -/
def unfold (text : Str) (lines : List Str) : Str :=
  lines.foldl (fun text line => text ++ ' ' :: trimBlanks line) text

/-- What the lines say when `value` is known from the lines before. -/
def Says (lines : List Str) : Option (Str × Bool) → Option Str → Prop
  | none, none => retryAfterFields lines = []
  | none, some text => ∃ field continuations, retryAfterFields lines = [(field, continuations)] ∧
      text = unfold (trimBlanks field) continuations ∧ utf8Len text ≤ maxValueBytes
  | some _, none => False
  | some (before, current), some text => retryAfterFields lines = [] ∧
      text = unfold before (if current then lines.takeWhile isContinuation else []) ∧
      utf8Len text ≤ maxValueBytes

/-- The lines of the header section after the start line, where it is within its bound. -/
def headerSection (frame : Bytes) : Option (List Str) := do
  let headerEnd ← findHeaderEnd (frame.take (maxHeadersBytes + 1))
  if maxHeadersBytes < headerEnd then none
  else (fromUtf8 (frame.take headerEnd)).map fun headers => (splitBy (· = '\n') headers).tail

/-! ## The scanner and the grammar -/

section Span

variable {p : Char → Bool} {a rest : Str}

theorem span_append (ha : ∀ c ∈ a, p c = true) (hrest : ∀ c ∈ rest.head?, p c = false) :
    (a ++ rest).takeWhile p = a ∧ (a ++ rest).dropWhile p = rest := by
  rw [takeWhile_append_of_pos ha, dropWhile_append_of_pos ha]
  cases rest with
  | nil => exact ⟨append_nil _, rfl⟩
  | cons c rest =>
    have hc : ¬p c = true := by rw [hrest c rfl]; exact Bool.false_ne_true
    rw [takeWhile_cons_of_neg hc, dropWhile_cons_of_neg hc, append_nil]
    exact ⟨rfl, rfl⟩

theorem span_parts (s : Str) : s = s.takeWhile p ++ s.dropWhile p ∧
    (∀ c ∈ s.takeWhile p, p c = true) ∧
    ∀ c ∈ (s.dropWhile p).head?, p c = false := by
  refine ⟨takeWhile_append_dropWhile.symm, fun c hc => mem_takeWhile_imp hc, fun c hc => ?_⟩
  have := head?_dropWhile_not p s
  rw [hc] at this
  simpa using this

end Span

variable {a rest : Str}

theorem whitespace_append (ha : Blank a) (hrest : ∀ c ∈ rest.head?, isBlank c = false) :
    whitespace (a ++ rest) = rest :=
  (span_append ha hrest).2

theorem exists_blank (s : Str) : ∃ a, s = a ++ whitespace s ∧ Blank a :=
  ⟨_, (span_parts s).1, (span_parts s).2.1⟩

variable {c : Char}

/-- Digits and the marks between the parts. -/
theorem isTokenChar_of_digit (h : isAsciiDigit c = true) : isTokenChar c = true := by
  rw [isAsciiDigit] at h
  rw [isTokenChar, isAsciiAlphanumeric, h, Bool.or_true, Bool.true_or]

theorem isBlank_of_isTokenChar (h : isTokenChar c = true) : isBlank c = false := by
  refine Bool.eq_false_iff.mpr fun hblank => ?_
  rw [isBlank, Bool.or_eq_true, decide_eq_true_iff, decide_eq_true_iff] at hblank
  rcases hblank with rfl | rfl <;> exact absurd h (by decide)

theorem seconds_append {digits : Str} (h : Number digits)
    (hrest : ∀ c ∈ rest.head?, isAsciiDigit c = false) :
    seconds (digits ++ rest) = .ok (digitsValue digits, rest) := by
  obtain ⟨htake, hdrop⟩ := span_append h.2.1 hrest
  rw [seconds, htake, hdrop, if_neg (not_lt.mpr h.2.2), if_neg h.1]

variable {s rest : Str} {n : ℕ}

theorem seconds_eq_ok (h : seconds s = .ok (n, rest)) :
    ∃ digits, s = digits ++ rest ∧ Number digits ∧ digitsValue digits = n := by
  obtain ⟨hparts, hdigits, -⟩ := @span_parts isAsciiDigit s
  rw [seconds] at h
  split_ifs at h with hmax hne
  obtain ⟨rfl, rfl⟩ := Prod.mk.inj (Except.ok.inj h)
  exact ⟨_, hparts, ⟨hne, hdigits, not_lt.mp hmax⟩, rfl⟩

variable {comment : Bool} {depth : ℕ}

/-- The inside of a comment leaves the depth as it was. -/
theorem quoted_inside {levels : ℕ} {inner : Str}
    (h : Inside comment levels inner) (hdepth : 1 ≤ depth ∧ levels + depth ≤ maxCommentDepth)
    (rest : Str) : quoted comment depth (inner ++ rest) = quoted comment depth rest := by
  induction h generalizing depth rest with
  | nil => rfl
  | @text levels c s hc hplain h ih =>
    rw [cons_append, quoted.eq_def]
    dsimp only
    cases comment <;> simp_all
  | @pair levels c s hc h ih =>
    rw [cons_append, cons_append, quoted.eq_def]
    dsimp only
    rw [if_pos rfl, if_pos hc, ih hdepth]
  | @nested levels inner s hcomment hinner h ihinner ih =>
    have hopen : quoted comment depth ('(' :: (inner ++ ')' :: (s ++ rest))) =
        quoted comment (depth + 1) (inner ++ ')' :: (s ++ rest)) := by
      rw [quoted.eq_def]
      dsimp only
      rw [if_neg (by decide), if_pos ⟨hcomment, rfl⟩, if_neg (by omega)]
    have hclose : quoted comment (depth + 1) (')' :: (s ++ rest)) =
        quoted comment depth (s ++ rest) := by
      rw [quoted.eq_def]
      dsimp only
      rw [if_neg (by decide), if_neg (by simp), if_pos ⟨hcomment, rfl⟩, if_neg (by omega),
        Nat.add_sub_cancel]
    rw [cons_append, append_assoc, cons_append, hopen, ihinner (by omega), hclose, ih hdepth]

/-- What the scanner has read when it comes to the end of the level. -/
theorem quoted_eq_ok (h : quoted comment depth s = .ok rest)
    (hdepth : 1 ≤ depth ∧ depth ≤ maxCommentDepth) (hcomment : comment = false → depth = 1) :
    ∃ inner after, s = inner ++ (if comment then ')' else '"') :: after ∧
      Inside comment (maxCommentDepth - depth) inner ∧
      if depth = 1 then after = rest else quoted comment (depth - 1) after = .ok rest := by
  induction hlength : s.length using Nat.strong_induction_on generalizing s depth with
  | _ size ih =>
    subst hlength
    -- a character that stays inside, and what comes after it
    have hkeep : ∀ {front tail : Str}, s = front ++ tail → front ≠ [] →
        quoted comment depth tail = .ok rest →
        (∀ inner, Inside comment (maxCommentDepth - depth) inner →
          Inside comment (maxCommentDepth - depth) (front ++ inner)) →
        ∃ inner after, s = inner ++ (if comment then ')' else '"') :: after ∧
          Inside comment (maxCommentDepth - depth) inner ∧
          if depth = 1 then after = rest else quoted comment (depth - 1) after = .ok rest := by
      rintro front tail rfl hfront htail hinside
      have hpos := length_pos_iff.mpr hfront
      obtain ⟨inner, after, rfl, hinner, hafter⟩ :=
        ih tail.length (by rw [length_append]; omega) htail hdepth hcomment rfl
      exact ⟨front ++ inner, after, by rw [append_assoc], hinside inner hinner, hafter⟩
    cases s with
    | nil => cases h
    | cons c s =>
      rw [quoted.eq_def] at h
      dsimp only at h
      split_ifs at h with hpair hopen hdeep hclose hlast hquote htext
      · cases s with
        | nil => cases h
        | cons escaped s =>
          dsimp only at h
          split_ifs at h with hescapable
          obtain rfl := hpair
          exact @hkeep ['\\', escaped] s rfl (cons_ne_nil _ _) h fun inner => .pair hescapable
      · -- a level more: first to its end, then on
        obtain ⟨rfl, rfl⟩ := hopen
        obtain ⟨inner, after, rfl, hinner, hafter⟩ :=
          ih s.length (Nat.lt_succ_self _) h (by omega) nofun rfl
        rw [if_neg (by omega), Nat.add_sub_cancel] at hafter
        refine @hkeep ('(' :: (inner ++ [')'])) after (by simp) (cons_ne_nil _ _) hafter
          fun tail htail => ?_
        have hlevels : maxCommentDepth - depth = maxCommentDepth - (depth + 1) + 1 := by omega
        rw [hlevels] at htail ⊢
        simpa using Inside.nested rfl hinner htail
      · obtain ⟨rfl, rfl⟩ := hclose
        exact ⟨[], s, rfl, .nil, by rw [if_pos (by omega)]; exact Except.ok.inj h⟩
      · obtain ⟨rfl, rfl⟩ := hclose
        exact ⟨[], s, rfl, .nil, by rwa [if_neg (by omega)]⟩
      · obtain ⟨rfl, rfl⟩ := hquote
        exact ⟨[], s, rfl, .nil, by rw [if_pos (hcomment rfl)]; exact Except.ok.inj h⟩
      · refine @hkeep [c] s rfl (cons_ne_nil _ _) h fun inner hinner =>
          .text htext ⟨hpair, ?_⟩ hinner
        cases comment <;> simp_all

/-- What comes next is no part of a token. -/
def Stops (rest : Str) : Prop := ∀ c ∈ rest.head?, isTokenChar c = false

theorem stops_append (ha : Blank a) (h : Stops rest) : Stops (a ++ rest) := by
  cases a with
  | nil => exact h
  | cons c a =>
    rintro d hd
    obtain rfl := Option.some.inj hd
    refine Bool.eq_false_iff.mpr fun htoken => ?_
    exact absurd (ha c mem_cons_self)
      (by rw [isBlank_of_isTokenChar htoken]; exact Bool.false_ne_true)

theorem stops_cons (rest : Str) (h : isTokenChar c = false) : Stops (c :: rest) := by
  rintro d hd
  obtain rfl := Option.some.inj hd
  exact h

variable {duration : Bool} {value : Str}

/-- The reader accepts a value of the grammar where it must stop behind it. -/
theorem parameterValue_append (h : ParameterValue duration value)
    (hrest : Stops rest) : parameterValue duration (value ++ rest) = .ok rest := by
  rw [parameterValue.eq_def]
  cases h with
  | number h =>
    rw [if_pos rfl, seconds_append h fun c hc => ?_]
    · rfl
    · exact Bool.eq_false_iff.mpr fun hdigit =>
        absurd (isTokenChar_of_digit hdigit) (by rw [hrest c hc]; exact Bool.false_ne_true)
  | token h =>
    rw [if_neg Bool.false_ne_true]
    obtain ⟨htake, hdrop⟩ := span_append h.2 hrest
    split
    case h_1 after heq | h_2 after heq =>
      -- a token begins with neither of the marks
      obtain ⟨c, value, rfl⟩ := exists_cons_of_ne_nil h.1
      obtain rfl := (cons.inj heq).1
      exact absurd (h.2 _ mem_cons_self) (by decide)
    case h_3 => rw [htake, hdrop, if_neg h.1]
  | @quoted inner h =>
    rw [if_neg Bool.false_ne_true, cons_append, append_assoc]
    change quoted false 1 (inner ++ '"' :: rest) = .ok rest
    rw [quoted_inside h (by decide), quoted.eq_def]
    rfl
  | @host host h hclose =>
    rw [if_neg Bool.false_ne_true, cons_append, append_assoc, singleton_append]
    obtain ⟨htake, hdrop⟩ := @span_append (fun c => decide (c ≠ ']')) host (']' :: rest)
      (fun c hc => decide_eq_true fun heq => hclose (heq ▸ hc)) (by simp)
    split
    case h_1 after heq => exact absurd (cons.inj heq).1 (by decide)
    case h_2 after heq =>
      obtain rfl := (cons.inj heq).2
      rw [htake, hdrop]
      exact if_pos h
    case h_3 hbracket => exact absurd rfl (hbracket _)

theorem parameterValue_eq_ok
    (h : parameterValue duration s = .ok rest) : ∃ value, s = value ++ rest ∧
      ParameterValue duration value := by
  rw [parameterValue.eq_def] at h
  cases duration with
  | true =>
    cases hseconds : seconds s with
    | error reason => rw [hseconds] at h; cases h
    | ok result =>
      rw [hseconds] at h
      obtain rfl := Except.ok.inj h
      obtain ⟨digits, hs, hdigits, -⟩ := seconds_eq_ok hseconds
      exact ⟨digits, hs, .number hdigits⟩
  | false =>
    rw [if_neg Bool.false_ne_true] at h
    split at h
    case h_1 after =>
      obtain ⟨inner, rest', rfl, hinner, hrest⟩ := quoted_eq_ok h (by decide) fun _ => rfl
      obtain rfl : rest' = rest := by simpa using hrest
      refine ⟨'"' :: (inner ++ ['"']), by simp, .quoted ?_⟩
      -- nothing is nested in a quoted string
      clear h hrest
      generalize maxCommentDepth - 1 = levels at hinner
      induction hinner with
      | nil => exact .nil
      | text hc hplain _ ih => exact .text hc hplain ih
      | pair hc _ ih => exact .pair hc ih
      | nested hcomment => cases hcomment
    case h_2 after =>
      obtain ⟨hparts, hbefore, hnext⟩ := @span_parts (fun c => decide (c ≠ ']')) after
      dsimp only at h
      split at h
      case h_1 => cases h
      case h_2 c rest' hdrop =>
        split_ifs at h with hhost
        obtain rfl := Except.ok.inj h
        rw [hdrop] at hparts hnext
        obtain rfl : c = ']' := by simpa using hnext c rfl
        refine ⟨_, ?_, .host hhost fun hmem => absurd (hbefore _ hmem) (by simp)⟩
        rw [cons_append, append_assoc, singleton_append, ← hparts]
    case h_3 =>
      obtain ⟨hparts, htoken, -⟩ := @span_parts isTokenChar s
      split_ifs at h with hne
      obtain rfl := Except.ok.inj h
      exact ⟨_, hparts, .token ⟨hne, htoken⟩⟩

variable {parameters : List Str} {name : Str}

theorem any_eq_false : (¬parameters.any (eqIgnoreAsciiCase · name) = true) ↔
      toAsciiLowercase name ∉ parameters.map toAsciiLowercase := by
  rw [any_eq_true, mem_map, not_iff_not]
  exact exists_congr fun parameter => and_congr_right fun _ => beq_iff_eq

variable {after : Str}

theorem head_of_token (hname : Token name) : ∀ c ∈ (name ++ after).head?, isBlank c = false := by
  intro c hc
  obtain ⟨d, name, rfl⟩ := exists_cons_of_ne_nil hname.1
  obtain rfl := Option.some.inj hc
  exact isBlank_of_isTokenChar (hname.2 _ mem_cons_self)

theorem head_of_value (h : ParameterValue duration value) :
    ∀ c ∈ (value ++ after).head?, isBlank c = false := by
  cases h with
  | number h => exact head_of_token ⟨h.1, fun c hc => isTokenChar_of_digit (h.2.1 c hc)⟩
  | token h => exact head_of_token h
  | quoted | host =>
    rintro c hc
    obtain rfl := Option.some.inj hc
    decide

variable {text : Str} {room : ℕ}

/-- What a parameter leaves to the others. -/
theorem parameterLoop_parameter (h : Parameter name text) (hrest : ∀ c ∈ rest.head?, c = ';')
    (hnew : toAsciiLowercase name ∉ parameters.map toAsciiLowercase) :
    parameterLoop (room + 1) parameters (text ++ rest) =
      parameterLoop room (parameters ++ [name]) rest := by
  have hstops : Stops rest := fun c hc => by rw [hrest c hc]; decide
  have hblank : ∀ c ∈ rest.head?, isBlank c = false := fun c hc => by rw [hrest c hc]; decide
  rw [parameterLoop.eq_def]
  cases h with
  | plain ha hname hb hduration =>
    simp only [cons_append, append_assoc]
    rw [whitespace_append ha (head_of_token hname),
      (span_append hname.2 (stops_append hb hstops)).1,
      (span_append hname.2 (stops_append hb hstops)).2, whitespace_append hb hblank,
      if_neg (not_or.mpr ⟨hname.1, any_eq_false.mpr hnew⟩)]
    split
    case h_1 => exact absurd (hrest _ rfl) (by decide)
    case h_2 => rw [hduration, if_neg Bool.false_ne_true]
  | @valued a _ b c value d ha hname hb hc hvalue hd =>
    have hmark := stops_append hb
      (stops_cons (c ++ (value ++ (d ++ rest))) (by decide : isTokenChar '=' = false))
    simp only [cons_append, append_assoc]
    rw [whitespace_append ha (head_of_token hname), (span_append hname.2 hmark).1,
      (span_append hname.2 hmark).2, whitespace_append hb (by simp; decide),
      if_neg (not_or.mpr ⟨hname.1, any_eq_false.mpr hnew⟩)]
    split
    case h_2 hmark => exact absurd rfl (hmark _)
    case h_1 after heq =>
      obtain rfl := (cons.inj heq).2
      rw [whitespace_append hc (head_of_value hvalue),
        parameterValue_append hvalue (stops_append hd hstops), ok_bind, whitespace_append hd hblank]

theorem head_of_parameters {names : List Str} (h : Parameters names text) :
    ∀ c ∈ text.head?, c = ';' := by
  cases h with
  | nil => nofun
  | cons h _ => cases h <;> rintro c hc <;> exact (Option.some.inj hc).symm

/-- The loop accepts parameters with different names, as many as there is room for. -/
theorem parameterLoop_append {names parameters : List Str} {text : Str} {room : ℕ}
    (h : Parameters names text) (hroom : names.length ≤ room)
    (hnodup : ((parameters ++ names).map toAsciiLowercase).Nodup) :
    parameterLoop room parameters text = .ok [] := by
  induction h generalizing parameters room with
  | nil => cases room <;> rfl
  | @cons name text rest names h hrest ih =>
    obtain ⟨room, rfl⟩ := Nat.exists_eq_add_of_le' (Nat.one_le_of_lt hroom)
    rw [append_cons] at hnodup
    have hnew : toAsciiLowercase name ∉ parameters.map toAsciiLowercase := by
      rw [append_assoc, map_append] at hnodup
      exact fun hmem => (nodup_append.mp hnodup).2.2 _ hmem _ mem_cons_self rfl
    rw [parameterLoop_parameter h (head_of_parameters hrest) hnew,
      ih (Nat.le_of_succ_le_succ hroom) hnodup]

/-- What it accepts to the end are such parameters. -/
theorem parameterLoop_eq_ok
    (h : parameterLoop room parameters s = .ok [])
    (hnodup : (parameters.map toAsciiLowercase).Nodup) :
    ∃ names, Parameters names s ∧ names.length ≤ room ∧
      ((parameters ++ names).map toAsciiLowercase).Nodup := by
  induction room generalizing parameters s with
  | zero =>
    rw [parameterLoop.eq_def] at h
    split at h
    case h_1 => cases h
    case h_2 =>
      obtain rfl := Except.ok.inj h
      exact ⟨[], .nil, le_refl _, by rwa [append_nil]⟩
  | succ room ih =>
    rw [parameterLoop.eq_def] at h
    split at h
    case h_2 =>
      obtain rfl := Except.ok.inj h
      exact ⟨[], .nil, Nat.zero_le _, by rwa [append_nil]⟩
    case h_1 parameters _ _ _ s =>
      obtain ⟨a, hs, ha⟩ := exists_blank s
      obtain ⟨hparts, hname, -⟩ := @span_parts isTokenChar (whitespace s)
      generalize (whitespace s).takeWhile isTokenChar = name at h hparts hname
      obtain ⟨b, hafter, hb⟩ := exists_blank ((whitespace s).dropWhile isTokenChar)
      generalize (whitespace s).dropWhile isTokenChar = after at h hparts hafter
      dsimp only at h
      split at h
      case isTrue => cases h
      case isFalse hvalid =>
        obtain ⟨hne, hnew⟩ := not_or.mp hvalid
        -- what the other parameters are
        have hothers : ∀ {text rest : Str}, Parameter name text →
            parameterLoop room (parameters ++ [name]) rest = .ok [] → ∃ names,
              Parameters names (text ++ rest) ∧ names.length ≤ room + 1 ∧
                ((parameters ++ names).map toAsciiLowercase).Nodup := by
          intro text rest hparameter hrest
          obtain ⟨names, hnames, hlength, hnodup⟩ := ih hrest (by
            rw [map_append, map_singleton]
            exact hnodup.append (nodup_singleton _)
              (disjoint_singleton.mpr (any_eq_false.mp hnew)))
          rw [← append_cons] at hnodup
          exact ⟨name :: names, .cons hparameter hnames, Nat.succ_le_succ hlength, hnodup⟩
        split at h
        case h_1 value hvalue =>
          obtain ⟨rest, hrest, h⟩ := bind_eq_ok.mp h
          obtain ⟨c, hc, hcblank⟩ := exists_blank value
          obtain ⟨text, htext, hparameter⟩ := parameterValue_eq_ok hrest
          obtain ⟨d, hd, hdblank⟩ := exists_blank rest
          have hall := hothers (.valued ha ⟨hne, hname⟩ hb hcblank hparameter hdblank) h
          rw [hs, hparts, hafter, hvalue, hc, htext, hd]
          simpa only [append_assoc, cons_append] using hall
        case h_2 =>
          split_ifs at h with hduration
          have hall := hothers (.plain ha ⟨hne, hname⟩ hb (Bool.eq_false_iff.mpr hduration)) h
          rw [hs, hparts, hafter]
          simpa only [append_assoc, cons_append] using hall

/-- The scanner accepts the grammar, and reads its number. -/
theorem parse_eq_ok_iff : parse value = .ok n ↔ RetryAfterValue n value := by
  have hloop : ∀ {m : ℕ} {s : Str}, (parameterLoop maxParameters [] s >>= fun s =>
      if s = [] then pure m else throw RetryAfterInvalid.syntaxError) = .ok n →
      m = n ∧ ∃ names, Parameters names s ∧ names.length ≤ maxParameters ∧
        (names.map toAsciiLowercase).Nodup := by
    intro m s h
    obtain ⟨rest, hrest, h⟩ := bind_eq_ok.mp h
    split_ifs at h with hnil
    subst hnil
    exact ⟨Except.ok.inj h, parameterLoop_eq_ok hrest nodup_nil⟩
  constructor
  · intro h
    obtain ⟨⟨m, after⟩, hseconds, h⟩ := bind_eq_ok.mp h
    obtain ⟨digits, rfl, hdigits, rfl⟩ := seconds_eq_ok hseconds
    obtain ⟨a, hafter, ha⟩ := exists_blank after
    dsimp only at h
    split at h
    case h_1 s hs =>
      obtain ⟨rest, hrest, h⟩ := bind_eq_ok.mp h
      cases hquoted : quoted true 1 s with
      | error reason => rw [hquoted] at hrest; cases hrest
      | ok s' =>
        rw [hquoted] at hrest
        obtain rfl := Except.ok.inj hrest
        obtain ⟨inner, s'', rfl, hinner, hend⟩ := quoted_eq_ok hquoted (by decide) nofun
        obtain rfl : s'' = s' := by simpa using hend
        obtain ⟨b, hb, hblank⟩ := exists_blank s''
        obtain ⟨hvalue, names, hnames, hroom, hnodup⟩ := hloop h
        refine ⟨digits, a, '(' :: (inner ++ ')' :: b), whitespace s'', names, ?_,
          hdigits, hvalue, ha, Or.inr ⟨inner, b, rfl, hinner, hblank⟩, hnames, hroom, hnodup⟩
        rw [hafter, hs]
        conv_lhs => rw [hb]
        simp
    case h_2 =>
      obtain ⟨hvalue, names, hnames, hroom, hnodup⟩ := hloop h
      exact ⟨digits, a, [], whitespace after,
        names, by rw [nil_append, ← hafter], hdigits, hvalue, ha, Or.inl rfl, hnames, hroom, hnodup⟩
  · rintro ⟨digits, a, comment, text, names, rfl, hdigits, rfl, ha, hcomment, hnames, hroom, hnodup⟩
    have hhead := head_of_parameters hnames
    have hparameters := @parameterLoop_append names [] text maxParameters hnames hroom hnodup
    have hstart : ∀ c ∈ (comment ++ text).head?, c = '(' ∨ c = ';' := by
      rcases hcomment with rfl | ⟨inner, b, rfl, -, -⟩
      · exact fun c hc => Or.inr (hhead c hc)
      · exact fun c hc => Or.inl (Option.some.inj hc).symm
    have hdigit : ∀ c ∈ (a ++ (comment ++ text)).head?, isAsciiDigit c = false := by
      cases a with
      | nil => exact fun c hc => by rcases hstart c hc with rfl | rfl <;> decide
      | cons d a =>
        rintro c hc
        obtain rfl := Option.some.inj hc
        have hblank := ha d mem_cons_self
        rw [isBlank, Bool.or_eq_true, decide_eq_true_iff, decide_eq_true_iff] at hblank
        rcases hblank with rfl | rfl <;> decide
    rw [parse, seconds_append hdigits hdigit, ok_bind]
    dsimp only
    rw [whitespace_append ha fun c hc => by rcases hstart c hc with rfl | rfl <;> decide]
    rcases hcomment with rfl | ⟨inner, b, rfl, hinner, hb⟩
    · rw [nil_append]
      split
      case h_1 => exact absurd (hhead _ rfl) (by decide)
      case h_2 => rw [ok_bind, hparameters]; rfl
    · rw [cons_append, append_assoc, cons_append]
      change (Except.map whitespace (quoted true 1 (inner ++ ')' :: (b ++ text))) >>= _) = _
      rw [quoted_inside hinner (by decide)]
      have hclose : quoted true 1 (')' :: (b ++ text)) = .ok (b ++ text) := by
        rw [quoted.eq_def]
        rfl
      rw [hclose]
      change (parameterLoop maxParameters [] (whitespace (b ++ text)) >>= _) = _
      rw [whitespace_append hb fun c hc => by rw [hhead c hc]; decide, hparameters]
      rfl

/-! ## The lines -/

theorem utf8Len_unfold (text : Str) (lines : List Str) :
    utf8Len text ≤ utf8Len (unfold text lines) := by
  induction lines generalizing text with
  | nil => exact le_refl _
  | cons line lines ih =>
    refine le_trans ?_ (ih _)
    rw [utf8Len, utf8Len, map_append, sum_append]
    exact Nat.le_add_right _ _

theorem utf8Len_continued (text line : Str) :
    utf8Len (text ++ ' ' :: line) = utf8Len text + 1 + utf8Len line := by
  simp only [utf8Len, map_append, map_cons, sum_append, sum_cons]
  rw [show ' '.utf8Size = 1 by decide]
  omega

variable {index : ℕ} {rawLines : List Str}

theorem wellFormed_cons {rawLine : Str} (h : stripCr rawLine ≠ []) :
    WellFormed index (rawLine :: rawLines) ↔ index < maxHeaders ∧ '\r' ∉ stripCr rawLine ∧
      (isContinuation (stripCr rawLine) = true ∨ (splitOnce ':' (stripCr rawLine)).isSome) ∧
      WellFormed (index + 1) rawLines := by
  have hlines : fieldLines (rawLine :: rawLines) = stripCr rawLine :: fieldLines rawLines :=
    takeWhile_cons_of_pos (by simpa using h)
  constructor
  · rintro ⟨hfew, hall⟩
    rw [hlines] at hfew hall
    obtain ⟨⟨hcr, hkind⟩, hothers⟩ := forall_mem_cons.mp hall
    refine ⟨hfew 0 (Nat.succ_pos _) (Nat.zero_le _), hcr, hkind, fun i hi hle => ?_, hothers⟩
    have := hfew (i + 1) (Nat.succ_lt_succ hi) (Nat.succ_le_succ hle)
    omega
  · rintro ⟨hindex, hcr, hkind, hfew, hothers⟩
    refine ⟨fun i hi hle => ?_, by rw [hlines]; exact forall_mem_cons.mpr ⟨⟨hcr, hkind⟩, hothers⟩⟩
    rw [hlines] at hle
    cases i with
    | zero => exact hindex
    | succ i =>
      have := hfew i (Nat.lt_of_succ_lt_succ hi) (Nat.le_of_succ_le_succ hle)
      omega

/-- Nothing more is read. -/
theorem ok_iff_says {value : Option (Str × Bool)} {result : Option Str}
    (hvalue : ∀ v ∈ value, utf8Len v.1 ≤ maxValueBytes) (hlines : fieldLines rawLines = [])
    (hformed : WellFormed index rawLines) :
    (Except.ok (value.map Prod.fst) : Except RetryAfterInvalid (Option Str)) = .ok result ↔
      WellFormed index rawLines ∧ Says (fieldLines rawLines) value result := by
  rw [hlines, Except.ok.injEq, and_iff_right hformed]
  rcases value with _ | ⟨text, current⟩ <;> rcases result with _ | after
  · exact iff_of_true rfl rfl
  · exact iff_of_false nofun fun ⟨field, continuations, h, _⟩ => by cases h
  · exact iff_of_false nofun id
  · have hunfold :
        unfold text (if current then ([] : List Str).takeWhile isContinuation else []) = text := by
      cases current <;> rfl
    have hsize := hvalue _ rfl
    simp only [Says, hunfold, Option.map_some, Option.some.injEq, retryAfterFields, true_and]
    exact ⟨fun h => ⟨h.symm, h ▸ hsize⟩, fun h => h.1.symm⟩

/-- The loop ends iff the lines are well formed and say, behind the value so far, what it returns.
-/
theorem headersLoop_eq_ok_iff {index : ℕ} {value : Option (Str × Bool)} {rawLines : List Str}
    {result : Option Str} (hvalue : ∀ v ∈ value, utf8Len v.1 ≤ maxValueBytes) :
    headersLoop index value rawLines = .ok result ↔
      WellFormed index rawLines ∧ Says (fieldLines rawLines) value result := by
  induction rawLines generalizing index value with
  | nil =>
    exact ok_iff_says hvalue rfl ⟨fun i hi => absurd hi (Nat.not_lt_zero i), forall_mem_nil _⟩
  | cons rawLine rawLines ih =>
    have hrefused : ∀ {reason : RetryAfterInvalid} {P : Prop}, ¬P →
        ((Except.error reason : Except RetryAfterInvalid (Option Str)) = .ok result ↔ P) :=
      fun hP => iff_of_false nofun hP
    rw [headersLoop.eq_def]
    dsimp only
    by_cases hindex : maxHeaders ≤ index
    · rw [if_pos hindex]
      exact hrefused fun h =>
        absurd (h.1.few 0 (Nat.succ_pos _) (Nat.zero_le _)) (not_lt.mpr hindex)
    rw [if_neg hindex]
    by_cases hempty : stripCr rawLine = []
    · have hlines : fieldLines (rawLine :: rawLines) = [] :=
        takeWhile_cons_of_neg (by simpa using hempty)
      rw [hempty, if_neg not_mem_nil, if_pos rfl]
      refine ok_iff_says hvalue hlines ⟨fun i _ hi => ?_, by rw [hlines]; exact forall_mem_nil _⟩
      rw [hlines] at hi
      exact Nat.le_zero.mp hi ▸ not_le.mp hindex
    have hlines : fieldLines (rawLine :: rawLines) = stripCr rawLine :: fieldLines rawLines :=
      takeWhile_cons_of_pos (by simpa using hempty)
    rw [wellFormed_cons hempty, hlines]
    generalize stripCr rawLine = line at hempty ⊢
    by_cases hcr : '\r' ∈ line
    · rw [if_pos hcr]
      exact hrefused fun h => h.1.2.1 hcr
    rw [if_neg hcr, if_neg hempty, and_iff_right (not_le.mp hindex), and_iff_right hcr]
    by_cases hcontinued : isContinuation line = true
    · rw [if_pos hcontinued, and_iff_right (Or.inl hcontinued)]
      have hfields : retryAfterFields (line :: fieldLines rawLines) =
          retryAfterFields (fieldLines rawLines) := if_pos hcontinued
      rcases value with _ | ⟨text, _ | _⟩
      · dsimp only
        rw [ih hvalue]
        cases result <;> simp only [Says, hfields]
      · dsimp only
        rw [ih hvalue]
        cases result <;> simp only [Says, hfields, Bool.false_eq_true, if_false]
      · -- the line belongs to the value
        have hunfold : unfold text ((line :: fieldLines rawLines).takeWhile isContinuation) =
            unfold (text ++ ' ' :: trimBlanks line)
              ((fieldLines rawLines).takeWhile isContinuation) := by
          rw [takeWhile_cons_of_pos hcontinued]
          rfl
        dsimp only
        rw [← utf8Len_continued]
        by_cases hsize : maxValueBytes < utf8Len (text ++ ' ' :: trimBlanks line)
        · rw [if_pos hsize]
          refine hrefused fun h => ?_
          cases result with
          | none => exact h.2
          | some after =>
            obtain ⟨-, -, rfl, hfits⟩ := h
            rw [if_pos rfl, hunfold] at hfits
            exact absurd (hsize.trans_le ((utf8Len_unfold _ _).trans hfits)) (lt_irrefl _)
        · rw [if_neg hsize, ih (by simpa using not_lt.mp hsize)]
          cases result <;> simp only [Says, hfields, if_true, hunfold]
    · rw [if_neg hcontinued]
      cases hsplit : splitOnce ':' line with
      | none => exact hrefused fun h => by simpa [hcontinued] using h.1.1
      | some field =>
        rw [and_iff_right (Or.inr (Option.isSome_some))]
        have hfields : retryAfterFields (line :: fieldLines rawLines) =
            if isRetryAfter field.1 then (field.2,
              (fieldLines rawLines).takeWhile isContinuation) ::
              retryAfterFields (fieldLines rawLines) else retryAfterFields
                (fieldLines rawLines) := by
          rw [retryAfterFields, if_neg hcontinued, hsplit]
        have hstops : (line :: fieldLines rawLines).takeWhile isContinuation = [] :=
          takeWhile_cons_of_neg hcontinued
        dsimp only
        by_cases hname : isRetryAfter field.1 = true
        · rw [if_pos hname] at hfields ⊢
          rcases value with _ | ⟨text, current⟩
          · rw [if_neg (by simp)]
            by_cases hsize : maxValueBytes < utf8Len (trimBlanks field.2)
            · rw [if_pos hsize]
              refine hrefused fun h => ?_
              cases result with
              | none => exact absurd h.2 (by rw [Says, hfields]; exact cons_ne_nil _ _)
              | some after =>
                obtain ⟨-, value, continuations, hone, rfl, hfits⟩ := h
                rw [hfields] at hone
                obtain ⟨rfl, rfl⟩ := Prod.mk.inj (cons.inj hone).1
                exact absurd (hsize.trans_le ((utf8Len_unfold _ _).trans hfits)) (lt_irrefl _)
            · rw [if_neg hsize, ih (by simpa using not_lt.mp hsize)]
              cases result with
              | none => simp [Says, hfields]
              | some after =>
                simp only [Says, hfields, if_true, cons.injEq, Prod.mk.injEq]
                refine and_congr_right fun _ => ⟨fun ⟨hnone, hafter, hfits⟩ =>
                  ⟨_, _, ⟨⟨rfl, rfl⟩, hnone⟩, hafter, hfits⟩, ?_⟩
                rintro ⟨_, _, ⟨⟨rfl, rfl⟩, hnone⟩, hafter, hfits⟩
                exact ⟨hnone, hafter, hfits⟩
          · rw [Option.isSome_some, if_pos rfl]
            refine hrefused fun h => ?_
            cases result with
            | none => exact h.2
            | some after => exact absurd h.2.1 (by rw [hfields]; exact cons_ne_nil _ _)
        · rw [if_neg hname] at hfields ⊢
          have hkept : ∀ v ∈ value.map fun value => (value.1, false),
              utf8Len v.1 ≤ maxValueBytes := by
            rintro v hv
            obtain ⟨w, hw, rfl⟩ := Option.map_eq_some_iff.mp hv
            exact hvalue w hw
          rw [ih hkept]
          rcases value with _ | ⟨text, _ | _⟩ <;> cases result <;>
            simp [Says, hfields, hstops]

/-! ## The frame -/

theorem parseRetryAfter_eq (frame : Bytes) :
    (∃ reason, headerSection frame = none ∧ parseRetryAfter frame = .invalid reason) ∨
      ∃ rawLines, headerSection frame = some rawLines ∧
      parseRetryAfter frame = readLines rawLines := by
  rw [headerSection, parseRetryAfter]
  cases hend : findHeaderEnd (frame.take (maxHeadersBytes + 1)) with
  | none => exact Or.inl ⟨_, rfl, rfl⟩
  | some headerEnd =>
    dsimp only [Option.bind_eq_bind, Option.bind_some]
    by_cases hlarge : maxHeadersBytes < headerEnd
    · rw [if_pos hlarge, if_pos hlarge]
      exact Or.inl ⟨_, rfl, rfl⟩
    · rw [if_neg hlarge, if_neg hlarge, take_take, Nat.min_eq_left (by omega)]
      cases fromUtf8 (frame.take headerEnd) with
      | none => exact Or.inl ⟨_, rfl, rfl⟩
      | some headers => exact Or.inr ⟨_, rfl, rfl⟩

/-- `Absent` is well-formed lines without the field. -/
theorem readLines_eq_absent : readLines rawLines = .absent ↔
    WellFormed 0 rawLines ∧ retryAfterFields (fieldLines rawLines) = [] := by
  have hnone := @headersLoop_eq_ok_iff 0 none rawLines none nofun
  rw [Says] at hnone
  rw [← hnone, readLines]
  cases headersLoop 0 none rawLines with
  | error reason => simp
  | ok result =>
    cases result with
    | none => simp
    | some value => cases h : parse value <;> simp [h]

/-- `DelaySeconds` is well-formed lines with one such field, its value in the grammar. -/
theorem readLines_eq_delaySeconds {n : UInt32} :
    readLines rawLines = .delaySeconds n ↔ ∃ field continuations, WellFormed 0 rawLines ∧
      retryAfterFields (fieldLines rawLines) = [(field, continuations)] ∧
      utf8Len (unfold (trimBlanks field) continuations) ≤ maxValueBytes ∧
      RetryAfterValue n.toNat (unfold (trimBlanks field) continuations) := by
  have hsome := fun text => @headersLoop_eq_ok_iff 0 none rawLines (some text) nofun
  have hread : readLines rawLines = .delaySeconds n ↔
      ∃ text, headersLoop 0 none rawLines = .ok (some text) ∧ parse text = .ok n.toNat := by
    rw [readLines]
    cases headersLoop 0 none rawLines with
    | error reason => simp
    | ok result =>
      cases result with
      | none => simp
      | some value =>
        cases hparse : parse value with
        | error reason => simp [hparse]
        | ok m =>
          obtain ⟨digits, -, -, -, -, -, hdigits, rfl, -⟩ := parse_eq_ok_iff.mp hparse
          have hbound : digitsValue digits < 2 ^ 32 := Nat.lt_of_le_pred (by decide) hdigits.2.2
          simp only [Except.ok.injEq, Option.some.injEq, exists_eq_left', hparse]
          constructor
          · rintro h
            rw [← RetryAfter.delaySeconds.inj h]
            exact (Nat.mod_eq_of_lt hbound).symm
          · intro h
            rw [h, UInt32.ofNat_toNat]
  rw [hread]
  simp only [hsome, Says, parse_eq_ok_iff]
  constructor
  · rintro ⟨_, ⟨hformed, field, continuations, hfields, rfl, hsize⟩, hvalue⟩
    exact ⟨field, continuations, hformed, hfields, hsize, hvalue⟩
  · rintro ⟨field, continuations, hformed, hfields, hsize, hvalue⟩
    exact ⟨_, ⟨hformed, field, continuations, hfields, rfl, hsize⟩, hvalue⟩

theorem exists_headerEnd {buf : Bytes} (h : crlfCrlf <:+: buf) :
    ∃ headerEnd, findHeaderEnd buf = some headerEnd := by
  cases hi : findSub crlfCrlf buf with
  | none => exact absurd h ((findSub_eq_none_iff (by decide) buf).mp hi)
  | some i => exact ⟨i + 4, by rw [findHeaderEnd, hi]; rfl⟩

/-- Past CRLFCRLF nothing is read. -/
theorem parseRetryAfter_body (front body body' : Bytes) :
    parseRetryAfter (front ++ (crlfCrlf ++ body)) =
      parseRetryAfter (front ++ (crlfCrlf ++ body')) := by
  have hhead : ∀ body, parseRetryAfter (front ++ (crlfCrlf ++ body)) =
      parseRetryAfter (front ++ crlfCrlf) := by
    intro body
    have hinfix : crlfCrlf <:+: front ++ crlfCrlf := suffix_append _ _ |>.isInfix
    rw [← append_assoc]
    generalize front ++ crlfCrlf = head at hinfix
    rw [parseRetryAfter, parseRetryAfter]
    rcases Nat.lt_or_ge (maxHeadersBytes + 1) head.length with hlong | hshort
    · rw [take_append_of_le_length hlong.le, length_append, if_pos (by omega : maxHeadersBytes < _),
        if_pos (by omega : maxHeadersBytes < head.length)]
    · obtain ⟨headerEnd, hend⟩ := exists_headerEnd hinfix
      rw [take_of_length_le hshort, take_append, take_of_length_le hshort,
        findHeaderEnd_append hinfix, hend]
      dsimp only
      rw [take_append_of_le_length (findHeaderEnd_bounds hend).2]
  rw [hhead, hhead]

def sampleFrame (value : String) : Bytes := asBytes ("S\nRetry-After: " ++ value ++ "\n\n").toList

end SimMaster.RetryAfterField
