import SimMaster.SipFrame
import SimMaster.RegEventSyntax

/-!
# Reading a SIP message

The start line and the header fields of a SIP message. `header_values` reads the fields of one
name, with the obsolete folding of a value over several lines. It is the same as reading all
fields in order (`headerFields`) and keeping those of the name (`headerValues_eq_filterMap`), so two
names read by it are read from one and the same message.
-/

namespace SimMaster

open Rust

/-- `str::split_whitespace`. -/
def splitWhitespace (s : Str) : List Str :=
  (splitBy isWhitespace s).filter fun piece => !piece.isEmpty

/-- `u16::MAX`. -/
def u16Max : ℕ := 2 ^ 16 - 1

/-- The octets before the first line end. -/
def statusLineEnd (frame : Bytes) : Option ℕ :=
  (findSub [0x0d, 0x0a] frame).or (findSub [0x0a] frame)

/-- `parse_status`: the status code of a response. -/
def parseStatus (frame : Bytes) : Except ImsError ℕ :=
  match statusLineEnd frame with
  | none => .error ⟨"sip_status_line_missing"⟩
  | some lineEnd =>
    match fromUtf8 (frame.take lineEnd) with
    | none => .error ⟨"sip_status_line_invalid"⟩
    | some line =>
      let parts := splitWhitespace line
      if parts.head? ≠ some "SIP/2.0".toList then .error ⟨"sip_status_line_invalid"⟩
      else
        match parts[1]?.bind (parseUnsigned u16Max) with
        | some status => .ok status
        | none => .error ⟨"sip_status_code_invalid"⟩

/-- Whether the frame is a request for the method. -/
def isRequest (frame : Bytes) (method : Str) : Bool :=
  asBytes method <+: frame ∧ frame[(asBytes method).length]? = some 0x20

/-- The frame starts with `text`. -/
def startsWith (frame : Bytes) (text : Str) : Bool := asBytes text <+: frame

/-! ## Header fields -/

/-- The lines before the end of the headers, or all lines of a frame without one. -/
def headerLines (frame : Bytes) : List Str :=
  lines (fromUtf8Lossy (match findHeaderEnd frame with
    | some headerEnd => frame.take headerEnd
    | none => frame))

/-- A line that continues the field before it. -/
def isFolded (line : Str) : Bool := line.head? = some ' ' || line.head? = some '\t'

/-- A value with the text of a continuation line. -/
def unfoldLine (value line : Str) : Str :=
  if (trim line).isEmpty then value else value ++ ' ' :: trim line

/-- The value of a field that has the name. -/
def namedValue (name : Str) (field : Str × Str) : Option Str :=
  if eqIgnoreAsciiCase field.1 name then some field.2 else none

/-- The name and the value of a line that is a field. -/
def fieldOf (line : Str) : Option (Str × Str) :=
  (splitOnce ':' line).map fun parts => (trim parts.1, trim parts.2)

/-- The loop of `header_values`: `current` is the value of the field being read, if it has the
name. -/
def headerValuesLoop (name : Str) : Option Str → List Str → List Str
  | current, [] => current.toList
  | current, line :: rest =>
    if isFolded line then headerValuesLoop name (current.map fun value =>
      unfoldLine value line) rest
    else
      current.toList ++ headerValuesLoop name ((fieldOf line).bind (namedValue name)) rest

/-- All values of a header. -/
def headerValues (frame : Bytes) (name : Str) : List Str :=
  headerValuesLoop name none (headerLines frame)

/-- First value of a header, if present. -/
def headerValue (frame : Bytes) (name : Str) : Option Str := (headerValues frame name).head?

/-! ## All fields in order -/

/-- The fields of the lines, in order: `current` is the field being read. -/
def headerFieldsLoop : Option (Str × Str) → List Str → List (Str × Str)
  | current, [] => current.toList
  | current, line :: rest =>
    if isFolded line then
      headerFieldsLoop (current.map fun field => (field.1, unfoldLine field.2 line)) rest
    else
      current.toList ++ headerFieldsLoop (fieldOf line) rest

/-- The name and value of every header field of a message, in order. -/
def headerFields (frame : Bytes) : List (Str × Str) := headerFieldsLoop none (headerLines frame)

/-- Unfolding changes the value of a field, not its name. -/
theorem namedValue_unfold (name line : Str) (field : Str × Str) :
    namedValue name (field.1, unfoldLine field.2 line) =
      (namedValue name field).map fun value => unfoldLine value line := by
  by_cases h : eqIgnoreAsciiCase field.1 name <;> simp [namedValue, h]

theorem toList_bind_namedValue (name : Str) (current : Option (Str × Str)) :
    (current.bind (namedValue name)).toList = current.toList.filterMap (namedValue name) := by
  cases current with
  | none => rfl
  | some field => cases h : namedValue name field <;> simp [h]

theorem headerValuesLoop_eq (name : Str) (current : Option (Str × Str)) (lines : List Str) :
    headerValuesLoop name (current.bind (namedValue name)) lines =
      (headerFieldsLoop current lines).filterMap (namedValue name) := by
  induction lines generalizing current with
  | nil => exact toList_bind_namedValue name current
  | cons line rest ih =>
    rw [headerValuesLoop, headerFieldsLoop]
    split
    case isTrue =>
      rw [← ih]
      cases current <;> simp [namedValue_unfold]
    case isFalse =>
      rw [ih, List.filterMap_append, toList_bind_namedValue]

/-- `header_values` reads the fields of the message that have the name. -/
theorem headerValues_eq_filterMap (frame : Bytes) (name : Str) :
    headerValues frame name = (headerFields frame).filterMap (namedValue name) :=
  headerValuesLoop_eq name none (headerLines frame)

end SimMaster
