import SimMaster.RegEventSyntax

/-!
# SIP frames as the registration-event observer reads them

`Frame.parse` reads one datagram: a start line, bounded and unfolded headers under their long
names, and a body of exactly the announced length. The accessors refuse a header that occurs more
than once. `isRegNotify` tells the NOTIFY requests of the `reg` event from other traffic, also when
the frame as a whole is malformed.
-/

namespace SimMaster

namespace RegEvent

open Rust

structure Frame where
  start : Str
  headers : List (Str × Str)
  body : Bytes

/-- The long name of a compact header name, in lower case. -/
def longName (name : Str) : Str :=
  let name := toAsciiLowercase name
  if name = "f".toList then "from".toList
  else if name = "t".toList then "to".toList
  else if name = "i".toList then "call-id".toList
  else if name = "v".toList then "via".toList
  else if name = "o".toList then "event".toList
  else if name = "l".toList then "content-length".toList
  else if name = "c".toList then "content-type".toList
  else if name = "m".toList then "contact".toList
  else name

/-- The headers of the lines after the start line. `physicalLine` counts the lines, `headers` holds
the headers so far, the last one first. -/
def parseHeaders : ℕ → List (Str × Str) → List Str → Except ImsError (List (Str × Str))
  | _, headers, [] => .ok headers.reverse
  | physicalLine, headers, line :: lines =>
    if 128 ≤ physicalLine ||
        line.any (fun c => (c.toNat < 32 && c != '\t') || c.toNat = 127) then .error invalid
    else if line.head? = some ' ' || line.head? = some '\t' then
      match headers with
      | [] => .error invalid
      | (name, value) :: headers =>
        let value := value ++ [' '] ++ trim line
        if 4096 < utf8Len value then .error invalid
        else parseHeaders (physicalLine + 1) ((name, value) :: headers) lines
    else match splitOnce ':' line with
      | none => .error invalid
      | some (name, value) =>
        let name := trimEndMatches (fun c => c = ' ' || c = '\t') name
        if !token name || 4096 < utf8Len value then .error invalid
        else if 128 < headers.length + 1 then .error invalid
        else parseHeaders (physicalLine + 1) ((longName name, trim value) :: headers) lines

namespace Frame

/-- The value of a header that occurs at most once. -/
def one (frame : Frame) (name : String) : Except ImsError (Option Str) :=
  match frame.headers.filter (·.1 == name.toList) with
  | [] => .ok none
  | [(_, value)] => .ok (some value)
  | _ => .error invalid

/-- The value of a header that occurs exactly once. -/
def required (frame : Frame) (name : String) : Except ImsError Str := do
  okOrInvalid (← frame.one name)

def parse (wire : Bytes) : Except ImsError Frame := do
  if maxHeaders + maxBody < wire.length then
    throw invalid
  let headerEnd ← okOrInvalid (findSub [0x0d, 0x0a, 0x0d, 0x0a] wire)
  if maxHeaders < headerEnd then
    throw invalid
  let text ← okOrInvalid (fromUtf8 (wire.take headerEnd))
  match splitCrlf text with
  | [] => throw invalid
  | start :: lines =>
    if !safeHeaderValue start then
      throw invalid
    let headers ← parseHeaders 0 [] lines
    let frame : Frame := { start, headers, body := wire.drop (headerEnd + 4) }
    let length ← unsigned (← frame.required "content-length")
    if length ≠ frame.body.length || maxBody < length then
      throw invalid
    return frame

def method (frame : Frame) : Option Str :=
  match splitBy (· == ' ') frame.start with
  | [method, _, version] => if version = "SIP/2.0".toList then some method else none
  | _ => none

def requestUri (frame : Frame) : Option Str := do
  let _ ← frame.method
  (splitBy (· == ' ') frame.start)[1]?

def status (frame : Frame) : Option ℕ := do
  let rest ← "SIP/2.0 ".toList.isPrefixOf? frame.start
  let (code, reason) ← splitOnce ' ' rest
  if utf8Len code ≠ 3 || reason.isEmpty then
    none
  let code ← (unsigned code).toOption
  if 100 ≤ code ∧ code ≤ 699 then some code else none

def cseq (frame : Frame) : Except ImsError (ℕ × Str) := do
  match splitAsciiWhitespace (← frame.required "cseq") with
  | [number, method] =>
    let number ← unsigned number
    if 0x80000000 ≤ number || !token method then
      throw invalid
    return (number, method)
  | _ => throw invalid

/-- The routes of Record-Route headers in order; `count` routes came before. -/
def recordRoutes : ℕ → List Str → Except ImsError (List Str)
  | _, [] => .ok []
  | count, value :: values => do
    let routes ← routeList value
    if 16 < count + routes.length then
      throw invalid
    let rest ← recordRoutes (count + routes.length) values
    return routes ++ rest

def routes (frame : Frame) (reverse : Bool) : Except ImsError (List Str) := do
  let values := (frame.headers.filter (·.1 == "record-route".toList)).map (·.2)
  let routes ← recordRoutes 0 values
  return if reverse then routes.reverse else routes

end Frame

/-- The first item of a header value names the `reg` event. -/
def namesReg (value : Str) : Bool :=
  match splitBy (fun c => c = ';' || c = ',') value with
  | event :: _ => eqIgnoreAsciiCase (trim event) "reg".toList
  | [] => false

/-- `str::as_bytes` of a literal in ASCII. -/
def ascii (s : String) : Bytes := s.toList.map fun c => UInt8.ofNat c.toNat

def isRegNotify (wire : Bytes) : Bool :=
  match Frame.parse wire with
  | .ok frame =>
    frame.method == some "NOTIFY".toList &&
      frame.headers.any fun (name, value) => name == "event".toList && namesReg value
  | .error _ =>
    let head := wire.take maxHeaders
    let headerEnd := (findSub [0x0d, 0x0a, 0x0d, 0x0a] head).getD head.length
    let text := (fromUtf8 (head.take headerEnd)).getD []
    "NOTIFY ".toList.isPrefixOf text && (splitCrlf text).any fun line =>
      match splitOnce ':' line with
      | none => false
      | some (name, value) =>
        (eqIgnoreAsciiCase (trimEnd name) "event".toList ||
          eqIgnoreAsciiCase (trimEnd name) "o".toList) && namesReg (trim value)

end RegEvent

end SimMaster
