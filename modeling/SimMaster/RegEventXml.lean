import SimMaster.RegEventFrame

/-!
# Reginfo documents

The bounded, namespace-aware parser of reginfo documents and the snapshot of the own binding that
accepted documents update. The XML tokenizer is a third-party package: here it is a parameter, a
function from the body to the events its reader returns, in order, `none` where reading or decoding
failed; when the list ends the reader has reached the end of the input. The tree, its bounds and
namespaces, the document and `Snapshot.apply` are the program's own.
-/

namespace SimMaster

namespace RegEvent

open Rust

/-! ## Events of the tokenizer -/

/-- An attribute: its name, its raw value, and the value decoded and unescaped. -/
structure XmlAttribute where
  key : Bytes
  value : Bytes
  unescaped : Option Str

inductive XmlEvent where
  | start (name : Bytes) (attributes : List (Option XmlAttribute))
  | empty (name : Bytes) (attributes : List (Option XmlAttribute))
  | endTag
  | text (raw : Bytes) (unescaped : Option Str)
  | cData (raw : Bytes)
  | decl (version : Option Bytes) (encoding : Option (Option Bytes))
  | comment (raw : Bytes)
  | docType
  | pi

/-- The tokenizer of the XML package over a body. -/
abbrev XmlReader : Type := Bytes → List (Option XmlEvent)

/-! ## The tree -/

def reginfoNs : Str := "urn:ietf:params:xml:ns:reginfo".toList
def maxDepth : ℕ := 16
def maxNodes : ℕ := 1024
def maxRegistrations : ℕ := 64
def maxContacts : ℕ := 256

inductive Node where
  | mk (ns name : Str) (attrs : List (Str × Str × Str)) (children : List Node) (text : Str)

namespace Node

def ns : Node → Str
  | mk ns _ _ _ _ => ns

def name : Node → Str
  | mk _ name _ _ _ => name

def attrs : Node → List (Str × Str × Str)
  | mk _ _ attrs _ _ => attrs

def children : Node → List Node
  | mk _ _ _ children _ => children

def text : Node → Str
  | mk _ _ _ _ text => text

def addChild : Node → Node → Node
  | mk ns name attrs children text, child => mk ns name attrs (children ++ [child]) text

def addText : Node → Str → Node
  | mk ns name attrs children text, more => mk ns name attrs children (text ++ more)

def attr (node : Node) (name : String) : Option Str :=
  (node.attrs.find? fun (ns, n, _) => ns.isEmpty && n == name.toList).map fun (_, _, v) => v

def required (node : Node) (name : String) : Except ImsError Str := okOrInvalid (node.attr name)

def elementOnly (node : Node) : Except ImsError Unit :=
  if !(trim node.text).isEmpty then .error invalid else .ok ()

def leafText (node : Node) : Except ImsError Str :=
  if !node.children.isEmpty then .error invalid else .ok (trim node.text)

end Node

def criticalElement (name : Str) : Bool :=
  ["reginfo", "registration", "contact", "uri", "unknown-param"].any (·.toList == name)

def criticalAttribute (name : Str) : Bool :=
  ["version", "state", "id", "aor", "event", "name", "expires", "duration-registered",
    "retry-after"].any (·.toList == name)

mutual

/-- Extensions may be ignored, but cannot smuggle critical fields below an unknown wrapper. -/
def ignorable : Node → Bool
  | .mk _ name _ children _ => !criticalElement name && allIgnorable children

def allIgnorable : List Node → Bool
  | [] => true
  | node :: nodes => ignorable node && allIgnorable nodes

end

def ignoreExtension (node : Node) : Except ImsError Unit :=
  if ignorable node then .ok () else .error invalid

def xmlChar (c : Char) : Bool :=
  c = '\t' || c = '\n' || c = '\r' ||
    (0x20 ≤ c.toNat && c.toNat ≠ 0xfffe && c.toNat ≠ 0xffff)

/-- Prefixes in scope with their namespaces; the default namespace has the empty prefix. -/
abbrev Namespaces : Type := List (Str × Str)

/-- `HashMap::insert`. -/
def Namespaces.insert (namespaces : Namespaces) (pre ns : Str) : Namespaces :=
  (pre, ns) :: namespaces.filter (·.1 != pre)

/-- The namespace and the local part of a qualified name. -/
def expand (name : Str) (namespaces : Namespaces) (isAttribute : Bool) :
    Except ImsError (Str × Str) := do
  let (pre, localName) := match splitOnce ':' name with
    | some (pre, localName) => (some pre, localName)
    | none => (none, name)
  if localName.isEmpty || localName.contains ':' ||
      !localName.all (fun c => isAsciiAlphanumeric c || c = '_' || c = '.' || c = '-') ||
      !localName.head?.any (fun c => isAsciiAlphabetic c || c = '_') then
    throw invalid
  let ns ← match pre with
    | some pre => if !pre.isEmpty then okOrInvalid (namespaces.lookup pre) else throw invalid
    | none => pure (if isAttribute then [] else (namespaces.lookup []).getD [])
  return (ns, localName)

/-- The attributes of an element: `rawNames` holds the names so far, and the result is the scope of
the element and its other attributes under their raw names. -/
def readAttributes : Namespaces → List Str → List (Option XmlAttribute) →
    Except ImsError (Namespaces × List (Str × Str))
  | namespaces, _, [] => .ok (namespaces, [])
  | namespaces, rawNames, item :: attributes => do
    let item ← okOrInvalid item
    let name ← okOrInvalid (fromUtf8 item.key)
    if rawNames.contains name || 24 < rawNames.length + 1 then
      throw invalid
    if item.value.contains 0x3c then
      throw invalid
    let value ← okOrInvalid item.unescaped
    if 2048 < utf8Len value || value.any (fun c => !xmlChar c) then
      throw invalid
    if name = "xmlns".toList then
      readAttributes (namespaces.insert [] value) (name :: rawNames) attributes
    else match "xmlns:".toList.isPrefixOf? name with
      | some pre =>
        if pre.isEmpty || pre.contains ':' || pre == "xmlns".toList || pre == "xml".toList ||
            value.isEmpty then
          throw invalid
        readAttributes (namespaces.insert pre value) (name :: rawNames) attributes
      | none =>
        let (namespaces, attrs) ← readAttributes namespaces (name :: rawNames) attributes
        return (namespaces, (name, value) :: attrs)

/-- The attributes under their expanded names; `seen` holds the expanded names so far. -/
def expandAttributes (namespaces : Namespaces) : List (Str × Str) → List (Str × Str) →
    Except ImsError (List (Str × Str × Str))
  | _, [] => .ok []
  | seen, (name, value) :: attrs => do
    let (ns, name) ← expand name namespaces true
    if seen.contains (ns, name) || (!ns.isEmpty && criticalAttribute name) then
      throw invalid
    let expanded ← expandAttributes namespaces ((ns, name) :: seen) attrs
    return (ns, name, value) :: expanded

/-- The element of a start tag, with the scope its children inherit. -/
def readNode (name : Bytes) (attributes : List (Option XmlAttribute)) (parent : Namespaces) :
    Except ImsError (Node × Namespaces) := do
  let (namespaces, attrs) ← readAttributes parent [] attributes
  if 32 < namespaces.length then
    throw invalid
  let namespaces := namespaces.insert "xml".toList "http://www.w3.org/XML/1998/namespace".toList
  let name ← okOrInvalid (fromUtf8 name)
  let (ns, name) ← expand name namespaces false
  if criticalElement name && ns != reginfoNs then
    throw invalid
  let attrs ← expandAttributes namespaces [] attrs
  return (.mk ns name attrs [] [], namespaces)

/-- The state of the loop over the events. -/
structure TreeState where
  stack : List (Node × Namespaces) := []
  root : Option Node := none
  count : ℕ := 0
  declaration : Bool := false
  prologContent : Bool := false

/-- A finished element goes to its parent, or becomes the root. -/
def TreeState.append (state : TreeState) (node : Node) : Except ImsError TreeState :=
  match state.stack with
  | (parent, namespaces) :: stack =>
    .ok { state with stack := (parent.addChild node, namespaces) :: stack }
  | [] => if state.root.isSome then .error invalid else .ok { state with root := some node }

/-- The element of a start tag or an empty tag, within the bounds on depth and number. -/
def TreeState.openElement (state : TreeState) (name : Bytes)
    (attributes : List (Option XmlAttribute)) :
    Except ImsError ((Node × Namespaces) × TreeState) := do
  if maxDepth ≤ state.stack.length || (state.root.isSome && state.stack.isEmpty) then
    throw invalid
  if maxNodes < state.count + 1 then
    throw invalid
  let parent := (state.stack.head?.map (·.2)).getD []
  let opened ← readNode name attributes parent
  return (opened, { state with count := state.count + 1 })

/-- Character data goes to the open element. -/
def TreeState.addText (state : TreeState) (text : Str) : Except ImsError TreeState :=
  match state.stack with
  | (node, namespaces) :: stack =>
    if 4096 < utf8Len node.text + utf8Len text then .error invalid
    else .ok { state with stack := (node.addText text, namespaces) :: stack }
  | [] => .error invalid

def TreeState.step (state : TreeState) : XmlEvent → Except ImsError TreeState
  | .start name attributes => do
    let (opened, state) ← state.openElement name attributes
    return { state with stack := opened :: state.stack }
  | .empty name attributes => do
    let ((node, _), state) ← state.openElement name attributes
    state.append node
  | .endTag =>
    match state.stack with
    | [] => .error invalid
    | (node, _) :: stack => { state with stack }.append node
  | .text raw unescaped => do
    if (findSub (ascii "]]>") raw).isSome then
      throw invalid
    let text ← okOrInvalid unescaped
    if text.any (fun c => !xmlChar c) then
      throw invalid
    if !state.stack.isEmpty then
      state.addText text
    else if !(trim text).isEmpty then
      throw invalid
    else
      return { state with prologContent := true }
  | .cData raw => do
    let text ← okOrInvalid (fromUtf8 raw)
    if text.any (fun c => !xmlChar c) then
      throw invalid
    state.addText text
  | .decl version encoding => do
    if state.declaration || state.prologContent || state.root.isSome || !state.stack.isEmpty then
      throw invalid
    if version != some (ascii "1.0") then
      throw invalid
    match encoding with
    | none => pure ()
    | some none => throw invalid
    | some (some encoding) =>
      if encoding.map (fun b => if 0x41 ≤ b && b ≤ 0x5a then b + 0x20 else b) != ascii "utf-8" then
        throw invalid
    return { state with declaration := true }
  | .comment raw => do
    if (findSub (ascii "--") raw).isSome then
      throw invalid
    return { state with prologContent := state.prologContent || state.stack.isEmpty }
  | .docType => .error invalid
  | .pi => .error invalid

def readEvents : TreeState → List (Option XmlEvent) → Except ImsError TreeState
  | state, [] => .ok state
  | state, event :: events => do
    let state ← state.step (← okOrInvalid event)
    readEvents state events

def tree (xml : XmlReader) (body : Bytes) : Except ImsError Node := do
  if body.isEmpty || maxBody < body.length || (fromUtf8 body).isNone then
    throw invalid
  let state ← readEvents {} (xml body)
  if !state.stack.isEmpty then
    throw invalid
  okOrInvalid state.root

/-! ## Documents -/

inductive TerminationReason where
  | expired
  | deactivated
  | probation
  | rejected
  | unregistered
  deriving DecidableEq, Repr

inductive State where
  | active
  | terminated
  deriving DecidableEq, Repr

def state (value : Str) : Except ImsError State :=
  if value = "active".toList then .ok .active
  else if value = "terminated".toList then .ok .terminated
  else .error invalid

structure Contact where
  id : Str
  state : State
  reason : Option TerminationReason
  uri : Option Str
  instanceId : Option Str
  regId : Option ℕ
  retryAfter : Option ℕ
  deriving DecidableEq

structure Registration where
  id : Str
  aor : Str
  state : State
  contacts : List Contact
  deriving DecidableEq

structure Document where
  version : ℕ
  full : Bool
  registrations : List Registration
  deriving DecidableEq

def boundedId (value : Str) : Except ImsError Str :=
  if value.isEmpty || 256 < utf8Len value || value.any isControl then .error invalid
  else .ok value

/-- The reason of a contact's event, refused where the event does not fit the state. -/
def contactReason (event : Str) : State → Except ImsError (Option TerminationReason)
  | .active =>
    if ["registered", "created", "refreshed", "shortened"].any (·.toList == event) then .ok none
    else .error invalid
  | .terminated =>
    if event = "expired".toList then .ok (some .expired)
    else if event = "deactivated".toList then .ok (some .deactivated)
    else if event = "probation".toList then .ok (some .probation)
    else if event = "rejected".toList then .ok (some .rejected)
    else if event = "unregistered".toList then .ok (some .unregistered)
    else .error invalid

/-- What the children of a contact say. -/
structure ContactFields where
  uri : Option Str := none
  instanceId : Option Str := none
  regId : Option ℕ := none

/-- The children of a contact; `names` holds the parameter names so far. -/
def contactFields : ContactFields → List Str → List Node → Except ImsError ContactFields
  | fields, _, [] => .ok fields
  | fields, names, node :: nodes => do
    if node.ns = reginfoNs ∧ node.name = "uri".toList then
      if fields.uri.isSome then
        throw invalid
      let uri ← canonicalUri (← node.leafText)
      contactFields { fields with uri := some uri } names nodes
    else if node.ns = reginfoNs ∧ node.name = "unknown-param".toList then
      let name := toAsciiLowercase (← node.required "name")
      if name.isEmpty || 128 < utf8Len name || names.contains name then
        throw invalid
      let value ← node.leafText
      if name = "+sip.instance".toList then
        let value ← instanceValue value
        contactFields { fields with instanceId := some value } (name :: names) nodes
      else if name = "reg-id".toList then
        let value ← positive value
        contactFields { fields with regId := some value } (name :: names) nodes
      else contactFields fields (name :: names) nodes
    else
      ignoreExtension node
      contactFields fields names nodes

def parseContact (full : Bool) (registrationState : State) (node : Node) (id : Str) :
    Except ImsError Contact := do
  let contactState ← state (← node.required "state")
  let reason ← contactReason (← node.required "event") contactState
  if registrationState = .terminated ∧ contactState = .active then
    throw invalid
  let retryAfter ← (node.attr "retry-after").mapM unsigned
  if retryAfter.isSome && reason != some .probation then
    throw invalid
  if let some expires := node.attr "expires" then
    let expires ← unsigned expires
    if (contactState = .active ∧ expires = 0) ∨ (contactState = .terminated ∧ expires ≠ 0) then
      throw invalid
  if let some duration := node.attr "duration-registered" then
    let _ ← unsigned duration
  let fields ← contactFields {} [] node.children
  if (full || contactState == .active) && fields.uri.isNone then
    throw invalid
  return { id, state := contactState, reason, uri := fields.uri, instanceId := fields.instanceId,
           regId := fields.regId, retryAfter }

/-- The contacts of a registration: `ids` holds the contact ids so far, `count` the number of
contacts in the document so far. -/
def parseContacts (full : Bool) (registrationState : State) : List Str → ℕ → List Node →
    Except ImsError (List Contact × ℕ)
  | _, count, [] => .ok ([], count)
  | ids, count, node :: nodes => do
    if node.name ≠ "contact".toList ∨ node.ns ≠ reginfoNs then
      ignoreExtension node
      parseContacts full registrationState ids count nodes
    else
      node.elementOnly
      let id ← boundedId (← node.required "id")
      if ids.contains id then
        throw invalid
      let contact ← parseContact full registrationState node id
      if maxContacts < count + 1 then
        throw invalid
      let (contacts, count) ← parseContacts full registrationState (id :: ids) (count + 1) nodes
      return (contact :: contacts, count)

/-- The registrations of a document: `ids` and `aors` hold those so far, `count` the number of
contacts so far and `number` that of registrations. -/
def parseRegistrations (full : Bool) : (ids aors : List Str) → (count number : ℕ) → List Node →
    Except ImsError (List Registration)
  | _, _, _, _, [] => .ok []
  | ids, aors, count, number, node :: nodes => do
    if node.name ≠ "registration".toList ∨ node.ns ≠ reginfoNs then
      ignoreExtension node
      parseRegistrations full ids aors count number nodes
    else
      node.elementOnly
      let id ← boundedId (← node.required "id")
      let aor ← canonicalUri (← node.required "aor")
      if ids.contains id || aors.contains aor then
        throw invalid
      let registrationState ← state (← node.required "state")
      let (contacts, count) ← parseContacts full registrationState [] count node.children
      if maxRegistrations < number + 1 then
        throw invalid
      let registrations ←
        parseRegistrations full (id :: ids) (aor :: aors) count (number + 1) nodes
      return { id, aor, state := registrationState, contacts } :: registrations

/-- Whether a document is full or partial. -/
def documentMode (mode : Str) : Except ImsError Bool :=
  if mode = "full".toList then .ok true
  else if mode = "partial".toList then .ok false
  else .error invalid

def parseDocument (xml : XmlReader) (body : Bytes) : Except ImsError Document := do
  let root ← tree xml body
  if root.ns ≠ reginfoNs ∨ root.name ≠ "reginfo".toList then
    throw invalid
  root.elementOnly
  let version ← unsigned (← root.required "version")
  let full ← documentMode (← root.required "state")
  let registrations ← parseRegistrations full [] [] 0 0 root.children
  return { version, full, registrations }

end RegEvent

end SimMaster
