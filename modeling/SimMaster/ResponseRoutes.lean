import SimMaster.Machine
import SimMaster.SipHeaders

/-!
# Responses on the connection of their request

A request that came in over a stream must be answered over the same stream. The table keeps, for
each request still to be answered, the key of its transaction and the connection it came over. A
key is read from the request and, later, from each of its responses.

The transaction of a message is that of its topmost Via. The code reads the first field with the
long name, and the first with the compact name only if there is none. That is the topmost one
unless the names are mixed (`topmostVia_eq`).
-/

namespace SimMaster.SipStream

open Rust List

def MAX_PENDING_RESPONSES : ℕ := 64
def CHANNEL_STREAM_FRAME_INVALID : ImsError := ⟨"cellular_ims_channel_stream_frame_invalid"⟩
def CHANNEL_STREAM_RESPONSE_OWNER_MISSING : ImsError :=
  ⟨"cellular_ims_channel_stream_response_owner_missing"⟩

def isTokenChar (c : Char) : Bool := isAsciiAlphanumeric c || "-.!%*_+`'~".toList.contains c

def token (value : Str) : Bool := !value.isEmpty && value.all isTokenChar

/-! ## Keys -/

structure ResponseKey where
  callId : Str
  cseq : ℕ
  method : Str
  branch : Str
  deriving DecidableEq, Repr

/-- The only Call-ID of a message, in either form of the name. -/
def callIdOf (frame : Bytes) : Option Str :=
  match headerValues frame "Call-ID".toList ++ headerValues frame "i".toList with
  | [callId] => if callId.isEmpty || 1024 < utf8Len callId then none else some callId
  | _ => none

/-- The number and the method of the only CSeq of a message. -/
def cseqOf (frame : Bytes) : Option (ℕ × Str) :=
  match headerValues frame "CSeq".toList with
  | [cseq] =>
    match splitAsciiWhitespace cseq with
    | [number, method] =>
      if number.all isAsciiDigit && token method then
        ((parseUnsigned u32Max number).filter (· < 0x80000000)).map fun cseq => (cseq, method)
      else none
    | _ => none
  | _ => none

/-- The value of a Via parameter, if it is a branch. -/
def branchParameter (parameter : Str) : Option Str :=
  (splitOnce '=' (trim parameter)).bind fun (name, value) =>
    if eqIgnoreAsciiCase name "branch".toList then some (trim value) else none

/-- The only branch of the first hop of a Via value. -/
def branchOf (via : Str) : Option Str :=
  let hop := (splitBy (· = ',') via).headD []
  match ((splitBy (· = ';') hop).drop 1).filterMap branchParameter with
  | [branch] =>
    if branch.isEmpty || 256 < utf8Len branch || !branch.all isTokenChar then none
    else some branch
  | _ => none

/-- The key of a message whose Via is `via`. -/
def ResponseKey.ofVia (frame : Bytes) (via : Option Str) : Option ResponseKey := do
  let callId ← callIdOf frame
  let (cseq, method) ← cseqOf frame
  let branch ← branchOf (← via)
  some { callId, cseq, method := method.map Char.toUpper, branch }

/-- The Via that the code reads. -/
def firstVia (frame : Bytes) : Option Str :=
  (headerValues frame "Via".toList).head?.or (headerValues frame "v".toList).head?

/-- `ResponseKey::parse`. -/
def ResponseKey.parse (frame : Bytes) : Option ResponseKey :=
  ResponseKey.ofVia frame (firstVia frame)

/-! ## The table -/

/-- The requests to be answered, each with its connection. -/
abbrev ResponseRoutes := List (ResponseKey × UInt64)

/-- A message the table keeps a connection for: neither a response nor an ACK. -/
def isAnswered (frame : Bytes) : Bool :=
  !(startsWith frame "SIP/2.0 ".toList || isRequest frame "ACK".toList)

/-- `parse_status` reads a final status. -/
def isFinal (frame : Bytes) : Bool :=
  match parseStatus frame with
  | .ok status => 200 ≤ status
  | .error _ => false

namespace ResponseRoutes

variable (routes : ResponseRoutes) (frame : Bytes)

def received (id : UInt64) : Except ImsError Unit × ResponseRoutes :=
  if !isAnswered frame then (.ok (), routes)
  else
    match ResponseKey.parse frame with
    | none => (.error CHANNEL_STREAM_FRAME_INVALID, routes)
    | some key =>
      match routes.find? fun entry => entry.1 = key with
      | some (_, old) =>
        if old = id then (.ok (), routes)
        else (.error CHANNEL_STREAM_RESPONSE_OWNER_MISSING, routes)
      | none =>
        if MAX_PENDING_RESPONSES ≤ routes.length then
          (.error CHANNEL_STREAM_RESPONSE_OWNER_MISSING, routes)
        else (.ok (), routes ++ [(key, id)])

def responseConnection : Except ImsError (Option UInt64) × ResponseRoutes :=
  if !startsWith frame "SIP/2.0 ".toList then (.ok none, routes)
  else
    match ResponseKey.parse frame with
    | none => (.error CHANNEL_STREAM_RESPONSE_OWNER_MISSING, routes)
    | some key =>
      match routes.find? fun entry => entry.1 = key with
      | none => (.error CHANNEL_STREAM_RESPONSE_OWNER_MISSING, routes)
      | some (_, id) =>
        (.ok (some id), if isFinal frame then routes.eraseP fun entry => entry.1 = key else routes)

end ResponseRoutes

/-! ## Calls -/

inductive RouteCall where
  | received (frame : Bytes) (id : UInt64)
  | responseConnection (frame : Bytes)

inductive RouteAnswer where
  | received (answer : Except ImsError Unit)
  | responseConnection (answer : Except ImsError (Option UInt64))

/-- The message of a call. -/
def RouteCall.frame : RouteCall → Bytes
  | received frame _ => frame
  | responseConnection frame => frame

/-- Runs one call. -/
def ResponseRoutes.step (routes : ResponseRoutes) : RouteCall → RouteAnswer × ResponseRoutes
  | .received frame connection => (routes.received frame connection).map .received id
  | .responseConnection frame => (routes.responseConnection frame).map .responseConnection id

/-! ## Topmost Via -/

def isVia (field : Str × Str) : Bool :=
  eqIgnoreAsciiCase field.1 "Via".toList || eqIgnoreAsciiCase field.1 "v".toList

/-- The value of the first Via of a message, in either form of the name. -/
def topmostVia (frame : Bytes) : Option Str := ((headerFields frame).find? isVia).map (·.2)

/-- The transaction a message belongs to. -/
def transaction (frame : Bytes) : Option ResponseKey := ResponseKey.ofVia frame (topmostVia frame)

/-- The message does not have a compact Via above a long one. -/
def LongViaFirst (frame : Bytes) : Prop :=
  ∀ field, (headerFields frame).find? isVia = some field →
    eqIgnoreAsciiCase field.1 "Via".toList = true ∨ headerValues frame "Via".toList = []

/-- The first field with either of two names, when one with the first name does not come below one
with the second. -/
theorem find?_either_name {long short : Str} {fields : List (Str × Str)}
    (h : ∀ field, (fields.find? fun f =>
      eqIgnoreAsciiCase f.1 long || eqIgnoreAsciiCase f.1 short) =
        some field →
      eqIgnoreAsciiCase field.1 long = true ∨ fields.filterMap (namedValue long) = []) :
    (fields.find? fun f => eqIgnoreAsciiCase f.1 long || eqIgnoreAsciiCase f.1 short).map (·.2) =
      (fields.filterMap (namedValue long)).head?.or
      (fields.filterMap (namedValue short)).head? := by
  induction fields with
  | nil => rfl
  | cons field rest ih =>
    by_cases hlong : eqIgnoreAsciiCase field.1 long = true
    · have hvalue : namedValue long field = some field.2 := if_pos hlong
      rw [find?_cons_of_pos (by simp [hlong]), filterMap_cons_some hvalue]
      rfl
    · have hskip : namedValue long field = none := if_neg hlong
      by_cases hshort : eqIgnoreAsciiCase field.1 short = true
      · -- the compact field is the topmost one, so there is no long one below it
        have hvalue : namedValue short field = some field.2 := if_pos hshort
        have hfind := find?_cons_of_pos (l := rest) (a := field)
          (p := fun f => eqIgnoreAsciiCase f.1 long || eqIgnoreAsciiCase f.1 short)
          (by simp [hshort])
        have hempty := (h field hfind).resolve_left hlong
        rw [hfind, hempty, filterMap_cons_some hvalue]
        rfl
      · have hnone : namedValue short field = none := if_neg hshort
        have hfind := find?_cons_of_neg (l := rest) (a := field)
          (p := fun f => eqIgnoreAsciiCase f.1 long || eqIgnoreAsciiCase f.1 short)
          (by simp [hlong, hshort])
        rw [hfind, filterMap_cons_none hskip] at h
        rw [hfind, filterMap_cons_none hskip, filterMap_cons_none hnone]
        exact ih h

variable {frame : Bytes}

/-- Unless the names are mixed, the code reads the topmost Via. -/
theorem topmostVia_eq (h : LongViaFirst frame) : topmostVia frame = firstVia frame := by
  rw [topmostVia, firstVia, headerValues_eq_filterMap, headerValues_eq_filterMap]
  refine find?_either_name fun field hfield => ?_
  rw [← headerValues_eq_filterMap]
  exact h field hfield

theorem transaction_eq (h : LongViaFirst frame) : transaction frame = ResponseKey.parse frame := by
  rw [transaction, ResponseKey.parse, topmostVia_eq h]

/-! ## One call -/

namespace ResponseRoutes

variable {routes : ResponseRoutes} {frame : Bytes} {connection other : UInt64} {key : ResponseKey}

/-- A message either leaves the table as it is or is entered with a key of its own. -/
theorem received_cases (routes : ResponseRoutes) (frame : Bytes) (connection : UInt64) :
    (routes.received frame connection).2 = routes ∨
      ∃ key, isAnswered frame ∧ ResponseKey.parse frame = some key ∧
        key ∉ routes.map Prod.fst ∧ routes.length < MAX_PENDING_RESPONSES ∧
        routes.received frame connection = (.ok (), routes ++ [(key, connection)]) := by
  rw [received]
  split
  · exact .inl rfl
  next hanswered =>
    cases hkey : ResponseKey.parse frame with
    | none => exact .inl rfl
    | some key =>
      dsimp only
      cases hfind : routes.find? fun entry => entry.1 = key with
      | some entry =>
        left
        dsimp only
        split <;> rfl
      | none =>
        dsimp only
        split
        · exact .inl rfl
        next hroom =>
          have hlt : routes.length < MAX_PENDING_RESPONSES := Nat.lt_of_not_le hroom
          refine .inr ⟨key, by simpa using hanswered, rfl, fun hmem => ?_, hlt, rfl⟩
          obtain ⟨entry, hentry, rfl⟩ := mem_map.mp hmem
          simpa using find?_eq_none.mp hfind entry hentry

/-- A response is routed by an entry of its key, or it changes nothing and is not routed. -/
theorem responseConnection_cases (routes : ResponseRoutes) (frame : Bytes) :
    ((routes.responseConnection frame).2 = routes ∧
        ∀ connection, (routes.responseConnection frame).1 ≠ .ok (some connection)) ∨
      ∃ key connection, ResponseKey.parse frame = some key ∧ (key, connection) ∈ routes ∧
        routes.responseConnection frame = (.ok (some connection),
          if isFinal frame then routes.eraseP fun entry => entry.1 = key else routes) := by
  rw [responseConnection]
  split
  · exact .inl ⟨rfl, nofun⟩
  · cases hkey : ResponseKey.parse frame with
    | none => exact .inl ⟨rfl, nofun⟩
    | some key =>
      dsimp only
      cases hfind : routes.find? fun entry => entry.1 = key with
      | none => exact .inl ⟨rfl, nofun⟩
      | some entry =>
        have hentry : entry.1 = key := by simpa using find?_some hfind
        exact .inr ⟨key, entry.2, rfl, hentry ▸ mem_of_find?_eq_some hfind, rfl⟩

variable (hnodup : (routes.map Prod.fst).Nodup)
include hnodup

variable (hmem : (key, connection) ∈ routes)
include hmem

/-- With distinct keys, an entry is the only one of its key. -/
theorem find?_of_mem : (routes.find? fun entry => entry.1 = key) = some (key, connection) := by
  induction routes with
  | nil => cases hmem
  | cons entry rest ih =>
    obtain ⟨hnew, hrest⟩ := nodup_cons.mp hnodup
    rcases mem_cons.mp hmem with rfl | hmem
    · simp
    · have hne : entry.1 ≠ key := fun heq => hnew (heq ▸ mem_map_of_mem (f := Prod.fst) hmem)
      rw [find?_cons_of_neg (by simpa using hne)]
      exact ih hrest hmem

/-- A request that comes again does not move its owner. -/
theorem received_of_mem (hanswered : isAnswered frame) (hkey : ResponseKey.parse frame = some key) :
    routes.received frame other =
      (if connection = other then .ok () else .error CHANNEL_STREAM_RESPONSE_OWNER_MISSING,
        routes) := by
  rw [received, if_neg (by simp [hanswered]), hkey]
  dsimp only
  rw [find?_of_mem hnodup hmem]
  dsimp only
  split <;> rfl

/-- Erasing by a key takes out the one entry of the key. -/
theorem eraseP_of_mem : ∃ before after, routes = before ++ (key, connection) :: after ∧
      (routes.eraseP fun entry => entry.1 = key) = before ++ after := by
  obtain ⟨entry, before, after, hbefore, hentry, hroutes, herase⟩ :=
    exists_of_eraseP hmem (p := fun entry => entry.1 = key) (by simp)
  have hfind : (routes.find? fun entry => entry.1 = key) = some entry := by
    rw [hroutes, find?_append, find?_eq_none.mpr hbefore, Option.none_or]
    exact find?_cons_of_pos (p := fun e : ResponseKey × UInt64 => decide (e.1 = key))
      hentry
  obtain rfl := Option.some.inj (hfind.symm.trans (find?_of_mem hnodup hmem))
  exact ⟨before, after, hroutes, herase⟩

end ResponseRoutes

/-! ## Runs -/

section Runs

variable {keyOf keyOf' : Bytes → Option ResponseKey} {history : List (RouteCall × RouteAnswer)}
  {key : ResponseKey} {connection : UInt64}

/-- A final response of the key was routed by the call. -/
def Settles (keyOf : Bytes → Option ResponseKey) (key : ResponseKey)
    (call : RouteCall × RouteAnswer) : Prop :=
  ∃ reply connection,
  call = (.responseConnection reply, .responseConnection (.ok (some connection))) ∧
    isFinal reply ∧ keyOf reply = some key

/-- A request of the key came in over the connection, and no final response of the key was routed
since. -/
def Awaited (keyOf : Bytes → Option ResponseKey) (history : List (RouteCall × RouteAnswer))
    (key : ResponseKey) (connection : UInt64) : Prop :=
  ∃ earlier request later,
    history = earlier ++ (.received request connection, .received (.ok ())) :: later ∧
      isAnswered request ∧ keyOf request = some key ∧ ∀ call ∈ later, ¬ Settles keyOf key call

variable {call : RouteCall × RouteAnswer}

theorem Awaited.concat (h : Awaited keyOf history key connection)
    (hcall : ¬ Settles keyOf key call) :
    Awaited keyOf (history ++ [call]) key connection := by
  obtain ⟨earlier, request, later, rfl, hanswered, hkey, hlater⟩ := h
  refine ⟨earlier, request, later ++ [call], by simp, hanswered, hkey, fun c hc => ?_⟩
  rcases mem_append.mp hc with hc | hc
  · exact hlater c hc
  · rwa [mem_singleton.mp hc]

/-- Two ways to read keys that agree on all messages of a history agree on what is awaited. -/
theorem Awaited.congr (h : Awaited keyOf history key connection)
    (hkeys : ∀ call ∈ history, keyOf' call.1.frame = keyOf call.1.frame) :
    Awaited keyOf' history key connection := by
  obtain ⟨earlier, request, later, rfl, hanswered, hkey, hlater⟩ := h
  have hrequest : keyOf' request = keyOf request := hkeys _ mem_append_cons_self
  refine ⟨earlier, request, later, rfl, hanswered, hrequest.trans hkey,
    fun call hcall hsettles => ?_⟩
  obtain ⟨reply, connection', rfl, hfinal, hreply⟩ := hsettles
  have hmem := mem_append_right earlier (mem_cons_of_mem
    (RouteCall.received request connection, RouteAnswer.received (.ok ())) hcall)
  have hframe : keyOf' reply = keyOf reply := hkeys _ hmem
  exact hlater _ hcall ⟨reply, connection', rfl, hfinal, hframe ▸ hreply⟩

/-- The table holds one entry a key, not too many, and each for an awaited response. -/
structure Tracks (history : List (RouteCall × RouteAnswer)) (routes : ResponseRoutes) : Prop where
  nodup : (routes.map Prod.fst).Nodup
  length_le : routes.length ≤ MAX_PENDING_RESPONSES
  awaited : ∀ key connection, (key, connection) ∈ routes →
    Awaited ResponseKey.parse history key connection

variable {routes : ResponseRoutes}

theorem Tracks.concat (h : Tracks history routes)
    (hcall : ∀ key, ¬ Settles ResponseKey.parse key call) :
    Tracks (history ++ [call]) routes :=
  ⟨h.nodup, h.length_le, fun key connection hmem =>
    (h.awaited key connection hmem).concat (hcall key)⟩

theorem Tracks.received (h : Tracks history routes) (frame : Bytes) (connection : UInt64) :
    Tracks (history ++ [(.received frame connection, (routes.step (.received frame connection)).1)])
      (routes.step (.received frame connection)).2 := by
  have hsettles : ∀ key answer,
      ¬ Settles ResponseKey.parse key (.received frame connection, answer) := by
    rintro key answer ⟨reply, connection', heq, -⟩
    cases heq
  rcases routes.received_cases frame connection with heq | ⟨key, hanswered, hkey, hnew, hroom, heq⟩
  · have hsame : (routes.step (.received frame connection)).2 = routes := heq
    rw [hsame]
    exact h.concat fun key => hsettles key _
  · have hstep : routes.step (.received frame connection) =
        (.received (.ok ()), routes ++ [(key, connection)]) := by
      rw [ResponseRoutes.step, heq]
      rfl
    rw [hstep]
    refine ⟨?_, ?_, fun key' connection' hmem => ?_⟩
    · rw [map_append]
      exact h.nodup.append (nodup_singleton _) (by simpa using hnew)
    · rw [length_append, length_singleton]
      exact hroom
    · rcases mem_append.mp hmem with hmem | hmem
      · exact (h.awaited key' connection' hmem).concat (hsettles key' _)
      · obtain ⟨rfl, rfl⟩ := Prod.mk.inj (mem_singleton.mp hmem)
        exact ⟨history, frame, [], rfl, hanswered, hkey, nofun⟩

theorem Tracks.responseConnection (h : Tracks history routes) (frame : Bytes) :
    Tracks (history ++ [(.responseConnection frame, (routes.step (.responseConnection frame)).1)])
      (routes.step (.responseConnection frame)).2 := by
  rcases routes.responseConnection_cases frame with ⟨heq, hanswer⟩ | ⟨key, connection,
    hkey, hmem, heq⟩
  · have hsame : (routes.step (.responseConnection frame)).2 = routes := heq
    rw [hsame]
    refine h.concat ?_
    rintro key ⟨reply, connection, hcall, -⟩
    obtain ⟨-, hresponse⟩ := Prod.mk.inj hcall
    exact hanswer connection (RouteAnswer.responseConnection.inj hresponse)
  · have hstep : routes.step (.responseConnection frame) =
        (.responseConnection (.ok (some connection)),
          if isFinal frame then routes.eraseP fun entry => entry.1 = key else routes) := by
      rw [ResponseRoutes.step, heq]
      rfl
    rw [hstep]
    by_cases hfinal : isFinal frame = true
    · rw [if_pos hfinal]
      obtain ⟨before, after, rfl, herase⟩ := ResponseRoutes.eraseP_of_mem h.nodup hmem
      rw [herase]
      have hsub : (before ++ after).Sublist (before ++ (key, connection) :: after) :=
        (Sublist.refl before).append (sublist_cons_self _ after)
      refine ⟨h.nodup.sublist (hsub.map _), hsub.length_le.trans h.length_le,
        fun key' connection' hmem' => ?_⟩
      refine (h.awaited key' connection' (hsub.subset hmem')).concat ?_
      -- the entries left are of other keys
      rintro ⟨reply, connection'', heq', -, hreply⟩
      cases heq'
      obtain rfl : key = key' := Option.some.inj (hkey.symm.trans hreply)
      have hnodup := h.nodup
      rw [map_append, map_cons, nodup_middle] at hnodup
      exact (nodup_cons.mp hnodup).1 (by
        rw [← map_append]
        exact mem_map.mpr ⟨_, hmem', rfl⟩)
    · rw [if_neg hfinal]
      refine h.concat ?_
      rintro key' ⟨reply, connection', heq', hreply, -⟩
      cases heq'
      exact hfinal hreply

/-- The table after the calls. -/
def routesAfter (calls : List RouteCall) : ResponseRoutes :=
  Machine.run ResponseRoutes.step [] calls

/-- The calls with their answers. -/
def routeHistory (calls : List RouteCall) : List (RouteCall × RouteAnswer) :=
  Machine.trace ResponseRoutes.step [] calls

theorem tracks_routesAfter (calls : List RouteCall) :
    Tracks (routeHistory calls) (routesAfter calls) := by
  refine Machine.history_invariant ResponseRoutes.step
    ⟨nodup_nil, Nat.zero_le _, nofun⟩ (fun history routes call h => ?_) calls
  cases call with
  | received frame connection => exact h.received frame connection
  | responseConnection frame => exact h.responseConnection frame

/-- **Responses leave on the connection of their request.** In a run none of whose messages mixes
the two names of Via badly, a response is routed only to a connection over which a request of its
transaction came in, and only before a final response of that transaction was routed. A final
response takes out its own entry, any other leaves the table as it is; an entry stays with its
connection when the request comes again. -/
theorem response_connection_owned (calls : List RouteCall)
    (hvia : ∀ call ∈ calls, LongViaFirst call.frame) (frame : Bytes) (hframe : LongViaFirst frame) :
    (∀ connection, ((routesAfter calls).responseConnection frame).1 = .ok (some connection) →
      ∃ key, transaction frame = some key ∧
        Awaited transaction (routeHistory calls) key connection ∧
        ∃ before after, routesAfter calls = before ++ (key, connection) :: after ∧
          ((routesAfter calls).responseConnection frame).2 =
            if isFinal frame then before ++ after else routesAfter calls) ∧
    ((∀ connection, ((routesAfter calls).responseConnection frame).1 ≠ .ok (some connection)) →
      ((routesAfter calls).responseConnection frame).2 = routesAfter calls) ∧
    (∀ key connection other, (key, connection) ∈ routesAfter calls → isAnswered frame →
      transaction frame = some key → (routesAfter calls).received frame other =
        (if connection = other then .ok () else .error CHANNEL_STREAM_RESPONSE_OWNER_MISSING,
          routesAfter calls)) ∧ ((routesAfter calls).map Prod.fst).Nodup ∧
    (routesAfter calls).length ≤ MAX_PENDING_RESPONSES := by
  have htracks := tracks_routesAfter calls
  have hcases := (routesAfter calls).responseConnection_cases frame
  have hkey : transaction frame = ResponseKey.parse frame := transaction_eq hframe
  refine ⟨fun connection hrouted => ?_, fun hnone => ?_,
    fun key connection other hmem hanswered h => ?_, htracks.nodup, htracks.length_le⟩
  · obtain ⟨-, hanswer⟩ | ⟨key, connection', hparse, hmem, heq⟩ := hcases
    · exact absurd hrouted (hanswer connection)
    · rw [heq] at hrouted ⊢
      obtain rfl : connection' = connection := by simpa using hrouted
      obtain ⟨before, after, hroutes, herase⟩ := ResponseRoutes.eraseP_of_mem htracks.nodup hmem
      refine ⟨key, hkey.trans hparse, ?_, before, after, hroutes, ?_⟩
      · refine (htracks.awaited key connection' hmem).congr fun call hcall => transaction_eq ?_
        refine hvia call.1 ?_
        rw [← Machine.map_fst_trace ResponseRoutes.step [] calls]
        exact mem_map_of_mem hcall
      · rw [herase]
  · obtain ⟨hsame, -⟩ | ⟨key, connection', -, -, heq⟩ := hcases
    · exact hsame
    · exact absurd (congrArg Prod.fst heq) (hnone connection')
  · exact ResponseRoutes.received_of_mem htracks.nodup hmem hanswered (hkey ▸ h)

end Runs

section Samples

/-- An INVITE with the given Via fields. -/
def sampleInvite (vias : String) : Bytes :=
  asBytes ("INVITE sip:u@h SIP/2.0\r\n" ++ vias ++ "Call-ID: c\r\nCSeq: 1 INVITE\r\n\r\n").toList

/-- Its success, with the given Via fields. -/
def sampleSuccess (vias : String) : Bytes :=
  asBytes ("SIP/2.0 200 OK\r\n" ++ vias ++ "Call-ID: c\r\nCSeq: 1 INVITE\r\n\r\n").toList

def sampleVia : String := "Via: SIP/2.0/TLS b;branch=z9hG4bK2\r\n"

/-- After one request only its own key is awaited. -/
theorem keyOf_of_awaited {keyOf : Bytes → Option ResponseKey} {request : Bytes}
    {connection connection' : UInt64} {key : ResponseKey}
    (h : Awaited keyOf (routeHistory [.received request connection]) key connection') :
    keyOf request = some key := by
  obtain ⟨earlier, request', later, hhistory, -, hkey, -⟩ := h
  have hmem : (RouteCall.received request' connection', RouteAnswer.received (.ok ())) ∈
      routeHistory [.received request connection] := by
    rw [hhistory]
    exact mem_append_cons_self
  rw [routeHistory, Machine.trace_cons, Machine.trace_nil, mem_singleton] at hmem
  obtain ⟨rfl, -⟩ := RouteCall.received.inj (Prod.mk.inj hmem).1
  exact hkey

/-- A response is routed to the connection of a request of another transaction, which has its
topmost Via in compact form. -/
theorem response_connection_mixed_via :
    let request := sampleInvite ("v: SIP/2.0/TLS a;branch=z9hG4bK1\r\n" ++ sampleVia)
    let reply := sampleSuccess sampleVia
    ((routesAfter [.received request 1]).responseConnection reply).1 = .ok (some 1) ∧
      ¬ ∃ key, transaction reply = some key ∧
        Awaited transaction (routeHistory [.received request 1]) key 1 := by
  intro request reply
  refine ⟨by decide +kernel, ?_⟩
  rintro ⟨key, hreply, hawaited⟩
  have hne : transaction request ≠ transaction reply := by decide +kernel
  exact hne ((keyOf_of_awaited hawaited).trans hreply.symm)

/-- A request and its success, which carries another parameter in its Via. -/
theorem response_connection_owned_sample : let request := sampleInvite sampleVia
    let reply := sampleSuccess "Via: SIP/2.0/TLS b;received=192.0.2.1;branch=z9hG4bK2\r\n"
    ∃ key, transaction reply = some key ∧
      Awaited transaction (routeHistory [.received request 7]) key 7 := by
  intro request reply
  have hlong : ∀ frame ∈ [request, reply], LongViaFirst frame := by
    intro frame hframe field hfield
    have hfirst : ∀ f ∈ [request, reply], ((headerFields f).find? isVia).all
        (fun field => eqIgnoreAsciiCase field.1 "Via".toList) = true := by decide +kernel
    have hnamed := hfirst frame hframe
    rw [hfield] at hnamed
    exact .inl hnamed
  have howned := response_connection_owned [.received request 7]
    (fun call hcall => by
      rw [mem_singleton.mp hcall]
      exact hlong request mem_cons_self) reply (hlong reply (by simp))
  obtain ⟨key, hkey, hawaited, -⟩ := howned.1 7 (by decide +kernel)
  exact ⟨key, hkey, hawaited⟩

end Samples

end SimMaster.SipStream
