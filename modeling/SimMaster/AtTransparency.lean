import SimMaster.AtSteps

/-!
# Commands among indications

While a command waits for its reply, indications may come before and between the lines of the
reply. The router takes them out, so the reply reads as if they had not come, however the stream is
cut into readings; and the router has seen exactly them.
-/

namespace SimMaster.At

open Rust List UrcRouter

namespace AtSession

/-! ## One line -/

variable {data : Bytes}

theorem takeWhile_append_lf (rest : Bytes) (hlf : 0x0a ∉ data) :
    (data ++ 0x0a :: rest).takeWhile (· ≠ 0x0a) = data ∧
      (data ++ 0x0a :: rest).dropWhile (· ≠ 0x0a) = 0x0a :: rest := by
  have hall : ∀ b ∈ data, decide (b ≠ 0x0a) = true := fun b hb =>
    decide_eq_true fun h => hlf (h ▸ hb)
  rw [takeWhile_append_of_pos hall, dropWhile_append_of_pos hall]
  simp

variable {rest : Bytes}

theorem append_lf_inj {data' rest' : Bytes} (hlf : 0x0a ∉ data) (hlf' : 0x0a ∉ data')
    (h : data ++ 0x0a :: rest = data' ++ 0x0a :: rest') : data = data' ∧ rest = rest' := by
  have htake := (takeWhile_append_lf rest hlf).1
  rw [h, (takeWhile_append_lf rest' hlf').1] at htake
  subst htake
  exact ⟨rfl, (cons.inj (append_cancel_left h)).2⟩

variable {s : AtSession}

/-- The line at the front of the buffer is taken out. -/
theorem popLine_of_append (hlf : 0x0a ∉ data) (hbuf : s.readBuf = data ++ 0x0a :: rest) :
    ∃ s', s.popLine = some (lineText (data ++ [0x0a]), s') ∧ s'.readBuf = rest ∧
      s'.urcs = s.urcs ∧ s'.port = s.port := by
  obtain ⟨htake, hdrop⟩ := takeWhile_append_lf rest hlf
  refine ⟨s.perform .popped, ?_, ?_, rfl, rfl⟩
  · rw [popLine, if_pos (by rw [hbuf]; simp), hbuf, htake]
  · simp only [perform, apply, hbuf, hdrop, tail_cons]

theorem popLine_of_notMem (h : 0x0a ∉ s.readBuf) : s.popLine = none := if_neg h

/-- A reading that fits is appended to the buffer. -/
theorem readAvailable_of_fits (hport : s.port = true)
    (hfits : s.readBuf.length + data.length ≤ MAX_BUFFER_BYTES) :
    ∃ s', s.readAvailable data = .ok s' ∧ s'.readBuf = s.readBuf ++ data ∧ s'.urcs = s.urcs ∧
      s'.port = true := by
  rw [readAvailable, hport, if_neg (by decide)]
  by_cases hempty : data.isEmpty = true
  · rw [if_pos hempty]
    exact ⟨s, rfl, by rw [isEmpty_iff.mp hempty, append_nil], rfl, hport⟩
  · rw [if_neg hempty, if_neg (Nat.not_lt.mpr hfits)]
    exact ⟨_, rfl, rfl, rfl, hport⟩

/-- The longest line, without its line feed, that never overflows the buffer: one reading takes in
at most 512 octets. -/
def longestLine : ℕ := MAX_BUFFER_BYTES - 512

/-- **The next line is read**, however it is cut into readings. -/
theorem nextLine_of_chunks (hlf : 0x0a ∉ data)
    (hsize : data.length ≤ longestLine) (polls : List Poll) (chunks : List Bytes)
    (hchunks : ∀ chunk ∈ chunks, chunk.length ≤ 512) (s : AtSession) (hport : s.port = true)
    (hstream : s.readBuf ++ chunks.flatten = data ++ 0x0a :: rest) :
    ∃ (s' : AtSession) (chunks' : List Bytes), s.nextLine (chunks.map .read ++ polls) =
        (.ok (some (lineText (data ++ [0x0a]))), s', chunks'.map .read ++ polls) ∧
      s'.readBuf ++ chunks'.flatten = rest ∧ (∀ chunk ∈ chunks', chunk.length ≤ 512) ∧
      s'.urcs = s.urcs ∧ s'.port = true := by
  induction chunks generalizing s with
  | nil =>
    rw [flatten_nil, append_nil] at hstream
    obtain ⟨s', hpop, hrest, hurcs, hport'⟩ := popLine_of_append hlf hstream
    refine ⟨s', [], ?_, ?_, hchunks, hurcs, hport'.trans hport⟩
    · cases polls with
      | nil => simp only [map_nil, nil_append, nextLine, hpop]
      | cons poll polls => simp only [map_nil, nil_append, nextLine, hpop]
    · rw [hrest, flatten_nil, append_nil]
  | cons chunk chunks ih =>
    obtain ⟨hchunk, hmore⟩ := forall_mem_cons.mp hchunks
    rw [map_cons, cons_append, nextLine]
    by_cases hcomplete : 0x0a ∈ s.readBuf
    · -- the line is in the buffer already
      obtain ⟨front, back, hbuf, hfront⟩ := eq_append_cons_of_mem hcomplete
      rw [hbuf, append_assoc, cons_append] at hstream
      obtain ⟨rfl, hrest⟩ := append_lf_inj hfront hlf hstream
      obtain ⟨s', hpop, hback, hurcs, hport'⟩ := popLine_of_append hfront hbuf
      rw [hpop]
      exact ⟨s', chunk :: chunks, rfl, by rw [hback, hrest], hchunks, hurcs, hport'.trans hport⟩
    · rw [popLine_of_notMem hcomplete]
      dsimp only
      have hshort : s.readBuf.length ≤ data.length := by
        obtain ⟨front, hdata, -⟩ | ⟨front, hbuf, hfront⟩ := append_eq_append_iff.mp hstream
        · rw [hdata, length_append]
          omega
        · cases front with
          | nil => rw [hbuf, append_nil]
          | cons b front =>
            obtain ⟨rfl, -⟩ := cons.inj hfront
            exact absurd (by rw [hbuf]; simp) hcomplete
      have hfits : s.readBuf.length + chunk.length ≤ MAX_BUFFER_BYTES := by
        have hbuffer : longestLine + 512 = MAX_BUFFER_BYTES := by decide
        omega
      obtain ⟨s', hread, hbuf, hurcs, hport'⟩ := readAvailable_of_fits hport hfits
      rw [hread]
      dsimp only
      rw [flatten_cons, ← append_assoc, ← hbuf] at hstream
      obtain ⟨s'', chunks', hnext, hrest, hchunks', hurcs', hport''⟩ := ih hmore s' hport' hstream
      exact ⟨s'', chunks', hnext, hrest, hchunks', hurcs'.trans hurcs, hport''⟩

/-- A line that does not fit into the buffer is an error, however it is cut. -/
theorem nextLine_of_long (polls : List Poll) (chunks : List Bytes)
    (hport : s.port = true) (hlf : 0x0a ∉ s.readBuf ++ chunks.flatten)
    (hfits : s.readBuf.length ≤ MAX_BUFFER_BYTES)
    (hlong : MAX_BUFFER_BYTES < (s.readBuf ++ chunks.flatten).length) :
    ∃ s' polls', s.nextLine (chunks.map .read ++ polls) =
      (.error "AT frame exceeds size limit".toList, s', polls') := by
  induction chunks generalizing s with
  | nil =>
    rw [flatten_nil, append_nil] at hlong
    exact absurd hfits (Nat.not_le.mpr hlong)
  | cons chunk chunks ih =>
    rw [flatten_cons, ← append_assoc] at hlf hlong
    have hpop : s.popLine = none :=
      popLine_of_notMem fun h => hlf (mem_append_left _ (mem_append_left _ h))
    rw [map_cons, cons_append, nextLine, hpop]
    dsimp only
    by_cases hchunk : s.readBuf.length + chunk.length ≤ MAX_BUFFER_BYTES
    · obtain ⟨s', hread, hbuf, -, hport'⟩ := readAvailable_of_fits hport hchunk
      rw [hread]
      rw [← hbuf] at hlf hlong
      exact ih hport' hlf (by rw [hbuf, length_append]; exact hchunk) hlong
    · have hne : ¬ chunk.isEmpty = true := by
        intro hempty
        rw [isEmpty_iff.mp hempty, length_nil, Nat.add_zero] at hchunk
        exact hchunk hfits
      have hread : s.readAvailable chunk = .error "AT frame exceeds size limit".toList := by
        rw [readAvailable, hport, if_neg (by decide), if_neg hne, if_pos (Nat.not_le.mp hchunk)]
      rw [hread]
      exact ⟨_, _, rfl⟩

/-! ## What the router makes of a line -/

/-- A command on a single line that starts with `AT` and does not dial. -/
structure IsCommand (command : Str) : Prop where
  single : '\r' ∉ trim command ∧ '\n' ∉ trim command
  at_prefix : ['A', 'T'] <+: (trim command).map Char.toUpper
  not_dials : UrcRouter.dials ((trim command).map Char.toUpper) = false

/-- The text is that of the command's own name. -/
def Own (command text : Str) : Prop :=
  UrcRouter.ownReply (text.map Char.toUpper) ((trim command).map Char.toUpper) = true

instance (command text : Str) : Decidable (Own command text) := by
  unfold Own
  infer_instance

/-- The indication that a text is, while the command is out. -/
def Indicates (command text : Str) (indication : Indication) : Prop :=
  ¬ Own command text ∧ indicationOf (text.map Char.toUpper) = some indication

/-- A text that is no indication while the command is out. -/
def Plain (command text : Str) : Prop :=
  Own command text ∨ indicationOf (text.map Char.toUpper) = none

variable {text command : Str}

theorem routeText_of_plain (h : Plain command text) (r : UrcRouter) :
    r.routeText text (some command) = (false, r) := by
  unfold routeText
  dsimp only [Option.getD_some]
  rcases h with hown | hnone
  · unfold Own at hown
    rw [if_pos hown]
  · split
    next => rfl
    next => rw [indicate, hnone]

/-- Without a command every line is an indication or nothing. -/
theorem routeText_none (r : UrcRouter) (text : Str) :
    r.routeText text none = r.indicate text (text.map Char.toUpper) [] := by
  have hown : ownReply (text.map Char.toUpper) [] = false := by
    unfold ownReply
    cases splitOnce ':' (text.map Char.toUpper) with
    | none => rfl
    | some parts => rfl
  have hempty : (trim ((none : Option Str).getD [])).map Char.toUpper = [] := rfl
  rw [routeText, hempty, if_neg (fun h => Bool.false_ne_true (hown.symm.trans h))]

variable {indication : Indication}

/-- An indication is taken out, and does what it does without a command. -/
theorem routeText_of_indicates
    (hcommand : IsCommand command) (h : Indicates command text indication) (r : UrcRouter) :
    r.routeText text (some command) = (true, (r.routeText text none).2) := by
  have hown := h.1
  unfold Own at hown
  rw [routeText_none]
  unfold routeText
  dsimp only [Option.getD_some]
  rw [if_neg hown]
  unfold indicate
  rw [h.2]
  cases indication with
  | callFinal =>
    dsimp only
    rw [hcommand.not_dials]
    rfl
  | call | storedSms | directPdu | storedReport | ussd | registration | pin | vendor => rfl

/-- No indication starts as a command does. -/
theorem indicationOf_at (rest : Str) : indicationOf ('A' :: 'T' :: rest) = none := by
  rfl

theorem ne_command_of_indicates
    (hcommand : IsCommand command) (h : Indicates command (trim text) indication) :
    trim text ≠ command := by
  rintro rfl
  obtain ⟨rest, hrest⟩ := hcommand.at_prefix
  have hindication := h.2
  rw [trim_trim] at hrest
  rw [← hrest] at hindication
  cases (indicationOf_at rest).symm.trans hindication

/-! ## Items of the stream -/

/-- The text of a line that came without its line feed. -/
def textOf (line : Bytes) : Str := lineText (line ++ [0x0a])

/-- What comes after a command: a line of its reply, an indication, or a PDU with its header. -/
inductive Item where
  | reply (line : Bytes)
  | indication (line : Bytes)
  | direct (header body : Bytes)

def Item.lines : Item → List Bytes
  | .reply line | .indication line => [line]
  | .direct header body => [header, body]

/-- The lines that are not of the reply. -/
def Item.inserted : Item → List Bytes
  | .reply _ => []
  | .indication line => [line]
  | .direct header body => [header, body]

def Item.isReply : Item → Bool
  | .reply _ => true
  | _ => false

/-- A line of the reply that is neither blank nor the echo. -/
def Item.reply? (command : Str) : Item → Option Str
  | .reply line =>
    if (trim (textOf line)).isEmpty || trim (textOf line) == command then none
    else some (textOf line)
  | _ => none

def Item.IsItem (command : Str) : Item → Prop
  | .reply line => (Item.reply line).reply? command ≠ none → Plain command (trim (textOf line))
  | .indication line => ∃ indication, (∀ kind, indication ≠ .directPdu kind) ∧
      Indicates command (trim (textOf line)) indication
  | .direct header body => ∃ kind,
      Indicates command (trim (textOf header)) (.directPdu kind) ∧
      hexLine (trim (textOf body)) = true ∧
      validPdu kind (headerLength (UrcRouter.payload (trim (textOf header))))
        (trim (textOf body)) = true

/-- The item is complete, and its lines are no longer than the buffer can hold. -/
structure Item.Valid (command : Str) (item : Item) : Prop where
  isItem : item.IsItem command
  fits : ∀ line ∈ item.lines, 0x0a ∉ line ∧ line.length ≤ longestLine

/-- The octets of the lines. -/
def wire (lines : List Bytes) : Bytes := lines.flatMap (· ++ [0x0a])

/-- The router after these lines, without a command. -/
def routeAll (r : UrcRouter) (lines : List (Instant × Str)) : UrcRouter :=
  lines.foldl (fun r line => (r.route line.1 line.2 none).2) r

theorem routeAll_append (r : UrcRouter) (lines more : List (Instant × Str)) :
    routeAll r (lines ++ more) = routeAll (routeAll r lines) more := foldl_append

/-- The session waits for lines, and no header waits for its PDU. -/
structure Ready (s : AtSession) : Prop where
  port : s.port = true
  pendingPdu : s.urcs.pendingPdu = none
  framingFault : s.urcs.framingFault = false

/-! ## Routing the lines of an item -/

variable {r : UrcRouter}

theorem route_of_none (h : r.pendingPdu = none) (now : Instant) (line : Str)
    (command : Option Str) : r.route now line command = r.routeText (trim line) command := by
  rw [UrcRouter.route, h]

theorem framingFault_indicate (h : r.framingFault = false)
    (line upper command : Str) : (r.indicate line upper command).2.framingFault = false := by
  obtain ⟨events, heq | ⟨kind, header, heq⟩ | heq⟩ := r.indicate_cases line upper command
  · rw [heq]
    exact h
  · rw [heq, beginPdu, dropPending_framingFault]
    exact h
  · rw [heq]
    rfl

variable {line : Str}

theorem routeCommand_of_route {outside : Outside} {routed : Bool}
    (hroute : s.urcs.route (outside.clock s.log.length) line (some command) = (routed, r))
    (hfault : r.framingFault = false) : ∃ s', s.routeCommand outside line command =
      (.ok routed, s') ∧ s'.urcs = r ∧ s'.port = s.port ∧ s'.readBuf = s.readBuf := by
  have hurcs : (s.route outside line (some command)).2.urcs = r := congrArg Prod.snd hroute
  have hrouted : (s.route outside line (some command)).1 = routed := congrArg Prod.fst hroute
  refine ⟨(s.route outside line (some command)).2.perform .faultTaken, ?_, ?_, rfl, rfl⟩
  · unfold routeCommand
    dsimp only
    rw [hurcs, hfault, if_neg (by decide), hrouted]
  · have htaken : ((s.route outside line (some command)).2.perform .faultTaken).urcs =
        { r with framingFault := false } := by
      rw [← hurcs]
      rfl
    rw [htaken, ← hfault]

variable (outside : Outside)

/-- A line of the reply leaves the router as it is. -/
theorem routeCommand_plain (hs : Ready s) (h : Plain command (trim line)) :
    ∃ s', s.routeCommand outside (trim line) command = (.ok false, s') ∧ s'.urcs = s.urcs ∧
      s'.port = s.port ∧ s'.readBuf = s.readBuf := by
  refine routeCommand_of_route ?_ hs.framingFault
  rw [route_of_none hs.pendingPdu, trim_trim, routeText_of_plain h]

/-- An indication is routed as it is without the command. -/
theorem routeCommand_indication (hcommand : IsCommand command) (hs : Ready s)
    (h : Indicates command (trim line) indication) :
    ∃ s', s.routeCommand outside (trim line) command = (.ok true, s') ∧
      s'.urcs = (s.urcs.route (outside.clock s.log.length) line none).2 ∧
      s'.port = s.port ∧ s'.readBuf = s.readBuf := by
  refine routeCommand_of_route ?_ ?_
  · rw [route_of_none hs.pendingPdu, route_of_none hs.pendingPdu, trim_trim,
      routeText_of_indicates hcommand h]
  · rw [route_of_none hs.pendingPdu, routeText_none]
    exact framingFault_indicate hs.framingFault ..

theorem takeBody_none (now : Instant) (kind : DirectKind) (length : Option ℕ)
    (line : Str) (hfault : r.framingFault = false) (hpending : r.pendingPdu = none) :
    (r.takeBody now kind length line none).framingFault = false ∧
      (r.takeBody now kind length line none).pendingPdu = none := by
  unfold takeBody
  dsimp only
  split
  next => exact ⟨hfault, hpending⟩
  next => exact ⟨by rw [hfault, Option.isSome_none, Bool.and_false]; rfl, hpending⟩

theorem isEmpty_of_hexLine (h : hexLine text = true) : text.isEmpty = false := by
  rw [hexLine, Bool.and_eq_true, Bool.and_eq_true, Bool.not_eq_true'] at h
  exact h.1.1

variable {kind : DirectKind}

/-- The PDU after its header is routed as it is without the command. -/
theorem routeCommand_body (command : Str) {length : Option ℕ}
    (hpending : s.urcs.pendingPdu = some (kind, length))
    (hfault : s.urcs.framingFault = false) (hhex : hexLine (trim line) = true)
    (hvalid : validPdu kind length (trim line) = true) :
    ∃ s', s.routeCommand outside (trim line) command = (.ok true, s') ∧
      s'.urcs = (s.urcs.route (outside.clock s.log.length) line none).2 ∧
      s'.urcs.pendingPdu = none ∧ s'.urcs.framingFault = false ∧
      s'.port = s.port ∧ s'.readBuf = s.readBuf := by
  have hempty := isEmpty_of_hexLine hhex
  have hroute : ∀ line' command', trim line' = trim line →
      s.urcs.route (outside.clock s.log.length) line' command' =
        (true, UrcRouter.takeBody { s.urcs with pendingPdu := none }
          (outside.clock s.log.length) kind length (trim line) none) := by
    intro line' command' hline
    rw [UrcRouter.route, hpending, hline]
    dsimp only
    rw [if_neg (fun h => Bool.false_ne_true (hempty.symm.trans h)), if_pos hhex]
    unfold UrcRouter.takeBody
    simp only [hvalid, Bool.not_true, Bool.false_and]
  obtain ⟨hfault', hpending'⟩ := takeBody_none (r := { s.urcs with pendingPdu := none })
    (outside.clock s.log.length) kind length (trim line) hfault rfl
  obtain ⟨s', hs', hurcs, hport, hbuf⟩ :=
    routeCommand_of_route (hroute (trim line) (some command) (trim_trim line)) hfault'
  refine ⟨s', hs', ?_, ?_, ?_, hport, hbuf⟩
  · rw [hroute line none rfl, hurcs]
  · rw [hurcs, hpending']
  · rw [hurcs, hfault']

/-! ## The loop over the items -/

/-- What becomes of a line of the reply: the loop goes on, or it ends, without a result if the reply
is too long. -/
def sized {σ ρ : Type} (accept : σ → Str → σ ⊕ ρ) (state : σ × ℕ) (line : Str) :
    (σ × ℕ) ⊕ Option ρ :=
  if MAX_RESPONSE_BYTES < state.2 + utf8Len line then .inr none
  else (accept state.1 line).map (fun next => (next, state.2 + utf8Len line)) some

/-- The lines that `accept` goes on after. -/
def acceptMore {σ ρ : Type} (accept : σ → Str → σ ⊕ ρ) : σ → List Str → Option σ
  | state, [] => some state
  | state, line :: lines =>
    match accept state line with
    | .inl state => acceptMore accept state lines
    | .inr _ => none

/-- How a loop ends that has taken in a line. -/
def endOf {σ ρ : Type} (s : AtSession) (polls : List Poll) :
    Option ρ → ReplyEnd σ ρ × AtSession × List Poll
  | some result => (.done result, s, polls)
  | none => (.failed "AT response exceeds size limit".toList, s.reset, polls)

/-- The octets that are still to be taken out, in the buffer and in short readings. -/
structure Arrives (s : AtSession) (chunks : List Bytes) (data : Bytes) : Prop where
  short : ∀ chunk ∈ chunks, chunk.length ≤ 512
  stream : s.readBuf ++ chunks.flatten = data

section Loop

variable {σ ρ : Type} {accept : σ → Str → σ ⊕ ρ} {outside : Outside} {command : Str}
  {lineCount : ℕ} {polls polls' : List Poll} {s s' s'' : AtSession} {state state' : σ}
  {size size' : ℕ} {line : Str}

variable (hnext : s.nextLine polls = (.ok (some line), s', polls'))
include hnext

theorem replyLoop_skip (hskip : ((trim line).isEmpty || trim line == command) = true) :
    replyLoop outside accept command (lineCount + 1) polls s state size =
      replyLoop outside accept command lineCount polls' s' state size := by
  rw [replyLoop, hnext]
  dsimp only
  rw [if_pos hskip]

variable (hskip : ((trim line).isEmpty || trim line == command) = false)
include hskip

theorem replyLoop_routed (hroute : s'.routeCommand outside (trim line) command = (.ok true, s'')) :
    replyLoop outside accept command (lineCount + 1) polls s state size =
      replyLoop outside accept command lineCount polls' s'' state size := by
  rw [replyLoop, hnext]
  dsimp only
  rw [if_neg (fun h => Bool.false_ne_true (hskip.symm.trans h)), hroute]

theorem replyLoop_taken (hroute : s'.routeCommand outside (trim line) command = (.ok false, s'')) :
    replyLoop outside accept command (lineCount + 1) polls s state size =
      (sized accept (state, size) line).elim
        (fun next => replyLoop outside accept command lineCount polls' s'' next.1 next.2)
        (endOf s'' polls') := by
  rw [replyLoop, hnext]
  dsimp only
  rw [if_neg (fun h => Bool.false_ne_true (hskip.symm.trans h)), hroute]
  dsimp only
  by_cases hlong : MAX_RESPONSE_BYTES < size + utf8Len line
  · rw [sized, if_pos hlong, if_pos hlong]
    rfl
  · rw [sized, if_neg hlong, if_neg hlong]
    cases accept state line <;> rfl

theorem replyLoop_accept (hroute : s'.routeCommand outside (trim line) command = (.ok false, s''))
    (haccept : sized accept (state, size) line = .inl (state', size')) :
    replyLoop outside accept command (lineCount + 1) polls s state size =
      replyLoop outside accept command lineCount polls' s'' state' size' := by
  rw [replyLoop_taken hnext hskip hroute, haccept]
  rfl

theorem replyLoop_end {result : Option ρ}
    (hroute : s'.routeCommand outside (trim line) command = (.ok false, s''))
    (haccept : sized accept (state, size) line = .inr result) :
    replyLoop outside accept command (lineCount + 1) polls s state size =
      endOf s'' polls' result := by
  rw [replyLoop_taken hnext hskip hroute, haccept]
  rfl

end Loop

variable {chunks : List Bytes}

theorem nextLine_of_arrives {line : Bytes}
    (hport : s.port = true) (hline : 0x0a ∉ line ∧ line.length ≤ longestLine)
    (h : Arrives s chunks (line ++ 0x0a :: rest)) (more : List Poll) :
    ∃ (s' : AtSession) (chunks' : List Bytes), s.nextLine (chunks.map .read ++ more) =
        (.ok (some (textOf line)), s', chunks'.map .read ++ more) ∧ Arrives s' chunks' rest ∧
      s'.urcs = s.urcs ∧ s'.port = true := by
  obtain ⟨s', chunks', hnext, hstream, hshort, hurcs, hport'⟩ :=
    nextLine_of_chunks hline.1 hline.2 more chunks h.short s hport h.stream
  exact ⟨s', chunks', hnext, ⟨hshort, hstream⟩, hurcs, hport'⟩

theorem wire_cons (line : Bytes) (lines : List Bytes) :
    wire (line :: lines) = line ++ 0x0a :: wire lines := by
  rw [wire, flatMap_cons, ← wire, append_assoc, singleton_append]

theorem wire_append (lines more : List Bytes) : wire (lines ++ more) = wire lines ++ wire more :=
  flatMap_append

variable {s' : AtSession}

theorem Ready.of_urcs (h : Ready s) (hurcs : s'.urcs = s.urcs)
    (hport : s'.port = true) : Ready s' :=
  ⟨hport, hurcs ▸ h.pendingPdu, hurcs ▸ h.framingFault⟩

theorem Arrives.of_readBuf
    (h : Arrives s chunks data) (hbuf : s'.readBuf = s.readBuf) : Arrives s' chunks data :=
  ⟨h.short, by rw [hbuf, h.stream]⟩

section Items

variable {σ ρ : Type} {accept : σ → Str → σ ⊕ ρ} (outside : Outside) {command : Str}

/-- The header of a PDU begins it. -/
theorem route_pduHeader {header : Str} (now : Instant)
    (hpending : r.pendingPdu = none) (h : Indicates command (trim header) (.directPdu kind)) :
    (r.route now header none).2.pendingPdu = some (kind, headerLength (payload (trim header))) := by
  rw [route_of_none hpending, routeText_none, indicate, h.2]
  rfl

theorem pendingPdu_indicate {upper : Str} (hpending : r.pendingPdu = none)
    (h : indicationOf upper = some indication) (hdirect : ∀ kind, indication ≠ .directPdu kind) :
    (r.indicate line upper []).2.pendingPdu = none := by
  rw [indicate, h]
  cases indication with
  | directPdu kind => exact absurd rfl (hdirect kind)
  | pin => exact dropPending_pendingPdu r
  | callFinal | call | storedSms | storedReport | ussd | registration | vendor => exact hpending

theorem toUpper_hexdigit {c : Char} (h : isAsciiHexdigit c = true) : c.toUpper ≠ 'T' := by
  intro hT
  unfold Char.toUpper at hT
  split at hT
  next =>
    have hval : c.val + ('A'.val - 'a'.val) = 't'.val + ('A'.val - 'a'.val) :=
      (congrArg Char.val hT).trans (by decide +kernel)
    have hc : c = 't' := Char.ext ((UInt32.add_left_inj _).mp hval)
    subst hc
    cases h
  next =>
    subst hT
    cases h

/-- A line of hexadecimal digits is no command. -/
theorem ne_command_of_hexLine (hcommand : IsCommand command)
    (hhex : hexLine (trim text) = true) : trim text ≠ command := by
  rintro rfl
  obtain ⟨rest, hrest⟩ := hcommand.at_prefix
  rw [trim_trim] at hrest
  rw [hexLine, Bool.and_eq_true] at hhex
  have hletter : 'T' ∈ (trim text).map Char.toUpper := by
    rw [← hrest]
    simp
  obtain ⟨c, hc, hT⟩ := mem_map.mp hletter
  exact toUpper_hexdigit (all_eq_true.mp hhex.2 c hc) hT

theorem isEmpty_of_indicates (h : Indicates command text indication) : text.isEmpty = false := by
  cases text with
  | nil => cases h.2
  | cons c text => rfl

theorem skip_false (hempty : (trim text).isEmpty = false)
    (hne : trim text ≠ command) : ((trim text).isEmpty || trim text == command) = false := by
  rw [hempty, Bool.false_or, beq_eq_false_iff_ne]
  exact hne

/-- What the loop does with an item: it goes on with the rest of the stream, and the router has
seen the lines that are not of the reply. -/
structure Absorbed (outside : Outside) (item : Item) (rest : Bytes) (s s' : AtSession)
    (chunks' : List Bytes) : Prop where
  arrives : Arrives s' chunks' rest
  ready : Ready s'
  urcs : ∃ stamped : List (Instant × Str),
    stamped.map Prod.snd = item.inserted.map textOf ∧ s'.urcs = routeAll s.urcs stamped

variable {state state' : σ × ℕ} {s : AtSession}

theorem replyLoop_item (hcommand : IsCommand command) {item : Item} (hvalid : item.Valid command)
    (hmore : acceptMore (sized accept) state (item.reply? command).toList = some state')
    (hs : Ready s)
    (h : Arrives s chunks (wire item.lines ++ rest)) (lineCount : ℕ) (more : List Poll) :
    ∃ s' chunks', Absorbed outside item rest s s' chunks' ∧
      replyLoop outside accept command (lineCount + item.lines.length)
          (chunks.map .read ++ more) s state.1 state.2 =
        replyLoop outside accept command lineCount (chunks'.map .read ++ more) s'
          state'.1 state'.2 := by
  have hfits := hvalid.fits
  cases item with
  | reply line =>
    rw [Item.lines, wire_cons, append_assoc] at h
    obtain ⟨s₁, chunks₁, hnext, harrives, hurcs, hport⟩ :=
      nextLine_of_arrives hs.port (hfits line mem_cons_self) h more
    by_cases hskip : ((trim (textOf line)).isEmpty || trim (textOf line) == command) = true
    · rw [Item.reply?, if_pos hskip] at hmore
      cases hmore
      exact ⟨s₁, chunks₁, ⟨harrives, hs.of_urcs hurcs hport, [], rfl, hurcs⟩,
        replyLoop_skip hnext hskip⟩
    · have hreply : (Item.reply line).reply? command = some (textOf line) := if_neg hskip
      have hplain := hvalid.isItem (by rw [hreply]; exact Option.some_ne_none _)
      obtain ⟨s₂, hroute, hurcs₂, hport₂, hbuf₂⟩ :=
        routeCommand_plain outside (hs.of_urcs hurcs hport) hplain
      rw [hreply] at hmore
      refine ⟨s₂, chunks₁, ⟨harrives.of_readBuf hbuf₂,
        hs.of_urcs (hurcs₂.trans hurcs) (hport₂.trans hport), [], rfl, hurcs₂.trans hurcs⟩, ?_⟩
      rw [Option.toList_some, acceptMore] at hmore
      cases haccept : sized accept state (textOf line) with
      | inr result =>
        rw [haccept] at hmore
        cases hmore
      | inl next =>
        rw [haccept] at hmore
        cases hmore
        exact replyLoop_accept hnext (Bool.eq_false_iff.mpr hskip) hroute haccept
  | indication line =>
    obtain ⟨indication, hdirect, hindicates⟩ := hvalid.isItem
    cases hmore
    rw [Item.lines, wire_cons, append_assoc] at h
    obtain ⟨s₁, chunks₁, hnext, harrives, hurcs, hport⟩ :=
      nextLine_of_arrives hs.port (hfits line mem_cons_self) h more
    have hs₁ := hs.of_urcs hurcs hport
    obtain ⟨s₂, hroute, hurcs₂, hport₂, hbuf₂⟩ :=
      routeCommand_indication outside hcommand hs₁ hindicates
    have hrouted : s₂.urcs =
        (s.urcs.indicate (trim (textOf line)) ((trim (textOf line)).map Char.toUpper) []).2 := by
      rw [hurcs₂, route_of_none hs₁.pendingPdu, routeText_none, hurcs]
    refine ⟨s₂, chunks₁, ⟨harrives.of_readBuf hbuf₂, ⟨hport₂.trans hport, ?_, ?_⟩,
      [(outside.clock s₁.log.length, textOf line)], rfl, hurcs ▸ hurcs₂⟩, ?_⟩
    · rw [hrouted]
      exact pendingPdu_indicate hs.pendingPdu hindicates.2 hdirect
    · rw [hrouted]
      exact framingFault_indicate hs.framingFault ..
    · exact replyLoop_routed hnext (skip_false (isEmpty_of_indicates hindicates)
        (ne_command_of_indicates hcommand hindicates)) hroute
  | direct header body =>
    obtain ⟨kind, hindicates, hhex, hpdu⟩ := hvalid.isItem
    cases hmore
    rw [Item.lines, wire_cons, wire_cons, append_assoc, cons_append, append_assoc] at h
    -- the header
    obtain ⟨s₁, chunks₁, hnext, harrives, hurcs, hport⟩ :=
      nextLine_of_arrives hs.port (hfits header mem_cons_self) h more
    have hs₁ := hs.of_urcs hurcs hport
    obtain ⟨s₂, hroute, hurcs₂, hport₂, hbuf₂⟩ :=
      routeCommand_indication outside hcommand hs₁ hindicates
    -- the PDU
    obtain ⟨s₃, chunks₃, hnext₃, harrives₃, hurcs₃, hport₃⟩ :=
      nextLine_of_arrives (hport₂.trans hport)
        (hfits body (mem_cons_of_mem _ mem_cons_self)) (harrives.of_readBuf hbuf₂) more
    have hpending : s₃.urcs.pendingPdu =
        some (kind, headerLength (payload (trim (textOf header)))) := by
      rw [hurcs₃, hurcs₂]
      exact route_pduHeader _ hs₁.pendingPdu hindicates
    have hfault : s₃.urcs.framingFault = false := by
      rw [hurcs₃, hurcs₂, route_of_none hs₁.pendingPdu, routeText_none]
      exact framingFault_indicate hs₁.framingFault ..
    obtain ⟨s₄, hroute₄, hurcs₄, hpending₄, hfault₄, hport₄, hbuf₄⟩ :=
      routeCommand_body outside command hpending hfault hhex hpdu
    refine ⟨s₄, chunks₃, ⟨harrives₃.of_readBuf hbuf₄, ⟨hport₄.trans hport₃, hpending₄, hfault₄⟩,
      [(outside.clock s₁.log.length, textOf header), (outside.clock s₃.log.length, textOf body)],
      rfl, ?_⟩, ?_⟩
    · rw [hurcs₄, hurcs₃, hurcs₂, hurcs]
      rfl
    · have hskip := skip_false (isEmpty_of_indicates hindicates)
        (ne_command_of_indicates hcommand hindicates)
      have hskip₃ := skip_false (isEmpty_of_hexLine hhex) (ne_command_of_hexLine hcommand hhex)
      exact (replyLoop_routed hnext hskip hroute).trans (replyLoop_routed hnext₃ hskip₃ hroute₄)

/-- The lines that the items leave of a reply. -/
def replies (command : Str) (items : List Item) : List Str := items.filterMap (Item.reply? command)

/-- The lines that are not of the reply, in their order. -/
def insertions (items : List Item) : List Str := (items.flatMap Item.inserted).map textOf

theorem acceptMore_append {τ υ : Type} (accept : τ → Str → τ ⊕ υ) (lines more : List Str)
    (state : τ) : acceptMore accept state (lines ++ more) =
      (acceptMore accept state lines).bind (acceptMore accept · more) := by
  induction lines generalizing state with
  | nil => rfl
  | cons line lines ih =>
    rw [cons_append, acceptMore, acceptMore]
    cases accept state line with
    | inl next => exact ih next
    | inr result => rfl

variable {items : List Item}

theorem replyLoop_items (hcommand : IsCommand command) (hvalid : ∀ item ∈ items, item.Valid command)
    (hmore : acceptMore (sized accept) state (replies command items) = some state')
    (hs : Ready s) (h : Arrives s chunks (wire (items.flatMap Item.lines) ++ rest)) (lineCount : ℕ)
    (more : List Poll) : ∃ s' chunks', Arrives s' chunks' rest ∧ Ready s' ∧
      (∃ stamped : List (Instant × Str), stamped.map Prod.snd = insertions items ∧
        s'.urcs = routeAll s.urcs stamped) ∧
      replyLoop outside accept command (lineCount + (items.flatMap Item.lines).length)
          (chunks.map .read ++ more) s state.1 state.2 =
        replyLoop outside accept command lineCount (chunks'.map .read ++ more) s'
          state'.1 state'.2 := by
  induction items generalizing state s chunks with
  | nil =>
    cases hmore
    exact ⟨s, chunks, h, hs, ⟨[], rfl, rfl⟩, rfl⟩
  | cons item items ih =>
    obtain ⟨hitem, hitems⟩ := forall_mem_cons.mp hvalid
    have hreplies : replies command (item :: items) =
        (item.reply? command).toList ++ replies command items := by
      rw [replies, filterMap_cons]
      cases item.reply? command with
      | none => rfl
      | some line => rfl
    rw [hreplies, acceptMore_append, Option.bind_eq_some_iff] at hmore
    obtain ⟨middle, hfirst, hmore⟩ := hmore
    rw [flatMap_cons, wire_append, append_assoc] at h
    obtain ⟨s₁, chunks₁, habsorbed, hloop₁⟩ := replyLoop_item outside hcommand hitem
      hfirst hs h (lineCount + (items.flatMap Item.lines).length) more
    obtain ⟨s₂, chunks₂, harrives, hs₂, ⟨stamped₂, htexts₂, hurcs₂⟩, hloop₂⟩ :=
      ih hitems hmore habsorbed.ready habsorbed.arrives
    obtain ⟨stamped₁, htexts₁, hurcs₁⟩ := habsorbed.urcs
    refine ⟨s₂, chunks₂, harrives, hs₂, ⟨stamped₁ ++ stamped₂, ?_, ?_⟩, ?_⟩
    · rw [map_append, htexts₁, htexts₂, insertions, insertions, flatMap_cons, map_append]
    · rw [hurcs₂, hurcs₁, routeAll_append]
    · rw [flatMap_cons, length_append, Nat.add_comm item.lines.length, ← Nat.add_assoc,
        hloop₁, hloop₂]

/-- A reply ends with this line, and not before. -/
def Ends (accept : σ → Str → σ ⊕ ρ) (command : Str) (state : σ) (items : List Item) (last : Bytes)
    (result : Option ρ) : Prop :=
  ∃ state' line, acceptMore (sized accept) (state, 0) (replies command items) = some state' ∧
    (Item.reply last).reply? command = some line ∧ sized accept state' line = .inr result

theorem replyLoop_ends (hcommand : IsCommand command) {last : Bytes}
    (hvalid : ∀ item ∈ items ++ [Item.reply last], item.Valid command) {state : σ}
    {result : Option ρ} (hends : Ends accept command state items last result) (hs : Ready s)
    (h : Arrives s chunks (wire ((items ++ [Item.reply last]).flatMap Item.lines) ++ rest))
    (lineCount : ℕ) (more : List Poll) : ∃ s' chunks', Arrives s' chunks' rest ∧ Ready s' ∧
      (∃ stamped : List (Instant × Str),
        stamped.map Prod.snd = insertions (items ++ [Item.reply last]) ∧
        s'.urcs = routeAll s.urcs stamped) ∧ replyLoop outside accept command
          (lineCount + ((items ++ [Item.reply last]).flatMap Item.lines).length)
          (chunks.map .read ++ more) s state 0 = endOf s' (chunks'.map .read ++ more) result := by
  obtain ⟨state', line, hmore, hreply, hend⟩ := hends
  have hlast := hvalid (Item.reply last) (mem_append_right _ mem_cons_self)
  have hlines : [Item.reply last].flatMap Item.lines = [last] := rfl
  rw [flatMap_append, hlines, wire_append, append_assoc] at h
  obtain ⟨s₁, chunks₁, harrives, hs₁, ⟨stamped, htexts, hurcs⟩, hloop⟩ :=
    replyLoop_items outside hcommand
      (fun item hitem => hvalid item (mem_append_left _ hitem)) hmore hs h (lineCount + 1) more
  rw [wire_cons, append_assoc] at harrives
  obtain ⟨s₂, chunks₂, hnext, harrives₂, hurcs₂, hport₂⟩ :=
    nextLine_of_arrives hs₁.port (hlast.fits last mem_cons_self) harrives more
  have hs₂ := hs₁.of_urcs hurcs₂ hport₂
  have hplain := hlast.isItem (by rw [hreply]; exact Option.some_ne_none _)
  obtain ⟨s₃, hroute, hurcs₃, hport₃, hbuf₃⟩ :=
    routeCommand_plain outside hs₂ hplain
  have hurcs₃₁ : s₃.urcs = s₁.urcs := hurcs₃.trans hurcs₂
  by_cases hskip : ((trim (textOf last)).isEmpty || trim (textOf last) == command) = true
  · rw [Item.reply?, if_pos hskip] at hreply
    cases hreply
  · rw [Item.reply?, if_neg hskip] at hreply
    cases hreply
    refine ⟨s₃, chunks₂, harrives₂.of_readBuf hbuf₃,
      hs₁.of_urcs hurcs₃₁ (hport₃.trans hport₂), ⟨stamped, ?_, hurcs₃₁.trans hurcs⟩, ?_⟩
    · rw [htexts, insertions, insertions, flatMap_append]
      simp [Item.inserted]
    · have hcount : lineCount + ((items ++ [Item.reply last]).flatMap Item.lines).length =
          lineCount + 1 + (items.flatMap Item.lines).length := by
        rw [flatMap_append, hlines, length_append, length_singleton]
        omega
      rw [hcount, hloop]
      exact replyLoop_end hnext (Bool.eq_false_iff.mpr hskip) hroute hend

/-- A loop that is given its stream has enough turns for every line of it. -/
theorem lineBudget_of_arrives {lines : List Bytes} (h : Arrives s chunks (wire lines ++ rest))
    (more : List Poll) :
    ∃ lineCount, s.lineBudget (chunks.map .read ++ more) = lineCount + lines.length := by
  have hwire : lines.length ≤ (wire lines).count 0x0a := by
    clear h
    induction lines with
    | nil => exact Nat.zero_le _
    | cons line lines ih =>
      rw [wire_cons, count_append, count_cons_self, length_cons]
      omega
  have hcount := congrArg (count 0x0a) h.stream
  rw [count_append, count_append, count_flatten] at hcount
  have hbudget : lines.length ≤ s.lineBudget (chunks.map .read ++ more) := by
    rw [lineBudget, map_append, sum_append, map_map]
    change _ ≤ _ + ((chunks.map (count 0x0a)).sum + _)
    omega
  obtain ⟨lineCount, hlineCount⟩ := Nat.exists_eq_add_of_le' hbudget
  exact ⟨lineCount, hlineCount⟩

end Items

/-! ## What the router reports -/

/-- The hints and the PDUs that the router would give out. -/
def reports (r : UrcRouter) : UrcEvents × DirectBatch := (r.events, r.directBatch)

/-- The routers differ only in when the PDUs came and whether they may be acknowledged. -/
def Alike (r r' : UrcRouter) : Prop :=
  ∃ direct ackBlocked, r' = { r with direct, ackBlocked } ∧
    direct.map (·.value) = r.direct.map (·.value)

theorem Alike.refl (r : UrcRouter) : Alike r r := ⟨r.direct, r.ackBlocked, rfl, rfl⟩

variable {r' : UrcRouter}

section

variable (h : Alike r r')
include h

theorem Alike.reports : reports r' = reports r := by
  obtain ⟨direct, ackBlocked, rfl, hvalues⟩ := h
  rw [reports, reports, directBatch, directBatch, hvalues]

theorem Alike.dropPending : Alike r.dropPending r'.dropPending := by
  obtain ⟨direct, ackBlocked, rfl, hvalues⟩ := h
  obtain ⟨events, pending, pdus, simKey, nextToken, dropped, framingFault, blocked⟩ := r
  cases pending with
  | none => exact ⟨direct, ackBlocked, rfl, hvalues⟩
  | some pending => exact ⟨direct, true, rfl, hvalues⟩

theorem Alike.indicate (line upper command : Str) :
    Alike (r.indicate line upper command).2 (r'.indicate line upper command).2 := by
  have hlength : r'.direct.length = r.direct.length := by
    obtain ⟨direct, ackBlocked, rfl, hvalues⟩ := h
    simpa using congrArg List.length hvalues
  have hevents : ∀ f : UrcEvents → UrcEvents,
      Alike { r with events := f r.events } { r' with events := f r'.events } := by
    obtain ⟨direct, ackBlocked, rfl, hvalues⟩ := h
    exact fun f => ⟨direct, ackBlocked, rfl, hvalues⟩
  unfold UrcRouter.indicate
  cases indicationOf upper with
  | none => exact h
  | some indication =>
    cases indication with
    | directPdu kind =>
      obtain ⟨direct, ackBlocked, heq, hvalues⟩ :=
        (hevents fun events => UrcRouter.noteDirect events kind).dropPending
      refine ⟨direct, ackBlocked, ?_, hvalues⟩
      dsimp only [UrcRouter.beginPdu]
      rw [heq]
    | pin =>
      obtain ⟨direct, ackBlocked, heq, -⟩ := h.dropPending
      refine ⟨[], false, ?_, rfl⟩
      dsimp only [UrcRouter.clearPrivateData, UrcRouter.resetFrame]
      rw [UrcRouter.dropPending_direct, UrcRouter.dropPending_direct, hlength, heq]
    | callFinal => exact hevents fun events => { events with callChanged := true }
    | call => exact hevents fun events => { events with callChanged := true }
    | storedSms => exact hevents fun events => { events with smsStored := true }
    | storedReport => exact hevents fun events => { events with deliveryReport := true }
    | ussd => exact hevents fun events => { events with ussd := true }
    | registration => exact hevents fun events => { events with registrationChanged := true }
    | vendor => exact hevents fun events => { events with vendor := true }

theorem Alike.takeBody (now now' : Instant)
    (kind : DirectKind) (length : Option ℕ) (line : Str) (command : Option Str) :
    Alike (r.takeBody now kind length line command)
      (r'.takeBody now' kind length line command) := by
  obtain ⟨direct, ackBlocked, rfl, hvalues⟩ := h
  have hlength : direct.length = r.direct.length := by
    simpa using congrArg List.length hvalues
  unfold takeBody
  dsimp only
  rw [hlength]
  cases if (validPdu kind length line && decide (r.direct.length < 16)) = true then r.simKey
      else none with
  | none => exact ⟨direct, true, rfl, hvalues⟩
  | some simKey =>
    refine ⟨_, ackBlocked, rfl, ?_⟩
    rw [map_append, map_append, hvalues]
    rfl

theorem Alike.route (now now' : Instant) (line : Str) :
    Alike (r.route now line none).2 (r'.route now' line none).2 := by
  have hclear : Alike { r with pendingPdu := none } { r' with pendingPdu := none } := by
    obtain ⟨direct, ackBlocked, rfl, hvalues⟩ := h
    exact ⟨direct, ackBlocked, rfl, hvalues⟩
  have hpending : r'.pendingPdu = r.pendingPdu := by
    obtain ⟨direct, ackBlocked, rfl, -⟩ := h
    rfl
  unfold UrcRouter.route
  dsimp only
  rw [hpending]
  cases hheader : r.pendingPdu with
  | none =>
    dsimp only
    rw [routeText_none, routeText_none]
    exact h.indicate ..
  | some header =>
    dsimp only
    split
    next => exact h
    next =>
      split
      next => exact hclear.takeBody ..
      next =>
        rw [routeText_none, routeText_none]
        refine Alike.indicate ?_ ..
        obtain ⟨direct, ackBlocked, heq, hvalues⟩ := hclear
        refine ⟨direct, true, ?_, hvalues⟩
        rw [heq]
        rfl

/-- It does not matter when the lines came. -/
theorem Alike.routeAll {lines lines' : List (Instant × Str)}
    (hlines : lines.map Prod.snd = lines'.map Prod.snd) :
    Alike (routeAll r lines) (routeAll r' lines') := by
  induction lines generalizing r r' lines' with
  | nil =>
    cases lines' with
    | nil => exact h
    | cons line' lines' => cases hlines
  | cons line lines ih =>
    cases lines' with
    | nil => cases hlines
    | cons line' lines' =>
      rw [map_cons, map_cons] at hlines
      obtain ⟨hline, hmore⟩ := cons.inj hlines
      rw [routeAll, routeAll, foldl_cons, foldl_cons, ← hline]
      exact ih (h.route line.1 line'.1 line.2) hmore

end

/-- A reset without a waiting header loses nothing. -/
theorem reports_transportReset (h : r.pendingPdu = none) :
    reports r.transportReset = reports r := by
  have hreset : r.resetFrame = { r with framingFault := false } := by
    rw [resetFrame, dropPending_of_none r h]
  unfold reports transportReset directBatch
  rw [hreset]
  simp [Function.comp_def]

/-! ## Commands -/

/-- A session that waits for lines, and what comes after its command: the lines of the items, cut
into readings, and anything after them. -/
structure Answered (outside : Outside) (items : List Item) (s : AtSession) (polls : List Poll) :
    Prop where
  ready : Ready s
  written : outside.writeError s.log.length = none
  arrives : ∃ (chunks : List Bytes) (rest : Bytes) (more : List Poll),
    polls = chunks.map .read ++ more ∧ Arrives s chunks (wire (items.flatMap Item.lines) ++ rest)

section Commands

variable {outside : Outside} {command : Str} {items : List Item} {last : Bytes} {s : AtSession}
  {polls : List Poll}

/-- The reply alone is answered for as well. -/
theorem replies_filter (command : Str) (items : List Item) :
    replies command (items.filter Item.isReply) = replies command items := by
  rw [replies, replies, filterMap_filter]
  congr 1
  funext item
  cases item with
  | reply => rfl
  | indication | direct => rfl

theorem filter_concat (items : List Item) (last : Bytes) :
    (items ++ [Item.reply last]).filter Item.isReply =
      items.filter Item.isReply ++ [Item.reply last] := by
  rw [filter_append]
  rfl

variable {σ ρ : Type} {result : Option ρ} {accept : σ → Str → σ ⊕ ρ} {state : σ}

theorem Ends.filter (h : Ends accept command state items last result) :
    Ends accept command state (items.filter Item.isReply) last result := by
  obtain ⟨state', line, hmore, hreply, hend⟩ := h
  exact ⟨state', line, by rw [replies_filter, hmore], hreply, hend⟩

theorem writeCommand_of_ready (hcommand : IsCommand command) (hs : Ready s)
    (hwrite : outside.writeError s.log.length = none) :
    s.writeCommand outside command = (.ok (), s.perform (.wrote (trim command))) := by
  have hempty : (trim command).isEmpty = false := by
    cases htext : trim command with
    | nil =>
      have hprefix := hcommand.at_prefix
      rw [htext] at hprefix
      cases prefix_nil.mp hprefix
    | cons c text => rfl
  have hsingle : (trim command).any (fun c => c = '\r' || c = '\n') = false := by
    rw [any_eq_false]
    intro c hc
    have hreturn : c ≠ '\r' := fun h => hcommand.single.1 (h ▸ hc)
    have hfeed : c ≠ '\n' := fun h => hcommand.single.2 (h ▸ hc)
    simp [hreturn, hfeed]
  rw [writeCommand, hempty, hsingle, hs.port, hwrite]
  rfl

/-- The loop after a command ends with the last line of the reply. -/
theorem replyLoop_of_answered (hcommand : IsCommand command)
    (hvalid : ∀ item ∈ items ++ [Item.reply last], item.Valid command)
    (hends : Ends accept command state items last result)
    (h : Answered outside (items ++ [Item.reply last]) s polls) : ∃ s' polls', Ready s' ∧
      (∀ stamped : List (Instant × Str),
        stamped.map Prod.snd = insertions (items ++ [Item.reply last]) →
        reports s'.urcs = reports (routeAll s.urcs stamped)) ∧ replyLoop outside accept command
          ((s.perform (.wrote (trim command))).lineBudget polls) polls
          (s.perform (.wrote (trim command))) state 0 = endOf s' polls' result := by
  obtain ⟨chunks, rest, more, rfl, harrives⟩ := h.arrives
  have hwrote : Arrives (s.perform (.wrote (trim command))) chunks
      (wire ((items ++ [Item.reply last]).flatMap Item.lines) ++ rest) :=
    harrives.of_readBuf rfl
  have hready : Ready (s.perform (.wrote (trim command))) := h.ready.of_urcs rfl h.ready.port
  obtain ⟨lineCount, hbudget⟩ := lineBudget_of_arrives hwrote more
  obtain ⟨s', chunks', -, hs', ⟨stamped, htexts, hurcs⟩, hloop⟩ :=
    replyLoop_ends outside hcommand hvalid hends hready hwrote lineCount more
  refine ⟨s', chunks'.map .read ++ more, hs', ?_, by rw [hbudget, hloop]⟩
  intro stamped' htexts'
  rw [hurcs]
  exact ((Alike.refl s.urcs).routeAll (htexts'.trans htexts.symm)).reports

/-- What `exchange_ready` makes of a reply. -/
def exchangeText : Option (List Str) → Except Str Str
  | some lines => replyText lines
  | none => .error "AT response exceeds size limit".toList

theorem exchangeReady_of_answered {result : Option (List Str)} (hcommand : IsCommand command)
    (hvalid : ∀ item ∈ items ++ [Item.reply last], item.Valid command)
    (hends : Ends acceptLine command [] items last result)
    (h : Answered outside (items ++ [Item.reply last]) s polls) :
    (exchangeReady outside command polls s).1 = exchangeText result ∧
      ∀ stamped : List (Instant × Str),
        stamped.map Prod.snd = insertions (items ++ [Item.reply last]) →
        reports (exchangeReady outside command polls s).2.1.urcs =
          reports (routeAll s.urcs stamped) := by
  obtain ⟨s', polls', hs', hreports, hloop⟩ := replyLoop_of_answered hcommand hvalid hends h
  rw [exchangeReady, writeCommand_of_ready hcommand h.ready h.written]
  dsimp only
  rw [hloop]
  cases result with
  | some lines => exact ⟨rfl, hreports⟩
  | none =>
    refine ⟨rfl, fun stamped htexts => ?_⟩
    rw [← hreports stamped htexts]
    exact reports_transportReset hs'.pendingPdu

/-! ## USSD -/

/-- The session after the port is open and what came before the command is taken out. -/
def Drained (outside : Outside) (s : AtSession) (polls : List Poll) (s' : AtSession)
    (polls' : List Poll) : Prop :=
  ∃ opened, s.ensureOpen outside = (.ok (), opened) ∧
    discardPending outside polls opened = (.ok (), s', polls')

/-- What `execute_ussd` makes of a reply. -/
def ussdText : Option UssdResult → Except Str Str
  | some (.rejected output) => .error output
  | some (.complete ussd) => .ok (NativeSms.joinWith lineBreak ussd.lines)
  | none => .error "AT response exceeds size limit".toList

variable {ussd : Ussd}

theorem sawCusd_of_complete {state : Ussd}
    (h : acceptUssd state line = .inr (.complete ussd)) : ussd.sawCusd = true := by
  unfold acceptUssd at h
  dsimp only at h
  split at h
  next => cases h
  split at h
  next hboth =>
    cases h
    exact (Bool.and_eq_true_iff.mp hboth).1
  next => cases h

theorem sized_eq_inr_some {state : σ × ℕ}
    {result : ρ} (h : sized accept state line = .inr (some result)) :
    accept state.1 line = .inr result := by
  unfold sized at h
  split at h
  next => cases h
  next =>
    cases haccept : accept state.1 line with
    | inl next => rw [haccept] at h; cases h
    | inr found => rw [haccept] at h; cases h; rfl

/-- The step routes no indication. -/
def Uninformative : Op → Prop
  | .routed _ line _ => indicationOf ((trim line).map Char.toUpper) = none
  | _ => True

theorem route_of_uninformative (hpending : r.pendingPdu = none) {now : Instant}
    {command : Option Str}
    (h : indicationOf ((trim line).map Char.toUpper) = none) :
    (r.route now line command).2 = r := by
  rw [route_of_none hpending]
  cases command with
  | none => rw [routeText_none, indicate, h]
  | some command => rw [routeText_of_plain (.inr h)]

variable {s : AtSession}

/-- A command that sees no indication changes nothing of what the router reports. -/
theorem reports_of_uninformative {ops : List Op} (hops : ∀ op ∈ ops, op.Exchanges)
    (hlines : ∀ op ∈ ops, Uninformative op) (hpending : s.urcs.pendingPdu = none) :
    reports (ops.foldl perform s).urcs = reports s.urcs := by
  induction ops generalizing s with
  | nil => rfl
  | cons op ops ih =>
    obtain ⟨hop, hops⟩ := forall_mem_cons.mp hops
    obtain ⟨hline, hlines⟩ := forall_mem_cons.mp hlines
    have hstep : reports (s.perform op).urcs = reports s.urcs ∧
        (s.perform op).urcs.pendingPdu = none := by
      cases op with
      | opened | wrote | read | popped | faultTaken => exact ⟨rfl, hpending⟩
      | routed now line command =>
        have hrouted : (s.perform (.routed now line command)).urcs = s.urcs :=
          route_of_uninformative hpending hline
        rw [hrouted]
        exact ⟨rfl, hpending⟩
      | reset =>
        exact ⟨reports_transportReset hpending, dropPending_pendingPdu s.urcs⟩
      | eventsTaken | simBound | ackBlocked | dataCleared | taken =>
        rcases hop with hreads | ⟨command, hwrote⟩
        · cases hreads
        · cases hwrote
    rw [foldl_cons, ih hops hlines hstep.2, hstep.1]

/-- The session after the cancelling command, which is written when a transaction fails. -/
def CancelledFrom (ended final : AtSession) (cancelled : Prop) : Prop :=
  ∃ ops : List Op, final = ops.foldl perform ended ∧ (¬ cancelled → ops = []) ∧
    ((∀ op ∈ ops, Uninformative op) → reports final.urcs = reports ended.urcs)

theorem CancelledFrom.refl (s : AtSession) (cancelled : Prop) : CancelledFrom s s cancelled :=
  ⟨[], rfl, fun _ => rfl, fun _ => rfl⟩

theorem cancelledFrom_cancel (outside : Outside) (polls : List Poll)
    (hpending : s.urcs.pendingPdu = none) {cancelled : Prop} (h : cancelled) :
    CancelledFrom s (cancelUssdBestEffort outside polls s).1 cancelled := by
  obtain ⟨ops, hops, hcancel⟩ := cancelUssdBestEffort_steps outside polls s
  refine ⟨ops, hcancel, fun hnot => absurd h hnot, fun hlines => ?_⟩
  rw [hcancel]
  exact reports_of_uninformative hops hlines hpending

variable {polls' : List Poll}

theorem executeUssd_of_answered {result : Option UssdResult} (hcommand : IsCommand command)
    (hvalid : ∀ item ∈ items ++ [Item.reply last], item.Valid command)
    (hends : Ends acceptUssd command {} items last result)
    (hdrained : Drained outside s polls s' polls')
    (h : Answered outside (items ++ [Item.reply last]) s' polls') :
    (executeUssd outside command polls s).1 = ussdText result ∧ ∃ ended : AtSession,
        CancelledFrom ended (executeUssd outside command polls s).2.1
          (∃ output, result = some (.rejected output)) ∧ ∀ stamped : List (Instant × Str),
          stamped.map Prod.snd = insertions (items ++ [Item.reply last]) →
          reports ended.urcs = reports (routeAll s'.urcs stamped) := by
  obtain ⟨opened, hopen, hdiscard⟩ := hdrained
  obtain ⟨ended, left, hended, hreports, hloop⟩ := replyLoop_of_answered hcommand hvalid hends h
  rw [executeUssd, hopen]
  dsimp only
  rw [hdiscard]
  dsimp only
  rw [writeCommand_of_ready hcommand h.ready h.written]
  dsimp only
  rw [hloop]
  cases result with
  | none =>
    refine ⟨rfl, ended.reset, CancelledFrom.refl _ _, fun stamped htexts => ?_⟩
    rw [← hreports stamped htexts]
    exact reports_transportReset hended.pendingPdu
  | some result =>
    cases result with
    | rejected output =>
      exact ⟨rfl, ended, cancelledFrom_cancel outside left hended.pendingPdu ⟨output, rfl⟩,
        hreports⟩
    | complete ussd =>
      obtain ⟨state', line, -, -, hend⟩ := hends
      have hcusd := sawCusd_of_complete (sized_eq_inr_some hend)
      dsimp only [endOf]
      rw [finishUssd, if_pos hcusd]
      exact ⟨rfl, ended, CancelledFrom.refl _ _, hreports⟩

/-- A session that waits for lines, and what comes after its command before its deadline: the lines
of the items and no more. -/
structure Expires (outside : Outside) (items : List Item) (s : AtSession) (polls : List Poll) :
    Prop where
  ready : Ready s
  written : outside.writeError s.log.length = none
  arrives : ∃ (chunks : List Bytes) (more : List Poll),
    polls = chunks.map .read ++ .deadline :: more ∧
      Arrives s chunks (wire (items.flatMap Item.lines))

theorem nextLine_of_deadline (more : List Poll) (hport : s.port = true) (h : Arrives s chunks []) :
    s.nextLine (chunks.map .read ++ .deadline :: more) = (.ok none, s, more) := by
  obtain ⟨hbuf, hchunks⟩ := append_eq_nil_iff.mp h.stream
  have hpop : s.popLine = none := popLine_of_notMem (by rw [hbuf]; exact not_mem_nil)
  clear h
  induction chunks with
  | nil => rw [map_nil, nil_append, nextLine, hpop]
  | cons chunk chunks ih =>
    rw [flatten_cons] at hchunks
    obtain ⟨rfl, hchunks⟩ := append_eq_nil_iff.mp hchunks
    have hread : s.readAvailable [] = .ok s := by
      rw [readAvailable, hport]
      rfl
    rw [map_cons, cons_append, nextLine, hpop]
    dsimp only
    rw [hread]
    exact ih hchunks

/-- What `execute_ussd` makes of a reply that goes on until the deadline. -/
def expiredText (ussd : Ussd) : Except Str Str :=
  let output := NativeSms.joinWith lineBreak ussd.lines
  let text := "timed out waiting for +CUSD response".toList
  if ussd.sawCusd then .ok output
  else .error (if output.isEmpty then text else text ++ ": ".toList ++ output)

theorem executeUssd_of_expires {size : ℕ}
    (hcommand : IsCommand command) (hvalid : ∀ item ∈ items, item.Valid command)
    (hmore : acceptMore (sized acceptUssd) ({}, 0) (replies command items) = some (ussd, size))
    (hseen : ussd.sawCusd = true ∨ ussd.sawFinal = true)
    (hdrained : Drained outside s polls s' polls') (h : Expires outside items s' polls') :
    (executeUssd outside command polls s).1 = expiredText ussd ∧ ∃ ended : AtSession,
        CancelledFrom ended (executeUssd outside command polls s).2.1 (ussd.sawCusd = false) ∧
        ∀ stamped : List (Instant × Str), stamped.map Prod.snd = insertions items →
          reports ended.urcs = reports (routeAll s'.urcs stamped) := by
  obtain ⟨opened, hopen, hdiscard⟩ := hdrained
  obtain ⟨chunks, more, rfl, harrives⟩ := h.arrives
  have hwrote : Arrives (s'.perform (.wrote (trim command))) chunks
      (wire (items.flatMap Item.lines) ++ []) := by
    rw [append_nil]
    exact harrives.of_readBuf rfl
  have hready : Ready (s'.perform (.wrote (trim command))) := h.ready.of_urcs rfl h.ready.port
  obtain ⟨lineCount, hbudget⟩ := lineBudget_of_arrives hwrote (.deadline :: more)
  obtain ⟨ended, left, hleft, hended, ⟨stamped, htexts, hurcs⟩, hloop⟩ :=
    replyLoop_items outside hcommand hvalid hmore hready hwrote lineCount
      (.deadline :: more)
  have hreports : ∀ stamped' : List (Instant × Str), stamped'.map Prod.snd = insertions items →
      reports ended.urcs = reports (routeAll s'.urcs stamped') := by
    intro stamped' htexts'
    rw [hurcs]
    exact ((Alike.refl s'.urcs).routeAll (htexts'.trans htexts.symm)).reports
  rw [executeUssd, hopen]
  dsimp only
  rw [hdiscard]
  dsimp only
  rw [writeCommand_of_ready hcommand h.ready h.written]
  dsimp only
  rw [hbudget, hloop, replyLoop, nextLine_of_deadline more hended.port hleft]
  dsimp only
  rw [finishUssd]
  dsimp only [expiredText]
  cases hcusd : ussd.sawCusd with
  | true => exact ⟨rfl, ended, CancelledFrom.refl _ _, hreports⟩
  | false =>
    have hfinal : ussd.sawFinal = true := hseen.resolve_left (by rw [hcusd]; decide)
    rw [if_neg (by decide), if_pos hfinal]
    exact ⟨rfl, ended, cancelledFrom_cancel outside more hended.pendingPdu rfl, hreports⟩

end Commands

/-! ## Transparency -/

/-- **Indications are transparent to commands.** A command is out that does not dial, and the lines
of its reply come with indications and PDUs before and between them, cut into any readings. The
text that comes back is the one without them; and the router reports what it reports for their
lines alone. Where a USSD transaction fails and is cancelled, this is so when it has ended, and
stays so as long as the cancelling command sees no further indication. -/
theorem indications_transparent {command : Str} (hcommand : IsCommand command)
    {items : List Item} (hitems : ∀ item ∈ items, item.Valid command) {last : Bytes}
    (hlast : (Item.reply last).Valid command) :
    (∀ result, Ends acceptLine command [] items last result →
      ∀ outside s polls, Answered outside (items ++ [Item.reply last]) s polls →
      (∀ outside' s' polls',
        Answered outside' ((items ++ [Item.reply last]).filter Item.isReply) s' polls' →
        (exchangeReady outside command polls s).1 = (exchangeReady outside' command polls' s').1) ∧
      ∀ stamped : List (Instant × Str), stamped.map Prod.snd = insertions items →
        reports (exchangeReady outside command polls s).2.1.urcs =
          reports (routeAll s.urcs stamped)) ∧
    (∀ result, Ends acceptUssd command {} items last result →
      ∀ outside s polls start left, Drained outside s polls start left →
      Answered outside (items ++ [Item.reply last]) start left →
      (∀ outside' s' polls' start' left', Drained outside' s' polls' start' left' →
        Answered outside' ((items ++ [Item.reply last]).filter Item.isReply) start' left' →
        (executeUssd outside command polls s).1 = (executeUssd outside' command polls' s').1) ∧
      ∃ ended, CancelledFrom ended (executeUssd outside command polls s).2.1
          (∃ output, result = some (.rejected output)) ∧
        ∀ stamped : List (Instant × Str), stamped.map Prod.snd = insertions items →
          reports ended.urcs = reports (routeAll start.urcs stamped)) ∧
    (∀ ussd size, acceptMore (sized acceptUssd) ({}, 0) (replies command items) =
        some (ussd, size) → (ussd.sawCusd = true ∨ ussd.sawFinal = true) →
      ∀ outside s polls start left, Drained outside s polls start left →
      Expires outside items start left →
      (∀ outside' s' polls' start' left', Drained outside' s' polls' start' left' →
        Expires outside' (items.filter Item.isReply) start' left' →
        (executeUssd outside command polls s).1 = (executeUssd outside' command polls' s').1) ∧
      ∃ ended, CancelledFrom ended (executeUssd outside command polls s).2.1
          (ussd.sawCusd = false) ∧
        ∀ stamped : List (Instant × Str), stamped.map Prod.snd = insertions items →
          reports ended.urcs = reports (routeAll start.urcs stamped)) := by
  have hvalid : ∀ item ∈ items ++ [Item.reply last], item.Valid command := by
    intro item hitem
    rcases mem_append.mp hitem with hitem | hitem
    · exact hitems item hitem
    · exact mem_singleton.mp hitem ▸ hlast
  have halone : ∀ item ∈ items.filter Item.isReply ++ [Item.reply last], item.Valid command := by
    rw [← filter_concat]
    exact fun item hitem => hvalid item (mem_of_mem_filter hitem)
  have hinsertions : insertions (items ++ [Item.reply last]) = insertions items := by
    rw [insertions, insertions, flatMap_append]
    simp [Item.inserted]
  rw [← hinsertions]
  refine ⟨?_, ?_, ?_⟩
  · intro result hends outside s polls h
    obtain ⟨htext, hreports⟩ := exchangeReady_of_answered hcommand hvalid hends h
    refine ⟨fun outside' s' polls' h' => ?_, hreports⟩
    rw [filter_concat] at h'
    rw [htext, (exchangeReady_of_answered hcommand halone hends.filter h').1]
  · intro result hends outside s polls start left hdrained h
    obtain ⟨htext, hended⟩ := executeUssd_of_answered hcommand hvalid hends hdrained h
    refine ⟨fun outside' s' polls' start' left' hdrained' h' => ?_, hended⟩
    rw [filter_concat] at h'
    rw [htext, (executeUssd_of_answered hcommand halone hends.filter hdrained' h').1]
  · intro ussd size hmore hseen outside s polls start left hdrained h
    obtain ⟨htext, hended⟩ := executeUssd_of_expires hcommand hitems hmore hseen hdrained h
    rw [hinsertions]
    refine ⟨fun outside' s' polls' start' left' hdrained' h' => ?_, hended⟩
    rw [htext, (executeUssd_of_expires hcommand
      (fun item hitem => hitems item (mem_of_mem_filter hitem))
      ((replies_filter command items).symm ▸ hmore) hseen hdrained' h').1]

/-! ### A command among a delivery and a call -/

section Run

/-- A clock on which every step takes a nanosecond. -/
def tickingClock : Outside := { clock := fun step => step }

def bytesOf (text : String) : Bytes := asBytes text.toList

/-- A line with its carriage return. -/
def lineOf (text : String) : Bytes := bytesOf text ++ [0x0d]

/-- The port is open and the SIM bound. -/
def openSession : AtSession :=
  { port := true, urcs := { simKey := some (replicate 64 'a') } }

def signalQuery : Str := "AT+CSQ".toList

def signalItems : List Item :=
  [.direct (lineOf "+CMT: ,4") (lineOf "0000112233"), .reply (lineOf "+CSQ: 20,99"),
    .indication (lineOf "RING")]

theorem answered_of_wire {outside : Outside} {items : List Item} {s : AtSession} (hready : Ready s)
    (hwritten : outside.writeError s.log.length = none) (hshort : data.length ≤ 512)
    (hdata : s.readBuf ++ data = wire (items.flatMap Item.lines)) :
    Answered outside items s [.read data] := by
  refine ⟨hready, hwritten, [data], [], [], rfl, ⟨?_, ?_⟩⟩
  · rintro chunk hchunk
    rwa [mem_singleton.mp hchunk]
  · rw [flatten_singleton, hdata, append_nil]

theorem indications_transparent_run : (exchangeReady tickingClock signalQuery
        [.read (bytesOf "+CMT: ,4\r\n0000112233\r\n+CSQ: 20,99\r\nRING\r\nOK\r\n")] openSession).1 =
      (exchangeReady tickingClock signalQuery [.read (bytesOf "+CSQ: 20,99\r\nOK\r\n")]
        openSession).1 := by
  have hcommand : IsCommand signalQuery :=
    ⟨by decide +kernel, by decide +kernel, by decide +kernel⟩
  have hitems : ∀ item ∈ signalItems, item.Valid signalQuery := by
    intro item hitem
    simp only [signalItems, mem_cons, not_mem_nil, or_false] at hitem
    rcases hitem with rfl | rfl | rfl
    · exact ⟨⟨.deliver, ⟨by decide +kernel, by decide +kernel⟩, by decide +kernel,
        by decide +kernel⟩, by decide +kernel⟩
    · exact ⟨fun _ => .inl (by decide +kernel), by decide +kernel⟩
    · exact ⟨⟨.call, fun kind h => (by cases h), ⟨by decide +kernel, by decide +kernel⟩⟩,
        by decide +kernel⟩
  have hlast : (Item.reply (lineOf "OK")).Valid signalQuery :=
    ⟨fun _ => .inr (by decide +kernel), by decide +kernel⟩
  have hready : Ready openSession := ⟨rfl, rfl, rfl⟩
  obtain ⟨hexchange, -, -⟩ := indications_transparent hcommand hitems hlast
  refine (hexchange (some ["+CSQ: 20,99".toList, "OK".toList])
    ⟨(["+CSQ: 20,99".toList], 11), "OK".toList, by decide +kernel, by decide +kernel,
      by decide +kernel⟩ tickingClock openSession _
    (answered_of_wire hready rfl (by decide +kernel) (by decide +kernel))).1 tickingClock
    openSession _ (answered_of_wire hready rfl (by decide +kernel) (by decide +kernel))

/-- The command was written, and the first line of its answer cannot be read. -/
theorem exchangeReady_of_error {outside : Outside} {command err : Str} {polls polls' : List Poll}
    {s s' s'' : AtSession} (hwrite : s.writeCommand outside command = (.ok (), s'))
    (hnext : s'.nextLine polls = (.error err, s'', polls')) :
    (exchangeReady outside command polls s).1 = .error err := by
  rw [exchangeReady, hwrite]
  dsimp only
  rw [replyLoop, hnext]

/-- A part of a long indication. -/
def longPart : Bytes := bytesOf "+QIND: " ++ replicate 505 0x41

/-- A header is still waiting for its PDU. -/
def headerSession : AtSession := { port := true, urcs := { pendingPdu := some (.deliver, some 4) } }

/-- A query that has more than one name sets a hint where nothing was inserted; an indication that
is longer than the buffer is an error; and where a header is waiting, a line of the reply may be
its PDU, but not after an indication. -/
theorem transparency_limits : ((exchangeReady tickingClock "AT+CSQ;+CREG?".toList
        [.read (bytesOf "+CSQ: 20,99\r\n+CREG: 0,1\r\nOK\r\n")] openSession).2.1.urcs.events ≠
      openSession.urcs.events) ∧ ((exchangeReady tickingClock signalQuery
        ((replicate 65 longPart).map .read ++ [Poll.read (bytesOf "\r\nOK\r\n")])
        openSession).1 = .error "AT frame exceeds size limit".toList ∧
      (exchangeReady tickingClock signalQuery [.read (bytesOf "OK\r\n")] openSession).1 =
        .ok "OK".toList) ∧
    ((exchangeReady tickingClock signalQuery [.read (bytesOf "RING\r\n0000112233\r\nOK\r\n")]
        headerSession).1 = .error "AT unsolicited PDU framing lost".toList ∧
      (exchangeReady tickingClock signalQuery [.read (bytesOf "0000112233\r\nOK\r\n")]
        headerSession).1 = .ok "OK".toList) := by
  refine ⟨by decide +kernel, ⟨?_, by decide +kernel⟩, by decide +kernel, by decide +kernel⟩
  have hwrite : openSession.writeCommand tickingClock signalQuery =
      (.ok (), openSession.perform (.wrote signalQuery)) := by decide +kernel
  have hlf : (0x0a : UInt8) ∉ (replicate 65 longPart).flatten := by
    intro h
    obtain ⟨part, hpart, hmem⟩ := mem_flatten.mp h
    rw [eq_of_mem_replicate hpart, longPart, mem_append] at hmem
    rcases hmem with hname | hfill
    · exact absurd hname (by decide +kernel)
    · cases eq_of_mem_replicate hfill
  have hlength : (replicate 65 longPart).flatten.length = 65 * 512 := by
    have hname : (bytesOf "+QIND: ").length = 7 := by decide +kernel
    have hpart : longPart.length = 512 := by
      rw [longPart, length_append, hname, length_replicate]
    rw [length_flatten, map_replicate, hpart, sum_replicate_nat]
  have hbuf : (openSession.perform (.wrote signalQuery)).readBuf = [] := rfl
  have hlong : MAX_BUFFER_BYTES < (replicate 65 longPart).flatten.length := by
    rw [hlength]
    decide
  rw [← nil_append (replicate 65 longPart).flatten, ← hbuf] at hlf hlong
  obtain ⟨s', polls', hnext⟩ := nextLine_of_long [.read (bytesOf "\r\nOK\r\n")]
    (replicate 65 longPart) rfl hlf (Nat.zero_le _) hlong
  exact exchangeReady_of_error hwrite hnext

end Run

end AtSession

end SimMaster.At
