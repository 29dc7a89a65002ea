import SimMaster.AtSession

/-!
# The steps of a session

What a call does to a session is a list of steps. Most calls only open, read and route; those that
also write write one command and read on.
-/

namespace SimMaster.At

open Rust

/-- A step of waiting for lines. -/
def Op.Reads : Op → Prop
  | .opened | .read _ | .popped | .routed .. | .faultTaken | .reset => True
  | .wrote _ | .eventsTaken | .simBound _ | .ackBlocked | .dataCleared | .taken .. => False

/-- A step of a command. -/
def Op.Exchanges (op : Op) : Prop := op.Reads ∨ ∃ command, op = .wrote command

namespace AtSession

/-- The session has taken some steps, all of this kind. -/
def Steps (P : Op → Prop) (s s' : AtSession) : Prop :=
  ∃ ops : List Op, (∀ op ∈ ops, P op) ∧ s' = ops.foldl perform s

/-- A step that writes nothing. -/
def Silent (op : Op) : Prop := ∀ command, op ≠ .wrote command

section Steps

variable {P : Op → Prop} {s s' s'' : AtSession}

theorem Steps.refl (s : AtSession) : Steps P s s := ⟨[], fun op h => (by cases h), rfl⟩

theorem Steps.trans (h : Steps P s s') (h' : Steps P s' s'') : Steps P s s'' := by
  obtain ⟨ops, hops, rfl⟩ := h
  obtain ⟨ops', hops', rfl⟩ := h'
  refine ⟨ops ++ ops', fun op hop => ?_, by rw [List.foldl_append]⟩
  exact (List.mem_append.mp hop).elim (hops op) (hops' op)

theorem Steps.perform {op : Op} (h : Steps P s s') (hop : P op) : Steps P s (s'.perform op) :=
  h.trans ⟨[op], fun _ h => List.mem_singleton.mp h ▸ hop, rfl⟩

theorem Steps.mono {Q : Op → Prop} (h : Steps P s s') (hPQ : ∀ op, P op → Q op) : Steps Q s s' := by
  obtain ⟨ops, hops, rfl⟩ := h
  exact ⟨ops, fun op hop => hPQ op (hops op hop), rfl⟩

end Steps

/-- The session has waited for lines. -/
abbrev Reading (s s' : AtSession) : Prop := Steps Op.Reads s s'

/-- All that a call does besides writing. -/
abbrev Quietly (s s' : AtSession) : Prop := Steps Silent s s'

theorem Steps.quietly {s s' : AtSession} (h : Reading s s') : Quietly s s' := by
  refine h.mono fun op hop command => ?_
  rintro rfl
  exact hop

section Reads

variable {s s' : AtSession} (outside : Outside)

theorem reads_perform (s : AtSession) {op : Op} (h : op.Reads) : Reading s (s.perform op) :=
  (Steps.refl s).perform h

theorem reads_reset (s : AtSession) : Reading s s.reset :=
  reads_perform s trivial

theorem reads_popLine {line : Str} (h : s.popLine = some (line, s')) : Reading s s' := by
  unfold popLine at h
  split at h
  next =>
    obtain ⟨-, rfl⟩ := Prod.mk.inj (Option.some.inj h)
    exact reads_perform s trivial
  next => cases h

theorem reads_readAvailable {data : Bytes} (h : s.readAvailable data = .ok s') : Reading s s' := by
  unfold readAvailable at h
  split at h
  next => cases h
  split at h
  next =>
    obtain rfl := Except.ok.inj h
    exact Steps.refl s
  split at h
  next => cases h
  next =>
    obtain rfl := Except.ok.inj h
    exact reads_perform s trivial

theorem reads_route (s : AtSession) (line : Str) (command : Option Str) :
    Reading s (s.route outside line command).2 :=
  reads_perform s trivial

theorem reads_ensureOpen (s : AtSession) : Reading s (s.ensureOpen outside).2 := by
  unfold ensureOpen
  split
  next => exact Steps.refl s
  split
  next => exact Steps.refl s
  next => exact reads_perform s trivial

theorem reads_routeCommand (s : AtSession) (line command : Str) :
    Reading s (s.routeCommand outside line command).2 := by
  have hfault := (reads_route outside s line (some command)).trans
    (@reads_perform _ .faultTaken trivial)
  unfold routeCommand
  dsimp only
  split
  next => exact hfault.trans (reads_reset _)
  next => exact hfault

variable (polls : List Poll)

theorem reads_nextLine (s : AtSession) : Reading s (s.nextLine polls).2.1 := by
  induction polls generalizing s with
  | nil =>
    unfold nextLine
    split
    next h => exact reads_popLine h
    next => exact Steps.refl s
  | cons poll polls ih =>
    unfold nextLine
    split
    next h => exact reads_popLine h
    cases poll with
    | deadline | failed => exact Steps.refl s
    | read data =>
      dsimp only
      split
      next => exact Steps.refl s
      next h => exact (reads_readAvailable h).trans (ih _)

theorem reads_routeLines (s : AtSession) : Reading s (s.routeLines outside) := by
  have hgo : ∀ (n : ℕ) (s : AtSession), Reading s (routeLines.go outside n s) := by
    intro n
    induction n with
    | zero => exact fun s => Steps.refl s
    | succ n ih =>
      intro s
      unfold routeLines.go
      split
      next h => exact (reads_popLine h).trans ((reads_route outside _ _ none).trans (ih _))
      next => exact Steps.refl s
  exact hgo _ s

theorem reads_drainReads (turns : ℕ) (polls : List Poll) (s : AtSession) :
    Reading s (drainReads outside turns polls s).2.1 := by
  induction turns generalizing polls s with
  | zero => exact Steps.refl s
  | succ turns ih =>
    have hlines := reads_routeLines outside s
    unfold drainReads
    dsimp only
    cases polls with
    | nil => exact hlines
    | cons poll polls =>
      cases poll with
      | deadline | failed => exact hlines
      | read data =>
        dsimp only
        split
        next => exact hlines
        next h =>
          have hread := hlines.trans (reads_readAvailable h)
          split
          next => exact hread
          next => exact hread.trans (ih _ _)

theorem reads_pumpEvents (s : AtSession) : Reading s (pumpEvents outside polls s).2.1 := by
  have hopen := reads_ensureOpen outside s
  unfold pumpEvents
  generalize s.ensureOpen outside = opened at hopen
  obtain ⟨_ | _, s'⟩ := opened
  · exact hopen
  have hdrain := hopen.trans (reads_drainReads outside MAX_DRAIN_READS polls s')
  dsimp only at hdrain ⊢
  generalize drainReads outside MAX_DRAIN_READS polls s' = drained at hdrain
  obtain ⟨_ | _, s'', polls'⟩ := drained
  · exact hdrain
  · exact hdrain.trans (reads_routeLines outside _)

theorem reads_replyLoop {σ ρ : Type} (accept : σ → Str → σ ⊕ ρ) (command : Str) (lineCount : ℕ)
    (polls : List Poll) (s : AtSession) (state : σ) (responseBytes : ℕ) :
    Reading s (replyLoop outside accept command lineCount polls s state responseBytes).2.1 := by
  induction lineCount generalizing polls s state responseBytes with
  | zero =>
    have hnext := reads_nextLine polls s
    unfold replyLoop
    generalize s.nextLine polls = next at hnext
    obtain ⟨_ | _ | line, s', polls'⟩ := next
    · exact hnext.trans (reads_reset _)
    · exact hnext
    · exact hnext
  | succ lineCount ih =>
    have hnext := reads_nextLine polls s
    unfold replyLoop
    generalize s.nextLine polls = next at hnext
    obtain ⟨_ | _ | line, s', polls'⟩ := next
    · exact hnext.trans (reads_reset _)
    · exact hnext
    dsimp only at hnext ⊢
    split
    next => exact hnext.trans (ih ..)
    have hroute := hnext.trans (reads_routeCommand outside s' (trim line) command)
    generalize s'.routeCommand outside (trim line) command = routed at hroute
    obtain ⟨_ | routed, s''⟩ := routed
    · exact hroute
    cases routed with
    | true => exact hroute.trans (ih ..)
    | false =>
      dsimp only at hroute ⊢
      split
      next => exact hroute.trans (reads_reset _)
      split
      next => exact hroute.trans (ih ..)
      next => exact hroute

theorem writeCommand_cases (s : AtSession) (command : Str) :
    (∃ err, s.writeCommand outside command = (.error err, s)) ∨
      s.writeCommand outside command = (.ok (), s.perform (.wrote (trim command))) := by
  unfold writeCommand
  dsimp only
  split
  next => exact .inl ⟨_, rfl⟩
  split
  next => exact .inl ⟨_, rfl⟩
  split
  next => exact .inl ⟨_, rfl⟩
  next => exact .inr rfl

/-- A command is written first, and what comes after it is reading. -/
theorem exchangeReady_steps (command : Str) (polls : List Poll) (s : AtSession) :
    Reading s (exchangeReady outside command polls s).2.1 ∨
      Reading (s.perform (.wrote (trim command))) (exchangeReady outside command polls s).2.1 := by
  unfold exchangeReady
  obtain ⟨err, hwrite⟩ | hwrite := writeCommand_cases outside s command
  · rw [hwrite]
    exact .inl ((reads_reset s))
  rw [hwrite]
  dsimp only
  have hloop := reads_replyLoop outside acceptLine command
    ((s.perform (.wrote (trim command))).lineBudget polls) polls
    (s.perform (.wrote (trim command))) [] 0
  generalize replyLoop outside acceptLine command _ polls (s.perform (.wrote (trim command))) [] 0 =
    exchanged at hloop
  obtain ⟨_ | _ | lines, s', polls'⟩ := exchanged
  · exact .inr hloop
  · exact .inr (hloop.trans (reads_reset _))
  · exact .inr hloop

theorem reads_finishPartial (s : AtSession) : Reading s (finishPartial outside polls s).2.1 := by
  induction polls generalizing s with
  | nil => exact Steps.refl s
  | cons poll polls ih =>
    unfold finishPartial
    split
    next => exact Steps.refl s
    cases poll with
    | deadline | failed => exact Steps.refl s
    | read data =>
      dsimp only
      split
      next => exact Steps.refl s
      next h =>
        exact ((reads_readAvailable h).trans (reads_routeLines outside _)).trans (ih _)

theorem reads_discardPending (s : AtSession) : Reading s (discardPending outside polls s).2.1 := by
  have hdrain := reads_drainReads outside MAX_DRAIN_READS polls s
  unfold discardPending
  generalize drainReads outside MAX_DRAIN_READS polls s = drained at hdrain
  obtain ⟨_ | _, s', polls'⟩ := drained
  · exact hdrain
  have hpartial := (hdrain.trans (reads_routeLines outside s')).trans
    (reads_finishPartial outside polls' (s'.routeLines outside))
  dsimp only at hpartial ⊢
  generalize finishPartial outside polls' (s'.routeLines outside) = finished at hpartial
  obtain ⟨_ | _, s'', polls''⟩ := finished
  · exact hpartial
  · dsimp only at hpartial ⊢
    split
    next => exact hpartial
    next => exact hpartial

/-- A command reads and writes. -/
theorem executeCommand_steps (command : Str) (polls : List Poll) (s : AtSession) :
    Steps Op.Exchanges s (executeCommand outside command polls s).2.1 := by
  have hreads : ∀ {s s' : AtSession}, Reading s s' → Steps Op.Exchanges s s' := fun h =>
    h.mono fun op hop => .inl hop
  have hopen := reads_ensureOpen outside s
  unfold executeCommand
  generalize s.ensureOpen outside = opened at hopen
  obtain ⟨_ | _, s'⟩ := opened
  · exact hreads hopen
  have hdiscard := hopen.trans (reads_discardPending outside polls s')
  dsimp only at hdiscard ⊢
  generalize discardPending outside polls s' = drained at hdiscard
  obtain ⟨_ | _, s'', polls'⟩ := drained
  · exact hreads (hdiscard.trans (reads_reset _))
  dsimp only at hdiscard ⊢
  rcases exchangeReady_steps outside command polls' s'' with hread | hwrote
  · exact hreads (hdiscard.trans hread)
  · exact ((hreads hdiscard).perform (.inr ⟨_, rfl⟩)).trans (hreads hwrote)

theorem cancelUssdBestEffort_steps (s : AtSession) :
    Steps Op.Exchanges s (cancelUssdBestEffort outside polls s).1 :=
  (executeCommand_steps outside "AT+CUSD=2".toList polls s).perform (.inl trivial)

end Reads

end AtSession

end SimMaster.At
