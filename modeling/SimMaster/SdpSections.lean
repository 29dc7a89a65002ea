import SimMaster.SdpAudio

/-!
# The sections of an SDP body

A body is a session part and media sections. What the parser gathers is what the audio sections say,
read one after the other into the same accumulators (`foldl_line`).
-/

namespace SimMaster.Voice

open Rust List

/-- A media section: the value of its m= line, and its other lines. -/
structure Media where
  value : Str
  fields : List (Str × Str)
  deriving DecidableEq

/-- The session part and the media sections of the lines. -/
def sections : List (Str × Str) → List (Str × Str) × List Media
  | [] => ([], [])
  | field :: rest =>
    if field.1 = ['m'] then ([], ⟨field.2, (sections rest).1⟩ :: (sections rest).2)
    else (field :: (sections rest).1, (sections rest).2)

namespace Media

def isAudio (block : Media) : Bool :=
  decide ((splitWhitespace block.value).head? = some "audio".toList)

/-- Another line of an audio section. -/
def line (audio : Audio) (field : Str × Str) : Audio :=
  if field.1 = ['c'] then
    match connectionOf (splitWhitespace field.2).tail with
    | some connection => { audio with connection := some connection }
    | none => audio
  else if field.1 = ['a'] then audio.attributeLine field.2
  else audio

/-- What an audio section says, on top of what has been read. -/
def read (audio : Audio) (block : Media) : Audio :=
  block.fields.foldl line (audio.media block.value)

end Media

/-- What a line gives, if it is of the kind. -/
def given {α : Type} (kind : Char) (gives : Str → Option α) (field : Str × Str) : Option α :=
  if field.1 = [kind] then gives field.2 else none

/-- What the last line of a kind that gives something gives. -/
def lastOf {α : Type} (kind : Char) (gives : Str → Option α) (fields : List (Str × Str)) :
    Option α :=
  (fields.filterMap (given kind gives)).getLast?

/-- The address of a c= line. -/
def connectionValue (value : Str) : Option Connection :=
  connectionOf (splitWhitespace value).tail

/-- The address of the c= line of some lines. -/
def connectionIn (fields : List (Str × Str)) : Option Connection :=
  lastOf 'c' connectionValue fields

section Folds

variable {σ ι α : Type} {step : σ → ι → σ} {gives : ι → Option α} (view : σ → Option α)

theorem getLast?_filterMap_cons (gives : ι → Option α) (x : ι) (rest : List ι) (acc : Option α) :
    ((x :: rest).filterMap gives).getLast?.or acc =
      (rest.filterMap gives).getLast?.or ((gives x).or acc) := by
  rw [filterMap_cons]
  cases gives x with
  | none => rfl
  | some value =>
    rw [List.getLast?_cons]
    cases (rest.filterMap gives).getLast? <;> rfl

/-- Where each step overrides what it gives, the last one to give something counts. -/
theorem foldl_last (hstep : ∀ s x, view (step s x) = (gives x).or (view s)) (xs : List ι) (s : σ) :
    view (xs.foldl step s) = (xs.filterMap gives).getLast?.or (view s) := by
  induction xs generalizing s with
  | nil => rfl
  | cons x rest ih => rw [foldl_cons, ih, hstep, getLast?_filterMap_cons]

/-- Where no step overrides anything, the first one to give something counts. -/
theorem foldl_first (hstep : ∀ s x, view (step s x) = (view s).or (gives x)) (xs : List ι) (s : σ) :
    view (xs.foldl step s) = (view s).or (xs.filterMap gives).head? := by
  induction xs generalizing s with
  | nil => exact Option.or_none.symm
  | cons x rest ih =>
    rw [foldl_cons, ih, hstep, Option.or_assoc, filterMap_cons]
    cases gives x <;> rfl

end Folds

/-! ## One line -/

/-- The flags of the parser: audio is a kind of media. -/
def Flagged (state : SdpState) : Prop := state.inAudioMedia = true → state.sawAnyMedia = true

/-- What a line that is no m= line does. -/
structure Follows (state next : SdpState) (field : Str × Str) : Prop where
  inAudio : next.inAudioMedia = state.inAudioMedia
  sawAudio : next.sawAudioMedia = state.sawAudioMedia
  sawAny : next.sawAnyMedia = state.sawAnyMedia
  audio : next.audio = if state.inAudioMedia then Media.line state.audio field else state.audio
  connection : next.sessionConnection =
    if state.sawAnyMedia then state.sessionConnection
    else (given 'c' connectionValue field).or state.sessionConnection

theorem line_follows {state : SdpState} (hflags : Flagged state) {field : Str × Str}
    (hfield : field.1 ≠ ['m']) : Follows state (state.line field) field := by
  obtain ⟨kind, value⟩ := field
  rw [SdpState.line]
  by_cases horigin : kind = ['o']
  · subst horigin
    rw [if_pos rfl, SdpState.origin]
    have haudio : Media.line state.audio (['o'], value) = state.audio := rfl
    have hnone : given 'c' connectionValue (['o'], value) = none := rfl
    split
    · exact ⟨rfl, rfl, rfl, by rw [haudio, ite_self], by rw [hnone, Option.none_or, ite_self]⟩
    · exact ⟨rfl, rfl, rfl, by rw [haudio, ite_self], by rw [hnone, Option.none_or, ite_self]⟩
  by_cases hconnection : kind = ['c']
  · subst hconnection
    rw [if_neg horigin, if_pos rfl, SdpState.connection]
    cases hc : connectionOf (splitWhitespace value).tail with
    | none =>
      have haudio : Media.line state.audio (['c'], value) = state.audio := by
        rw [Media.line, if_pos rfl, hc]
      exact ⟨rfl, rfl, rfl, by rw [haudio, ite_self],
        by rw [given, if_pos rfl, connectionValue, hc, Option.none_or, ite_self]⟩
    | some connection =>
      have haudio : Media.line state.audio (['c'], value) =
          { state.audio with connection := some connection } := by
        rw [Media.line, if_pos rfl, hc]
      dsimp only
      cases hany : state.sawAnyMedia with
      | false =>
        have hin : state.inAudioMedia = false :=
          Bool.eq_false_iff.mpr fun h => by rw [hflags h] at hany; cases hany
        exact ⟨rfl, rfl, hany.symm ▸ rfl, by rw [hin]; rfl, by
            rw [given, if_pos rfl, connectionValue, hc, hany]
            rfl⟩
      | true =>
        cases hin : state.inAudioMedia with
        | true =>
          exact ⟨hin.symm, rfl, hany.symm, by rw [haudio, hin]; rfl, by rw [hany]; rfl⟩
        | false =>
          exact ⟨rfl, rfl, rfl, by rw [hin]; rfl, by rw [hany]; rfl⟩
  rw [if_neg horigin, if_neg hconnection, if_neg hfield]
  have hnone : given 'c' connectionValue (kind, value) = none := if_neg hconnection
  by_cases hattribute : kind = ['a']
  · have haudio : Media.line state.audio (kind, value) = state.audio.attributeLine value := by
      rw [Media.line, if_neg hconnection, if_pos hattribute]
    cases hin : state.inAudioMedia with
    | true =>
      rw [if_pos ⟨hattribute, rfl⟩]
      exact ⟨hin.symm, rfl, rfl, by rw [haudio, hin]; rfl, by rw [hnone, Option.none_or, ite_self]⟩
    | false =>
      rw [if_neg fun h => Bool.false_ne_true h.2]
      exact ⟨rfl, rfl, rfl, by rw [hin]; rfl, by rw [hnone, Option.none_or, ite_self]⟩
  · have haudio : Media.line state.audio (kind, value) = state.audio := by
      rw [Media.line, if_neg hconnection, if_neg hattribute]
    rw [if_neg fun h => hattribute h.1]
    exact ⟨rfl, rfl, rfl, by rw [haudio, ite_self], by rw [hnone, Option.none_or, ite_self]⟩

/-! ## Runs of lines -/

variable {fields : List (Str × Str)}

/-- The lines of a media section after its m= line. -/
theorem foldl_line_media (hfields : ∀ field ∈ fields, field.1 ≠ ['m'])
    {state : SdpState} (hany : state.sawAnyMedia = true) :
    (fields.foldl SdpState.line state).audio =
        (if state.inAudioMedia then fields.foldl Media.line state.audio else state.audio) ∧
      (fields.foldl SdpState.line state).sessionConnection = state.sessionConnection ∧
      (fields.foldl SdpState.line state).sawAudioMedia = state.sawAudioMedia ∧
      (fields.foldl SdpState.line state).sawAnyMedia = true := by
  induction fields generalizing state with
  | nil => exact ⟨(ite_self _).symm, rfl, rfl, hany⟩
  | cons field rest ih =>
    obtain ⟨hfield, hrest⟩ := forall_mem_cons.mp hfields
    have hfollows := line_follows (fun _ => hany) hfield
    obtain ⟨haudio, hconnection, hsaw, hafter⟩ := ih hrest (hfollows.sawAny.trans hany)
    rw [foldl_cons, foldl_cons, haudio, hconnection, hsaw, hfollows.inAudio,
      hfollows.audio, hfollows.connection, hfollows.sawAudio, hany]
    exact ⟨by cases state.inAudioMedia <;> rfl, rfl, rfl, hafter⟩

/-- The lines of the session part. -/
theorem foldl_line_session (hfields : ∀ field ∈ fields, field.1 ≠ ['m'])
    {state : SdpState} (hany : state.sawAnyMedia = false) (hin : state.inAudioMedia = false) :
    (fields.foldl SdpState.line state).audio = state.audio ∧
      (fields.foldl SdpState.line state).sessionConnection =
        (connectionIn fields).or state.sessionConnection ∧
      (fields.foldl SdpState.line state).sawAudioMedia = state.sawAudioMedia := by
  induction fields generalizing state with
  | nil => exact ⟨rfl, rfl, rfl⟩
  | cons field rest ih =>
    obtain ⟨hfield, hrest⟩ := forall_mem_cons.mp hfields
    have hfollows := line_follows (fun h => by rw [hin] at h; cases h) hfield
    obtain ⟨haudio, hconnection, hsaw⟩ :=
      ih hrest (hfollows.sawAny.trans hany) (hfollows.inAudio.trans hin)
    rw [foldl_cons, haudio, hconnection, hsaw, hfollows.audio, hfollows.connection,
      hfollows.sawAudio, hany, hin, connectionIn, connectionIn, lastOf, lastOf,
      getLast?_filterMap_cons]
    exact ⟨rfl, rfl, rfl⟩

/-- The lines of a media section. -/
def Media.lines (block : Media) : List (Str × Str) := (['m'], block.value) :: block.fields

/-- **Media sections.** The audio ones are read one after the other. -/
theorem foldl_line_sections {media : List Media}
    (hmedia : ∀ block ∈ media, ∀ field ∈ block.fields, field.1 ≠ ['m']) (state : SdpState) :
    ((media.flatMap Media.lines).foldl SdpState.line state).audio =
        (media.filter Media.isAudio).foldl Media.read state.audio ∧
      ((media.flatMap Media.lines).foldl SdpState.line state).sessionConnection =
        state.sessionConnection ∧
      ((media.flatMap Media.lines).foldl SdpState.line state).sawAudioMedia =
        (state.sawAudioMedia || media.any Media.isAudio) := by
  induction media generalizing state with
  | nil => exact ⟨rfl, rfl, (Bool.or_false _).symm⟩
  | cons first rest ih =>
    obtain ⟨hfirst, hrest⟩ := forall_mem_cons.mp hmedia
    rw [flatMap_cons, foldl_append, Media.lines, foldl_cons]
    have hline : state.line (['m'], first.value) = state.media first.value := rfl
    rw [hline]
    obtain ⟨haudio, hconnection, hsaw⟩ := ih hrest
      (first.fields.foldl SdpState.line (state.media first.value))
    rw [haudio, hconnection, hsaw, any_cons]
    cases hkind : first.isAudio with
    | true =>
      have hstate : state.media first.value =
          { state with
            sawAnyMedia := true
            inAudioMedia := true
            sawAudioMedia := true
            audio := state.audio.media first.value } := if_pos (of_decide_eq_true hkind)
      obtain ⟨haudio, hconnection, hsaw, -⟩ :=
        @foldl_line_media _ hfirst (state.media first.value) (by rw [hstate])
      rw [haudio, hconnection, hsaw, hstate, filter_cons_of_pos hkind]
      exact ⟨rfl, rfl, (Bool.or_true _).symm⟩
    | false =>
      have hstate : state.media first.value =
          { state with sawAnyMedia := true, inAudioMedia := false } :=
        if_neg (of_decide_eq_false hkind)
      obtain ⟨haudio, hconnection, hsaw, -⟩ :=
        @foldl_line_media _ hfirst (state.media first.value) (by rw [hstate])
      rw [haudio, hconnection, hsaw, hstate, filter_cons_of_neg (Bool.eq_false_iff.mp hkind)]
      exact ⟨rfl, rfl, rfl⟩

/-! ## Bodies -/

variable (fields : List (Str × Str))

theorem sections_spec : fields = (sections fields).1 ++ (sections fields).2.flatMap Media.lines ∧
      (∀ field ∈ (sections fields).1, field.1 ≠ ['m']) ∧
      ∀ block ∈ (sections fields).2, ∀ field ∈ block.fields, field.1 ≠ ['m'] := by
  induction fields with
  | nil => exact ⟨rfl, fun _ h => absurd h not_mem_nil, fun _ h => absurd h not_mem_nil⟩
  | cons field rest ih =>
    obtain ⟨heq, hfront, hmedia⟩ := ih
    obtain ⟨kind, value⟩ := field
    rw [sections]
    by_cases hkind : kind = ['m']
    · rw [if_pos hkind]
      subst hkind
      refine ⟨?_, fun _ h => absurd h not_mem_nil, fun block h => ?_⟩
      · rw [nil_append, flatMap_cons, Media.lines, cons_append, ← heq]
      · rcases mem_cons.mp h with rfl | h
        · exact hfront
        · exact hmedia block h
    · rw [if_neg hkind]
      refine ⟨?_, fun field h => ?_, hmedia⟩
      · rw [cons_append, ← heq]
      · rcases mem_cons.mp h with rfl | h
        · exact hkind
        · exact hfront field h

/-- The audio sections of the lines. -/
def audioSections (fields : List (Str × Str)) : List Media :=
  (sections fields).2.filter Media.isAudio

/-- What the audio sections say when they are read into the same accumulators. -/
def readAll (media : List Media) : Audio := media.foldl Media.read {}

/-- **One pass over the lines.** -/
theorem foldl_line : (fields.foldl SdpState.line {}).audio = readAll (audioSections fields) ∧
      (fields.foldl SdpState.line {}).sessionConnection = connectionIn (sections fields).1 ∧
      ((fields.foldl SdpState.line {}).sawAudioMedia = true ↔ audioSections fields ≠ []) := by
  obtain ⟨heq, hfront, hmedia⟩ := sections_spec fields
  obtain ⟨haudio, hconnection, hsaw⟩ := @foldl_line_session _ hfront {} rfl rfl
  obtain ⟨haudio', hconnection', hsaw'⟩ :=
    foldl_line_sections hmedia ((sections fields).1.foldl SdpState.line {})
  rw [← foldl_append, ← heq] at haudio' hconnection' hsaw'
  rw [haudio', hconnection', hsaw', haudio, hconnection, hsaw]
  refine ⟨rfl, Option.or_none, ?_⟩
  rw [Bool.false_or, audioSections, ne_eq, filter_eq_nil_iff, any_eq_true]
  simp only [not_forall, not_not, exists_prop]

end SimMaster.Voice
