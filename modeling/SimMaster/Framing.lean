import SimMaster.Text

/-!
# Framing a stream

A reader of a stream collects the chunks that arrive in a buffer and takes complete messages off
its front. `frame buf` is the length of the complete message at the front of `buf`, `none` when
more input is needed. The messages it takes do not depend on how the stream was cut into chunks,
provided each answer of `frame` is one that later input cannot change (`Stable`). `drain` and
`receive` are the two loops of such a reader, `Drains` says without fuel what `drain` computes, and
`receive_eq_drain` is the result.
-/

namespace Framing

open Rust List

variable {α ε : Type} (frame : List α → Except ε (Option ℕ))

/-- What a reader needs of `frame` at one buffer. -/
structure Stable (buf : List α) : Prop where
  isOk : ∃ r, frame buf = .ok r
  bounds : ∀ n, frame buf = .ok (some n) → 0 < n ∧ n ≤ buf.length
  append : ∀ n, frame buf = .ok (some n) → ∀ ext, frame (buf ++ ext) = .ok (some n)

/-- Take complete messages off the buffer: the messages and what is left. -/
def drainLoop : ℕ → List α → Except ε (List (List α) × List α)
  | 0, buf => .ok ([], buf)
  | fuel + 1, buf => do
    match ← frame buf with
    | none => .ok ([], buf)
    | some n =>
      let (frames, rest) ← drainLoop fuel (buf.drop n)
      .ok (buf.take n :: frames, rest)

/-- Every message takes at least one element, so the length of the buffer is fuel enough. -/
def drain (buf : List α) : Except ε (List (List α) × List α) := drainLoop frame (buf.length + 1) buf

/-- Read the chunks one after the other, draining the buffer after each. -/
def receive : List α → List (List α) → Except ε (List (List α) × List α)
  | pending, [] => .ok ([], pending)
  | pending, chunk :: chunks => do
    let (frames, rest) ← drain frame (pending ++ chunk)
    let (frames', rest') ← receive rest chunks
    .ok (frames ++ frames', rest')

/-- The messages `frames` come off the front of a buffer one by one, and no complete message is at
the front of what is left. -/
inductive Drains : List α → List (List α) → List α → Prop
  | stop {buf : List α} : frame buf = .ok none → Drains buf [] buf
  | frame {buf rest : List α} {frames : List (List α)} {n : ℕ} :
      frame buf = .ok (some n) → Drains (buf.drop n) frames rest →
      Drains buf (buf.take n :: frames) rest

/-- What is left of a stream where a reader may look for its next message. -/
inductive Boundary (stream : List α) : List α → Prop
  | start : Boundary stream stream
  | next {rest buf : List α} {n : ℕ} :
      Boundary stream rest → buf <+: rest → frame buf = .ok (some n) →
      Boundary stream (rest.drop n)

/-- The buffers a reader of the stream may have in its hands. -/
def Met (stream buf : List α) : Prop := ∃ rest, Boundary frame stream rest ∧ buf <+: rest

variable {frame} {stream buf rest rest' ext : List α} {frames frames' : List (List α)}

section

variable (h : Drains frame buf frames rest)
include h

/-- The messages and the rest make up the buffer. -/
theorem Drains.flatten : frames.flatten ++ rest = buf := by
  induction h with
  | stop => rfl
  | frame _ _ ih => rw [flatten_cons, append_assoc, ih, take_append_drop]

theorem Drains.stuck : frame rest = .ok none := by
  induction h with
  | stop hnone => exact hnone
  | frame _ _ ih => exact ih

/-- Draining has one outcome. -/
theorem Drains.unique (h' : Drains frame buf frames' rest') : frames = frames' ∧ rest = rest' := by
  induction h generalizing frames' rest' with
  | stop hnone =>
    cases h' with
    | stop => exact ⟨rfl, rfl⟩
    | frame hsome => rw [hnone] at hsome; cases hsome
  | frame hsome _ ih =>
    cases h' with
    | stop hnone => rw [hsome] at hnone; cases hnone
    | frame hsome' h' =>
      rw [hsome] at hsome'
      cases hsome'
      obtain ⟨rfl, rfl⟩ := ih h'
      exact ⟨rfl, rfl⟩

end

theorem Met.frame_drop {n : ℕ} (h : Met frame stream buf) (hsome : frame buf = .ok (some n))
    (hn : n ≤ buf.length) : Met frame stream (buf.drop n) := by
  obtain ⟨rest, hb, t, rfl⟩ := h
  refine ⟨(buf ++ t).drop n, Boundary.next hb (prefix_append _ _) hsome, ?_⟩
  rw [drop_append_of_le_length hn]
  exact prefix_append _ _

variable (hstable : ∀ buf, Met frame stream buf → Stable frame buf)
include hstable

/-- With stable buffers, `drain` reaches the end of the messages. -/
theorem drainLoop_eq_ok : ∀ (fuel : ℕ) (buf : List α), Met frame stream buf → buf.length < fuel →
      ∃ frames rest, drainLoop frame fuel buf = .ok (frames, rest) ∧
        Drains frame buf frames rest := by
  intro fuel
  induction fuel with
  | zero => intro buf _ hlt; exact absurd hlt (Nat.not_lt_zero _)
  | succ fuel ih =>
    intro buf hmet hlt
    obtain ⟨⟨r, hr⟩, hbounds, -⟩ := hstable buf hmet
    cases r with
    | none => exact ⟨[], buf, by rw [drainLoop, hr]; rfl, Drains.stop hr⟩
    | some n =>
      obtain ⟨hpos, hle⟩ := hbounds n hr
      obtain ⟨frames, rest, hloop, hdrains⟩ := ih (buf.drop n) (hmet.frame_drop hr hle)
        (by rw [length_drop]; omega)
      refine ⟨buf.take n :: frames, rest, ?_, Drains.frame hr hdrains⟩
      rw [drainLoop, hr]
      simp only [bind, Except.bind, hloop]

/-- What was drained from a buffer is drained first when more input is in it. -/
theorem Drains.append (h : Drains frame buf frames rest) (hmet : Met frame stream buf)
    (h' : Drains frame (rest ++ ext) frames' rest') :
    Drains frame (buf ++ ext) (frames ++ frames') rest' := by
  induction h with
  | stop => exact h'
  | @frame buf rest frames n hsome _ ih =>
    obtain ⟨-, hbounds, happend⟩ := hstable buf hmet
    have hle := (hbounds n hsome).2
    have hrest := ih (hmet.frame_drop hsome hle) h'
    have h := Drains.frame (happend n hsome ext)
      (by rwa [← drop_append_of_le_length hle] at hrest)
    rwa [take_append_of_le_length hle] at h

/-- A buffer that was drained leaves a boundary of the stream. -/
theorem Drains.boundary
    (h : Drains frame buf frames rest) (hb : Boundary frame stream (buf ++ ext)) :
    Boundary frame stream (rest ++ ext) := by
  induction h with
  | stop => exact hb
  | @frame buf rest frames n hsome _ ih =>
    have hle := ((hstable buf ⟨_, hb, prefix_append _ _⟩).bounds n hsome).2
    refine ih ?_
    rw [← drop_append_of_le_length hle]
    exact Boundary.next hb (prefix_append _ _) hsome

theorem receive_drains (chunks : List (List α)) : ∀ pending, frame pending = .ok none →
      Boundary frame stream (pending ++ chunks.flatten) →
      ∃ frames rest, receive frame pending chunks = .ok (frames, rest) ∧
        Drains frame (pending ++ chunks.flatten) frames rest := by
  induction chunks with
  | nil =>
    intro pending hnone _
    refine ⟨[], pending, rfl, ?_⟩
    rw [flatten_nil, append_nil]
    exact Drains.stop hnone
  | cons chunk chunks ih =>
    intro pending hnone hb
    rw [flatten_cons, ← append_assoc] at hb ⊢
    have hmet : Met frame stream (pending ++ chunk) := ⟨_, hb, prefix_append _ _⟩
    obtain ⟨frames, rest, hdrain, hdrains⟩ := drainLoop_eq_ok hstable _ _ hmet (Nat.lt_succ_self _)
    obtain ⟨frames', rest', hreceive, hdrains'⟩ :=
      ih rest hdrains.stuck (hdrains.boundary hstable hb)
    refine ⟨frames ++ frames', rest', ?_, hdrains.append hstable hmet hdrains'⟩
    rw [receive, drain, hdrain]
    simp only [bind, Except.bind, hreceive]

/-- **Segmentation does not matter.** If every buffer met is stable, reading a stream in any chunks
gives the messages, and the rest, of draining it whole; no element is lost or added. -/
theorem receive_eq_drain {chunks : List (List α)} (hchunks : chunks.flatten = stream) :
    receive frame [] chunks = drain frame stream ∧
      ∃ frames rest, drain frame stream = .ok (frames, rest) ∧ frames.flatten ++ rest = stream := by
  have hwhole : Met frame stream stream := ⟨stream, Boundary.start, prefix_refl _⟩
  have hempty : frame [] = .ok none := by
    obtain ⟨⟨r, hr⟩, hbounds, -⟩ := hstable [] ⟨stream, Boundary.start, nil_prefix⟩
    cases r with
    | none => exact hr
    | some n => exact absurd (hbounds n hr).2 (Nat.not_le.2 (hbounds n hr).1)
  obtain ⟨frames, rest, hreceive, hdrains⟩ := receive_drains hstable chunks [] hempty
    (by rw [hchunks]; exact Boundary.start)
  obtain ⟨frames', rest', hdrain, hdrains'⟩ :=
    drainLoop_eq_ok hstable _ _ hwhole (Nat.lt_succ_self _)
  rw [nil_append, hchunks] at hdrains
  obtain ⟨rfl, rfl⟩ := hdrains.unique hdrains'
  exact ⟨hreceive.trans hdrain.symm, frames, rest, hdrain, hdrains.flatten⟩

end Framing
