import Mathlib

/-!
# Segmentation

A reader of a stream that also meets errors. `take buf` takes one item off the front of `buf`, asks
for more input, or refuses the stream. The items taken before an error count, and nothing is read
after one. The reader takes items after each chunk of input; the question is whether the items and
the end of the stream depend on how it was cut into chunks.

They do not if each answer that is given at a boundary of the stream for a part of what follows is
also the answer for all of it (`receive_eq_drain`). Conversely an error that comes too soon at some
boundary shows in some way of cutting (`exists_receive_ne_drain`), provided an item is also taken
when little more than the item has arrived.
-/

namespace Segmentation

open List

variable {α φ ε : Type} (take : List α → Except ε (Option (φ × ℕ)))

/-- Takes items off the buffer: the items, and the rest or the error. -/
def drainLoop : ℕ → List α → List φ × Except ε (List α)
  | 0, buf => ([], .ok buf)
  | fuel + 1, buf =>
    match take buf with
    | .error e => ([], .error e)
    | .ok none => ([], .ok buf)
    | .ok (some (item, n)) =>
      let (items, outcome) := drainLoop fuel (buf.drop n)
      (item :: items, outcome)

/-- Every item takes at least one element, so the length of the buffer is fuel enough. -/
def drain (buf : List α) : List φ × Except ε (List α) := drainLoop take (buf.length + 1) buf

/-- Reads the chunks one after the other and drains the buffer after each, up to an error. -/
def receive : List α → List (List α) → List φ × Except ε (List α)
  | pending, [] => ([], .ok pending)
  | pending, chunk :: chunks =>
    match drain take (pending ++ chunk) with
    | (items, .error e) => (items, .error e)
    | (items, .ok rest) =>
      let (items', outcome) := receive rest chunks
      (items ++ items', outcome)

/-- What draining computes, without fuel. -/
inductive Drains : List α → List φ → Except ε (List α) → Prop
  | stop {buf : List α} : take buf = .ok none → Drains buf [] (.ok buf)
  | fail {buf : List α} {e : ε} : take buf = .error e → Drains buf [] (.error e)
  | item {buf : List α} {item : φ} {n : ℕ} {items : List φ} {outcome : Except ε (List α)} :
      take buf = .ok (some (item, n)) → Drains (buf.drop n) items outcome →
      Drains buf (item :: items) outcome

/-- What is left of a stream after some of its items. -/
inductive Boundary (stream : List α) : List α → Prop
  | start : Boundary stream stream
  | next {rest : List α} {item : φ} {n : ℕ} :
      Boundary stream rest → take rest = .ok (some (item, n)) → Boundary stream (rest.drop n)

/-- Items have a length. -/
def Bounded : Prop := ∀ buf item n, take buf = .ok (some (item, n)) → 0 < n ∧ n ≤ buf.length

/-- The answer for `buf` is also the answer for `rest`. -/
structure Persists (buf rest : List α) : Prop where
  item : ∀ item n, take buf = .ok (some (item, n)) → take rest = .ok (some (item, n))
  fail : ∀ e, take buf = .error e → take rest = .error e

variable {take} {stream buf rest ext : List α} {items items' : List φ}
  {outcome outcome' : Except ε (List α)}

/-- Draining has one outcome. -/
theorem Drains.unique (h : Drains take buf items outcome) (h' : Drains take buf items' outcome') :
    items = items' ∧ outcome = outcome' := by
  induction h generalizing items' outcome' with
  | stop hnone =>
    cases h' with
    | stop => exact ⟨rfl, rfl⟩
    | fail herr => rw [hnone] at herr; cases herr
    | item hsome => rw [hnone] at hsome; cases hsome
  | fail herr =>
    cases h' with
    | stop hnone => rw [herr] at hnone; cases hnone
    | fail herr' =>
      rw [herr] at herr'
      cases herr'
      exact ⟨rfl, rfl⟩
    | item hsome => rw [herr] at hsome; cases hsome
  | item hsome _ ih =>
    cases h' with
    | stop hnone => rw [hsome] at hnone; cases hnone
    | fail herr => rw [hsome] at herr; cases herr
    | item hsome' h' =>
      rw [hsome] at hsome'
      cases hsome'
      obtain ⟨rfl, rfl⟩ := ih h'
      exact ⟨rfl, rfl⟩

theorem drainLoop_drains (hbounded : Bounded take) (fuel : ℕ) (buf : List α)
    (hfuel : buf.length < fuel) :
    Drains take buf (drainLoop take fuel buf).1 (drainLoop take fuel buf).2 := by
  induction fuel generalizing buf with
  | zero => exact absurd hfuel (Nat.not_lt_zero _)
  | succ fuel ih =>
    rw [drainLoop]
    split
    case h_1 e herr => exact .fail herr
    case h_2 hnone => exact .stop hnone
    case h_3 item n hsome =>
      obtain ⟨hpos, hle⟩ := hbounded buf item n hsome
      refine .item hsome (ih (buf.drop n) ?_)
      rw [length_drop]
      omega

/-- `drain` has fuel enough. -/
theorem drain_drains (hbounded : Bounded take) (buf : List α) :
    Drains take buf (drain take buf).1 (drain take buf).2 :=
  drainLoop_drains hbounded _ buf (Nat.lt_succ_self _)

theorem drain_eq (hbounded : Bounded take) (h : Drains take buf items outcome) :
    drain take buf = (items, outcome) := by
  obtain ⟨hitems, houtcome⟩ := (drain_drains hbounded buf).unique h
  exact Prod.ext hitems houtcome

/-- The rest of a drained buffer has no item at its front. -/
theorem Drains.stuck (h : Drains take buf items (.ok rest)) : take rest = .ok none := by
  generalize houtcome : (.ok rest : Except ε (List α)) = outcome at h
  induction h with
  | stop hnone =>
    cases houtcome
    exact hnone
  | fail => cases houtcome
  | item _ _ ih => exact ih houtcome

/-- What holds of every item taken holds of every item read. -/
theorem forall_mem_receive {P : φ → Prop}
    (h : ∀ buf item n, take buf = .ok (some (item, n)) → P item) (hbounded : Bounded take)
    (chunks : List (List α)) (pending : List α) :
    ∀ item ∈ (receive take pending chunks).1, P item := by
  have hdrains : ∀ {buf items outcome}, Drains take buf items outcome → ∀ item ∈ items, P item := by
    intro buf items outcome hd
    induction hd with
    | stop => nofun
    | fail => nofun
    | item hsome _ ih => exact forall_mem_cons.mpr ⟨h _ _ _ hsome, ih⟩
  induction chunks generalizing pending with
  | nil => nofun
  | cons chunk chunks ih =>
    have hdrained := hdrains (drain_drains hbounded (pending ++ chunk))
    rw [receive]
    generalize drain take (pending ++ chunk) = drained at hdrained
    obtain ⟨items, outcome⟩ := drained
    cases outcome with
    | error e => exact hdrained
    | ok rest => exact fun item hitem => (mem_append.mp hitem).elim (hdrained item) (ih rest item)

/-! ## Cuts do not matter -/

/-- What was drained at a boundary for a part of what follows is drained first from all of it, and
the rest is at a boundary again. -/
theorem Drains.extend (hbounded : Bounded take)
    (hpersists : ∀ rest, Boundary take stream rest → ∀ buf, buf <+: rest → Persists take buf rest)
    (h : Drains take buf items outcome) (hboundary : Boundary take stream (buf ++ ext)) :
    (∀ e, outcome = .error e → Drains take (buf ++ ext) items (.error e)) ∧
      ∀ rest, outcome = .ok rest → Boundary take stream (rest ++ ext) ∧
        ∀ items' outcome', Drains take (rest ++ ext) items' outcome' →
          Drains take (buf ++ ext) (items ++ items') outcome' := by
  induction h with
  | @stop buf hnone =>
    refine ⟨nofun, ?_⟩
    rintro rest ⟨⟩
    exact ⟨hboundary, fun _ _ => id⟩
  | @fail buf e herr =>
    refine ⟨?_, nofun⟩
    rintro e' ⟨⟩
    exact .fail ((hpersists _ hboundary buf (prefix_append _ _)).fail e herr)
  | @item buf item n items outcome hsome _ ih =>
    have hlong := (hpersists _ hboundary buf (prefix_append _ _)).item item n hsome
    have hdrop : (buf ++ ext).drop n = buf.drop n ++ ext :=
      drop_append_of_le_length (hbounded buf item n hsome).2
    obtain ⟨herror, hok⟩ := ih (hdrop ▸ Boundary.next hboundary hlong)
    refine ⟨fun e he => .item hlong (hdrop ▸ herror e he), fun rest hrest => ?_⟩
    obtain ⟨hnext, hdrains⟩ := hok rest hrest
    exact ⟨hnext, fun items' outcome' h' => .item hlong (hdrop ▸ hdrains items' outcome' h')⟩

theorem receive_drains (hbounded : Bounded take)
    (hpersists : ∀ rest, Boundary take stream rest → ∀ buf, buf <+: rest → Persists take buf rest)
    (chunks : List (List α)) (pending : List α) (hpending : take pending = .ok none)
    (hboundary : Boundary take stream (pending ++ chunks.flatten)) :
    Drains take (pending ++ chunks.flatten) (receive take pending chunks).1
      (receive take pending chunks).2 := by
  induction chunks generalizing pending with
  | nil =>
    rw [flatten_nil, append_nil]
    exact .stop hpending
  | cons chunk chunks ih =>
    rw [flatten_cons, ← append_assoc] at hboundary ⊢
    have hdrained := drain_drains hbounded (pending ++ chunk)
    obtain ⟨herror, hok⟩ := hdrained.extend hbounded hpersists hboundary
    rw [receive]
    generalize drain take (pending ++ chunk) = drained at hdrained herror hok
    obtain ⟨items, outcome⟩ := drained
    cases outcome with
    | error e => exact herror e rfl
    | ok rest =>
      obtain ⟨hnext, hdrains⟩ := hok rest rfl
      exact hdrains _ _ (ih rest hdrained.stuck hnext)

/-- **Cuts do not matter** if the answers at the boundaries persist. -/
theorem receive_eq_drain (hbounded : Bounded take) (hempty : take [] = .ok none)
    (hpersists : ∀ rest, Boundary take stream rest → ∀ buf, buf <+: rest → Persists take buf rest)
    {chunks : List (List α)} (hchunks : chunks.flatten = stream) :
    receive take [] chunks = drain take stream := by
  have hboundary : Boundary take stream ([] ++ chunks.flatten) := by
    rw [hchunks]
    exact .start
  have hdrains := receive_drains hbounded hpersists chunks [] hempty hboundary
  rw [nil_append, hchunks] at hdrains
  exact (drain_eq hbounded hdrains).symm

/-- One chunk is drained. -/
theorem receive_singleton (stream : List α) : receive take [] [stream] = drain take stream := by
  rw [receive, nil_append]
  generalize drain take stream = drained
  obtain ⟨items, outcome⟩ := drained
  cases outcome with
  | error e => rfl
  | ok rest => simp [receive]

/-! ## Where cuts matter -/

/-- The items before a boundary come off the front whatever part of what follows has arrived, once
it is longer than `slack`. -/
theorem Boundary.drains_prefix (slack : ℕ) (hbounded : Bounded take)
    (hlocal : ∀ rest item n, take rest = .ok (some (item, n)) → ∀ buf, buf <+: rest →
      n + slack ≤ buf.length → take buf = .ok (some (item, n))) (h : Boundary take stream rest) :
    ∃ before items, stream = before ++ rest ∧ ∀ buf, buf <+: rest → slack ≤ buf.length →
      ∀ items' outcome, Drains take buf items' outcome →
        Drains take (before ++ buf) (items ++ items') outcome := by
  induction h with
  | start => exact ⟨[], [], rfl, fun _ _ _ _ _ => id⟩
  | @next rest item n _ hsome ih =>
    obtain ⟨before, items, hstream, hdrains⟩ := ih
    have hle := (hbounded rest item n hsome).2
    refine ⟨before ++ rest.take n, items ++ [item], ?_, fun buf hbuf hslack items' outcome h' => ?_⟩
    · rw [append_assoc, take_append_drop, hstream]
    · have hprefix : rest.take n ++ buf <+: rest := by
        obtain ⟨tail, htail⟩ := hbuf
        exact ⟨tail, by rw [append_assoc, htail, take_append_drop]⟩
      have htake : (rest.take n).length = n := length_take_of_le hle
      have hitem : take (rest.take n ++ buf) = .ok (some (item, n)) :=
        hlocal rest item n hsome _ hprefix (by rw [length_append]; omega)
      have hdrop : (rest.take n ++ buf).drop n = buf := drop_left' htake
      have hnext : Drains take (rest.take n ++ buf) (item :: items') outcome :=
        .item hitem (hdrop.symm ▸ h')
      rw [append_assoc, append_assoc]
      exact hdrains _ hprefix (by rw [length_append]; omega) _ _ hnext

/-- **Where cuts matter.** A part of what follows a boundary that is refused, although all of it is
not, is a cut that shows. -/
theorem exists_receive_ne_drain (slack : ℕ) (hbounded : Bounded take)
    (hlocal : ∀ rest item n, take rest = .ok (some (item, n)) → ∀ buf, buf <+: rest →
      n + slack ≤ buf.length → take buf = .ok (some (item, n)))
    (hboundary : Boundary take stream rest) (hbuf : buf <+: rest) (hslack : slack ≤ buf.length)
    {e : ε} (hbad : take buf = .error e) (hgood : ∀ e, take rest ≠ .error e) :
    ∃ chunks : List (List α), chunks.flatten = stream ∧
      receive take [] chunks ≠ drain take stream := by
  obtain ⟨before, items, hstream, hdrains⟩ := hboundary.drains_prefix slack hbounded hlocal
  obtain ⟨tail, htail⟩ := hbuf
  refine ⟨[before ++ buf, tail], by simp [hstream, ← htail], fun heq => ?_⟩
  have hcut : drain take (before ++ buf) = (items ++ [], .error e) :=
    drain_eq hbounded (hdrains buf ⟨tail, htail⟩ hslack _ _ (.fail hbad))
  have hrest := drain_drains hbounded rest
  have hslack' : slack ≤ rest.length := by
    rw [← htail, length_append]
    omega
  have hwhole : drain take stream = (items ++ (drain take rest).1, (drain take rest).2) :=
    hstream ▸ drain_eq hbounded (hdrains rest prefix_rfl hslack' _ _ hrest)
  rw [receive, nil_append, hcut, hwhole] at heq
  -- the items agree, so nothing was taken at the boundary, and the outcome is the error
  obtain ⟨hitems, houtcome⟩ := Prod.mk.inj heq
  have hnone : (drain take rest).1 = [] := (append_cancel_left hitems).symm
  rw [hnone, ← houtcome] at hrest
  cases hrest with
  | fail herr => exact hgood e herr

end Segmentation
