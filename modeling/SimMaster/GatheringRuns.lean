import SimMaster.Gathering

/-!
# Runs of gathering

A reassembler that follows a policy for every buffer (`Reassembler.Refines`) puts together only
packets of fragments that came while the buffer was there (`Refines.forward`), whatever else came
before, between and after; and it puts together every complete set (`Refines.forwardsOnce`).
-/

namespace SimMaster.TunGateway

open Rust Reassembly Machine List Option

variable {B η : Type}

/-- How long a packet says it is. -/
def lengthField (packet : Bytes) : Option ℕ :=
  if version packet = some 4 then some (fromBe (slice packet 2 4))
  else if version packet = some 6 then some (40 + fromBe (slice packet 4 6))
  else none

/-! ## Refinement -/

/-- The reassembler follows the policy: a well-formed fragment, as `received` reads it, goes to the
buffer of its key and does there what the policy says; anything else goes through or is dropped. -/
structure Reassembler.Refines (r : Reassembler B) (policy : Policy η)
    (received : Bytes → Option (FragmentKey × Received η)) (new : Instant → B)
    (view : B → Gathered η)
    (recv : B → Received η → Option (FragmentReassemblyOutcome × Option B)) : Prop where
  sound : policy.Sound
  accepted : ∀ now packet buffers key f, received packet = some (key, f) →
    r.receive now packet buffers =
      (recv (((expire r.createdAt now buffers).lookup key).getD (new now)) f).map fun answer =>
        (answer.1, (expire r.createdAt now buffers).set key answer.2)
  refused : ∀ now packet buffers outcome buffers', received packet = none →
    r.receive now packet buffers = some (outcome, buffers') →
      (outcome = .dropped ∨ r.keyOf packet = none ∧ outcome = .forward packet) ∧
        (buffers' = buffers ∨ buffers' = expire r.createdAt now buffers)
  keyOf : ∀ packet key f, received packet = some (key, f) → r.keyOf packet = some key
  view_new : ∀ now, view (new now) = .empty
  view_recv : ∀ b f,
    (recv b f).map (fun answer => (answer.1, answer.2.map view)) = (view b).receive policy f
  createdAt_recv : ∀ b f outcome b', recv b f = some (outcome, some b') →
    r.createdAt b' = r.createdAt b
  fair : ∀ packet key f, received packet = some (key, f) → policy.Fair f
  length : ∀ packet key f total header data, received packet = some (key, f) →
    policy.restore f.header total = some (some header) → data.length = total →
      lengthField (header ++ data) = some (header ++ data).length

/-! ## The lifetime of a buffer -/

/-- The arrivals since the buffer held for the key was created, after one more. -/
def Reassembler.since (r : Reassembler B) (key : FragmentKey) (buffers : HashMap FragmentKey B)
    (seen : List Arrival) (a : Arrival) : List Arrival :=
  match (r.step buffers a).2.lookup key with
  | none => []
  | some b =>
    if (buffers.lookup key).map r.createdAt = some (r.createdAt b) then seen ++ [a] else [a]

/-- The arrivals since the buffer held for the key after a run was created. -/
def Reassembler.lifetime (r : Reassembler B) (key : FragmentKey) :
    HashMap FragmentKey B → List Arrival → List Arrival → List Arrival
  | _, seen, [] => seen
  | buffers, seen, a :: rest =>
    r.lifetime key (r.step buffers a).2 (r.since key buffers seen a) rest

/-- The arrivals of the buffer that `a` finds for the key after the arrivals, and `a` itself. -/
def Reassembler.gathered (r : Reassembler B) (key : FragmentKey) (arrivals : List Arrival)
    (a : Arrival) : List Arrival :=
  (if ((expire r.createdAt a.now (run r.step ∅ arrivals)).lookup key).isSome then
    r.lifetime key ∅ [] arrivals else []) ++ [a]

/-- The fragments with the key among the arrivals. -/
def fragmentsOf (received : Bytes → Option (FragmentKey × Received η)) (key : FragmentKey)
    (arrivals : List Arrival) : List (Received η) :=
  arrivals.filterMap fun a =>
    (received a.packet).bind fun kf => if kf.1 = key then some kf.2 else none

theorem fragmentsOf_append (received : Bytes → Option (FragmentKey × Received η))
    (key : FragmentKey) (xs ys : List Arrival) :
    fragmentsOf received key (xs ++ ys) = fragmentsOf received key xs ++
      fragmentsOf received key ys :=
  filterMap_append

variable {received : Bytes → Option (FragmentKey × Received η)} {key : FragmentKey} {a : Arrival}
  {f : Received η}

theorem fragmentsOf_own (h : received a.packet = some (key, f)) :
    fragmentsOf received key [a] = [f] := by
  simp [fragmentsOf, h]

variable {arrivals : List Arrival}

theorem exists_of_mem_fragmentsOf (h : f ∈ fragmentsOf received key arrivals) :
    ∃ a ∈ arrivals, received a.packet = some (key, f) := by
  obtain ⟨a, ha, hf⟩ := mem_filterMap.mp h
  obtain ⟨⟨key', f'⟩, hreceived, hkey⟩ := bind_eq_some_iff.mp hf
  split at hkey
  case isTrue heq =>
    cases hkey
    exact ⟨a, ha, heq ▸ hreceived⟩
  case isFalse => cases hkey

variable {buffers : HashMap FragmentKey B} {b : B}

theorem lookup_of_expire {createdAt : B → Instant} {now : Instant}
    (h : (expire createdAt now buffers).lookup key = some b) :
    buffers.lookup key = some b := by
  rw [expire] at h
  split at h
  · rw [HashMap.lookup_retain] at h
    exact (filter_eq_some_iff.mp h).1
  · exact h

namespace Reassembler.Refines

variable {r : Reassembler B} {policy : Policy η}
  {received : Bytes → Option (FragmentKey × Received η)} {new : Instant → B} {view : B → Gathered η}
  {recv : B → Received η → Option (FragmentReassemblyOutcome × Option B)}
  (h : r.Refines policy received new view recv)

include h

variable {seen : List Arrival}

/-- What a fragment finds for its key holds what arrived in the lifetime of the buffer. -/
theorem holds_found (now : Instant) (hbuffers : ∀ b, buffers.lookup key = some b →
      ∃ kept, Gathered.Holds policy True (fragmentsOf received key seen) kept (view b)) :
    ∃ kept, Gathered.Holds policy True
      (if ((expire r.createdAt now buffers).lookup key).isSome then fragmentsOf received key seen
        else []) kept (view (((expire r.createdAt now buffers).lookup key).getD (new now))) := by
  cases hfound : (expire r.createdAt now buffers).lookup key with
  | none =>
    rw [getD_none, h.view_new]
    exact ⟨[], .of_empty policy True⟩
  | some b =>
    exact hbuffers b (lookup_of_expire hfound)

theorem fair_fragmentsOf : ∀ f ∈ fragmentsOf received key arrivals, policy.Fair f := fun f hf =>
  have ⟨a, _, ha⟩ := exists_of_mem_fragmentsOf hf
  h.fair a.packet key f ha

/-- A step keeps the buffers full of fragments of their lifetime. -/
theorem holds_step (a : Arrival) (hbuffers : ∀ b, buffers.lookup key = some b →
      ∃ kept, Gathered.Holds policy True (fragmentsOf received key seen) kept (view b)) {b' : B}
    (hb' : (r.step buffers a).2.lookup key = some b') :
    ∃ kept, Gathered.Holds policy True (fragmentsOf received key (r.since key buffers seen a)) kept
      (view b') := by
  have hsince : ∀ {seen' : List Arrival}, (buffers.lookup key).map r.createdAt =
      some (r.createdAt b') → seen' = seen → r.since key buffers seen a = seen' ++ [a] := by
    intro seen' hcreated hseen
    rw [since, hb']
    dsimp only
    rw [if_pos hcreated, hseen]
  -- a buffer that was not touched
  have hsame : buffers.lookup key = some b' → ∃ kept, Gathered.Holds policy True
      (fragmentsOf received key (r.since key buffers seen a)) kept (view b') := by
    intro hold
    obtain ⟨kept, hkept⟩ := hbuffers b' hold
    rw [hsince (by rw [hold]; rfl) rfl, fragmentsOf_append]
    exact ⟨kept, hkept.mono (sublist_append_left _ _)⟩
  cases hanswer : r.receive a.now a.packet buffers with
  | none =>
    rw [step, hanswer] at hb'
    exact hsame hb'
  | some answer =>
  have hb : answer.2.lookup key = some b' := by
    rw [step, hanswer] at hb'
    exact hb'
  cases hreceived : received a.packet with
  | none =>
    obtain ⟨-, hkept | hkept⟩ := h.refused _ _ _ _ _ hreceived hanswer
    · exact hsame (hkept ▸ hb)
    · exact hsame (lookup_of_expire (hkept ▸ hb))
  | some kf =>
  obtain ⟨key', f⟩ := kf
  rw [h.accepted _ _ _ _ _ hreceived, map_eq_some_iff] at hanswer
  obtain ⟨⟨outcome, left⟩, hrecv, rfl⟩ := hanswer
  by_cases hkey : key' = key
  · subst hkey
    rw [HashMap.lookup_set_self] at hb
    subst hb
    obtain ⟨kept, hkept⟩ := h.holds_found a.now hbuffers
    have hview := h.view_recv (((expire r.createdAt a.now buffers).lookup key').getD (new a.now)) f
    rw [hrecv, map_some, map_some, Gathered.receive] at hview
    split at hview
    case isTrue => cases hview
    case isFalse hapart =>
    have hadd := hkept.add (f := f) (by simpa using hapart)
    have hfair : ∀ f' ∈ (if ((expire r.createdAt a.now buffers).lookup key').isSome then
        fragmentsOf received key' seen else []) ++ [f], policy.Fair f' := by
      intro f' hf'
      rcases mem_append.mp hf' with hold | hnew
      · split at hold
        · exact h.fair_fragmentsOf f' hold
        · cases hold
      · rw [mem_singleton.mp hnew]
        exact h.fair _ _ _ hreceived
    obtain ⟨hsettled, hholds⟩ := hadd.settle h.sound hfair hview.symm
    rw [hsettled]
    refine ⟨_, hholds.mono ?_⟩
    cases hfound : (expire r.createdAt a.now buffers).lookup key' with
    | none =>
      -- a new buffer
      rw [isSome_none, if_neg Bool.false_ne_true, nil_append, since, hb']
      dsimp only
      split
      · rw [fragmentsOf_append, fragmentsOf_own hreceived]
        exact sublist_append_right _ _
      · rw [fragmentsOf_own hreceived]
    | some b =>
      rw [hfound, getD_some] at hrecv
      have hcreated := h.createdAt_recv _ _ _ _ hrecv
      rw [hsince (by rw [lookup_of_expire hfound, hcreated]; rfl) rfl, fragmentsOf_append,
        fragmentsOf_own hreceived]
      exact Sublist.refl _
  · rw [HashMap.lookup_set_of_ne _ (Ne.symm hkey)] at hb
    exact hsame (lookup_of_expire hb)

/-- After any run the buffer of a key holds fragments of its lifetime. -/
theorem holds_run (key : FragmentKey) (buffers : HashMap FragmentKey B) (seen : List Arrival)
    (arrivals : List Arrival) (hbuffers : ∀ b, buffers.lookup key = some b →
      ∃ kept, Gathered.Holds policy True (fragmentsOf received key seen) kept (view b)) :
    ∀ b, (run r.step buffers arrivals).lookup key = some b → ∃ kept, Gathered.Holds policy True
        (fragmentsOf received key (r.lifetime key buffers seen arrivals)) kept (view b) := by
  induction arrivals generalizing buffers seen with
  | nil => exact hbuffers
  | cons a rest ih => exact ih _ _ fun b hb => h.holds_step a hbuffers hb

/-- **Integrity.** A fragment that has a packet forwarded completes a set of fragments of its key
that came while the buffer was there; the packet is put together from them and as long as it says,
and the buffer is gone. -/
theorem forward {packet : Bytes}
    (hanswer : (r.step (run r.step ∅ arrivals) a).1 = some (.forward packet))
    (hkey : r.keyOf a.packet = some key) : (∃ pieces start stop header total,
      Assembly policy (fragmentsOf received key (r.gathered key arrivals a)) packet
        pieces start stop
        header total) ∧ lengthField packet = some packet.length ∧
      (r.step (run r.step ∅ arrivals) a).2.lookup key = none := by
  rw [step] at hanswer ⊢
  cases hreceive : r.receive a.now a.packet (run r.step ∅ arrivals) with
  | none =>
    rw [hreceive] at hanswer
    cases hanswer
  | some answer =>
  obtain ⟨outcome, buffers'⟩ := answer
  rw [hreceive] at hanswer
  obtain rfl : outcome = .forward packet := some.inj hanswer
  cases hreceived : received a.packet with
  | none =>
    obtain ⟨hdropped | ⟨hnone, -⟩, -⟩ := h.refused _ _ _ _ _ hreceived hreceive
    · cases hdropped
    · rw [hkey] at hnone
      cases hnone
  | some kf =>
  obtain ⟨key', f⟩ := kf
  obtain rfl : key = key' := some.inj (hkey.symm.trans (h.keyOf _ _ _ hreceived))
  rw [h.accepted _ _ _ _ _ hreceived, map_eq_some_iff] at hreceive
  obtain ⟨⟨outcome, left⟩, hrecv, hpair⟩ := hreceive
  obtain ⟨rfl, rfl⟩ := Prod.mk.inj hpair
  obtain ⟨kept, hkept⟩ := h.holds_found a.now
    (h.holds_run key ∅ [] arrivals fun b hb => by cases hb)
  have hview := h.view_recv
    (((expire r.createdAt a.now (run r.step ∅ arrivals)).lookup key).getD (new a.now)) f
  rw [hrecv, map_some, Gathered.receive] at hview
  split at hview
  case isTrue => cases hview
  case isFalse hapart =>
  obtain ⟨hleft, pieces, start, stop, header, total, hassembly⟩ :=
    (hkept.add (f := f) (by simpa using hapart)).assembly h.sound hview.symm
  have hgathered : fragmentsOf received key (r.gathered key arrivals a) =
      (if ((expire r.createdAt a.now (run r.step ∅ arrivals)).lookup key).isSome then
        fragmentsOf received key (r.lifetime key ∅ [] arrivals) else []) ++ [f] := by
    rw [gathered, fragmentsOf_append, fragmentsOf_own hreceived]
    split <;> rfl
  rw [← hgathered] at hassembly
  refine ⟨⟨pieces, start, stop, header, total, hassembly⟩, ?_, ?_⟩
  · obtain ⟨b, -, hb⟩ :=
      exists_of_mem_fragmentsOf (hassembly.received.subset hassembly.startMem)
    have htotal : (pieces.flatMap fun f => f.part.data).length = total := by
      rw [← hassembly.follows.length_eq, Nat.zero_add, flatMap_map]
      rfl
    rw [hassembly.packet]
    exact h.length _ _ _ _ _ _ hb hassembly.restored htotal
  · rw [HashMap.lookup_set_self]
    exact map_eq_none_iff.mp hleft

/-- A fragment that shares a place with what its key holds is dropped together with it. -/
theorem dropped_of_overlaps (hreceived : received a.packet = some (key, f))
    (hfound : (expire r.createdAt a.now buffers).lookup key = some b)
    (hoverlaps : overlaps f.part.offset f.part.stop (view b).pieces = true) :
    (r.step buffers a).1 = some .dropped ∧ (r.step buffers a).2.lookup key = none := by
  have hview := h.view_recv b f
  rw [Gathered.receive, if_pos hoverlaps] at hview
  obtain ⟨⟨outcome, left⟩, hrecv, hpair⟩ := map_eq_some_iff.mp hview
  obtain ⟨rfl, hleft⟩ := Prod.mk.inj hpair
  rw [step, h.accepted _ _ _ _ _ hreceived, hfound, getD_some, hrecv, map_some]
  exact ⟨rfl, (HashMap.lookup_set_self _ _ _).trans (map_eq_none_iff.mp hleft)⟩

/-- With a policy that keeps no set it drops, no well-formed fragment that is dropped leaves a
buffer. -/
theorem lookup_of_dropped (huneven : policy.keepsUneven = false)
    (hrefused : policy.keepsRefused = false) (hreceived : received a.packet = some (key, f))
    (hdropped : (r.step buffers a).1 = some .dropped) : (r.step buffers a).2.lookup key = none := by
  rw [step, h.accepted _ _ _ _ _ hreceived] at hdropped ⊢
  have hview := h.view_recv
    (((expire r.createdAt a.now buffers).lookup key).getD (new a.now)) f
  cases hrecv : recv (((expire r.createdAt a.now buffers).lookup key).getD (new a.now)) f with
  | none =>
    rw [hrecv] at hdropped
    cases hdropped
  | some answer =>
    obtain ⟨outcome, left⟩ := answer
    rw [hrecv] at hdropped hview
    obtain rfl : outcome = .dropped := some.inj hdropped
    rw [map_some, HashMap.lookup_set_self]
    exact map_eq_none_iff.mp
      (Gathered.left_of_dropped huneven hrefused hview.symm)

/-- Packets of other keys leave a buffer alone, unless it is old. -/
theorem frames (key : FragmentKey) : r.Frames key := by
  intro now packet buffers outcome buffers' hreceive hkey
  cases hreceived : received packet with
  | none =>
    exact (h.refused _ _ _ _ _ hreceived hreceive).2.imp (congrArg (AList.lookup key))
      (congrArg (AList.lookup key))
  | some kf =>
    rw [h.accepted _ _ _ _ _ hreceived, map_eq_some_iff] at hreceive
    obtain ⟨answer, -, hpair⟩ := hreceive
    obtain ⟨-, rfl⟩ := Prod.mk.inj hpair
    refine Or.inr (HashMap.lookup_set_of_ne _ (fun heq => hkey ?_) _)
    rw [heq]
    exact h.keyOf _ _ _ hreceived

/-- **Complete sets.** Fragments that are the parts of one message, in any order and among any other
packets, are put together once. -/
theorem forwardsOnce {parts : List (Fragment UInt8)} (htiles : Tiles 0 parts)
    {emit : Fragment UInt8 → Bytes} {header : Fragment UInt8 → η}
    {restored : Bytes} (hemit : ∀ p ∈ parts, received (emit p) = some (key, ⟨header p, p⟩))
    (hrestore : ∀ p ∈ parts, p.offset = 0 →
      policy.restore (header p) (join parts).length = some (some restored)) :
    r.ForwardsOnce key (parts.map emit) (restored ++ join parts) := by
  intro buffers arrivals hbuffers hperm hquiet
  -- the own arrivals carry the parts in some order
  obtain ⟨rest, hemitted, hrest⟩ : Relation.Comp (fun packets rest => packets = rest.map emit)
      Perm ((arrivals.filter Arrival.own).map Arrival.packet) parts :=
    (congrFun (congrFun (eq_map_comp_perm emit) _) _).mpr hperm
  have hne : rest ≠ [] := fun hnil => htiles.ne_nil (hnil ▸ hrest).symm.eq_nil
  -- what is known of the buffer after some of the parts
  let Holding : List (Fragment UInt8) → HashMap FragmentKey B → Prop := fun got buffers =>
    (buffers.lookup key).map view = if got = [] then none else some (.ofParts header got)
  have hreceive : ∀ got p s (a : Arrival), Holding got s → r.Quiet key s a → a.packet = emit p →
      p ∈ parts → (r.receive a.now a.packet s).map (fun answer =>
          (answer.1, (answer.2.lookup key).map view)) =
        (Gathered.ofParts header got).receive policy ⟨header p, p⟩ := by
    intro got p s a hs hq hp hmem
    have hview : view (((expire r.createdAt a.now s).lookup key).getD (new a.now)) =
        .ofParts header got := by
      rw [lookup_expire hq.fresh]
      cases hlookup : s.lookup key with
      | none =>
        have hgot : got = [] := by
          by_contra hgot
          simp [Holding, hlookup, hgot] at hs
        rw [getD_none, h.view_new, hgot]
        rfl
      | some b =>
        by_cases hgot : got = []
        · simp [Holding, hlookup, hgot] at hs
        · simpa [Holding, hlookup, hgot] using hs
    rw [hp, h.accepted _ _ _ _ _ (hemit p hmem), ← hview, ← h.view_recv, Option.map_map]
    congr 1
    funext answer
    simp
  have hrun : ownAnswers Arrival.own (trace r.step buffers arrivals) =
        (if rest = [] then [] else
          replicate (rest.length - 1) (some .buffered) ++
            [some (.forward (restored ++ join parts))]) ∧
      Holding (if rest = [] then [] else []) (run r.step buffers arrivals) := by
    refine run_gathers ?_ ?_ ?_ ?_ (fun _ => hrest) hemitted hquiet
    · intro got s a hs hq hother
      have hlookup := r.lookup_step (h.frames key) hq hother
      simpa only [Holding, hlookup] using hs
    · intro got p s a hs hq _ hp hsub hshort
      have hmem : p ∈ parts := hsub.subset (mem_append_right _ (mem_singleton_self p))
      have hanswer := hreceive got p s a hs hq hp hmem
      rw [Gathered.receive_more htiles header h.sound hsub hshort] at hanswer
      obtain ⟨answer, hanswer, hpair⟩ := map_eq_some_iff.mp hanswer
      obtain ⟨houtcome, hleft⟩ := Prod.mk.inj hpair
      rw [step, hanswer]
      refine ⟨congrArg some houtcome, hleft.trans ?_⟩
      rw [if_neg (append_ne_nil_of_right_ne_nil _ (cons_ne_nil _ _))]
    · intro got p s a hs hq _ hp hfull
      have hmem : p ∈ parts :=
        hfull.mem_iff.mp (mem_append_right _ (mem_singleton_self p))
      have hanswer := hreceive got p s a hs hq hp hmem
      rw [Gathered.receive_done htiles header h.sound hrestore hfull] at hanswer
      obtain ⟨answer, hanswer, hpair⟩ := map_eq_some_iff.mp hanswer
      obtain ⟨houtcome, hleft⟩ := Prod.mk.inj hpair
      rw [step, hanswer]
      exact ⟨congrArg some houtcome, hleft⟩
    · change (buffers.lookup key).map view = none
      rw [hbuffers]
      rfl
  rw [if_neg hne, if_neg hne, hrest.length_eq] at hrun
  obtain ⟨hanswers, hnone⟩ := hrun
  exact ⟨by rw [hanswers, length_map], map_eq_none_iff.mp hnone⟩

end Reassembler.Refines

end SimMaster.TunGateway
