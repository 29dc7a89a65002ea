import SimMaster.Machine
import SimMaster.ReplayWindow

/-!
# The anti-replay window of the ESP data plane

`AntiReplayWindow` keeps the highest sequence number seen and a `u128` bitmap of the numbers
below it, cut to a window of 1 to 128. It is an instance of the sliding window of
`ReplayWindow.lean`: `AntiReplayWindow.accept_tracks` is what one call does to the relation
between the window and the history, and `accept_run` what this gives for any run.
-/

namespace SimMaster

open ReplayWindow List

inductive AntiReplayDecisionKind where
  | acceptedNewHighest
  | acceptedWithinWindow
  | rejectedDuplicate
  | rejectedTooOld
  | rejectedInvalidSequence
  deriving DecidableEq, Repr

namespace AntiReplayDecisionKind

def asStr : AntiReplayDecisionKind → String
  | acceptedNewHighest => "accepted_new_highest"
  | acceptedWithinWindow => "accepted_within_window"
  | rejectedDuplicate => "rejected_duplicate"
  | rejectedTooOld => "rejected_too_old"
  | rejectedInvalidSequence => "rejected_invalid_sequence"

def accepted : AntiReplayDecisionKind → Bool
  | acceptedNewHighest | acceptedWithinWindow => true
  | _ => false

end AntiReplayDecisionKind

structure AntiReplayDecision where
  decision : String
  accepted : Bool
  highestSequence : UInt64
  sensitiveValuesPolicy : String
  deriving DecidableEq, Repr

/-- The window. Its fields are private in the source and `new` clamps the size, so no window has a
size outside 1 to 128. -/
structure AntiReplayWindow where
  windowSize : UInt16
  highestSequence : UInt64
  bitmap : BitVec 128
  windowSize_pos : 0 < windowSize.toNat
  windowSize_le : windowSize.toNat ≤ 128

namespace AntiReplayWindow

/-- `Ord::clamp` of the window size to 1 to 128. -/
def clampSize (windowSize : UInt16) : UInt16 :=
  if windowSize < 1 then 1 else if 128 < windowSize then 128 else windowSize

variable (windowSize : UInt16)

theorem toNat_clampSize : (clampSize windowSize).toNat = min (max windowSize.toNat 1) 128 := by
  rw [clampSize]
  split
  next h =>
    have h1 := UInt16.lt_iff_toNat_lt.1 h
    simp only [UInt16.reduceToNat] at h1 ⊢
    omega
  next h =>
    have h1 := mt UInt16.lt_iff_toNat_lt.2 h
    split
    next h' =>
      have h2 := UInt16.lt_iff_toNat_lt.1 h'
      simp only [UInt16.reduceToNat] at h1 h2 ⊢
      omega
    next h' =>
      have h2 := mt UInt16.lt_iff_toNat_lt.2 h'
      simp only [UInt16.reduceToNat] at h1 h2 ⊢
      omega

def new (windowSize : UInt16) : AntiReplayWindow where
  windowSize := clampSize windowSize
  highestSequence := 0
  bitmap := 0
  windowSize_pos := by rw [toNat_clampSize]; omega
  windowSize_le := by rw [toNat_clampSize]; omega

def decision (w : AntiReplayWindow) (kind : AntiReplayDecisionKind) : AntiReplayDecision where
  decision := kind.asStr
  accepted := kind.accepted
  highestSequence := w.highestSequence
  sensitiveValuesPolicy := "esp_sequence_metadata_only"

/-- The bits of the window; a shift by the full width would overflow. -/
def windowMask (w : AntiReplayWindow) : BitVec 128 :=
  if w.windowSize = 128 then BitVec.allOnes 128 else (1#128 <<< w.windowSize.toNat) - 1#128

/-- The bitmap after the highest number rises by `delta`. -/
def raisedBitmap (w : AntiReplayWindow) (delta : UInt64) : BitVec 128 :=
  (if 128 ≤ delta then 1#128 else (w.bitmap <<< delta.toNat) ||| 1#128) &&& w.windowMask

/-- `u64::saturating_sub`. -/
def saturatingSub (a b : UInt64) : UInt64 := if b ≤ a then a - b else 0

def accept (w : AntiReplayWindow) (sequenceNumber : UInt64) :
    AntiReplayDecision × AntiReplayWindow :=
  if sequenceNumber = 0 then
    (w.decision .rejectedInvalidSequence, w)
  else if w.highestSequence = 0 ∨ w.highestSequence < sequenceNumber then
    let w' := { w with
      bitmap := w.raisedBitmap (saturatingSub sequenceNumber w.highestSequence)
      highestSequence := sequenceNumber }
    (w'.decision .acceptedNewHighest, w')
  else
    let offset := w.highestSequence - sequenceNumber
    if w.windowSize.toUInt64 ≤ offset then
      (w.decision .rejectedTooOld, w)
    else
      let mask := 1#128 <<< offset.toNat
      if w.bitmap &&& mask ≠ 0#128 then
        (w.decision .rejectedDuplicate, w)
      else
        let w' := { w with bitmap := w.bitmap ||| mask }
        (w'.decision .acceptedWithinWindow, w')

/-! ## The bitmap, bit by bit -/

variable (w : AntiReplayWindow)

theorem getLsbD_windowMask (i : ℕ) : w.windowMask.getLsbD i = decide (i < w.windowSize.toNat) := by
  have hle := w.windowSize_le
  rw [windowMask]
  split
  next h =>
    rw [BitVec.getLsbD_allOnes, h]
    rfl
  next h =>
    -- the subtraction does not wrap: the shifted bit is inside the `u128`
    have hlt : w.windowSize.toNat < 128 := by
      refine lt_of_le_of_ne hle fun he => h ?_
      exact UInt16.toNat_inj.1 he
    have hpow : 2 ^ w.windowSize.toNat < 2 ^ 128 := Nat.pow_lt_pow_right (by omega) hlt
    have hpos : 0 < 2 ^ w.windowSize.toNat := by positivity
    have hval : ((1#128 <<< w.windowSize.toNat) - 1#128).toNat =
        2 ^ w.windowSize.toNat - 1 := by
      rw [← BitVec.twoPow_eq, BitVec.toNat_sub_of_le, BitVec.toNat_twoPow, Nat.mod_eq_of_lt hpow]
      · rfl
      · rw [BitVec.le_def, BitVec.toNat_twoPow, Nat.mod_eq_of_lt hpow]
        exact hpos
    rw [BitVec.getLsbD, hval, Nat.testBit_two_pow_sub_one]

theorem getLsbD_raisedBitmap (delta : UInt64) (i : ℕ) :
    (w.raisedBitmap delta).getLsbD i = true ↔ i < w.windowSize.toNat ∧
      (i = 0 ∨ delta.toNat ≤ i ∧ w.bitmap.getLsbD (i - delta.toNat) = true) := by
  have hle := w.windowSize_le
  rw [raisedBitmap, BitVec.getLsbD_and, getLsbD_windowMask, Bool.and_eq_true, decide_eq_true_iff,
    and_comm]
  refine and_congr_right fun hi => ?_
  split
  next h =>
    -- a jump past the whole bitmap leaves no old bit
    have h128 := UInt64.le_iff_toNat_le.1 h
    simp only [UInt64.reduceToNat] at h128
    rw [BitVec.getLsbD_one]
    simp only [Nat.ofNat_pos, decide_true, Bool.true_and, decide_eq_true_iff]
    constructor
    · exact Or.inl
    · rintro (hi0 | ⟨hd, -⟩)
      · exact hi0
      · omega
  next h =>
    rw [BitVec.getLsbD_or, BitVec.getLsbD_shiftLeft, BitVec.getLsbD_one]
    simp only [Nat.ofNat_pos, decide_true, Bool.true_and, Bool.or_eq_true, Bool.and_eq_true,
      Bool.not_eq_true', decide_eq_true_iff, decide_eq_false_iff_not, not_lt]
    rw [or_comm]
    refine or_congr_right (and_congr_left fun _ => ?_)
    omega

variable {k : ℕ}

theorem and_shifted_bit_ne_zero (bitmap : BitVec 128) (hk : k < 128) :
    bitmap &&& (1#128 <<< k) ≠ 0#128 ↔ bitmap.getLsbD k = true := by
  rw [← BitVec.twoPow_eq, BitVec.and_twoPow]
  split
  next h =>
    refine iff_of_true (fun h0 => ?_) h
    have hbit := congrArg (BitVec.getLsbD · k) h0
    simp [hk] at hbit
  next h => simp [h]

theorem getLsbD_or_shifted_bit (bitmap : BitVec 128) (hk : k < 128) (i : ℕ) :
    (bitmap ||| (1#128 <<< k)).getLsbD i = true ↔ bitmap.getLsbD i = true ∨ i = k := by
  rw [← BitVec.twoPow_eq, BitVec.getLsbD_or, BitVec.getLsbD_twoPow]
  rw [decide_eq_true hk, Bool.true_and, Bool.or_eq_true, decide_eq_true_iff, @eq_comm _ k i]

/-! ## One call -/

/-- The window knows the numbers `S` accepted so far as well as its size allows. -/
def Describes (w : AntiReplayWindow) (S : Finset ℕ) : Prop :=
  Tracks w.windowSize.toNat S w.highestSequence.toNat w.bitmap.getLsbD

theorem new_describes : (new windowSize).Describes ∅ := by
  have hbits : (new windowSize).bitmap.getLsbD = fun _ => false := by
    funext i
    exact BitVec.getLsbD_zero
  rw [Describes, hbits]
  exact Tracks.empty _

/-- Everything one call can do, with the comparisons on `u64` read as comparisons of numbers. -/
theorem accept_cases (seq : UInt64) :
    (seq.toNat = 0 ∧ w.accept seq = (w.decision .rejectedInvalidSequence, w)) ∨
    (w.highestSequence.toNat < seq.toNat ∧ ∃ w' : AntiReplayWindow,
      w.accept seq = (w'.decision .acceptedNewHighest, w') ∧ w'.windowSize = w.windowSize ∧
      w'.highestSequence = seq ∧ w'.bitmap = w.raisedBitmap (saturatingSub seq w.highestSequence)) ∨
    (0 < seq.toNat ∧ seq.toNat ≤ w.highestSequence.toNat ∧
      w.windowSize.toNat ≤ w.highestSequence.toNat - seq.toNat ∧
      w.accept seq = (w.decision .rejectedTooOld, w)) ∨
    (0 < seq.toNat ∧ seq.toNat ≤ w.highestSequence.toNat ∧
      w.highestSequence.toNat - seq.toNat < w.windowSize.toNat ∧
      w.bitmap.getLsbD (w.highestSequence.toNat - seq.toNat) = true ∧
      w.accept seq = (w.decision .rejectedDuplicate, w)) ∨
    (0 < seq.toNat ∧ seq.toNat ≤ w.highestSequence.toNat ∧
      w.highestSequence.toNat - seq.toNat < w.windowSize.toNat ∧
      w.bitmap.getLsbD (w.highestSequence.toNat - seq.toNat) = false ∧
      ∃ w' : AntiReplayWindow, w.accept seq = (w'.decision .acceptedWithinWindow, w') ∧
        w'.windowSize = w.windowSize ∧ w'.highestSequence = w.highestSequence ∧
        w'.bitmap = w.bitmap ||| (1#128 <<< (w.highestSequence.toNat - seq.toNat))) := by
  have hsize := w.windowSize_le
  by_cases hzero : seq = 0
  · refine Or.inl ⟨by simp [hzero], ?_⟩
    rw [accept, if_pos hzero]
  have hpos : 0 < seq.toNat := Nat.pos_of_ne_zero fun he => hzero (UInt64.toNat_inj.1 he)
  by_cases hnew : w.highestSequence = 0 ∨ w.highestSequence < seq
  · refine Or.inr (Or.inl ⟨?_, { w with
      bitmap := w.raisedBitmap (saturatingSub seq w.highestSequence)
      highestSequence := seq }, ?_, rfl, rfl, rfl⟩)
    · rcases hnew with h0 | hlt
      · rwa [h0]
      · exact UInt64.lt_iff_toNat_lt.1 hlt
    · rw [accept, if_neg hzero, if_pos hnew]
  have hle : seq.toNat ≤ w.highestSequence.toNat :=
    Nat.le_of_not_lt fun hlt => hnew (Or.inr (UInt64.lt_iff_toNat_lt.2 hlt))
  have hoffset : (w.highestSequence - seq).toNat = w.highestSequence.toNat - seq.toNat :=
    UInt64.toNat_sub_of_le _ _ (UInt64.le_iff_toNat_le.2 hle)
  have hold_iff : w.windowSize.toUInt64 ≤ w.highestSequence - seq ↔
      w.windowSize.toNat ≤ w.highestSequence.toNat - seq.toNat := by
    rw [UInt64.le_iff_toNat_le, UInt16.toNat_toUInt64, hoffset]
  by_cases hold : w.windowSize.toUInt64 ≤ w.highestSequence - seq
  · refine Or.inr (Or.inr (Or.inl ⟨hpos, hle, hold_iff.1 hold, ?_⟩))
    rw [accept, if_neg hzero, if_neg hnew]
    exact if_pos hold
  have hlt : w.highestSequence.toNat - seq.toNat < w.windowSize.toNat :=
    Nat.lt_of_not_le fun h => hold (hold_iff.2 h)
  have hdup_iff := and_shifted_bit_ne_zero w.bitmap (hlt.trans_le hsize)
  rw [← hoffset] at hdup_iff
  by_cases hdup : w.bitmap &&& (1#128 <<< (w.highestSequence - seq).toNat) ≠ 0#128
  · refine Or.inr (Or.inr (Or.inr (Or.inl ⟨hpos, hle, hlt, ?_, ?_⟩)))
    · rw [← hoffset]
      exact hdup_iff.1 hdup
    · rw [accept, if_neg hzero, if_neg hnew]
      exact (if_neg hold).trans (if_pos hdup)
  · refine Or.inr (Or.inr (Or.inr (Or.inr ⟨hpos, hle, hlt, ?_, { w with
      bitmap := w.bitmap ||| (1#128 <<< (w.highestSequence - seq).toNat) }, ?_, rfl, rfl, ?_⟩)))
    · rw [← hoffset]
      exact Bool.eq_false_iff.2 fun h => hdup (hdup_iff.2 h)
    · rw [accept, if_neg hzero, if_neg hnew]
      exact (if_neg hold).trans (if_neg hdup)
    · rw [hoffset]

/-- **One call.** `accept` decides as the sliding window over the whole history does, and the new
window describes the history with the accepted number added. -/
theorem accept_describes {w : AntiReplayWindow} {S : Finset ℕ} (h : w.Describes S) (seq : UInt64) :
    (w.accept seq).2.windowSize = w.windowSize ∧
      ((w.accept seq).1.accepted = true ↔ Admits w.windowSize.toNat S seq.toNat) ∧
      (w.accept seq).2.Describes (if (w.accept seq).1.accepted then insert seq.toNat S else S) := by
  have hsize := w.windowSize_le
  obtain ⟨hzero, he⟩ | ⟨hlt, w', he, hsize', hhighest', hbitmap'⟩ | ⟨hpos, hle, hold, he⟩ |
    ⟨hpos, hle, hlt, hbit, he⟩ | ⟨hpos, hle, hlt, hbit, w', he, hsize', hhighest', hbitmap'⟩ :=
      w.accept_cases seq <;> rw [he]
  · -- sequence number 0
    exact ⟨rfl, iff_of_false Bool.false_ne_true fun ha => ha.1.ne' hzero, h⟩
  · -- above the highest number, or the first number at all
    refine ⟨hsize', iff_of_true rfl (h.admits_above hlt), ?_⟩
    change Tracks w'.windowSize.toNat (insert seq.toNat S) w'.highestSequence.toNat _
    rw [hsize', hhighest', hbitmap']
    have hdelta : (saturatingSub seq w.highestSequence).toNat =
        seq.toNat - w.highestSequence.toNat := by
      have hle' : w.highestSequence ≤ seq := UInt64.le_iff_toNat_le.2 hlt.le
      rw [saturatingSub, if_pos hle', UInt64.toNat_sub_of_le _ _ hle']
    refine h.raise hlt fun i => ?_
    rw [← hdelta]
    exact getLsbD_raisedBitmap w _ i
  · -- behind the window
    refine ⟨rfl, iff_of_false Bool.false_ne_true fun ha => ?_, h⟩
    exact absurd ((h.admits_iff hpos hle).1 ha).1 (Nat.not_lt.2 hold)
  · -- the bit is set
    refine ⟨rfl, iff_of_false Bool.false_ne_true fun ha => ?_, h⟩
    exact Bool.false_ne_true (((h.admits_iff hpos hle).1 ha).2.symm.trans hbit)
  · -- the bit is clear
    refine ⟨hsize', iff_of_true rfl ((h.admits_iff hpos hle).2 ⟨hlt, hbit⟩), ?_⟩
    change Tracks w'.windowSize.toNat (insert seq.toNat S) w'.highestSequence.toNat _
    rw [hsize', hhighest', hbitmap']
    exact h.mark hpos hle hlt fun i => getLsbD_or_shifted_bit _ (hlt.trans_le hsize) i

/-! ## Whole runs -/

/-- The numbers accepted by the calls of a run, in the order of the calls. -/
def acceptedNumbers (calls : List (UInt64 × AntiReplayDecision)) : List UInt64 :=
  (calls.filter (·.2.accepted)).map Prod.fst

/-- The highest of some numbers, 0 if there are none. -/
def highest (numbers : List UInt64) : ℕ := (numbers.map UInt64.toNat).foldr max 0

/-- What every run keeps: no number is accepted twice, and the window describes the set of
those accepted. -/
structure RunInvariant (windowSize : UInt16) (calls : List (UInt64 × AntiReplayDecision))
    (w : AntiReplayWindow) : Prop where
  size : w.windowSize = clampSize windowSize
  nodup : (acceptedNumbers calls).Nodup
  describes : w.Describes ((acceptedNumbers calls).map UInt64.toNat).toFinset

theorem mem_toFinset_map_toNat (numbers : List UInt64) (seq : UInt64) :
    seq.toNat ∈ (numbers.map UInt64.toNat).toFinset ↔ seq ∈ numbers := by
  rw [mem_toFinset, mem_map_of_injective fun a b => UInt64.toNat_inj.1]

theorem sup_toFinset_map_toNat (numbers : List UInt64) :
    (numbers.map UInt64.toNat).toFinset.sup id = highest numbers :=
  (foldr_sup_eq_sup_toFinset _).symm

theorem run_invariant (seqs : List UInt64) :
    RunInvariant windowSize (Machine.trace accept (new windowSize) seqs)
      (Machine.run accept (new windowSize) seqs) := by
  refine Machine.history_invariant accept ⟨rfl, nodup_nil, new_describes windowSize⟩ ?_ seqs
  rintro calls w seq ⟨hsize, hnodup, hdescribes⟩
  obtain ⟨hsize', hiff, hnext⟩ := accept_describes hdescribes seq
  have hsnoc : acceptedNumbers (calls ++ [(seq, (w.accept seq).1)]) =
      acceptedNumbers calls ++ (if (w.accept seq).1.accepted then [seq] else []) := by
    rw [acceptedNumbers, filter_append, map_append, acceptedNumbers]
    cases hacc : (w.accept seq).1.accepted <;> simp [hacc]
  refine ⟨hsize'.trans hsize, ?_, ?_⟩
  · rw [hsnoc]
    split
    next hacc =>
      have hfresh := (hiff.1 hacc).2.1
      rw [mem_toFinset_map_toNat] at hfresh
      exact hnodup.append (nodup_singleton _) (disjoint_singleton.2 hfresh)
    next => rwa [append_nil]
  · rw [hsnoc]
    split at hnext
    next hacc =>
      rw [if_pos hacc, map_append, toFinset_append]
      rwa [Finset.insert_eq, Finset.union_comm] at hnext
    next hacc => rwa [if_neg hacc, append_nil]

/-- **The window admits each number once.** After any calls, a call is accepted exactly if its
number is positive, was not accepted before, and lies less than the window below the highest number
accepted before (if there is one); no number was accepted twice, and the highest number kept is the
highest accepted. -/
theorem accept_run (windowSize : UInt16) (earlier : List UInt64) (seq : UInt64) :
    let window : AntiReplayWindow := Machine.run accept (new windowSize) earlier
    let numbers := acceptedNumbers (Machine.trace accept (new windowSize) earlier)
    ((window.accept seq).1.accepted = true ↔
      0 < seq.toNat ∧ seq ∉ numbers ∧
        (numbers = [] ∨ highest numbers < seq.toNat + min (max windowSize.toNat 1) 128)) ∧
      numbers.Nodup ∧ window.highestSequence.toNat = highest numbers := by
  intro window numbers
  obtain ⟨hsize, hnodup, hdescribes⟩ := run_invariant windowSize earlier
  refine ⟨?_, hnodup, ?_⟩
  · rw [(accept_describes hdescribes seq).2.1, Admits, mem_toFinset_map_toNat,
      sup_toFinset_map_toNat, hsize, toNat_clampSize, toFinset_eq_empty_iff, map_eq_nil_iff]
  · rw [← hdescribes.highest_eq, sup_toFinset_map_toNat]

end AntiReplayWindow

end SimMaster
