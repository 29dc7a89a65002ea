import SimMaster.SmsRpData

/-!
# The key of a segment

A deliver PDU is walked twice: the strict reader checks its framing and collects the metadata that
tell the users of one reference apart, the lenient one decodes it. `DeliverTpdu` is the layout both
walk over, with its information elements as a list. Over layouts the strict reader is a list of
conditions and a concatenation, which is injective because every element begins with its length.
-/

namespace SimMaster

open Rust Method List Option Except

/-! ## Layouts -/

/-- An information element of a user data header. -/
structure InfoElement where
  iei : UInt8
  value : Bytes
  deriving DecidableEq

namespace InfoElement

def octets (e : InfoElement) : Bytes := e.iei :: UInt8.ofNat e.value.length :: e.value

/-- The elements of concatenated messages, with references of 8 and of 16 bits. -/
def IsConcat (e : InfoElement) : Prop := e.iei = 0 ∨ e.iei = 8

instance (e : InfoElement) : Decidable e.IsConcat := inferInstanceAs (Decidable (_ ∨ _))

/-- The element without the sequence number of a segment. -/
def blanked (e : InfoElement) : InfoElement :=
  if e.IsConcat then { e with value := e.value.dropLast ++ [0] } else e

/-- The same element, but for the sequence number of a segment. -/
def SameButSequence (e e' : InfoElement) : Prop :=
  e.iei = e'.iei ∧ e.value.length = e'.value.length ∧
    if e.IsConcat then e.value.dropLast = e'.value.dropLast else e.value = e'.value

end InfoElement

/-- A TPDU of an SMS-DELIVER, taken apart. -/
structure DeliverTpdu where
  first : UInt8
  digits : UInt8
  addressType : UInt8
  address : Bytes
  pid : UInt8
  dcs : UInt8
  scts : Bytes
  udl : UInt8
  elements : List InfoElement
  userData : Bytes
  address_length : address.length = addressValueOctets digits.toNat
  scts_length : scts.length = 7
  value_short : ∀ e ∈ elements, e.value.length < 256
  header_short : (elements.flatMap InfoElement.octets).length < 256
  elements_nil : first &&& 0x40 = 0 → elements = []

namespace DeliverTpdu

variable (t : DeliverTpdu)

/-- The information elements of the user data header, without its length. -/
def header : Bytes := t.elements.flatMap InfoElement.octets

theorem header_lt : t.header.length < 256 := t.header_short

/-- What stands behind the length of the user data. -/
def data : Bytes :=
  if t.first &&& 0x40 ≠ 0 then UInt8.ofNat t.header.length :: (t.header ++ t.userData)
  else t.userData

def octets : Bytes :=
  t.first :: t.digits :: t.addressType ::
    (t.address ++ (t.pid :: t.dcs :: (t.scts ++ (t.udl :: t.data))))

/-- What the assembly key is written from. -/
def metadata : Bytes :=
  [t.addressType, t.pid, t.dcs] ++ (t.elements.map InfoElement.blanked).flatMap InfoElement.octets

end DeliverTpdu

/-! ## Elements are read in one way -/

namespace InfoElement

variable {e e' : InfoElement}

theorem octets_append_inj {rest rest' : Bytes} (he : e.value.length < 256)
    (he' : e'.value.length < 256) (h : e.octets ++ rest = e'.octets ++ rest') :
    e = e' ∧ rest = rest' := by
  obtain ⟨iei, value⟩ := e
  obtain ⟨iei', value'⟩ := e'
  rw [octets, octets, cons_append, cons_append, cons_append, cons_append,
    cons.injEq, cons.injEq] at h
  obtain ⟨hiei, hlen, hvalue⟩ := h
  dsimp only at he he' hiei hlen hvalue
  have hlength : value.length = value'.length := by
    have hnat := congrArg UInt8.toNat hlen
    rwa [UInt8.toNat_ofNat_of_lt' he, UInt8.toNat_ofNat_of_lt' he'] at hnat
  obtain ⟨rfl, rfl⟩ := append_inj hvalue hlength
  exact ⟨by rw [hiei], rfl⟩

theorem octets_ne_nil (e : InfoElement) : e.octets ≠ [] := cons_ne_nil _ _

theorem length_le_flatMap_octets (es : List InfoElement) :
    es.length ≤ (es.flatMap octets).length := by
  induction es with
  | nil => exact le_rfl
  | cons e es ih =>
    rw [flatMap_cons, length_append, length_cons, octets, length_cons]
    omega

/-- A header has one list of elements. -/
theorem flatMap_octets_inj {es es' : List InfoElement} (hes : ∀ e ∈ es, e.value.length < 256)
    (hes' : ∀ e ∈ es', e.value.length < 256)
    (h : es.flatMap octets = es'.flatMap octets) : es = es' := by
  induction es generalizing es' with
  | nil =>
    cases es' with
    | nil => rfl
    | cons e' es' =>
      exact absurd h.symm (append_ne_nil_of_left_ne_nil e'.octets_ne_nil _)
  | cons e es ih =>
    cases es' with
    | nil =>
      exact absurd h (append_ne_nil_of_left_ne_nil e.octets_ne_nil _)
    | cons e' es' =>
      rw [forall_mem_cons] at hes hes'
      obtain ⟨rfl, hrest⟩ := octets_append_inj hes.1 hes'.1 h
      rw [ih hes.2 hes'.2 hrest]

theorem length_blanked (h : e.IsConcat → e.value ≠ []) :
    e.blanked.value.length = e.value.length := by
  rw [blanked]
  split
  next hconcat =>
    have := length_pos_of_ne_nil (h hconcat)
    rw [length_append, length_dropLast, length_singleton]
    omega
  next => rfl

theorem blanked_iei (e : InfoElement) : e.blanked.iei = e.iei := by
  rw [blanked]
  split <;> rfl

/-- Blanking the sequence number leaves the rest. -/
theorem blanked_inj_iff (h : e.IsConcat → e.value ≠ [])
    (h' : e'.IsConcat → e'.value ≠ []) : e.blanked = e'.blanked ↔ e.SameButSequence e' := by
  constructor
  · intro heq
    have hiei : e.iei = e'.iei := by rw [← e.blanked_iei, heq, e'.blanked_iei]
    have hlen : e.value.length = e'.value.length := by
      rw [← length_blanked h, heq, length_blanked h']
    refine ⟨hiei, hlen, ?_⟩
    have hsame : e.IsConcat ↔ e'.IsConcat := by rw [IsConcat, IsConcat, hiei]
    have hvalue := congrArg value heq
    by_cases hconcat : e.IsConcat
    · rw [blanked, blanked, if_pos hconcat, if_pos (hsame.mp hconcat)] at hvalue
      rw [if_pos hconcat]
      exact append_cancel_right hvalue
    · rw [blanked, blanked, if_neg hconcat, if_neg (fun hc => hconcat (hsame.mpr hc))] at hvalue
      rw [if_neg hconcat]
      exact hvalue
  · rintro ⟨hiei, -, hvalue⟩
    obtain ⟨iei, value⟩ := e
    obtain ⟨iei', value'⟩ := e'
    obtain rfl : iei = iei' := hiei
    rw [blanked, blanked]
    by_cases hconcat : (⟨iei, value⟩ : InfoElement).IsConcat
    · have hconcat' : (⟨iei, value'⟩ : InfoElement).IsConcat := hconcat
      rw [if_pos hconcat] at hvalue
      rw [if_pos hconcat, if_pos hconcat']
      exact congrArg (fun v => (⟨iei, v ++ [0]⟩ : InfoElement)) hvalue
    · have hconcat' : ¬(⟨iei, value'⟩ : InfoElement).IsConcat := hconcat
      rw [if_neg hconcat] at hvalue
      rw [if_neg hconcat, if_neg hconcat']
      exact congrArg (mk iei) hvalue

end InfoElement

/-! ## The two walks over the elements -/

/-- What the strict reader wants of the elements of concatenated messages. -/
structure InfoElement.Plausible (e : InfoElement) : Prop where
  length_eq : e.value.length = if e.iei = 0 then 3 else 4
  total_ne : e.value.getD (e.value.length - 2) 0 ≠ 0
  sequence_ne : e.value.getD (e.value.length - 1) 0 ≠ 0
  sequence_le : e.value.getD (e.value.length - 1) 0 ≤ e.value.getD (e.value.length - 2) 0

variable {e : InfoElement}

theorem InfoElement.Plausible.ne_nil (h : e.Plausible) : e.value ≠ [] := by
  intro hnil
  have hlen := h.length_eq
  rw [hnil] at hlen
  split at hlen <;> cases hlen

theorem concatMetadata_ok {iei : UInt8} {value blanked : Bytes}
    (h : concatMetadata iei value = .ok blanked) :
    (⟨iei, value⟩ : InfoElement).Plausible ∧ blanked = value.dropLast ++ [0] := by
  obtain ⟨hlen, h⟩ := guard_eq_ok h
  obtain ⟨hnumbers, h⟩ := guard_eq_ok h
  rw [not_or, not_or, UInt8.not_lt] at hnumbers
  rw [dropLast_eq_take]
  exact ⟨⟨not_not.mp hlen, hnumbers.1, hnumbers.2.1, hnumbers.2.2⟩, (ok.inj h).symm⟩

variable {fuel : ℕ} {metadata out : Bytes}

/-- The strict walk over a header: it is a list of elements, plausible ones where segments are
counted, and the metadata are those of the elements. -/
theorem headerMetadata_ok {concat : Bool} {header : Bytes}
    (h : headerMetadata fuel concat metadata header = .ok out) :
    ∃ es : List InfoElement, header = es.flatMap InfoElement.octets ∧
      (∀ e ∈ es, e.value.length < 256) ∧ (∀ e ∈ es, e.IsConcat → e.Plausible) ∧
      out = metadata ++ (es.map InfoElement.blanked).flatMap InfoElement.octets := by
  induction fuel generalizing concat metadata header with
  | zero =>
    rw [headerMetadata.eq_def] at h
    split at h
    next => exact ⟨[], rfl, by simp, by simp, by simpa using (ok.inj h).symm⟩
    next hfuel => cases hfuel
    next => cases h
  | succ fuel ih =>
    rw [headerMetadata.eq_def] at h
    split at h
    next => exact ⟨[], rfl, by simp, by simp, by simpa using (ok.inj h).symm⟩
    next fuel' concat' metadata' iei len rest hfuel =>
      obtain rfl := Nat.succ.inj hfuel
      obtain ⟨value, hvalue, h⟩ := bind_eq_ok.mp h
      rw [okOr_eq_ok, getRange] at hvalue
      split at hvalue
      next hfits =>
        rw [Nat.sub_zero, drop_zero] at hvalue
        have hlength : value.length = len.toNat := by
          rw [← some.inj hvalue, length_take_of_le hfits.2]
        have hrest : rest = value ++ rest.drop len.toNat := by
          rw [← some.inj hvalue, take_append_drop]
        have hlen : UInt8.ofNat value.length = len := by rw [hlength, UInt8.ofNat_toNat]
        have hshort : value.length < 256 := by
          rw [hlength]
          exact len.toNat_lt
        have hoctets : (⟨iei, value⟩ : InfoElement).octets = iei :: len :: value := by
          rw [InfoElement.octets, hlen]
        -- either the element counts segments, or it is taken as it is
        split at h
        next hconcat =>
          obtain ⟨-, h⟩ := guard_eq_ok h
          obtain ⟨blanked, hblanked, h⟩ := bind_eq_ok.mp h
          obtain ⟨hlikely, rfl⟩ := concatMetadata_ok hblanked
          obtain ⟨es, hes, hshorts, hlikelys, hout⟩ := ih h
          have hblank : (⟨iei, value⟩ : InfoElement).blanked = ⟨iei, value.dropLast ++ [0]⟩ :=
            if_pos hconcat
          have hblankLen := InfoElement.length_blanked fun _ => hlikely.ne_nil
          rw [hblank] at hblankLen
          refine ⟨⟨iei, value⟩ :: es, ?_, forall_mem_cons.mpr ⟨hshort, hshorts⟩,
            forall_mem_cons.mpr ⟨fun _ => hlikely, hlikelys⟩, ?_⟩
          · rw [flatMap_cons, hoctets, ← hes, cons_append, cons_append, ← hrest]
          · rw [hout, map_cons, flatMap_cons, hblank, InfoElement.octets, hblankLen, hlen]
            simp
        next hconcat =>
          obtain ⟨es, hes, hshorts, hlikelys, hout⟩ := ih h
          have hblank : (⟨iei, value⟩ : InfoElement).blanked = ⟨iei, value⟩ := if_neg hconcat
          refine ⟨⟨iei, value⟩ :: es, ?_, forall_mem_cons.mpr ⟨hshort, hshorts⟩,
            forall_mem_cons.mpr ⟨fun h => absurd h hconcat, hlikelys⟩, ?_⟩
          · rw [flatMap_cons, hoctets, ← hes, cons_append, cons_append, ← hrest]
          · rw [hout, map_cons, flatMap_cons, hblank, hoctets]
            simp
      next => cases hvalue
    next => cases h

variable {es : List InfoElement}

/-- The lenient walk over a header reads the elements in turn. -/
theorem scanElements_octets (hes : ∀ e ∈ es, e.value.length < 256) (hfuel : es.length ≤ fuel)
    (segment : SmsSegmentInfo) :
    scanElements fuel segment (es.flatMap InfoElement.octets) =
      .ok (es.foldl (fun segment e => readElement segment e.iei e.value) segment) := by
  induction es generalizing fuel segment with
  | nil =>
    cases fuel with
    | zero => rfl
    | succ fuel => rfl
  | cons e es ih =>
    obtain ⟨fuel, rfl⟩ := Nat.exists_eq_add_one_of_ne_zero (Nat.ne_of_gt (Nat.lt_of_lt_of_le
      (Nat.succ_pos es.length) hfuel))
    rw [forall_mem_cons] at hes
    have hlen : (UInt8.ofNat e.value.length).toNat = e.value.length :=
      UInt8.toNat_ofNat_of_lt' hes.1
    rw [flatMap_cons, InfoElement.octets, cons_append, cons_append, scanElements,
      hlen, if_neg (by rw [length_append]; omega), take_left, drop_left,
      ih hes.2 (Nat.le_of_succ_le_succ hfuel)]
    rfl

/-- A segment number that counts. -/
def SmsSegmentInfo.Counts (segment : SmsSegmentInfo) : Prop :=
  1 ≤ segment.sequence ∧ segment.sequence ≤ segment.total

theorem readElement_of_not_concat (h : ¬e.IsConcat) (segment : SmsSegmentInfo) :
    readElement segment e.iei e.value = segment := by
  rw [InfoElement.IsConcat, not_or] at h
  rw [readElement.eq_def]
  split
  next heq _ => exact absurd heq h.1
  next heq _ => exact absurd heq h.2
  next => rfl

theorem readElement_of_concat (h : e.IsConcat) (hlikely : e.Plausible)
    (segment : SmsSegmentInfo) : (readElement segment e.iei e.value).reference.isSome ∧
      (readElement segment e.iei e.value).Counts := by
  obtain ⟨iei, value⟩ := e
  obtain ⟨hlen, htotal, hsequence, hle⟩ := hlikely
  have hpos : ∀ n : UInt8, n ≠ 0 → 1 ≤ n := by
    intro n hn
    exact Nat.one_le_iff_ne_zero.mpr fun h => hn (UInt8.toNat_inj.mp h)
  rcases h with hiei | hiei
  · dsimp only at hiei hlen htotal hsequence hle
    subst hiei
    obtain ⟨reference, total, sequence, rfl⟩ := length_eq_three.mp hlen
    have hcond : total ≠ 0 ∧ sequence ≠ 0 ∧ sequence ≤ total := ⟨htotal, hsequence, hle⟩
    have hread : readElement segment 0 [reference, total, sequence] =
        ⟨some (UInt16.ofNat reference.toNat), sequence, total⟩ := if_pos hcond
    rw [hread]
    exact ⟨rfl, hpos sequence hsequence, hle⟩
  · dsimp only at hiei hlen htotal hsequence hle
    subst hiei
    obtain ⟨high, low, total, sequence, rfl⟩ := length_eq_four.mp hlen
    have hcond : total ≠ 0 ∧ sequence ≠ 0 ∧ sequence ≤ total := ⟨htotal, hsequence, hle⟩
    have hread : readElement segment 8 [high, low, total, sequence] =
        ⟨some (UInt16.ofNat (high.toNat * 256 + low.toNat)), sequence, total⟩ := if_pos hcond
    rw [hread]
    exact ⟨rfl, hpos sequence hsequence, hle⟩

/-- The lenient walk knows a segment exactly if the header has an element for it. -/
theorem foldl_readElement (hes : ∀ e ∈ es, e.IsConcat → e.Plausible)
    {segment : SmsSegmentInfo} (hsegment : segment.Counts) :
    let read := es.foldl (fun segment e => readElement segment e.iei e.value) segment
    (read.reference.isSome ↔ segment.reference.isSome ∨ ∃ e ∈ es, e.IsConcat) ∧ read.Counts := by
  induction es generalizing segment with
  | nil => simpa using hsegment
  | cons e es ih =>
    rw [forall_mem_cons] at hes
    rw [foldl_cons, exists_mem_cons_iff]
    by_cases hconcat : e.IsConcat
    · obtain ⟨hsome, hcounts⟩ := readElement_of_concat hconcat (hes.1 hconcat) segment
      obtain ⟨hiff, hcounts'⟩ := ih hes.2 hcounts
      refine ⟨hiff.trans ?_, hcounts'⟩
      exact iff_of_true (.inl hsome) (.inr (.inl hconcat))
    · rw [readElement_of_not_concat hconcat]
      obtain ⟨hiff, hcounts⟩ := ih hes.2 hsegment
      refine ⟨hiff.trans (or_congr_right ?_), hcounts⟩
      exact (or_iff_right hconcat).symm

/-! ## The layout of an accepted PDU -/

variable {chrono : Chrono}

variable {fixed : Bytes}

/-- Ten octets by their places: two, a timestamp and one. -/
theorem fixed_eq (h : fixed.length = 10) :
    fixed = fixed.getD 0 0 :: fixed.getD 1 0 :: ((fixed.drop 2).take 7 ++ [fixed.getD 9 0]) := by
  obtain ⟨pid, tail, rfl⟩ := exists_of_length_succ fixed h
  obtain ⟨dcs, tail, rfl⟩ := exists_of_length_succ tail (Nat.succ.inj h)
  have hlen : tail.length = 8 := Nat.succ.inj (Nat.succ.inj h)
  have hlast : tail.drop 7 = [tail.getD 7 0] := by
    rw [getD_eq_getElem tail 0 (by omega), drop_eq_getElem_cons (by omega),
      drop_eq_nil_of_le (by omega)]
  have hsplit : tail = tail.take 7 ++ [tail.getD 7 0] := by
    rw [← hlast, take_append_drop]
  exact congrArg (fun rest => pid :: dcs :: rest) hsplit

variable {dcs : UInt8} {udl : ℕ} {data : Bytes}

/-- The user data header of an accepted PDU. -/
theorem userDataMetadata_ok (h : userDataMetadata dcs udl metadata data = .ok out) :
    ∃ (es : List InfoElement) (userData : Bytes),
      data = UInt8.ofNat (es.flatMap InfoElement.octets).length ::
        (es.flatMap InfoElement.octets ++ userData) ∧
      (es.flatMap InfoElement.octets).length < 256 ∧ (∀ e ∈ es, e.value.length < 256) ∧
      (∀ e ∈ es, e.IsConcat → e.Plausible) ∧
      out = metadata ++ (es.map InfoElement.blanked).flatMap InfoElement.octets := by
  obtain ⟨headerLen, hhead, h⟩ := bind_eq_ok.mp h
  obtain ⟨header, hheader, h⟩ := bind_eq_ok.mp h
  obtain ⟨-, h⟩ := guard_eq_ok h
  obtain ⟨es, hes, hshort, hlikely, hout⟩ := headerMetadata_ok h
  rw [okOr_eq_ok] at hhead hheader
  cases data with
  | nil => cases hhead
  | cons b rest =>
    obtain rfl := some.inj hhead
    rw [getRange] at hheader
    split at hheader
    next hfits =>
      have htake : header = rest.take b.toNat := by
        rw [← some.inj hheader, Nat.add_sub_cancel_left]
        rfl
      have hlen : header.length = b.toNat := by
        rw [htake]
        refine length_take_of_le ?_
        have := hfits.2
        rw [length_cons] at this
        omega
      refine ⟨es, rest.drop b.toNat, ?_, ?_, hshort, hlikely, hout⟩
      · rw [← hes, hlen, UInt8.ofNat_toNat, htake, take_append_drop]
      · rw [← hes, hlen]
        exact b.toNat_lt
    next => cases hheader

/-- The same of any accepted PDU, with or without a header. -/
theorem elements_of_metadata {first : UInt8}
    (h : (if first &&& 0x40 ≠ 0 then userDataMetadata dcs udl fixed data else .ok fixed) =
      .ok out) :
    ∃ (es : List InfoElement) (userData : Bytes),
      data = (if first &&& 0x40 ≠ 0 then UInt8.ofNat (es.flatMap InfoElement.octets).length ::
        (es.flatMap InfoElement.octets ++ userData) else userData) ∧
      (es.flatMap InfoElement.octets).length < 256 ∧ (∀ e ∈ es, e.value.length < 256) ∧
      (first &&& 0x40 = 0 → es = []) ∧ (∀ e ∈ es, e.IsConcat → e.Plausible) ∧
      out = fixed ++ (es.map InfoElement.blanked).flatMap InfoElement.octets := by
  split at h
  next hheader =>
    obtain ⟨es, userData, hdata, hlen, hshort, hlikely, hout⟩ := userDataMetadata_ok h
    exact ⟨es, userData, by rw [if_pos hheader, hdata], hlen, hshort, fun h => absurd h hheader,
      hlikely, hout⟩
  next hheader =>
    refine ⟨[], data, by rw [if_neg hheader], by decide, by simp, fun _ => rfl, by simp, ?_⟩
    simpa using (ok.inj h).symm

/-- **What the strict reader accepts.** A PDU that it accepts has a layout, with plausible elements
where segments are counted and a timestamp that can be read; its message is what the lenient reader
makes of the same TPDU, and its key is written from the metadata of the layout. -/
theorem parseModemDeliver_layout {pdu : Bytes} {deliver : ModemDeliver}
    (h : parseModemDeliver chrono pdu = .ok deliver) :
    ∃ t : DeliverTpdu, modemTpdu pdu = .ok t.octets ∧ (∀ e ∈ t.elements, e.IsConcat → e.Plausible) ∧
      parseSmsDeliverTpdu chrono 0 t.octets = .ok deliver.message ∧
      deliver.assemblyKey = hexLower t.metadata := by
  obtain ⟨tpdu, htpdu, h⟩ := bind_eq_ok.1 h
  split at h
  next first digits tonNpi rest =>
    obtain ⟨-, h⟩ := guard_eq_ok h
    obtain ⟨fixed, hfixed, h⟩ := bind_eq_ok.1 h
    obtain ⟨text, htext, h⟩ := bind_eq_ok.1 h
    obtain ⟨expected, -, h⟩ := bind_eq_ok.1 h
    obtain ⟨-, h⟩ := guard_eq_ok h
    obtain ⟨metadata, hmetadata, h⟩ := bind_eq_ok.1 h
    obtain ⟨message, hmessage, h⟩ := bind_eq_ok.1 h
    obtain rfl := ok.inj h
    generalize hoctets : addressValueOctets digits.toNat = octets at *
    rw [okOr_eq_ok, getRange] at hfixed
    split at hfixed
    next hrange =>
      have hfits : octets + 10 ≤ rest.length := by
        have := hrange.2
        simp only [length_cons] at this
        omega
      have hdropThree : ∀ n, (first :: digits :: tonNpi :: rest).drop (3 + n) = rest.drop n :=
        fun n => by rw [← drop_drop]; rfl
      rw [Nat.add_sub_cancel_left, hdropThree] at hfixed
      have hten : fixed = (rest.drop octets).take 10 := (some.inj hfixed).symm
      have hlen : fixed.length = 10 := by
        rw [hten, length_take_of_le]
        rw [length_drop]
        omega
      rw [Nat.add_assoc, hdropThree] at hmetadata
      obtain ⟨es, userData, hdata, hshort, hshorts, hnil, hlikely, hout⟩ :=
        elements_of_metadata hmetadata
      have hsplit : rest = rest.take octets ++ (fixed ++ rest.drop (octets + 10)) := by
        rw [hten, ← drop_drop, take_append_drop, take_append_drop]
      have hscts : ((fixed.drop 2).take 7).length = 7 := by
        rw [length_take_of_le]
        rw [length_drop]
        omega
      let t : DeliverTpdu := {
        first, digits
        addressType := tonNpi
        address := rest.take octets
        pid := fixed.getD 0 0
        dcs := fixed.getD 1 0
        scts := (fixed.drop 2).take 7
        udl := fixed.getD 9 0
        elements := es
        userData
        address_length := by rw [length_take_of_le (by omega), hoctets]
        scts_length := hscts
        value_short := hshorts
        header_short := hshort
        elements_nil := hnil }
      have ht : t.octets = first :: digits :: tonNpi :: rest := by
        have hdata' : t.data = rest.drop (octets + 10) := hdata.symm
        rw [DeliverTpdu.octets, hdata']
        conv_rhs => rw [hsplit, fixed_eq hlen]
        simp [t]
      refine ⟨t, ?_, hlikely, ?_, ?_⟩
      · rw [ht]
        exact htpdu
      · rw [ht]
        exact hmessage
      · exact congrArg hexLower hout
    next => cases hfixed
  next => cases h

/-! ## One layout for a TPDU -/

variable {t' t : DeliverTpdu}

theorem DeliverTpdu.octets_inj (h : t.octets = t'.octets) :
    t.addressType = t'.addressType ∧ t.pid = t'.pid ∧ t.dcs = t'.dcs ∧
    t.elements = t'.elements := by
  rw [octets, octets, cons.injEq, cons.injEq, cons.injEq] at h
  obtain ⟨hfirst, hdigits, htype, hrest⟩ := h
  have haddress : t.address.length = t'.address.length := by
    rw [t.address_length, t'.address_length, hdigits]
  obtain ⟨-, hrest⟩ := append_inj hrest haddress
  rw [cons.injEq, cons.injEq] at hrest
  obtain ⟨hpid, hdcs, hrest⟩ := hrest
  obtain ⟨-, hrest⟩ := append_inj hrest (t.scts_length.trans t'.scts_length.symm)
  have hdata := (cons.inj hrest).2
  refine ⟨htype, hpid, hdcs, ?_⟩
  rw [data, data, ← hfirst] at hdata
  by_cases hheader : t.first &&& 0x40 = 0
  · rw [t.elements_nil hheader, t'.elements_nil (hfirst ▸ hheader)]
  · rw [if_pos hheader, if_pos hheader] at hdata
    obtain ⟨hlen, hdata⟩ := cons.inj hdata
    have hlength : t.header.length = t'.header.length := by
      have hnat := congrArg UInt8.toNat hlen
      rwa [UInt8.toNat_ofNat_of_lt' t.header_lt, UInt8.toNat_ofNat_of_lt' t'.header_lt] at hnat
    exact InfoElement.flatMap_octets_inj t.value_short t'.value_short
      (append_inj hdata hlength).1

/-! ## What the lenient reader finds in a layout -/

variable {message : MtSmsDeliver}

/-- The message carries the segment that the elements name. -/
theorem parseSmsDeliverTpdu_segment (h : parseSmsDeliverTpdu chrono 0 t.octets = .ok message) :
    (⟨message.segmentReference, message.segmentSequence, message.segmentTotal⟩ : SmsSegmentInfo) =
      t.elements.foldl (fun segment e => readElement segment e.iei e.value) .single := by
  obtain ⟨-, h⟩ := guard_eq_ok h
  obtain ⟨udl, -, h⟩ := bind_eq_ok.1 h
  obtain ⟨header, hheader, h⟩ := bind_eq_ok.1 h
  obtain ⟨text, -, h⟩ := bind_eq_ok.1 h
  obtain rfl := ok.inj h
  have hdata : ((t.address ++ (t.pid :: t.dcs :: (t.scts ++ (t.udl :: t.data)))).drop
      (addressValueOctets t.digits.toNat)).drop 10 = t.data := by
    have hten : (t.pid :: t.dcs :: (t.scts ++ [t.udl])).length = 10 := by
      simp [t.scts_length]
    have hsplit : t.pid :: t.dcs :: (t.scts ++ (t.udl :: t.data)) =
        (t.pid :: t.dcs :: (t.scts ++ [t.udl])) ++ t.data := by simp
    rw [← t.address_length, drop_left, hsplit, ← hten, drop_left]
  rw [hdata] at hheader
  split at hheader
  next hbit =>
    rw [DeliverTpdu.data, if_pos hbit, parseUserDataHeader] at hheader
    have hlen : (UInt8.ofNat t.header.length).toNat = t.header.length :=
      UInt8.toNat_ofNat_of_lt' t.header_lt
    dsimp only at hheader
    split at hheader
    next => cases hheader
    next =>
      rw [hlen, take_left] at hheader
      have hcount : t.elements.length ≤ t.header.length :=
        InfoElement.length_le_flatMap_octets t.elements
      rw [DeliverTpdu.header] at hheader hcount
      rw [scanElements_octets t.value_short hcount] at hheader
      obtain rfl := ok.inj hheader
      rfl
  next hbit =>
    obtain rfl := ok.inj hheader
    rw [t.elements_nil (not_not.mp hbit)]
    rfl

/-- The reference only labels the message. -/
theorem parseSmsDeliverTpdu_reference (reference : UInt8) {tpdu : Bytes}
    (h : parseSmsDeliverTpdu chrono 0 tpdu = .ok message) :
    parseSmsDeliverTpdu chrono reference tpdu =
      .ok { message with rpMessageReference := reference } := by
  rw [parseSmsDeliverTpdu.eq_def] at h ⊢
  split at h
  next first digits tonNpi rest =>
    obtain ⟨hlong, h⟩ := guard_eq_ok h
    obtain ⟨udl, hudl, h⟩ := bind_eq_ok.1 h
    obtain ⟨header, hheader, h⟩ := bind_eq_ok.1 h
    obtain ⟨text, htext, h⟩ := bind_eq_ok.1 h
    obtain rfl := ok.inj h
    dsimp only at hudl hheader htext ⊢
    rw [if_neg hlong, hudl, ok_bind, hheader, ok_bind, htext, ok_bind]
    rfl
  next => cases h

/-! ## The key -/

theorem digitChar_inj : ∀ a < 16, ∀ b < 16, Nat.digitChar a = Nat.digitChar b → a = b := by decide

theorem hexLower_inj {data' : Bytes} (h : hexLower data = hexLower data') : data = data' := by
  induction data generalizing data' with
  | nil =>
    cases data' with
    | nil => rfl
    | cons b' data' => cases h
  | cons b data ih =>
    cases data' with
    | nil => cases h
    | cons b' data' =>
      obtain ⟨hhead, hrest⟩ := append_inj h rfl
      rw [cons.injEq, cons.injEq] at hhead
      have hlt := b.toNat_lt
      have hlt' := b'.toNat_lt
      have hhigh := digitChar_inj _ (by omega) _ (by omega) hhead.1
      have hlow := digitChar_inj _ (by omega) _ (by omega) hhead.2.1
      have hbyte : b = b' := UInt8.toNat_inj.mp (by omega)
      rw [hbyte, ih hrest]

theorem map_blanked_eq_iff {es es' : List InfoElement} (hes : ∀ e ∈ es, e.IsConcat → e.Plausible)
    (hes' : ∀ e ∈ es', e.IsConcat → e.Plausible) :
    es.map InfoElement.blanked = es'.map InfoElement.blanked ↔
      Forall₂ InfoElement.SameButSequence es es' := by
  induction es generalizing es' with
  | nil =>
    rw [List.forall₂_nil_left_iff, map_nil, eq_comm, map_eq_nil_iff]
  | cons e es ih =>
    cases es' with
    | nil => simp
    | cons e' es' =>
      rw [forall_mem_cons] at hes hes'
      rw [map_cons, map_cons, cons.injEq, List.forall₂_cons, ih hes.2 hes'.2,
        InfoElement.blanked_inj_iff (fun h => (hes.1 h).ne_nil) fun h => (hes'.1 h).ne_nil]

theorem blanked_short (hes : ∀ e ∈ es, e.IsConcat → e.Plausible)
    (hshort : ∀ e ∈ es, e.value.length < 256) :
    ∀ e ∈ es.map InfoElement.blanked, e.value.length < 256 := by
  intro e he
  obtain ⟨e, hmem, rfl⟩ := mem_map.mp he
  rw [InfoElement.length_blanked fun h => (hes e hmem h).ne_nil]
  exact hshort e hmem

/-- The metadata of two layouts are equal exactly if the layouts agree on what they are about. -/
theorem metadata_eq_iff (ht : ∀ e ∈ t.elements, e.IsConcat → e.Plausible)
    (ht' : ∀ e ∈ t'.elements, e.IsConcat → e.Plausible) :
    t.metadata = t'.metadata ↔ t.addressType = t'.addressType ∧ t.pid = t'.pid ∧ t.dcs = t'.dcs ∧
      Forall₂ InfoElement.SameButSequence t.elements t'.elements := by
  rw [← map_blanked_eq_iff ht ht']
  constructor
  · intro h
    obtain ⟨hfixed, helements⟩ := append_inj h rfl
    rw [cons.injEq, cons.injEq, cons.injEq] at hfixed
    exact ⟨hfixed.1, hfixed.2.1, hfixed.2.2.1, InfoElement.flatMap_octets_inj
      (blanked_short ht t.value_short) (blanked_short ht' t'.value_short) helements⟩
  · rintro ⟨htype, hpid, hdcs, helements⟩
    rw [DeliverTpdu.metadata, DeliverTpdu.metadata, htype, hpid, hdcs, helements]

/-! ## Timestamps -/

/-- Two decimal digits. -/
def twoDigits (n : ℕ) : Str := [Nat.digitChar (n / 10), Nat.digitChar (n % 10)]

/-- An RFC 3339 date and time in UTC, with whole seconds. -/
def IsRfc3339Utc (text : Str) : Prop :=
  ∃ year month day hour minute second : ℕ, year ≤ 9999 ∧ (1 ≤ month ∧ month ≤ 12) ∧
    (1 ≤ day ∧ day ≤ 31) ∧ hour ≤ 23 ∧ minute ≤ 59 ∧ second ≤ 60 ∧
    text = twoDigits (year / 100) ++ twoDigits (year % 100) ++ ['-'] ++ twoDigits month ++ ['-'] ++
      twoDigits day ++ ['T'] ++ twoDigits hour ++ [':'] ++ twoDigits minute ++ [':'] ++
      twoDigits second ++ ['Z']

/-- What the code relies on: an instant of a year with four digits is written as RFC 3339 has it. -/
def Chrono.WritesRfc3339 (chrono : Chrono) : Prop :=
  ∀ offset year month day hour minute second timestamp, 1000 ≤ year → year < 9999 →
    chrono.withYmdAndHms offset year month day hour minute second = some timestamp →
    IsRfc3339Utc (chrono.toRfc3339 timestamp)

theorem Chrono.WritesRfc3339.of_prints (h : chrono.WritesRfc3339) {text : Str}
    (htext : chrono.Prints text) : IsRfc3339Utc text := by
  obtain ⟨offset, year, month, day, hour, minute, second, timestamp, hlow, hhigh, hinstant, rfl⟩ :=
    htext
  exact h offset year month day hour minute second timestamp (by omega) (by omega) hinstant

/-! ## The two readers -/

/-- The TPDU of a PDU has the layout. -/
def LayoutOf (pdu : Bytes) (t : DeliverTpdu) : Prop := modemTpdu pdu = .ok t.octets

instance (pdu : Bytes) (t : DeliverTpdu) : Decidable (LayoutOf pdu t) :=
  inferInstanceAs (Decidable (_ = _))

/-- **The strict reader and the lenient one.** A PDU that the strict reader accepts has a layout,
and in any layout of it: the lenient reader makes the same message of the TPDU, a segment is known
exactly if an element counts it, its number is one of the total, and the timestamp is in RFC 3339.
Two such PDUs have one key exactly if they agree on the address type, the protocol identifier, the
coding and the elements, but for the numbers of the segments. -/
theorem deliver_readers_agree (hchrono : chrono.WritesRfc3339) :
    (∀ pdu deliver, parseModemDeliver chrono pdu = .ok deliver →
      (∃ t, LayoutOf pdu t) ∧ ∀ t, LayoutOf pdu t →
        (∀ reference, parseSmsDeliverTpdu chrono reference t.octets =
          .ok { deliver.message with rpMessageReference := reference }) ∧
        ((∃ e ∈ t.elements, e.IsConcat) ↔ deliver.message.segmentReference.isSome) ∧
        1 ≤ deliver.message.segmentSequence ∧
        deliver.message.segmentSequence ≤ deliver.message.segmentTotal ∧
        IsRfc3339Utc deliver.message.serviceCenterTimestamp) ∧
    ∀ pdu pdu' deliver deliver', parseModemDeliver chrono pdu = .ok deliver →
      parseModemDeliver chrono pdu' = .ok deliver' → ∀ t t', LayoutOf pdu t → LayoutOf pdu' t' →
        (deliver.assemblyKey = deliver'.assemblyKey ↔
          t.addressType = t'.addressType ∧ t.pid = t'.pid ∧ t.dcs = t'.dcs ∧
            Forall₂ InfoElement.SameButSequence t.elements t'.elements) := by
  constructor
  · intro pdu deliver h
    obtain ⟨t₀, hlayout, hlikely, hmessage, -⟩ := parseModemDeliver_layout h
    refine ⟨⟨t₀, hlayout⟩, fun t ht => ?_⟩
    have hoctets : t.octets = t₀.octets := ok.inj (ht.symm.trans hlayout)
    obtain ⟨-, -, -, helements⟩ := DeliverTpdu.octets_inj hoctets
    have hsegment := parseSmsDeliverTpdu_segment hmessage
    have hsingle : SmsSegmentInfo.single.Counts := ⟨by decide, by decide⟩
    have hread := foldl_readElement hlikely hsingle
    rw [← hsegment] at hread
    obtain ⟨hsome, hcounts⟩ := hread
    rw [hoctets, helements]
    refine ⟨fun reference => parseSmsDeliverTpdu_reference reference hmessage, ?_, hcounts.1,
      hcounts.2, hchrono.of_prints (parseModemDeliver_prints h)⟩
    exact (hsome.trans (or_iff_right (by decide))).symm
  · intro pdu pdu' deliver deliver' h h' t t' ht ht'
    obtain ⟨t₀, hlayout, hlikely, -, hkey⟩ := parseModemDeliver_layout h
    obtain ⟨t₀', hlayout', hlikely', -, hkey'⟩ := parseModemDeliver_layout h'
    obtain ⟨htype, hpid, hdcs, helements⟩ :=
      DeliverTpdu.octets_inj (ok.inj (ht.symm.trans hlayout))
    obtain ⟨htype', hpid', hdcs', helements'⟩ :=
      DeliverTpdu.octets_inj (ok.inj (ht'.symm.trans hlayout'))
    rw [hkey, hkey', htype, hpid, hdcs, helements, htype', hpid', hdcs', helements',
      ← metadata_eq_iff hlikely hlikely']
    exact ⟨hexLower_inj, congrArg hexLower⟩

theorem firstOfJune_writes : firstOfJune.WritesRfc3339 :=
  fun _ _ _ _ _ _ _ _ _ _ _ => ⟨2026, 6, 1, 12, 0, 0, by decide, by decide, by decide, by decide,
    by decide, by decide, rfl⟩

/-- A segment of two from 1234, of the noon of the first of June, in a PDU without a centre. -/
def juneSegment (sequence : UInt8) : Bytes :=
  [0, 0x40, 4, 0x81, 0x21, 0x43, 0, 8, 0x62, 0x60, 0x10, 0x21, 0, 0, 0, 8, 5, 0, 3, 9, 2, sequence,
    0, 0x41]

def juneLayout (sequence : UInt8) : DeliverTpdu where
  first := 0x40
  digits := 4
  addressType := 0x81
  address := [0x21, 0x43]
  pid := 0
  dcs := 8
  scts := [0x62, 0x60, 0x10, 0x21, 0, 0, 0]
  udl := 8
  elements := [⟨0, [9, 2, sequence]⟩]
  userData := [0, 0x41]
  address_length := rfl
  scts_length := rfl
  value_short := by simp
  header_short := by simp [InfoElement.octets]
  elements_nil := fun h => absurd h (by decide)

def juneDeliver (sequence : UInt8) : ModemDeliver where
  message := {
    rpMessageReference := 0
    originator := "1234".toList
    text := ['A']
    userDataBytes := 8
    serviceCenterTimestamp := "2026-06-01T12:00:00Z".toList
    segmentReference := some 9
    segmentSequence := sequence
    segmentTotal := 2 }
  assemblyKey := hexLower [0x81, 0, 8, 0, 3, 9, 2, 0]

/-- The two segments are known as such, and they have one key. -/
theorem deliver_readers_agree_june : ((∃ e ∈ (juneLayout 1).elements, e.IsConcat) ↔
      (juneDeliver 1).message.segmentReference.isSome) ∧
    ((juneDeliver 1).assemblyKey = (juneDeliver 2).assemblyKey ↔
      (juneLayout 1).addressType = (juneLayout 2).addressType ∧
        (juneLayout 1).pid = (juneLayout 2).pid ∧ (juneLayout 1).dcs = (juneLayout 2).dcs ∧
          Forall₂ InfoElement.SameButSequence (juneLayout 1).elements
          (juneLayout 2).elements) :=
  ⟨(((deliver_readers_agree firstOfJune_writes).1 (juneSegment 1) (juneDeliver 1)
    (by decide +kernel)).2 (juneLayout 1) (by decide +kernel)).2.1,
  (deliver_readers_agree firstOfJune_writes).2 (juneSegment 1) (juneSegment 2) (juneDeliver 1)
    (juneDeliver 2) (by decide +kernel) (by decide +kernel) (juneLayout 1) (juneLayout 2)
    (by decide +kernel) (by decide +kernel)⟩

end SimMaster
