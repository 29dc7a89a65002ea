import SimMaster.IpReassembly
import SimMaster.Pieces

/-!
# Gathering fragments

The three reassemblers are one procedure with different answers to a few questions (`Policy`): how
the pieces are walked over, whether fragment zero replaces a piece at offset zero, what becomes of a
set that ends elsewhere than expected or is too long, and how the header is restored. This file says
what the procedure does to the buffer of one packet (`Gathered.receive`), and what a packet that it
forwards is made of (`Assembly`), whatever fragments were received before.
-/

namespace SimMaster.TunGateway

open Rust Reassembly List

/-- A fragment as a reassembler takes it: what it keeps of the header, and the piece. -/
structure Received (η : Type) where
  header : η
  part : Fragment UInt8

/-- What a buffer holds. -/
structure Gathered (η : Type) where
  header : Option η
  pieces : List (ℕ × Bytes)
  expectedLen : Option ℕ

structure Policy (η : Type) where
  walk : ℕ → List (ℕ × Bytes) → Option ℕ
  /-- whether fragment zero replaces a piece at offset zero -/
  replaces : Bool
  /-- the outcome of a set that ends elsewhere than expected -/
  unevenOutcome : FragmentReassemblyOutcome
  keepsUneven : Bool
  keepsRefused : Bool
  /-- the header of the packet; `some none` refuses it, `none` is a panic -/
  restore : η → ℕ → Option (Option Bytes)

namespace Gathered

variable {η : Type}

def empty : Gathered η := ⟨none, [], none⟩

/-- Puts a piece into the buffer. -/
def add (policy : Policy η) (g : Gathered η) (f : Received η) : Gathered η where
  header := if f.part.offset = 0 then some f.header else g.header
  pieces := (if policy.replaces && f.part.offset = 0 then g.pieces.filter (fun piece => piece.1 ≠ 0)
    else g.pieces) ++ [f.part.piece]
  expectedLen := if f.part.last then some f.part.stop else g.expectedLen

/-- The packet, if its pieces are all here. -/
def assemble (policy : Policy η) (g : Gathered η) :
    Option (FragmentReassemblyOutcome × Option (Gathered η)) :=
  match g.expectedLen, g.header with
  | some expected, some header =>
    let pieces := sortByOffset g.pieces
    match policy.walk 0 pieces with
    | none => some (.buffered, some g)
    | some cursor =>
      if cursor ≠ expected then
        some (policy.unevenOutcome, if policy.keepsUneven then some g else none)
      else do
        match ← policy.restore header expected with
        | none => some (.dropped, if policy.keepsRefused then some g else none)
        | some header => some (.forward (header ++ pieces.flatMap Prod.snd), none)
  | _, _ => some (.buffered, some g)

/-- What a fragment does to the buffer of its packet. -/
def receive (policy : Policy η) (g : Gathered η) (f : Received η) :
    Option (FragmentReassemblyOutcome × Option (Gathered η)) :=
  if overlaps f.part.offset f.part.stop g.pieces then some (.dropped, none)
  else (g.add policy f).assemble policy

end Gathered

/-! ## What is asked of a policy -/

namespace Policy

variable {η : Type} (policy : Policy η)

/-- No packet of this length is ever forwarded. -/
def Never (total : ℕ) :
    Prop := ∀ header restored, policy.restore header total ≠ some (some restored)

/-- A whole packet in one fragment that is refused is refused for its length. -/
def Fair (f : Received η) : Prop :=
  f.part.last = true → f.part.offset = 0 → policy.restore f.header f.part.stop = some none →
    policy.Never f.part.stop

/-- The walk finds pieces that lie apart in a row, and it stops at a gap between the parts of one
message; a policy that replaces pieces walks over pieces that reach into each other. -/
structure Sound : Prop where
  follows : ∀ pieces n, (pieces.Pairwise fun p q => p.1 ≤ q.1) → pieces.Pairwise Apart →
    policy.walk 0 pieces = some n → Follows 0 pieces n
  covers : policy.replaces = true → policy.walk = coveredEnd
  walks : ∀ parts got : List (Fragment UInt8), Tiles 0 parts → got.Subperm parts →
    policy.walk 0 (sortByOffset (got.map Fragment.piece)) =
      contiguousEnd 0 (sortByOffset (got.map Fragment.piece))
  unforwarded : ∀ packet, policy.unevenOutcome ≠ .forward packet

end Policy

namespace Gathered

variable {η : Type} {policy : Policy η} {g : Gathered η}

/-- A buffer that is kept has no end yet, no header yet, a walk that ends elsewhere, or a header
that is refused. -/
theorem assemble_kept {outcome : FragmentReassemblyOutcome} {g' : Gathered η}
    (h : g.assemble policy = some (outcome, some g')) :
    g' = g ∧ ∀ n header, g.expectedLen = some n → g.header = some header →
      policy.walk 0 (sortByOffset g.pieces) ≠ some n ∨ policy.restore header n = some none := by
  have hsame : ∀ {o : FragmentReassemblyOutcome} {keeps : Bool},
      some (o, if keeps then some g else none) = some (outcome, some g') → g' = g := by
    intro o keeps heq
    cases keeps <;> cases heq
    rfl
  rw [assemble.eq_def] at h
  split at h
  case h_2 hnone =>
    cases h
    exact ⟨rfl, fun n header hn hheader => absurd hheader (hnone n header hn)⟩
  case h_1 expected header hexpected hheader =>
    -- the end and the header are those found
    have hgiven : ∀ {P : ℕ → η → Prop}, P expected header →
        ∀ n header', g.expectedLen = some n → g.header = some header' → P n header' := by
      intro P hP n header' hn hheader'
      rwa [← Option.some.inj (hexpected.symm.trans hn),
        ← Option.some.inj (hheader.symm.trans hheader')]
    dsimp only at h
    split at h
    case h_1 hwalk =>
      cases h
      exact ⟨rfl, hgiven (Or.inl (by rw [hwalk]; nofun))⟩
    case h_2 cursor hwalk =>
      split at h
      case isTrue huneven =>
        exact ⟨hsame h, hgiven (Or.inl fun heq => huneven (Option.some.inj (hwalk.symm.trans heq)))⟩
      case isFalse =>
        obtain ⟨restored, hrestored, h⟩ := Option.bind_eq_some_iff.mp h
        cases restored with
        | none => exact ⟨hsame h, hgiven (Or.inr hrestored)⟩
        | some restored => cases h

variable {left : Option (Gathered η)}

/-- A packet that is forwarded is the restored header and the pieces the walk went over. -/
theorem assemble_forward (hpolicy : policy.Sound) {packet : Bytes}
    (h : g.assemble policy = some (.forward packet, left)) :
    left = none ∧ ∃ total opening header, g.expectedLen = some total ∧ g.header = some opening ∧
      policy.walk 0 (sortByOffset g.pieces) = some total ∧
      policy.restore opening total = some (some header) ∧
      packet = header ++ (sortByOffset g.pieces).flatMap Prod.snd := by
  rw [assemble.eq_def] at h
  split at h
  case h_2 => cases h
  case h_1 expected opening hexpected hopening =>
  dsimp only at h
  split at h
  case h_1 => cases h
  case h_2 cursor hwalk =>
  split at h
  case isTrue => exact absurd (Prod.mk.inj (Option.some.inj h)).1 (hpolicy.unforwarded packet)
  case isFalse heven =>
  obtain rfl := not_not.mp heven
  obtain ⟨restored, hrestored, h⟩ := Option.bind_eq_some_iff.mp h
  cases restored with
  | none => cases h
  | some header =>
    cases h
    exact ⟨rfl, _, opening, header, hexpected, hopening, hwalk, hrestored, rfl⟩

/-- A policy that keeps no set it drops leaves none. -/
theorem left_of_dropped (huneven : policy.keepsUneven = false)
    (hrefused : policy.keepsRefused = false) {f : Received η}
    (h : g.receive policy f = some (.dropped, left)) : left = none := by
  rw [receive] at h
  split at h
  case isTrue =>
    cases h
    rfl
  case isFalse =>
  rw [assemble.eq_def] at h
  split at h
  case h_2 => cases h
  case h_1 =>
  dsimp only at h
  split at h
  case h_1 => cases h
  case h_2 =>
  split at h
  case isTrue =>
    rw [huneven, if_neg Bool.false_ne_true] at h
    exact (Prod.mk.inj (Option.some.inj h)).2.symm
  case isFalse =>
  obtain ⟨restored, -, h⟩ := Option.bind_eq_some_iff.mp h
  cases restored with
  | none =>
    rw [hrefused, if_neg Bool.false_ne_true] at h
    cases h
    rfl
  | some restored => cases h

end Gathered

/-! ## What a buffer is made of -/

/-- `packet` is put together from fragments among `received`: the octets of `pieces`, in the order
of their offsets and without gap or overlap, behind the header that one of them, at offset zero,
brought. One of them had the more-fragments flag clear and ended where the packet does; what follows
it, if anything, has no octets. -/
structure Assembly {η : Type} (policy : Policy η) (received : List (Received η)) (packet : Bytes)
    (pieces : List (Received η)) (start stop : Received η) (header : Bytes) (total : ℕ) : Prop where
  received : pieces.Subperm received
  follows : Follows 0 (pieces.map fun f => f.part.piece) total
  head : pieces.head?.map (fun f => f.part.offset) = some 0
  startMem : start ∈ pieces
  startOffset : start.part.offset = 0
  restored : policy.restore start.header total = some (some header)
  packet : packet = header ++ pieces.flatMap fun f => f.part.data
  stopMem : stop ∈ pieces
  stopLast : stop.part.last = true
  stopEnd : stop.part.stop = total

/-- The buffer holds the fragments `kept` of those received. A buffer that was looked over and not
forwarded is `settled`. -/
structure Gathered.Holds {η : Type} (policy : Policy η) (settled : Prop)
    (received : List (Received η))
    (kept : List (Received η)) (g : Gathered η) : Prop where
  sublist : kept.Sublist received
  pieces : g.pieces = kept.map fun f => f.part.piece
  apart : g.pieces.Pairwise Apart
  header : ∀ h ∈ g.header, ∃ f ∈ kept, f.part.offset = 0 ∧ f.header = h
  opened : (∃ f ∈ kept, f.part.offset = 0) → g.header.isSome
  single : policy.replaces = true → ∀ f ∈ kept, ∀ f' ∈ kept, f.part.offset = 0 →
    f'.part.offset = 0 → f = f'
  /-- the expected length is the end of a fragment that is held; or no packet of it comes any more,
  because a piece reaches further or the length is refused -/
  ending : ∀ n ∈ g.expectedLen,
    (∃ f ∈ kept, f.part.last = true ∧ f.part.stop = n ∧
      (settled → policy.replaces = true → f.part.offset ≠ 0)) ∨
    (∃ f ∈ kept, f.part.offset ≠ 0 ∧ n < f.part.stop) ∨ policy.Never n

namespace Gathered.Holds

variable {η : Type} {policy : Policy η} {received kept : List (Received η)} {g : Gathered η}

theorem of_empty (policy : Policy η) (settled : Prop) : Holds policy settled [] [] empty :=
  ⟨.refl _, rfl, .nil, nofun, by simp, nofun, nofun⟩

variable {settled : Prop}

theorem mono {received' : List (Received η)}
    (h : Holds policy settled received kept g) (hsub : received.Sublist received') :
    Holds policy settled received' kept g :=
  { h with sublist := h.sublist.trans hsub }

/-- The fragments a buffer holds after one more. -/
def keep (policy : Policy η) (kept : List (Received η)) (f : Received η) : List (Received η) :=
  (if policy.replaces && f.part.offset = 0 then kept.filter (fun f =>
    f.part.offset ≠ 0) else kept) ++
    [f]

variable {f' f : Received η}

theorem mem_keep (h : f' ∈ keep policy kept f) : f' ∈ kept ∨ f' = f := by
  rcases mem_append.mp h with hold | hnew
  · split at hold
    · exact Or.inl (mem_of_mem_filter hold)
    · exact Or.inl hold
  · exact Or.inr (mem_singleton.mp hnew)

/-- Fragments with an offset stay. -/
theorem mem_keep_of_mem (h : f' ∈ kept)
    (hoffset : policy.replaces = true → f'.part.offset ≠ 0) : f' ∈ keep policy kept f := by
  refine mem_append_left _ ?_
  split
  case isTrue hzero =>
    exact mem_filter.mpr ⟨h, by simpa using hoffset (Bool.and_eq_true_iff.mp hzero).1⟩
  case isFalse => exact h

theorem mem_keep_self (f : Received η) : f ∈ keep policy kept f :=
  mem_append_right _ (mem_singleton_self f)

/-- One more fragment, which shares no place with those held. -/
theorem add (h : Holds policy True received kept g)
    (hapart : overlaps f.part.offset f.part.stop g.pieces = false) :
    Holds policy False (received ++ [f]) (keep policy kept f) (g.add policy f) := by
  have hsub : (keep policy kept f).Sublist (received ++ [f]) := by
    refine Sublist.append ?_ (Sublist.refl _)
    split
    · exact filter_sublist.trans h.sublist
    · exact h.sublist
  have hpieces : (g.add policy f).pieces = (keep policy kept f).map fun f => f.part.piece := by
    rw [Gathered.add, keep, map_append]
    dsimp only
    split
    · rw [h.pieces, filter_map]
      rfl
    · rw [h.pieces]
      rfl
  refine ⟨hsub, hpieces, ?_, ?_, ?_, ?_, ?_⟩
  · have hall : (g.pieces ++ [f.part.piece]).Pairwise Apart := pairwise_concat h.apart hapart
    rw [Gathered.add]
    dsimp only
    split
    · exact hall.sublist (filter_sublist.append_right _)
    · exact hall
  · intro h' hmem
    rw [Gathered.add] at hmem
    split at hmem
    case isTrue hzero => exact ⟨f, mem_keep_self f, hzero, Option.some.inj hmem⟩
    case isFalse hzero =>
      obtain ⟨f', hf', hstart, hheader⟩ := h.header h' hmem
      refine ⟨f', mem_append_left _ ?_, hstart, hheader⟩
      rw [if_neg (by simp [hzero])]
      exact hf'
  · rintro ⟨f', hf', hzero⟩
    rw [Gathered.add]
    split
    case isTrue => rfl
    case isFalse hoffset =>
      rcases mem_keep hf' with hold | rfl
      · exact h.opened ⟨f', hold, hzero⟩
      · exact absurd hzero hoffset
  · intro hreplaces f1 h1 f2 h2 hzero1 hzero2
    by_cases hoffset : f.part.offset = 0
    · -- whatever was at offset zero has made room
      have honly : ∀ f' ∈ keep policy kept f, f'.part.offset = 0 → f' = f := by
        intro f' hf' hzero
        rcases mem_append.mp hf' with hold | hnew
        · rw [if_pos (by simp [hreplaces, hoffset])] at hold
          exact absurd hzero (by simpa using (mem_filter.mp hold).2)
        · exact mem_singleton.mp hnew
      exact (honly f1 h1 hzero1).trans (honly f2 h2 hzero2).symm
    · have hold : ∀ f' ∈ keep policy kept f, f'.part.offset = 0 → f' ∈ kept := by
        intro f' hf' hzero
        rcases mem_keep hf' with hold | rfl
        · exact hold
        · exact absurd hzero hoffset
      exact h.single hreplaces f1 (hold f1 h1 hzero1) f2 (hold f2 h2 hzero2) hzero1 hzero2
  · intro n hn
    rw [Gathered.add] at hn
    dsimp only at hn
    split at hn
    case isTrue hlast =>
      exact Or.inl ⟨f, mem_keep_self f, hlast, Option.some.inj hn, nofun⟩
    case isFalse =>
      rcases h.ending n hn with ⟨f', hf', hlast, hstop, hoffset⟩ | ⟨f', hf', hoffset, hfar⟩ | hnever
      · exact Or.inl ⟨f', mem_keep_of_mem hf' (hoffset trivial), hlast, hstop, nofun⟩
      · exact Or.inr (Or.inl ⟨f', mem_keep_of_mem hf' fun _ => hoffset, hoffset, hfar⟩)
      · exact Or.inr (Or.inr hnever)

section

variable (h : Holds policy settled received kept g)
include h

/-- A piece that is held is one of a fragment that is held. -/
theorem exists_of_mem_pieces
    {p : ℕ × Bytes} (hp : p ∈ sortByOffset g.pieces) : ∃ f ∈ kept, f.part.piece = p := by
  have hmem := (sortByOffset_perm g.pieces).mem_iff.mp hp
  rw [h.pieces] at hmem
  exact mem_map.mp hmem

theorem mem_sortByOffset (hf : f ∈ kept) : f.part.piece ∈ sortByOffset g.pieces := by
  rw [(sortByOffset_perm g.pieces).mem_iff, h.pieces]
  exact mem_map_of_mem hf

theorem follows (hpolicy : policy.Sound)
    {n : ℕ} (hwalk : policy.walk 0 (sortByOffset g.pieces) = some n) :
    Follows 0 (sortByOffset g.pieces) n :=
  hpolicy.follows _ _ (pairwise_sortByOffset _) (pairwise_apart_sortByOffset h.apart) hwalk

/-- Behind a whole packet in one fragment, a set that the walk does not end with has a piece that
reaches further. -/
theorem exists_further (hpolicy : policy.Sound) (hreplaces : policy.replaces = true) (hf : f ∈ kept)
    (hzero : f.part.offset = 0) (hwalk : policy.walk 0 (sortByOffset g.pieces) ≠ some f.part.stop) :
    ∃ f' ∈ kept, f'.part.offset ≠ 0 ∧ f.part.stop < f'.part.stop := by
  have hstop : f.part.stop = f.part.data.length := by rw [Fragment.stop, hzero, Nat.zero_add]
  have hpiece : f.part.piece = (0, f.part.data) := by rw [Fragment.piece, hzero]
  have honly : ∀ f' ∈ kept, f'.part.offset = 0 → f' = f := fun f' hf' hzero' =>
    h.single hreplaces f' hf' f hf hzero' hzero
  by_contra hnone
  refine hwalk ?_
  rw [hpolicy.covers hreplaces, hstop]
  refine coveredEnd_of_first (pairwise_sortByOffset _)
    (hpiece ▸ h.mem_sortByOffset hf) (fun p hp hp0 => ?_) fun p hp => ?_
  · obtain ⟨f', hf', rfl⟩ := h.exists_of_mem_pieces hp
    rw [honly f' hf' hp0, hpiece]
  · obtain ⟨f', hf', rfl⟩ := h.exists_of_mem_pieces hp
    by_contra hfar
    by_cases hzero' : f'.part.offset = 0
    · rw [honly f' hf' hzero', hpiece, Nat.zero_add] at hfar
      exact hfar le_rfl
    · exact hnone ⟨f', hf', hzero', hstop ▸ not_le.mp hfar⟩

end

/-- A buffer that was looked over and kept is settled: if its only end is that of a whole packet in
one fragment, then no packet comes of it any more. -/
theorem settle (h : Holds policy False received kept g) (hpolicy : policy.Sound)
    (hfair : ∀ f ∈ received, policy.Fair f) {outcome : FragmentReassemblyOutcome} {g' : Gathered η}
    (hassemble : g.assemble policy = some (outcome, some g')) :
    g' = g ∧ Holds policy True received kept g := by
  obtain ⟨hsame, hstuck⟩ := assemble_kept hassemble
  refine ⟨hsame, { h with ending := fun n hn => ?_ }⟩
  rcases h.ending n hn with ⟨f, hf, hlast, rfl, -⟩ | hrest
  · by_cases hoffset : policy.replaces = true ∧ f.part.offset = 0
    · obtain ⟨hreplaces, hzero⟩ := hoffset
      obtain ⟨header, hheader⟩ := Option.isSome_iff_exists.mp (h.opened ⟨f, hf, hzero⟩)
      refine Or.inr ((hstuck _ header hn hheader).imp (fun hwalk => ?_) fun hrefused => ?_)
      · exact h.exists_further hpolicy hreplaces hf hzero hwalk
      · obtain ⟨f', hf', hzero', rfl⟩ := h.header header hheader
        rw [h.single hreplaces f' hf' f hf hzero' hzero] at hrefused
        exact hfair f (h.sublist.subset hf) hlast hzero hrefused
    · exact Or.inl ⟨f, hf, hlast, rfl, fun _ hreplaces hzero => hoffset ⟨hreplaces, hzero⟩⟩
  · exact Or.inr hrest

/-- **What is forwarded.** -/
theorem assembly (h : Holds policy False received kept g) (hpolicy : policy.Sound) {packet : Bytes}
    {left : Option (Gathered η)} (hassemble : g.assemble policy = some (.forward packet, left)) :
    left = none ∧ ∃ pieces start stop header total,
      Assembly policy received packet pieces start stop header total := by
  obtain ⟨hleft, total, opening, header, htotal, hopening, hwalk, hrestored, hpacket⟩ :=
    assemble_forward hpolicy hassemble
  have hfollows := h.follows hpolicy hwalk
  -- the fragments in the order of their pieces
  obtain ⟨pieces, hpieces, hperm⟩ : Relation.Comp
      (fun ps fs => ps = fs.map fun f : Received η => f.part.piece) Perm
      (sortByOffset g.pieces) kept := by
    refine (congrFun (congrFun (eq_map_comp_perm _) _) _).mpr ?_
    rw [← h.pieces]
    exact sortByOffset_perm g.pieces
  obtain ⟨start, hstart, hzero, rfl⟩ := h.header opening hopening
  have hne : pieces ≠ [] := fun hnil => by
    rw [hnil] at hperm
    rw [hperm.symm.eq_nil] at hstart
    cases hstart
  obtain ⟨stop, hstop, hlast, hend⟩ : ∃ f ∈ kept, f.part.last = true ∧ f.part.stop = total := by
    rcases h.ending total htotal with ⟨f, hf, hlast, hstop, -⟩ | ⟨f, hf, -, hfar⟩ | hnever
    · exact ⟨f, hf, hlast, hstop⟩
    · exact absurd (hfollows.stop_le (h.mem_sortByOffset hf)) (not_le.mpr hfar)
    · exact absurd hrestored (hnever _ _)
  rw [hpieces] at hfollows hpacket
  refine ⟨hleft, pieces, start, stop, header, total, ?_⟩
  exact
    { received := hperm.subperm.trans h.sublist.subperm
      follows := hfollows
      head := by
        cases pieces with
        | nil => exact absurd rfl hne
        | cons f rest => exact congrArg some (Nat.le_zero.mp hfollows.head_le)
      startMem := hperm.mem_iff.mpr hstart
      startOffset := hzero
      restored := hrestored
      packet := by rw [hpacket, flatMap_map]; rfl
      stopMem := hperm.mem_iff.mpr hstop
      stopLast := hlast
      stopEnd := hend }

end Gathered.Holds

/-- What the fragments after the one that ends the packet are like. -/
theorem Assembly.data_eq_nil {η : Type} {policy : Policy η} {received pieces : List (Received η)}
    {packet header : Bytes} {start stop : Received η} {total : ℕ}
    (h : Assembly policy received packet pieces start stop header total)
    {front rest : List (Received η)} (hpieces : pieces = front ++ stop :: rest) {f : Received η}
    (hf : f ∈ rest) : f.part.data = [] := by
  have hfollows := h.follows
  rw [hpieces, map_append, map_cons] at hfollows
  exact hfollows.data_eq_nil (q := f.part.piece) h.stopEnd
    (mem_map_of_mem (f := fun f : Received η => f.part.piece) hf)

/-! ## The parts of one packet -/

namespace Gathered

variable {η : Type} {policy : Policy η} {parts got : List (Fragment UInt8)} (htiles : Tiles 0 parts)
  (header : Fragment UInt8 → η)

/-- The buffer after some of the parts of a packet, each of which carries a header. -/
def ofParts (header : Fragment UInt8 → η) (got : List (Fragment UInt8)) : Gathered η where
  header := opening header got
  pieces := got.map Fragment.piece
  expectedLen := Reassembly.expectedLen got

include htiles

variable {p : Fragment UInt8}

theorem add_ofParts (hgot : (got ++ [p]).Subperm parts) :
    (ofParts header got).add policy ⟨header p, p⟩ = ofParts header (got ++ [p]) := by
  -- there is no stale piece at offset zero
  have hpieces : (if policy.replaces && p.offset = 0 then
      (got.map Fragment.piece).filter (fun piece => piece.1 ≠ 0) else got.map Fragment.piece) =
        got.map Fragment.piece := by
    split
    case isTrue hstart =>
      have hkept := filter_offset_ne htiles hgot
      rwa [of_decide_eq_true (Bool.and_eq_true_iff.mp hstart).2] at hkept
    case isFalse => rfl
  rw [add, ofParts, ofParts, opening_concat, expectedLen_concat, map_append]
  rw [hpieces]
  rfl

theorem assemble_more (hpolicy : policy.Sound) (hgot : got.Subperm parts)
    (hshort : ¬ got.Perm parts) :
    (ofParts header got).assemble policy = some (.buffered, some (ofParts header got)) := by
  rw [assemble]
  rcases incomplete htiles hgot hshort with hend | hgap
  · have hnone : (ofParts header got).expectedLen = none := hend
    simp only [hnone]
  · have hwalk : policy.walk 0 (sortByOffset (ofParts header got).pieces) = none :=
      (hpolicy.walks parts got htiles hgot).trans hgap
    simp only [hwalk]
    split <;> rfl

variable {restored : Bytes}

theorem assemble_done (hpolicy : policy.Sound) (hrestore : ∀ p ∈ parts, p.offset = 0 →
      policy.restore (header p) (join parts).length = some (some restored))
    (hgot : got.Perm parts) :
    (ofParts header got).assemble policy = some (.forward (restored ++ join parts), none) := by
  obtain ⟨hexpected, hsort, hcontiguous⟩ := complete htiles hgot
  obtain ⟨p, hp, hzero, hopening⟩ := exists_opening htiles hgot header
  have hexpected' : (ofParts header got).expectedLen = some (join parts).length := hexpected
  have hopening' : (ofParts header got).header = some (header p) := hopening
  have hsort' : sortByOffset (ofParts header got).pieces = parts.map Fragment.piece := hsort
  have hwalk : policy.walk 0 (parts.map Fragment.piece) = some (join parts).length := by
    rw [← hsort, hpolicy.walks parts got htiles hgot.subperm, hsort, hcontiguous]
  simp only [assemble, hexpected', hopening', hsort', hwalk]
  rw [if_neg (not_not_intro rfl), hrestore p hp hzero]
  dsimp only [Option.bind_eq_bind, Option.bind_some]
  rw [flatMap_piece]

/-- A part that is not the last to come is kept. -/
theorem receive_more (hpolicy : policy.Sound)
    (hgot : (got ++ [p]).Subperm parts) (hshort : ¬ (got ++ [p]).Perm parts) :
    (ofParts header got).receive policy ⟨header p, p⟩ =
      some (.buffered, some (ofParts header (got ++ [p]))) := by
  have hapart : overlaps p.offset p.stop (ofParts header got).pieces = false :=
    overlaps_eq_false htiles hgot
  rw [receive, hapart, if_neg Bool.false_ne_true, add_ofParts htiles header hgot,
    assemble_more htiles header hpolicy hgot hshort]

/-- The last part to come completes the packet. -/
theorem receive_done (hpolicy : policy.Sound) (hrestore : ∀ p ∈ parts, p.offset = 0 →
      policy.restore (header p) (join parts).length = some (some restored))
    (hgot : (got ++ [p]).Perm parts) : (ofParts header got).receive policy ⟨header p, p⟩ =
      some (.forward (restored ++ join parts), none) := by
  have hapart : overlaps p.offset p.stop (ofParts header got).pieces = false :=
    overlaps_eq_false htiles hgot.subperm
  rw [receive, hapart, if_neg Bool.false_ne_true, add_ofParts htiles header hgot.subperm,
    assemble_done htiles header hpolicy hrestore hgot]

end Gathered

end SimMaster.TunGateway
