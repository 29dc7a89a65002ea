import SimMaster.NativeSms

/-!
# The groups of a replay

What the grouping, the windows and the assembly make of the parts of a replay. The groups partition
the segments by their key, a window spans five minutes from its first part, and an assembly checks
that every segment is there and that repeated ones are duplicates. So a complete group is one
message (`completeGroups_unmixed`).
-/

namespace SimMaster

namespace NativeSms

open Rust NativeInbox List

variable {part : Part} {parts group : List Part} {key : GroupKey}

/-! ## Grouping -/

/-- The groups are the segments of the parts, split by their keys. -/
structure GroupsOf (parts : List Part) (groups : List (GroupKey × List Part)) : Prop where
  keys : (groups.map (·.1)).Nodup
  present : ∀ part ∈ parts, ∀ key, part.groupKey = some key → key ∈ groups.map (·.1)
  split : ∀ group ∈ groups, group.2 = parts.filter (·.groupKey = some group.1)

theorem placeGroup_perm (group : GroupKey × List Part) (groups : List (GroupKey × List Part)) :
    (placeGroup group groups).Perm (group :: groups) := by
  induction groups with
  | nil => exact Perm.refl _
  | cons other groups ih =>
    rw [placeGroup]
    split
    · exact Perm.refl _
    · exact (ih.cons other).trans (Perm.swap group other groups)

theorem filter_concat_of_eq (h : part.groupKey = some key) :
    (parts ++ [part]).filter (·.groupKey = some key) =
      parts.filter (·.groupKey = some key) ++ [part] := by
  rw [filter_append, filter_singleton, decide_eq_true h, cond_true]

theorem filter_concat_of_ne (h : part.groupKey ≠ some key) :
    (parts ++ [part]).filter (·.groupKey = some key) = parts.filter (·.groupKey = some key) := by
  rw [filter_append, filter_singleton, decide_eq_false h, cond_false, append_nil]

variable {groups : List (GroupKey × List Part)}

/-- A key that no group has is one that no part has. -/
theorem GroupsOf.filter_eq_nil (h : GroupsOf parts groups)
    (hkey : key ∉ groups.map (·.1)) : parts.filter (·.groupKey = some key) = [] := by
  refine filter_eq_nil_iff.2 fun part hpart hgroup => hkey ?_
  exact h.present part hpart key (of_decide_eq_true hgroup)

theorem GroupsOf.push (h : GroupsOf parts groups)
    (hkey : part.groupKey = some key) : GroupsOf (parts ++ [part]) (pushPart key part groups) := by
  rw [pushPart]
  split
  next hpresent =>
    have hkeys : (groups.map fun group => if group.1 = key then (group.1, group.2 ++ [part])
        else group).map (·.1) = groups.map (·.1) := by
      rw [map_map]
      refine map_congr_left fun group _ => ?_
      rw [Function.comp_apply]
      split
      · rfl
      · rfl
    refine ⟨by rw [hkeys]; exact h.keys, ?_, ?_⟩
    · intro part' hpart' key' hkey'
      rw [hkeys]
      rcases mem_append.1 hpart' with hpart' | hpart'
      · exact h.present part' hpart' key' hkey'
      · rw [mem_singleton.1 hpart', hkey] at hkey'
        obtain rfl := Option.some.inj hkey'
        obtain ⟨group, hgroup, hsame⟩ := any_eq_true.1 hpresent
        exact mem_map.2 ⟨group, hgroup, beq_iff_eq.1 hsame⟩
    · intro group hgroup
      obtain ⟨before, hbefore, rfl⟩ := mem_map.1 hgroup
      split
      next hsame =>
        rw [filter_concat_of_eq (hkey.trans (congrArg some hsame.symm)), h.split before hbefore]
      next hother =>
        rw [filter_concat_of_ne (by rw [hkey]; simpa using Ne.symm hother), h.split before hbefore]
  next habsent =>
    have hnew : key ∉ groups.map (·.1) := by
      intro hmem
      obtain ⟨group, hgroup, hsame⟩ := mem_map.1 hmem
      exact habsent (any_eq_true.2 ⟨group, hgroup, beq_iff_eq.2 hsame⟩)
    have hperm := placeGroup_perm (key, [part]) groups
    refine ⟨?_, ?_, ?_⟩
    · exact (hperm.map (·.1)).nodup_iff.2 (nodup_cons.2 ⟨hnew, h.keys⟩)
    · intro part' hpart' key' hkey'
      rw [(hperm.map (·.1)).mem_iff, map_cons, mem_cons]
      rcases mem_append.1 hpart' with hpart' | hpart'
      · exact Or.inr (h.present part' hpart' key' hkey')
      · rw [mem_singleton.1 hpart', hkey] at hkey'
        exact Or.inl (Option.some.inj hkey').symm
    · intro group hgroup
      rcases mem_cons.1 (hperm.mem_iff.1 hgroup) with rfl | hgroup
      · rw [filter_concat_of_eq hkey, h.filter_eq_nil hnew]
        rfl
      · have hother : key ≠ group.1 := fun hsame =>
          hnew (mem_map.2 ⟨group, hgroup, hsame.symm⟩)
        rw [filter_concat_of_ne (by rw [hkey]; simpa using hother), h.split group hgroup]

theorem groupsOf_groupParts (parts : List Part) : GroupsOf parts (groupParts parts) := by
  induction parts using reverseRecOn with
  | nil => exact ⟨nodup_nil, nofun, nofun⟩
  | append_singleton parts part ih =>
    rw [groupParts, foldl_append, foldl_cons, foldl_nil, ← groupParts, addPart]
    split
    next key hkey => exact ih.push hkey
    next hnone =>
      refine ⟨ih.keys, ?_, ?_⟩
      · intro part' hpart' key hkey
        rcases mem_append.1 hpart' with hpart' | hpart'
        · exact ih.present part' hpart' key hkey
        · rw [mem_singleton.1 hpart', hnone] at hkey
          cases hkey
      · intro group hgroup
        rw [filter_concat_of_ne (by rw [hnone]; nofun), ih.split group hgroup]

/-! ## Windows -/

theorem windows_flatten (window parts : List Part) :
    (windows window parts).flatten = window ++ parts := by
  fun_induction windows window parts with
  | case1 window => simp
  | case2 part parts ih => exact ih
  | case3 first window part parts hlate ih => simp [ih]
  | case4 first window part parts hnear ih =>
    rw [ih]
    simp

variable {window parts : List Part}

/-- A window that a part does not leave: it takes all of them. -/
theorem windows_eq_singleton {first : Part}
    (h : ∀ part ∈ parts, part.scts - first.scts ≤ assemblyWindowSeconds) :
    windows (first :: window) parts = [first :: window ++ parts] := by
  induction parts generalizing window with
  | nil => simp [windows]
  | cons part parts ih =>
    rw [windows, if_neg (not_lt.2 (h part mem_cons_self)), cons_append,
      ih fun part hpart => h part (mem_cons_of_mem _ hpart)]
    simp

/-- The parts are within the window of the first. -/
def Spanned (parts : List Part) : Prop :=
  ∀ first ∈ parts.head?, ∀ part ∈ parts,
    first.scts ≤ part.scts ∧ part.scts ≤ first.scts + assemblyWindowSeconds

theorem spanned_windows (hwindow : Spanned window)
    (hsorted : (window ++ parts).Pairwise fun part other => part.scts ≤ other.scts) :
    ∀ group ∈ windows window parts, Spanned group := by
  fun_induction windows window parts with
  | case1 window =>
    intro group hgroup
    rw [mem_singleton.1 hgroup]
    exact hwindow
  | case2 part parts ih =>
    refine ih ?_ hsorted
    intro first hfirst part' hpart'
    obtain rfl := Option.some.inj hfirst
    obtain rfl := mem_singleton.1 hpart'
    exact ⟨le_rfl, by rw [assemblyWindowSeconds]; omega⟩
  | case3 first window part parts hlate ih =>
    intro group hgroup
    rcases mem_cons.1 hgroup with rfl | hgroup
    · exact hwindow
    · refine ih ?_ (hsorted.sublist (by simp)) group hgroup
      intro first' hfirst' part' hpart'
      obtain rfl := Option.some.inj hfirst'
      obtain rfl := mem_singleton.1 hpart'
      exact ⟨le_rfl, by rw [assemblyWindowSeconds]; omega⟩
  | case4 first window part parts hnear ih =>
    refine ih ?_ (by simpa using hsorted)
    intro first' hfirst' part' hpart'
    obtain rfl := Option.some.inj hfirst'
    rcases mem_append.1 hpart' with hpart' | hpart'
    · exact hwindow first rfl part' hpart'
    · obtain rfl := mem_singleton.1 hpart'
      refine ⟨?_, by omega⟩
      rw [cons_append, pairwise_cons] at hsorted
      exact hsorted.1 part' (by simp)

/-! ## Assembly -/

/-- What makes two deliveries duplicates. -/
def identity (message : MtSmsDeliver) : Str × Str × Str × Option UInt16 × UInt8 × UInt8 :=
  (message.originator, message.text, message.serviceCenterTimestamp, message.segmentReference,
    message.segmentSequence, message.segmentTotal)

theorem isDuplicateDelivery_iff {message other : MtSmsDeliver} :
    message.isDuplicateDelivery other = true ↔ identity message = identity other := by
  simp only [MtSmsDeliver.isDuplicateDelivery, identity, Bool.and_eq_true, beq_iff_eq,
    Prod.mk.injEq]
  tauto

variable {β : Type}

theorem lookup_filter_ne (n m : UInt8) (seen : List (UInt8 × β)) :
    (seen.filter (·.1 != m)).lookup n = if n = m then none else seen.lookup n := by
  induction seen with
  | nil => simp
  | cons entry seen ih =>
    obtain ⟨k, message⟩ := entry
    rw [filter_cons]
    by_cases hk : k = m
    · rw [if_neg (by simpa using hk), ih, lookup_cons]
      split
      · rfl
      next hn =>
        have hbeq : (n == k) = false := by simpa [hk] using hn
        rw [hbeq]
    · rw [if_pos (by simpa using hk), lookup_cons, ih, lookup_cons]
      by_cases hn : n = k
      · subst hn
        simp [hk]
      · have hbeq : (n == k) = false := by simpa using hn
        simp [hbeq]

variable {seen : List (UInt8 × MtSmsDeliver)}

/-- Noting a segment. -/
theorem lookup_note {n : UInt8} (part : Part) :
    ((part.sequence, part.message) :: seen.filter (·.1 != part.sequence)).lookup n =
      if n = part.sequence then some part.message else seen.lookup n := by
  rw [lookup_cons, lookup_filter_ne]
  by_cases hn : n = part.sequence
  · simp [hn]
  · have hbeq : (n == part.sequence) = false := by simpa using hn
    simp [hbeq, hn]

/-- The segments seen are those of the parts, and every part is a duplicate of the one noted. -/
theorem sequences_some {result : List (UInt8 × MtSmsDeliver)} :
    ∀ {parts : List Part}, sequences seen parts = some result → (∀ n, (result.lookup n).isSome ↔
        (seen.lookup n).isSome ∨ ∃ part ∈ parts, part.sequence = n) ∧
      (∀ n message, seen.lookup n = some message →
        ∃ last, result.lookup n = some last ∧ identity message = identity last) ∧
      ∀ part ∈ parts, ∃ last, result.lookup part.sequence = some last ∧
        identity part.message = identity last := by
  intro parts h
  fun_induction sequences seen parts with
  | case1 seen =>
    obtain rfl := Option.some.inj h
    exact ⟨fun n => ⟨Or.inl, fun h => h.resolve_right nofun⟩, fun n message hn =>
      ⟨message, hn, rfl⟩,
      nofun⟩
  | case2 seen part parts previous hprevious hduplicate ih =>
    obtain ⟨hkeys, hseen, hparts⟩ := ih h
    have hnoted : ((part.sequence, part.message) ::
        seen.filter (·.1 != part.sequence)).lookup part.sequence = some part.message := by
      rw [lookup_note, if_pos rfl]
    refine ⟨fun n => ?_, fun n message hn => ?_, fun part' hpart' => ?_⟩
    · rw [hkeys, lookup_note]
      split
      next hn => simp [hn]
      next hn => simp [Ne.symm hn]
    · by_cases hsame : n = part.sequence
      · subst hsame
        obtain rfl := Option.some.inj (hprevious.symm.trans hn)
        obtain ⟨last, hlast, hidentity⟩ := hseen _ _ hnoted
        exact ⟨last, hlast, (isDuplicateDelivery_iff.1 hduplicate).trans hidentity⟩
      · exact hseen n message (by rw [lookup_note, if_neg hsame, hn])
    · rcases mem_cons.1 hpart' with rfl | hpart'
      · exact hseen _ _ hnoted
      · exact hparts part' hpart'
  | case3 seen part parts previous hprevious hconflict => cases h
  | case4 seen part parts hnew ih =>
    obtain ⟨hkeys, hseen, hparts⟩ := ih h
    have hnoted : ((part.sequence, part.message) :: seen).lookup part.sequence =
        some part.message := by simp
    refine ⟨fun n => ?_, fun n message hn => ?_, fun part' hpart' => ?_⟩
    · rw [hkeys, lookup_cons]
      by_cases hn : n = part.sequence
      · simp [hn]
      · have hbeq : (n == part.sequence) = false := by simpa using hn
        simp [hbeq, Ne.symm hn]
    · refine hseen n message ?_
      have hbeq : (n == part.sequence) = false := by
        rw [beq_eq_false_iff_ne]
        rintro rfl
        rw [hnew] at hn
        cases hn
      rw [lookup_cons, hbeq, hn]
    · rcases mem_cons.1 hpart' with rfl | hpart'
      · exact hseen _ _ hnoted
      · exact hparts part' hpart'

/-- The segments of one message: all of them, and repeated ones are duplicates. -/
structure Whole (parts : List Part) : Prop where
  complete : ∀ first ∈ parts.head?, ∀ n, 1 ≤ n → n ≤ first.message.segmentTotal.toNat →
    ∃ part ∈ parts, part.sequence.toNat = n
  duplicates : ∀ part ∈ parts, ∀ other ∈ parts, part.sequence = other.sequence →
    part.message.isDuplicateDelivery other.message = true

theorem assemble_some (h : assemble parts = some group) :
    group = parts ∧ parts ≠ [] ∧ parts.length ≤ 255 ∧ Whole parts := by
  cases parts with
  | nil => cases h
  | cons first rest =>
    rw [assemble] at h
    split at h
    · cases h
    next hlength =>
      split at h
      · cases h
      next seen hseen =>
        split at h
        next hall =>
          obtain rfl := Option.some.inj h
          obtain ⟨hkeys, -, hparts⟩ := sequences_some hseen
          refine ⟨rfl, by simp, not_lt.1 hlength, ?_, ?_⟩
          · intro first' hfirst n hpos hle
            obtain rfl := Option.some.inj hfirst
            have htotal : first.message.segmentTotal.toNat < 256 := UInt8.toNat_lt _
            have hmem : n ∈ range' 1 first.message.segmentTotal.toNat :=
              mem_range'_1.2 ⟨hpos, by omega⟩
            obtain hnone | ⟨part, hpart, hsequence⟩ :=
              (hkeys (UInt8.ofNat n)).1 (all_eq_true.1 hall.2 n hmem)
            · simp at hnone
            · refine ⟨part, hpart, ?_⟩
              rw [hsequence, UInt8.toNat_ofNat', Nat.mod_eq_of_lt (by omega)]
          · intro part hpart other hother hsame
            obtain ⟨last, hlast, hidentity⟩ := hparts part hpart
            obtain ⟨last', hlast', hidentity'⟩ := hparts other hother
            rw [hsame, hlast'] at hlast
            obtain rfl := Option.some.inj hlast
            exact isDuplicateDelivery_iff.2 (hidentity.trans hidentity'.symm)
        next => cases h

/-! ## Complete groups -/

instance : Std.Total Part.earlier where
  total part other := by
    simp only [Part.earlier]
    omega

instance : IsTrans Part Part.earlier where
  trans part other third := by
    simp only [Part.earlier]
    omega

/-- Parts that were sent as the segments of one message, all of them and close in time. -/
structure OneMessage (parts : List Part) : Prop where
  shared : ∃ key, ∀ part ∈ parts, part.groupKey = some key
  complete : ∀ part ∈ parts, ∀ n, 1 ≤ n → n ≤ part.message.segmentTotal.toNat →
    ∃ other ∈ parts, other.sequence.toNat = n
  duplicates : ∀ part ∈ parts, ∀ other ∈ parts, part.sequence = other.sequence →
    part.message.isDuplicateDelivery other.message = true
  window : ∃ first ∈ parts, ∀ part ∈ parts,
    first.scts ≤ part.scts ∧ part.scts ≤ first.scts + assemblyWindowSeconds

theorem OneMessage.perm (h : OneMessage parts) (hperm : parts.Perm group) : OneMessage group where
  shared := by
    obtain ⟨key, hkey⟩ := h.shared
    exact ⟨key, fun part hpart => hkey part (hperm.mem_iff.2 hpart)⟩
  complete part hpart n hpos hle := by
    obtain ⟨other, hother, hn⟩ := h.complete part (hperm.mem_iff.2 hpart) n hpos hle
    exact ⟨other, hperm.mem_iff.1 hother, hn⟩
  duplicates part hpart other hother :=
    h.duplicates part (hperm.mem_iff.2 hpart) other (hperm.mem_iff.2 hother)
  window := by
    obtain ⟨first, hfirst, hnear⟩ := h.window
    exact ⟨first, hperm.mem_iff.1 hfirst, fun part hpart => hnear part (hperm.mem_iff.2 hpart)⟩

theorem groupKey_total (h : part.groupKey = some key) : part.message.segmentTotal = key.total := by
  rw [Part.groupKey] at h
  split at h
  · cases h
  · obtain ⟨reference, -, rfl⟩ := Option.map_eq_some_iff.1 h
    rfl

/-- The windows of one group that are complete. -/
theorem oneMessage_of_assemble (hkey : ∀ part ∈ parts, part.groupKey = some key)
    (hwindow : window ∈ windows [] (parts.insertionSort Part.earlier))
    (h : assemble window = some group) : OneMessage group ∧ group ⊆ parts := by
  obtain ⟨rfl, hne, -, hwhole⟩ := assemble_some h
  have hsubset : group ⊆ parts := by
    intro part hpart
    refine (mem_insertionSort Part.earlier).1 ?_
    rw [← nil_append (parts.insertionSort Part.earlier), ← windows_flatten]
    exact mem_flatten.2 ⟨group, hwindow, hpart⟩
  have hsorted : ([] ++ parts.insertionSort Part.earlier).Pairwise
      fun part other : Part => part.scts ≤ other.scts := by
    refine (pairwise_insertionSort Part.earlier parts).imp fun {part other} hearlier => ?_
    rw [Part.earlier] at hearlier
    omega
  obtain ⟨first, rest, rfl⟩ := exists_cons_of_ne_nil hne
  have hspanned := spanned_windows (by nofun) hsorted _ hwindow
  refine ⟨⟨⟨key, fun part hpart => hkey part (hsubset hpart)⟩, ?_, hwhole.duplicates, ?_⟩, hsubset⟩
  · intro part hpart n hpos hle
    have htotal : part.message.segmentTotal = first.message.segmentTotal :=
      (groupKey_total (hkey part (hsubset hpart))).trans
        (groupKey_total (hkey first (hsubset mem_cons_self))).symm
    exact hwhole.complete first rfl n hpos (htotal ▸ hle)
  · exact ⟨first, mem_cons_self, hspanned first rfl⟩

theorem completeGroups_size (h : group ∈ completeGroups parts) :
    group ≠ [] ∧ group.length ≤ 255 := by
  rcases mem_append.1 h with h | h
  · obtain ⟨part, -, rfl⟩ := mem_map.1 h
    exact ⟨by simp, by simp⟩
  · obtain ⟨entry, -, hmem⟩ := mem_flatMap.1 h
    obtain ⟨window, -, hassemble⟩ := mem_filterMap.1 hmem
    obtain ⟨rfl, hne, hlength, -⟩ := assemble_some hassemble
    exact ⟨hne, hlength⟩

/-- The complete windows of a group are a part of it. -/
theorem assembled_sublist (windows : List (List Part)) :
    (windows.filterMap assemble).flatten.Sublist windows.flatten := by
  induction windows with
  | nil => exact Sublist.refl _
  | cons window windows ih =>
    rw [filterMap_cons, flatten_cons]
    split
    next => exact ih.trans (sublist_append_right _ _)
    next group hgroup =>
      rw [(assemble_some hgroup).1, flatten_cons]
      exact Sublist.append (Sublist.refl _) ih

/-- No part is in two complete groups. -/
theorem completeGroups_nodup (h : parts.Nodup) : (completeGroups parts).flatten.Nodup := by
  have hgroups := groupsOf_groupParts parts
  have hmem : ∀ entry ∈ groupParts parts, ∀ part ∈
      ((windows [] (entry.2.insertionSort Part.earlier)).filterMap assemble).flatten,
      part.groupKey = some entry.1 := by
    intro entry hentry part hpart
    have hsorted := (assembled_sublist _).subset hpart
    rw [windows_flatten, nil_append, mem_insertionSort, hgroups.split entry hentry] at hsorted
    exact of_decide_eq_true (mem_filter.1 hsorted).2
  rw [completeGroups, flatten_append, nodup_append]
  refine ⟨?_, ?_, ?_⟩
  · rw [← flatMap_def, flatMap_singleton']
    exact h.filter _
  · rw [flatMap_def, flatten_flatten, map_map, ← flatMap_def, nodup_flatMap]
    refine ⟨fun entry hentry => ?_, ?_⟩
    · refine Nodup.sublist (assembled_sublist _) ?_
      rw [windows_flatten, nil_append, (perm_insertionSort _ _).nodup_iff,
        hgroups.split entry hentry]
      exact h.filter _
    · have hkeys : (groupParts parts).Pairwise fun entry other => entry.1 ≠ other.1 :=
        pairwise_map.1 hgroups.keys
      refine hkeys.imp_of_mem fun {entry other} hentry hother hne part hpart hpart' => hne ?_
      exact Option.some.inj
        ((hmem entry hentry part hpart).symm.trans (hmem other hother part hpart'))
  · intro part hpart part' hpart' hsame
    subst hsame
    rw [← flatMap_def, flatMap_singleton'] at hpart
    obtain ⟨group, hgroup, hmember⟩ := mem_flatten.1 hpart'
    obtain ⟨entry, hentry, hgroup⟩ := mem_flatMap.1 hgroup
    have hkey := hmem entry hentry part (mem_flatten.2 ⟨group, hgroup, hmember⟩)
    have hone := of_decide_eq_true (mem_filter.1 hpart).2
    rw [Part.groupKey, if_pos hone] at hkey
    cases hkey

/-- One of the parts is a segment of the group. -/
def concerns (key : GroupKey) (parts : List Part) : Bool := parts.any (·.groupKey == some key)

theorem concerns_eq_true : concerns key parts = true ↔
    ∃ part ∈ parts, part.groupKey = some key := by
  simp [concerns]

theorem flatMap_of_key (f : List Part → List β) :
    ∀ {groups : List (GroupKey × List Part)}, (groups.map (·.1)).Nodup →
      (∀ entry ∈ groups, entry.2 = parts.filter (·.groupKey = some entry.1)) →
      groups.flatMap (fun entry => if entry.1 = key then f entry.2 else []) =
        if key ∈ groups.map (·.1) then f (parts.filter (·.groupKey = some key)) else [] := by
  intro groups hkeys hsplit
  induction groups with
  | nil => rfl
  | cons entry groups ih =>
    rw [map_cons, nodup_cons] at hkeys
    rw [flatMap_cons, ih hkeys.2 fun entry hentry => hsplit entry (mem_cons_of_mem _ hentry),
      map_cons]
    by_cases hkey : entry.1 = key
    · subst hkey
      rw [if_pos rfl, if_neg hkeys.1, if_pos mem_cons_self, append_nil, hsplit entry mem_cons_self]
    · have hcons : key ∈ entry.1 :: groups.map (·.1) ↔ key ∈ groups.map (·.1) := by
        rw [mem_cons]
        exact ⟨fun h => h.resolve_left (Ne.symm hkey), Or.inr⟩
      rw [if_neg hkey, nil_append]
      by_cases hmem : key ∈ groups.map (·.1)
      · rw [if_pos hmem, if_pos (hcons.2 hmem)]
      · rw [if_neg hmem, if_neg fun h => hmem (hcons.1 h)]

/-- The complete groups of a key are the complete windows of its segments. -/
theorem completeGroups_filter (key : GroupKey) (parts : List Part) :
    (completeGroups parts).filter (concerns key) =
      (windows [] ((parts.filter (·.groupKey = some key)).insertionSort Part.earlier)).filterMap
        assemble := by
  have hgroups := groupsOf_groupParts parts
  have hsingles : ((parts.filter fun part => part.message.segmentTotal = 1).map
      fun part => [part]).filter (concerns key) = [] := by
    refine filter_eq_nil_iff.2 fun group hgroup => ?_
    obtain ⟨part, hpart, rfl⟩ := mem_map.1 hgroup
    have hone := of_decide_eq_true (mem_filter.1 hpart).2
    simp [concerns, Part.groupKey, hone]
  have hentry : ∀ entry ∈ groupParts parts,
      ((windows [] (entry.2.insertionSort Part.earlier)).filterMap assemble).filter (concerns key) =
      if entry.1 = key then (windows [] (entry.2.insertionSort Part.earlier)).filterMap assemble
      else [] := by
    intro entry hentry
    have hkeys : ∀ group ∈ (windows [] (entry.2.insertionSort Part.earlier)).filterMap assemble,
        group ≠ [] ∧ ∀ part ∈ group, part.groupKey = some entry.1 := by
      intro group hgroup
      obtain ⟨window, hwindow, hassemble⟩ := mem_filterMap.1 hgroup
      have hkey : ∀ part ∈ entry.2, part.groupKey = some entry.1 := by
        intro part hpart
        rw [hgroups.split entry hentry] at hpart
        exact of_decide_eq_true (mem_filter.1 hpart).2
      have hsubset := (oneMessage_of_assemble hkey hwindow hassemble).2
      obtain ⟨rfl, hne, -⟩ := assemble_some hassemble
      exact ⟨hne, fun part hpart => hkey part (hsubset hpart)⟩
    split
    next hkey =>
      refine filter_eq_self.2 fun group hgroup => concerns_eq_true.2 ?_
      obtain ⟨hne, hsame⟩ := hkeys group hgroup
      obtain ⟨part, rest, rfl⟩ := exists_cons_of_ne_nil hne
      exact ⟨part, mem_cons_self, (hsame part mem_cons_self).trans (congrArg some hkey)⟩
    next hkey =>
      refine filter_eq_nil_iff.2 fun group hgroup hconcerns => hkey ?_
      obtain ⟨part, hpart, hpartKey⟩ := concerns_eq_true.1 hconcerns
      exact Option.some.inj (((hkeys group hgroup).2 part hpart).symm.trans hpartKey)
  rw [completeGroups, filter_append, hsingles, nil_append, filter_flatMap, flatMap_congr hentry,
    flatMap_of_key (fun parts => (windows [] (parts.insertionSort Part.earlier)).filterMap assemble)
      hgroups.keys hgroups.split]
  split
  next => rfl
  next habsent =>
    rw [hgroups.filter_eq_nil habsent]
    rfl

/-- **Segments of different messages are never merged.** -/
theorem completeGroups_unmixed (h : group ∈ completeGroups parts) :
    group ⊆ parts ∧ group ≠ [] ∧ (1 < group.length → OneMessage group) := by
  rcases mem_append.1 h with h | h
  · obtain ⟨part, hpart, rfl⟩ := mem_map.1 h
    refine ⟨?_, by simp, fun hlength => absurd hlength (by simp)⟩
    intro part' hpart'
    rw [mem_singleton.1 hpart']
    exact (mem_filter.1 hpart).1
  · obtain ⟨entry, hentry, hmem⟩ := mem_flatMap.1 h
    obtain ⟨window, hwindow, hassemble⟩ := mem_filterMap.1 hmem
    have hsplit := (groupsOf_groupParts parts).split entry hentry
    have hkey : ∀ part ∈ entry.2, part.groupKey = some entry.1 := by
      intro part hpart
      rw [hsplit] at hpart
      exact of_decide_eq_true (mem_filter.1 hpart).2
    obtain ⟨hone, hsubset⟩ := oneMessage_of_assemble hkey hwindow hassemble
    refine ⟨fun part hpart => ?_, ?_, fun _ => hone⟩
    · have hmem := hsubset hpart
      rw [hsplit] at hmem
      exact (mem_filter.1 hmem).1
    · rw [(assemble_some hassemble).1]
      exact (assemble_some hassemble).2.1

end NativeSms

end SimMaster
