import SimMaster.DigestHeaderScan

/-!
# Header blocks within bounds

A header block within the bounds of `auth_headers` that ends in two line ends of one kind is scanned
to its end, whatever the body (`headerStop_wired`), and all its authentication fields are given
(`authHeaders_complete`).
-/

namespace SimMaster.ResponseAuth

open Rust Digest List Option

variable {originName proxyName : Str}

/-! ## Bounds -/

/-- What lines take up with their line ends. -/
def cost (lines : List Str) : ℕ := (lines.map fun line => utf8Len line + 2).sum

/-- What a field takes up if it is of one of the names. -/
def familyCost (originName proxyName : Str) (f : HeaderField) : ℕ :=
  if (familyField originName proxyName f).isSome then cost f.lines else 0

/-- The text of the block is within the bounds, and its last two line ends are of one kind. -/
structure Fits (originName proxyName : Str) (block : HeaderBlock) (text : Str) : Prop where
  octets : (asBytes text).length ≤ maxHeaderBytes
  lines : (block.fields.flatMap HeaderField.lines).length ≤ maxHeaderLines
  auth : (block.fields.map (familyCost originName proxyName)).sum ≤ maxAuthBytes
  ends : ∃ front, text = front ++ ['\n', '\n'] ∨ text = front ++ ['\r', '\n', '\r', '\n']

theorem cost_cons (line : Str) (lines : List Str) :
    cost (line :: lines) = (utf8Len line + 2) + cost lines := by
  rfl

/-! ## The loop -/

variable {raws : List Str} {index authBytes : ℕ} {current : Option (Bool × Str)}

theorem loop_folds {folds : List Str} (hraw : Forall₂ Raw raws folds)
    (hfolds : ∀ fold ∈ folds, fold.head?.any isBlank = true ∧ ∀ c ∈ fold, isLineChar c = true)
    (hindex : index + folds.length ≤ maxHeaderLines)
    (hauth : current.isSome = true → authBytes + cost folds ≤ maxAuthBytes) (more : List Str) :
    headerLinesLoop originName proxyName index current true authBytes (raws ++ more) =
      headerLinesLoop originName proxyName (index + folds.length) (current.map (extend folds)) true
        (authBytes + if current.isSome then cost folds else 0) more := by
  induction hraw generalizing index current authBytes with
  | nil => cases current <;> simp [extend, unfolded, cost]
  | @cons raw line raws folds hraw _ ih =>
    obtain ⟨⟨hblank, hline⟩, hfolds⟩ := forall_mem_cons.mp hfolds
    have hstrip := stripCr_raw hraw (not_mem_of_isLineChar hline).2
    have hcontrol : (line.any fun ch => isControl ch && ch != '\t') = false := by
      rw [List.any_eq_false]
      intro c hc hbad
      have hc := hline c hc
      rw [isLineChar, hbad] at hc
      cases hc
    have hfull : line.isEmpty = false := by
      cases line with
      | nil => cases hblank
      | cons c line => rfl
    have hroom : ¬maxHeaderLines ≤ index := by
      rw [length_cons] at hindex
      omega
    have hindex : index + 1 + folds.length ≤ maxHeaderLines := by
      rw [length_cons] at hindex
      omega
    rw [cons_append, headerLinesLoop.eq_def]
    dsimp only
    rw [hstrip, hcontrol, if_neg Bool.false_ne_true, hfull, if_neg Bool.false_ne_true, if_neg hroom,
      if_pos hblank, Bool.not_true, if_neg Bool.false_ne_true, length_cons, cost_cons,
      Nat.add_comm folds.length, ← Nat.add_assoc index]
    cases current with
    | none =>
      rw [ih hfolds hindex (fun h => by cases h)]
      rfl
    | some current =>
      obtain ⟨proxy, value⟩ := current
      have hauth := hauth rfl
      rw [cost_cons] at hauth
      dsimp only
      rw [if_neg (by omega), ih hfolds hindex (fun _ => by omega)]
      have hextend : extend folds (proxy, value ++ ' ' :: skipBlanks line) =
          extend (line :: folds) (proxy, value) := by
        rw [extend, extend, unfolded, unfolded, flatMap_cons, append_assoc, cons_append]
      rw [map_some, map_some, hextend, isSome_some, if_pos rfl,
        isSome_some, if_pos rfl, Nat.add_assoc authBytes]

variable (f : HeaderField)

theorem splitOnce_firstLine :
    splitOnce ':' f.firstLine = some (f.name.text ++ f.gap.text, f.content) := by
  have hcolon : ':' ∉ f.name.text ++ f.gap.text := fun hmem => by
    rcases mem_append.mp hmem with hmem | hmem
    · exact absurd (f.name.all _ hmem) (by decide)
    · exact absurd (f.gap.all _ hmem) (by decide)
  rw [HeaderField.firstLine, ← append_assoc]
  generalize f.name.text ++ f.gap.text = front at hcolon
  induction front with
  | nil => exact if_pos rfl
  | cons c front ih =>
    obtain ⟨hc, hfront⟩ := not_or.mp (mt mem_cons.mpr hcolon)
    rw [cons_append, splitOnce, if_neg (Ne.symm hc), ih hfront]
    rfl

theorem trim_name : trimEndMatches isBlank (f.name.text ++ f.gap.text) = f.name.text := by
  rw [trimEndMatches, rdropWhile, reverse_append,
    dropWhile_append_of_pos fun c hc => f.gap.all c (mem_reverse.mp hc)]
  refine (rdropWhile_eq_self_iff (p := isBlank) (l := f.name.text)).mpr fun hne hblank => ?_
  have htoken := f.name.all _ (getLast_mem hne)
  rw [isBlank_eq_false (toNat_of_isTokenChar htoken).1] at hblank
  cases hblank

variable {hasHeader : Bool}

theorem loop_field (hraw : Forall₂ Raw raws f.lines)
    (hindex : index + f.lines.length ≤ maxHeaderLines)
    (hauth : authBytes + familyCost originName proxyName f ≤ maxAuthBytes) (more : List Str) :
    headerLinesLoop originName proxyName index current hasHeader authBytes (raws ++ more) =
      (headerLinesLoop originName proxyName (index + f.lines.length)
        (familyField originName proxyName f) true
        (authBytes + familyCost originName proxyName f) more).map (current.toList ++ ·) := by
  obtain ⟨raw, raws, hfirst, hfolds, rfl⟩ := forall₂_cons_right_iff.mp hraw
  have hline := f.firstLine_all
  have hstrip := stripCr_raw hfirst (not_mem_of_isLineChar hline).2
  have hcontrol : (f.firstLine.any fun ch => isControl ch && ch != '\t') = false := by
    rw [List.any_eq_false]
    intro c hc hbad
    have hc := hline c hc
    rw [isLineChar, hbad] at hc
    cases hc
  have hhead : f.firstLine.isEmpty = false ∧ f.firstLine.head?.any isBlank = false := by
    cases hname : f.name.text with
    | nil => exact absurd hname f.name.ne_nil
    | cons c text =>
      have hc : isTokenChar c = true := f.name.all c (hname ▸ mem_cons_self)
      rw [HeaderField.firstLine, hname, cons_append, head?_cons, any_some]
      exact ⟨rfl, isBlank_eq_false (toNat_of_isTokenChar hc).1⟩
  have hlength : f.lines.length = f.folds.length + 1 := rfl
  have hvalid : (f.name.text.isEmpty || !f.name.text.all isTokenChar) = false := by
    rw [isEmpty_eq_false_iff.mpr f.name.ne_nil, all_eq_true.mpr f.name.all]
    rfl
  have hcost : cost f.lines = (utf8Len f.firstLine + 2) + cost f.folds := cost_cons _ _
  rw [cons_append, headerLinesLoop.eq_def]
  dsimp only
  rw [hstrip, hcontrol, if_neg Bool.false_ne_true, hhead.1, if_neg Bool.false_ne_true,
    if_neg (by omega), hhead.2, if_neg Bool.false_ne_true, splitOnce_firstLine]
  dsimp only
  rw [trim_name, hvalid, if_neg Bool.false_ne_true, hlength, Nat.add_comm f.folds.length,
    ← Nat.add_assoc index]
  by_cases hfamily : (eqIgnoreAsciiCase f.name.text originName ||
      eqIgnoreAsciiCase f.name.text proxyName) = true
  · have hfield : familyField originName proxyName f =
        some (eqIgnoreAsciiCase f.name.text proxyName, f.value) := by
      rw [familyField, if_pos hfamily]
    have hfamilyCost : familyCost originName proxyName f = cost f.lines := by
      rw [familyCost, hfield]
      rfl
    rw [if_pos hfamily, if_neg (by omega),
      loop_folds hfolds f.folds_all (by omega) (fun _ => by omega), hfield, hfamilyCost, hcost]
    simp only [map_some, isSome_some, if_true, Nat.add_assoc]
    rfl
  · have hfield : familyField originName proxyName f = none := by
      rw [familyField, if_neg hfamily]
    have hfamilyCost : familyCost originName proxyName f = 0 := by
      rw [familyCost, hfield]
      rfl
    rw [if_neg hfamily, loop_folds hfolds f.folds_all (by omega) (fun h => by cases h), hfield,
      hfamilyCost]
    rfl

/-- **The loop.** All fields up to the empty line are read. -/
theorem headerLinesLoop_complete {fields : List HeaderField}
    (hraw : Forall₂ Raw raws (fields.flatMap HeaderField.lines ++ [[]]))
    (hindex : index + (fields.flatMap HeaderField.lines).length ≤ maxHeaderLines)
    (hauth : authBytes + (fields.map (familyCost originName proxyName)).sum ≤ maxAuthBytes)
    (more : List Str) :
    headerLinesLoop originName proxyName index current hasHeader authBytes (raws ++ more) =
      .ok (current.toList ++ fields.filterMap (familyField originName proxyName)) := by
  induction fields generalizing raws index current hasHeader authBytes with
  | nil =>
    obtain ⟨raw, raws, hfirst, -, rfl⟩ := forall₂_cons_right_iff.mp hraw
    have hstrip := stripCr_raw hfirst not_mem_nil
    rw [cons_append, headerLinesLoop.eq_def]
    dsimp only
    rw [hstrip, filterMap_nil, append_nil]
    rfl
  | cons f fields ih =>
    rw [flatMap_cons, append_assoc] at hraw
    rw [flatMap_cons, length_append] at hindex
    rw [map_cons, sum_cons] at hauth
    have hfront := forall₂_take_append _ _ _ hraw
    have hback := forall₂_drop_append _ _ _ hraw
    rw [← take_append_drop f.lines.length raws, append_assoc,
      loop_field f hfront (by omega) (by omega), ih hback (by omega) (by omega), filterMap_cons]
    cases familyField originName proxyName f with
    | none => rfl
    | some field => rfl

/-! ## The end of the block -/

theorem asBytes_lf (s : Str) : asBytes ('\n' :: s) = 0x0a :: asBytes s := by
  have hlf : asBytes ['\n'] = [0x0a] := by decide
  rw [← singleton_append, asBytes_append, hlf, singleton_append]

variable {pat data : Bytes} {i : ℕ}

theorem first_of_prefix (h : pat <+: data.drop i) (k : ℕ)
    (hk : k < pat.length) : data[i + k]? = pat[k]? := by
  obtain ⟨rest, hrest⟩ := h
  rw [← getElem?_drop, ← hrest, getElem?_append_left hk]

variable {lines : List Str} {text : Str}

/-- Two line ends of one kind come first at the end of the block. -/
theorem occurrence_ends (hlines : ∀ line ∈ lines, BlockLine line) (h : Wired (lines ++ [[]]) text)
    (body : Bytes) (hpat : pat = [0x0a, 0x0a] ∨ pat = [0x0d, 0x0a, 0x0d, 0x0a])
    (hi : pat <+: (asBytes text ++ body).drop i) : (asBytes text).length ≤ i + pat.length := by
  induction lines generalizing text i with
  | nil =>
    obtain ⟨raw, rest, rfl, hraw, hrest⟩ := h.uncons
    cases hrest
    have hlength : (asBytes (raw ++ ['\n'])).length ≤ 2 := by
      rcases hraw with rfl | rfl
      · decide
      · decide
    rcases hpat with rfl | rfl <;> simp only [length_cons, length_nil] <;> omega
  | cons line lines ih =>
    obtain ⟨hline, hlines⟩ := forall_mem_cons.mp hlines
    obtain ⟨raw, rest, rfl, hraw, hrest⟩ := h.uncons
    have hlf : 0x0a ∉ asBytes raw :=
      notMem_asBytes (c := '\n') (by decide) (not_mem_raw hline.noLf hraw)
    rw [asBytes_append, asBytes_lf, append_assoc, cons_append] at hi
    rw [asBytes_append, asBytes_lf, length_append, length_cons]
    by_cases hlater : (asBytes raw).length + 1 ≤ i
    · have hdrop : (asBytes raw ++ 0x0a :: (asBytes rest ++ body)).drop i =
          (asBytes rest ++ body).drop (i - ((asBytes raw).length + 1)) := by
        rw [append_cons, drop_append, drop_eq_nil_of_le, nil_append,
          length_append, length_singleton]
        rw [length_append, length_singleton]
        exact hlater
      rw [hdrop] at hi
      have hbound := ih hlines hrest hi
      omega
    · -- what is behind this line begins with a character of the next one, or with its end
      have hat : ∀ k,
          (asBytes raw ++ 0x0a :: (asBytes rest ++ body))[(asBytes raw).length + 1 + k]? =
            (asBytes rest ++ body)[k]? := by
        intro k
        rw [append_cons, getElem?_append_right (by simp)]
        congr 1
        simp
      have hnext : ∀ b : UInt8, (b = 0x0a ∨ b = 0x0d) → (asBytes rest ++ body)[0]? = some b →
          lines = [] ∧
            (asBytes rest = [0x0a] ∧ b = 0x0a ∨ asBytes rest = [0x0d, 0x0a] ∧ b = 0x0d) := by
        intro b hb hfirst
        cases lines with
        | nil =>
          obtain ⟨raw', rest', rfl, hraw', hrest'⟩ := hrest.uncons
          cases hrest'
          rcases hraw' with rfl | rfl
          · exact ⟨rfl, Or.inl ⟨by decide, (some.inj hfirst).symm⟩⟩
          · exact ⟨rfl, Or.inr ⟨by decide, (some.inj hfirst).symm⟩⟩
        | cons next lines =>
          have hline' := hlines next mem_cons_self
          obtain ⟨raw', rest', rfl, hraw', -⟩ := hrest.uncons
          have hfront : ∃ c text, next = c :: text := exists_cons_of_ne_nil hline'.ne_nil
          obtain ⟨c, tail, rfl⟩ := hfront
          have hsplit : ∃ more, asBytes (raw' ++ '\n' :: rest') ++ body =
              asBytes (c :: tail) ++ more := by
            rcases hraw' with rfl | rfl
            · exact ⟨_, by rw [asBytes_append, append_assoc]⟩
            · exact ⟨_, by
                rw [asBytes_append, asBytes_append, append_assoc, append_assoc]⟩
          obtain ⟨more, hsplit⟩ := hsplit
          have hne : asBytes (c :: tail) ≠ [] := by
            exact append_ne_nil_of_left_ne_nil (utf8Octets_ne_nil c) _
          rw [hsplit, getElem?_append_left (length_pos_iff.mpr hne)] at hfirst
          have hmem := mem_of_getElem? hfirst
          rcases hb with rfl | rfl
          · exact absurd hmem (notMem_asBytes (c := '\n') (by decide) hline'.noLf)
          · exact absurd hmem (notMem_asBytes (c := '\r') (by decide) hline'.noCr)
      have hplace : ∀ j, j ≤ (asBytes raw).length →
          (asBytes raw ++ 0x0a :: (asBytes rest ++ body))[j]? = some 0x0a →
            j = (asBytes raw).length := by
        intro j hj hbyte
        by_contra hne
        rw [getElem?_append_left (by omega)] at hbyte
        exact hlf (mem_of_getElem? hbyte)
      rcases hpat with rfl | rfl
      · have hfirst := first_of_prefix hi 0 (by decide)
        have hsecond := first_of_prefix hi 1 (by decide)
        have hi := hplace i (by omega) hfirst
        rw [hi] at hsecond
        obtain ⟨-, ⟨hrest, -⟩ | ⟨-, hb⟩⟩ := hnext 0x0a (Or.inl rfl) ((hat 0).symm.trans hsecond)
        · rw [hrest]
          simp only [length_cons, length_nil]
          omega
        · exact absurd hb (by decide)
      · have hfirst := first_of_prefix hi 0 (by decide)
        have hsecond := first_of_prefix hi 1 (by decide)
        have hthird := first_of_prefix hi 2 (by decide)
        have hin : i < (asBytes raw).length := by
          by_contra hout
          have heq : i = (asBytes raw).length := by omega
          rw [Nat.add_zero, heq, getElem?_append_right (Nat.le_refl _), Nat.sub_self] at hfirst
          exact absurd hfirst (by simp)
        have hi := hplace (i + 1) (by omega) hsecond
        have hthird :
            (asBytes raw ++ 0x0a :: (asBytes rest ++ body))[(asBytes raw).length + 1 + 0]? =
              some 0x0d := by
          rw [← hi]
          exact hthird
        obtain ⟨-, ⟨-, hb⟩ | ⟨hrest, -⟩⟩ := hnext 0x0d (Or.inr rfl) ((hat 0).symm.trans hthird)
        · exact absurd hb (by decide)
        · rw [hrest]
          simp only [length_cons, length_nil]
          omega

theorem headerStop_eq {stop : ℕ}
    (hpat : pat = [0x0a, 0x0a] ∨ pat = [0x0d, 0x0a, 0x0d, 0x0a]) (hi : findSub pat data = some i)
    (hstop : i + pat.length = stop)
    (hfirst : ∀ pat : Bytes, (pat = [0x0a, 0x0a] ∨ pat = [0x0d, 0x0a, 0x0d, 0x0a]) →
      ∀ i, findSub pat data = some i → stop ≤ i + pat.length) : headerStop data = some stop := by
  have hlf := hfirst [0x0a, 0x0a] (Or.inl rfl)
  have hcrlf := hfirst [0x0d, 0x0a, 0x0d, 0x0a] (Or.inr rfl)
  rw [headerStop]
  rcases hpat with rfl | rfl
  · rw [hi]
    cases hother : findSub [0x0d, 0x0a, 0x0d, 0x0a] data with
    | none => exact congrArg some hstop
    | some j =>
      exact congrArg some ((Nat.min_eq_right (hstop.trans_le (hcrlf j hother))).trans hstop)
  · rw [hi]
    cases hother : findSub [0x0a, 0x0a] data with
    | none => exact congrArg some hstop
    | some j =>
      exact congrArg some ((Nat.min_eq_left (hstop.trans_le (hlf j hother))).trans hstop)

/-- The block is looked at to its end, whatever the body. -/
theorem headerStop_wired (hlines : ∀ line ∈ lines, BlockLine line) (h : Wired (lines ++ [[]]) text)
    (hends : ∃ front, text = front ++ ['\n', '\n'] ∨ text = front ++ ['\r', '\n', '\r', '\n'])
    (body : Bytes) : headerStop (asBytes text ++ body) = some (asBytes text).length := by
  have hfirst : ∀ pat : Bytes, (pat = [0x0a, 0x0a] ∨ pat = [0x0d, 0x0a, 0x0d, 0x0a]) →
      ∀ body i, findSub pat (asBytes text ++ body) = some i →
        (asBytes text).length ≤ i + pat.length :=
    fun pat hpat body i hi => occurrence_ends hlines h body hpat (prefix_drop_of_findSub hi)
  have hlast : ∃ pat : Bytes, (pat = [0x0a, 0x0a] ∨ pat = [0x0d, 0x0a, 0x0d, 0x0a]) ∧
      pat <:+: asBytes text := by
    obtain ⟨front, rfl | rfl⟩ := hends
    · refine ⟨_, Or.inl rfl, asBytes front, [], ?_⟩
      rw [asBytes_append, append_nil]
      rfl
    · refine ⟨_, Or.inr rfl, asBytes front, [], ?_⟩
      rw [asBytes_append, append_nil]
      rfl
  obtain ⟨pat, hpat, hinfix⟩ := hlast
  have hne : pat ≠ [] := by rcases hpat with rfl | rfl <;> exact cons_ne_nil _ _
  cases hfound : findSub pat (asBytes text) with
  | none => exact absurd hinfix ((findSub_eq_none_iff hne _).mp hfound)
  | some i =>
    have hle := findSub_le hfound
    have hge := hfirst pat hpat [] i (findSub_append hfound [])
    exact headerStop_eq hpat (findSub_append hfound body) (Nat.le_antisymm hle hge)
      fun pat hpat => hfirst pat hpat body

/-! ## The block as a whole -/

theorem splitBy_wired (hlines : ∀ line ∈ lines, '\n' ∉ line) (h : Wired lines text) :
    ∃ raws, Forall₂ Raw raws lines ∧ splitBy (· = '\n') text = raws ++ [[]] := by
  induction lines generalizing text with
  | nil =>
    cases h
    exact ⟨[], .nil, rfl⟩
  | cons line lines ih =>
    obtain ⟨hline, hlines⟩ := forall_mem_cons.mp hlines
    obtain ⟨raw, rest, rfl, hraw, hrest⟩ := h.uncons
    obtain ⟨raws, hraws, hsplit⟩ := ih hlines hrest
    refine ⟨raw :: raws, .cons hraw hraws, ?_⟩
    have hall : ∀ c ∈ raw, decide (c = '\n') = false := fun c hc =>
      decide_eq_false fun hlf => not_mem_raw hline hraw (hlf ▸ hc)
    obtain ⟨piece, pieces, hback, -, hwhole⟩ := splitBy_append hall ('\n' :: rest)
    have hback : [] = piece ∧ splitBy (· = '\n') rest = pieces := cons.inj hback
    rw [hwhole, ← hback.1, ← hback.2, hsplit, append_nil]
    rfl

/-- **Scanning is complete.** A block within bounds is read as it stands. -/
theorem authHeaders_complete {block : HeaderBlock} (h : Wired block.lines text)
    (hfits : Fits originName proxyName block text) (body : Bytes) :
    authHeaders (asBytes text ++ body) originName proxyName =
      .ok ⟨block.start, block.family originName proxyName⟩ := by
  obtain ⟨lines, hsplit, hlines⟩ := block.lines_split
  have hstop := headerStop_wired hlines (hsplit ▸ h) hfits.ends
    (body.take (maxHeaderBytes - (asBytes text).length))
  have hnoLf : ∀ line ∈ block.lines, '\n' ∉ line := by
    rw [hsplit]
    intro line hline
    rcases mem_append.mp hline with hline | hline
    · exact (hlines line hline).noLf
    · rw [mem_singleton.mp hline]
      exact not_mem_nil
  obtain ⟨raws, hall, hpieces⟩ := splitBy_wired hnoLf h
  obtain ⟨rawStart, raws, hstart, hraws, rfl⟩ := forall₂_cons_right_iff.mp hall
  have hcr : '\r' ∉ block.start := fun hmem => absurd (block.start_all _ hmem) (by decide)
  have hvalid : (block.start.isEmpty || block.start.any isControl) = false := by
    rw [isEmpty_eq_false_iff.mpr block.start_ne_nil, Bool.false_or, List.any_eq_false]
    intro c hc
    rw [block.start_all c hc]
    exact Bool.false_ne_true
  rw [authHeaders, take_append, take_of_length_le hfits.octets]
  rw [hstop]
  dsimp only
  rw [take_left, fromUtf8_asBytes]
  dsimp only
  rw [hpieces, cons_append]
  dsimp only
  rw [stripCr_raw hstart hcr, hvalid, if_neg Bool.false_ne_true,
    headerLinesLoop_complete hraws (by rw [Nat.zero_add]; exact hfits.lines)
      (by rw [Nat.zero_add]; exact hfits.auth)]
  rfl

end SimMaster.ResponseAuth
