import SimMaster.DigestHeaderLimits

/-!
# Several fields, one list

The authentication fields of a message carry lists of parameters, each field one of them. Joined by
commas they are read as one list of all parameters (`combineFields_read`), and nothing else is read
from them (`Carried.read`, `exists_carried`); a field cut at its commas and folded carries the same
list as on one line (`Folded.paramList`).
-/

namespace SimMaster.ResponseAuth

open Rust Digest List

variable {originName proxyName : Str}

/-- The fields carry the lists, one each. -/
def Carried (fields : List (Bool × Str)) (lists : List (List AuthParam)) : Prop :=
  Forall₂ (fun field params => ParamList field.2 params) fields lists

/-! ## Accepted parts -/

variable {params : List AuthParam}

/-- What is left of an accepted list is accepted. -/
theorem Accepted.sublist {part : List AuthParam} (h : Accepted params)
    (hpart : part.Sublist params) : Accepted part where
  strict := all_eq_true.mpr fun p hp => all_eq_true.mp h.strict p (hpart.subset hp)
  count := hpart.length_le.trans h.count
  nodup := h.nodup.sublist (hpart.map _)
  bounds := by
    rw [any_eq_false]
    exact fun entry hentry =>
      any_eq_false.mp h.bounds entry ((hpart.map AuthParam.entry).subset hentry)

/-! ## Joining -/

/-- What fields take up joined by commas. -/
def joinedLen (fields : List (Bool × Str)) : ℕ := (fields.map fun field => utf8Len field.2 + 1).sum

theorem utf8Len_append (s t : Str) : utf8Len (s ++ t) = utf8Len s + utf8Len t := by
  rw [utf8Len, utf8Len, utf8Len, map_append, sum_append]

variable {fields : List (Bool × Str)} {lists : List (List AuthParam)} {text : Str}

/-- **Joining fields.** They are read as the list of all their parameters, behind those before. -/
theorem combineFields_eq (h : Carried fields lists) (htext : ParamList text params)
    (hlength : utf8Len text + joinedLen fields ≤ maxAuthBytes) :
    (combineFields text fields >>= boundedParams) = if Accepted (params ++ lists.flatten) then
        .ok ((params ++ lists.flatten).map AuthParam.entry) else .error invalid := by
  induction h generalizing text params with
  | nil =>
    rw [flatten_nil, append_nil]
    exact boundedParams_eq htext (by omega)
  | @cons field list fields lists hfield _ ih =>
    obtain ⟨proxy, value⟩ := field
    have hsum : joinedLen ((proxy, value) :: fields) = (utf8Len value + 1) + joinedLen fields := by
      rfl
    have hcomma : utf8Len [','] = 1 := by decide
    have hread := boundedParams_eq hfield (by dsimp only; omega)
    rw [combineFields, isEmpty_eq_false_iff.mpr htext.ne_nil.2, if_neg Bool.false_ne_true]
    rw [hread, flatten_cons, ← append_assoc]
    by_cases haccepted : Accepted list
    · have hroom : ¬maxAuthBytes < utf8Len (text ++ [',']) + utf8Len value := by
        rw [utf8Len_append, hcomma]
        omega
      rw [if_pos haccepted]
      rw [if_neg hroom, append_assoc, singleton_append]
      refine ih (htext.join hfield) ?_
      rw [← singleton_append, utf8Len_append, utf8Len_append, hcomma]
      omega
    · have hwhole : ¬Accepted (params ++ list ++ lists.flatten) := fun h =>
        haccepted (h.sublist ((sublist_append_right params list).trans
          (sublist_append_left _ _)))
      rw [if_neg haccepted, if_neg hwhole]
      rfl

/-- **All fields.** They are read as one list. -/
theorem combineFields_read
    (h : Carried fields lists) (hne : fields ≠ []) (hlength : joinedLen fields ≤ maxAuthBytes) :
    (combineFields [] fields >>= boundedParams) =
      if Accepted lists.flatten then .ok (lists.flatten.map AuthParam.entry)
      else .error invalid := by
  cases h with
  | nil => exact absurd rfl hne
  | @cons field list fields lists hfield hfields =>
    obtain ⟨proxy, value⟩ := field
    have hsum : joinedLen ((proxy, value) :: fields) = (utf8Len value + 1) + joinedLen fields := by
      rfl
    have hread := boundedParams_eq hfield (by dsimp only; omega)
    have hempty : utf8Len [] = 0 := rfl
    rw [combineFields]
    simp only [isEmpty_nil, if_true]
    rw [hread, flatten_cons]
    by_cases haccepted : Accepted list
    · rw [if_pos haccepted]
      rw [hempty, if_neg (by omega), nil_append]
      exact combineFields_eq hfields hfield (by omega)
    · have hwhole : ¬Accepted (list ++ lists.flatten) := fun h =>
        haccepted (h.sublist (sublist_append_left _ _))
      rw [if_neg haccepted, if_neg hwhole]
      rfl

variable {combined : Str}

/-- Fields that are joined carry lists. -/
theorem exists_carried
    (h : combineFields text fields = .ok combined) : ∃ lists, Carried fields lists := by
  induction fields generalizing text with
  | nil => exact ⟨[], .nil⟩
  | cons field fields ih =>
    obtain ⟨proxy, value⟩ := field
    rw [combineFields] at h
    generalize (if text.isEmpty = true then text else text ++ [',']) = joined at h
    cases hread : boundedParams value with
    | error e =>
      rw [hread] at h
      cases h
    | ok entries =>
      rw [hread] at h
      dsimp only at h
      split at h
      · cases h
      · obtain ⟨lists, hlists⟩ := ih h
        obtain ⟨-, params, hparams, -⟩ := boundedParams_sound hread
        exact ⟨params :: lists, .cons hparams hlists⟩

/-- What is joined from fields is a list of their parameters. -/
theorem paramList_combined (hlists : Carried fields lists) (htext : ParamList text params)
    (h : combineFields text fields = .ok combined) :
    ParamList combined (params ++ lists.flatten) := by
  induction hlists generalizing text params with
  | nil =>
    rw [flatten_nil, append_nil, ← Except.ok.inj h]
    exact htext
  | @cons field list fields lists hfield _ ih =>
    obtain ⟨proxy, value⟩ := field
    rw [combineFields, isEmpty_eq_false_iff.mpr htext.ne_nil.2, if_neg Bool.false_ne_true] at h
    cases hread : boundedParams value with
    | error e =>
      rw [hread] at h
      cases h
    | ok entries =>
      rw [hread] at h
      dsimp only at h
      split at h
      · cases h
      · rw [append_assoc, singleton_append] at h
        rw [flatten_cons, ← append_assoc]
        exact ih (htext.join hfield) h

/-- **What is read.** Whatever lists the fields are found to carry, their parameters are accepted
and what is read is the row of them. -/
theorem Carried.read (hlists : Carried fields lists) (hne : fields ≠ [])
    (h : combineFields [] fields = .ok combined) {entries : List (Str × Str)}
    (hread : boundedParams combined = .ok entries) :
    Accepted lists.flatten ∧ entries = lists.flatten.map AuthParam.entry := by
  have hlist : ParamList combined lists.flatten := by
    cases hlists with
    | nil => exact absurd rfl hne
    | @cons field list fields lists hfield hfields =>
      obtain ⟨proxy, value⟩ := field
      rw [combineFields] at h
      simp only [isEmpty_nil, if_true] at h
      cases hfirst : boundedParams value with
      | error e =>
        rw [hfirst] at h
        cases h
      | ok entries =>
        rw [hfirst] at h
        dsimp only at h
        split at h
        · cases h
        · rw [nil_append] at h
          exact paramList_combined hfields hfield h
  rw [boundedParams_eq hlist (boundedParams_sound hread).1] at hread
  split at hread
  · next haccepted => exact ⟨haccepted, (Except.ok.inj hread).symm⟩
  · cases hread

/-! ## Folding -/

theorem utf8Len_skipBlanks_le (s : Str) : utf8Len (skipBlanks s) ≤ utf8Len s := by
  obtain ⟨b, hs⟩ := skipBlanks_split s
  have hlen := utf8Len_append b.text (skipBlanks s)
  rw [← hs] at hlen
  omega

theorem utf8Len_unfolded_le (folds : List Str) : utf8Len (unfolded folds) ≤ cost folds := by
  induction folds with
  | nil => exact Nat.le_refl 0
  | cons fold folds ih =>
    have hblank : utf8Len [' '] = 1 := by decide
    have hfold := utf8Len_skipBlanks_le fold
    rw [unfolded] at ih
    rw [unfolded, flatMap_cons, ← singleton_append, utf8Len_append, utf8Len_append,
      cost_cons, hblank]
    omega

/-- The value of a field and a comma take up no more than its lines. -/
theorem utf8Len_value_lt (f : HeaderField) : utf8Len f.value + 1 ≤ cost f.lines := by
  have hcolon : utf8Len [':'] = 1 := by decide
  have hcontent := utf8Len_skipBlanks_le f.content
  have hfolds := utf8Len_unfolded_le f.folds
  rw [HeaderField.value, HeaderField.lines, cost_cons, HeaderField.firstLine,
    ← singleton_append, utf8Len_append, utf8Len_append, utf8Len_append, utf8Len_append, hcolon]
  omega

/-- The fields of a block within bounds can be joined. -/
theorem joinedLen_family_le (fields : List HeaderField) :
    joinedLen (fields.filterMap (familyField originName proxyName)) ≤
      (fields.map (familyCost originName proxyName)).sum := by
  induction fields with
  | nil => exact Nat.le_refl 0
  | cons f fields ih =>
    rw [filterMap_cons, map_cons, sum_cons, familyCost]
    cases hfield : familyField originName proxyName f with
    | none =>
      dsimp only
      omega
    | some field =>
      have hvalue : field.2 = f.value := by
        rw [familyField] at hfield
        split at hfield
        · rw [← Option.some.inj hfield]
        · cases hfield
      have hle := utf8Len_value_lt f
      rw [joinedLen] at ih
      rw [Option.isSome_some, if_pos rfl, joinedLen, map_cons, sum_cons, hvalue]
      omega

/-- Blanks around a list change nothing. -/
theorem ParamList.blanks (h : ParamList text params)
    (b b' : Blanks) : ParamList (b.text ++ (text ++ b'.text)) params := by
  obtain ⟨before, after, first, rest, rfl, rfl⟩ := h
  have happend : ∀ b b' : Blanks, ∀ c ∈ b.text ++ b'.text, isBlank c = true := fun b b' c hc => by
    rcases mem_append.mp hc with hc | hc
    · exact b.all c hc
    · exact b'.all c hc
  refine ⟨⟨_, happend b before⟩, ⟨_, happend after b'⟩, first, rest, ?_, rfl⟩
  simp only [append_assoc]

/-- The blanks at the front of a list end at its first parameter. -/
theorem ParamList.skipBlanks_append (h : ParamList text params) (more : Str) :
    skipBlanks (text ++ more) = skipBlanks text ++ more ∧ ParamList (skipBlanks text) params := by
  obtain ⟨before, after, first, rest, rfl, rfl⟩ := h
  have hskip : ∀ more, skipBlanks (before.text ++ (paramsText first rest ++ more)) =
      paramsText first rest ++ more := fun more =>
    (visible_paramsText first rest more).skipBlanks before
  rw [append_assoc, append_assoc, hskip, hskip, append_assoc]
  exact ⟨rfl, ⟨[], forall_mem_nil _⟩, after, first, rest, rfl, rfl⟩

/-- What stands behind the colon and the lines it is continued on are a list of parameters, cut at
its commas: a line ends in a comma or the next one begins with it. -/
inductive Folded : Str → List Str → List AuthParam → Prop
  | line {text : Str} {params : List AuthParam} : ParamList text params → Folded text [] params
  | after {text fold : Str} {folds : List Str} {params others : List AuthParam} :
      ParamList text params → Folded fold folds others →
      Folded (text ++ [',']) (fold :: folds) (params ++ others)
  | before {text rest : Str} {folds : List Str} {params others : List AuthParam} (blank : Blanks) :
      ParamList text params → Folded rest folds others →
      Folded text ((blank.text ++ ',' :: rest) :: folds) (params ++ others)

/-- **Folding.** A list that is cut at its commas and folded is the same list when it is
unfolded. -/
theorem Folded.paramList {content : Str} {folds : List Str} (h : Folded content folds params) :
    ParamList (skipBlanks content ++ unfolded folds) params := by
  have hblank : ∀ c ∈ [' '], isBlank c = true := forall_mem_singleton.mpr rfl
  have hnone : ∀ c ∈ ([] : Str), isBlank c = true := forall_mem_nil _
  induction h with
  | @line text params h =>
    rw [unfolded, flatMap_nil, append_nil]
    exact (h.skipBlanks_append []).2
  | @after text fold folds params others h _ ih =>
    have hmore := ih.blanks ⟨_, hblank⟩ ⟨_, hnone⟩
    rw [append_nil, singleton_append] at hmore
    rw [(h.skipBlanks_append [',']).1, unfolded, flatMap_cons, append_assoc, singleton_append]
    exact (h.skipBlanks_append []).2.join hmore
  | @before text rest folds params others blank h _ ih =>
    obtain ⟨front, hrest⟩ := skipBlanks_split rest
    have hmore := ih.blanks front ⟨_, hnone⟩
    rw [append_nil, ← append_assoc, ← hrest] at hmore
    have hfirst := (h.skipBlanks_append []).2.blanks ⟨_, hnone⟩ ⟨_, hblank⟩
    have hfold : skipBlanks (blank.text ++ ',' :: rest) = ',' :: rest :=
      Visible.skipBlanks ⟨',', rest, rfl, rfl⟩ blank
    rw [unfolded, flatMap_cons, hfold, cons_append, append_cons, cons_append]
    exact hfirst.join hmore

end SimMaster.ResponseAuth
