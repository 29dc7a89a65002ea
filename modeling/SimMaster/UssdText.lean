import SimMaster.SecurityAgreement
import SimMaster.Ussd

/-!
# The text of a USSD response

A modem that answers writes `+CUSD: n,"text",dcs` (`cusd`), a quote of the text twice, among lines
of other responses. `parseUssdResponse` finds the line and cuts it into fields.

A text of one line comes back with its status. It is the text itself if there is neither white space
nor a quote at its ends and it does not look like UCS-2; what looks like UCS-2 is decoded under
every data coding (`cusd_parsed`).
-/

namespace SimMaster.Ussd

open Rust List Digest

/-! ## The response -/

/-- A text within quotes. -/
def escape (text : Str) : Str := text.flatMap fun c => if c = '"' then ['"', '"'] else [c]

def cusdFields (n dcs : ℕ) (text : Str) : Str :=
  ' ' :: (decimal n ++ ',' :: '"' :: (escape text ++ '"' :: ',' :: decimal dcs))

/-- The line that carries a text. -/
def cusd (n dcs : ℕ) (text : Str) : Str := "+CUSD:".toList ++ cusdFields n dcs text

def isLineEnd (c : Char) : Bool := c = '\r' || c = '\n'

def statusOf : ℕ → Status
  | 0 => .final
  | 1 => .awaitingInput
  | 2 => .terminated
  | _ => .failed

/-- The text without white space and then without quotes around it. -/
def payload (text : Str) : Str := trimEndMatches (· == '"') ((trim text).dropWhile (· == '"'))

/-- What is made of the text. -/
def shown (text : Str) : Str :=
  if looksLikeUcs2 (payload text) then fromUtf16Lossy (hexUnits (payload text)) else payload text

/-- Groups of four hexadecimal digits. -/
def HexForm (text : Str) : Prop := text.length % 4 = 0 ∧ text.all isAsciiHexdigit = true

/-! ## The line -/

/-- The first occurrence of a pattern is not in the lines before it. -/
theorem findSub_behind {pat before rest : Str} (hpat : pat ≠ []) (hnone : ¬pat <:+: before)
    (hend : ∀ h : before ≠ [], before.getLast h ∉ pat) :
    findSub pat (before ++ (pat ++ rest)) = some before.length := by
  induction before with
  | nil =>
    obtain ⟨c, cs, rfl⟩ := exists_cons_of_ne_nil hpat
    rw [nil_append, cons_append, findSub, ← cons_append, if_pos (prefix_append _ _), length_nil]
  | cons c before ih =>
    have hfirst : ¬pat <+: c :: (before ++ (pat ++ rest)) := by
      intro hprefix
      rcases Nat.le_total pat.length (c :: before).length with hle | hle
      · exact hnone (prefix_of_prefix_length_le hprefix (prefix_append _ _) hle).isInfix
      · have hinside :=
          prefix_of_prefix_length_le (prefix_append (c :: before) (pat ++ rest)) hprefix hle
        exact hend (cons_ne_nil _ _) (hinside.subset (getLast_mem _))
    rw [cons_append, findSub, if_neg hfirst, ih fun h => hnone (infix_cons h)]
    · rfl
    · intro hne
      have hlast := hend (cons_ne_nil _ _)
      rwa [getLast_cons hne] at hlast

variable {c : Char} {n : ℕ}

theorem not_isLineEnd_decimal (h : c ∈ decimal n) : isLineEnd c = false := by
  have hdigit := isDigit_of_mem_decimal h
  rw [Bool.eq_false_iff]
  intro hend
  rw [isLineEnd, Bool.or_eq_true, decide_eq_true_iff, decide_eq_true_iff] at hend
  rcases hend with rfl | rfl <;> exact absurd hdigit (by decide)

variable {text : Str}

theorem not_isLineEnd_cusd {dcs : ℕ} (h : ∀ c ∈ text, isLineEnd c = false) :
    ∀ c ∈ cusd n dcs text, isLineEnd c = false := by
  have hescape : ∀ c ∈ escape text, isLineEnd c = false := by
    intro c hc
    obtain ⟨d, hd, hcd⟩ := mem_flatMap.mp hc
    split at hcd
    case isTrue =>
      rw [mem_pair, or_self] at hcd
      rw [hcd]
      decide
    case isFalse =>
      rw [mem_singleton.mp hcd]
      exact h d hd
  have hmark : "+CUSD:".toList.all (fun c => !isLineEnd c) = true := by
    rw [String.toList_ofList]
    decide
  refine forall_mem_append.mpr
    ⟨fun c hc => (Bool.not_eq_true' _).mp (all_eq_true.mp hmark c hc), ?_⟩
  simp only [cusdFields, forall_mem_append, forall_mem_cons]
  exact ⟨rfl, fun c => not_isLineEnd_decimal, rfl, rfl, hescape, rfl, rfl,
    fun c => not_isLineEnd_decimal⟩

theorem ends_decimal (n : ℕ) : Digest.Ends (decimal n) := by
  refine ends_of_all Nat.toDigits_ne_nil fun c hc => ?_
  have hdigit := isDigit_of_mem_decimal hc
  have hbounds : '0'.toNat ≤ c.toNat ∧ c.toNat ≤ '9'.toNat := by
    simpa [Char.isDigit, UInt32.le_iff_toNat_le] using hdigit
  exact ⟨le_trans (by decide) hbounds.1, hbounds.2.trans (by decide)⟩

/-! ## The fields -/

theorem csvFieldsLoop_char (current : Str) (quoted : Bool) (rest : Str) (hc : c ≠ '"') :
    csvFieldsLoop current quoted (c :: rest) =
      if c = ',' ∧ quoted = false then trim current :: csvFieldsLoop [] quoted rest
      else csvFieldsLoop (current ++ [c]) quoted rest := by
  rw [csvFieldsLoop]
  · exact hc
  · exact fun _ _ h => absurd h hc

theorem csvFieldsLoop_plain (current : Str) {field : Str} (rest : Str)
    (h : ∀ c ∈ field, c ≠ '"' ∧ c ≠ ',') :
    csvFieldsLoop current false (field ++ rest) = csvFieldsLoop (current ++ field) false rest := by
  induction field generalizing current with
  | nil => rw [nil_append, append_nil]
  | cons c field ih =>
    obtain ⟨⟨hquote, hcomma⟩, hfield⟩ := forall_mem_cons.mp h
    rw [cons_append, csvFieldsLoop_char _ _ _ hquote, if_neg fun h => hcomma h.1, ih _ hfield,
      append_assoc, singleton_append]

/-- Within quotes, up to the closing quote. -/
theorem csvFieldsLoop_escape (current text rest : Str) :
    csvFieldsLoop current true (escape text ++ '"' :: ',' :: rest) =
      csvFieldsLoop (current ++ text) false (',' :: rest) := by
  induction text generalizing current with
  | nil =>
    rw [append_nil]
    exact csvFieldsLoop.eq_3 _ _ _ fun _ _ h => absurd (cons.inj h).1 (by decide)
  | cons c text ih =>
    rw [escape, flatMap_cons, ← escape]
    split
    case isTrue hquote =>
      rw [hquote, append_assoc, cons_append, singleton_append, csvFieldsLoop.eq_2, ih, append_assoc,
        singleton_append]
    case isFalse hquote =>
      rw [append_assoc, singleton_append, csvFieldsLoop_char _ _ _ hquote, if_neg fun h =>
        (by cases h.2), ih,
        append_assoc, singleton_append]

theorem plain_decimal : ∀ c ∈ decimal n, c ≠ '"' ∧ c ≠ ',' := by
  intro c hc
  have hdigit := isDigit_of_mem_decimal hc
  constructor
  · rintro rfl
    exact absurd hdigit (by decide)
  · rintro rfl
    exact absurd hdigit (by decide)

theorem csvFields_cusd (n dcs : ℕ) (text : Str) :
    csvFields (cusdFields n dcs text) = [decimal n, trim text, decimal dcs] := by
  have hblank : ∀ c ∈ ' ' :: decimal n, c ≠ '"' ∧ c ≠ ',' :=
    forall_mem_cons.mpr ⟨by decide, plain_decimal⟩
  have hcomma : ∀ current rest, csvFieldsLoop current false (',' :: rest) =
      trim current :: csvFieldsLoop [] false rest := fun current rest => by
    rw [csvFieldsLoop_char _ _ _ (by decide : (',' : Char) ≠ '"'), if_pos ⟨rfl, rfl⟩]
  have hfirst : trim (' ' :: decimal n) = decimal n := by
    have hspace : ∀ c ∈ [' '], isWhitespace c = true := forall_mem_singleton.mpr rfl
    have h := trim_around hspace (ends_decimal n) (forall_mem_nil _)
    rwa [append_nil] at h
  have hlast : csvFieldsLoop [] false (decimal dcs) = [decimal dcs] := by
    have h := csvFieldsLoop_plain [] [] (plain_decimal (n := dcs))
    rw [append_nil, nil_append, csvFieldsLoop, (ends_decimal dcs).trim] at h
    exact h
  have hopen : ∀ rest, csvFieldsLoop [] false ('"' :: rest) = csvFieldsLoop [] true rest :=
    fun rest =>
    csvFieldsLoop.eq_3 _ _ _ fun _ h => by cases h
  rw [csvFields, cusdFields, ← cons_append, csvFieldsLoop_plain [] _ hblank, nil_append, hcomma,
    hfirst, hopen, csvFieldsLoop_escape, nil_append, hcomma, hlast]

/-! ## Decoding -/

/-- Well formed UTF-16 is read as it is. -/
theorem fromUtf16Lossy_eq {units : List UInt16} (h : fromUtf16 units = some text) :
    fromUtf16Lossy (units.map UInt16.toNat) = text := by
  induction units using fromUtf16.induct generalizing text with
  | case1 => exact Option.some.inj h
  | case2 u hscalar =>
    rw [fromUtf16, if_pos hscalar] at h
    rw [map_singleton, fromUtf16Lossy, if_neg (by omega)]
    exact Option.some.inj h
  | case3 u hscalar =>
    rw [fromUtf16, if_neg hscalar] at h
    cases h
  | case4 u v rest hscalar ih =>
    rw [fromUtf16, if_pos hscalar] at h
    obtain ⟨tail, htail, rfl⟩ := Option.map_eq_some_iff.mp h
    rw [map_cons, map_cons, fromUtf16Lossy, if_neg (by omega), if_neg (by omega),
      ← map_cons, ih htail]
  | case5 u v rest hscalar hpair ih =>
    rw [fromUtf16, if_neg hscalar, if_pos hpair] at h
    obtain ⟨tail, htail, rfl⟩ := Option.map_eq_some_iff.mp h
    rw [map_cons, map_cons, fromUtf16Lossy, if_pos (by omega), ih htail]
  | case6 u v rest hscalar hpair =>
    rw [fromUtf16, if_neg hscalar, if_neg hpair] at h
    cases h

theorem length_fromUtf16Lossy (units : List ℕ) : (fromUtf16Lossy units).length ≤ units.length := by
  fun_induction fromUtf16Lossy units <;> simp only [length_nil, length_cons, le_refl] at * <;> omega

theorem length_hexUnits (text : Str) : 4 * (hexUnits text).length ≤ text.length := by
  fun_induction hexUnits text with
  | case1 a b c d rest ih => simp only [length_cons]; omega
  | case2 => exact Nat.zero_le _

theorem length_payload (text : Str) : (payload text).length ≤ text.length :=
  calc (payload text).length ≤ ((trim text).dropWhile (· == '"')).length :=
    ( rdropWhile_prefix _ _).length_le
    _ ≤ (trim text).length := length_dropWhile_le _ _
    _ ≤ (trimStart text).length := ( rdropWhile_prefix _ _).length_le
    _ ≤ text.length := length_dropWhile_le _ _

/-- What is decoded is no longer the text. -/
theorem shown_eq_iff : shown text = text ↔ payload text = text ∧ looksLikeUcs2 text = false := by
  rw [shown]
  split
  case isTrue hlooks =>
    have hshort := length_fromUtf16Lossy (hexUnits (payload text))
    have hunits := length_hexUnits (payload text)
    have hpayload := length_payload text
    have hlong : 0 < (payload text).length := by
      rw [length_pos_iff]
      intro hnil
      rw [hnil] at hlooks
      exact absurd hlooks (by decide)
    refine iff_of_false (fun h => ?_) fun h => ?_
    · rw [h] at hshort
      omega
    · rw [h.1, h.2] at hlooks
      cases hlooks
  case isFalse hlooks =>
    rw [Bool.not_eq_true] at hlooks
    exact ⟨fun h => ⟨h, h ▸ hlooks⟩, And.left⟩

/-- Whatever the data coding says, the text alone decides. -/
theorem decoded_eq (P : Prop) [Decidable P] :
    (if P ∨ looksLikeUcs2 (payload text) = true then (decodeUcs2 (payload text)).getD (payload text)
      else payload text) = shown text := by
  rw [shown, decodeUcs2]
  by_cases hlooks : looksLikeUcs2 (payload text) = true
  · rw [if_pos (Or.inr hlooks), if_pos hlooks, if_pos hlooks]
    rfl
  · rw [if_neg hlooks, if_neg hlooks]
    exact ite_self _

/-! ## The response is read -/

/-- **A USSD response is read.** A text of one line comes back with its status, wherever the line
stands among others. It is the text as it was just when it has no white space and no quotes at its
ends and does not look like UCS-2; a text that looks like UCS-2 and holds the UTF-16 of another one
comes back as that one. (Nothing is said of hexadecimal digits under the data coding 72 that do not
look like UCS-2.) -/
theorem cusd_parsed {n dcs : ℕ} (hn : n < 256) {text before after : Str}
    (hline : ∀ c ∈ text, isLineEnd c = false)
    (hother : ¬"+CUSD:".toList <:+: before.map Char.toUpper)
    (hbefore : ∀ h : before ≠ [], isLineEnd (before.getLast h) = true)
    (hafter : ∀ h : after ≠ [], isLineEnd (after.head h) = true) :
    ∃ shown', parseUssdResponse (before ++ (cusd n dcs text ++ after)) =
        .ok ⟨shown', cusd n dcs text, statusOf n⟩ ∧
      ((dcs = 72 → HexForm (payload text) → looksLikeUcs2 (payload text) = true) →
        shown' = shown text ∧ (shown' = text ↔ payload text = text ∧ looksLikeUcs2 text = false) ∧
        ∀ original, looksLikeUcs2 (payload text) = true →
          hexUnits (payload text) = (encodeUtf16 original).map UInt16.toNat →
          shown' = original) := by
  have hfind : findSub "+CUSD:".toList ((before ++ (cusd n dcs text ++ after)).map Char.toUpper) =
      some before.length := by
    have hcusd : cusd n dcs text ++ after =
        "+CUSD:".toList ++ (cusdFields n dcs text ++ after) := append_assoc _ _ _
    rw [map_append, hcusd, map_append, ← length_map Char.toUpper]
    refine findSub_behind (by decide) hother fun h hmem => ?_
    have hne : before ≠ [] := fun hnil => h (by rw [hnil]; rfl)
    rw [getLast_map] at hmem
    have hend := hbefore hne
    rw [isLineEnd, Bool.or_eq_true, decide_eq_true_iff, decide_eq_true_iff] at hend
    rcases hend with hend | hend
    · rw [hend] at hmem
      exact absurd hmem (by decide)
    · rw [hend] at hmem
      exact absurd hmem (by decide)
  have htake : (cusd n dcs text ++ after).takeWhile (fun c => c ≠ '\r' && c ≠ '\n') =
      cusd n dcs text := by
    have hnone : after.takeWhile (fun c => c ≠ '\r' && c ≠ '\n') = [] := by
      cases after with
      | nil => rfl
      | cons c after =>
        have hend := hafter (cons_ne_nil _ _)
        rw [takeWhile_cons_of_neg]
        rw [head_cons, isLineEnd, Bool.or_eq_true, decide_eq_true_iff, decide_eq_true_iff] at hend
        rcases hend with rfl | rfl <;> decide
    rw [takeWhile_append_of_pos, hnone, append_nil]
    intro c hc
    simpa [isLineEnd] using not_isLineEnd_cusd hline c hc
  have hends : Digest.Ends (cusd n dcs text) := by
    have hmark : Digest.Ends "+CUSD:".toList := ⟨by decide, rfl, rfl⟩
    have h := hmark.append (' ' :: (decimal n ++ ',' :: '"' :: (escape text ++ ['"', ','])))
      (ends_decimal dcs)
    have hfields : cusdFields n dcs text =
        (' ' :: (decimal n ++ ',' :: '"' :: (escape text ++ ['"', ',']))) ++ decimal dcs := by
      simp [cusdFields]
    rwa [← hfields] at h
  have hsplit : splitOnce ':' (cusd n dcs text) = some ("+CUSD".toList, cusdFields n dcs text) :=
    rfl
  refine ⟨shown text, ?_, fun _ => ⟨rfl, shown_eq_iff, fun original hlooks hunits => ?_⟩⟩
  · rw [parseUssdResponse, hfind]
    dsimp only
    rw [drop_left, htake, hends.trim, hsplit]
    dsimp only
    rw [csvFields_cusd]
    dsimp only
    rw [(ends_decimal n).trim, SecurityAgreement.parseUnsigned_decimal (Nat.le_of_lt_succ hn),
      trim_trim]
    have hstatus : ∀ n, (match n with
        | 0 => Status.final
        | 1 => .awaitingInput
        | 2 => .terminated
        | _ => .failed) = statusOf n := fun n => by
      unfold statusOf
      split <;> rfl
    have hresult : ∀ text' status, text' = shown text → status = statusOf n →
        (.ok ⟨text', cusd n dcs text, status⟩ : Except String UssdTransaction) =
          .ok ⟨shown text, cusd n dcs text, statusOf n⟩ := by
      rintro _ _ rfl rfl
      rfl
    exact hresult _ _ (decoded_eq _) (hstatus n)
  · rw [shown, if_pos hlooks, hunits]
    exact fromUtf16Lossy_eq (fromUtf16_encodeUtf16 original)

theorem cusd_parsed_menu : ∃ shown', parseUssdResponse ("\nOK\n".toList ++
      (cusd 1 15 "Pay 10,50 \"now\"?".toList ++ "\n".toList)) =
        .ok ⟨shown', cusd 1 15 "Pay 10,50 \"now\"?".toList, .awaitingInput⟩ ∧
      shown' = shown "Pay 10,50 \"now\"?".toList := by
  have hall : "Pay 10,50 \"now\"?".toList.all (fun c => !isLineEnd c) = true := by decide
  have hline : ∀ c ∈ "Pay 10,50 \"now\"?".toList, isLineEnd c = false := fun c hc => by
    simpa using all_eq_true.mp hall c hc
  have hother : ¬"+CUSD:".toList <:+: "\nOK\n".toList.map Char.toUpper := by decide
  obtain ⟨shown', hparse, hshown⟩ :=
    @cusd_parsed 1 15 (by decide) _ "\nOK\n".toList "\n".toList hline hother
    (fun _ => rfl) (fun _ => rfl)
  exact ⟨shown', hparse, (hshown fun h => absurd h (by decide)).1⟩

/-- A number of eight digits is taken for UCS-2 under a GSM data coding, a menu is cut at its first
line, and UCS-2 that is written with digits alone is left as it is. -/
theorem cusd_not_parsed :
    (parseUssdResponse (cusd 0 15 "00450055".toList)).toOption.map UssdTransaction.text =
      some "EU".toList ∧
    (parseUssdResponse (cusd 1 15 "1 Pay\n2 Stop".toList)).toOption.map UssdTransaction.text =
      some "1 Pay".toList ∧
    (parseUssdResponse (cusd 0 72 "30423044".toList)).toOption.map UssdTransaction.text =
      some "30423044".toList := by
  decide

end SimMaster.Ussd
