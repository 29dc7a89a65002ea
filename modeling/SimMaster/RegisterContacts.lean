import SimMaster.DigestOffers
import SimMaster.RegisterLists

/-!
# Entries of an answer

A well-formed name-addr is one element of a comma list, whatever stands in its quotes
(`Listed.balanced`), and a parameter that is read from it is one of its own
(`contactParameter_text`): nothing in the display name, the URI or another parameter's quotes is
taken for it.
-/

namespace SimMaster.Register

open Rust Digest List Bool

/-! ## Well-formed entries -/

variable {delimiter : Char} {s : Str}

theorem balanced_of_class {inside : Bool} {depth : ℕ} (p : Char → Bool)
    (hp : p '"' = false ∧ p '<' = false ∧ p '>' = false ∧ p delimiter = false)
    (h : ∀ c ∈ s, p c = true) : Balanced delimiter inside depth s := by
  have hne : ∀ c ∈ s, ∀ d, p d = false → c ≠ d := fun c hc d hd heq => by
    rw [← heq, h c hc] at hd
    cases hd
  exact .of_all fun c hc => ⟨⟨hne c hc _ hp.1, hne c hc _ hp.2.1, hne c hc _ hp.2.2.1⟩,
    fun heq => absurd heq (hne c hc _ hp.2.2.2)⟩

theorem quoted_text (chars : List QuotedChar) : Quoted (quotedText chars) := by
  induction chars with
  | nil => exact .nil
  | cons q chars ih =>
    change Quoted (q.text ++ quotedText chars)
    cases hq : q.escaped with
    | true =>
      rw [QuotedChar.text, if_pos hq]
      exact .escaped q.char ih
    | false =>
      obtain ⟨hquote, hescape⟩ := q.unescaped hq
      rw [QuotedChar.text, if_neg (by rw [hq]; decide)]
      exact .char hquote hescape ih

/-- A parameter from its semicolon on. -/
def paramBody (p : AddrParam) : Str :=
  p.after.text ++ (p.name.text ++
    match p.value with
    | none => []
    | some (.inl chars) => '=' :: '"' :: (quotedText chars ++ ['"'])
    | some (.inr value) => '=' :: value.1)

theorem paramBody_balanced (hdelimiter : delimiter = ',' ∨ delimiter = ';')
    (p : AddrParam) : Balanced delimiter false u16Max (paramBody p) := by
  have hblank : isBlank delimiter = false := by rcases hdelimiter with rfl | rfl <;> decide
  have htoken : isTokenChar delimiter = false := by rcases hdelimiter with rfl | rfl <;> decide
  have hvalue : isValueChar delimiter = false := by rcases hdelimiter with rfl | rfl <;> decide
  have hequals : '=' = delimiter → false = true := by
    rcases hdelimiter with rfl | rfl <;> exact fun h => absurd h (by decide)
  refine .append (balanced_of_class isBlank ⟨by decide, by decide, by decide, hblank⟩ p.after.all)
    (.append
      (balanced_of_class isTokenChar ⟨by decide, by decide, by decide, htoken⟩ p.name.all) ?_)
  cases p.value with
  | none => exact .nil
  | some value =>
    cases value with
    | inl chars => exact .char (by decide) hequals (.quoted (quoted_text chars) .nil)
    | inr value =>
      exact .char (by decide) hequals
        (balanced_of_class isValueChar ⟨by decide, by decide, by decide, hvalue⟩ value.2)

theorem display_balanced (d : Display) : Balanced ',' false u16Max d.text := by
  cases d with
  | plain text all =>
    exact balanced_of_class (fun c => isTokenChar c || isBlank c) (by decide)
      fun c hc => or_eq_true_iff.mpr (all c hc)
  | quoted chars after =>
    exact .quoted (quoted_text chars) (balanced_of_class isBlank (by decide) after.all)

theorem text_balanced (n : NameAddr) : Balanced ',' false u16Max n.text := by
  have hparams : Balanced ',' false u16Max n.paramsText := by
    rw [NameAddr.paramsText]
    induction n.params with
    | nil => exact .nil
    | cons p params ih =>
      refine .append (.append (balanced_of_class isBlank (by decide) p.before.all) ?_) ih
      exact .char (by decide) (by decide) (paramBody_balanced (Or.inl rfl) p)
  have huri : Balanced ',' true 65534 n.uri := .of_all fun c hc => by
    have hc := n.uri_all c hc
    simp only [isUriChar, and_eq_true, bne_iff_ne] at hc
    exact ⟨⟨hc.2, hc.1.1.2, hc.1.2⟩, fun _ => rfl⟩
  refine (display_balanced n.display).append ?_
  exact .bracketed huri hparams

/-- A name-addr in a comma list, with the blanks around it. -/
structure Listed where
  before : Blanks
  addr : NameAddr
  after : Blanks

def Listed.text (e : Listed) : Str := e.before.text ++ (e.addr.text ++ e.after.text)

variable (e : Listed)

theorem Listed.balanced : Balanced ',' false u16Max e.text :=
  .append (balanced_of_class isBlank (by decide) e.before.all)
    (.append (text_balanced e.addr) (balanced_of_class isBlank (by decide) e.after.all))

/-! ## Cuts -/

variable {sep : Char}

theorem splitOnce_append {a : Str} (b : Str) (h : sep ∉ a) :
    splitOnce sep (a ++ sep :: b) = some (a, b) := by
  induction a with
  | nil => exact if_pos rfl
  | cons c a ih =>
    obtain ⟨hc, ha⟩ := not_or.mp (mt mem_cons.mpr h)
    rw [cons_append, splitOnce, if_neg (Ne.symm hc), ih ha]
    rfl

theorem splitOnce_none (h : sep ∉ s) : splitOnce sep s = none := by
  induction s with
  | nil => rfl
  | cons c s ih =>
    obtain ⟨hc, hs⟩ := not_or.mp (mt mem_cons.mpr h)
    rw [splitOnce, if_neg (Ne.symm hc), ih hs]
    rfl

theorem trim_blanks (b : Blanks) : trim b.text = [] := by
  have hstart : trimStart b.text = [] :=
    dropWhile_eq_nil_iff.mpr fun c hc => b.isWhitespace c hc
  rw [trim, hstart]
  rfl

theorem trim_append_blanks (h : s = [] ∨ Ends s) (b : Blanks) : trim (s ++ b.text) = s := by
  rcases h with rfl | h
  · exact trim_blanks b
  · exact trim_around (forall_mem_nil _) h b.isWhitespace

theorem text_cut : e.text = (e.before.text ++ e.addr.display.text) ++
    '<' :: (e.addr.uri ++ '>' :: (e.addr.paramsText ++ e.after.text)) := by
  simp only [Listed.text, NameAddr.text, append_assoc, cons_append]

/-- The text of an entry without white space around it. -/
theorem trim_text : trim e.text = trimStart (e.before.text ++ e.addr.display.text) ++
      '<' :: (e.addr.uri ++ '>' :: trimEnd (e.addr.paramsText ++ e.after.text)) := by
  rw [text_cut, trim, Caller.trimStart_append_cons (by decide),
    Caller.trimEnd_append_cons (by decide), Caller.trimEnd_append_cons (by decide)]

/-! ## The brackets of the URI -/

theorem nameAddrLoop_plain (h : ∀ c ∈ s, c ≠ '"' ∧ c ≠ '<' ∧ c ≠ '>')
    (start : Option ℕ) (index : ℕ) (rest : Str) : nameAddrLoop false false start index (s ++ rest) =
      nameAddrLoop false false start (index + s.length) rest := by
  induction s generalizing index with
  | nil => rfl
  | cons c s ih =>
    obtain ⟨⟨hquote, hopen, hclose⟩, hs⟩ := forall_mem_cons.mp h
    rw [cons_append, nameAddrLoop]
    simp only [hquote, hopen, hclose, false_eq_true, decide_false, Bool.false_and,
      Bool.and_false, if_false]
    rw [ih hs, length_cons, Nat.add_assoc, Nat.add_comm 1]

theorem nameAddrLoop_quoted {q : Str} (h : Quoted q) (start : Option ℕ) (index : ℕ) (rest : Str) :
    nameAddrLoop true false start index (q ++ rest) =
      nameAddrLoop true false start (index + q.length) rest := by
  induction h generalizing index with
  | nil => rfl
  | @escaped c s _ ih =>
    have hescape : nameAddrLoop true false start index ('\\' :: c :: (s ++ rest)) =
        nameAddrLoop true false start (index + 1 + 1) (s ++ rest) := rfl
    rw [cons_append, cons_append, hescape, ih, length_cons, length_cons]
    congr 1
    omega
  | @char c s hquote hescape _ ih =>
    rw [cons_append, nameAddrLoop]
    simp only [hquote, hescape, false_eq_true, decide_false, Bool.false_and, Bool.and_false,
      Bool.not_true, if_false]
    rw [ih, length_cons, Nat.add_assoc, Nat.add_comm 1]

/-- A display name holds no bracket outside its quotes. -/
theorem nameAddrLoop_display (before : Blanks) (d : Display) (rest : Str) :
    nameAddrLoop false false none 0 (trimStart (before.text ++ d.text) ++ rest) =
      nameAddrLoop false false none (trimStart (before.text ++ d.text)).length rest := by
  have hclass : ∀ {c : Char}, isTokenChar c = true ∨ isBlank c = true →
      c ≠ '"' ∧ c ≠ '<' ∧ c ≠ '>' := by
    intro c hc
    refine ⟨fun h => ?_, fun h => ?_, fun h => ?_⟩ <;>
    · rw [h] at hc
      exact absurd hc (by decide)
  cases d with
  | plain text all =>
    rw [nameAddrLoop_plain fun c hc => ?_, Nat.zero_add]
    rcases mem_append.mp ((dropWhile_suffix _).mem hc) with hc | hc
    · exact hclass (Or.inr (before.all c hc))
    · exact hclass (all c hc)
  | quoted chars after =>
    have hstart : trimStart (before.text ++ (Display.quoted chars after).text) =
        (Display.quoted chars after).text := by
      rw [trimStart, dropWhile_append_of_pos before.isWhitespace]
      exact dropWhile_cons_of_neg (by decide)
    have hopen : ∀ more, nameAddrLoop false false none 0 ('"' :: more) =
        nameAddrLoop true false none 1 more := fun _ => rfl
    have hclose : ∀ index more, nameAddrLoop true false none index ('"' :: more) =
        nameAddrLoop false false none (index + 1) more := fun _ _ => rfl
    rw [hstart, Display.text, cons_append, append_assoc, cons_append, hopen,
      nameAddrLoop_quoted (quoted_text chars), hclose,
      nameAddrLoop_plain fun c hc => hclass (Or.inr (after.all c hc))]
    congr 1
    simp only [length_cons, length_append]
    omega

/-- The brackets that are found are those of the URI. -/
theorem nameAddrRange_text : ∃ start stop, nameAddrRange (trim e.text) =
      some (start, stop) ∧
    (trim e.text).drop (stop + 1) = trimEnd (e.addr.paramsText ++ e.after.text) := by
  have hopen : ∀ index more, nameAddrLoop false false none index ('<' :: more) =
      nameAddrLoop false false (some index) (index + 1) more := fun _ _ => rfl
  have hclose : ∀ start index more, nameAddrLoop false false (some start) index ('>' :: more) =
      some (start, index) := fun _ _ _ => rfl
  have huri : ∀ c ∈ e.addr.uri, c ≠ '"' ∧ c ≠ '<' ∧ c ≠ '>' := fun c hc => by
    have hc := e.addr.uri_all c hc
    simp only [isUriChar, and_eq_true, bne_iff_ne] at hc
    exact ⟨hc.2, hc.1.1.2, hc.1.2⟩
  have hdisplay := nameAddrLoop_display e.before e.addr.display
  rw [trim_text]
  generalize trimStart (e.before.text ++ e.addr.display.text) = display at hdisplay ⊢
  refine ⟨display.length, display.length + 1 + e.addr.uri.length, ?_, ?_⟩
  · rw [nameAddrRange, hdisplay, hopen, nameAddrLoop_plain huri, hclose]
  · rw [← cons_append, ← append_assoc, append_cons]
    refine drop_left' ?_
    simp only [length_append, length_cons, length_nil]
    omega

/-! ## Parameters -/

/-- The pieces between the semicolons of some parameters behind a text. -/
def paramPieces (lead : Str) : List AddrParam → List Str
  | [] => [lead]
  | p :: params => (lead ++ p.before.text) :: paramPieces (paramBody p) params

theorem delimited_paramPieces (lead : Str) (params : List AddrParam) :
    delimited ';' (paramPieces lead params) = lead ++ params.flatMap AddrParam.text := by
  induction params generalizing lead with
  | nil => exact (append_nil lead).symm
  | cons p params ih =>
    have hpieces : ∃ piece pieces, paramPieces (paramBody p) params = piece :: pieces := by
      cases params with
      | nil => exact ⟨_, _, rfl⟩
      | cons next params => exact ⟨_, _, rfl⟩
    obtain ⟨piece, pieces, heq⟩ := hpieces
    have htext : p.text = p.before.text ++ ';' :: paramBody p := rfl
    rw [paramPieces, heq, delimited, ← heq, ih, flatMap_cons, htext]
    simp only [append_assoc, cons_append]

theorem paramPieces_balanced {lead : Str} (hlead : Balanced ';' false u16Max lead)
    (params : List AddrParam) :
    ∀ piece ∈ paramPieces lead params, Balanced ';' false u16Max piece := by
  induction params generalizing lead with
  | nil => exact forall_mem_singleton.mpr hlead
  | cons p params ih =>
    rw [paramPieces, forall_mem_cons]
    exact ⟨hlead.append (balanced_of_class isBlank (by decide) p.before.all),
      ih (paramBody_balanced (Or.inr rfl) p)⟩

/-- A value without quotes and brackets around it. -/
def bareValue (value : Str) : Str :=
  trimEndMatches (· = '>') ((trimMatches '"' value).dropWhile (· = '<'))

/-- The value of a parameter, without quotes and brackets around it. -/
def paramValue (p : AddrParam) : Option Str :=
  match p.value with
  | none => none
  | some (.inl chars) => some (bareValue ('"' :: (quotedText chars ++ ['"'])))
  | some (.inr value) => some (bareValue value.1)

/-- The value that the parameter has if it is the one of that name. -/
def namedParam (wanted : Str) (p : AddrParam) : Option Str :=
  if eqIgnoreAsciiCase p.name.text wanted then paramValue p else none

/-- The value of the only parameter of that name. -/
def ownParameter (params : List AddrParam) (wanted : Str) : Option Str :=
  match params.filterMap (namedParam wanted) with
  | [value] => some value
  | _ => none

/-- What `contact_parameter` takes from a piece. -/
def pieceValue (wanted piece : Str) : Option Str :=
  (splitOnce '=' piece).bind fun (name, value) =>
    if eqIgnoreAsciiCase (trim name) wanted then some (bareValue (trim value)) else none

theorem ends_value (chars : List QuotedChar) : Ends ('"' :: (quotedText chars ++ ['"'])) := by
  have hquote : Ends ['"'] := ⟨cons_ne_nil _ _, by decide, by decide⟩
  exact hquote.append (quotedText chars) hquote

theorem ends_plain (h : ∀ c ∈ s, isValueChar c = true) : s = [] ∨ Ends s := by
  have hvisible : ∀ c ∈ s, isWhitespace c = false := fun c hc => by
    have hc := h c hc
    simp only [isValueChar, isUriChar, and_eq_true, not_eq_true'] at hc
    exact hc.1.1.1.1.1.1
  by_cases hne : s = []
  · exact Or.inl hne
  · exact Or.inr ⟨hne, hvisible _ (head_mem hne), hvisible _ (getLast_mem hne)⟩

/-- **One parameter.** Its piece gives its value, under its name. -/
theorem pieceValue_body (wanted : Str) (p : AddrParam) (blanks : Blanks) :
    pieceValue wanted (paramBody p ++ blanks.text) = namedParam wanted p := by
  have hblanks : ∀ b : Blanks, '=' ∉ b.text := fun b hmem => absurd (b.all _ hmem) (by decide)
  have htoken : '=' ∉ p.name.text := fun hmem => absurd (p.name.all _ hmem) (by decide)
  have hfront : '=' ∉ p.after.text ++ p.name.text := by
    rw [mem_append]
    exact not_or.mpr ⟨hblanks p.after, htoken⟩
  have hname : trim (p.after.text ++ p.name.text) = p.name.text := by
    have htrim :=
      @trim_around _ _ [] p.after.isWhitespace p.name.ends (forall_mem_nil _)
    rwa [append_nil] at htrim
  have hread : ∀ value : Str, value = [] ∨ Ends value →
      pieceValue wanted ((p.after.text ++ p.name.text) ++ '=' :: (value ++ blanks.text)) =
        if eqIgnoreAsciiCase p.name.text wanted then some (bareValue value) else none := by
    intro value hvalue
    rw [pieceValue, splitOnce_append _ hfront, Option.bind_some]
    dsimp only
    rw [hname, trim_append_blanks hvalue]
  rw [paramBody, namedParam, paramValue]
  cases p.value with
  | none =>
    rw [append_nil, pieceValue, splitOnce_none, ite_self]
    · rfl
    · rw [mem_append]
      exact not_or.mpr ⟨hfront, hblanks blanks⟩
  | some value =>
    cases value with
    | inl chars =>
      have hvalue := hread _ (Or.inr (ends_value chars))
      simp only [append_assoc, cons_append] at hvalue ⊢
      exact hvalue
    | inr value =>
      have hvalue := hread _ (ends_plain value.2)
      simp only [append_assoc, cons_append] at hvalue ⊢
      exact hvalue

theorem filterMap_paramPieces (wanted : Str) (p : AddrParam) (params : List AddrParam) :
    (paramPieces (paramBody p) params).filterMap (pieceValue wanted) =
      (p :: params).filterMap (namedParam wanted) := by
  induction params generalizing p with
  | nil =>
    have hlast := pieceValue_body wanted p ⟨[], forall_mem_nil _⟩
    rw [append_nil] at hlast
    rw [paramPieces, filterMap_cons, filterMap_cons, hlast]
    rfl
  | cons next params ih =>
    rw [paramPieces, filterMap_cons, pieceValue_body, ih]
    exact filterMap_cons.symm

theorem exists_ends (p : AddrParam) : ∃ a last, p.text = a ++ last ∧ Ends last := by
  have hequals : Ends ['='] := ⟨cons_ne_nil _ _, by decide, by decide⟩
  have hbody : ∃ last, paramBody p = p.after.text ++ last ∧ Ends last := by
    refine ⟨_, rfl, ?_⟩
    cases p.value with
    | none =>
      rw [append_nil]
      exact p.name.ends
    | some value =>
      cases value with
      | inl chars => exact p.name.ends.append ['='] (ends_value chars)
      | inr value =>
        rcases ends_plain value.2 with hempty | hends
        · dsimp only
          rw [hempty]
          exact p.name.ends.append [] hequals
        · exact p.name.ends.append ['='] hends
  obtain ⟨last, hlast, hends⟩ := hbody
  have htext : p.text = p.before.text ++ ';' :: paramBody p := rfl
  refine ⟨p.before.text ++ ';' :: p.after.text, last, ?_, hends⟩
  rw [htext, hlast, append_assoc, cons_append]

/-- The parameters end with a visible character. -/
theorem trimEnd_params (params : List AddrParam) (after : Blanks) :
    trimEnd (params.flatMap AddrParam.text ++ after.text) = params.flatMap AddrParam.text := by
  have hblanks : trimEnd after.text = [] :=
    rdropWhile_eq_nil_iff.mpr fun c hc => after.isWhitespace c hc
  have hcut : ∀ (a : Str) (c : Char), isWhitespace c = false →
      trimEnd ((a ++ [c]) ++ after.text) = a ++ [c] := by
    intro a c hc
    rw [append_assoc, singleton_append, Caller.trimEnd_append_cons hc, hblanks]
  rcases eq_nil_or_concat params with rfl | ⟨front, p, rfl⟩
  · exact hblanks
  · obtain ⟨a, last, htext, hends⟩ := exists_ends p
    rw [concat_eq_append, flatMap_append, flatMap_singleton, htext,
      ← dropLast_concat_getLast hends.ne_nil, ← append_assoc, ← append_assoc, hcut _ _ hends.last]

/-- **Parameters of a binding.** The one that is read is the binding's only one of that name. -/
theorem contactParameter_text (wanted : Str) :
    contactParameter (trim e.text) wanted = ownParameter e.addr.params wanted := by
  obtain ⟨start, stop, hrange, hdrop⟩ := nameAddrRange_text e
  have hparams : trimEnd (e.addr.paramsText ++ e.after.text) =
      delimited ';' (paramPieces [] e.addr.params) := by
    rw [delimited_paramPieces]
    exact trimEnd_params e.addr.params e.after
  have hsplit : splitSipParameters (delimited ';' (paramPieces [] e.addr.params)) =
      paramPieces [] e.addr.params :=
    splitSipDelimited_delimited (by decide) (by cases e.addr.params <;> exact cons_ne_nil _ _)
      (paramPieces_balanced .nil e.addr.params)
  have hvalues : ((paramPieces [] e.addr.params).drop 1).filterMap (pieceValue wanted) =
      e.addr.params.filterMap (namedParam wanted) := by
    cases e.addr.params with
    | nil => rfl
    | cons p params => exact filterMap_paramPieces wanted p params
  rw [contactParameter, hrange]
  dsimp only
  rw [hdrop, hparams, hsplit]
  change (match ((paramPieces [] e.addr.params).drop 1).filterMap (pieceValue wanted) with
    | [value] => some value
    | _ => none) = _
  rw [hvalues]
  rfl

end SimMaster.Register
