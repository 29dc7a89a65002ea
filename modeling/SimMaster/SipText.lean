import SimMaster.Utf8
import SimMaster.SipHeaders
import SimMaster.SipMessage

/-!
# Messages written line by line

A SIP message that is written as lines, an empty line and a body is read back as these lines: the
header block ends where the empty line was written, whatever the body, and the lines before it are
the ones that were written. The lines must not be empty and must not contain
line feeds.
-/

namespace SimMaster

open Rust List

/-- A line of a header block: not empty and without line feeds. -/
structure HeaderLine (line : Str) : Prop where
  ne_nil : line ≠ []
  lf_notMem : '\n' ∉ line

/-- The lines with line breaks between them. -/
def headerText : List Str → Str
  | [] => []
  | line :: rest => line ++ rest.flatMap (crlf ++ ·)

/-- The message with the header lines and the body. -/
def messageOf (lines : List Str) (body : Bytes) : Bytes :=
  asBytes (headerText lines) ++ (crlfCrlf ++ body)

/-! ## Octets -/

@[simp] theorem asBytes_nil : asBytes [] = [] := rfl

theorem asBytes_append (s t : Str) : asBytes (s ++ t) = asBytes s ++ asBytes t :=
  flatMap_append

variable {c : Char}

/-- An octet below 0x80 is a character of its own. -/
theorem toNat_of_mem_utf8Octets {b : UInt8} (h : b ∈ utf8Octets c)
    (hb : b.toNat < 0x80) : c.toNat = b.toNat := by
  have hscalar : c.toNat < 0xd800 ∨ 0xdfff < c.toNat ∧ c.toNat < 0x110000 := c.valid
  have hnat : ∀ x < 256, (UInt8.ofNat x).toNat = x := fun x hx => UInt8.toNat_ofNat_of_lt hx
  rw [utf8Octets] at h
  split_ifs at h with h1 h2 h3 <;> simp only [mem_cons, not_mem_nil, or_false] at h
  · rw [h, hnat _ (by omega)]
  · rcases h with rfl | rfl <;> rw [hnat _ (by omega)] at hb <;> omega
  · rcases h with rfl | rfl | rfl <;> rw [hnat _ (by omega)] at hb <;> omega
  · rcases h with rfl | rfl | rfl | rfl <;> rw [hnat _ (by omega)] at hb <;> omega

/-- A character below 0x80 that is not in a text is not among its octets. -/
theorem notMem_asBytes {s : Str} (hc : c.toNat < 0x80) (h : c ∉ s) :
    UInt8.ofNat c.toNat ∉ asBytes s := by
  intro hmem
  obtain ⟨d, hd, hoctet⟩ := mem_flatMap.mp hmem
  have hnat : (UInt8.ofNat c.toNat).toNat = c.toNat :=
    UInt8.toNat_ofNat_of_lt (hc.trans (by decide))
  have heq := toNat_of_mem_utf8Octets hoctet (by omega)
  rw [hnat] at heq
  have hchar : d = c := by rw [← Char.ofNat_toNat d, heq, Char.ofNat_toNat]
  exact h (hchar ▸ hd)

theorem utf8Octets_ne_nil (c : Char) : utf8Octets c ≠ [] := by
  obtain ⟨b, tail, hoctets, -⟩ := utf8Step_utf8Octets c
  rw [hoctets]
  exact cons_ne_nil b tail

variable {line : Str}

theorem HeaderLine.asBytes_ne_nil (h : HeaderLine line) : asBytes line ≠ [] := by
  intro hnil
  cases line with
  | nil => exact h.ne_nil rfl
  | cons c rest =>
    rw [asBytes, flatMap_cons, append_eq_nil_iff] at hnil
    exact utf8Octets_ne_nil c hnil.1

theorem HeaderLine.lf_notMem_asBytes (h : HeaderLine line) : 0x0a ∉ asBytes line :=
  notMem_asBytes (c := '\n') (by decide) h.lf_notMem

/-! ## The end of the header block -/

variable {data : Bytes}

/-- Octets without a line feed are passed over, if a line break comes after them. -/
theorem findSub_crlfCrlf_skip {rest : Bytes} (h : 0x0a ∉ data) :
    findSub crlfCrlf (data ++ 0x0d :: 0x0a :: rest) =
      (findSub crlfCrlf (0x0d :: 0x0a :: rest)).map (· + data.length) := by
  induction data with
  | nil => simp
  | cons x data ih =>
    rw [mem_cons, not_or] at h
    have hfirst : ¬crlfCrlf <+: x :: (data ++ 0x0d :: 0x0a :: rest) := by
      rintro ⟨tail, htail⟩
      have htail := (cons.inj htail).2
      cases data with
      | nil => exact absurd (cons.inj htail).1 (by decide)
      | cons y data => exact h.2 ((cons.inj htail).1 ▸ mem_cons_self)
    rw [cons_append, findSub, if_neg hfirst, ih h.2, Option.map_map]
    rfl

/-- A line break with more of the header after it is not the end of the header. -/
theorem findSub_crlf (h : ∀ rest, data ≠ 0x0d :: 0x0a :: rest) :
    findSub crlfCrlf (0x0d :: 0x0a :: data) = (findSub crlfCrlf data).map (· + 2) := by
  have hfirst : ¬ crlfCrlf <+: 0x0d :: 0x0a :: data := by
    rintro ⟨tail, htail⟩
    cases htail
    exact h _ rfl
  have hsecond : ¬ crlfCrlf <+: 0x0a :: data := by
    rintro ⟨tail, htail⟩
    cases htail
  rw [findSub, if_neg hfirst, findSub, if_neg hsecond, Option.map_map]
  rfl

/-- What is left of the header after a line, up to the empty line and the body. -/
theorem exists_crlf (rest : List Str) (body : Bytes) :
    ∃ more, asBytes (rest.flatMap (crlf ++ ·)) ++ (crlfCrlf ++ body) = 0x0d :: 0x0a :: more := by
  cases rest with
  | nil => exact ⟨_, rfl⟩
  | cons line rest => exact ⟨_, rfl⟩

variable {lines : List Str}

/-- The header block ends where the empty line was written. -/
theorem findSub_messageOf (hlines : ∀ line ∈ lines, HeaderLine line) (body : Bytes) :
    findSub crlfCrlf (messageOf lines body) = some (asBytes (headerText lines)).length := by
  have hrest : ∀ rest : List Str, (∀ line ∈ rest, HeaderLine line) →
      findSub crlfCrlf (asBytes (rest.flatMap (crlf ++ ·)) ++ (crlfCrlf ++ body)) =
        some (asBytes (rest.flatMap (crlf ++ ·))).length := by
    intro rest hrest
    induction rest with
    | nil => rfl
    | cons line rest ih =>
      obtain ⟨hline, hmore⟩ := forall_mem_cons.mp hrest
      have hlf := hline.lf_notMem_asBytes
      have hstart : ∀ tail more, asBytes line ++ 0x0d :: 0x0a :: more ≠ 0x0d :: 0x0a :: tail := by
        intro tail more heq
        cases hdata : asBytes line with
        | nil => exact hline.asBytes_ne_nil hdata
        | cons b data =>
          rw [hdata] at heq hlf
          cases data with
          | nil => cases heq
          | cons c data =>
            cases heq
            exact hlf (mem_cons_of_mem _ mem_cons_self)
      have hbreak : asBytes crlf = [0x0d, 0x0a] := rfl
      have hih := ih hmore
      obtain ⟨more, hcrlf⟩ := exists_crlf rest body
      rw [flatMap_cons, asBytes_append, asBytes_append, hbreak, append_assoc,
        append_assoc, cons_append, singleton_append]
      rw [hcrlf] at hih ⊢
      rw [findSub_crlf (hstart · _), findSub_crlfCrlf_skip hlf, hih]
      simp only [Option.map_some, length_append, length_cons, length_nil]
      congr 1
      omega
  cases lines with
  | nil => rfl
  | cons line rest =>
    obtain ⟨hline, hmore⟩ := forall_mem_cons.mp hlines
    have hih := hrest rest hmore
    obtain ⟨more, hcrlf⟩ := exists_crlf rest body
    rw [messageOf, headerText, asBytes_append, append_assoc]
    rw [hcrlf] at hih ⊢
    rw [findSub_crlfCrlf_skip hline.lf_notMem_asBytes, hih, Option.map_some, length_append,
      Nat.add_comm]

/-- The header block of a message that was written line by line, with its end. -/
theorem findHeaderEnd_messageOf (hlines : ∀ line ∈ lines, HeaderLine line) (body : Bytes) :
    findHeaderEnd (messageOf lines body) = some ((asBytes (headerText lines)).length + 4) := by
  rw [findHeaderEnd, findSub_messageOf hlines]
  rfl

/-! ## The lines -/

variable {rest : Str}

theorem splitInclusive_line (h : '\n' ∉ line) :
    splitInclusive '\n' (line ++ '\n' :: rest) = (line ++ ['\n']) :: splitInclusive '\n' rest := by
  induction line with
  | nil => simp [splitInclusive]
  | cons c line ih =>
    rw [mem_cons, not_or] at h
    rw [cons_append, splitInclusive, if_neg (Ne.symm h.1), ih h.2]
    rfl

/-- `lines` takes a line with its line break off the front. -/
theorem lines_cons (h : '\n' ∉ line) :
    Rust.lines (line ++ (crlf ++ rest)) = line :: Rust.lines rest := by
  have hcr : '\n' ∉ line ++ ['\r'] := by simp [h]
  have hsplit : line ++ (crlf ++ rest) = (line ++ ['\r']) ++ '\n' :: rest := by simp [crlf]
  rw [Rust.lines, hsplit, splitInclusive_line hcr, map_cons, Rust.lines]
  simp

/-- Every line but the last has its line break. -/
theorem lines_headerText (lines : List Str) (hlines : ∀ line ∈ lines, HeaderLine line)
    (hne : lines ≠ []) : Rust.lines (headerText lines ++ (crlf ++ crlf)) = lines ++ [[]] := by
  have hrest : ∀ rest : List Str, (∀ line ∈ rest, HeaderLine line) →
      ∀ line, '\n' ∉ line → Rust.lines (line ++ (rest.flatMap (crlf ++ ·) ++ (crlf ++ crlf))) =
        line :: rest ++ [[]] := by
    intro rest
    induction rest with
    | nil =>
      intro _ line hline
      rw [flatMap_nil, nil_append, lines_cons hline]
      rfl
    | cons next rest ih =>
      intro hrest line hline
      obtain ⟨hnext, hmore⟩ := forall_mem_cons.mp hrest
      rw [flatMap_cons, append_assoc, append_assoc, lines_cons hline, ih hmore next hnext.lf_notMem]
      rfl
  cases lines with
  | nil => exact absurd rfl hne
  | cons line rest =>
    obtain ⟨hline, hmore⟩ := forall_mem_cons.mp hlines
    rw [headerText, append_assoc]
    exact hrest rest hmore line hline.lf_notMem

/-- The header lines of a message are those that were written, and the empty line. -/
theorem headerLines_messageOf (hlines : ∀ line ∈ lines, HeaderLine line)
    (hne : lines ≠ []) (body : Bytes) : headerLines (messageOf lines body) = lines ++ [[]] := by
  have hblock : (messageOf lines body).take ((asBytes (headerText lines)).length + 4) =
      asBytes (headerText lines ++ (crlf ++ crlf)) := by
    rw [messageOf, ← append_assoc, asBytes_append]
    exact take_left' (by rw [length_append]; rfl)
  rw [headerLines, findHeaderEnd_messageOf hlines]
  dsimp only
  rw [hblock, fromUtf8Lossy_asBytes, lines_headerText lines hlines hne]

theorem headerValuesLoop_unfolded (name : Str) (current : Option Str)
    (hlines : ∀ line ∈ lines, isFolded line = false) : headerValuesLoop name current lines =
      current.toList ++ lines.filterMap fun line => (fieldOf line).bind (namedValue name) := by
  induction lines generalizing current with
  | nil => simp [headerValuesLoop]
  | cons line rest ih =>
    obtain ⟨hline, hmore⟩ := forall_mem_cons.mp hlines
    rw [headerValuesLoop, hline, if_neg (by decide), ih _ hmore]
    cases hvalue : (fieldOf line).bind (namedValue name) with
    | none => rw [filterMap_cons_none (by rw [hvalue])]; rfl
    | some value => rw [filterMap_cons_some (by rw [hvalue])]; rfl

/-- The values of a header in a message without folded lines. -/
theorem headerValues_messageOf (hlines : ∀ line ∈ lines, HeaderLine line)
    (hunfolded : ∀ line ∈ lines, isFolded line = false) (hne : lines ≠ []) (body : Bytes)
    (name : Str) : headerValues (messageOf lines body) name =
      lines.filterMap fun line => (fieldOf line).bind (namedValue name) := by
  have hall : ∀ line ∈ lines ++ [[]], isFolded line = false := by
    intro line hline
    rcases mem_append.mp hline with hline | hline
    · exact hunfolded line hline
    · rw [mem_singleton.mp hline]
      rfl
  rw [headerValues, headerLines_messageOf hlines hne, headerValuesLoop_unfolded name none hall,
    filterMap_append]
  exact append_nil _

theorem splitCrlf_cons {piece : Str} {pieces : List Str}
    (hrest : ∀ rest', rest ≠ '\n' :: rest') (h : splitCrlf rest = piece :: pieces) :
    splitCrlf (c :: rest) = (c :: piece) :: pieces := by
  rw [splitCrlf, h]
  rintro rest' - heq
  exact hrest _ heq

/-- `split("\r\n")` gives back the lines. -/
theorem splitCrlf_headerText (lines : List Str) (hlines : ∀ line ∈ lines, HeaderLine line)
    (hne : lines ≠ []) : splitCrlf (headerText lines) = lines := by
  have hpiece : ∀ (line : Str) (rest : Str) (pieces : List Str), '\n' ∉ line →
      (∀ rest', rest ≠ '\n' :: rest') →
      splitCrlf rest = [] :: pieces → splitCrlf (line ++ rest) = line :: pieces := by
    intro line rest pieces hline hstart hrest
    induction line with
    | nil => exact hrest
    | cons c line ih =>
      rw [mem_cons, not_or] at hline
      refine splitCrlf_cons (fun rest' heq => ?_) (ih hline.2)
      cases line with
      | nil => exact hstart _ heq
      | cons d line =>
        cases heq
        exact hline.2 mem_cons_self
  have hbreak : ∀ (rest : List Str) (rest' : Str), rest.flatMap (crlf ++ ·) ≠ '\n' :: rest' := by
    intro rest rest' heq
    cases rest with
    | nil => cases heq
    | cons line rest => cases heq
  have hrest : ∀ rest : List Str, (∀ line ∈ rest, HeaderLine line) →
      splitCrlf (rest.flatMap (crlf ++ ·)) = [] :: rest := by
    intro rest hrest
    induction rest with
    | nil => rfl
    | cons line rest ih =>
      obtain ⟨hline, hmore⟩ := forall_mem_cons.mp hrest
      have hsplit := hpiece line _ rest hline.lf_notMem (hbreak rest) (ih hmore)
      rw [flatMap_cons, append_assoc]
      exact congrArg ([] :: ·) hsplit
  cases lines with
  | nil => exact absurd rfl hne
  | cons line rest =>
    obtain ⟨hline, hmore⟩ := forall_mem_cons.mp hlines
    exact hpiece line _ rest hline.lf_notMem (hbreak rest) (hrest rest hmore)

end SimMaster
