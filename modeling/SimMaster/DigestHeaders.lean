import SimMaster.DigestReading
import SimMaster.Utf8Decode

/-!
# Header blocks

A header block is a start line and fields, each a name, a content and the lines it is continued on;
on the wire each line has one of the two line ends, and an empty line comes last. A frame begins
with one block at most (`Begins.unique`), and what `auth_headers` gives for a frame are the
authentication fields of this block, unfolded (`authHeaders_sound`).
-/

namespace SimMaster.ResponseAuth

open Rust Digest List

/-! ## Blocks -/

/-- What a line consists of. -/
def isLineChar (c : Char) : Bool := !(isControl c && c != '\t')

/-- A header field as it is written. -/
structure HeaderField where
  name : Token
  gap : Blanks
  content : Str
  folds : List Str
  content_all : ∀ c ∈ content, isLineChar c = true
  folds_all : ∀ fold ∈ folds, fold.head?.any isBlank = true ∧ ∀ c ∈ fold, isLineChar c = true

/-- What the continuation lines add to the value: each a blank, and its text without the blanks at
its front. -/
def unfolded (folds : List Str) : Str := folds.flatMap fun fold => ' ' :: skipBlanks fold

namespace HeaderField

def firstLine (f : HeaderField) : Str := f.name.text ++ (f.gap.text ++ ':' :: f.content)

def lines (f : HeaderField) : List Str := f.firstLine :: f.folds

/-- The value on one line. -/
def value (f : HeaderField) : Str := skipBlanks f.content ++ unfolded f.folds

end HeaderField

structure HeaderBlock where
  start : Str
  start_ne_nil : start ≠ []
  start_all : ∀ c ∈ start, isControl c = false
  fields : List HeaderField

/-- The lines of the block, with the empty one. -/
def HeaderBlock.lines (b : HeaderBlock) : List Str :=
  b.start :: (b.fields.flatMap HeaderField.lines ++ [[]])

/-- The text of lines with their line ends. -/
inductive Wired : List Str → Str → Prop
  | nil : Wired [] []
  | lf {line text : Str} {lines : List Str} :
      Wired lines text → Wired (line :: lines) (line ++ '\n' :: text)
  | crlf {line text : Str} {lines : List Str} :
      Wired lines text → Wired (line :: lines) (line ++ '\r' :: '\n' :: text)

/-- The frame begins with the block. -/
def Begins (frame : Bytes) (block : HeaderBlock) : Prop :=
  ∃ text body, Wired block.lines text ∧ frame = asBytes text ++ body

/-- A field of one of the two names: whether it is the proxy's, and its value. -/
def familyField (originName proxyName : Str) (f : HeaderField) : Option (Bool × Str) :=
  if eqIgnoreAsciiCase f.name.text originName || eqIgnoreAsciiCase f.name.text proxyName then
    some (eqIgnoreAsciiCase f.name.text proxyName, f.value)
  else none

/-- The fields of the two names, in order. -/
def HeaderBlock.family (b : HeaderBlock) (originName proxyName : Str) : List (Bool × Str) :=
  b.fields.filterMap (familyField originName proxyName)

/-! ## Lines -/

/-- A line that is not the empty one: it holds no line end. -/
structure BlockLine (line : Str) : Prop where
  ne_nil : line ≠ []
  noLf : '\n' ∉ line
  noCr : '\r' ∉ line

variable {line : Str}

theorem not_mem_of_isLineChar (h : ∀ c ∈ line, isLineChar c = true) : '\n' ∉ line ∧ '\r' ∉ line :=
  ⟨fun hmem => absurd (h _ hmem) (by decide), fun hmem => absurd (h _ hmem) (by decide)⟩

variable {c : Char}

theorem isLineChar_of_token (h : isTokenChar c = true) : isLineChar c = true := by
  have hbounds := toNat_of_isTokenChar h
  have hcontrol : isControl c = false := by
    rw [isControl, Bool.or_eq_false_iff, Bool.and_eq_false_iff, decide_eq_false_iff_not,
      decide_eq_false_iff_not, decide_eq_false_iff_not]
    omega
  rw [isLineChar, hcontrol]
  rfl

theorem isLineChar_of_blank (h : isBlank c = true) : isLineChar c = true := by
  rw [isBlank, Bool.or_eq_true, decide_eq_true_iff, decide_eq_true_iff] at h
  rcases h with rfl | rfl <;> decide

theorem HeaderField.firstLine_all (f : HeaderField) : ∀ c ∈ f.firstLine, isLineChar c = true := by
  intro c hc
  rw [firstLine, mem_append, mem_append, mem_cons] at hc
  rcases hc with hc | hc | rfl | hc
  · exact isLineChar_of_token (f.name.all c hc)
  · exact isLineChar_of_blank (f.gap.all c hc)
  · decide
  · exact f.content_all c hc

theorem HeaderField.blockLine (f : HeaderField) : ∀ line ∈ f.lines, BlockLine line := by
  intro line hline
  rcases mem_cons.mp hline with rfl | hfold
  · obtain ⟨hlf, hcr⟩ := not_mem_of_isLineChar f.firstLine_all
    exact ⟨append_ne_nil_of_left_ne_nil f.name.ne_nil _, hlf, hcr⟩
  · obtain ⟨hhead, hall⟩ := f.folds_all line hfold
    obtain ⟨hlf, hcr⟩ := not_mem_of_isLineChar hall
    refine ⟨fun heq => ?_, hlf, hcr⟩
    rw [heq] at hhead
    cases hhead

/-- The lines of a block: those that hold something, and the empty one. -/
theorem HeaderBlock.lines_split (b : HeaderBlock) :
    ∃ lines, b.lines = lines ++ [[]] ∧ ∀ line ∈ lines, BlockLine line := by
  refine ⟨b.start :: b.fields.flatMap HeaderField.lines, rfl, fun line hline => ?_⟩
  rcases mem_cons.mp hline with rfl | hline
  · have hline : ∀ c, isControl c = true → c ∉ b.start := fun c hc hmem => by
      rw [b.start_all c hmem] at hc
      cases hc
    exact ⟨b.start_ne_nil, hline _ (by decide), hline _ (by decide)⟩
  · obtain ⟨f, -, hline⟩ := mem_flatMap.mp hline
    exact f.blockLine line hline

/-! ## One block at most -/

/-- A list is cut in one way at the first place of an element. -/
theorem first_cut_unique {α : Type} {b : α} {s s' t t' : List α}
    (h : s ++ b :: t = s' ++ b :: t') (hs : b ∉ s) (hs' : b ∉ s') : s = s' ∧ t = t' := by
  induction s generalizing s' with
  | nil =>
    cases s' with
    | nil => exact ⟨rfl, (cons.inj h).2⟩
    | cons d s' => exact absurd ((cons.inj h).1 ▸ mem_cons_self) hs'
  | cons d s ih =>
    cases s' with
    | nil => exact absurd ((cons.inj h).1 ▸ mem_cons_self) hs
    | cons e s' =>
      obtain ⟨rfl, hrest⟩ := cons.inj h
      obtain ⟨rfl, ht⟩ := ih hrest (fun hmem => hs (mem_cons_of_mem _ hmem))
        (fun hmem => hs' (mem_cons_of_mem _ hmem))
      exact ⟨rfl, ht⟩

theorem asBytes_inj {s t : Str} (h : asBytes s = asBytes t) : s = t := by
  rw [← Option.some_inj, ← fromUtf8_asBytes s, ← fromUtf8_asBytes t, h]

variable {lines : List Str} {text : Str}

/-- The first line and its end. -/
theorem Wired.uncons (h : Wired (line :: lines) text) :
    ∃ raw rest, text = raw ++ '\n' :: rest ∧ (raw = line ∨ raw = line ++ ['\r']) ∧
      Wired lines rest := by
  cases h with
  | lf h => exact ⟨line, _, rfl, Or.inl rfl, h⟩
  | crlf h =>
    refine ⟨line ++ ['\r'], _, ?_, Or.inr rfl, h⟩
    rw [append_assoc, singleton_append]

variable {raw : Str}

theorem not_mem_raw (hlf : '\n' ∉ line) (h : raw = line ∨ raw = line ++ ['\r']) : '\n' ∉ raw := by
  rcases h with rfl | rfl
  · exact hlf
  · rw [mem_append, mem_singleton]
    exact not_or.mpr ⟨hlf, by decide⟩

theorem raw_unique {line' : Str} (hcr : '\r' ∉ line) (hcr' : '\r' ∉ line')
    (h : raw = line ∨ raw = line ++ ['\r']) (h' : raw = line' ∨ raw = line' ++ ['\r']) :
    line = line' := by
  have hmem : ∀ s : Str, '\r' ∈ s ++ ['\r'] := fun s => mem_append_right s mem_cons_self
  rcases h with rfl | rfl <;> rcases h' with h' | h'
  · exact h'
  · exact absurd (h' ▸ hmem line') hcr
  · exact absurd (h' ▸ hmem line) hcr'
  · exact append_cancel_right h'

/-- Octets begin with one row of lines up to an empty one at most. -/
theorem lines_unique {lines' : List Str} (hlines : ∀ line ∈ lines, BlockLine line)
    (hlines' : ∀ line ∈ lines', BlockLine line) {text' : Str} {body body' : Bytes}
    (h : Wired (lines ++ [[]]) text) (h' : Wired (lines' ++ [[]]) text')
    (heq : asBytes text ++ body = asBytes text' ++ body') : lines = lines' := by
  have hempty : '\n' ∉ ([] : Str) ∧ '\r' ∉ ([] : Str) := ⟨not_mem_nil, not_mem_nil⟩
  -- the first lines of both are the same, and so are the octets behind them
  have hfirst : ∀ {line line' : Str} {rest rest' : List Str} {text text' : Str},
      Wired (line :: rest) text → Wired (line' :: rest') text' →
      ('\n' ∉ line ∧ '\r' ∉ line) → ('\n' ∉ line' ∧ '\r' ∉ line') →
      asBytes text ++ body = asBytes text' ++ body' →
      line = line' ∧ ∃ more more', Wired rest more ∧ Wired rest' more' ∧
        asBytes more ++ body = asBytes more' ++ body' := by
    intro line line' rest rest' text text' h h' hline hline' heq
    obtain ⟨raw, more, rfl, hraw, hmore⟩ := h.uncons
    obtain ⟨raw', more', rfl, hraw', hmore'⟩ := h'.uncons
    have hlf : asBytes ['\n'] = [0x0a] := by decide
    have hcons : ∀ s : Str, asBytes ('\n' :: s) = 0x0a :: asBytes s := fun s => by
      rw [← singleton_append, asBytes_append, hlf, singleton_append]
    rw [asBytes_append, asBytes_append, hcons, hcons, append_assoc, append_assoc,
      cons_append, cons_append] at heq
    obtain ⟨hfront, hback⟩ := first_cut_unique heq
      (notMem_asBytes (c := '\n') (by decide) (not_mem_raw hline.1 hraw))
      (notMem_asBytes (c := '\n') (by decide) (not_mem_raw hline'.1 hraw'))
    rw [asBytes_inj hfront] at hraw
    exact ⟨raw_unique hline.2 hline'.2 hraw hraw', more, more', hmore, hmore', hback⟩
  induction lines generalizing lines' text text' with
  | nil =>
    cases lines' with
    | nil => rfl
    | cons line' lines' =>
      have hline' := hlines' line' mem_cons_self
      obtain ⟨hsame, -⟩ := hfirst h h' hempty ⟨hline'.noLf, hline'.noCr⟩ heq
      exact absurd hsame.symm hline'.ne_nil
  | cons line lines ih =>
    have hline := hlines line mem_cons_self
    cases lines' with
    | nil =>
      obtain ⟨hsame, -⟩ := hfirst h h' ⟨hline.noLf, hline.noCr⟩ hempty heq
      exact absurd hsame hline.ne_nil
    | cons line' lines' =>
      have hline' := hlines' line' mem_cons_self
      obtain ⟨rfl, more, more', hmore, hmore', hback⟩ :=
        hfirst h h' ⟨hline.noLf, hline.noCr⟩ ⟨hline'.noLf, hline'.noCr⟩ heq
      rw [ih (fun line hmem => hlines line (mem_cons_of_mem _ hmem))
        (fun line hmem => hlines' line (mem_cons_of_mem _ hmem)) hmore hmore' hback]

/-- A first line belongs to one field. -/
theorem HeaderField.ext_lines {f f' : HeaderField} (hfirst : f.firstLine = f'.firstLine)
    (hfolds : f.folds = f'.folds) : f = f' := by
  have hcolon : ∀ f : HeaderField, ':' ∉ f.name.text ++ f.gap.text := fun f hmem => by
    rcases mem_append.mp hmem with hmem | hmem
    · exact absurd (f.name.all _ hmem) (by decide)
    · exact absurd (f.gap.all _ hmem) (by decide)
  have hname : ∀ f : HeaderField, (f.name.text ++ f.gap.text).takeWhile isTokenChar = f.name.text :=
    fun f => f.name.takeWhile_append fun c hc =>
      (@not_token_of_stops f.gap.text fun c hc => Or.inr (f.gap.all c (mem_of_head? hc))) c hc
  rw [firstLine, firstLine, ← append_assoc, ← append_assoc] at hfirst
  obtain ⟨hfront, hcontent⟩ := first_cut_unique hfirst (hcolon f) (hcolon f')
  have hnames : f.name.text = f'.name.text := by rw [← hname f, hfront, hname f']
  rw [hnames] at hfront
  have hgap := append_cancel_left hfront
  obtain ⟨⟨name, _, _⟩, ⟨gap, _⟩, content, folds, _, _⟩ := f
  obtain ⟨⟨name', _, _⟩, ⟨gap', _⟩, content', folds', _, _⟩ := f'
  subst hnames hgap hcontent hfolds
  rfl

/-- Lines are cut into fields in one way. -/
theorem fields_unique {fields fields' : List HeaderField}
    (h : fields.flatMap HeaderField.lines = fields'.flatMap HeaderField.lines) :
    fields = fields' := by
  have hstop : ∀ fields : List HeaderField,
      (fields.flatMap HeaderField.lines).takeWhile (fun line => line.head?.any isBlank) = [] := by
    intro fields
    cases fields with
    | nil => rfl
    | cons f fields =>
      have hhead : f.firstLine.head?.any isBlank = false := by
        cases hname : f.name.text with
        | nil => exact absurd hname f.name.ne_nil
        | cons c text =>
          have hc : isTokenChar c = true := f.name.all c (hname ▸ mem_cons_self)
          rw [HeaderField.firstLine, hname, cons_append, head?_cons, Option.any_some]
          exact isBlank_eq_false (toNat_of_isTokenChar hc).1
      exact takeWhile_cons_of_neg (by rw [hhead]; decide)
  have hfolds : ∀ (f : HeaderField) (fields : List HeaderField),
      (f.folds ++ fields.flatMap HeaderField.lines).takeWhile
        (fun line => line.head?.any isBlank) = f.folds := by
    intro f fields
    rw [takeWhile_append_of_pos fun fold hfold => (f.folds_all fold hfold).1, hstop, append_nil]
  induction fields generalizing fields' with
  | nil =>
    cases fields' with
    | nil => rfl
    | cons f' fields' => cases h
  | cons f fields ih =>
    cases fields' with
    | nil => cases h
    | cons f' fields' =>
      rw [flatMap_cons, flatMap_cons, HeaderField.lines, HeaderField.lines,
        cons_append, cons_append] at h
      obtain ⟨hfirst, hrest⟩ := cons.inj h
      have hsame : f.folds = f'.folds := by rw [← hfolds f fields, hrest, hfolds]
      obtain rfl := HeaderField.ext_lines hfirst hsame
      rw [ih (append_cancel_left hrest)]

/-- **One block.** A frame begins with one header block at most. -/
theorem Begins.unique {frame : Bytes} {block block' : HeaderBlock} (h : Begins frame block)
    (h' : Begins frame block') : block = block' := by
  obtain ⟨text, body, hwired, rfl⟩ := h
  obtain ⟨text', body', hwired', heq⟩ := h'
  obtain ⟨lines, hlines, hblock⟩ := block.lines_split
  obtain ⟨lines', hlines', hblock'⟩ := block'.lines_split
  rw [hlines] at hwired
  rw [hlines'] at hwired'
  have hsame := lines_unique hblock hblock' hwired hwired' heq
  rw [hsame, ← hlines', HeaderBlock.lines, HeaderBlock.lines] at hlines
  obtain ⟨hstart, hfields⟩ := cons.inj hlines
  have hsameFields := fields_unique (append_cancel_right hfields)
  obtain ⟨start, _, _, fields⟩ := block
  obtain ⟨start', _, _, fields'⟩ := block'
  subst hstart hsameFields
  rfl

end SimMaster.ResponseAuth
