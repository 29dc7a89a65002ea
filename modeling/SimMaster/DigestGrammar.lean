import SimMaster.DigestChallenge
import SimMaster.SipContentLength

/-!
# Well-formed challenges

The grammar of `WWW-Authenticate` and `Proxy-Authenticate` values, as data that cannot be ill formed
and its text: a challenge names a scheme and gives its parameters, a Digest challenge always some,
and a field value is a list of challenges. Between two challenges there stands what stands between
two parameters, a comma with blanks around it.

Seen so, a field value is a list of items: a scheme with what follows it up to the next comma, or a
parameter. A text is `Closed` if the splitting loop goes through it without ending a challenge or
staying inside quotes; the text of every item is (`Item.closed`).
-/

namespace SimMaster.Digest

open Rust List Option Bool

/-! ## Grammar -/

/-- What an unquoted value consists of. -/
def isPlainChar (c : Char) : Bool :=
  0x21 ≤ c.toNat && c.toNat ≤ 0x7e && c != ',' && c != '"' && c != '\\'

/-- What a quoted value consists of. -/
def isTextChar (c : Char) : Bool := c = '\t' || (0x20 ≤ c.toNat && c.toNat != 0x7f)

def isToken68Char (c : Char) : Bool := isAsciiAlphanumeric c || "-._~+/".toList.contains c

structure Token where
  text : Str
  ne_nil : text ≠ []
  all : ∀ c ∈ text, isTokenChar c = true

structure Blanks where
  text : Str
  all : ∀ c ∈ text, isBlank c = true

def Blanks.empty : Blanks := ⟨[], nofun⟩

/-- What parts two parameters or two challenges. -/
structure Separator where
  before : Blanks
  after : Blanks

def Separator.text (s : Separator) : Str := s.before.text ++ ',' :: s.after.text

/-- A character of a quoted value, with a backslash before it or not. -/
structure QuotedChar where
  escaped : Bool
  char : Char
  isText : isTextChar char = true
  unescaped : escaped = false → char ≠ '"' ∧ char ≠ '\\'

def QuotedChar.text (q : QuotedChar) : Str := if q.escaped then ['\\', q.char] else [q.char]

inductive ParamValue where
  | plain (text : Str) (ne_nil : text ≠ []) (all : ∀ c ∈ text, isPlainChar c = true)
  | quoted (chars : List QuotedChar)

namespace ParamValue

/-- What the value stands for. -/
def value : ParamValue → Str
  | plain text _ _ => text
  | quoted chars => chars.map QuotedChar.char

def text : ParamValue → Str
  | plain text _ _ => text
  | quoted chars => '"' :: (chars.flatMap QuotedChar.text ++ ['"'])

end ParamValue

structure AuthParam where
  name : Token
  before : Blanks
  after : Blanks
  value : ParamValue

namespace AuthParam

def text (p : AuthParam) : Str :=
  p.name.text ++ (p.before.text ++ '=' :: (p.after.text ++ p.value.text))

/-- The parameter as it is read. -/
def entry (p : AuthParam) : Str × Str := (toAsciiLowercase p.name.text, p.value.value)

end AuthParam

/-- The blanks after a scheme. -/
structure Space extends Blanks where
  ne_nil : text ≠ []

def IsDigest (scheme : Token) : Prop := eqIgnoreAsciiCase scheme.text "Digest".toList = true

instance (scheme : Token) : Decidable (IsDigest scheme) := inferInstanceAs (Decidable (_ = true))

/-- What follows the name of another scheme, up to the next comma. -/
inductive ForeignHead where
  | bare
  | token68 (space : Space) (text : Str) (ne_nil : text ≠ [])
      (all : ∀ c ∈ text, isToken68Char c = true) (pads : ℕ)
  | param (space : Space) (first : AuthParam)

def ForeignHead.text : ForeignHead → Str
  | bare => []
  | token68 space text _ _ pads => space.text ++ (text ++ replicate pads '=')
  | param space first => space.text ++ first.text

/-- The text between two commas outside quotes. -/
inductive Item where
  | digest (scheme : Token) (isDigest : IsDigest scheme) (space : Space) (first : AuthParam)
  | foreign (scheme : Token) (other : ¬IsDigest scheme) (head : ForeignHead)
  | param (p : AuthParam)

namespace Item

def text : Item → Str
  | digest scheme _ space first => scheme.text ++ (space.text ++ first.text)
  | foreign scheme _ head => scheme.text ++ head.text
  | param p => p.text

/-- The item is taken for the start of a Digest challenge: it is one, or a parameter named `digest`
with a blank after the name. -/
def opens : Item → Bool
  | digest .. => true
  | foreign .. => false
  | param p => decide (IsDigest p.name) && !p.before.text.isEmpty

end Item

/-- A challenge. One of another scheme may have parameters only if it begins with one. -/
inductive Challenge where
  | digest (scheme : Token) (isDigest : IsDigest scheme) (space : Space) (first : AuthParam)
      (rest : List (Separator × AuthParam))
  | foreign (scheme : Token) (other : ¬IsDigest scheme) (head : ForeignHead)
      (rest : List (Separator × AuthParam))
      (params : rest ≠ [] → ∃ space first, head = .param space first)

namespace Challenge

def head : Challenge → Item
  | digest scheme isDigest space first _ => .digest scheme isDigest space first
  | foreign scheme other head _ _ => .foreign scheme other head

def rest : Challenge → List (Separator × AuthParam)
  | digest _ _ _ _ rest => rest
  | foreign _ _ _ rest _ => rest

end Challenge

/-- The challenges of a field value, each with what stands before it; nothing stands before the
first, whatever its separator. -/
abbrev FieldValue : Type := List (Separator × Challenge)

/-- The items of a list of challenges. -/
def items (challenges : FieldValue) : List (Separator × Item) :=
  challenges.flatMap fun (s, challenge) =>
    (s, challenge.head) :: challenge.rest.map fun (s, p) => (s, .param p)

/-- Items with their separators. -/
def joined (items : List (Separator × Item)) : Str := items.flatMap fun (s, i) => s.text ++ i.text

/-- The text of a field value. -/
def fieldText (challenges : FieldValue) : Str :=
  match items challenges with
  | [] => []
  | (_, first) :: rest => first.text ++ joined rest

/-! ## Characters -/

variable {c : Char}

theorem isWhitespace_of_isBlank (h : isBlank c = true) : isWhitespace c = true := by
  rw [isBlank, or_eq_true, decide_eq_true_iff, decide_eq_true_iff] at h
  rcases h with rfl | rfl <;> decide

theorem isWhitespace_eq_false (hlow : 0x21 ≤ c.toNat) (hhigh : c.toNat ≤ 0x7e) :
    isWhitespace c = false := by
  simp only [isWhitespace, or_eq_false_iff, and_eq_false_iff, decide_eq_false_iff_not,
    beq_eq_false_iff_ne, ne_eq]
  omega

/-- The letters, digits and marks of a token are visible. -/
theorem toNat_of_isTokenChar (h : isTokenChar c = true) : 0x21 ≤ c.toNat ∧ c.toNat ≤ 0x7e := by
  rw [isTokenChar, or_eq_true] at h
  rcases h with halnum | hmark
  · simp only [isAsciiAlphanumeric, isAsciiAlphabetic, or_eq_true, and_eq_true,
      decide_eq_true_eq, Char.le_def, UInt32.le_iff_toNat_le] at halnum
    have hvalue : c.val.toNat = c.toNat := rfl
    have hbounds : ('a' : Char).val.toNat = 97 ∧ ('z' : Char).val.toNat = 122 ∧
        ('A' : Char).val.toNat = 65 ∧ ('Z' : Char).val.toNat = 90 ∧
        ('0' : Char).val.toNat = 48 ∧ ('9' : Char).val.toNat = 57 := by decide
    omega
  · have hmarks : ("!#$%&'*+-.^_`|~".toList.all fun m => 0x21 ≤ m.toNat ∧
        m.toNat ≤ 0x7e) = true := by
      decide
    exact of_decide_eq_true (all_eq_true.mp hmarks c (contains_iff_mem.mp hmark))

theorem toNat_of_isToken68Char (h : isToken68Char c = true) : 0x21 ≤ c.toNat ∧ c.toNat ≤ 0x7e := by
  rw [isToken68Char, or_eq_true] at h
  rcases h with halnum | hmark
  · exact toNat_of_isTokenChar (by rw [isTokenChar, halnum, Bool.true_or])
  · have hmarks : ("-._~+/".toList.all fun m => 0x21 ≤ m.toNat ∧ m.toNat ≤ 0x7e) = true := by
      decide
    exact of_decide_eq_true (all_eq_true.mp hmarks c (contains_iff_mem.mp hmark))

theorem toNat_of_isPlainChar (h : isPlainChar c = true) : 0x21 ≤ c.toNat ∧ c.toNat ≤ 0x7e := by
  simp only [isPlainChar, and_eq_true, decide_eq_true_eq] at h
  exact h.1.1.1

/-- A character that a class does not have is not a character of the class. -/
theorem ne_of_class {p : Char → Bool} {d : Char} (h : p c = true) (hd : p d = false) : c ≠ d := by
  rintro rfl
  rw [h] at hd
  cases hd

/-! ## Closed texts -/

/-- The splitting loop goes through the text, outside quotes before and after. -/
def Closed (text : Str) : Prop := ∀ item rest,
  splitDigestLoop false false item (text ++ rest) =
    splitDigestLoop false false (text.reverse ++ item) rest

variable {a b : Str}

theorem closed_append (ha : Closed a) (hb : Closed b) : Closed (a ++ b) := by
  intro item rest
  rw [append_assoc, ha, hb, reverse_append, append_assoc]

variable {text : Str}

/-- Anything but commas and quotes. -/
theorem closed_of_all (h : ∀ c ∈ text, c ≠ ',' ∧ c ≠ '"') : Closed text := by
  induction text with
  | nil => exact fun _ _ => rfl
  | cons c text ih =>
    intro item rest
    obtain ⟨hcomma, hquote⟩ := h c mem_cons_self
    have htext := ih fun d hd => h d (mem_cons_of_mem c hd)
    rw [cons_append, splitDigestLoop, Bool.and_false, if_neg Bool.false_ne_true,
      if_neg hquote, decide_eq_false hcomma, Bool.false_and, Bool.false_and,
      if_neg Bool.false_ne_true, htext, reverse_cons, append_assoc]
    rfl

theorem Token.closed (t : Token) : Closed t.text :=
  closed_of_all fun c hc =>
    ⟨ne_of_class (t.all c hc) (by decide), ne_of_class (t.all c hc) (by decide)⟩

theorem Blanks.closed (b : Blanks) : Closed b.text :=
  closed_of_all fun c hc =>
    ⟨ne_of_class (b.all c hc) (by decide), ne_of_class (b.all c hc) (by decide)⟩

/-- Inside quotes the loop goes through the characters of a quoted value. -/
theorem splitDigestLoop_quoted (chars : List QuotedChar) (item rest : Str) :
    splitDigestLoop false true item (chars.flatMap QuotedChar.text ++ rest) =
      splitDigestLoop false true ((chars.flatMap QuotedChar.text).reverse ++ item) rest := by
  induction chars generalizing item with
  | nil => rfl
  | cons q chars ih =>
    rw [flatMap_cons, append_assoc, reverse_append, append_assoc]
    rw [← ih]
    rw [QuotedChar.text]
    cases hescaped : q.escaped with
    | true =>
      rfl
    | false =>
      obtain ⟨hquote, hbackslash⟩ := q.unescaped hescaped
      rw [if_neg Bool.false_ne_true, singleton_append, splitDigestLoop,
        decide_eq_false hbackslash, Bool.false_and, if_neg Bool.false_ne_true, if_neg hquote,
        Bool.not_true, Bool.and_false, Bool.false_and, if_neg Bool.false_ne_true]
      rfl

theorem ParamValue.closed (v : ParamValue) : Closed v.text := by
  cases v with
  | plain text ne_nil all =>
    exact closed_of_all fun c hc =>
      ⟨ne_of_class (all c hc) (by decide), ne_of_class (all c hc) (by decide)⟩
  | quoted chars =>
    intro item rest
    have hopen : splitDigestLoop false false item
        ('"' :: (chars.flatMap QuotedChar.text ++ ('"' :: rest))) =
      splitDigestLoop false true ('"' :: item)
        (chars.flatMap QuotedChar.text ++ ('"' :: rest)) := rfl
    have hclose : ∀ item, splitDigestLoop false true item ('"' :: rest) =
        splitDigestLoop false false ('"' :: item) rest := fun _ => rfl
    rw [ParamValue.text, cons_append, append_assoc, singleton_append, hopen,
      splitDigestLoop_quoted, hclose, reverse_cons, reverse_append, append_assoc, append_assoc]
    rfl

theorem AuthParam.closed (p : AuthParam) : Closed p.text := by
  have hequals : Closed ['='] := closed_of_all fun c hc => by
    rw [mem_singleton.mp hc]
    decide
  exact closed_append p.name.closed (closed_append p.before.closed
    (closed_append hequals (closed_append p.after.closed p.value.closed)))

theorem ForeignHead.closed (head : ForeignHead) : Closed head.text := by
  cases head with
  | bare => exact closed_of_all nofun
  | token68 space text ne_nil all pads =>
    refine closed_append space.closed (closed_append (closed_of_all fun c hc => ?_)
      (closed_of_all fun c hc => ?_))
    · exact ⟨ne_of_class (all c hc) (by decide), ne_of_class (all c hc) (by decide)⟩
    · rw [eq_of_mem_replicate hc]
      decide
  | param space first => exact closed_append space.closed first.closed

theorem Item.closed (i : Item) : Closed i.text := by
  cases i with
  | digest scheme isDigest space first =>
    exact closed_append scheme.closed (closed_append space.closed first.closed)
  | foreign scheme other head => exact closed_append scheme.closed head.closed
  | param p => exact p.closed

/-! ## Where a Digest challenge seems to start -/

/-- What may follow an item: nothing, a comma or a blank. -/
def Stops (rest : Str) : Prop := ∀ c ∈ rest.head?, c = ',' ∨ isBlank c = true

theorem not_token_of_stops {rest : Str} (h : Stops rest) :
    ∀ c ∈ rest.head?, isTokenChar c = false := by
  intro c hc
  rcases h c hc with rfl | hblank
  · decide
  · rw [isBlank, or_eq_true, decide_eq_true_iff, decide_eq_true_iff] at hblank
    rcases hblank with rfl | rfl <;> decide

variable {rest : Str}

theorem Blanks.head_not_token (b : Blanks) (hrest : ∀ c ∈ rest.head?, isTokenChar c = false) :
    ∀ c ∈ (b.text ++ rest).head?, isTokenChar c = false := by
  cases htext : b.text with
  | nil => exact hrest
  | cons d text =>
    intro c hc
    obtain rfl := some.inj hc
    have hblank : isBlank d = true := b.all d (htext ▸ mem_cons_self)
    exact @not_token_of_stops [d] (fun e he => Or.inr (some.inj he ▸ hblank)) d rfl

/-- The word consists of six letters. -/
theorem of_eqIgnoreAsciiCase_digest (h : eqIgnoreAsciiCase text "Digest".toList = true) :
    text.length = 6 ∧ ∀ c ∈ text, isTokenChar c = true := by
  rw [eqIgnoreAsciiCase, beq_iff_eq] at h
  constructor
  · have hlen := congrArg List.length h
    rwa [toAsciiLowercase, length_map] at hlen
  · intro c hc
    have hmem : c.toLower ∈ toAsciiLowercase "Digest".toList := h ▸ mem_map_of_mem hc
    have hletters : ((toAsciiLowercase "Digest".toList).all
        fun d => isTokenChar d && !('A' ≤ d && d ≤ 'Z')) = true := by decide
    have hletter := all_eq_true.mp hletters _ hmem
    rw [and_eq_true] at hletter
    by_cases hupper : 'A' ≤ c ∧ c ≤ 'Z'
    · rw [isTokenChar, isAsciiAlphanumeric, isAsciiAlphabetic, decide_eq_true hupper.1,
        decide_eq_true hupper.2]
      simp
    · have hsame : c.toLower = c := by
        rw [Char.toLower, dif_neg]
        exact fun hbounds => hupper hbounds
      exact hsame ▸ hletter.1

/-- A word at the front of a text, with something else behind it. -/
theorem startsWithDigestScheme_token (t : Token) (hrest : ∀ c ∈ rest.head?, isTokenChar c = false) :
    startsWithDigestScheme (t.text ++ rest) =
      (eqIgnoreAsciiCase t.text "Digest".toList && rest.head?.any isWhitespace) := by
  rw [startsWithDigestScheme]
  rcases Nat.lt_trichotomy t.text.length 6 with hshort | hsix | hlong
  · have hleft : eqIgnoreAsciiCase ((t.text ++ rest).take 6) "Digest".toList = false := by
      rw [eq_false_iff]
      intro heq
      obtain ⟨hlen, hall⟩ := of_eqIgnoreAsciiCase_digest heq
      rw [take_append, take_of_length_le (by omega)] at hlen hall
      cases rest with
      | nil =>
        rw [take_nil, append_nil] at hlen
        omega
      | cons c rest =>
        have hmem : c ∈ t.text ++ (c :: rest).take (6 - t.text.length) := by
          refine mem_append_right _ ?_
          rw [take_cons (by omega)]
          exact mem_cons_self
        have hother := hrest c rfl
        rw [hall c hmem] at hother
        cases hother
    have hright : eqIgnoreAsciiCase t.text "Digest".toList = false := by
      rw [eq_false_iff]
      intro heq
      have hlen := (of_eqIgnoreAsciiCase_digest heq).1
      omega
    rw [hleft, hright, Bool.false_and, Bool.false_and]
  · rw [← hsix, take_left, drop_left]
  · have hleft : ((t.text ++ rest).drop 6).head?.any isWhitespace = false := by
      rw [head?_drop, getElem?_append_left (by omega), getElem?_eq_getElem hlong, any_some]
      obtain ⟨hlow, hhigh⟩ := toNat_of_isTokenChar (t.all _ (getElem_mem hlong))
      exact isWhitespace_eq_false hlow hhigh
    have hright : eqIgnoreAsciiCase t.text "Digest".toList = false := by
      rw [eq_false_iff]
      intro heq
      have hlen := (of_eqIgnoreAsciiCase_digest heq).1
      omega
    rw [hleft, hright, Bool.false_and, Bool.and_false]

theorem Space.stops (space : Space) (rest : Str) : Stops (space.text ++ rest) := by
  cases htext : space.text with
  | nil => exact absurd htext space.ne_nil
  | cons d text =>
    intro c hc
    obtain rfl := some.inj hc
    exact Or.inr (space.all d (htext ▸ mem_cons_self))

/-- Where blanks follow, white space follows. -/
theorem Blanks.any_isWhitespace (b : Blanks) (hrest : rest.head?.any isWhitespace = false) :
    (b.text ++ rest).head?.any isWhitespace = !b.text.isEmpty := by
  cases htext : b.text with
  | nil => exact hrest
  | cons d text => exact isWhitespace_of_isBlank (b.all d (htext ▸ mem_cons_self))

theorem Blanks.isWhitespace (b : Blanks) : ∀ c ∈ b.text, isWhitespace c = true :=
  fun c hc => isWhitespace_of_isBlank (b.all c hc)

/-- An item is taken for the start of a Digest challenge just when it opens one. -/
theorem Item.startsWithDigestScheme_text (i : Item) (hrest : Stops rest) :
    startsWithDigestScheme (i.text ++ rest) = i.opens := by
  cases i with
  | digest scheme isDigest space first =>
    have hspace := space.stops (first.text ++ rest)
    rw [Item.text, append_assoc, append_assoc,
      startsWithDigestScheme_token scheme (not_token_of_stops hspace), isDigest, Bool.true_and]
    cases htext : space.text with
    | nil => exact absurd htext space.ne_nil
    | cons d text => exact isWhitespace_of_isBlank (space.all d (htext ▸ mem_cons_self))
  | foreign scheme other head =>
    have hstops : Stops (head.text ++ rest) := by
      cases head with
      | bare => exact hrest
      | token68 space text ne_nil all pads =>
        rw [ForeignHead.text, append_assoc]
        exact space.stops _
      | param space first =>
        rw [ForeignHead.text, append_assoc]
        exact space.stops _
    rw [Item.text, append_assoc, startsWithDigestScheme_token scheme (not_token_of_stops hstops),
      eq_false_iff.mpr other, Bool.false_and]
    rfl
  | param p =>
    have hequals : ∀ more : Str, ∀ c ∈ ('=' :: more).head?, isTokenChar c = false := by
      intro more c hc
      obtain rfl := some.inj hc
      decide
    rw [Item.text, AuthParam.text, append_assoc, append_assoc, cons_append,
      startsWithDigestScheme_token p.name (p.before.head_not_token (hequals _)),
      p.before.any_isWhitespace rfl, Item.opens]
    congr 1
    exact Bool.decide_eq_true.symm

/-! ## The ends of an item -/

/-- A text with a visible character at each end. -/
structure Ends (text : Str) : Prop where
  ne_nil : text ≠ []
  head : isWhitespace (text.head ne_nil) = false
  last : isWhitespace (text.getLast ne_nil) = false

theorem Ends.trim (h : Ends text) : trim text = text :=
  trim_of_ends h.ne_nil h.head h.last

/-- The first character is that of the first part, the last one that of the last part. -/
theorem Ends.append (ha : Ends a) (mid : Str) (hb : Ends b) : Ends (a ++ (mid ++ b)) where
  ne_nil := append_ne_nil_of_left_ne_nil ha.ne_nil _
  head := by
    rw [head_append_of_ne_nil ha.ne_nil]
    exact ha.head
  last := by
    have hne : mid ++ b ≠ [] := append_ne_nil_of_right_ne_nil _ hb.ne_nil
    rw [getLast_append_of_ne_nil _ hne, getLast_append_of_ne_nil _ hb.ne_nil]
    exact hb.last

theorem ends_of_all (hne : text ≠ [])
    (h : ∀ c ∈ text, 0x21 ≤ c.toNat ∧ c.toNat ≤ 0x7e) : Ends text where
  ne_nil := hne
  head := isWhitespace_eq_false (h _ (head_mem hne)).1 (h _ (head_mem hne)).2
  last := isWhitespace_eq_false (h _ (getLast_mem hne)).1 (h _ (getLast_mem hne)).2

theorem Token.ends (t : Token) : Ends t.text :=
  ends_of_all t.ne_nil fun c hc => toNat_of_isTokenChar (t.all c hc)

theorem ParamValue.ends (v : ParamValue) : Ends v.text := by
  cases v with
  | plain text ne_nil all =>
    exact ends_of_all ne_nil fun c hc => toNat_of_isPlainChar (all c hc)
  | quoted chars =>
    have hquote : Ends ['"'] := ends_of_all (cons_ne_nil _ _) fun c hc => by
      rw [mem_singleton.mp hc]
      decide
    exact hquote.append _ hquote

theorem AuthParam.ends (p : AuthParam) : Ends p.text := by
  have h := p.name.ends.append (p.before.text ++ '=' :: p.after.text) p.value.ends
  rwa [append_assoc, cons_append] at h

theorem Item.ends (i : Item) : Ends i.text := by
  cases i with
  | digest scheme isDigest space first => exact scheme.ends.append space.text first.ends
  | foreign scheme other head =>
    cases head with
    | bare =>
      rw [Item.text, ForeignHead.text, append_nil]
      exact scheme.ends
    | token68 space text ne_nil all pads =>
      have hvisible : ∀ c ∈ text ++ replicate pads '=', 0x21 ≤ c.toNat ∧ c.toNat ≤ 0x7e := by
        intro c hc
        rcases mem_append.mp hc with htext | hpad
        · exact toNat_of_isToken68Char (all c htext)
        · rw [eq_of_mem_replicate hpad]
          decide
      exact scheme.ends.append space.text
        (ends_of_all (append_ne_nil_of_left_ne_nil ne_nil _) hvisible)
    | param space first => exact scheme.ends.append space.text first.ends
  | param p => exact p.ends

end SimMaster.Digest
