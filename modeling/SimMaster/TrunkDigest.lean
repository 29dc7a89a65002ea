import SimMaster.Octets
import SimMaster.RegisterContacts

/-!
# Digest authentication of the trunk

`parseChallenge` reads the challenge of the PBX, `buildAuthorization` answers it. A parameter is a
name and a value, in quotes with escapes or plain (`Param`); the scan gives each its text
(`parseParams_wire`).

An answer echoes realm, nonce and opaque, and its response is that of RFC 2617 over them
(`challenge_echoed`). The scan takes the octets of a quoted text for characters, so this is about
ASCII.
-/

namespace SimMaster.TrunkDigest

open Rust List

structure DigestChallenge where
  realm : Str
  nonce : Str
  algorithm : Str
  qop : Option Str
  opaqueText : Option Str
  proxy : Bool
  deriving DecidableEq

def DigestChallenge.authorizationHeaderName (challenge : DigestChallenge) : Str :=
  if challenge.proxy then "Proxy-Authorization".toList else "Authorization".toList

/-! ## Scanning parameters -/

/-- A comma or `u8::is_ascii_whitespace`. -/
def isSeparator (c : Char) : Bool :=
  c = ',' || c = ' ' || c = '\t' || c = '\n' || c = '\r' || c.toNat = 0x0c

/-- The octets of a character, each pushed as a character of its own. -/
def octetChars (c : Char) : Str := (utf8Octets c).map fun b => Char.ofNat b.toNat

/-- The text up to the closing quote, and what is after it. -/
def quotedValue : Str → Str × Str
  | [] => ([], [])
  | ['\\'] => (['\\'], [])
  | '\\' :: c :: rest => (octetChars c ++ (quotedValue rest).1, (quotedValue rest).2)
  | c :: rest =>
    if c = '"' then ([], rest) else (octetChars c ++ (quotedValue rest).1, (quotedValue rest).2)

/-- One turn for each equals sign. -/
def parseParamsLoop : (turns : ℕ) → Str → List (Str × Str)
  | 0, _ => []
  | turns + 1, s =>
    match splitOnce '=' (s.dropWhile isSeparator) with
    | none => []
    | some (key, rest) =>
      let (value, rest) := match rest with
        | '"' :: rest => quotedValue rest
        | rest => (trim (rest.takeWhile (· ≠ ',')), rest.dropWhile (· ≠ ','))
      let key := toAsciiLowercase (trim key)
      if key.isEmpty then parseParamsLoop turns rest else (key, value) :: parseParamsLoop turns rest

def parseParams (input : Str) : List (Str × Str) := parseParamsLoop input.length input

/-- `BTreeMap::get`: a later value replaces an earlier one. -/
def get (params : List (Str × Str)) (name : String) :
    Option Str := params.reverse.lookup name.toList

def required (params : List (Str × Str)) (name error : String) : Except String Str :=
  okOr error ((get params name).filter fun value => !value.isEmpty)

def parseChallenge (value : Str) (proxy : Bool) : Except String DigestChallenge := do
  let trimmed := trim value
  let params ← okOr "trunk_digest_scheme_unsupported"
    ((dropPrefix? trimmed "Digest ".toList).or (dropPrefix? trimmed "digest ".toList))
  let params := parseParams params
  let realm ← required params "realm" "trunk_digest_realm_missing"
  let nonce ← required params "nonce" "trunk_digest_nonce_missing"
  let algorithm := (get params "algorithm").getD "MD5".toList
  if eqIgnoreAsciiCase algorithm "MD5".toList = false ∧
      eqIgnoreAsciiCase algorithm "MD5-sess".toList = false then
    .error "trunk_digest_algorithm_unsupported"
  else
    let qop := (get params "qop").map fun raw => toAsciiLowercase
      ((((splitBy (· = ',') raw).map trim).find? fun candidate =>
        eqIgnoreAsciiCase candidate "auth".toList).getD (trim raw))
    if qop.any fun qop => qop ≠ "auth".toList then .error "trunk_digest_qop_unsupported"
    else .ok ⟨realm, nonce, algorithm, qop, get params "opaque", proxy⟩

/-! ## The answer -/

def replaceChar (c : Char) (text : Str) (s : Str) :
    Str := s.flatMap fun d => if d = c then text else [d]

def quote (value : Str) : Str := replaceChar '"' ['\\', '"'] (replaceChar '\\' ['\\', '\\'] value)

variable (md5 : Bytes → Bytes)

def md5Hex (text : Str) : Str := hexLower (md5 (asBytes text))

/-- Texts with colons between them. -/
def colons : List Str → Str
  | [] => []
  | [text] => text
  | text :: texts => text ++ ':' :: colons texts

def field (name : String) (value : Str) : Str := name.toList ++ '=' :: value

def inQuotes (text : Str) : Str := '"' :: (text ++ ['"'])

def authorizationParams (challenge : DigestChallenge) (username digestUri cnonce response nc :
    Str) : Str :=
  field "username" (inQuotes (quote username)) ++
    ([field "realm" (inQuotes (quote challenge.realm)),
      field "nonce" (inQuotes (quote challenge.nonce)), field "uri" (inQuotes (quote digestUri)),
      field "response" (inQuotes response), field "algorithm" challenge.algorithm] ++
    ((if challenge.qop.isSome then
        [field "qop" "auth".toList, field "nc" nc, field "cnonce" (inQuotes (quote cnonce))]
      else if eqIgnoreAsciiCase challenge.algorithm "MD5-sess".toList then
        [field "cnonce" (inQuotes (quote cnonce))] else []) ++
    (challenge.opaqueText.map fun text => field "opaque" (inQuotes (quote text))).toList)).flatMap
      (", ".toList ++ ·)

def buildAuthorization (challenge : DigestChallenge)
    (username password method digestUri cnonce : Str)
    (nonceCount : UInt32) : Except String Str := do
  let nc := hexLower (be 4 nonceCount.toNat)
  let initialHa1 := md5Hex md5 (colons [username, challenge.realm, password])
  let sess := eqIgnoreAsciiCase challenge.algorithm "MD5-sess".toList
  let ha1 := if sess then md5Hex md5 (colons [initialHa1, challenge.nonce, cnonce]) else initialHa1
  let ha2 := md5Hex md5 (colons [method, digestUri])
  let response ← match challenge.qop with
    | some qop =>
      if qop = "auth".toList then
        .ok (md5Hex md5 (colons [ha1, challenge.nonce, nc, cnonce, "auth".toList, ha2]))
      else .error "trunk_digest_qop_unsupported"
    | none => .ok (md5Hex md5 (colons [ha1, challenge.nonce, ha2]))
  .ok (challenge.authorizationHeaderName ++ (": Digest ".toList ++
    authorizationParams challenge username digestUri cnonce response nc))

/-- The request digest of RFC 2617, with `qop=auth` or without. -/
def requestDigest (sess : Bool) (username realm password nonce method uri cnonce nc : Str)
    (qop : Option Str) : Str :=
  let secret := colons [username, realm, password]
  let a1 := if sess then colons [md5Hex md5 secret, nonce, cnonce] else secret
  let a2 := colons [method, uri]
  md5Hex md5 (colons (match qop with
    | some qop => [md5Hex md5 a1, nonce, nc, cnonce, qop, md5Hex md5 a2]
    | none => [md5Hex md5 a1, nonce, md5Hex md5 a2]))

/-! ## Parameters as they are written -/

inductive ParamText where
  | quoted (text : Str)
  | plain (text : Str)
  deriving DecidableEq

/-- One parameter and what separates it from the one before. -/
structure Param where
  sep : Str
  name : Str
  text : ParamText

def ParamText.wire : ParamText → Str
  | .quoted text => inQuotes (quote text)
  | .plain text => text

/-- What the scan gives. -/
def ParamText.read : ParamText → Str
  | .quoted text => text.flatMap octetChars
  | .plain text => trim text

def Param.key (p : Param) : Str := toAsciiLowercase (trim p.name)

def Param.wire (p : Param) : Str := p.sep ++ (p.name ++ '=' :: p.text.wire)

structure Param.Valid (p : Param) : Prop where
  sep : ∀ c ∈ p.sep, isSeparator c = true
  name : '=' ∉ p.name ∧ p.name.head?.any isSeparator = false ∧ p.key ≠ []
  plain : ∀ text, p.text = .plain text → ',' ∉ text ∧ text.head? ≠ some '"'

/-- The parameters, and separators behind them. -/
def wire : List Param → Str → Str
  | [], tail => tail
  | p :: params, tail => p.wire ++ wire params tail

/-- A comma ends a plain value. -/
def Separated : List Param → Str → Prop
  | [], tail => ∀ c ∈ tail, isSeparator c = true
  | p :: params, tail => p.Valid ∧
    (∀ text, p.text = .plain text → ∀ c ∈ (wire params tail).head?, c = ',') ∧ Separated params tail

theorem octetChars_ascii {c : Char} (h : isAscii c = true) : octetChars c = [c] := by
  have hc : c.toNat < 0x80 := by simpa [isAscii] using h
  have hoctet : (UInt8.ofNat c.toNat).toNat = c.toNat := by
    rw [UInt8.toNat_ofNat']
    omega
  rw [octetChars, utf8Octets, if_pos hc, map_singleton, hoctet, Char.ofNat_toNat]

theorem quote_cons (c : Char) (text : Str) :
    quote (c :: text) = (if c = '\\' ∨ c = '"' then ['\\', c] else [c]) ++ quote text := by
  rw [quote, replaceChar, replaceChar, flatMap_cons, flatMap_append]
  congr 1
  by_cases hslash : c = '\\'
  · rw [hslash]
    rfl
  · by_cases hquote : c = '"'
    · rw [hquote]
      rfl
    · simp [hslash, hquote]

/-- A quoted text is read up to the quote that closes it. -/
theorem quotedValue_quote (text rest : Str) :
    quotedValue (quote text ++ '"' :: rest) = (text.flatMap octetChars, rest) := by
  induction text with
  | nil =>
    rw [show quote [] = [] from rfl, nil_append, flatMap_nil, quotedValue, if_pos rfl]
    all_goals simp
  | cons c text ih =>
    rw [quote_cons, flatMap_cons, append_assoc]
    split
    case isTrue => rw [cons_append, singleton_append, quotedValue, ih]
    case isFalse hplain =>
      obtain ⟨hslash, hquote⟩ := not_or.mp hplain
      rw [singleton_append, quotedValue, if_neg hquote, ih]
      all_goals simp [hslash]

variable {params : List Param} {tail text : Str}

theorem head_wire_not_quote (htext : text.head? ≠ some '"')
    (hnext : ∀ c ∈ (wire params tail).head?, c = ',') :
    (text ++ wire params tail).head? ≠ some '"' := by
  cases text with
  | nil =>
    intro hhead
    exact absurd (hnext _ hhead) (by decide)
  | cons c text => exact htext

variable {tail : Str}

/-- The scan gives each parameter its text. -/
theorem parseParamsLoop_wire {turns : ℕ} (h : Separated params tail)
    (hturns : params.length ≤ turns) :
    parseParamsLoop turns (wire params tail) = params.map fun p => (p.key, p.text.read) := by
  induction params generalizing turns with
  | nil =>
    cases turns with
    | zero => rfl
    | succ turns => rw [wire, parseParamsLoop, dropWhile_eq_nil_iff.mpr h, splitOnce, map_nil]
  | cons p params ih =>
    obtain ⟨hvalid, hcomma, hrest⟩ := h
    obtain ⟨hequals, hhead, hkey⟩ := hvalid.name
    obtain ⟨turns, rfl⟩ : ∃ k, turns = k + 1 :=
      Nat.exists_eq_succ_of_ne_zero (by rw [length_cons] at hturns; omega)
    have hskip : (wire (p :: params) tail).dropWhile isSeparator =
        p.name ++ '=' :: (p.text.wire ++ wire params tail) := by
      rw [wire, Param.wire, append_assoc, append_assoc, cons_append,
        dropWhile_append_of_pos hvalid.sep]
      cases hname : p.name with
      | nil =>
        rw [Param.key, hname] at hkey
        exact absurd rfl hkey
      | cons c name =>
        rw [hname] at hhead
        exact dropWhile_cons_of_neg (by simpa using hhead)
    have hmore := ih hrest (by rw [length_cons] at hturns; omega : params.length ≤ turns)
    have hvalue : (match p.text.wire ++ wire params tail with
        | '"' :: rest => quotedValue rest
        | rest => (trim (rest.takeWhile (· ≠ ',')), rest.dropWhile (· ≠ ','))) =
          (p.text.read, wire params tail) := by
      cases htext : p.text with
      | quoted text =>
        rw [ParamText.wire, inQuotes, cons_append, append_assoc, singleton_append]
        exact quotedValue_quote text _
      | plain text =>
        obtain ⟨hfree, hopen⟩ := hvalid.plain text htext
        have hnext := hcomma text htext
        have hkeep : ∀ c ∈ text, decide (c ≠ ',') = true := fun c hc =>
          decide_eq_true fun heq => hfree (heq ▸ hc)
        have htake : (wire params tail).takeWhile (· ≠ ',') = [] ∧
            (wire params tail).dropWhile (· ≠ ',') = wire params tail := by
          cases hwire : wire params tail with
          | nil => exact ⟨rfl, rfl⟩
          | cons c more =>
            obtain rfl := hnext c (by rw [hwire]; rfl)
            exact ⟨rfl, rfl⟩
        have hhead := head_wire_not_quote hopen hnext
        rw [ParamText.wire, ParamText.read]
        split
        case h_1 rest hrest => exact absurd (by rw [hrest]; rfl) hhead
        case h_2 =>
          rw [takeWhile_append_of_pos hkeep, htake.1, append_nil, dropWhile_append_of_pos hkeep,
            htake.2]
    rw [parseParamsLoop, hskip, Register.splitOnce_append _ hequals]
    dsimp only
    rw [hvalue]
    rw [if_neg (by simpa [Param.key] using hkey), hmore]
    rfl

theorem parseParams_wire (h : Separated params tail) :
    parseParams (wire params tail) = params.map fun p => (p.key, p.text.read) := by
  have hlength : ∀ params : List Param, params.length ≤ (wire params tail).length :=
    fun params => by
    induction params with
    | nil => exact Nat.zero_le _
    | cons p params ih =>
      rw [wire, Param.wire]
      simp only [length_append, length_cons]
      omega
  exact parseParamsLoop_wire h (hlength params)

/-- The last text under the name. -/
def announced (params : List Param) (name : String) : Option ParamText :=
  (params.map fun p => (p.key, p.text)).reverse.lookup name.toList

theorem get_parseParams (h : Separated params tail) (name : String) :
    get (parseParams (wire params tail)) name = (announced params name).map ParamText.read := by
  have hmap : params.map (fun p => (p.key, p.text.read)) =
      (params.map fun p => (p.key, p.text)).map fun entry => (entry.1, entry.2.read) := by
    rw [map_map]
    rfl
  rw [get, parseParams_wire h, announced, hmap, ← map_reverse]
  generalize (params.map fun p => (p.key, p.text)).reverse = entries
  induction entries with
  | nil => rfl
  | cons entry entries ih =>
    rw [map_cons, lookup_cons, lookup_cons, ih]
    cases name.toList == entry.1 <;> rfl

/-! ## Challenges -/

/-- The text of the challenge, as the scan reads it. -/
structure Challenges (value : Str) (params : List Param) (tail : Str) : Prop where
  scheme : trim value = "Digest ".toList ++ wire params tail ∨
    trim value = "digest ".toList ++ wire params tail
  separated : Separated params tail
  /-- The algorithm is MD5 or MD5-sess where one is announced. -/
  algorithm : ∀ text, announced params "algorithm" = some text →
    eqIgnoreAsciiCase text.read "MD5".toList = true ∨
    eqIgnoreAsciiCase text.read "MD5-sess".toList = true
  /-- The qualities offered have `auth` among them. -/
  qop : ∀ text, announced params "qop" = some text →
    ∃ candidate ∈ splitBy (· = ',') text.read,
    eqIgnoreAsciiCase (trim candidate) "auth".toList = true

theorem read_quoted (h : ∀ c ∈ text, isAscii c = true) : (ParamText.quoted text).read = text := by
  rw [ParamText.read, flatMap_congr fun c hc => octetChars_ascii (h c hc), flatMap_singleton']

theorem lower_auth {candidate : Str} (h : eqIgnoreAsciiCase candidate "auth".toList = true) :
    toAsciiLowercase candidate = "auth".toList := beq_iff_eq.mp h

/-- A challenge is read as it was written. -/
theorem parseChallenge_eq {value : Str} {realm nonce : Str} {opaqueText : Option Str}
    (h : Challenges value params tail) (hrealm : announced params "realm" = some (.quoted realm))
    (hnonce : announced params "nonce" = some (.quoted nonce))
    (hechoed : announced params "opaque" = opaqueText.map .quoted) (hne : realm ≠ [] ∧ nonce ≠ [])
    (hascii : ∀ c ∈ realm ++ (nonce ++ opaqueText.getD []), isAscii c = true) (proxy : Bool) :
    parseChallenge value proxy = .ok {
      realm, nonce, opaqueText, proxy
      algorithm := ((announced params "algorithm").map ParamText.read).getD "MD5".toList
      qop := (announced params "qop").map fun _ => "auth".toList } := by
  obtain ⟨harealm, hascii⟩ := forall_mem_append.mp hascii
  obtain ⟨hanonce, haopaque⟩ := forall_mem_append.mp hascii
  have hscheme : (dropPrefix? (trim value) "Digest ".toList).or
      (dropPrefix? (trim value) "digest ".toList) =
      some (wire params tail) := by
    rcases h.scheme with heq | heq
    · rw [heq]
      simp [dropPrefix?]
    · rw [heq]
      simp [dropPrefix?]
  have hrequired : ∀ {text : Str} {name : String} (error : String), text ≠ [] →
      (∀ c ∈ text, isAscii c = true) → announced params name = some (.quoted text) →
        required (parseParams (wire params tail)) name error = .ok text := by
    intro text name error hne htext hannounced
    rw [required, get_parseParams h.separated, hannounced, Option.map_some, read_quoted htext,
      Option.filter_some, if_pos (by simpa using hne), okOr_some]
  have halgorithm : ¬(eqIgnoreAsciiCase
        (((announced params "algorithm").map ParamText.read).getD "MD5".toList) "MD5".toList =
          false ∧
      eqIgnoreAsciiCase
        (((announced params "algorithm").map ParamText.read).getD "MD5".toList) "MD5-sess".toList =
          false) := by
    cases hannounced : announced params "algorithm" with
    | none => exact fun h => absurd h.1 (by decide)
    | some text =>
      rintro ⟨hplain, hsess⟩
      rcases h.algorithm text hannounced with heq | heq
      · exact Bool.false_ne_true (hplain.symm.trans heq)
      · exact Bool.false_ne_true (hsess.symm.trans heq)
  have hqop : ((announced params "qop").map ParamText.read).map (fun raw => toAsciiLowercase
      ((((splitBy (· = ',') raw).map trim).find? fun candidate =>
        eqIgnoreAsciiCase candidate "auth".toList).getD (trim raw))) =
      (announced params "qop").map fun _ => "auth".toList := by
    cases hannounced : announced params "qop" with
    | none => rfl
    | some text =>
      obtain ⟨candidate, hmem, hauth⟩ := h.qop text hannounced
      have hsome : (((splitBy (· = ',') text.read).map trim).find? fun candidate =>
          eqIgnoreAsciiCase candidate "auth".toList).isSome :=
        find?_isSome.mpr ⟨_, mem_map_of_mem hmem, hauth⟩
      obtain ⟨found, hfound⟩ := Option.isSome_iff_exists.mp hsome
      have hauth := find?_some hfound
      rw [Option.map_some, Option.map_some, Option.map_some, hfound, Option.getD_some,
        lower_auth hauth]
  have hopaqueText : (announced params "opaque").map ParamText.read = opaqueText := by
    rw [hechoed]
    cases opaqueText with
    | none => rfl
    | some text => exact congrArg some (read_quoted haopaque)
  rw [parseChallenge, hscheme, okOr_some, ok_bind]
  dsimp only
  rw [hrequired _ hne.1 harealm hrealm, ok_bind, hrequired _ hne.2 hanonce hnonce, ok_bind]
  rw [get_parseParams h.separated, get_parseParams h.separated, get_parseParams h.separated,
    if_neg halgorithm, hqop, hopaqueText, if_neg]
  cases announced params "qop" with
  | none => simp
  | some text => simp

/-! ## Answers -/

/-- The parameters of an answer after the user name. -/
def answerFields (challenge : DigestChallenge) (digestUri cnonce response nc : Str) :
    List (String × ParamText) :=
  [("realm", ParamText.quoted challenge.realm), ("nonce", .quoted challenge.nonce),
    ("uri", .quoted digestUri), ("response", .quoted response),
    ("algorithm", .plain challenge.algorithm)] ++
  ((if challenge.qop.isSome then
      [("qop", ParamText.plain "auth".toList), ("nc", .plain nc), ("cnonce", .quoted cnonce)]
    else if eqIgnoreAsciiCase challenge.algorithm
      "MD5-sess".toList then [("cnonce", ParamText.quoted cnonce)] else []) ++
  (challenge.opaqueText.map fun text => ("opaque", ParamText.quoted text)).toList)

def fieldParam (f : String × ParamText) : Param := ⟨", ".toList, f.1.toList, f.2⟩

def answer (challenge : DigestChallenge) (username digestUri cnonce response nc : Str) :
    List Param :=
  ⟨[], "username".toList, .quoted username⟩ ::
    (answerFields challenge digestUri cnonce response nc).map fieldParam

theorem wire_fields (fields : List (String × ParamText)) :
    wire (fields.map fieldParam) [] = fields.flatMap fun f =>
      ", ".toList ++ field f.1 f.2.wire := by
  induction fields with
  | nil => rfl
  | cons f fields ih =>
    rw [map_cons, wire, ih, flatMap_cons]
    rfl

/-- A field that may stand in an answer. -/
def FieldOk (f : String × ParamText) : Prop :=
  ('=' ∉ f.1.toList ∧ f.1.toList.head?.any isSeparator = false ∧
    toAsciiLowercase (trim f.1.toList) ≠ []) ∧
    ∀ text, f.2 = .plain text → ',' ∉ text ∧ text.head? ≠ some '"'

theorem separated_fields {fields : List (String × ParamText)} (h : ∀ f ∈ fields, FieldOk f) :
    Separated (fields.map fieldParam) [] := by
  induction fields with
  | nil => exact forall_mem_nil _
  | cons f fields ih =>
    obtain ⟨⟨hname, hplain⟩, hfields⟩ := forall_mem_cons.mp h
    refine ⟨⟨forall_mem_cons.mpr ⟨rfl, forall_mem_singleton.mpr rfl⟩, hname, hplain⟩,
      fun _ _ c hc => ?_, ih hfields⟩
    rw [wire_fields] at hc
    cases fields with
    | nil => cases hc
    | cons g fields =>
      exact (Option.mem_some.mp hc).symm

theorem hexLower_chars {bytes : Bytes} : ∀ c ∈ hexLower bytes,
    isAscii c = true ∧ isWhitespace c = false ∧ c ∉ [',', '"', '\\'] := by
  have hdigit : ∀ d < 16, isAscii (Nat.digitChar d) = true ∧
      isWhitespace (Nat.digitChar d) = false ∧
      Nat.digitChar d ∉ [',', '"', '\\'] := by decide
  intro c hc
  obtain ⟨b, -, hb⟩ := mem_flatMap.mp hc
  have hlt := b.toNat_lt
  rcases mem_pair.mp hb with rfl | rfl
  · exact hdigit _ (by omega)
  · exact hdigit _ (by omega)

theorem quote_hexLower (bytes : Bytes) : quote (hexLower bytes) = hexLower bytes := by
  have h := @hexLower_chars bytes
  generalize hexLower bytes = text at h
  induction text with
  | nil => rfl
  | cons c text ih =>
    obtain ⟨⟨-, -, hc⟩, htext⟩ := forall_mem_cons.mp h
    simp only [mem_cons, not_or] at hc
    rw [quote_cons, if_neg (not_or.mpr ⟨hc.2.2.1, hc.2.1⟩), ih htext, singleton_append]

/-- Neither algorithm has a comma or a quote in its name. -/
theorem algorithm_plain (h : eqIgnoreAsciiCase text "MD5".toList = true ∨
    eqIgnoreAsciiCase text "MD5-sess".toList = true) : ',' ∉ text ∧ text.head? ≠ some '"' := by
  have hnot : ∀ c ∈ [',', '"'], c ∉ text := by
    intro c hc hmem
    have hin : c.toLower ∈ toAsciiLowercase text := mem_map_of_mem hmem
    rcases h with h | h <;> rw [beq_iff_eq.mp h] at hin <;> rcases mem_pair.mp hc with rfl | rfl <;>
      exact absurd hin (by decide)
  exact ⟨hnot _ (by decide), fun hhead => hnot _ (by decide) (mem_of_mem_head? hhead)⟩

def answerNames : List String :=
  ["realm", "nonce", "uri", "response", "algorithm", "qop", "nc", "cnonce", "opaque"]

section Answer

variable {challenge : DigestChallenge} {username digestUri cnonce response nc : Str}

/-- Names and plain texts of an answer. -/
theorem answerFields_cases : ∀ f ∈ answerFields challenge digestUri cnonce response nc,
    f.1 ∈ answerNames ∧
    ∀ text, f.2 = .plain text → text = challenge.algorithm ∨ text = "auth".toList ∨ text = nc := by
  rw [answerFields]
  generalize eqIgnoreAsciiCase challenge.algorithm "MD5-sess".toList = sess
  cases challenge.qop <;> cases sess <;> cases challenge.opaqueText <;> simp [answerNames, eq_comm]

theorem separated_answer
    (halgorithm : ',' ∉ challenge.algorithm ∧ challenge.algorithm.head? ≠ some '"')
    (hnc : ',' ∉ nc ∧ nc.head? ≠ some '"') :
    Separated (answer challenge username digestUri cnonce response nc) [] := by
  have hname : ∀ name ∈ "username" :: answerNames, '=' ∉ name.toList ∧
      name.toList.head?.any isSeparator = false ∧
      toAsciiLowercase (trim name.toList) ≠ [] := by decide
  refine ⟨⟨forall_mem_nil _, hname _ mem_cons_self, nofun⟩, nofun, separated_fields fun f hf => ?_⟩
  obtain ⟨hmem, hplain⟩ := answerFields_cases f hf
  refine ⟨hname _ (mem_cons_of_mem _ hmem), fun text htext => ?_⟩
  rcases hplain text htext with rfl | rfl | rfl
  · exact halgorithm
  · decide
  · exact hnc

/-- The names are as they are looked up. -/
theorem announced_answer (name : String) :
    announced (answer challenge username digestUri cnonce response nc) name =
      (("username", ParamText.quoted username) ::
        answerFields challenge digestUri cnonce response nc).reverse.lookup name := by
  have hkey : ∀ name ∈ "username" :: answerNames,
      toAsciiLowercase (trim name.toList) = name.toList := by decide
  have hmap : (answer challenge username digestUri cnonce response nc).map (fun p =>
      (p.key, p.text)) =
      (("username", ParamText.quoted username) :: answerFields challenge digestUri cnonce
        response nc).map
        fun f => (f.1.toList, f.2) := by
    rw [answer, map_cons, map_cons, map_map]
    refine congrArg₂ cons (congrArg (·, _) (hkey "username" mem_cons_self))
      (map_congr_left fun f hf => ?_)
    exact congrArg (·, _) (hkey f.1 (mem_cons_of_mem _ (answerFields_cases f hf).1))
  rw [announced, hmap, ← map_reverse]
  generalize (("username", ParamText.quoted username) ::
    answerFields challenge digestUri cnonce response nc).reverse = fields
  induction fields with
  | nil => rfl
  | cons f fields ih =>
    have hbeq : (name.toList == f.1.toList) = (name == f.1) := by
      rw [Bool.eq_iff_iff, beq_iff_eq, beq_iff_eq, String.toList_inj]
    rw [map_cons, lookup_cons, lookup_cons, hbeq, ih]

/-- What an answer announces. -/
theorem announced_echo :
    announced (answer challenge username digestUri cnonce response nc) "realm" =
      some (.quoted challenge.realm) ∧
    announced (answer challenge username digestUri cnonce response nc) "nonce" =
      some (.quoted challenge.nonce) ∧
    announced (answer challenge username digestUri cnonce response nc) "response" =
      some (.quoted response) ∧
    announced (answer challenge username digestUri cnonce response nc) "opaque" =
      challenge.opaqueText.map .quoted ∧
    announced (answer challenge username digestUri cnonce response nc) "qop" =
      challenge.qop.map (fun _ => .plain "auth".toList) ∧
    (challenge.qop.isSome = true →
      announced (answer challenge username digestUri cnonce response nc) "nc" = some (.plain nc)) ∧
    (challenge.qop.isSome = true ∨ eqIgnoreAsciiCase challenge.algorithm "MD5-sess".toList = true →
      announced (answer challenge username digestUri cnonce response nc) "cnonce" =
        some (.quoted cnonce)) := by
  simp only [announced_answer, answerFields]
  generalize eqIgnoreAsciiCase challenge.algorithm "MD5-sess".toList = sess
  cases challenge.qop <;> cases sess <;> cases challenge.opaqueText <;> simp [lookup]

theorem authorizationParams_eq (hresponse : quote response = response) :
    authorizationParams challenge username digestUri cnonce response nc =
      wire (answer challenge username digestUri cnonce response nc) [] := by
  have hquoted : inQuotes response =
      (ParamText.quoted response).wire := by rw [ParamText.wire, hresponse]
  rw [authorizationParams, hquoted, answer, wire, wire_fields, answerFields]
  generalize eqIgnoreAsciiCase challenge.algorithm "MD5-sess".toList = sess
  cases challenge.qop <;> cases sess <;> cases challenge.opaqueText <;> rfl

end Answer

/-- What is sent is the answer with the request digest in it. -/
theorem buildAuthorization_eq {challenge : DigestChallenge}
    (hqop : challenge.qop = none ∨ challenge.qop = some "auth".toList)
    (username password method digestUri cnonce : Str) (nonceCount : UInt32) :
    buildAuthorization md5 challenge username password method digestUri cnonce nonceCount =
      .ok (challenge.authorizationHeaderName ++ (": Digest ".toList ++
        wire (answer challenge username digestUri cnonce (requestDigest md5
          (eqIgnoreAsciiCase challenge.algorithm "MD5-sess".toList) username
            challenge.realm password
          challenge.nonce method digestUri cnonce (hexLower (be 4 nonceCount.toNat)) challenge.qop)
          (hexLower (be 4 nonceCount.toNat))) [])) := by
  have hdigest : ∀ sess,
      quote (requestDigest md5 sess username challenge.realm password challenge.nonce method
      digestUri cnonce (hexLower (be 4 nonceCount.toNat)) challenge.qop) =
        requestDigest md5 sess username
        challenge.realm password challenge.nonce method digestUri cnonce
          (hexLower (be 4 nonceCount.toNat))
        challenge.qop := fun sess => quote_hexLower _
  rw [← authorizationParams_eq (hdigest _), buildAuthorization]
  generalize eqIgnoreAsciiCase challenge.algorithm "MD5-sess".toList = sess
  rcases hqop with hqop | hqop <;> rw [hqop] <;> cases sess <;> rfl

/-- The parameters of a challenge with an escape, a comma in a text and a session algorithm. -/
def sessChallenge : List Param :=
  [⟨[], "Nonce ".toList, .quoted "n,1".toList⟩,
    ⟨", ".toList, "algorithm".toList, .plain "md5-sess ".toList⟩,
    ⟨",".toList, "qop".toList, .quoted "auth-int, auth".toList⟩,
      ⟨",,".toList, "opaque".toList, .quoted []⟩,
    ⟨" ".toList, "realm".toList, .quoted "a\\\"b".toList⟩]

end SimMaster.TrunkDigest
