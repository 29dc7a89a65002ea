import SimMaster.DigestGrammar
import SimMaster.RegisterResponse

/-!
# Well-formed name-addr values

The `name-addr` of SIP headers as data that cannot be ill formed, and its text: a display name,
quoted or not, a URI in angle brackets and parameters. In quotes anything may stand, brackets and
commas too, and a quote or a backslash has a backslash before it.
-/

namespace SimMaster

open Rust Digest

/-- What stands before the bracket. -/
inductive Display where
  | plain (text : Str) (all : ∀ c ∈ text, isTokenChar c = true ∨ isBlank c = true)
  | quoted (chars : List QuotedChar) (after : Blanks)

/-- The text between the quotes. -/
def quotedText (chars : List QuotedChar) : Str := chars.flatMap QuotedChar.text

def Display.text : Display → Str
  | plain text _ => text
  | quoted chars after => '"' :: (quotedText chars ++ '"' :: after.text)

/-- What a URI consists of. -/
def isUriChar (c : Char) : Bool := !isWhitespace c && c != '<' && c != '>' && c != '"'

/-- What a value without quotes consists of. -/
def isValueChar (c : Char) : Bool :=
  isUriChar c && c != ',' && c != ';' && c != '\\'

/-- A parameter; what stands before its semicolon and after it does not matter. -/
structure AddrParam where
  before : Blanks
  after : Blanks
  name : Token
  value : Option (List QuotedChar ⊕ { text : Str // ∀ c ∈ text, isValueChar c = true })

def AddrParam.text (p : AddrParam) : Str :=
  p.before.text ++ ';' :: (p.after.text ++ (p.name.text ++
    match p.value with
    | none => []
    | some (.inl chars) => '=' :: '"' :: (quotedText chars ++ ['"'])
    | some (.inr value) => '=' :: value.1))

structure NameAddr where
  display : Display
  uri : Str
  uri_ne_nil : uri ≠ []
  uri_all : ∀ c ∈ uri, isUriChar c = true
  params : List AddrParam

namespace NameAddr

/-- What stands after the brackets. -/
def paramsText (n : NameAddr) : Str := n.params.flatMap AddrParam.text

def text (n : NameAddr) : Str := n.display.text ++ '<' :: (n.uri ++ '>' :: n.paramsText)

end NameAddr

end SimMaster
