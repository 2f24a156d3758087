import SmallLisp.Text.Hidden
/-!
# Texts between double quotes

Two ways to write a text between double quotes.

* `quoted` is the way of the language: five characters are written with a backslash, and all others
  stand for themselves. `unescape?` is how the letter after a backslash is read back.
* `inspected` is the way of inspected values and of the log. On top of the five it writes the NUL
  character as `\0`, and every hidden character by its code point, `\u{300}`, so that what is
  printed shows each character of the text.
-/

namespace SmallLisp.Text

/-- The letter that stands for a character after a backslash, if the character needs one. -/
def escapeLetter? : Char → Option Char
  | '\n' => some 'n'
  | '\t' => some 't'
  | '\r' => some 'r'
  | '"' => some '"'
  | '\\' => some '\\'
  | _ => none

/-- The character that a letter after a backslash stands for. -/
def unescape? : Char → Option Char
  | 'n' => some '\n'
  | 't' => some '\t'
  | 'r' => some '\r'
  | '"' => some '"'
  | '\\' => some '\\'
  | _ => none

/-- Reading the letter of a character gives the character back. -/
theorem unescape?_escapeLetter? {c letter : Char} (h : escapeLetter? c = some letter) :
    unescape? letter = some c := by
  unfold escapeLetter? at h
  split at h <;> simp_all [unescape?] <;> subst h <;> rfl

def escape (c : Char) : List Char :=
  match escapeLetter? c with
  | some letter => ['\\', letter]
  | none => [c]

def enclose (cs : List Char) : String :=
  String.ofList ('"' :: cs ++ ['"'])

def quoted (s : String) : String :=
  enclose (s.toList.flatMap escape)

/-- A character written by its code point. -/
def byCode (c : Char) : List Char :=
  '\\' :: 'u' :: '\x7b' :: Nat.toDigits 16 c.toNat ++ ['\x7d']

/-- A character as it stands in an inspected text. -/
def escapeInspected (c : Char) : List Char :=
  match escapeLetter? c with
  | some letter => ['\\', letter]
  | none => if c = '\x00' then ['\\', '0'] else if isHidden c then byCode c else [c]

def inspected (s : String) : String :=
  enclose (s.toList.flatMap escapeInspected)

end SmallLisp.Text
