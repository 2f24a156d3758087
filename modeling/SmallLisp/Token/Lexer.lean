import SmallLisp.Text.Blank
import SmallLisp.Token.Basic
/-!
# From text to tokens

```
program text  ──tokenize──▶  tokens
              ◀──spelling──
```

`tokenize` repeats `scan`, which looks at the front of the text: it skips white space or a comment,
or reads one token. A comma with an at sign right behind it is the one place where two tokens are
read at once. Every scan takes at least one character off the text (`length_le_of_scan`), which is
why the repetition ends.

A number is a digit, or a minus sign before a digit, and then digits and points for as long as there
are any; only afterwards is that run checked to be a number. So `1.2.3` is one broken number and not
two tokens, while `-` and `-.5` are symbols.
-/

namespace SmallLisp

inductive LexError where
  /-- A character that starts no token. -/
  | unexpectedChar (c : Char)
  /-- A run of digits and points that is no finite number. -/
  | invalidNumber (text : String)
  /-- A letter that stands for nothing after a backslash. -/
  | invalidEscape (c : Char)
  /-- The text ends after a backslash. -/
  | unterminatedEscape
  /-- The text ends before the closing quote. -/
  | unterminatedString
  /-- A colon with no name behind it. -/
  | bareKeyword
deriving DecidableEq

def LexError.message : LexError → String
  | unexpectedChar c => "Unexpected character: " ++ c.toString
  | invalidNumber text => "Invalid number format: " ++ text
  | invalidEscape c => "Invalid escape sequence: \\" ++ c.toString
  | unterminatedEscape => "Unterminated string escape sequence"
  | unterminatedString => "Unterminated string literal"
  | bareKeyword => "Invalid keyword: only contains colon"

namespace Token

/-! ### Characters of symbols -/

/-- The characters of symbols that are neither letters nor digits. -/
def symbolSigns : List Char :=
  ['+', '-', '*', '/', '<', '>', '=', '!', '?', '.', '_', '%']

/-- Whether a character may stand in a symbol: the ASCII letters and digits, and `symbolSigns`. -/
def isSymbolChar (c : Char) : Bool :=
  c.isAlphanum || symbolSigns.contains c

/-- Whether a character may stand in a number after its first digit. -/
def isNumberChar (c : Char) : Bool :=
  c.isDigit || c == '.'

/-- What a character starts. -/
inductive Lead where
  /-- White space, which is skipped. -/
  | blank
  /-- A comment, which is skipped up to the end of its line. -/
  | comment
  /-- A token of one character. -/
  | single (token : Token)
  /-- A number sign, which opens a hash if a brace follows. -/
  | numberSign
  /-- A comma, to which an at sign may belong. -/
  | comma
  | digit
  | doubleQuote
  | colon
  /-- A character of symbols other than a digit. It may be a minus sign. -/
  | symbolic
  /-- A character that starts nothing. -/
  | nothing

def lead (c : Char) : Lead :=
  match c with
  | ';' => .comment
  | '(' => .single listOpen
  | ')' => .single listClose
  | '\'' => .single quote
  | '\x60' => .single quasiquote
  | '#' => .numberSign
  | '\x7d' => .single hashClose
  | ',' => .comma
  | '"' => .doubleQuote
  | ':' => .colon
  | _ =>
    if Text.isBlank c then .blank
    else if c.isDigit then .digit
    else if isSymbolChar c then .symbolic
    else .nothing

/-- Only a digit starts like one. -/
theorem isDigit_of_lead {c : Char} (h : lead c = .digit) : c.isDigit = true := by
  unfold lead at h
  split at h <;> try cases h
  split at h <;> try cases h
  split at h
  · assumption
  · split at h <;> cases h

/-! ### Reading one token -/

/-- Reads a run of digits and points of the given sign, with the text that follows it. -/
def readNumber (negative : Bool) (cs : List Char) : Except LexError (List Token × List Char) :=
  let text := cs.takeWhile isNumberChar
  match (Decimal.read? text).bind (Number.ofDecimal? negative) with
  | some n => .ok ([number n], cs.dropWhile isNumberChar)
  | none => .error (.invalidNumber (String.ofList (if negative then '-' :: text else text)))

/-- Reads the rest of a string whose characters so far are `text`, up to and with its closing
quote, and gives the characters that follow. -/
def readString (text : String) : List Char → Except LexError (List Token × List Char)
  | [] => .error .unterminatedString
  | '"' :: cs => .ok ([string text], cs)
  | '\\' :: [] => .error .unterminatedEscape
  | '\\' :: letter :: cs =>
    match Text.unescape? letter with
    | some c => readString (text.push c) cs
    | none => .error (.invalidEscape letter)
  | c :: cs => readString (text.push c) cs

/-- Reads what follows a number sign, which has to be a brace. -/
def readHashOpen : List Char → Except LexError (List Token × List Char)
  | '\x7b' :: cs => .ok ([hashOpen], cs)
  | _ => .error (.unexpectedChar '#')

/-- Reads what follows a comma: an at sign belongs to it. -/
def readUnquote : List Char → List Token × List Char
  | '@' :: cs => ([unquote, splice], cs)
  | cs => ([unquote], cs)

def readKeyword (cs : List Char) : Except LexError (List Token × List Char) :=
  let name := cs.takeWhile isSymbolChar
  if name.isEmpty then .error .bareKeyword
  else .ok ([keyword (String.ofList (':' :: name))], cs.dropWhile isSymbolChar)

def startsWithDigit : List Char → Bool
  | c :: _ => c.isDigit
  | [] => false

/-- Looks at a text that starts with `c`: the tokens read there and the text after them. -/
def scan (c : Char) (cs : List Char) : Except LexError (List Token × List Char) :=
  match lead c with
  | .blank => .ok ([], cs)
  | .comment => .ok ([], cs.dropWhile (· != '\n'))
  | .single token => .ok ([token], cs)
  | .numberSign => readHashOpen cs
  | .comma => .ok (readUnquote cs)
  | .digit => readNumber false (c :: cs)
  | .doubleQuote => readString "" cs
  | .colon => readKeyword cs
  | .symbolic =>
    if c = '-' ∧ startsWithDigit cs then readNumber true cs
    else .ok ([symbol (String.ofList (c :: cs.takeWhile isSymbolChar))],
      cs.dropWhile isSymbolChar)
  | .nothing => .error (.unexpectedChar c)

/-! ### Every scan makes progress -/

/-- Dropping characters leaves no more than there were. -/
theorem length_dropWhile_le (p : Char → Bool) (cs : List Char) :
    (cs.dropWhile p).length ≤ cs.length :=
  (List.dropWhile_suffix p).length_le

/-- What is left after a number starts behind its digits and points. -/
theorem rest_eq_of_readNumber {negative : Bool} {cs rest : List Char} {tokens : List Token}
    (h : readNumber negative cs = .ok (tokens, rest)) : rest = cs.dropWhile isNumberChar := by
  simp only [readNumber] at h
  split at h
  · cases h; rfl
  · cases h

/-- What is left after a string is no longer than what was there. -/
theorem length_le_of_readString {text : String} {cs rest : List Char} {tokens : List Token}
    (h : readString text cs = .ok (tokens, rest)) : rest.length ≤ cs.length := by
  fun_induction readString text cs with
  | case1 => simp at h
  | case2 => simp_all
  | case3 => simp at h
  | case4 _ _ _ _ _ ih => have := ih h; simp only [List.length_cons]; omega
  | case5 => simp at h
  | case6 _ _ _ _ _ _ ih => have := ih h; simp only [List.length_cons]; omega

/-- What is left after a scan is no longer than what followed the first character. -/
theorem length_le_of_scan {c : Char} {cs rest : List Char} {tokens : List Token}
    (h : scan c cs = .ok (tokens, rest)) : rest.length ≤ cs.length := by
  unfold scan at h
  cases hlead : lead c <;> simp only [hlead] at h
  case blank => cases h; exact Nat.le_refl _
  case comment => cases h; exact length_dropWhile_le _ _
  case single => cases h; exact Nat.le_refl _
  case numberSign =>
    unfold readHashOpen at h
    split at h
    · cases h; exact Nat.le_succ _
    · cases h
  case comma =>
    unfold readUnquote at h
    split at h
    · cases h; exact Nat.le_succ _
    · cases h; exact Nat.le_refl _
  case digit =>
    have hnum : isNumberChar c = true := by simp [isNumberChar, isDigit_of_lead hlead]
    rw [rest_eq_of_readNumber h, List.dropWhile_cons_of_pos hnum]
    exact length_dropWhile_le _ _
  case doubleQuote => exact length_le_of_readString h
  case colon =>
    simp only [readKeyword] at h
    split at h
    · cases h
    · cases h; exact length_dropWhile_le _ _
  case symbolic =>
    split at h
    · rw [rest_eq_of_readNumber h]; exact length_dropWhile_le _ _
    · cases h; exact length_dropWhile_le _ _
  case nothing => cases h

/-! ### Whole texts -/

/-- Cuts a text into tokens, which come after the `done` ones. -/
def tokenizeFrom (done : Array Token) : List Char → Except LexError (List Token)
  | [] => .ok done.toList
  | c :: cs =>
    match _h : scan c cs with
    | .error e => .error e
    | .ok (tokens, rest) => tokenizeFrom (done.appendList tokens) rest
termination_by cs => cs.length
decreasing_by
  have := length_le_of_scan _h
  simp only [List.length_cons]
  omega

/-- The lexer takes one piece and goes on with the rest. -/
theorem tokenizeFrom_cons {done : Array Token} {c : Char} {cs rest : List Char}
    {tokens : List Token} (h : scan c cs = .ok (tokens, rest)) :
    tokenizeFrom done (c :: cs) = tokenizeFrom (done.appendList tokens) rest := by
  rw [tokenizeFrom]
  split
  · next e herror =>
    rw [h] at herror
    cases herror
  · next tokens' rest' hok =>
    rw [h] at hok
    cases hok
    rfl

/-- The tokens read before only stand in front of those read from the text. -/
theorem tokenizeFrom_eq (done : Array Token) (cs : List Char) :
    tokenizeFrom done cs = (tokenizeFrom #[] cs).map (done.toList ++ ·) := by
  induction h : cs.length using Nat.strongRecOn generalizing done cs with
  | ind n ih =>
    cases cs with
    | nil => simp [tokenizeFrom, Except.map]
    | cons c cs =>
      rw [tokenizeFrom, tokenizeFrom]
      cases hscan : scan c cs with
      | error e => rfl
      | ok result =>
        obtain ⟨tokens, rest⟩ := result
        have hlt : rest.length < n := by
          have := length_le_of_scan hscan
          simp only [List.length_cons] at h
          omega
        show tokenizeFrom (done.appendList tokens) rest =
          (tokenizeFrom ((#[] : Array Token).appendList tokens) rest).map _
        rw [ih _ hlt _ rest rfl, ih _ hlt (Array.appendList #[] tokens) rest rfl]
        cases tokenizeFrom #[] rest <;> simp [Except.map]

def tokenize (source : String) : Except LexError (List Token) :=
  tokenizeFrom #[] source.toList

end Token

end SmallLisp
