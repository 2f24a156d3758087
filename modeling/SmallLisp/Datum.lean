import SmallLisp.Token.Lexer
import SmallLisp.Value.Basic
/-!
# From tokens to data

```
program text  ──tokenize──▶  tokens  ──readForms──▶  data
```

The reader goes over the tokens once, from left to right, and keeps a stack of *frames*: one for
every bracket that is still open and every quote-like mark that still waits for its datum. A token
either opens a frame or finishes a datum, which is then handed to the innermost frame (`deliver`); a
mark passes it on at once, wrapped in a list. When a datum is finished and no frame is left, it is a
whole form.

The frames are exactly what is still missing. Their number is the depth of nesting, which may not
exceed `maxNesting`, and the innermost one decides which error an early end of the tokens is
(`unfinished`).

A hash `#{k v …}` is read as the call `(make-hash (list k v …))`, so it nests two lists deep while
it takes up one level of the text.
-/

namespace SmallLisp

namespace Datum

/-- How many brackets and marks may be open at once. -/
def maxNesting : Nat := 1000

end Datum

inductive SyntaxError where
  /-- The text cannot be cut into tokens to begin with. -/
  | lexical (e : LexError)
  /-- The tokens end inside a list. -/
  | unclosedList
  /-- The tokens end inside a hash. -/
  | unclosedHash
  /-- The tokens end where a datum has to follow. -/
  | unexpectedEnd
  /-- A list is closed that is not the innermost thing open. -/
  | unexpectedListClose
  /-- A hash is closed that is not the innermost thing open, or that has a key without a value. -/
  | unexpectedHashClose
  /-- An at sign that belongs to no comma. -/
  | unexpectedSplice
  /-- One level more than `Datum.maxNesting`. -/
  | tooDeep
deriving DecidableEq

def SyntaxError.message : SyntaxError → String
  | lexical e => e.message
  | unclosedList => "Unterminated list: missing closing parenthesis"
  | unclosedHash => "Unterminated hash map"
  | unexpectedEnd => "Unexpected end of input"
  | unexpectedListClose => "Unexpected closing parenthesis"
  | unexpectedHashClose => "Unexpected \x7d"
  | unexpectedSplice => "Unexpected unquote-splicing"
  | tooDeep => "Expression nested deeper than " ++ toString Datum.maxNesting ++ " levels"

namespace Datum

/-! ### Frames -/

/-- A sign in front of a datum that stands for a list around it. -/
inductive Mark where
  | quote
  | quasiquote
  | unquote
  | splice
deriving DecidableEq

/-- The symbol at the head of the list that a mark stands for. -/
def Mark.name : Mark → String
  | quote => "quote"
  | quasiquote => "quasiquote"
  | unquote => "unquote"
  | splice => "unquote-splicing"

def Mark.wrap (mark : Mark) (v : Value) : Value :=
  .list [.symbol mark.name, v]

/-- Something opened and not finished yet. The data read so far come newest first. -/
inductive Frame where
  | list (items : List Value)
  | hash (items : List Value)
  | mark (mark : Mark)

/-- Where the reader stands after a token. -/
inductive Progress where
  /-- A form is finished. -/
  | complete (form : Value)
  /-- Frames are open, the innermost first. -/
  | pending (frames : List Frame)

def hashCall (items : List Value) : Value :=
  .list [.symbol "make-hash", .list (.symbol "list" :: items)]

def enter (frame : Frame) (frames : List Frame) : Except SyntaxError Progress :=
  if frames.length < maxNesting then .ok (.pending (frame :: frames)) else .error .tooDeep

/-- Hands a finished datum to the innermost frame. -/
def deliver (v : Value) : List Frame → Progress
  | [] => .complete v
  | .list items :: frames => .pending (.list (v :: items) :: frames)
  | .hash items :: frames => .pending (.hash (v :: items) :: frames)
  | .mark mark :: frames => deliver (mark.wrap v) frames

/-- Finishes the innermost frame, which has to be a list. -/
def closeList : List Frame → Except SyntaxError Progress
  | .list items :: frames => .ok (deliver (.list items.reverse) frames)
  | _ => .error .unexpectedListClose

/-- Finishes the innermost frame, which has to be a hash with a value for every key. -/
def closeHash : List Frame → Except SyntaxError Progress
  | .hash items :: frames =>
    if items.length % 2 = 0 then .ok (deliver (hashCall items.reverse) frames)
    else .error .unexpectedHashClose
  | _ => .error .unexpectedHashClose

/-- Turns the comma just read into one that splices. -/
def markSplice : List Frame → Except SyntaxError Progress
  | .mark .unquote :: frames => .ok (.pending (.mark .splice :: frames))
  | _ => .error .unexpectedSplice

def step (frames : List Frame) : Token → Except SyntaxError Progress
  | .number n => .ok (deliver (.number n) frames)
  | .string s => .ok (deliver (.string s) frames)
  | .keyword s => .ok (deliver (.ofKeyword s) frames)
  | .symbol s => .ok (deliver (.symbol s) frames)
  | .listOpen => enter (.list []) frames
  | .hashOpen => enter (.hash []) frames
  | .quote => enter (.mark .quote) frames
  | .quasiquote => enter (.mark .quasiquote) frames
  | .unquote => enter (.mark .unquote) frames
  | .splice => markSplice frames
  | .listClose => closeList frames
  | .hashClose => closeHash frames

/-- The error that the end of the tokens is with the given frames open. -/
def unfinished : List Frame → SyntaxError
  | .list _ :: _ => .unclosedList
  | .hash _ :: _ => .unclosedHash
  | .mark _ :: _ => .unexpectedEnd
  | [] => .unexpectedEnd

/-! ### Whole forms -/

/-- Reads up to the end of the form that the frames belong to, and gives the tokens after it. -/
def readFrom (frames : List Frame) : List Token → Except SyntaxError (Value × List Token)
  | [] => .error (unfinished frames)
  | token :: tokens =>
    match step frames token with
    | .error e => .error e
    | .ok (.complete form) => .ok (form, tokens)
    | .ok (.pending frames) => readFrom frames tokens

/-- Reads one form off the front of the tokens, and gives the tokens after it. -/
def readForm (tokens : List Token) : Except SyntaxError (Value × List Token) :=
  readFrom [] tokens

/-- Reads all forms, which come after the `done` ones, with frames of the first one open. -/
def readAllFrom (done : Array Value) (frames : List Frame) :
    List Token → Except SyntaxError (List Value)
  | [] => if frames.isEmpty then .ok done.toList else .error (unfinished frames)
  | token :: tokens =>
    match step frames token with
    | .error e => .error e
    | .ok (.complete form) => readAllFrom (done.push form) [] tokens
    | .ok (.pending frames) => readAllFrom done frames tokens

/-- The forms read before only stand in front of those read from the tokens. -/
theorem readAllFrom_eq (done : Array Value) (frames : List Frame) (tokens : List Token) :
    readAllFrom done frames tokens = (readAllFrom #[] frames tokens).map (done.toList ++ ·) := by
  induction tokens generalizing done frames with
  | nil =>
    simp only [readAllFrom]
    split <;> simp [Except.map]
  | cons token tokens ih =>
    simp only [readAllFrom]
    cases step frames token with
    | error e => rfl
    | ok progress =>
      cases progress with
      | complete form =>
        show readAllFrom (done.push form) [] tokens = (readAllFrom (#[].push form) [] tokens).map _
        rw [ih (done.push form), ih (#[].push form)]
        cases readAllFrom #[] [] tokens <;> simp [Except.map]
      | pending frames => exact ih done frames

def readForms (tokens : List Token) : Except SyntaxError (List Value) :=
  readAllFrom #[] [] tokens

/-- One datum for a whole program: a single form is itself, several are put in a sequence, and no
form at all is the empty list. -/
def program : List Value → Value
  | [] => .list []
  | [form] => form
  | forms => .list (.symbol "begin" :: forms)

def parseForms (source : String) : Except SyntaxError (List Value) :=
  match Token.tokenize source with
  | .error e => .error (.lexical e)
  | .ok tokens => readForms tokens

def parseProgram (source : String) : Except SyntaxError Value :=
  (parseForms source).map program

end Datum

end SmallLisp
