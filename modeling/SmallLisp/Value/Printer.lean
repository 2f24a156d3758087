import SmallLisp.Value.Basic
/-!
# Texts of values

* `display` is the text of a value in the language. The text of a parsed form reads back as that
  form; functions and error values have texts that do not read back.
* `text` is what `print` shows and what texts are joined from: a string stands for itself.
* `hashKey` is the name under which a value is found in a hash.
* `inspect` shows the structure of a value, with the kind of every part.
-/

namespace SmallLisp

namespace Value

mutual

/-- The text of a value in the language. -/
def display : Value → String
  | number n => n.display
  | string s => Text.quoted s
  | boolean b => if b then "true" else "false"
  | symbol s => s
  | keyword s => s
  | null => "null"
  | error message => "#<error: " ++ message ++ ">"
  | list items => "(" ++ " ".intercalate (displayItems items) ++ ")"
  | hash entries => "#\x7b" ++ " ".intercalate (displayEntries entries) ++ "\x7d"
  | function (.native f) => "#<native " ++ f.name ++ ">"
  | function (.closure f) =>
    match f.name with
    | some name => "#<fn " ++ name ++ ">"
    | none => "#<fn>"

def displayItems : List Value → List String
  | [] => []
  | v :: vs => v.display :: displayItems vs

/-- The texts of the entries of a hash, each its key and its value. -/
def displayEntries : List (String × Value) → List String
  | [] => []
  | (key, v) :: rest => (key ++ " " ++ v.display) :: displayEntries rest

end

/-- A value as text: a string without its quotes, everything else as displayed. -/
def text : Value → String
  | string s => s
  | v => v.display

/-- The key of a value in hashes: a keyword with its colon, a string as it is, everything else as
displayed. -/
def hashKey : Value → String
  | keyword s => s
  | string s => s
  | v => v.display

/-! ### Inspection -/

def inspectOption : Option String → String
  | some s => "Some(" ++ Text.inspected s ++ ")"
  | none => "None"

def inspectNames (names : List String) : String :=
  "[" ++ ", ".intercalate (names.map Text.inspected) ++ "]"

mutual

/-- A value with the kinds of all its parts. -/
def inspect : Value → String
  | number n => "Number(" ++ n.inspect ++ ")"
  | string s => "String(" ++ Text.inspected s ++ ")"
  | boolean b => "Boolean(" ++ (if b then "true" else "false") ++ ")"
  | symbol s => "Symbol(" ++ Text.inspected s ++ ")"
  | keyword s => "Keyword(" ++ Text.inspected s ++ ")"
  | null => "Null"
  | error message => "Error(" ++ Text.inspected message ++ ")"
  | list items => "List([" ++ ", ".intercalate (inspectItems items) ++ "])"
  | hash entries => "Hash(\x7b" ++ ", ".intercalate (inspectEntries entries) ++ "\x7d)"
  | function (.native f) => "Function(Native(Native(" ++ f.name ++ ")))"
  | function (.closure f) =>
    "Function(Lambda(Lambda \x7b name: " ++ inspectOption f.name ++
      ", params: " ++ inspectNames f.params ++ ", rest: " ++ inspectOption f.rest ++
      ", body: [" ++ ", ".intercalate (inspectItems f.body) ++ "], .. \x7d))"

def inspectItems : List Value → List String
  | [] => []
  | v :: vs => v.inspect :: inspectItems vs

def inspectEntries : List (String × Value) → List String
  | [] => []
  | (key, v) :: rest => (Text.inspected key ++ ": " ++ v.inspect) :: inspectEntries rest

end

end Value

end SmallLisp
