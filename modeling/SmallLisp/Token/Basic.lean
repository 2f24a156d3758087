import SmallLisp.Number.Decimal
import SmallLisp.Text.Quoted
import SmallLisp.Text.Search
/-!
# Tokens

What a program text is made of, before brackets are matched up.
-/

namespace SmallLisp

/-- A token. Texts are held without their quotes and with escapes resolved, keywords with their
colon. -/
inductive Token where
  /-- The bracket that opens a list. -/
  | listOpen
  /-- The bracket that closes a list. -/
  | listClose
  /-- An apostrophe. -/
  | quote
  /-- A backtick. -/
  | quasiquote
  /-- A comma. -/
  | unquote
  /-- An at sign right after a comma. -/
  | splice
  /-- A number sign with a brace, which opens a hash. -/
  | hashOpen
  /-- The brace that closes a hash. -/
  | hashClose
  | number (n : Number)
  | string (s : String)
  | keyword (s : String)
  | symbol (s : String)
deriving DecidableEq

namespace Token

/-- The name of a token and, for those that hold one, its content. -/
def inspect : Token → String
  | listOpen => "LParen"
  | listClose => "RParen"
  | quote => "Apos"
  | quasiquote => "Backtick"
  | unquote => "Unquote"
  | splice => "UnquoteSplicing"
  | hashOpen => "HashStart"
  | hashClose => "HashEnd"
  | number n => "Number(" ++ n.inspect ++ ")"
  | string s => "Str(" ++ Text.inspected s ++ ")"
  | keyword s => "Keyword(" ++ Text.inspected s ++ ")"
  | symbol s => "Symbol(" ++ Text.inspected s ++ ")"

/-- A token as the `lex` command prints it: inspected, with the qualifier `Token::` left out wherever
it stands, even inside a string. -/
def listing (token : Token) : String :=
  String.join (Text.split token.inspect "Token::")

end Token

end SmallLisp
