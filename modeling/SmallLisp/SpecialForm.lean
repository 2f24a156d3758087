/-!
# Special forms

The lists whose first symbol decides how the rest is evaluated. Some have two spellings.
-/

namespace SmallLisp

/-- A form that does not evaluate all its parts before it acts. -/
inductive SpecialForm where
  | quote
  | quasiquote
  | conditional
  | define
  | defineFunction
  | lambda
  | sequence
  | letIn
  | and
  | or
  | require
  | inNamespace
deriving DecidableEq

namespace SpecialForm

def spellings : List (String × SpecialForm) :=
  [("quote", quote), ("quasiquote", quasiquote), ("if", conditional), ("define", define),
   ("def", define), ("defn", defineFunction), ("lambda", lambda), ("fn", lambda),
   ("begin", sequence), ("let", letIn), ("and", and), ("or", or), ("require", require),
   ("namespace", inNamespace), ("ns", inNamespace)]

def ofName? (name : String) : Option SpecialForm :=
  spellings.lookup name

/-- What a special form is called when it is ill-formed. -/
def name : SpecialForm → String
  | quote => "quote"
  | quasiquote => "quasiquote"
  | conditional => "if"
  | define => "define"
  | defineFunction => "defn"
  | lambda => "lambda"
  | sequence => "begin"
  | letIn => "let"
  | and => "and"
  | or => "or"
  | require => "require"
  | inNamespace => "namespace"

end SpecialForm

end SmallLisp
