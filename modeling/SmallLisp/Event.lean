import SmallLisp.Path
import SmallLisp.Text.Quoted
/-!
# The event log

What an interpreter reports about its work. Every event has a level, the part that reports it, a
message and named fields. A line of the log is all of these in one text; the session log writes
fields that are texts as they are, the log of the command line between quotes.
-/

namespace SmallLisp

/-- How fine an event is. The finer log includes the coarser one. -/
inductive Level where
  | debug
  | trace
deriving DecidableEq

inductive Origin where
  /-- A file. -/
  | script (path : String)
  /-- The whole standard input. -/
  | stdin
  /-- Lines typed one by one. -/
  | prompt
deriving DecidableEq

inductive Event where
  /-- A run of the command line begins. -/
  | starting (origin : Origin) (maxDepth : Nat)
  | rootReplaced
  | namespaceCreated (name : String)
  | namespaceExtended (name : String)
  | namespaceReset (name : String)
  | namespaceDeleted (name : String)
  | moduleLoaded (path : String) (bytes : Nat)
  | interpreterReset
  /-- A function, of the given name, is called at a depth of nested evaluations. -/
  | applying (function : String) (depth : Nat)
deriving DecidableEq

inductive Field where
  | text (s : String)
  | count (n : Nat)
  /-- A text that is never quoted. -/
  | label (s : String)

def Origin.inspect : Origin → String
  | script path => "Script(" ++ Text.inspected path ++ ")"
  | stdin => "Stdin"
  | prompt => "Repl"

def Level.name : Level → String
  | debug => "DEBUG"
  | trace => "TRACE"

/-- Whether a log of this level shows events of another. -/
def Level.shows : Level → Level → Bool
  | debug, trace => false
  | _, _ => true

namespace Event

def level : Event → Level
  | applying _ _ => .trace
  | _ => .debug

def reporter : Event → String
  | starting _ _ => "tarn_cli::run::glue"
  | rootReplaced | namespaceCreated _ | namespaceExtended _ | namespaceReset _
  | namespaceDeleted _ => "tarn::namespace"
  | moduleLoaded _ _ | applying _ _ => "tarn::eval"
  | interpreterReset => "tarn::interpreter"

def message : Event → String
  | starting _ _ => "starting"
  | rootReplaced => "replaced root namespace"
  | namespaceCreated _ => "created namespace"
  | namespaceExtended _ => "extending namespace"
  | namespaceReset _ => "resetting namespace"
  | namespaceDeleted _ => "deleted namespace"
  | moduleLoaded _ _ => "loading module"
  | interpreterReset => "interpreter reset"
  | applying _ _ => "applying"

def fields : Event → List (String × Field)
  | starting origin maxDepth => [("mode", .label origin.inspect), ("max_depth", .count maxDepth)]
  | rootReplaced => [("namespace", .text Path.global)]
  | namespaceCreated name | namespaceExtended name | namespaceReset name
  | namespaceDeleted name => [("namespace", .text name)]
  | moduleLoaded path bytes => [("path", .text path), ("bytes", .count bytes)]
  | interpreterReset => []
  | applying function depth => [("function", .text function), ("depth", .count depth)]

/-- A line of the log, with texts in fields written by `writeText`. -/
def line (writeText : String → String) (event : Event) : String :=
  let writeField : String × Field → String := fun (name, field) =>
    " " ++ name ++ "=" ++
      match field with
      | .text s => writeText s
      | .count n => toString n
      | .label s => s
  event.level.name ++ " " ++ event.reporter ++ ": " ++ event.message ++
    String.join (event.fields.map writeField)

def plainLine : Event → String :=
  line id

def quotedLine : Event → String :=
  line Text.inspected

end Event

end SmallLisp
