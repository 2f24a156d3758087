import SmallLisp.Console.Arguments
/-!
# What the command line answers

A run of the command line reads the arguments, the files it is given and the standard input, and
leaves behind an exit status and two texts. Status `0` is success, `1` an ordinary failure and `2` a
fatal one; a program that leaves on purpose chooses its own.
-/

namespace SmallLisp.Console

abbrev Files := String → Except ReadFailure ByteArray

structure Reply where
  status : UInt8
  stdout : String
  stderr : String
  /-- The file whose absence ended the run. -/
  missing : Option String := none

inductive FileFailure where
  | unavailable (path : String) (e : ReadFailure)
  | notText

def FileFailure.message : FileFailure → String
  | unavailable _ .notFound => "No such file or directory (os error 2)"
  | unavailable _ (.unreadable reason) => reason
  | notText => Failure.notText.message

def readText (files : Files) (path : String) : Except FileFailure String :=
  match files path with
  | .error e => .error (.unavailable path e)
  | .ok bytes =>
    match String.fromUTF8? bytes with
    | some text => .ok text
    | none => .error .notText

def readModule (files : Files) (path : String) : Except ReadFailure String :=
  match readText files path with
  | .ok text => .ok text
  | .error (.unavailable _ e) => .error e
  | .error .notText => .error (.unreadable Failure.notText.message)

/-- Lines of text, each with its end. -/
def lines (texts : List String) : String :=
  String.join (texts.map (· ++ "\n"))

def errorLine (message : String) : String :=
  "Error -- " ++ message ++ "\n"

def failureLine (e : Failure) : String :=
  (if e.isFatal then "Fatal -- " else "Error -- ") ++ e.message ++ "\n"

def failureStatus : Failure → UInt8
  | .fault (.exit status) => status
  | e => if e.isFatal then 2 else 1

/-- The line about a failure of a program; leaving on purpose is not worth one. -/
def failureReport : Failure → String
  | .fault (.exit _) => ""
  | e => failureLine e

/-- The module whose absence is the failure. -/
def missingModule : Failure → Option String
  | .fault (.moduleNotFound path) => some path
  | _ => none

def logText (verbosity : Nat) (events : List Event) : String :=
  match verbosity with
  | 0 => ""
  | 1 => lines ((events.filter fun e => Level.debug.shows e.level).map Event.quotedLine)
  | _ => lines (events.map Event.quotedLine)

/-! ### Commands -/

def runProgram (arguments : Arguments) (files : Files) (origin : Origin)
    (source : Except FileFailure ByteArray) : Reply :=
  let ip := Interpreter.new { maxDepth := arguments.maxDepth } (readModule files)
  let log (ip : Interpreter) :=
    logText arguments.verbosity
      (.starting origin arguments.maxDepth :: ip.machine.events.toList)
  match source with
  | .error e =>
    { status := 1
      stdout := ""
      stderr := log ip ++ errorLine e.message
      missing := match e with
        | .unavailable path .notFound => some path
        | _ => none }
  | .ok bytes =>
    let (result, ip) := ip.run bytes
    let printed := lines ip.machine.output.toList
    match result with
    | .ok v => { status := 0, stdout := printed ++ v.display ++ "\n", stderr := log ip }
    | .error e =>
      { status := failureStatus e
        stdout := printed
        stderr := log ip ++ failureReport e
        missing := missingModule e }

def printFile (files : Files) (path : String) (about : String → Except String (List String)) :
    Reply :=
  match readText files path with
  | .error e =>
    { status := 1
      stdout := ""
      stderr := errorLine e.message
      missing := match e with
        | .unavailable path .notFound => some path
        | _ => none }
  | .ok source =>
    match about source with
    | .ok texts => { status := 0, stdout := "\n".intercalate texts ++ "\n", stderr := "" }
    | .error message => { status := 1, stdout := "", stderr := errorLine message }

/-- Carries out what the arguments ask for. -/
def respond (arguments : Arguments) (files : Files) (stdin : ByteArray) : Reply :=
  match arguments.command with
  | .stdin => runProgram arguments files .stdin (.ok stdin)
  | .run path =>
    runProgram arguments files (.script path) ((files path).mapError (.unavailable path))
  | .parse path =>
    printFile files path fun source =>
      match Datum.parseForms source with
      | .ok forms => .ok (forms.map Value.display)
      | .error e => .error e.message
  | .lex path =>
    printFile files path fun source =>
      match Token.tokenize source with
      | .ok tokens => .ok (tokens.map Token.listing)
      | .error e => .error e.message

end SmallLisp.Console
