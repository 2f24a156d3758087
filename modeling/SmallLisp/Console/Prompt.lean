import SmallLisp.Console.Line
import SmallLisp.Console.Reply
/-!
# The prompt

Programs typed line by line. Every line is a program of its own, evaluated in the state that the
lines before it left, whether they failed or not; its value is printed. Blank lines are skipped. The
prompt ends with the input, or when a line asks to leave.
-/

namespace SmallLisp.Console

def greeting : String := "Welcome to Tarn REPL.\n"

structure Turn where
  interpreter : Interpreter
  stdout : String := ""
  stderr : String := ""
  /-- The status with which the line asked to leave. -/
  leave : Option UInt8 := none
  /-- The module whose absence ended the line. -/
  missing : Option String := none

def takeLine (ip : Interpreter) (line : String) : Turn :=
  if Text.isBlankText line then { interpreter := ip }
  else
    let (result, ip) := ip.eval line
    let (output, _, ip) := ip.drain
    let printed := lines output.toList
    match result with
    | .ok v => { interpreter := ip, stdout := printed ++ v.display ++ "\n" }
    | .error (.fault (.exit status)) =>
      { interpreter := ip, stdout := printed, leave := some status }
    | .error e =>
      { interpreter := ip, stdout := printed, stderr := failureLine e, missing := missingModule e }

/-- Evaluates lines up to the one that asks to leave. -/
def takeLines (ip : Interpreter) (stdout stderr : String) : List String → Reply
  | [] => { status := 0, stdout, stderr }
  | line :: rest =>
    let turn := takeLine ip line
    match turn.leave with
    | some status => { status, stdout := stdout ++ turn.stdout, stderr := stderr ++ turn.stderr }
    | none => takeLines turn.interpreter (stdout ++ turn.stdout) (stderr ++ turn.stderr) rest

def prompt (maxDepth : Nat) (files : Files) (input : String) : Reply :=
  takeLines (.new { maxDepth } (readModule files)) "" greeting (inputLines input)

end SmallLisp.Console
