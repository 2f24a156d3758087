import SmallLisp.Console.Prompt
/-!
# The command line program

The only part that reads files and the standard input and prints. Evaluation does not read files
itself: it is given those that were read so far. A run that ends because a file is missing among
them is started again with that file, if there is one. Nothing was printed by then, and a missing
file always ends a run, so starting again does what reading the file in the middle would do.
-/

namespace SmallLisp.Main

open Console

/-- The files read so far, with those that could not be read. -/
abbrev Cache := List (String × Except ReadFailure ByteArray)

def Cache.files (cache : Cache) : Files := fun path =>
  (cache.lookup path).getD (.error .notFound)

def failureOf : IO.Error → ReadFailure
  | .noFileOrDirectory _ _ _ => .notFound
  | .inappropriateType _ code details | .permissionDenied _ code details
  | .invalidArgument _ code details | .resourceExhausted _ code details =>
    .unreadable (details ++ " (os error " ++ toString code ++ ")")
  | e => .unreadable (toString e)

/-- Adds a file to a cache, unless it is there. -/
def Cache.fetch? (cache : Cache) (path : String) : IO (Option Cache) := do
  if (cache.lookup path).isSome then
    return none
  else
    let result ← (IO.FS.readBinFile path).toBaseIO
    return some ((path, result.mapError failureOf) :: cache)

/-- Everything a stream still has to give. -/
partial def readAll (stream : IO.FS.Stream) (sofar : ByteArray) : IO ByteArray := do
  let chunk ← stream.read 65536
  if chunk.isEmpty then return sofar else readAll stream (sofar ++ chunk)

/-- Carries out what the arguments ask for, reading files as they turn out to be needed. -/
partial def settle (arguments : Arguments) (stdin : ByteArray) (cache : Cache) : IO Reply := do
  let reply := respond arguments cache.files stdin
  match reply.missing with
  | none => return reply
  | some path =>
    match ← cache.fetch? path with
    | some cache => settle arguments stdin cache
    | none => return reply

/-- Takes a line at the prompt, reading files as they turn out to be needed. -/
partial def settleLine (ip : Interpreter) (line : String) (cache : Cache) : IO (Turn × Cache) := do
  let turn := takeLine { ip with read := readModule cache.files } line
  match turn.missing with
  | none => return (turn, cache)
  | some path =>
    match ← cache.fetch? path with
    | some cache => settleLine ip line cache
    | none => return (turn, cache)

/-- Takes lines until the input ends or one asks to leave, and gives the exit status. -/
partial def promptLoop (ip : Interpreter) : IO UInt8 := do
  IO.print ">> "
  (← IO.getStdout).flush
  let input ← (← IO.getStdin).getLine
  match inputLines input with
  | [] => return 0
  | line :: _ =>
    let (turn, _) ← settleLine ip line []
    IO.print turn.stdout
    IO.eprint turn.stderr
    match turn.leave with
    | some status => return status
    | none => promptLoop turn.interpreter

end SmallLisp.Main

open SmallLisp SmallLisp.Main SmallLisp.Console in
/-- Runs the command line. Without a command, a terminal gets the prompt. -/
def main (args : List String) : IO UInt32 := do
  match readArguments args with
  | none =>
    IO.eprintln "error: usage: [--max-depth N] [-v] [run FILE | parse FILE | lex FILE]"
    return 2
  | some arguments =>
    let stdin ← IO.getStdin
    let reads := arguments.command == .stdin
    if reads && (← stdin.isTty) then
      IO.eprint greeting
      let status ← promptLoop (.new { maxDepth := arguments.maxDepth } fun _ => .error .notFound)
      return status.toUInt32
    else
      let input ← if reads then readAll stdin .empty else pure .empty
      let reply ← settle arguments input []
      IO.print reply.stdout
      IO.eprint reply.stderr
      return reply.status.toUInt32
