import SmallLisp.Text.Cluster
/-!
# Typed lines

The prompt has its lines from an editor, which is no part of the interpreter. `inputLines` stands for
it: it is what the editor makes of an input that is not typed but piped in. A line ends with a line feed,
and a carriage return right before it belongs to the end. Within a line a backspace takes back what was
typed last: one cluster, that is, a letter goes together with its accents.

How much there is to take back is kept as a number of bytes, in one byte. So a cluster of 256 bytes
or more is taken back only in part: its size modulo 256.
-/

namespace SmallLisp.Console

def backspace : Char := '\x08'

structure Typed where
  /-- The characters, last first. -/
  text : List Char := []
  /-- The sizes in bytes of what can be taken back, last first. -/
  sizes : List UInt8 := []

def byteSize : List Char → Nat
  | [] => 0
  | c :: rest => c.utf8Size + byteSize rest

/-- Drops characters from the front as long as all of them fit into a number of bytes. -/
def dropBytes : Nat → List Char → List Char
  | _, [] => []
  | size, c :: rest =>
    if c.utf8Size ≤ size then dropBytes (size - c.utf8Size) rest else c :: rest

/-- Takes a cluster: a backspace takes back, anything else is added to the line. -/
def Typed.take (typed : Typed) (cluster : List Char) : Typed :=
  if cluster = [backspace] then
    match typed.sizes with
    | [] => typed
    | size :: sizes => { text := dropBytes size.toNat typed.text, sizes }
  else
    { text := cluster.reverse ++ typed.text
      sizes := UInt8.ofNat (byteSize cluster) :: typed.sizes }

/-- A line as it was meant. Without a backspace that is the line itself. -/
def applyBackspaces (line : String) : String :=
  let keys := line.toList
  if keys.contains backspace then
    String.ofList ((Text.clusters keys).foldl Typed.take {}).text.reverse
  else line

/-- The lines of an input, as they were meant. -/
def inputLines (input : String) : List String :=
  let dropReturn (line : String) : String :=
    match line.toList.reverse with
    | '\r' :: front => String.ofList front.reverse
    | _ => line
  match (input.splitOn "\n").reverse with
  | [] => []
  | last :: ended =>
    let ended := ended.reverse.map dropReturn
    (if last = "" then ended else ended ++ [last]).map applyBackspaces

end SmallLisp.Console
