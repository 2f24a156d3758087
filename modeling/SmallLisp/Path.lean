import SmallLisp.Text.Capital
/-!
# Paths of namespaces

A symbol may name a variable of a namespace: `A/B/c` is the variable `c` of the namespace `A/B`.
Paths are split at the final slash.
-/

namespace SmallLisp.Path

/-- The name under which the root scope is registered. -/
def global : String := "global"

/-- The namespace of a path, if it has a slash, and the name after the final one. -/
def split (path : String) : Option String × String :=
  let backwards := path.toList.reverse
  match backwards.dropWhile (· != '/') with
  | [] => (none, path)
  | _ :: front =>
    (some (String.ofList front.reverse),
      String.ofList (backwards.takeWhile (· != '/')).reverse)

/-- The path of a name in a namespace. With no namespace it is the name. -/
def join (parent child : String) : String :=
  if parent = "" then child else parent ++ "/" ++ child

/-- Whether a program may declare a namespace of this name: it has to start with a capital. -/
def isValid (name : String) : Bool :=
  match name.toList with
  | c :: _ => Text.isCapital c
  | [] => false

end SmallLisp.Path
