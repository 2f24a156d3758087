/-!
# Finding a text in a text

`cut?` finds the first place where a pattern occurs and gives what stands before and after it.
Splitting a text at a pattern repeats it on what stands after, and replacing the first occurrence
puts another text between the two parts, so the two agree on where the pattern is.

The empty pattern occurs in front of every text. Splitting at it does not repeat `cut?` but gives
the single characters, between two empty texts.
-/

namespace SmallLisp.Text

/-- What stands before and after the first occurrence of `pattern`, if it occurs. -/
def cut? (pattern : List Char) : List Char → Option (List Char × List Char)
  | [] => if pattern = [] then some ([], []) else none
  | c :: cs =>
    if pattern.isPrefixOf (c :: cs) then some ([], (c :: cs).drop pattern.length)
    else (cut? pattern cs).map fun (before, after) => (c :: before, after)

/-- The parts of a text around an occurrence make up the text. -/
theorem append_of_cut? {pattern text before after : List Char}
    (h : cut? pattern text = some (before, after)) : before ++ pattern ++ after = text := by
  fun_induction cut? pattern text generalizing before after with
  | case1 hp => simp_all
  | case2 hp => simp at h
  | case3 c cs hp =>
    obtain ⟨rest, hrest⟩ := List.isPrefixOf_iff_prefix.mp hp
    simp only [Option.some.injEq, Prod.mk.injEq] at h
    obtain ⟨rfl, rfl⟩ := h
    rw [← hrest]
    simp
  | case4 c cs hp ih =>
    simp only [Option.map_eq_some_iff, Prod.exists, Prod.mk.injEq] at h
    obtain ⟨b, a, hcut, rfl, rfl⟩ := h
    simp [← ih hcut]

/-- The pieces of a text between the occurrences of a pattern that is not empty, found from left to
right without overlap. -/
def pieces (pattern : List Char) (nonempty : pattern ≠ []) (text : List Char) :
    List (List Char) :=
  match _h : cut? pattern text with
  | none => [text]
  | some (before, after) => before :: pieces pattern nonempty after
termination_by text.length
decreasing_by
  have hlen := congrArg List.length (append_of_cut? _h)
  have hpos := List.length_pos_iff.mpr nonempty
  simp only [List.length_append] at hlen
  omega

def split (text pattern : String) : List String :=
  if h : pattern.toList ≠ [] then (pieces pattern.toList h text.toList).map String.ofList
  else "" :: text.toList.map String.singleton ++ [""]

def replaceFirst (text pattern replacement : String) : String :=
  match cut? pattern.toList text.toList with
  | none => text
  | some (before, after) => String.ofList before ++ replacement ++ String.ofList after

end SmallLisp.Text
