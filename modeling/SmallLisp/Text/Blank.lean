import SmallLisp.Text.CharClass
/-!
# White space

The twenty-five characters with the Unicode property `White_Space`. They separate tokens, and they
are what trimming a text removes from its ends.
-/

namespace SmallLisp.Text

def blanks : CharClass :=
  [⟨0x09, 0x0d, 1⟩, ⟨0x20, 0x20, 1⟩, ⟨0x85, 0x85, 1⟩, ⟨0xa0, 0xa0, 1⟩, ⟨0x1680, 0x1680, 1⟩,
   ⟨0x2000, 0x200a, 1⟩, ⟨0x2028, 0x2029, 1⟩, ⟨0x202f, 0x202f, 1⟩, ⟨0x205f, 0x205f, 1⟩,
   ⟨0x3000, 0x3000, 1⟩]

def isBlank (c : Char) : Bool :=
  blanks.contains c

def trim (s : String) : String :=
  let front := s.toList.dropWhile isBlank
  String.ofList (front.reverse.dropWhile isBlank).reverse

def isBlankText (s : String) : Bool :=
  s.toList.all isBlank

example : (blanks.map fun run => run.last - run.first + 1).sum = 25 := by decide

end SmallLisp.Text
