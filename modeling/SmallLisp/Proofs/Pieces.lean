import SmallLisp.Library.Primitives
/-!
# Splitting and replacing find the same places

Splitting a string and replacing in it both go by `Text.cut?`, which finds the first place where a
pattern stands (`standsFirstAt_of_cut?`), or that it stands nowhere (`cut?_eq_none_iff`). So **the
first piece of a text ends where a replacement begins**, also if places overlap, come one right after
the other or are at an end of the text.

The empty pattern stands everywhere. There a text falls into its characters, with an empty piece at
either end, and a replacement comes in front.
-/

namespace SmallLisp

namespace Text

/-! ### Where a pattern stands -/

def StandsAt (pattern text : List Char) (place : Nat) : Prop :=
  pattern <+: text.drop place

/-- Whether a pattern stands at a place of a text and at none before. -/
structure StandsFirstAt (pattern text : List Char) (place : Nat) : Prop where
  standsAt : StandsAt pattern text place
  not_before : ∀ earlier < place, ¬ StandsAt pattern text earlier

variable {pattern text before after : List Char}

theorem standsAt_zero : StandsAt pattern text 0 ↔ pattern <+: text := Iff.rfl

/-- A pattern stands behind whatever is in front of it. -/
theorem standsAt_length (before pattern after : List Char) :
    StandsAt pattern (before ++ pattern ++ after) before.length := by
  rw [StandsAt, List.append_assoc, List.drop_left]
  exact List.prefix_append pattern after

/-! ### Where a text is cut -/

/-- A text is cut where the pattern stands first. -/
theorem standsFirstAt_of_cut? (h : cut? pattern text = some (before, after)) :
    StandsFirstAt pattern text before.length := by
  refine ⟨append_of_cut? h ▸ standsAt_length before pattern after, ?_⟩
  fun_induction cut? pattern text generalizing before after with
  | case1 hp => simp_all
  | case2 hp => simp at h
  | case3 c cs hp =>
    cases h
    exact fun _ hlt => absurd hlt (Nat.not_lt_zero _)
  | case4 c cs hp ih =>
    obtain ⟨⟨front, back⟩, hcut, heq⟩ := Option.map_eq_some_iff.mp h
    cases heq
    intro earlier hearlier
    cases earlier with
    | zero => rwa [standsAt_zero, ← List.isPrefixOf_iff_prefix]
    | succ earlier => exact ih hcut earlier (Nat.lt_of_succ_lt_succ hearlier)

/-- A text is not cut exactly if the pattern is not in it. -/
theorem cut?_eq_none_iff : cut? pattern text = none ↔ ¬ pattern <:+: text := by
  fun_induction cut? pattern text with
  | case1 hp => simp [hp]
  | case2 hp => simpa using hp
  | case3 c cs hp =>
    have hfront := List.isPrefixOf_iff_prefix.mp hp
    simp [hfront.isInfix]
  | case4 c cs hp ih =>
    rw [List.isPrefixOf_iff_prefix] at hp
    rw [Option.map_eq_none_iff, ih, List.infix_cons_iff]
    simp [hp]

/-- What stands before the first place of a pattern does not hold the pattern. -/
theorem not_isInfix_of_cut? (hpattern : pattern ≠ []) (h : cut? pattern text = some (before, after)) :
    ¬ pattern <:+: before := by
  rintro ⟨front, back, rfl⟩
  have hpos := List.length_pos_iff.mpr hpattern
  have hlt : front.length < (front ++ pattern ++ back).length := by
    simp only [List.length_append]
    omega
  apply (standsFirstAt_of_cut? h).not_before front.length hlt
  rw [← append_of_cut? h]
  simpa only [List.append_assoc] using standsAt_length front pattern (back ++ (pattern ++ after))

/-! ### Pieces -/

theorem pieces_of_cut?_eq_none (hpattern : pattern ≠ []) (h : cut? pattern text = none) :
    pieces pattern hpattern text = [text] := by
  rw [pieces]
  split
  · rfl
  · next hcut => rw [h] at hcut; cases hcut

/-- The text is cut at the first occurrence and the rest cut up in turn. -/
theorem pieces_of_cut?_eq_some (hpattern : pattern ≠ [])
    (h : cut? pattern text = some (before, after)) :
    pieces pattern hpattern text = before :: pieces pattern hpattern after := by
  rw [pieces]
  split
  · next hcut => rw [h] at hcut; cases hcut
  · next hcut => rw [h] at hcut; cases hcut; rfl

theorem pieces_ne_nil (hpattern : pattern ≠ []) (text : List Char) :
    pieces pattern hpattern text ≠ [] := by
  rw [pieces]
  split <;> exact List.cons_ne_nil _ _

/-- **The pieces, with the pattern between them, make up the text.** -/
theorem intercalate_pieces (hpattern : pattern ≠ []) (text : List Char) :
    pattern.intercalate (pieces pattern hpattern text) = text := by
  fun_induction pieces pattern hpattern text with
  | case1 text hcut => simp
  | case2 text before after hcut ih =>
    rw [List.intercalate_cons_of_ne_nil (pieces_ne_nil hpattern after), ih, append_of_cut? hcut]

/-- **No piece holds the pattern.** -/
theorem not_isInfix_of_mem_pieces (hpattern : pattern ≠ []) {piece : List Char}
    (h : piece ∈ pieces pattern hpattern text) : ¬ pattern <:+: piece := by
  fun_induction pieces pattern hpattern text with
  | case1 text hcut =>
    rw [List.mem_singleton.mp h]
    exact cut?_eq_none_iff.mp hcut
  | case2 text before after hcut ih =>
    rcases List.mem_cons.mp h with rfl | h
    · exact not_isInfix_of_cut? hpattern hcut
    · exact ih h

/-! ### Strings -/

theorem split_of_ne_nil {pattern : String} (hpattern : pattern.toList ≠ []) (text : String) :
    split text pattern = (pieces pattern.toList hpattern text.toList).map String.ofList :=
  dif_pos hpattern

/-- The empty pattern stands between all characters and at both ends. -/
theorem split_empty (text : String) :
    split text "" = "" :: text.toList.map String.singleton ++ [""] := by
  simp [split]

/-- Joining the characters with nothing gives the text. -/
theorem intercalate_characters (cs : List Char) :
    "".intercalate (cs.map String.singleton ++ [""]) = String.ofList cs := by
  induction cs with
  | nil => rfl
  | cons c cs ih =>
    rw [List.map_cons, List.cons_append, String.intercalate_cons_of_ne_nil (by simp), ih,
      ← String.toList_inj]
    simp

/-- Putting the pattern back between the pieces gives the text, by induction along the cuts. -/
theorem intercalate_map_pieces {pattern : String} (hpattern : pattern.toList ≠ []) (cs : List Char) :
    pattern.intercalate ((pieces pattern.toList hpattern cs).map String.ofList) = String.ofList cs := by
  rw [← String.toList_inj, String.toList_intercalate, List.map_map, String.toList_ofList]
  simpa [Function.comp_def] using intercalate_pieces hpattern cs

/-- **A text is split where it is cut**: the first piece is what stands before, and the others make up
what stands after. -/
theorem split_cases (text pattern : String) :
    (cut? pattern.toList text.toList = none ∧ split text pattern = [text]) ∨
    ∃ before after rest, cut? pattern.toList text.toList = some (before, after) ∧ rest ≠ [] ∧
      split text pattern = String.ofList before :: rest ∧
      pattern.intercalate rest = String.ofList after := by
  by_cases hpattern : pattern.toList = []
  · -- the empty pattern is found at once, in front of everything
    obtain rfl : pattern = "" := String.toList_eq_nil_iff.mp hpattern
    have hcut : cut? "".toList text.toList = some ([], text.toList) := by
      cases htext : text.toList <;> simp [cut?]
    right
    exact ⟨[], text.toList, _, hcut, by simp, split_empty text, intercalate_characters text.toList⟩
  · rw [split_of_ne_nil hpattern]
    cases hcut : cut? pattern.toList text.toList with
    | none =>
      left
      rw [pieces_of_cut?_eq_none hpattern hcut]
      exact ⟨rfl, congrArg (· :: []) String.ofList_toList⟩
    | some parts =>
      obtain ⟨before, after⟩ := parts
      right
      rw [pieces_of_cut?_eq_some hpattern hcut]
      refine ⟨before, after, _, rfl, ?_, rfl, intercalate_map_pieces hpattern after⟩
      simpa using pieces_ne_nil hpattern after

/-- No piece holds the pattern, or it would have been cut there. -/
theorem not_isInfix_of_mem_split {text pattern piece : String} (hpattern : pattern ≠ "")
    (h : piece ∈ split text pattern) : ¬ pattern.toList <:+: piece.toList := by
  have hne : pattern.toList ≠ [] := mt String.toList_eq_nil_iff.mp hpattern
  rw [split_of_ne_nil hne] at h
  obtain ⟨cs, hcs, rfl⟩ := List.mem_map.mp h
  rw [String.toList_ofList]
  exact not_isInfix_of_mem_pieces hne hcs

end Text

open Text in
/-- **Splitting and replacing agree**, for all strings and patterns. A string is split into one piece or
more, which make it up again with the pattern between them. For a pattern that is not empty, no piece
holds it, and if there is more than one piece, the pattern stands right behind the first of them and
nowhere before; for the empty pattern, the pieces are the characters between two empty strings. To
replace the pattern is to put another text between the first piece and the others. -/
theorem splitting_and_replacing_agree (text pattern : String) :
    ∃ first rest,
      Primitive.stringSplit.compute [.string text, .string pattern] =
        .ok (.list ((first :: rest).map .string)) ∧
      pattern.intercalate (first :: rest) = text ∧
      (pattern ≠ "" →
        (∀ piece ∈ first :: rest, ¬ pattern.toList <:+: piece.toList) ∧
        (rest ≠ [] → StandsFirstAt pattern.toList text.toList first.length)) ∧
      (pattern = "" → first :: rest = "" :: text.toList.map String.singleton ++ [""]) ∧
      ∀ replacement,
        Primitive.stringReplace.compute [.string text, .string pattern, .string replacement] =
          .ok (.string
            (if rest = [] then text else first ++ replacement ++ pattern.intercalate rest)) := by
  have hpieces : ∀ piece ∈ split text pattern, pattern ≠ "" → ¬ pattern.toList <:+: piece.toList :=
    fun piece hpiece hpattern => not_isInfix_of_mem_split hpattern hpiece
  have hempty : pattern = "" → split text pattern = "" :: text.toList.map String.singleton ++ [""] := by
    rintro rfl
    exact split_empty text
  have hsplit : Primitive.stringSplit.compute [.string text, .string pattern] =
      .ok (.list ((split text pattern).map .string)) := rfl
  have hreplace : ∀ replacement,
      Primitive.stringReplace.compute [.string text, .string pattern, .string replacement] =
        .ok (.string (replaceFirst text pattern replacement)) := fun _ => rfl
  simp only [hsplit, hreplace, replaceFirst]
  -- either the pattern is nowhere, or both natives cut at its first place
  rcases split_cases text pattern with ⟨hcut, heq⟩ | ⟨before, after, rest, hcut, hrest, heq, hafter⟩
  · rw [heq] at hpieces hempty ⊢
    exact ⟨text, [], rfl, String.intercalate_singleton,
      fun hpattern => ⟨fun piece hpiece => hpieces piece hpiece hpattern, fun h => absurd rfl h⟩,
      hempty, fun replacement => by simp [hcut]⟩
  · rw [heq] at hpieces hempty ⊢
    have htext : String.ofList before ++ pattern ++ String.ofList after = text := by
      rw [← String.toList_inj]
      simpa using append_of_cut? hcut
    refine ⟨_, rest, rfl, ?_, ?_, hempty, ?_⟩
    · rw [String.intercalate_cons_of_ne_nil hrest, hafter, htext]
    · intro hpattern
      refine ⟨fun piece hpiece => hpieces piece hpiece hpattern, fun _ => ?_⟩
      rw [String.length_ofList]
      exact standsFirstAt_of_cut? hcut
    · intro replacement
      rw [hcut, if_neg hrest, hafter]

/-- Places that overlap count once, and places at the ends leave empty pieces. -/
example : Text.split "aaa-aa" "aa" = ["", "a-", ""] ∧ Text.replaceFirst "aaa-aa" "aa" "b" = "ba-aa" := by
  decide +kernel

end SmallLisp
