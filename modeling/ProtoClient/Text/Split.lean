/-!
# Splitting and affixes

Texts are cut at every occurrence of a character, or at its first one, and their ends are
compared with and freed from fixed affixes.

## Main definitions

* `pieces mark cs`, `split mark s`: the pieces between the occurrences of `mark`, never none
* `cutFirst mark cs`, `cut mark s`: the two sides of the first occurrence of `mark`
* `hasFront front s`: the text begins with `front`
* `withoutEnd tail s`: the text freed from `tail` at its end
* `replaceFirst old new cs`: the first occurrence of `old` replaced by `new`
* `lines ls`: the lines of a text, each ended by a line feed

## Main results

* `intercalate_pieces`: the pieces joined by the mark are the text
* `not_mem_of_mem_pieces`: no piece holds the mark
* `pieces_append_cons`: a mark separates the pieces of what is before it from those after it
-/

namespace ProtoClient.Text

/-- **The pieces** of a text between the occurrences of `mark`: one more than there are
occurrences. -/
def pieces (mark : Char) : List Char → List (List Char)
  | [] => [[]]
  | c :: rest =>
    if c = mark then [] :: pieces mark rest
    else
      match pieces mark rest with
      | [] => [[c]]
      | piece :: others => (c :: piece) :: others

/-- The pieces of a string between the occurrences of `mark`. -/
def split (mark : Char) (s : String) : List String :=
  (pieces mark s.toList).map String.ofList

/-- The two sides of the first `mark`, or nothing when there is none. -/
def cutFirst (mark : Char) : List Char → Option (List Char × List Char)
  | [] => none
  | c :: rest =>
    if c = mark then some ([], rest)
    else (cutFirst mark rest).map fun (before, after) => (c :: before, after)

/-- The two sides of the first `mark` of a string. -/
def cut (mark : Char) (s : String) : Option (String × String) :=
  (cutFirst mark s.toList).map fun (before, after) => (String.ofList before, String.ofList after)

/-- Whether the string begins with `front`. -/
def hasFront (front s : String) : Bool :=
  front.toList.isPrefixOf s.toList

/-- Whether the string ends in `tail`. -/
def hasEnd (tail s : String) : Bool :=
  tail.toList.isSuffixOf s.toList

/-- The string freed from one `tail` at its end, or itself if it does not end in it. -/
def withoutEnd (tail s : String) : String :=
  if hasEnd tail s then String.ofList (s.toList.take (s.toList.length - tail.toList.length)) else s

/-- The first occurrence of `old` replaced by `new`; the empty text occurs before everything. -/
def replaceFirst (old new : List Char) : List Char → List Char
  | [] => if old.isEmpty then new else []
  | c :: rest =>
    if old.isPrefixOf (c :: rest) then new ++ (c :: rest).drop old.length
    else c :: replaceFirst old new rest

/-- A text made of lines, each ended by a line feed. -/
def lines (ls : List String) : String :=
  String.join (ls.map (· ++ "\n"))

@[simp] theorem pieces_nil (mark : Char) : pieces mark [] = [[]] := rfl

theorem pieces_ne_nil (mark : Char) (cs : List Char) : pieces mark cs ≠ [] := by
  cases cs with
  | nil => simp
  | cons c rest =>
    rw [pieces]
    split
    · simp
    · split <;> simp

/-- The pieces joined by the mark are the text. -/
theorem intercalate_pieces (mark : Char) (cs : List Char) :
    [mark].intercalate (pieces mark cs) = cs := by
  induction cs with
  | nil => simp [List.intercalate]
  | cons c rest ih =>
    rw [pieces]
    split
    · next h =>
      obtain ⟨piece, others, heq⟩ := List.exists_cons_of_ne_nil (pieces_ne_nil mark rest)
      rw [heq] at ih
      rw [heq, List.intercalate_cons_cons, ih]
      simp [h]
    · split
      · next hnone => exact absurd hnone (pieces_ne_nil mark rest)
      · next piece others heq =>
        rw [heq] at ih
        cases others with
        | nil => simpa [List.intercalate] using congrArg (c :: ·) ih
        | cons next more =>
          rw [List.intercalate_cons_cons] at ih ⊢
          simpa using congrArg (c :: ·) ih

/-- No piece holds the mark. -/
theorem not_mem_of_mem_pieces {mark : Char} {cs piece : List Char} (h : piece ∈ pieces mark cs) :
    mark ∉ piece := by
  induction cs generalizing piece with
  | nil => simp_all
  | cons c rest ih =>
    rw [pieces] at h
    split at h
    · rcases List.mem_cons.mp h with rfl | h
      · simp
      · exact ih h
    · next hc =>
      split at h
      · next hnone => exact absurd hnone (pieces_ne_nil mark rest)
      · next first others heq =>
        rcases List.mem_cons.mp h with rfl | h
        · simp only [List.mem_cons, not_or]
          exact ⟨fun hsame => hc hsame.symm, ih (by rw [heq]; simp)⟩
        · exact ih (by rw [heq]; simp [h])

/-- A text without the mark is one piece. -/
theorem pieces_of_not_mem {mark : Char} {cs : List Char} (h : mark ∉ cs) :
    pieces mark cs = [cs] := by
  induction cs with
  | nil => rfl
  | cons c rest ih =>
    simp only [List.mem_cons, not_or] at h
    rw [pieces, if_neg (fun hsame => h.1 hsame.symm), ih h.2]

/-- A mark separates the pieces of what is before it from the pieces of what is after it. -/
theorem pieces_append_cons (mark : Char) (before after : List Char) :
    pieces mark (before ++ mark :: after) = pieces mark before ++ pieces mark after := by
  induction before with
  | nil => simp [pieces]
  | cons c rest ih =>
    rw [List.cons_append, pieces, pieces]
    split
    · rw [ih]; rfl
    · rw [ih]
      obtain ⟨piece, others, heq⟩ := List.exists_cons_of_ne_nil (pieces_ne_nil mark rest)
      rw [heq]
      rfl

/-- The first cut leaves no mark before it, and nothing is lost. -/
theorem cutFirst_eq_some_iff {mark : Char} {cs before after : List Char} :
    cutFirst mark cs = some (before, after) ↔ cs = before ++ mark :: after ∧ mark ∉ before := by
  induction cs generalizing before with
  | nil => simp [cutFirst]
  | cons c rest ih =>
    rw [cutFirst]
    split
    · next hsame =>
      subst hsame
      cases before with
      | nil => simp
      | cons d more =>
        simp only [Option.some.injEq, Prod.mk.injEq, List.cons_append, List.mem_cons, not_or]
        constructor
        · simp
        · rintro ⟨heq, hne, -⟩
          exact absurd (List.cons.inj heq).1 hne
    · next hne =>
      cases before with
      | nil =>
        simp only [Option.map_eq_some_iff, Prod.mk.injEq, List.nil_append]
        constructor
        · rintro ⟨⟨b, a⟩, -, himpossible, -⟩
          exact absurd himpossible (by simp)
        · rintro ⟨heq, -⟩
          exact absurd (List.cons.inj heq).1 hne
      | cons d more =>
        simp only [Option.map_eq_some_iff, Prod.mk.injEq, List.cons.injEq, List.cons_append,
          List.mem_cons, not_or, Prod.exists]
        constructor
        · rintro ⟨b, a, hfound, ⟨rfl, rfl⟩, rfl⟩
          obtain ⟨rfl, habsent⟩ := ih.mp hfound
          exact ⟨⟨rfl, rfl⟩, fun hsame => hne hsame.symm, habsent⟩
        · rintro ⟨⟨rfl, rfl⟩, -, habsent⟩
          exact ⟨more, after, ih.mpr ⟨rfl, habsent⟩, ⟨rfl, rfl⟩, rfl⟩

theorem cutFirst_eq_none_iff {mark : Char} {cs : List Char} :
    cutFirst mark cs = none ↔ mark ∉ cs := by
  induction cs with
  | nil => simp [cutFirst]
  | cons c rest ih =>
    rw [cutFirst]
    split
    · next hsame => simp [hsame]
    · next hne =>
      simp only [Option.map_eq_none_iff, ih, List.mem_cons, not_or]
      exact ⟨fun h => ⟨fun hsame => hne hsame.symm, h⟩, And.right⟩

end ProtoClient.Text
