import ProtoClient.Text.Split

/-!
# Affixes and pieces of strings

The laws of fronts and ends, and of cutting at a mark and joining again, for strings. A separator
is a string that is written as the mark alone.

## Main results

* `hasEnd_iff`, `hasFront_iff`: a string has an affix when it is that affix and a rest
* `withoutEnd_append`: an end that was put on is taken off again
* `split_intercalate`, `intercalate_split`: cutting and joining are inverse to each other
-/

namespace ProtoClient.Text

variable {mark : Char} {sep : String}

theorem hasFront_iff {front s : String} : hasFront front s = true ↔ ∃ rest, s = front ++ rest := by
  rw [hasFront, List.isPrefixOf_iff_prefix]
  constructor
  · rintro ⟨rest, h⟩
    exact ⟨String.ofList rest, by simp [← String.toList_inj, h]⟩
  · rintro ⟨rest, rfl⟩
    exact ⟨rest.toList, by simp⟩

theorem hasFront_append {front a : String} (h : hasFront front a = true) (b : String) :
    hasFront front (a ++ b) = true := by
  obtain ⟨rest, rfl⟩ := hasFront_iff.mp h
  exact hasFront_iff.mpr ⟨rest ++ b, String.append_assoc⟩

theorem hasEnd_iff {tail s : String} : hasEnd tail s = true ↔ ∃ front, s = front ++ tail := by
  rw [hasEnd, List.isSuffixOf_iff_suffix]
  constructor
  · rintro ⟨front, h⟩
    exact ⟨String.ofList front, by simp [← String.toList_inj, h]⟩
  · rintro ⟨front, rfl⟩
    exact ⟨front.toList, by simp⟩

/-- An end that was put on is taken off again. -/
@[simp] theorem withoutEnd_append (tail front : String) :
    withoutEnd tail (front ++ tail) = front := by
  rw [withoutEnd, if_pos (hasEnd_iff.mpr ⟨front, rfl⟩)]
  simp

theorem withoutEnd_eq_self {tail s : String} (h : hasEnd tail s = false) : withoutEnd tail s = s :=
  if_neg (by simp [h])

theorem split_ne_nil (mark : Char) (s : String) : split mark s ≠ [] := by
  rw [split, Ne, List.map_eq_nil_iff]
  exact pieces_ne_nil mark s.toList

/-- No piece of a string holds the mark. -/
theorem notMem_of_mem_split {s piece : String} (h : piece ∈ split mark s) :
    mark ∉ piece.toList := by
  obtain ⟨cs, hcs, rfl⟩ := List.mem_map.mp h
  simpa using not_mem_of_mem_pieces hcs

/-- A string without the mark is one piece. -/
theorem split_of_notMem {s : String} (h : mark ∉ s.toList) : split mark s = [s] := by
  rw [split, pieces_of_not_mem h]
  simp

/-- A character other than the mark is in a text when it is in one of the pieces. -/
theorem exists_mem_pieces_iff {c : Char} (hc : c ≠ mark) (cs : List Char) :
    (∃ piece ∈ pieces mark cs, c ∈ piece) ↔ c ∈ cs := by
  induction cs with
  | nil => simp
  | cons d rest ih =>
    rw [pieces, List.mem_cons, ← ih]
    split
    · next hd => simp [hd, hc]
    · obtain ⟨piece, others, hp⟩ := List.exists_cons_of_ne_nil (pieces_ne_nil mark rest)
      simp [hp, or_assoc]

/-- A character other than the mark is in a string when it is in one of the pieces. -/
theorem exists_mem_split_iff {c : Char} (hc : c ≠ mark) (s : String) :
    (∃ piece ∈ split mark s, c ∈ piece.toList) ↔ c ∈ s.toList := by
  rw [← exists_mem_pieces_iff hc]
  constructor
  · rintro ⟨_, hp, hcp⟩
    obtain ⟨piece, hpiece, rfl⟩ := List.mem_map.mp hp
    exact ⟨piece, hpiece, by simpa using hcp⟩
  · rintro ⟨piece, hp, hcp⟩
    exact ⟨_, List.mem_map_of_mem hp, by simpa using hcp⟩

section Separator

variable (hsep : sep.toList = [mark])

include hsep

/-- A separator separates the pieces before it from those after it. -/
theorem split_append (a b : String) :
    split mark (a ++ sep ++ b) = split mark a ++ split mark b := by
  rw [split, String.toList_append, String.toList_append, hsep, List.append_assoc,
    List.singleton_append, pieces_append_cons, List.map_append]
  rfl

/-- Cutting takes apart what was joined. -/
theorem split_intercalate {steps : List String} (hne : steps ≠ [])
    (h : ∀ step ∈ steps, mark ∉ step.toList) : split mark (sep.intercalate steps) = steps := by
  induction steps with
  | nil => exact absurd rfl hne
  | cons step rest ih =>
    rw [List.forall_mem_cons] at h
    by_cases hr : rest = []
    · rw [hr, String.intercalate_singleton, split_of_notMem h.1]
    · rw [String.intercalate_cons_of_ne_nil hr, split_append hsep, split_of_notMem h.1, ih hr h.2]
      rfl

/-- Joining puts together what was cut. -/
theorem intercalate_split (s : String) : sep.intercalate (split mark s) = s := by
  rw [← String.toList_inj, String.toList_intercalate, hsep, split, List.map_map]
  simpa [Function.comp_def] using intercalate_pieces mark s.toList

end Separator

theorem toList_slash : "/".toList = ['/'] := rfl

theorem split_slash_append (s : String) : split '/' ("/" ++ s) = "" :: split '/' s := by
  have h := split_append toList_slash "" s
  rwa [String.empty_append] at h

theorem split_dot_slash_append (s : String) : split '/' ("./" ++ s) = "." :: split '/' s :=
  split_append toList_slash "." s

/-- A text begins with a slash when nothing stands before its first slash. -/
theorem hasFront_slash_iff {s : String} :
    hasFront "/" s = true ↔ ∃ rest, split '/' s = "" :: rest ∧ rest ≠ [] := by
  rw [hasFront_iff]
  constructor
  · rintro ⟨rest, rfl⟩
    exact ⟨split '/' rest, split_slash_append rest, split_ne_nil '/' rest⟩
  · rintro ⟨rest, hs, hne⟩
    refine ⟨"/".intercalate rest, ?_⟩
    rw [← intercalate_split toList_slash s, hs, String.intercalate_cons_of_ne_nil hne,
      String.empty_append]

/-- A string consists of all of its pieces but the last, and the last. -/
theorem dropLast_append_getLastD_split (mark : Char) (s : String) :
    (split mark s).dropLast ++ [(split mark s).getLastD ""] = split mark s := by
  obtain ⟨front, last, hp⟩ : ∃ front last, split mark s = front ++ [last] :=
    ⟨_, _, (List.dropLast_concat_getLast (split_ne_nil mark s)).symm⟩
  rw [hp, List.dropLast_concat, List.getLastD_concat]

/-- What is put to the end of joined strings is put to the end of the last one. -/
theorem intercalate_concat_append (sep : String) (front : List String) (last tail : String) :
    sep.intercalate (front ++ [last]) ++ tail = sep.intercalate (front ++ [last ++ tail]) := by
  by_cases hf : front = []
  · rw [hf, List.nil_append, List.nil_append, String.intercalate_singleton,
      String.intercalate_singleton]
  · rw [String.intercalate_append_of_ne_nil hf (List.cons_ne_nil _ _),
      String.intercalate_append_of_ne_nil hf (List.cons_ne_nil _ _), String.intercalate_singleton,
      String.intercalate_singleton, String.append_assoc]

/-- What is put to the end of a text is put to the end of its last piece. -/
theorem pieces_append_of_notMem (cs : List Char) {ds : List Char} (h : mark ∉ ds) :
    pieces mark (cs ++ ds) =
      (pieces mark cs).dropLast ++ [(pieces mark cs).getLastD [] ++ ds] := by
  induction cs with
  | nil => exact pieces_of_not_mem h
  | cons c rest ih =>
    obtain ⟨piece, others, hp⟩ := List.exists_cons_of_ne_nil (pieces_ne_nil mark rest)
    rw [List.cons_append, pieces, pieces, ih, hp]
    by_cases hc : c = mark
    · rw [if_pos hc, if_pos hc]
      simp
    · rw [if_neg hc, if_neg hc]
      cases others with
      | nil => simp
      | cons other more => simp

/-- What is put to the end of a string is put to the end of its last piece. -/
theorem split_append_of_notMem (a : String) {b : String} (h : mark ∉ b.toList) :
    split mark (a ++ b) = (split mark a).dropLast ++ [(split mark a).getLastD "" ++ b] := by
  obtain ⟨front, last, hp⟩ : ∃ front last, pieces mark a.toList = front ++ [last] :=
    ⟨_, _, (List.dropLast_concat_getLast (pieces_ne_nil mark a.toList)).symm⟩
  unfold split
  rw [String.toList_append, pieces_append_of_notMem _ h, hp]
  simp

end ProtoClient.Text
