/-!
# Blank characters and trimming

The blank characters are those with the property `White_Space` of Unicode: the ASCII controls from
the tab to the carriage return, the space, and the wide spaces and line separators beyond ASCII.
The zero-width characters are not blank.

## Main definitions

* `isBlank c`: the character is blank
* `trimList cs`, `trim s`: the text without its blank ends

## Main results

* `trimList_eq_self`: a text without blank ends is left alone
* `head?_trimList`, `getLast?_trimList`: a trimmed text has no blank ends
* `trimList_append_append`: trimming takes off the blanks that were put around a text
* `trimList_append_cons`: trimming leaves what is around a character that is not blank
-/

namespace ProtoClient.Text

/-- **Blank characters**: the property `White_Space`. -/
def isBlank (c : Char) : Bool :=
  let n := c.toNat
  (0x9 ≤ n && n ≤ 0xd) || n == 0x20 || n == 0x85 || n == 0xa0 || n == 0x1680
    || (0x2000 ≤ n && n ≤ 0x200a) || n == 0x2028 || n == 0x2029 || n == 0x202f
    || n == 0x205f || n == 0x3000

/-- The characters of `cs` without the blanks at either end. -/
def trimList (cs : List Char) : List Char :=
  ((cs.dropWhile isBlank).reverse.dropWhile isBlank).reverse

/-- The text without the blanks at either end. -/
def trim (s : String) : String :=
  String.ofList (trimList s.toList)

@[simp] theorem toList_trim (s : String) : (trim s).toList = trimList s.toList := by
  simp [trim]

/-- Dropping blanks in front stops at a character that is not blank. -/
theorem dropWhile_isBlank_eq_self {cs : List Char} (h : ∀ c ∈ cs.head?, isBlank c = false) :
    cs.dropWhile isBlank = cs := by
  cases cs with
  | nil => rfl
  | cons c rest => simp [h c (by simp)]

/-- A text without blank ends is left alone. -/
theorem trimList_eq_self {cs : List Char} (hfront : ∀ c ∈ cs.head?, isBlank c = false)
    (hback : ∀ c ∈ cs.getLast?, isBlank c = false) : trimList cs = cs := by
  rw [trimList, dropWhile_isBlank_eq_self hfront, dropWhile_isBlank_eq_self (by simpa using hback),
    List.reverse_reverse]

theorem isBlank_of_mem_head?_dropWhile (cs : List Char) :
    ∀ c ∈ (cs.dropWhile isBlank).head?, isBlank c = false := by
  induction cs with
  | nil => simp
  | cons c rest ih =>
    rw [List.dropWhile_cons]
    split
    · exact ih
    · next h => simpa using h

/-- A trimmed text does not end in a blank. -/
theorem getLast?_trimList {cs : List Char} : ∀ c ∈ (trimList cs).getLast?, isBlank c = false := by
  simpa [trimList] using isBlank_of_mem_head?_dropWhile (cs.dropWhile isBlank).reverse

/-- A trimmed text does not begin with a blank. -/
theorem head?_trimList {cs : List Char} : ∀ c ∈ (trimList cs).head?, isBlank c = false := by
  intro c hc
  have hsuffix := List.dropWhile_suffix (l := (cs.dropWhile isBlank).reverse) isBlank
  have hfront := List.reverse_prefix.mpr hsuffix
  rw [List.reverse_reverse] at hfront
  obtain ⟨rest, hrest⟩ := hfront
  refine isBlank_of_mem_head?_dropWhile cs c ?_
  rw [← hrest, ← trimList, List.head?_append]
  simp [Option.mem_def.mp hc]

/-- Trimming puts nothing in. -/
theorem mem_of_mem_trimList {cs : List Char} {c : Char} (h : c ∈ trimList cs) : c ∈ cs := by
  have hkept := (List.dropWhile_suffix isBlank).subset (List.mem_reverse.mp h)
  exact (List.dropWhile_suffix isBlank).subset (List.mem_reverse.mp hkept)

/-- Blanks that were put in front are taken off. -/
theorem trimList_blank_append {front : List Char} (h : ∀ c ∈ front, isBlank c = true)
    (cs : List Char) : trimList (front ++ cs) = trimList cs := by
  rw [trimList, List.dropWhile_append_of_pos h, trimList]

/-- Blanks that were put behind are taken off. -/
theorem trimList_append_blank (cs : List Char) {back : List Char}
    (h : ∀ c ∈ back, isBlank c = true) : trimList (cs ++ back) = trimList cs := by
  rw [trimList, trimList, List.dropWhile_append]
  split
  · next hempty =>
    rw [List.isEmpty_iff.mp hempty, ← List.append_nil back, List.dropWhile_append_of_pos h]
    rfl
  · rw [List.reverse_append, List.dropWhile_append_of_pos (by simpa using h)]

/-- Trimming takes off the blanks that were put around a text. -/
theorem trimList_append_append {front back : List Char} (hfront : ∀ c ∈ front, isBlank c = true)
    (hback : ∀ c ∈ back, isBlank c = true) (cs : List Char) :
    trimList (front ++ cs ++ back) = trimList cs := by
  rw [trimList_append_blank _ hback, trimList_blank_append hfront]

/-- Without its blank front, a text has the same characters between its blank ends. -/
theorem trimList_dropWhile (cs : List Char) : trimList (cs.dropWhile isBlank) = trimList cs := by
  rw [trimList, dropWhile_isBlank_eq_self (isBlank_of_mem_head?_dropWhile cs), trimList]

/-- Without its blank end, a text has the same characters between its blank ends. -/
theorem trimList_reverse_dropWhile (cs : List Char) :
    trimList (cs.reverse.dropWhile isBlank).reverse = trimList cs := by
  have hblanks : ∀ c ∈ (cs.reverse.takeWhile isBlank).reverse, isBlank c = true := by
    intro c hc
    exact List.all_eq_true.mp List.all_takeWhile c (List.mem_reverse.mp hc)
  rw [← trimList_append_blank _ hblanks, ← List.reverse_append, List.takeWhile_append_dropWhile,
    List.reverse_reverse]

/-- **Trimming stays on its side of a character that is not blank.** -/
theorem trimList_append_cons {c : Char} (h : isBlank c = false) (before after : List Char) :
    trimList (before ++ c :: after) =
      before.dropWhile isBlank ++ c :: (after.reverse.dropWhile isBlank).reverse := by
  -- from either end, dropping blanks stops at `c`
  have hstop {cs rest : List Char} :
      (cs ++ c :: rest).dropWhile isBlank = cs.dropWhile isBlank ++ c :: rest := by
    rw [List.dropWhile_append]
    split
    · next hempty => simp [List.isEmpty_iff.mp hempty, h]
    · rfl
  rw [trimList, hstop, List.reverse_append, List.reverse_cons, List.append_assoc,
    List.singleton_append, hstop, List.reverse_append, List.reverse_cons, List.reverse_reverse,
    List.append_assoc, List.singleton_append]

end ProtoClient.Text
