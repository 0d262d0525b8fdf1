import Mathlib.Data.List.Basic
import Mathlib.Data.List.TakeWhile
import ProtoClient.PathTemplate

/-!
# The grammar of path templates

A path template is a sequence of characters other than braces and of groups in braces. This file
says so without a reader: the text of a template is that of its items, one after the other. Reading
finds the items of a text when it has some, and otherwise tells a group with a blank name from
braces that belong to no group.

## Main definitions

* `PathTemplate.Piece.IsProper`: the braces of a piece are those around a group
* `PathTemplate.Item`: a character, or a group with a name and maybe a pattern
* `PathTemplate.Item.IsBalanced`: there are no braces besides those around a group
* `PathTemplate.Item.IsNamed`: the name of a group is not blank

## Main results

* `PathTemplate.scan_flatMap_text`: a text has no other proper pieces than those that it is made of
* `PathTemplate.group_mem_scan_iff`: the groups of a text are its innermost pairs of braces
* `PathTemplate.parameters?_outcome`: what a text is read as, and what is wrong with it when it is
  not made of items
-/

namespace ProtoClient.PathTemplate

open Text

variable {name : List Char} {pattern : Option (List Char)}

/-! ### Pieces -/

/-- **A proper piece**: a character other than a brace, or a group without braces inside. -/
def Piece.IsProper : Piece → Prop
  | .literal c => isBrace c = false
  | .group inside => ∀ c ∈ inside, isBrace c = false

/-- A proper piece is no brace that stands for itself. -/
theorem Piece.IsProper.isStray_eq_false {piece : Piece} (h : piece.IsProper) :
    piece.isStray = false := by
  cases piece with
  | literal c => exact h
  | group inside => rfl

/-- Every piece of a text is proper, or a brace that stands for itself. -/
theorem isProper_or_isStray_of_mem_scan {cs : List Char} {piece : Piece} (hp : piece ∈ scan cs) :
    piece.IsProper ∨ piece.isStray = true := by
  have hliteral (c : Char) : (Piece.literal c).IsProper ∨ (Piece.literal c).isStray = true := by
    cases hc : isBrace c with
    | false => exact .inl hc
    | true => exact .inr hc
  fun_induction scan cs with
  | case1 => cases hp
  | case2 rest after closes _ ih =>
    rcases List.mem_cons.mp hp with rfl | hp
    · have hall := List.all_eq_true.mp (List.all_takeWhile (p := (!isBrace ·)) (l := rest))
      exact .inl fun c hc => by simpa using hall c hc
    · exact ih hp
  | case3 rest _ _ _ _ ih | case4 rest _ ih | case5 c rest _ ih =>
    rcases List.mem_cons.mp hp with rfl | hp
    · exact hliteral _
    · exact ih hp

/-- What a well-formed template is made of, and what its parameters are. -/
theorem parameters?_eq_ok_iff {path : String} {parameters : List Parameter} :
    parameters? path = .ok parameters ↔
      (∀ piece ∈ scan path.toList, piece.isNameless = false ∧ piece.isStray = false) ∧
        parameters = (scan path.toList).filterMap Piece.parameter? := by
  unfold parameters?
  constructor
  · intro h
    dsimp only at h
    split at h
    · cases h
    split at h
    · cases h
    next hnameless hstray =>
    cases h
    simp only [List.any_eq_true, not_exists, not_and, Bool.not_eq_true] at hnameless hstray
    exact ⟨fun piece hp => ⟨hnameless piece hp, hstray piece hp⟩, rfl⟩
  · rintro ⟨h, rfl⟩
    have hnameless : (scan path.toList).any Piece.isNameless = false :=
      List.any_eq_false.mpr fun piece hp => by simp [(h piece hp).1]
    have hstray : (scan path.toList).any Piece.isStray = false :=
      List.any_eq_false.mpr fun piece hp => by simp [(h piece hp).2]
    simp [hnameless, hstray]

/-! ### Scanning -/

theorem scan_literal {c : Char} (hc : c ≠ '\x7b') (rest : List Char) :
    scan (c :: rest) = .literal c :: scan rest := by
  rw [scan, if_neg hc]

/-- An opening brace that the next brace closes begins a group. -/
theorem scan_group {inside : List Char} (h : ∀ c ∈ inside, isBrace c = false) (after : List Char) :
    scan ((Piece.group inside).text ++ after) = .group inside :: scan after := by
  have hpos : ∀ c ∈ inside, (!isBrace c) = true := fun c hc => by rw [h c hc]; rfl
  have hclose : ('\x7d' :: after).takeWhile (!isBrace ·) = [] := rfl
  have htake : (inside ++ '\x7d' :: after).takeWhile (!isBrace ·) = inside := by
    rw [List.takeWhile_append_of_pos hpos, hclose, List.append_nil]
  have hdrop : (inside ++ '\x7d' :: after).dropWhile (!isBrace ·) = '\x7d' :: after := by
    rw [List.dropWhile_append_of_pos hpos]
    rfl
  have htext : (Piece.group inside).text ++ after = '\x7b' :: (inside ++ '\x7d' :: after) := by
    rw [Piece.text, List.append_assoc]
    rfl
  rw [htext, scan, if_pos rfl]
  split
  · next d rest heq =>
    obtain ⟨rfl, rfl⟩ := List.cons.inj (hdrop.symm.trans heq)
    rw [if_pos rfl, htake]
  · next heq => exact absurd (hdrop.symm.trans heq) (List.cons_ne_nil _ _)

/-- An opening brace that the next brace does not close stands for itself. -/
theorem scan_open {rest : List Char} (h : (rest.dropWhile (!isBrace ·)).head? ≠ some '\x7d') :
    scan ('\x7b' :: rest) = .literal '\x7b' :: scan rest := by
  rw [scan, if_pos rfl]
  split
  · next d after heq =>
    rw [heq, List.head?_cons] at h
    rw [if_neg fun hd => h (congrArg some hd)]
  · rfl

/-- **A text has no other proper pieces** than those that it is made of. -/
theorem scan_flatMap_text {pieces : List Piece} (h : ∀ piece ∈ pieces, piece.IsProper) :
    scan (pieces.flatMap Piece.text) = pieces := by
  induction pieces with
  | nil => rw [List.flatMap_nil, scan]
  | cons piece rest ih =>
    rw [List.forall_mem_cons] at h
    rw [List.flatMap_cons]
    cases piece with
    | literal c =>
      have hc : c ≠ '\x7b' := by
        rintro rfl
        cases h.1
      rw [Piece.text, List.singleton_append, scan_literal hc, ih h.2]
    | group inside => rw [scan_group h.1, ih h.2]

/-- **An opening brace separates the pieces** of what is before it from those of what begins with
it: no group goes on beyond it. -/
theorem scan_append_open (before rest : List Char) :
    scan (before ++ '\x7b' :: rest) = scan before ++ scan ('\x7b' :: rest) := by
  fun_induction scan before with
  | case1 => rfl
  | case2 front after closes _ ih =>
    have hinside := List.all_eq_true.mp (List.all_takeWhile (p := (!isBrace ·)) (l := front))
    have hfront : front = front.takeWhile (!isBrace ·) ++ '\x7d' :: after := by
      rw [← closes, List.takeWhile_append_dropWhile]
    have htext : '\x7b' :: front ++ '\x7b' :: rest =
        (Piece.group (front.takeWhile (!isBrace ·))).text ++ (after ++ '\x7b' :: rest) := by
      conv_lhs => rw [hfront]
      simp [Piece.text]
    rw [htext, scan_group fun c hc => by simpa using hinside c hc, ih, List.cons_append]
  | case3 front d after closes hclose ih =>
    have hdrop : (front ++ '\x7b' :: rest).dropWhile (!isBrace ·) =
        d :: after ++ '\x7b' :: rest := by
      rw [List.dropWhile_append, closes]
      rfl
    rw [List.cons_append, scan_open (by rw [hdrop]; simpa using hclose), ih, List.cons_append]
  | case4 front closes ih =>
    have hdrop : (front ++ '\x7b' :: rest).dropWhile (!isBrace ·) = '\x7b' :: rest := by
      rw [List.dropWhile_append, closes]
      rfl
    rw [List.cons_append, scan_open (by rw [hdrop]; simp), ih, List.cons_append]
  | case5 c front hc ih => rw [List.cons_append, scan_literal hc, ih, List.cons_append]

/-- **The groups of a text are its innermost pairs of braces.** -/
theorem group_mem_scan_iff {cs inside : List Char} :
    .group inside ∈ scan cs ↔
      (∀ c ∈ inside, isBrace c = false) ∧ (Piece.group inside).text <:+: cs := by
  constructor
  · intro h
    have hproper := (isProper_or_isStray_of_mem_scan h).resolve_right Bool.false_ne_true
    have hinfix : (Piece.group inside).text <:+: (scan cs).flatMap Piece.text :=
      List.infix_of_mem_flatten (List.mem_map_of_mem h)
    rw [flatMap_text_scan] at hinfix
    exact ⟨hproper, hinfix⟩
  · rintro ⟨hproper, before, after, rfl⟩
    have htext : before ++ (Piece.group inside).text ++ after =
        before ++ '\x7b' :: (inside ++ '\x7d' :: after) := by simp [Piece.text]
    have hgroup : scan ('\x7b' :: (inside ++ '\x7d' :: after)) = .group inside :: scan after := by
      rw [← scan_group hproper]
      simp [Piece.text]
    rw [htext, scan_append_open, hgroup]
    simp

/-! ### Items -/

/-- **An item of a template**: a character, or a group with a name and maybe a pattern. -/
inductive Item
  | literal (c : Char)
  | group (name : List Char) (pattern : Option (List Char))

/-- What stands behind the name in a group: a pattern has a `=` in front of it. -/
def patternText : Option (List Char) → List Char
  | none => []
  | some pattern => '=' :: pattern

namespace Item

/-- The text of an item. -/
def text : Item → List Char
  | .literal c => [c]
  | .group name pattern => '\x7b' :: name ++ patternText pattern ++ ['\x7d']

/-- **There are no braces besides those around a group**, and its name ends at the first `=`. -/
def IsBalanced : Item → Prop
  | .literal c => c ≠ '\x7b' ∧ c ≠ '\x7d'
  | .group name pattern => (∀ c ∈ name, c ≠ '\x7b' ∧ c ≠ '\x7d' ∧ c ≠ '=') ∧
      ∀ text ∈ pattern, ∀ c ∈ text, c ≠ '\x7b' ∧ c ≠ '\x7d'

/-- **The name of a group is not blank.** -/
def IsNamed : Item → Prop
  | .literal _ => True
  | .group name _ => trimList name ≠ []

/-- The parameter that a group stands for: its text, and its name cut at the dots. -/
def parameter? : Item → Option Parameter
  | .literal _ => none
  | .group name pattern =>
    some ⟨String.ofList (group name pattern).text, split '.' (String.ofList (trimList name))⟩

/-- The piece that is read where an item stands. -/
def piece : Item → Piece
  | .literal c => .literal c
  | .group name pattern => .group (name ++ patternText pattern)

@[simp] theorem text_piece (item : Item) : item.piece.text = item.text := by
  cases item with
  | literal c => rfl
  | group name pattern => rfl

end Item

theorem isBrace_eq_false_iff {c : Char} : isBrace c = false ↔ c ≠ '\x7b' ∧ c ≠ '\x7d' := by
  simp [isBrace]

/-- The name in a group ends at the first `=`. -/
theorem groupName_append_patternText (h : '=' ∉ name) (pattern : Option (List Char)) :
    groupName (name ++ patternText pattern) = trimList name := by
  have hall : ∀ c ∈ name, decide (c ≠ '=') = true := fun c hc =>
    decide_eq_true (ne_of_mem_of_not_mem hc h)
  have htail : (patternText pattern).takeWhile (· ≠ '=') = [] := by
    cases pattern <;> rfl
  rw [groupName, List.takeWhile_append_of_pos hall, htail, List.append_nil]

/-- What is in a group is a name that ends at the first `=`, and what stands behind it. -/
theorem exists_eq_append_patternText (inside : List Char) :
    ∃ name pattern, '=' ∉ name ∧ inside = name ++ patternText pattern := by
  cases h : cutFirst '=' inside with
  | none => exact ⟨inside, none, cutFirst_eq_none_iff.mp h, (List.append_nil _).symm⟩
  | some sides =>
    obtain ⟨name, pattern⟩ := sides
    obtain ⟨rfl, hname⟩ := cutFirst_eq_some_iff.mp h
    exact ⟨name, some pattern, hname, rfl⟩

namespace Item

variable {item : Item}

theorem isBalanced_group_iff :
    (group name pattern).IsBalanced ↔
      '=' ∉ name ∧ ∀ c ∈ name ++ patternText pattern, isBrace c = false := by
  simp only [isBrace_eq_false_iff]
  cases pattern with
  | none => grind [IsBalanced, patternText]
  | some pattern => grind [IsBalanced, patternText]

/-- An item without stray braces is read as a proper piece. -/
theorem IsBalanced.isProper_piece (h : item.IsBalanced) : item.piece.IsProper := by
  cases item with
  | literal c => exact isBrace_eq_false_iff.mpr h
  | group name pattern => exact (isBalanced_group_iff.mp h).2

theorem IsBalanced.isNameless_piece_iff (h : item.IsBalanced) :
    item.piece.isNameless = true ↔ ¬item.IsNamed := by
  cases item with
  | literal c => simp [piece, Piece.isNameless, IsNamed]
  | group name pattern =>
    rw [piece, Piece.isNameless, groupName_append_patternText (isBalanced_group_iff.mp h).1,
      IsNamed, not_not, beq_iff_eq]

theorem IsBalanced.parameter?_piece (h : item.IsBalanced) :
    item.piece.parameter? = item.parameter? := by
  cases item with
  | literal c => rfl
  | group name pattern =>
    have hname := groupName_append_patternText (isBalanced_group_iff.mp h).1 pattern
    rw [parameter?, ← hname]
    rfl

end Item

/-- A proper piece is what is read where some item stands. -/
theorem Piece.IsProper.exists_item {piece : Piece} (h : piece.IsProper) :
    ∃ item : Item, item.IsBalanced ∧ item.piece = piece := by
  cases piece with
  | literal c => exact ⟨.literal c, isBrace_eq_false_iff.mp h, rfl⟩
  | group inside =>
    obtain ⟨name, pattern, hname, rfl⟩ := exists_eq_append_patternText inside
    exact ⟨.group name pattern, Item.isBalanced_group_iff.mpr ⟨hname, h⟩, rfl⟩

/-- Proper pieces are what is read where items stand. -/
theorem exists_items {pieces : List Piece} (h : ∀ piece ∈ pieces, piece.IsProper) :
    ∃ items : List Item, (∀ item ∈ items, item.IsBalanced) ∧ items.map Item.piece = pieces := by
  induction pieces with
  | nil => exact ⟨[], by simp, rfl⟩
  | cons piece rest ih =>
    rw [List.forall_mem_cons] at h
    obtain ⟨item, hitem, rfl⟩ := h.1.exists_item
    obtain ⟨items, hitems, rfl⟩ := ih h.2
    exact ⟨item :: items, List.forall_mem_cons.mpr ⟨hitem, hitems⟩, rfl⟩

/-- **Items are read as they stand.** -/
theorem scan_flatMap_item {items : List Item} (h : ∀ item ∈ items, item.IsBalanced) :
    scan (items.flatMap Item.text) = items.map Item.piece := by
  rw [← scan_flatMap_text (List.forall_mem_map.mpr fun item hi => (h item hi).isProper_piece),
    List.flatMap_map]
  simp only [Item.text_piece]

/-! ### Reading -/

/-- **The text is made of these items**, one after the other, and each group has a name. -/
structure IsMadeOf (path : String) (items : List Item) : Prop where
  text : items.flatMap Item.text = path.toList
  balanced : ∀ item ∈ items, item.IsBalanced
  named : ∀ item ∈ items, item.IsNamed

/-- **A template is read when it is made of items**, and yields a parameter for each group. -/
theorem parameters?_eq_ok_iff_isMadeOf {path : String} {parameters : List Parameter} :
    parameters? path = .ok parameters ↔
      ∃ items, IsMadeOf path items ∧ parameters = items.filterMap Item.parameter? := by
  have hparameters {items : List Item} (h : ∀ item ∈ items, item.IsBalanced) :
      (items.map Item.piece).filterMap Piece.parameter? = items.filterMap Item.parameter? := by
    rw [List.filterMap_map]
    exact List.filterMap_congr fun item hi => (h item hi).parameter?_piece
  rw [parameters?_eq_ok_iff]
  constructor
  · rintro ⟨hall, rfl⟩
    have hproper : ∀ piece ∈ scan path.toList, piece.IsProper := fun piece hp =>
      (isProper_or_isStray_of_mem_scan hp).resolve_right (by simp [(hall piece hp).2])
    obtain ⟨items, hbalanced, hitems⟩ := exists_items hproper
    refine ⟨items, ⟨?_, hbalanced, fun item hi => ?_⟩, by rw [← hitems, hparameters hbalanced]⟩
    · rw [← flatMap_text_scan path.toList, ← hitems, List.flatMap_map]
      simp only [Item.text_piece]
    · have hnamed := (hall item.piece (hitems ▸ List.mem_map_of_mem hi)).1
      rw [← Bool.not_eq_true, (hbalanced item hi).isNameless_piece_iff, not_not] at hnamed
      exact hnamed
  · rintro ⟨items, h, rfl⟩
    rw [← h.text, scan_flatMap_item h.balanced, hparameters h.balanced]
    refine ⟨List.forall_mem_map.mpr fun item hi => ⟨?_, ?_⟩, rfl⟩
    · rw [← Bool.not_eq_true, (h.balanced item hi).isNameless_piece_iff, not_not]
      exact h.named item hi
    · exact (h.balanced item hi).isProper_piece.isStray_eq_false

/-- **A group with a blank name** stands somewhere in the text, with no braces inside it. -/
def HasBlankGroup (path : String) : Prop :=
  ∃ name pattern, (Item.group name pattern).IsBalanced ∧ trimList name = [] ∧
    (Item.group name pattern).text <:+: path.toList

theorem any_isNameless_scan_iff {path : String} :
    (scan path.toList).any Piece.isNameless = true ↔ HasBlankGroup path := by
  rw [List.any_eq_true]
  constructor
  · rintro ⟨_ | inside, hp, hnameless⟩
    · cases hnameless
    · obtain ⟨hproper, hinfix⟩ := group_mem_scan_iff.mp hp
      obtain ⟨name, pattern, hname, rfl⟩ := exists_eq_append_patternText inside
      rw [Piece.isNameless, groupName_append_patternText hname, beq_iff_eq] at hnameless
      exact ⟨name, pattern, Item.isBalanced_group_iff.mpr ⟨hname, hproper⟩, hnameless, hinfix⟩
  · rintro ⟨name, pattern, hbalanced, hblank, hinfix⟩
    refine ⟨.group (name ++ patternText pattern), ?_, ?_⟩
    · exact group_mem_scan_iff.mpr ⟨hbalanced.isProper_piece, hinfix⟩
    · rw [Piece.isNameless, beq_iff_eq,
        groupName_append_patternText (Item.isBalanced_group_iff.mp hbalanced).1, hblank]

/-- A text that is not read has a group with a blank name, or else braces that belong to no
group. -/
theorem parameters?_eq_error_iff {path : String} {fault : TemplateFault} :
    parameters? path = .error fault ↔
      (¬∃ items, IsMadeOf path items) ∧ (fault = .blankParameter ↔ HasBlankGroup path) := by
  have hok : (∃ items, IsMadeOf path items) ↔ ∃ parameters, parameters? path = .ok parameters := by
    simp only [parameters?_eq_ok_iff_isMadeOf]
    exact ⟨fun ⟨items, h⟩ => ⟨_, items, h, rfl⟩, fun ⟨_, items, h, _⟩ => ⟨items, h⟩⟩
  rw [hok, ← any_isNameless_scan_iff]
  unfold parameters?
  dsimp only
  split
  · next hblank => cases fault <;> simp [hblank]
  next hblank =>
  split
  · cases fault <;> simp [hblank]
  · simp

/-- **What a text is read as**: it has parameters when it is made of items, one for each group in
order, and otherwise the fault says whether a group has a blank name. -/
theorem parameters?_outcome (path : String) :
    (∀ parameters, parameters? path = .ok parameters ↔
      ∃ items, IsMadeOf path items ∧ parameters = items.filterMap Item.parameter?) ∧
    ∀ fault, parameters? path = .error fault ↔
      (¬∃ items, IsMadeOf path items) ∧
        (HasBlankGroup path ∧ fault.message = "empty path parameter" ∨
          ¬HasBlankGroup path ∧ fault.message = "unbalanced braces") := by
  refine ⟨fun parameters => parameters?_eq_ok_iff_isMadeOf, fun fault => ?_⟩
  rw [parameters?_eq_error_iff, and_congr_right_iff]
  intro _
  cases fault with
  | blankParameter => simp [TemplateFault.message]
  | strayBrace => simp [TemplateFault.message]

/-- A pattern may have `=` in it, and groups do not nest. -/
example : parameters? "/\x7b shelf.id =a=*\x7d/b" =
      .ok [⟨"\x7b shelf.id =a=*\x7d", ["shelf", "id"]⟩] ∧
    parameters? "/\x7ba\x7b=b\x7d" = .error .blankParameter ∧
    parameters? "/\x7ba\x7bb\x7d\x7d" = .error .strayBrace := by decide +kernel

end ProtoClient.PathTemplate
