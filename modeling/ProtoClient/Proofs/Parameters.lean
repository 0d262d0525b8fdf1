import Mathlib.Data.List.Forall2
import ProtoClient.Options
import ProtoClient.Proofs.Text.Affix

/-!
# Parameters as text

Parameters are read from the parts between the commas of a text. A part sets the key before its
first `=` to the value behind it, both without their blank ends, so neither the order of different
keys nor the blanks around keys and values make a difference, and what was read can be written out
and read again.

## Main definitions

* `IsTrimmed s`: the text has no blank ends
* `Pads text padded`: the text with blanks put around it
* `Parameters.IsWritable parameters`: keys and values can be told apart when they are written
* `Parameters.Writes part key value`: the part is `key=value`, with blanks around key and value
* `Parameters.Assigns part key value`: the part sets the key to the value

## Main results

* `Parameters.assigned?_eq_some_iff`: what is read in a part is what it assigns
* `Parameters.Writes.assigns`: what is written of writable parameters assigns their values
* `Parameters.get?_ofText_eq_some_iff`: the last part that assigns a key gives its value
* `Parameters.ofText_roundTrip`: parameters are read as they were written, and what is read can be
  written
-/

namespace ProtoClient

open Text

variable {s text padded part key value : String}

/-- **A text without blank ends.** -/
structure IsTrimmed (s : String) : Prop where
  front : ∀ c ∈ s.toList.head?, isBlank c = false
  back : ∀ c ∈ s.toList.getLast?, isBlank c = false

/-- **A text with blanks around it**, or without. -/
def Pads (text padded : String) : Prop :=
  ∃ front back : String, (∀ c ∈ front.toList, isBlank c = true) ∧
    (∀ c ∈ back.toList, isBlank c = true) ∧ padded = front ++ text ++ back

/-! ### Trimmed and padded texts -/

theorem isTrimmed_trim (s : String) : IsTrimmed (trim s) := by
  constructor
  · rw [toList_trim]
    exact head?_trimList
  · rw [toList_trim]
    exact getLast?_trimList

theorem IsTrimmed.trim_eq (h : IsTrimmed s) : trim s = s := by
  rw [trim, trimList_eq_self h.front h.back, String.ofList_toList]

theorem isTrimmed_iff : IsTrimmed s ↔ trim s = s :=
  ⟨IsTrimmed.trim_eq, fun h => h ▸ isTrimmed_trim s⟩

instance (s : String) : Decidable (IsTrimmed s) :=
  decidable_of_iff (trim s = s) isTrimmed_iff.symm

theorem pads_self (text : String) : Pads text text :=
  ⟨"", "", by simp, by simp, by simp⟩

theorem Pads.trim_eq (h : Pads text padded) : trim padded = trim text := by
  obtain ⟨front, back, hfront, hback, rfl⟩ := h
  rw [trim, String.toList_append, String.toList_append, trimList_append_append hfront hback, trim]

/-- A mark that is not blank is in the padded text when it is in the text. -/
theorem Pads.mem_iff (h : Pads text padded) {mark : Char} (hmark : isBlank mark = false) :
    mark ∈ padded.toList ↔ mark ∈ text.toList := by
  obtain ⟨front, back, hfront, hback, rfl⟩ := h
  have hout {blanks : String} (hblanks : ∀ c ∈ blanks.toList, isBlank c = true) :
      mark ∉ blanks.toList := by
    intro hmem
    simp [hblanks mark hmem] at hmark
  simp [hout hfront, hout hback]

theorem mem_of_mem_trim {c : Char} (h : c ∈ (trim s).toList) : c ∈ s.toList := by
  rw [toList_trim] at h
  exact mem_of_mem_trimList h

namespace Parameters

variable {parameters : Parameters} {entries : List (String × String)} {parts : List String}

/-- **Keys and values that can be told apart**: neither of them has a comma or blank ends, and the
key has no `=`. -/
structure IsWritableEntry (key value : String) : Prop where
  key_noComma : ',' ∉ key.toList
  key_noEquals : '=' ∉ key.toList
  key_trimmed : IsTrimmed key
  value_noComma : ',' ∉ value.toList
  value_trimmed : IsTrimmed value

/-- **Writable parameters**: all keys and values can be told apart. -/
def IsWritable (parameters : Parameters) : Prop :=
  ∀ key value, parameters.get? key = some value → IsWritableEntry key value

/-- **A written parameter**: `key=value` with blanks around the key and around the value. -/
def Writes (part key value : String) : Prop :=
  ∃ before after, Pads key before ∧ Pads value after ∧ part = before ++ "=" ++ after

/-- **What a part assigns**: to the key before its first `=` the value behind it, and to a key
without a `=` the empty value. Blank parts assign nothing. -/
inductive Assigns : String → String → String → Prop
  | flag {part : String} (noEquals : '=' ∉ part.toList) (notBlank : trim part ≠ "") :
      Assigns part (trim part) ""
  | pair {before after : String} (first : '=' ∉ before.toList) :
      Assigns (before ++ "=" ++ after) (trim before) (trim after)

/-- What is read in a part: nothing when it is blank. -/
def assigned? (part : String) : Option (String × String) :=
  if trim part = "" then none else some (ofPart (trim part))

theorem ofText_eq (text : String) :
    ofText text = .ofList ((split ',' text).filterMap assigned?) := by
  rw [ofText]
  congr 1
  induction split ',' text with
  | nil => rfl
  | cons part rest ih =>
    by_cases hblank : trim part = ""
    · simpa [assigned?, hblank] using ih
    · simpa [assigned?, hblank] using ih

/-! ### What a part assigns -/

/-- A part without `=` is read as a key. -/
theorem ofPart_trim_of_notMem (h : '=' ∉ part.toList) : ofPart (trim part) = (trim part, "") := by
  have hcut : cut '=' (trim part) = none := by
    rw [cut, cutFirst_eq_none_iff.mpr fun hmem => h (mem_of_mem_trim hmem)]
    rfl
  rw [ofPart, hcut]

/-- Trimming a part leaves its first `=` where it was. -/
theorem toList_trim_pair (before after : String) :
    (trim (before ++ "=" ++ after)).toList = before.toList.dropWhile isBlank ++
      '=' :: (after.toList.reverse.dropWhile isBlank).reverse := by
  rw [toList_trim, String.toList_append, String.toList_append, List.append_assoc]
  exact trimList_append_cons (by decide) before.toList after.toList

/-- A part is read as what is before its first `=` and what is behind it. -/
theorem ofPart_trim_pair {before : String} (first : '=' ∉ before.toList) (after : String) :
    ofPart (trim (before ++ "=" ++ after)) = (trim before, trim after) := by
  have hcut : cut '=' (trim (before ++ "=" ++ after)) =
      some (String.ofList (before.toList.dropWhile isBlank),
        String.ofList (after.toList.reverse.dropWhile isBlank).reverse) := by
    rw [cut, toList_trim_pair, cutFirst_eq_some_iff.mpr ⟨rfl, ?_⟩]
    · rfl
    · intro hmem
      exact first ((List.dropWhile_suffix isBlank).subset hmem)
  rw [ofPart, hcut]
  simp only [trim, String.toList_ofList, trimList_dropWhile, trimList_reverse_dropWhile]

/-- **What is read in a part is what it assigns.** -/
theorem assigned?_eq_some_iff : assigned? part = some (key, value) ↔ Assigns part key value := by
  constructor
  · intro h
    rw [assigned?] at h
    split at h
    · cases h
    · next hblank =>
      have hread := Option.some.inj h
      by_cases hmem : '=' ∈ part.toList
      · obtain ⟨before, after, hsplit, first⟩ := List.eq_append_cons_of_mem hmem
        have hpart : part = String.ofList before ++ "=" ++ String.ofList after := by
          rw [← String.toList_inj, hsplit]
          simp
        have first : '=' ∉ (String.ofList before).toList := by simpa using first
        subst hpart
        rw [ofPart_trim_pair first] at hread
        cases hread
        exact .pair first
      · rw [ofPart_trim_of_notMem hmem] at hread
        cases hread
        exact .flag hmem hblank
  · intro h
    cases h with
    | flag noEquals notBlank =>
      rw [assigned?, if_neg notBlank, ofPart_trim_of_notMem noEquals]
    | @pair before after first =>
      have notBlank : trim (before ++ "=" ++ after) ≠ "" := by
        rw [Ne, ← String.toList_inj, toList_trim_pair]
        simp
      rw [assigned?, if_neg notBlank, ofPart_trim_pair first]

/-- A part without a comma assigns to a key and a value that can be told apart. -/
theorem Assigns.isWritableEntry (h : Assigns part key value) (hpart : ',' ∉ part.toList) :
    IsWritableEntry key value := by
  cases h with
  | flag noEquals notBlank =>
    exact ⟨fun hmem => hpart (mem_of_mem_trim hmem), fun hmem => noEquals (mem_of_mem_trim hmem),
      isTrimmed_trim part, by simp, by constructor <;> simp⟩
  | pair first =>
    simp only [String.toList_append, List.mem_append, not_or] at hpart
    exact ⟨fun hmem => hpart.1.1 (mem_of_mem_trim hmem), fun hmem => first (mem_of_mem_trim hmem),
      isTrimmed_trim _, fun hmem => hpart.2 (mem_of_mem_trim hmem), isTrimmed_trim _⟩

/-- What is written of a key and a value that can be told apart assigns this value to the key. -/
theorem Writes.assigns (h : Writes part key value) (entry : IsWritableEntry key value) :
    Assigns part key value := by
  obtain ⟨before, after, hbefore, hafter, rfl⟩ := h
  have first : '=' ∉ before.toList := by
    rw [hbefore.mem_iff (by decide)]
    exact entry.key_noEquals
  have hassigns : Assigns (before ++ "=" ++ after) (trim before) (trim after) := .pair first
  rwa [hbefore.trim_eq, hafter.trim_eq, entry.key_trimmed.trim_eq,
    entry.value_trimmed.trim_eq] at hassigns

theorem Writes.notMem_comma (h : Writes part key value) (entry : IsWritableEntry key value) :
    ',' ∉ part.toList := by
  obtain ⟨before, after, hbefore, hafter, rfl⟩ := h
  have hkey : ',' ∉ before.toList := by
    rw [hbefore.mem_iff (by decide)]
    exact entry.key_noComma
  have hvalue : ',' ∉ after.toList := by
    rw [hafter.mem_iff (by decide)]
    exact entry.value_noComma
  simp [hkey, hvalue]

/-! ### Writing and reading -/

/-- The last part that assigns a key gives its value. -/
theorem get?_ofText_eq_some_iff : (ofText text).get? key = some value ↔
    ∃ front part back, split ',' text = front ++ part :: back ∧ Assigns part key value ∧
      ∀ later ∈ back, ∀ other, ¬Assigns later key other := by
  rw [ofText_eq, NameMap.get?_ofList_eq_some_iff]
  constructor
  · rintro ⟨front, back, hentries, hback⟩
    obtain ⟨before, rest, hsplit, -, hrest⟩ := List.filterMap_eq_append_iff.mp hentries
    obtain ⟨blanks, part, after, hpart, -, hassigned, hafter⟩ :=
      List.filterMap_eq_cons_iff.mp hrest
    refine ⟨before ++ blanks, part, after, by simp [hsplit, hpart],
      assigned?_eq_some_iff.mp hassigned, ?_⟩
    intro later hlater other hassigns
    have hmem : (key, other) ∈ back := by
      rw [← hafter]
      exact List.mem_filterMap.mpr ⟨later, hlater, assigned?_eq_some_iff.mpr hassigns⟩
    exact hback _ hmem rfl
  · rintro ⟨front, part, back, hsplit, hassigns, hback⟩
    refine ⟨front.filterMap assigned?, back.filterMap assigned?, ?_, ?_⟩
    · rw [hsplit, List.filterMap_append,
        List.filterMap_cons_some (assigned?_eq_some_iff.mpr hassigns)]
    · rintro ⟨_, other⟩ hmem rfl
      obtain ⟨later, hlater, hassigned⟩ := List.mem_filterMap.mp hmem
      exact hback later hlater other (assigned?_eq_some_iff.mp hassigned)

/-- What is read can be written. -/
theorem isWritable_ofText (text : String) : (ofText text).IsWritable := by
  intro key value hget
  obtain ⟨front, part, back, hsplit, hassigns, -⟩ := get?_ofText_eq_some_iff.mp hget
  have hmem : part ∈ split ',' text := by simp [hsplit]
  exact hassigns.isWritableEntry (notMem_of_mem_split hmem)

/-- The parts in which entries are written are read as these entries. -/
theorem filterMap_assigned?_of_writes
    (hentries : ∀ entry ∈ entries, IsWritableEntry entry.1 entry.2)
    (hparts : List.Forall₂ (fun part entry => Writes part entry.1 entry.2) parts entries) :
    parts.filterMap assigned? = entries := by
  induction hparts with
  | nil => rfl
  | cons hwrites _ ih =>
    rw [List.forall_mem_cons] at hentries
    rw [List.filterMap_cons_some (assigned?_eq_some_iff.mpr (hwrites.assigns hentries.1)),
      ih hentries.2]

/-- The parts in which entries are written have no commas. -/
theorem forall_notMem_comma_of_writes
    (hentries : ∀ entry ∈ entries, IsWritableEntry entry.1 entry.2)
    (hparts : List.Forall₂ (fun part entry => Writes part entry.1 entry.2) parts entries) :
    ∀ part ∈ parts, ',' ∉ part.toList := by
  induction hparts with
  | nil => simp
  | cons hwrites _ ih =>
    rw [List.forall_mem_cons] at hentries ⊢
    exact ⟨hwrites.notMem_comma hentries.1, ih hentries.2⟩

/-- **Writable parameters are read as they were written**, in whatever order, with whatever blanks
around keys and values. -/
theorem IsWritable.ofText_intercalate (writable : parameters.IsWritable)
    (perm : entries.Perm parameters.entries)
    (hparts : List.Forall₂ (fun part entry => Writes part entry.1 entry.2) parts entries) :
    ofText (",".intercalate parts) = parameters := by
  have hentries : ∀ entry ∈ entries, IsWritableEntry entry.1 entry.2 := by
    intro entry hmem
    exact writable _ _ (NameMap.get?_eq_some_iff.mpr (perm.mem_iff.mp hmem))
  have hread : (split ',' (",".intercalate parts)).filterMap assigned? = entries := by
    by_cases hne : parts = []
    · subst hne
      cases hparts
      decide
    · rw [split_intercalate rfl hne (forall_notMem_comma_of_writes hentries hparts),
        filterMap_assigned?_of_writes hentries hparts]
  rw [ofText_eq, hread, NameMap.ofList_eq_of_perm perm]

/-- Writable parameters are read as they are printed. -/
theorem IsWritable.ofText_toText (writable : parameters.IsWritable) :
    ofText parameters.toText = parameters := by
  apply writable.ofText_intercalate (.refl _)
  rw [List.forall₂_map_left_iff, List.forall₂_same]
  intro entry _
  exact ⟨entry.1, entry.2, pads_self _, pads_self _, rfl⟩

/-- **Parameters and their texts.** Writable parameters are read as they were written, their
entries in whatever order and with whatever blanks around keys and values. Whatever text is read,
the parameters are writable, they are read again as they are printed, and each key has the value
of the last part that assigns it. -/
theorem ofText_roundTrip :
    (∀ (parameters : Parameters) (entries : List (String × String)) (parts : List String),
      parameters.IsWritable → entries.Perm parameters.entries →
      List.Forall₂ (fun part entry => Writes part entry.1 entry.2) parts entries →
      ofText (",".intercalate parts) = parameters) ∧
    ∀ text, (ofText text).IsWritable ∧ ofText (ofText text).toText = ofText text ∧
      ∀ key value, (ofText text).get? key = some value ↔
        ∃ front part back, split ',' text = front ++ part :: back ∧ Assigns part key value ∧
          ∀ later ∈ back, ∀ other, ¬Assigns later key other := by
  refine ⟨fun parameters entries parts writable => writable.ofText_intercalate, fun text => ?_⟩
  have writable := isWritable_ofText text
  exact ⟨writable, writable.ofText_toText, fun key value => get?_ofText_eq_some_iff⟩

end Parameters

namespace Sample

/-- Parameters with an empty key, an empty value and a `=` in a value. -/
def parameters : Parameters :=
  ⟨[("", "x"), ("flag", ""), ("query", "a=b")], by decide⟩

theorem isWritable_parameters : parameters.IsWritable := by
  intro key value hget
  have hmem := NameMap.get?_eq_some_iff.mp hget
  simp only [parameters, List.mem_cons, Prod.mk.injEq, List.not_mem_nil, or_false] at hmem
  rcases hmem with ⟨rfl, rfl⟩ | ⟨rfl, rfl⟩ | ⟨rfl, rfl⟩ <;>
    exact ⟨by decide, by decide, by decide, by decide, by decide⟩

end Sample

/-- The sample parameters are read from a text with an ideographic space and in another order. -/
theorem Parameters.ofText_roundTrip_parts :
    ofText " query\t= a=b ,flag=,=\u3000x" = Sample.parameters := by
  refine ofText_roundTrip.1 Sample.parameters [("query", "a=b"), ("flag", ""), ("", "x")]
    [" query\t= a=b ", "flag=", "=\u3000x"] Sample.isWritable_parameters (by decide) ?_
  refine .cons ⟨" query\t", " a=b ", ⟨" ", "\t", ?_⟩, ⟨" ", " ", ?_⟩, rfl⟩ <|
    .cons ⟨"flag", "", pads_self _, pads_self _, rfl⟩ <|
    .cons ⟨"", "\u3000x", pads_self _, ⟨"\u3000", "", ?_⟩, rfl⟩ .nil
  all_goals exact ⟨List.all_eq_true.mp (by decide), List.all_eq_true.mp (by decide), rfl⟩

end ProtoClient
