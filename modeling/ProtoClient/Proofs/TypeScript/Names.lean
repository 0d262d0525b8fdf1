import ProtoClient.Proofs.Text.Quoted
import ProtoClient.Proofs.TypeScript.Body
import ProtoClient.Proofs.TypeScript.TopLevel

/-!
# Names in the written code

The name of a property is written in three places: as the key of its declaration, within the code
for a part of the request, and among the names that a query leaves out. A key is quoted only where
it has to be, and in the other places the name is quoted always, as is the verb of a call. Read back
from the code, each of them is the name again, so a call finds the properties that are declared.

## Main definitions

* `readKey? cs`, `declaredKey? line`: the key at the front of a text, and the one that a line
  declares
* `keyName? key`: the name that a key stands for
* `LiteralList`, `LiteralList.literals? list text`: the literals in a list that is laid out in some
  way
* `verbLiteral? init`: the literal of the verb in the last part of a call

## Main results

* `LiteralList.literals?_text`: the literals of a list are read back as they are written
* `Call.literals?_queryText`, `literals?_propertyAccess`: the names in a query and in the code for a
  part of the request
* `quote_denotes`: what is written for a name stands for the name
-/

namespace ProtoClient

open Text

/-! ### Keys -/

/-- **The key at the front of a text**, a literal or a plain name, and what follows it. -/
def readKey? (cs : List Char) : Option (List Char × List Char) :=
  match readLiteral? cs with
  | some (literal, rest) => some (literal, rest)
  | none =>
    if isPlain (cs.takeWhile isPlainChar) then
      some (cs.takeWhile isPlainChar, cs.dropWhile isPlainChar)
    else none

/-- **The key that a line declares**, behind the blanks in front of it. -/
def declaredKey? (line : String) : Option String :=
  (readKey? (line.toList.dropWhile (· = ' '))).map fun (key, _) => String.ofList key

/-- **The name that a key stands for**: a plain name for itself, a literal for its text. -/
def keyName? (key : String) : Option String :=
  if isPlain key.toList then some key else literalText? key

/-- A quoted name is no plain name. -/
theorem isPlain_quote (name : String) : isPlain (quote name).toList = false := by
  rw [toList_quote]
  rfl

theorem propertyKey_of_not_isPlain {name : String} (h : isPlain name.toList = false) :
    propertyKey name = quote name := by
  rw [propertyKey, h, if_neg Bool.false_ne_true]

/-- **A key stands for its name.** -/
theorem keyName?_propertyKey {name : String} (h : IsLegible name) :
    keyName? (propertyKey name) = some name := by
  cases hplain : isPlain name.toList with
  | true => rw [propertyKey_of_isPlain hplain, keyName?, if_pos hplain]
  | false =>
    rw [propertyKey_of_not_isPlain hplain, keyName?, isPlain_quote, if_neg Bool.false_ne_true,
      literalText?_quote h]

/-- A key begins with a quote or as a plain name. -/
theorem exists_propertyKey_eq_cons (name : String) :
    ∃ first rest, (propertyKey name).toList = first :: rest ∧
      (first = '"' ∨ isPlainChar first = true) := by
  cases hplain : isPlain name.toList with
  | false =>
    rw [propertyKey_of_not_isPlain hplain, toList_quote]
    exact ⟨_, _, rfl, .inl rfl⟩
  | true =>
    rw [propertyKey_of_isPlain hplain]
    cases hname : name.toList with
    | nil => simp [hname, isPlain] at hplain
    | cons first rest =>
      exact ⟨first, rest, rfl, .inr (isPlainChar_of_mem hplain (by simp [hname]))⟩

theorem readLiteral?_eq_none {c : Char} (hc : c ≠ '"') (rest : List Char) :
    readLiteral? (c :: rest) = none := by
  unfold readLiteral?
  split
  · next h => exact absurd (List.cons.inj h).1 hc
  · rfl

/-- The key of a property is read in front of anything that does not go on as a plain name. -/
theorem readKey?_propertyKey (name : String) {c : Char} (hc : isPlainChar c = false)
    (rest : List Char) :
    readKey? ((propertyKey name).toList ++ c :: rest) =
      some ((propertyKey name).toList, c :: rest) := by
  cases hplain : isPlain name.toList with
  | false => rw [propertyKey_of_not_isPlain hplain, toList_quote, readKey?, readLiteral?_quoteList]
  | true =>
    have hchars : ∀ d ∈ name.toList, isPlainChar d = true := fun d => isPlainChar_of_mem hplain
    have hfront : (name.toList ++ c :: rest).takeWhile isPlainChar = name.toList := by
      rw [List.takeWhile_append_of_pos hchars, List.takeWhile_cons_of_neg (by simp [hc]),
        List.append_nil]
    have hback : (name.toList ++ c :: rest).dropWhile isPlainChar = c :: rest := by
      rw [List.dropWhile_append_of_pos hchars, List.dropWhile_cons_of_neg (by simp [hc])]
    have hnone : readLiteral? (name.toList ++ c :: rest) = none := by
      obtain ⟨first, more, hname, hfirst⟩ := exists_propertyKey_eq_cons name
      rw [propertyKey_of_isPlain hplain] at hname
      rw [hname] at hchars ⊢
      refine readLiteral?_eq_none ?_ _
      rintro rfl
      exact absurd (hchars '"' List.mem_cons_self) (by decide)
    rw [propertyKey_of_isPlain hplain, readKey?, hnone, hfront, hback]
    exact if_pos hplain

/-- Behind blanks, the key is read that a property declares. -/
theorem declaredKey?_append {blanks : String} (hblanks : ∀ c ∈ blanks.toList, c = ' ')
    (name : String) {mark : String} {c : Char} {rest : List Char} (hmark : mark.toList = c :: rest)
    (hc : isPlainChar c = false) (type : String) :
    declaredKey? (blanks ++ propertyKey name ++ mark ++ type) = some (propertyKey name) := by
  have hdrop : (blanks ++ propertyKey name ++ mark ++ type).toList.dropWhile (· = ' ') =
      (propertyKey name).toList ++ c :: (rest ++ type.toList) := by
    obtain ⟨first, more, hname, hfirst⟩ := exists_propertyKey_eq_cons name
    have hne : first ≠ ' ' := by
      rintro rfl
      exact absurd hfirst (by decide)
    simp only [String.toList_append, List.append_assoc, hmark, hname]
    rw [List.dropWhile_append_of_pos (by simpa using hblanks), List.cons_append,
      List.dropWhile_cons_of_neg (by simpa using hne)]
    rfl
  rw [declaredKey?, hdrop, readKey?_propertyKey name hc]
  simp

/-- **A line declares the key of its property**, among all properties and in a group. -/
theorem Property.declaredKey?_line (property : Property) :
    declaredKey? property.line = some (propertyKey property.name) := by
  rw [line]
  exact declaredKey?_append (by simp) property.name (show "?: ".toList = ['?', ':', ' '] from rfl)
    (by decide) _

theorem Property.declaredKey?_member (property : Property) :
    declaredKey? property.member = some (propertyKey property.name) := by
  rw [member, ← String.empty_append (s := propertyKey property.name)]
  exact declaredKey?_append (by simp) property.name (show ": ".toList = [':', ' '] from rfl)
    (by decide) _

/-! ### Lists of literals -/

/-- **A list of literals in the code**: what it starts with, what stands in front of each literal
and behind it, what separates them, and what the list ends in. -/
structure LiteralList where
  start : String
  front : String
  back : String
  separator : String
  finish : String

namespace LiteralList

variable {list : LiteralList}

/-- The names of the properties in the code for a part of the request. -/
def access : LiteralList := ⟨"req", "[", "]", "?.", ""⟩

/-- The names that a query leaves out. -/
def exclusion : LiteralList := ⟨"?$\x7bfm.renderURLSearchParams(req, [", "", "", ", ", "])\x7d"⟩

/-- **The list of the quoted names**, as it is written. -/
def text (list : LiteralList) (names : List String) : String :=
  list.start ++ list.separator.intercalate
    (names.map fun name => list.front ++ quote name ++ list.back) ++ list.finish

/-- The literal of the item at the front of a text, and what follows the item. -/
def readItem? (list : LiteralList) (cs : List Char) : Option (List Char × List Char) :=
  (cs.dropPrefix? list.front.toList).bind fun rest =>
    (readLiteral? rest).bind fun (literal, rest) =>
      (rest.dropPrefix? list.back.toList).map fun rest => (literal, rest)

theorem length_le_of_dropPrefix? {front cs rest : List Char}
    (h : cs.dropPrefix? front = some rest) : rest.length ≤ cs.length := by
  obtain ⟨dropped, rfl, -⟩ := List.dropPrefix?_eq_some_iff.mp h
  simp

/-- Reading an item leaves less. -/
theorem length_lt_of_readItem? {cs literal rest : List Char}
    (h : list.readItem? cs = some (literal, rest)) : rest.length < cs.length := by
  simp only [readItem?, Option.bind_eq_some_iff, Option.map_eq_some_iff, Prod.mk.injEq] at h
  obtain ⟨inside, hfront, ⟨literal, behind⟩, hliteral, rest, hback, -, rfl⟩ := h
  dsimp only at hback
  have hinside := length_le_of_dropPrefix? hfront
  have hbehind := length_lt_of_readLiteral? hliteral
  have hrest := length_le_of_dropPrefix? hback
  omega

/-- The literals of the items at the front of a text, and what follows them. -/
def readItems (list : LiteralList) (cs : List Char) : List (List Char) × List Char :=
  match item : list.readItem? cs with
  | none => ([], cs)
  | some (literal, rest) =>
    match more : rest.dropPrefix? list.separator.toList with
    | none => ([literal], rest)
    | some next =>
      have : next.length < cs.length :=
        Nat.lt_of_le_of_lt (length_le_of_dropPrefix? more) (length_lt_of_readItem? item)
      let (literals, after) := list.readItems next
      (literal :: literals, after)
termination_by cs.length

/-- **The literals in a list**, when a text is a list of this layout. -/
def literals? (list : LiteralList) (text : String) : Option (List String) :=
  (text.toList.dropPrefix? list.start.toList).bind fun rest =>
    match list.readItems rest with
    | (literals, after) =>
      if after = list.finish.toList then some (literals.map String.ofList) else none

section Equations

variable {cs literal rest : List Char}

theorem readItems_of_none (h : list.readItem? cs = none) : list.readItems cs = ([], cs) := by
  rw [readItems]
  split
  · rfl
  · next h' => cases h.symm.trans h'

theorem readItems_of_last (h : list.readItem? cs = some (literal, rest))
    (hlast : rest.dropPrefix? list.separator.toList = none) :
    list.readItems cs = ([literal], rest) := by
  rw [readItems]
  split
  · next h' => cases h.symm.trans h'
  · next h' =>
    cases h.symm.trans h'
    split
    · rfl
    · next hmore => cases hlast.symm.trans hmore

theorem readItems_of_more (h : list.readItem? cs = some (literal, rest)) {next : List Char}
    (hmore : rest.dropPrefix? list.separator.toList = some next) :
    list.readItems cs = (literal :: (list.readItems next).1, (list.readItems next).2) := by
  rw [readItems]
  split
  · next h' => cases h.symm.trans h'
  · next h' =>
    cases h.symm.trans h'
    split
    · next hlast => cases hmore.symm.trans hlast
    · next hmore' =>
      cases hmore.symm.trans hmore'
      rfl

end Equations

/-- **An item is read as it is written.** -/
theorem readItem?_item (name : String) (rest : List Char) :
    list.readItem? ((list.front ++ quote name ++ list.back).toList ++ rest) =
      some ((quote name).toList, rest) := by
  rw [String.toList_append, String.toList_append, List.append_assoc, List.append_assoc, readItem?,
    dropPrefix?_append, Option.bind_some, toList_quote, readLiteral?_quoteList, Option.bind_some]
  exact congrArg (Option.map _) (dropPrefix?_append list.back.toList rest)

/-- **The items of a list are read as they are written**, in front of what is neither another
item nor a separator. -/
theorem readItems_intercalate {after : List Char} (hitem : list.readItem? after = none)
    (hseparator : after.dropPrefix? list.separator.toList = none) (names : List String) :
    list.readItems ((list.separator.intercalate
        (names.map fun name => list.front ++ quote name ++ list.back)).toList ++ after) =
      (names.map fun name => (quote name).toList, after) := by
  induction names with
  | nil => exact readItems_of_none hitem
  | cons name names ih =>
    by_cases hn : names = []
    · rw [hn, List.map_singleton, String.intercalate_singleton]
      exact readItems_of_last (readItem?_item name after) hseparator
    · have hmap : names.map (fun name => list.front ++ quote name ++ list.back) ≠ [] := by
        simpa using hn
      rw [List.map_cons, String.intercalate_cons_of_ne_nil hmap, String.toList_append,
        String.toList_append, List.append_assoc, List.append_assoc,
        readItems_of_more (readItem?_item name _) (dropPrefix?_append _ _), ih]
      rfl

/-- **The literals of a list are read back as they are written.** -/
theorem literals?_text (hitem : list.readItem? list.finish.toList = none)
    (hseparator : list.finish.toList.dropPrefix? list.separator.toList = none)
    (names : List String) : list.literals? (list.text names) = some (names.map quote) := by
  rw [literals?, text, String.toList_append, String.toList_append, List.append_assoc,
    dropPrefix?_append, Option.bind_some, readItems_intercalate hitem hseparator]
  simp

end LiteralList

/-! ### Names in a call -/

/-- **The names in the code for a part of the request** are quoted. -/
theorem literals?_propertyAccess (path : List String) :
    LiteralList.access.literals? (propertyAccess path) = some (path.map quote) := by
  have htext : LiteralList.access.text path = propertyAccess path := String.append_empty
  rw [← htext]
  exact LiteralList.literals?_text (by decide) (by decide) path

/-- **The names that a query leaves out** are quoted. -/
theorem Call.literals?_queryText (call : Call) :
    LiteralList.exclusion.literals? call.queryText = some (call.boundNames.map quote) := by
  have htext : LiteralList.exclusion.text call.boundNames = call.queryText := by
    rw [← String.toList_inj]
    simp [LiteralList.text, LiteralList.exclusion, queryText, templateHole]
  rw [← htext]
  exact LiteralList.literals?_text (by decide) (by decide) call.boundNames

/-- **The literal of the verb** in the last part of a call. -/
def verbLiteral? (init : String) : Option String :=
  (init.toList.dropPrefix? initFront).bind fun rest =>
    (readLiteral? rest).map fun (literal, _) => String.ofList literal

/-- **The verb of a call** is quoted. -/
theorem Call.verbLiteral?_init (call : Call) : verbLiteral? call.init = some (quote call.verb) := by
  have hread (body : String) :
      verbLiteral? ("\x7b...initReq, method: " ++ quote call.verb ++ body ++ "\x7d") =
        some (quote call.verb) := by
    rw [verbLiteral?, String.toList_append, String.toList_append, String.toList_append,
      toList_quote, List.append_assoc, List.append_assoc]
    refine (congrArg (Option.bind · _) (dropPrefix?_append initFront _)).trans ?_
    rw [Option.bind_some, readLiteral?_quoteList]
    rfl
  exact hread _

/-- **The name that the code for a property of the request asks for.** -/
def accessedName? (access : String) : Option String :=
  match LiteralList.access.literals? access with
  | some [literal] => literalText? literal
  | _ => none

theorem accessedName?_propertyAccess {name : String} (h : IsLegible name) :
    accessedName? (propertyAccess [name]) = some name := by
  rw [accessedName?, literals?_propertyAccess]
  exact literalText?_quote h

/-- A quoted name is a literal. -/
theorem exists_isLiteralBody_quote (name : String) :
    ∃ body, quote name = "\"" ++ body ++ "\"" ∧ IsLiteralBody body.toList := by
  refine ⟨String.ofList (name.toList.flatMap quoteChar), ?_, ?_⟩
  · rw [← String.toList_inj, toList_quote]
    simp [quoteList]
  · rw [String.toList_ofList]
    exact isLiteralBody_flatMap_quoteChar _

/-- **What is written for a name stands for the name.** A quoted name is a literal, and when it is
legible, the literal stands for it. It is what is written as a key, unless the name is plain, in the
code for a part of the request, among the names that a query leaves out, as the verb of a call, and
as the property that is sent. So a key and the code for a property agree when their names do. -/
theorem quote_denotes :
    (∀ name, ∃ body, quote name = "\"" ++ body ++ "\"" ∧ IsLiteralBody body.toList) ∧
    (∀ name, IsLegible name → literalText? (quote name) = some name) ∧
    (∀ name, (isPlain name.toList = true → propertyKey name = name) ∧
      (isPlain name.toList = false → propertyKey name = quote name)) ∧
    (∀ property : Property, declaredKey? property.line = some (propertyKey property.name) ∧
      declaredKey? property.member = some (propertyKey property.name)) ∧
    (∀ path, LiteralList.access.literals? (propertyAccess path) = some (path.map quote)) ∧
    (∀ call : Call,
      LiteralList.exclusion.literals? call.queryText = some (call.boundNames.map quote) ∧
      verbLiteral? call.init = some (quote call.verb) ∧
      readInit? call.init.toList = some (.of call.body)) ∧
    (∀ a b, IsLegible a → IsLegible b →
      ∃ declared accessed, keyName? (propertyKey a) = some declared ∧
        accessedName? (propertyAccess [b]) = some accessed ∧ (declared = accessed ↔ a = b)) :=
  ⟨exists_isLiteralBody_quote, fun _ => literalText?_quote,
    fun _ => ⟨propertyKey_of_isPlain, propertyKey_of_not_isPlain⟩,
    fun property => ⟨property.declaredKey?_line, property.declaredKey?_member⟩,
    literals?_propertyAccess,
    fun call => ⟨call.literals?_queryText, call.verbLiteral?_init, call.readInit?_init⟩,
    fun a b ha hb => ⟨a, b, keyName?_propertyKey ha, accessedName?_propertyAccess hb, Iff.rfl⟩⟩

namespace Sample

/-- A name with a quote, a backslash, a line feed, a null character in front of a letter, a
combining accent in front of a digit, and a separator of lines. -/
def oddName : String := "a\"\\\n\x00b\u03011\u2028"

end Sample

/-- The odd name is quoted, and both its key and the code for its property stand for it. -/
theorem quote_denotes_oddName :
    IsLegible Sample.oddName ∧
      quote Sample.oddName = "\"a\\\"\\\\\\n\\0b\\u\x7b301\x7d1\\u\x7b2028\x7d\"" ∧
      literalText? (quote Sample.oddName) = some Sample.oddName ∧
      ∃ declared accessed, keyName? (propertyKey Sample.oddName) = some declared ∧
        accessedName? (propertyAccess ["a"]) = some accessed ∧ declared ≠ accessed := by
  have hodd : IsLegible Sample.oddName := by decide
  obtain ⟨-, hread, -, -, -, -, hagree⟩ := quote_denotes
  obtain ⟨declared, accessed, hkey, haccess, hiff⟩ := hagree Sample.oddName "a" hodd (by decide)
  exact ⟨hodd, by decide +kernel, hread _ hodd, declared, accessed, hkey, haccess,
    fun h => absurd (hiff.mp h) (by decide)⟩

end ProtoClient
