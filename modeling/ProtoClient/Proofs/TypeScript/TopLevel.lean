import Mathlib.Data.List.Flatten
import Mathlib.Data.List.Perm.Basic
import ProtoClient.Proofs.Text.Affix
import ProtoClient.TypeScript.Module

/-!
# Reading the bound names off the lines of a module

What stands at the top level of a module is not indented, and the first words of a line tell what
it binds: an import the names in its braces or its alias, a declaration the name after its keywords.
Read in this way, the lines of a module bind the names that `ClientModule.boundNames` lists.

## Main definitions

* `frontName s`: the name at the front of a text
* `namesBoundBy line`: the names that a line binds

## Main results

* `Import.namesBoundBy_line`: the line of an import binds what it imports
* `ClientModule.namesBoundBy_lines`: the lines of a module bind the names that are listed for it
-/

namespace ProtoClient

open Text

/-- The name at the front of a text. -/
def frontName (s : String) : String :=
  String.ofList (s.toList.takeWhile isPlainChar)

/-- **The names that a line binds** at the top level of a module. A line that is indented belongs to
a declaration that has begun above it, and binds none. -/
def namesBoundBy (line : String) : List String :=
  match split ' ' line with
  | "import" :: "*" :: "as" :: name :: _ => [frontName name]
  | "import" :: "\x7b" :: names => (names.takeWhile (· ≠ "\x7d")).map frontName
  | "export" :: _ :: name :: _ => [frontName name]
  | "type" :: name :: _ => [frontName name]
  | _ => []

section Names

variable {name rest : String}

theorem isPlainChar_of_mem {cs : List Char} (h : isPlain cs = true) {c : Char} (hc : c ∈ cs) :
    isPlainChar c = true := by
  cases cs with
  | nil => cases hc
  | cons first rest =>
    simp only [isPlain, Bool.and_eq_true, List.all_eq_true] at h
    rcases List.mem_cons.mp hc with rfl | hc
    · exact h.1.1
    · exact h.2 c hc

/-- What begins as a plain name and goes on with characters of names is a plain name. -/
theorem isPlain_append {cs ds : List Char} (h : isPlain cs = true)
    (hd : ds.all isPlainChar = true) : isPlain (cs ++ ds) = true := by
  cases cs with
  | nil => cases h
  | cons first rest =>
    simp only [isPlain, Bool.and_eq_true] at h
    simp only [List.cons_append, isPlain, List.all_append, Bool.and_eq_true]
    exact ⟨h.1, h.2, hd⟩

theorem notMem_of_isPlain (h : isPlain name.toList = true) : ' ' ∉ name.toList := by
  intro hc
  exact absurd (isPlainChar_of_mem h hc) (by decide)

/-- A plain name at the front of a text is read in full. -/
theorem frontName_append (h : isPlain name.toList = true) (rest : String) :
    frontName (name ++ rest) = name ++ frontName rest := by
  rw [← String.toList_inj]
  unfold frontName
  rw [String.toList_append, List.takeWhile_append_of_pos fun c hc => isPlainChar_of_mem h hc]
  simp

theorem frontName_of_isPlain (h : isPlain name.toList = true) : frontName name = name := by
  have := frontName_append h ""
  rwa [String.append_empty, show frontName "" = "" from rfl, String.append_empty] at this

end Names

/-! ### Words -/

theorem toList_space : " ".toList = [' '] := rfl

/-- A plain name between blanks is a word. -/
theorem split_name {name : String} (h : isPlain name.toList = true) (front rest : String) :
    split ' ' (front ++ " " ++ name ++ (" " ++ rest)) =
      split ' ' front ++ name :: split ' ' rest := by
  rw [← String.append_assoc, split_append toList_space, split_append toList_space,
    split_of_notMem (notMem_of_isPlain h), List.append_assoc]
  rfl

/-- Names that are listed with commas between them can be read off the words of the list. -/
theorem map_frontName_split {names : List String} (hne : names ≠ [])
    (h : ∀ name ∈ names, isPlain name.toList = true) :
    (split ' ' (", ".intercalate names)).map frontName = names := by
  induction names with
  | nil => exact absurd rfl hne
  | cons name rest ih =>
    rw [List.forall_mem_cons] at h
    by_cases hr : rest = []
    · rw [hr, String.intercalate_singleton, split_of_notMem (notMem_of_isPlain h.1),
        List.map_singleton, frontName_of_isPlain h.1]
    · have hcomma : ' ' ∉ (name ++ ",").toList := by
        rw [String.toList_append, List.mem_append, not_or]
        exact ⟨notMem_of_isPlain h.1, by decide⟩
      have hlist : name ++ ", " = name ++ "," ++ " " := by
        rw [String.append_assoc]
        rfl
      rw [String.intercalate_cons_of_ne_nil hr, hlist, split_append toList_space,
        split_of_notMem hcomma, List.map_append, List.map_singleton, frontName_append h.1,
        ih hr h.2]
      exact congrArg (· :: rest) String.append_empty

/-! ### Lines -/

/-- A line that is indented binds nothing. -/
theorem namesBoundBy_of_hasFront {line : String} (h : hasFront " " line = true) :
    namesBoundBy line = [] := by
  obtain ⟨rest, rfl⟩ := hasFront_iff.mp h
  have hsplit : split ' ' ("" ++ " " ++ rest) = split ' ' "" ++ split ' ' rest :=
    split_append toList_space "" rest
  rw [String.empty_append] at hsplit
  rw [namesBoundBy, hsplit]
  rfl

/-- Indented lines bind nothing. -/
theorem flatMap_namesBoundBy_of_hasFront {lines : List String}
    (h : ∀ line ∈ lines, hasFront " " line = true) : lines.flatMap namesBoundBy = [] :=
  List.flatMap_eq_nil_iff.mpr fun line hl => namesBoundBy_of_hasFront (h line hl)

/-- The line that imports the shared fetch module binds its alias. -/
theorem namesBoundBy_importAll (specifier : String) :
    namesBoundBy ("import * as fm from \"" ++ specifier ++ "\"") = ["fm"] := by
  have hline : "import * as fm from \"" ++ specifier ++ "\"" =
      "import * as fm" ++ " " ++ ("from \"" ++ specifier ++ "\"") := by
    have hfront : "import * as fm from \"" = "import * as fm" ++ " " ++ "from \"" := rfl
    simp only [hfront, String.append_assoc]
  rw [hline, namesBoundBy, split_append toList_space]
  rfl

/-- **The line of an import binds what it imports.** -/
theorem Import.namesBoundBy_line {imported : Import} (hne : imported.identifiers ≠ [])
    (h : ∀ name ∈ imported.identifiers, isPlain name.toList = true) :
    namesBoundBy imported.line = imported.identifiers := by
  have hnames := map_frontName_split hne h
  have hline : imported.line = "import \x7b" ++ " " ++ ", ".intercalate imported.identifiers ++
      " " ++ ("\x7d" ++ " " ++ ("from \"" ++ imported.specifier ++ "\"")) := by
    have hopen : "import \x7b " = "import \x7b" ++ " " := rfl
    have hclose : " \x7d from \"" = " " ++ "\x7d" ++ " " ++ "from \"" := rfl
    simp only [Import.line, hopen, hclose, String.append_assoc]
  have hword : ∀ word ∈ split ' ' (", ".intercalate imported.identifiers), word ≠ "\x7d" := by
    rintro word hw rfl
    exact absurd (h _ (hnames ▸ List.mem_map_of_mem hw)) (by decide)
  rw [namesBoundBy, hline, split_append toList_space, split_append toList_space,
    split_append toList_space]
  change List.map frontName (List.takeWhile (fun word => decide (word ≠ "\x7d"))
    (split ' ' (", ".intercalate imported.identifiers) ++
      "\x7d" :: split ' ' ("from \"" ++ imported.specifier ++ "\""))) = imported.identifiers
  rw [List.takeWhile_append_of_pos (by simpa using hword), List.takeWhile_cons_of_neg (by decide),
    List.append_nil, hnames]

/-- An exported declaration binds the name after its keyword. -/
theorem namesBoundBy_of_export {line keyword name : String} {more : List String}
    (hs : split ' ' line = "export" :: keyword :: name :: more) (h : isPlain name.toList = true) :
    namesBoundBy line = [name] := by
  rw [namesBoundBy, hs]
  exact congrArg ([·]) (frontName_of_isPlain h)

/-- A declaration between braces binds what its first line binds. -/
theorem namesBoundBy_block {head : String} {body : List String}
    (h : ∀ line ∈ body, hasFront " " line = true) :
    ([head] ++ body ++ ["\x7d"]).flatMap namesBoundBy = namesBoundBy head := by
  rw [List.flatMap_append, List.flatMap_append, flatMap_namesBoundBy_of_hasFront h,
    List.append_nil, List.flatMap_singleton]
  exact List.append_nil _

/-! ### Declarations -/

/-- A string enum binds its name. -/
theorem StringEnum.namesBoundBy_lines {enum : StringEnum}
    (h : isPlain enum.identifier.toList = true) :
    enum.lines.flatMap namesBoundBy = [enum.identifier] := by
  have hvalues : ∀ line ∈ enum.values.map fun value =>
      "  " ++ value.name ++ " = \"" ++ value.name ++ "\",", hasFront " " line = true := by
    rw [List.forall_mem_map]
    intro value hvalue
    iterate 4 apply hasFront_append
    rfl
  rw [lines, namesBoundBy_block hvalues]
  exact namesBoundBy_of_export (split_name h "export enum" "\x7b") h

theorem Property.hasFront_line (property : Property) : hasFront " " property.line = true := by
  iterate 3 apply hasFront_append
  rfl

theorem ObjectType.hasFront_choiceLine (object : ObjectType) (choice : Choice) :
    hasFront " " (object.choiceLine choice) = true := by
  iterate 2 apply hasFront_append
  rfl

/-- **An object type binds its base type**, if it has one, and itself. -/
theorem ObjectType.namesBoundBy_lines {object : ObjectType}
    (h : isPlain object.identifier.toList = true) :
    object.lines.flatMap namesBoundBy =
      (if object.choices.isEmpty then [] else [object.baseName]) ++ [object.identifier] := by
  have hproperties (properties : List Property) :
      ∀ line ∈ properties.map Property.line, hasFront " " line = true :=
    List.forall_mem_map.mpr fun property _ => property.hasFront_line
  unfold lines
  split
  · rw [namesBoundBy_block (hproperties _)]
    exact namesBoundBy_of_export (split_name h "export type" "= \x7b") h
  · have hbase : isPlain object.baseName.toList = true := by
      rw [baseName, String.toList_append]
      exact isPlain_append h rfl
    have hchoices : ∀ line ∈ object.choices.map object.choiceLine, hasFront " " line = true :=
      List.forall_mem_map.mpr fun choice _ => object.hasFront_choiceLine choice
    have htype : namesBoundBy ("type " ++ object.baseName ++ " = \x7b") = [object.baseName] := by
      rw [namesBoundBy, show split ' ' ("type " ++ object.baseName ++ " = \x7b") =
        ["type", object.baseName, "=", "\x7b"] from split_name hbase "type" "= \x7b"]
      exact congrArg ([·]) (frontName_of_isPlain hbase)
    have hsum : "export type " ++ object.identifier ++ " = " ++ object.baseName =
        "export type" ++ " " ++ object.identifier ++ (" " ++ ("= " ++ object.baseName)) := by
      have hfront : "export type " = "export type" ++ " " := rfl
      have hequal : " = " = " " ++ "= " := rfl
      simp only [hfront, hequal, String.append_assoc]
    have hself := namesBoundBy_of_export (split_name h "export type" ("= " ++ object.baseName)) h
    rw [List.flatMap_append, List.flatMap_append, List.flatMap_append, List.flatMap_singleton,
      flatMap_namesBoundBy_of_hasFront (hproperties _), flatMap_namesBoundBy_of_hasFront hchoices,
      htype, hsum]
    simp only [List.flatMap_cons, hself]
    rfl

/-- Every line of an operation is indented. -/
theorem Operation.hasFront_lines (operation : Operation) :
    ∀ line ∈ operation.lines, hasFront " " line = true := by
  unfold lines
  split
  all_goals
    rw [List.forall_mem_cons, List.forall_mem_cons, List.forall_mem_singleton]
    refine ⟨?_, ?_, rfl⟩
    all_goals
      iterate 6 apply hasFront_append
      rfl

/-- A client binds its name. -/
theorem Client.namesBoundBy_lines {client : Client}
    (h : isPlain client.identifier.toList = true) :
    client.lines.flatMap namesBoundBy = [client.identifier] := by
  have hoperations : ∀ line ∈ client.operations.flatMap Operation.lines,
      hasFront " " line = true := by
    intro line hl
    obtain ⟨operation, -, hl⟩ := List.mem_flatMap.mp hl
    exact operation.hasFront_lines line hl
  rw [lines, namesBoundBy_block hoperations]
  exact namesBoundBy_of_export (split_name h "export class" "\x7b") h

/-! ### Modules -/

theorem namesBoundBy_headingLines (stylingCheck : Bool) :
    (headingLines stylingCheck).flatMap namesBoundBy = [] := by
  cases stylingCheck <;> decide

/-- What oneofs are written with binds two names. -/
theorem namesBoundBy_oneOfLines : oneOfLines.flatMap namesBoundBy = ["Absent", "OneOf"] := by
  decide +kernel

/-- The empty line behind declarations binds nothing. -/
theorem flatMap_namesBoundBy_concat (lines : List String) :
    (lines ++ [""]).flatMap namesBoundBy = lines.flatMap namesBoundBy := by
  rw [List.flatMap_append]
  exact List.append_nil _

/-- Declarations with empty lines behind them bind what each of them binds. -/
theorem flatMap_namesBoundBy_blocks {α : Type} {block : α → List String} {names : α → List String}
    {parts : List α} (h : ∀ part ∈ parts, (block part).flatMap namesBoundBy = names part) :
    (parts.flatMap fun part => block part ++ [""]).flatMap namesBoundBy = parts.flatMap names := by
  rw [List.flatMap_assoc]
  apply List.flatMap_congr
  intro part hp
  rw [flatMap_namesBoundBy_concat, h part hp]

namespace ClientModule

variable {module : ClientModule}

/-- The import block binds the alias of the shared fetch module and what is imported. -/
theorem namesBoundBy_importLines
    (hne : ∀ imported ∈ module.imports, imported.identifiers ≠ [])
    (h : ∀ imported ∈ module.imports, ∀ name ∈ imported.identifiers, isPlain name.toList = true) :
    module.importLines.flatMap namesBoundBy =
      (if module.fetch.isSome then ["fm"] else []) ++
        module.imports.flatMap Import.identifiers := by
  have hfetch : (module.fetch.toList.map fun specifier =>
      "import * as fm from \"" ++ specifier ++ "\"").flatMap namesBoundBy =
        if module.fetch.isSome then ["fm"] else [] := by
    cases module.fetch with
    | none => rfl
    | some specifier =>
      exact (List.append_nil _).trans (namesBoundBy_importAll specifier)
  have himports : (module.imports.map Import.line).flatMap namesBoundBy =
      module.imports.flatMap Import.identifiers := by
    rw [List.flatMap_map]
    apply List.flatMap_congr
    intro imported hi
    exact Import.namesBoundBy_line (hne imported hi) (h imported hi)
  unfold importLines
  rw [← hfetch, ← himports, ← List.flatMap_append]
  dsimp only
  split
  · next hempty => rw [List.isEmpty_iff.mp hempty]
  · rw [flatMap_namesBoundBy_concat]

/-- Each object type binds its base type right before itself, where the list has the base types
first. -/
theorem flatMap_baseName_perm (objects : List ObjectType) :
    (objects.flatMap fun object =>
      (if object.choices.isEmpty then [] else [object.baseName]) ++ [object.identifier]).Perm
      ((objects.filter (!·.choices.isEmpty)).map ObjectType.baseName ++
        objects.map ObjectType.identifier) := by
  have hbases : (objects.filter (!·.choices.isEmpty)).map ObjectType.baseName =
      objects.flatMap fun object =>
        if object.choices.isEmpty then [] else [object.baseName] := by
    induction objects with
    | nil => rfl
    | cons object objects ih =>
      rw [List.flatMap_cons, ← ih]
      cases hc : object.choices.isEmpty <;> simp [hc]
  rw [hbases, List.map_eq_flatMap]
  exact (List.flatMap_append_perm _ _ _).symm

/-- **The lines of a module bind the names that are listed for it.** -/
theorem namesBoundBy_lines
    (hne : ∀ imported ∈ module.imports, imported.identifiers ≠ [])
    (h : ∀ name ∈ module.boundNames, isPlain name.toList = true) :
    (module.lines.flatMap namesBoundBy).Perm module.boundNames := by
  simp only [boundNames, List.forall_mem_append, List.forall_mem_flatMap, List.forall_mem_map] at h
  obtain ⟨⟨⟨⟨⟨⟨-, himports⟩, -⟩, -⟩, henums⟩, hobjects⟩, hclients⟩ := h
  have honeOf : module.oneOfBlock.flatMap namesBoundBy =
      if module.objects.any (!·.choices.isEmpty) then ["Absent", "OneOf"] else [] := by
    unfold oneOfBlock
    split
    · rw [flatMap_namesBoundBy_concat, namesBoundBy_oneOfLines]
    · rfl
  have hlines : module.lines.flatMap namesBoundBy =
      (if module.fetch.isSome then ["fm"] else []) ++ module.imports.flatMap Import.identifiers ++
        (if module.objects.any (!·.choices.isEmpty) then ["Absent", "OneOf"] else []) ++
        module.enums.map StringEnum.identifier ++
        (module.objects.flatMap fun object =>
          (if object.choices.isEmpty then [] else [object.baseName]) ++ [object.identifier]) ++
        module.clients.map Client.identifier := by
    simp only [lines, List.flatMap_append, List.map_eq_flatMap]
    rw [namesBoundBy_headingLines, namesBoundBy_importLines hne himports, honeOf,
      flatMap_namesBoundBy_blocks fun enum he => StringEnum.namesBoundBy_lines (henums enum he),
      flatMap_namesBoundBy_blocks fun object ho =>
        ObjectType.namesBoundBy_lines (hobjects object ho),
      flatMap_namesBoundBy_blocks fun client hc => Client.namesBoundBy_lines (hclients client hc),
      List.nil_append]
  rw [hlines, List.perm_iff_count]
  intro name
  have hbases := (flatMap_baseName_perm module.objects).count_eq name
  simp only [boundNames, List.count_append] at hbases ⊢
  omega

end ClientModule

end ProtoClient
