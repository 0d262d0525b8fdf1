import ProtoClient.Proofs.Identifier
import ProtoClient.Proofs.Resolution
import ProtoClient.Proofs.TypeScript.Interpolation
import ProtoClient.TypeScript.Request

/-!
# Reading the URL of a call

The URL of a call is a template literal. Read as one, it is the path of the rule that the call was
made from, with a part of the request in the place of each group, followed by a query where the call
has one. This asks for names of parameters that are dotted, so that a group is told from a part of
the request, and for property names that are written as they are.

## Main definitions

* `requestPart path`: the code for a part of the request
* `queryCode paths`: the code for the query that leaves out parts of the request
* `Method.groupPath registry options method inside`: the property path that a group stands for

## Main results

* `isApart_of_isDotted`: a group with a dotted name is apart from parts of the request
* `Method.toList_pathText`: the path of a call is that of its rule with the holes filled in
* `Method.readTemplate?_url`: the URL of an operation is read back to the path of its rule
-/

namespace ProtoClient

open Text PathTemplate

/-! ### Groups -/

/-- A character of a text is blank, or in the text without its blank ends. -/
theorem isBlank_or_mem_trimList {cs : List Char} {c : Char} (hc : c ∈ cs) :
    isBlank c = true ∨ c ∈ trimList cs := by
  have hdrop {cs : List Char} (hc : c ∈ cs) : isBlank c = true ∨ c ∈ cs.dropWhile isBlank := by
    rw [← List.takeWhile_append_dropWhile (p := isBlank) (l := cs), List.mem_append] at hc
    exact hc.imp_left fun h => List.all_eq_true.mp List.all_takeWhile c h
  rcases hdrop hc with hblank | hc
  · exact .inl hblank
  · exact (hdrop (List.mem_reverse.mpr hc)).imp_right List.mem_reverse.mpr

/-- A dotted name is made of word characters and dots. -/
theorem IsDotted.isWordChar_or_eq {name : String} (h : IsDotted name) {c : Char}
    (hc : c ∈ name.toList) : isWordChar c = true ∨ c = '.' := by
  by_cases hdot : c = '.'
  · exact .inr hdot
  · obtain ⟨segment, hs, hmem⟩ := (exists_mem_split_iff hdot name).mpr hc
    exact .inl (isWordChar_of_mem (h segment hs) hmem)

/-- The name in a group, with the blanks around it, ends at the first `=` or at the end of the
group. -/
theorem exists_append_close (inside : List Char) :
    ∃ d rest, (d = '=' ∨ d = '\x7d') ∧
      inside ++ ['\x7d'] = inside.takeWhile (· ≠ '=') ++ d :: rest := by
  have hsplit := List.takeWhile_append_dropWhile (p := (· ≠ '=')) (l := inside)
  cases hdrop : inside.dropWhile (· ≠ '=') with
  | nil =>
    rw [hdrop, List.append_nil] at hsplit
    exact ⟨'\x7d', [], .inr rfl, by rw [hsplit]⟩
  | cons d rest =>
    have hd : d = '=' := by
      have hhead := List.head?_dropWhile_not (p := (· ≠ '=')) inside
      rw [hdrop] at hhead
      simpa using hhead
    refine ⟨d, rest ++ ['\x7d'], .inl hd, ?_⟩
    conv_lhs => rw [← hsplit, hdrop]
    simp

/-- What ends in none of the characters of the front of a part of the request, and has no bracket
before that, does not go on as one. -/
theorem not_prefix_requestFront {front rest back : List Char} {d : Char} (hf : '[' ∉ front)
    (hd : d ∉ requestFront) : ¬front ++ d :: rest <+: requestFront ++ back := by
  simp only [requestFront, List.mem_cons, List.not_mem_nil, or_false, not_or] at hd
  obtain ⟨hr, he, hq, hb⟩ := hd
  rcases front with _ | ⟨a, _ | ⟨b, _ | ⟨c, _ | ⟨e, front⟩⟩⟩⟩ <;>
    simp_all [requestFront, List.cons_prefix_cons, eq_comm]

/-- **A group with a dotted name is apart from parts of the request**, whatever pattern it has. -/
theorem isApart_of_isDotted {inside : List Char}
    (h : IsDotted (String.ofList (groupName inside))) : IsApart inside := by
  intro back
  obtain ⟨d, rest, hd, heq⟩ := exists_append_close inside
  have hchars : ∀ c ∈ inside.takeWhile (· ≠ '='),
      isBlank c = true ∨ isWordChar c = true ∨ c = '.' := by
    intro c hc
    refine (isBlank_or_mem_trimList hc).imp_right fun hc => h.isWordChar_or_eq ?_
    rwa [String.toList_ofList]
  have hnot {mark : Char} (hblank : isBlank mark = false) (hword : isWordChar mark = false)
      (hdot : mark ≠ '.') : mark ∉ inside.takeWhile (· ≠ '=') := by
    intro hmem
    rcases hchars mark hmem with hc | hc | hc
    · simp [hblank] at hc
    · simp [hword] at hc
    · exact hdot hc
  have hplain : ∀ c ∈ inside.takeWhile (· ≠ '='), c ≠ '\\' ∧ c ≠ '`' ∧ c ≠ '$' := by
    refine fun c hc => ⟨?_, ?_, ?_⟩ <;> rintro rfl <;> exact hnot (by decide) (by decide)
      (by decide) hc
  have hescape : escapeTemplate (d :: rest) = d :: escapeTemplate rest := by
    rw [escapeTemplate_cons, escapeBefore_of_ne (by rcases hd with rfl | rfl <;> decide)]
    rfl
  rw [heq, escapeTemplate_append_of_forall hplain, hescape]
  refine not_prefix_requestFront (hnot (by decide) (by decide) (by decide)) ?_
  rcases hd with rfl | rfl <;> decide

/-! ### Code -/

/-- **The code for a part of the request**: what is below the first property may be absent. -/
def requestPart (path : List String) : String :=
  "req" ++ "?.".intercalate (path.map fun name => "[\"" ++ name ++ "\"]")

/-- **The code for the query** that leaves out parts of the request. -/
def queryCode (paths : List String) : String :=
  "fm.renderURLSearchParams(req, [" ++ ", ".intercalate (paths.map fun path => "\"" ++ path ++ "\"")
    ++ "])"

/-- A name that is written as it is, or several of them with dots in between. -/
def IsBare (name : String) : Prop :=
  ∀ c ∈ name.toList, isPlainChar c = true ∨ c = '.'

theorem IsBare.notMem {name : String} (h : IsBare name) {mark : Char}
    (hplain : isPlainChar mark = false) (hdot : mark ≠ '.') : mark ∉ name.toList := by
  intro hmem
  rcases h mark hmem with hc | hc
  · simp [hplain] at hc
  · exact hdot hc

/-- Characters of plain names are visible characters of ASCII. -/
theorem toNat_of_isPlainChar {c : Char} (h : isPlainChar c = true) :
    0x20 ≤ c.toNat ∧ c.toNat < 0x7f := by
  have hwithin {low high : Char} (hlow : 0x20 ≤ low.toNat) (hhigh : high.toNat < 0x7f)
      (hc : low.val ≤ c.val ∧ c.val ≤ high.val) : 0x20 ≤ c.toNat ∧ c.toNat < 0x7f :=
    ⟨Nat.le_trans hlow hc.1, Nat.lt_of_le_of_lt hc.2 hhigh⟩
  have both {p q : Prop} [Decidable p] [Decidable q] (h : (decide p && decide q) = true) :
      p ∧ q :=
    (Bool.and_eq_true_iff.mp h).imp of_decide_eq_true of_decide_eq_true
  simp only [isPlainChar, Bool.or_eq_true, beq_iff_eq] at h
  rcases h with (halphanum | rfl) | rfl
  · rcases (Bool.or_eq_true ..).mp halphanum with halpha | hdigit
    · rcases (Bool.or_eq_true ..).mp halpha with hupper | hlower
      · exact @hwithin 'A' 'Z' (by decide) (by decide) (of_decide_eq_true hupper)
      · exact @hwithin 'a' 'z' (by decide) (by decide) (both hlower)
    · exact @hwithin '0' '9' (by decide) (by decide) (both hdigit)
  · decide
  · decide

/-- A bare name is quoted by putting quotes around it. -/
theorem IsBare.quote_eq {name : String} (h : IsBare name) : quote name = "\"" ++ name ++ "\"" := by
  have hflat : name.toList.flatMap quoteChar = name.toList := by
    have heach : ∀ c ∈ name.toList, quoteChar c = [c] := by
      intro c hc
      have hrange : 0x20 ≤ c.toNat ∧ c.toNat < 0x7f := by
        rcases h c hc with hplain | rfl
        · exact toNat_of_isPlainChar hplain
        · decide
      refine quoteChar_of_plain hrange.1 hrange.2 ?_ ?_ <;> rintro rfl
      · exact h.notMem (by decide) (by decide) hc
      · exact h.notMem (by decide) (by decide) hc
    rw [List.flatMap_congr heach]
    exact List.flatMap_singleton' _
  rw [← String.toList_inj, quote, String.toList_ofList, quoteList, hflat]
  simp

/-- A character of joined texts is one of the separator or of one of the texts. -/
theorem mem_intercalate {sep : String} {parts : List String} {c : Char}
    (hc : c ∈ (sep.intercalate parts).toList) :
    c ∈ sep.toList ∨ ∃ part ∈ parts, c ∈ part.toList := by
  induction parts with
  | nil => simp at hc
  | cons part rest ih =>
    by_cases hr : rest = []
    · subst hr
      rw [String.intercalate_singleton] at hc
      exact .inr ⟨part, List.mem_cons_self, hc⟩
    · rw [String.intercalate_cons_of_ne_nil hr, String.toList_append, String.toList_append,
        List.mem_append, List.mem_append] at hc
      rcases hc with (hc | hc) | hc
      · exact .inr ⟨part, List.mem_cons_self, hc⟩
      · exact .inl hc
      · exact (ih hc).imp_right fun ⟨other, ho, hc⟩ => ⟨other, List.mem_cons_of_mem _ ho, hc⟩

/-- Joined texts begin with the first of them. -/
theorem exists_intercalate_cons (sep part : String) (rest : List String) :
    ∃ back, sep.intercalate (part :: rest) = part ++ back := by
  by_cases hr : rest = []
  · subst hr
    exact ⟨"", by rw [String.intercalate_singleton, String.append_empty]⟩
  · exact ⟨_, by rw [String.intercalate_cons_of_ne_nil hr, String.append_assoc]⟩

section Parts

variable {path : List String} (hpath : ∀ name ∈ path, IsBare name)

include hpath

theorem propertyAccess_eq_requestPart : propertyAccess path = requestPart path := by
  have hnames : path.map (fun name => "[" ++ quote name ++ "]") =
      path.map fun name => "[\"" ++ name ++ "\"]" := by
    refine List.map_congr_left fun name hn => ?_
    rw [(hpath name hn).quote_eq, ← String.toList_inj]
    simp
  rw [propertyAccess, requestPart, hnames]

theorem map_quote_eq : path.map quote = path.map fun name => "\"" ++ name ++ "\"" :=
  List.map_congr_left fun name hn => (hpath name hn).quote_eq

/-- Texts that are made of bare names and of a frame around each hold no marks besides those of the
frame and of what joins them. -/
theorem notMem_intercalate {sep : String} {frame : String → String} {mark : Char}
    (hframe : ∀ name, mark ∈ (frame name).toList → mark ∈ name.toList) (hsep : mark ∉ sep.toList)
    (hplain : isPlainChar mark = false) (hdot : mark ≠ '.') :
    mark ∉ (sep.intercalate (path.map frame)).toList := by
  intro hmem
  rcases mem_intercalate hmem with hmem | ⟨part, hpart, hmem⟩
  · exact hsep hmem
  · obtain ⟨name, hn, rfl⟩ := List.mem_map.mp hpart
    exact (hpath name hn).notMem hplain hdot (hframe name hmem)

/-- The code for a part of the request holds no braces and no backticks. -/
theorem notMem_requestPart {mark : Char} (hm : mark = '\x7b' ∨ mark = '\x7d' ∨ mark = '`') :
    mark ∉ (requestPart path).toList := by
  rw [requestPart, String.toList_append, List.mem_append, not_or]
  rcases hm with rfl | rfl | rfl
  all_goals
    refine ⟨by decide, notMem_intercalate hpath ?_ (by decide) (by decide) (by decide)⟩
    intro name hmem
    simpa using hmem

/-- The code for a query holds no braces and no backticks. -/
theorem notMem_queryCode {mark : Char} (hm : mark = '\x7b' ∨ mark = '\x7d' ∨ mark = '`') :
    mark ∉ (queryCode path).toList := by
  unfold queryCode
  simp only [String.toList_append, List.mem_append, not_or]
  rcases hm with rfl | rfl | rfl
  all_goals
    refine ⟨⟨by decide +kernel, notMem_intercalate hpath ?_ (by decide) (by decide) (by decide)⟩,
      by decide⟩
    intro name hmem
    simpa using hmem

/-- A hole for a part of the request is settled. -/
theorem settled_holeOf_requestPart (hne : path ≠ []) :
    Settled (holeOf (requestPart path).toList) := by
  obtain ⟨name, rest, rfl⟩ := List.exists_cons_of_ne_nil hne
  have hfront : requestFront <+: (requestPart (name :: rest)).toList := by
    obtain ⟨back, hback⟩ := exists_intercalate_cons "?." ("[\"" ++ name ++ "\"]")
      (rest.map fun name => "[\"" ++ name ++ "\"]")
    rw [requestPart, List.map_cons, hback]
    exact ⟨_, by simp [requestFront]; rfl⟩
  have hclosed : Settled ((requestPart (name :: rest)).toList ++ ['\x7d']) :=
    (settled_of_notMem (notMem_requestPart hpath (by decide))).append
      (settled_of_notMem (by decide))
  exact ⟨fun h => absurd h (by decide), fun _ => hfront.trans (List.prefix_append _ _), hclosed⟩

end Parts

/-! ### Paths -/

/-- **The property path that a group stands for** in the requests of a method. -/
def Method.groupPath (registry : Registry) (options : Options) (method : Method)
    (inside : List Char) : List String :=
  propertyPath registry options (registry.find? method.input)
    (split '.' (String.ofList (groupName inside)))

theorem Method.groupPath_ne_nil {registry : Registry} {options : Options} (method : Method)
    (inside : List Char) : method.groupPath registry options inside ≠ [] := by
  intro hnil
  have hlength := congrArg List.length hnil
  rw [Method.groupPath, propertyPath_length, List.length_nil, List.length_eq_zero_iff] at hlength
  exact split_ne_nil _ _ hlength

/-- What is between the braces of a group. -/
def PathTemplate.Piece.inside? : Piece → Option (List Char)
  | .literal _ => none
  | .group inside => some inside

/-- **The parts of a URL**: the pieces of a path, with parts of the request in the place of groups,
and a query if there is one, which leaves out what the groups stand for. -/
def urlParts (path : List Char → List String) (pieces : List Piece) (query : Prop)
    [Decidable query] : List TemplatePart :=
  pieces.map (Piece.part fun inside => (requestPart (path inside)).toList) ++
    if query then
      [.char '?', .hole (queryCode ((pieces.filterMap Piece.inside?).map fun inside =>
        ".".intercalate (path inside)).eraseDups).toList]
    else []

theorem toList_templateHole (code : String) :
    (templateHole code).toList = holeOf code.toList := by
  simp [templateHole, holeOf]

section Operation

variable {registry : Registry} {options : Options} {source : String} {method : Method}
  {binding : Binding} {operation : Operation}

theorem filterMap_parameter?_eq_map (pieces : List Piece) :
    pieces.filterMap Piece.parameter? = (pieces.filterMap Piece.inside?).map groupParameter := by
  rw [List.map_filterMap]
  refine List.filterMap_congr fun piece _ => ?_
  cases piece <;> rfl

theorem mem_filterMap_inside? {pieces : List Piece} {inside : List Char} :
    inside ∈ pieces.filterMap Piece.inside? ↔ .group inside ∈ pieces := by
  rw [List.mem_filterMap]
  constructor
  · rintro ⟨_ | _, hp, h⟩ <;> cases h
    exact hp
  · exact fun hp => ⟨_, hp, rfl⟩

variable (h : method.operation registry options source binding = .ok operation)

include h

/-- The path of the rule of an operation is made of proper pieces. -/
theorem Method.isProper_of_operation :
    ∀ piece ∈ scan binding.path.toList, piece.IsProper := by
  obtain ⟨_, _, _, -, -, hparameters, -⟩ := Method.operation_eq_ok_iff.mp h
  intro piece hp
  refine (isProper_or_isStray_of_mem_scan hp).resolve_right ?_
  simp [((parameters?_eq_ok_iff.mp hparameters).1 piece hp).2]

/-- The parameters of an operation are those of the groups in the path of its rule, in order. -/
theorem Method.parameters_of_operation :
    operation.call.parameters = ((scan binding.path.toList).filterMap Piece.inside?).map
      fun inside => ⟨(groupParameter inside).template,
        method.groupPath registry options inside⟩ := by
  obtain ⟨_, _, _, -, -, hparameters, rfl⟩ := Method.operation_eq_ok_iff.mp h
  rw [(parameters?_eq_ok_iff.mp hparameters).2, Method.operationOf]
  dsimp only
  rw [filterMap_parameter?_eq_map, List.map_map]
  rfl

theorem Method.boundNames_of_operation :
    operation.call.boundNames = (((scan binding.path.toList).filterMap Piece.inside?).map
      fun inside => ".".intercalate (method.groupPath registry options inside)).eraseDups := by
  rw [Call.boundNames, Method.parameters_of_operation h, List.map_map]
  simp only [Function.comp_def]

variable (hplain : ∀ parameter ∈ operation.call.parameters, ∀ name ∈ parameter.path,
  name.toList.all isPlainChar = true)

include hplain

theorem Method.isBare_of_mem_groupPath {inside : List Char}
    (hi : .group inside ∈ scan binding.path.toList) :
    ∀ name ∈ method.groupPath registry options inside, IsBare name := by
  intro name hn c hc
  rw [Method.parameters_of_operation h, List.forall_mem_map] at hplain
  have hall := hplain inside (mem_filterMap_inside?.mpr hi)
  dsimp only at hall
  exact .inl (List.all_eq_true.mp (hall name hn) c hc)

/-- The dotted property paths that a path has used are bare. -/
theorem Method.isBare_of_mem_boundNames : ∀ name ∈ operation.call.boundNames, IsBare name := by
  intro name hn c hc
  rw [Method.boundNames_of_operation h, List.mem_eraseDups] at hn
  obtain ⟨inside, hi, rfl⟩ := List.mem_map.mp hn
  rcases mem_intercalate hc with hc | ⟨segment, hs, hc⟩
  · exact .inr (List.mem_singleton.mp hc)
  · exact Method.isBare_of_mem_groupPath h hplain (mem_filterMap_inside?.mp hi) segment hs c hc

/-- The query of an operation is a hole behind a question mark. -/
theorem Method.toList_queryText :
    operation.call.queryText.toList =
      '?' :: holeOf (queryCode operation.call.boundNames).toList := by
  have hcode : operation.call.queryText =
      "?" ++ templateHole (queryCode operation.call.boundNames) := by
    unfold Call.queryText queryCode
    rw [map_quote_eq (Method.isBare_of_mem_boundNames h hplain)]
  rw [hcode, String.toList_append, toList_templateHole]
  rfl

variable (hdotted : ∀ inside, .group inside ∈ scan binding.path.toList →
  IsDotted (String.ofList (groupName inside)))

include hdotted

/-- **The path of a call is the path of its rule with the holes filled in.** -/
theorem Method.toList_pathText :
    operation.call.pathText.toList =
      fillIn (fun inside =>
        holeOf (propertyAccess (method.groupPath registry options inside)).toList)
        (scan binding.path.toList) := by
  have hsettled : ∀ inside, .group inside ∈ scan binding.path.toList →
      Settled (holeOf (propertyAccess (method.groupPath registry options inside)).toList) := by
    intro inside hi
    have hbare := Method.isBare_of_mem_groupPath h hplain hi
    rw [propertyAccess_eq_requestPart hbare]
    exact settled_holeOf_requestPart hbare (method.groupPath_ne_nil inside)
  have hproper := Method.isProper_of_operation h
  obtain ⟨_, _, _, -, -, hparameters, rfl⟩ := Method.operation_eq_ok_iff.mp h
  have hfold := @foldl_replaceFirst_eq_fillIn (scan binding.path.toList)
    (fun parameter => holeOf (propertyAccess (propertyPath registry options
      (registry.find? method.input) parameter.segments)).toList) [] trivial hproper
    (fun inside hi => isApart_of_isDotted (hdotted inside hi)) hsettled
  rw [flatMap_text_scan, ← (parameters?_eq_ok_iff.mp hparameters).2] at hfold
  rw [Call.pathText, String.toList_ofList, Method.operationOf]
  simp only [List.foldl_map, toList_templateHole]
  exact hfold

omit hdotted in
/-- The holes in the path of a call are the parts of the request that its groups stand for. -/
theorem Method.map_part_eq :
    (scan binding.path.toList).map (Piece.part fun inside =>
        (propertyAccess (method.groupPath registry options inside)).toList) =
      (scan binding.path.toList).map (Piece.part fun inside =>
        (requestPart (method.groupPath registry options inside)).toList) := by
  refine List.map_congr_left fun piece hp => ?_
  cases piece with
  | literal c => rw [Piece.part_literal, Piece.part_literal]
  | group inside =>
    rw [Piece.part_group, Piece.part_group,
      propertyAccess_eq_requestPart (Method.isBare_of_mem_groupPath h hplain hp)]

/-- **The path of a call is read back to the path of its rule**, in front of anything but a
brace. -/
theorem Method.readTemplate?_pathText {rest : List Char} (hr : rest.head? ≠ some '\x7b') :
    readTemplate? (operation.call.pathText.toList ++ rest) =
      (readTemplate? rest).map ((scan binding.path.toList).map (Piece.part fun inside =>
        (requestPart (method.groupPath registry options inside)).toList) ++ ·) := by
  rw [Method.toList_pathText h hplain hdotted, ← Method.map_part_eq h hplain]
  refine readTemplate?_fillIn (Method.isProper_of_operation h) (fun inside hi => ?_) hr
  have hbare := Method.isBare_of_mem_groupPath h hplain hi
  rw [propertyAccess_eq_requestPart hbare]
  exact notMem_requestPart hbare (.inr (.inl rfl))

omit hdotted in
/-- The query of an operation is read back as a question mark and a hole. -/
theorem Method.readTemplate?_queryText :
    readTemplate? operation.call.queryText.toList =
      some [.char '?', .hole (queryCode operation.call.boundNames).toList] := by
  have hcode := readTemplate?_hole (notMem_queryCode
    (Method.isBare_of_mem_boundNames h hplain) (.inr (.inl rfl))) []
  rw [Method.toList_queryText h hplain, readTemplate?_char (by decide) (by simp [holeOf]), holeOf,
    hcode, readTemplate?_nil, Option.map_some, Option.map_some]

omit hdotted in
/-- No backtick stands in the holes of a URL. -/
theorem Method.notMem_of_hole_mem_urlParts {query : Prop} [Decidable query] {code : List Char}
    (hcode : .hole code ∈ urlParts (method.groupPath registry options)
      (scan binding.path.toList) query) : '`' ∉ code := by
  rw [urlParts, List.mem_append, ← Method.boundNames_of_operation h] at hcode
  rcases hcode with hcode | hcode
  · obtain ⟨piece, hp, hpart⟩ := List.mem_map.mp hcode
    cases piece with
    | literal c =>
      rw [Piece.part_literal] at hpart
      exact absurd hpart TemplatePart.noConfusion
    | group inside =>
      rw [Piece.part_group] at hpart
      obtain rfl := TemplatePart.hole.inj hpart
      exact notMem_requestPart (Method.isBare_of_mem_groupPath h hplain hp) (.inr (.inr rfl))
  · split at hcode
    · obtain rfl : code = (queryCode operation.call.boundNames).toList := by simpa using hcode
      exact notMem_queryCode (Method.isBare_of_mem_boundNames h hplain) (.inr (.inr rfl))
    · cases hcode

/-- **The URL of an operation is read back to the path of its rule.** No backtick ends the template
literal early, the characters of the path outside its groups stand for themselves, each group has
become a part of the request, and a call of a verb without a body has a query behind the path. -/
theorem Method.readTemplate?_url :
    (scan binding.path.toList).flatMap Piece.text = binding.path.toList ∧
      (∀ piece ∈ scan binding.path.toList, piece.IsProper) ∧
      readTemplate? operation.call.url.toList =
        some (urlParts (method.groupPath registry options) (scan binding.path.toList)
          (operation.call.body = none ∧
            (operation.call.verb = "GET" ∨ operation.call.verb = "DELETE"))) ∧
      ∀ code, .hole code ∈ urlParts (method.groupPath registry options)
          (scan binding.path.toList) (operation.call.body = none ∧
            (operation.call.verb = "GET" ∨ operation.call.verb = "DELETE")) → '`' ∉ code := by
  have hsends : operation.call.sendsQuery = true ↔ operation.call.body = none ∧
      (operation.call.verb = "GET" ∨ operation.call.verb = "DELETE") := by
    simp [Call.sendsQuery]
  refine ⟨flatMap_text_scan _, Method.isProper_of_operation h, ?_,
    fun code hcode => Method.notMem_of_hole_mem_urlParts h hplain hcode⟩
  rw [Call.url, urlParts, ← Method.boundNames_of_operation h]
  by_cases hsend : operation.call.sendsQuery = true
  · have hhead : operation.call.queryText.toList.head? ≠ some '\x7b' := by
      rw [Method.toList_queryText h hplain]
      simp
    rw [if_pos hsend, if_pos (hsends.mp hsend), String.toList_append,
      Method.readTemplate?_pathText h hplain hdotted hhead,
      Method.readTemplate?_queryText h hplain, Option.map_some]
  · have hnil : ([] : List Char).head? ≠ some '\x7b' := by simp
    have hread := Method.readTemplate?_pathText h hplain hdotted hnil
    rw [if_neg hsend, if_neg (mt hsends.mpr hsend)]
    rwa [List.append_nil, readTemplate?_nil, Option.map_some] at hread

end Operation

namespace Sample

/-- A method that looks for books, with a request that declares no fields. -/
def books : Method where
  name := "Find"
  input := ".google.protobuf.Empty"
  output := ".google.protobuf.Empty"
  clientStreaming := false
  serverStreaming := false
  binding := none

/-- A path with a group that occurs twice, a group right behind a dollar, a pattern that has to be
escaped, and a backslash and a backtick outside the groups. -/
def booksBinding : Binding where
  verb := .get
  path := "/\\/\x7bshelf.book_id=`$\x7d/`/$\x7b page \x7d/\x7bshelf.book_id=`$\x7d"
  body := none

/-- What the URL of the books is read back as. -/
def booksParts : List TemplatePart :=
  [.char '/', .char '\\', .char '/', .hole "req[\"shelf\"]?.[\"bookId\"]".toList, .char '/',
    .char '`', .char '/', .char '$', .hole "req[\"page\"]".toList, .char '/',
    .hole "req[\"shelf\"]?.[\"bookId\"]".toList, .char '?',
    .hole "fm.renderURLSearchParams(req, [\"shelf.bookId\", \"page\"])".toList]

end Sample

/-- The path of the books is read back, and the query leaves out what it has used. -/
theorem Method.readTemplate?_url_books :
    ∃ operation, Sample.books.operation .empty {} "books.proto" Sample.booksBinding =
        .ok operation ∧
      (∀ parameter ∈ operation.call.parameters, ∀ name ∈ parameter.path,
        name.toList.all isPlainChar = true) ∧
      (∀ inside, .group inside ∈ scan Sample.booksBinding.path.toList →
        IsDotted (String.ofList (groupName inside))) ∧
      readTemplate? operation.call.url.toList = some Sample.booksParts := by
  obtain ⟨operation, hok, heq⟩ : ∃ operation,
      Sample.books.operation .empty {} "books.proto" Sample.booksBinding = .ok operation ∧
        (operation.call.verb, operation.call.body,
          operation.call.parameters.map PathParameter.path) =
          ("GET", none, [["shelf", "bookId"], ["page"], ["shelf", "bookId"]]) :=
    map_eq_ok_iff.mp (by decide +kernel)
  simp only [Prod.mk.injEq] at heq
  obtain ⟨hverb, hbody, hpaths⟩ := heq
  have hplain : ∀ parameter ∈ operation.call.parameters, ∀ name ∈ parameter.path,
      name.toList.all isPlainChar = true := by
    have hall : ∀ path ∈ operation.call.parameters.map PathParameter.path, ∀ name ∈ path,
        name.toList.all isPlainChar = true := by
      rw [hpaths]
      decide
    exact List.forall_mem_map.mp hall
  have hdotted : ∀ inside, .group inside ∈ scan Sample.booksBinding.path.toList →
      IsDotted (String.ofList (groupName inside)) := by
    have hall : ∀ inside ∈ (scan Sample.booksBinding.path.toList).filterMap Piece.inside?,
        IsDotted (String.ofList (groupName inside)) := by decide +kernel
    exact fun inside hi => hall inside (mem_filterMap_inside?.mpr hi)
  have hparts : urlParts (Sample.books.groupPath .empty {})
      (scan Sample.booksBinding.path.toList) True = Sample.booksParts := by decide +kernel
  obtain ⟨-, -, hread, -⟩ := Method.readTemplate?_url hok hplain hdotted
  simp only [hverb, hbody, true_and, true_or] at hread
  exact ⟨operation, hok, hplain, hdotted, hread.trans (congrArg some hparts)⟩

end ProtoClient
