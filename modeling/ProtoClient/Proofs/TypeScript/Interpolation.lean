import ProtoClient.Proofs.PathTemplate
import ProtoClient.TypeScript.Template

/-!
# Template literals from path templates

A path template becomes a template literal by putting holes in the place of its groups. All of it is
escaped first, and then the escaped groups are replaced one after the other, each where its text is
found first. For this to fill in the right holes, no group may be found in a hole that was put in
before: the braces of holes are told from those of groups by what stands behind them.

## Main definitions

* `fillIn hole pieces`: the template literal in which groups have become holes
* `Settled front`: every brace in a text opens a hole for a part of the request

## Main results

* `foldl_replaceFirst_eq_fillIn`: replacing the escaped groups in order fills in the holes
* `readTemplate?_fillIn`: the template literal is read back to the characters and the holes
-/

namespace ProtoClient

open Text PathTemplate

variable {pieces : List Piece}

/-! ### Escaping -/

/-- **A character as it stands in a template literal** in front of another one. -/
def escapeBefore (next : Option Char) (c : Char) : List Char :=
  if c = '\\' ∨ c = '`' ∨ (c = '$' ∧ next = some '\x7b') then ['\\', c] else [c]

theorem escapeTemplate_cons (c : Char) (rest : List Char) :
    escapeTemplate (c :: rest) = escapeBefore rest.head? c ++ escapeTemplate rest := by
  rw [escapeTemplate, escapeBefore]
  split <;> rfl

theorem escapeBefore_of_ne {next : Option Char} {c : Char} (h : c ≠ '\\' ∧ c ≠ '`' ∧ c ≠ '$') :
    escapeBefore next c = [c] := by
  simp [escapeBefore, h]

/-- Characters that mean nothing in a template literal are left alone. -/
theorem escapeTemplate_append_of_forall {front : List Char}
    (h : ∀ c ∈ front, c ≠ '\\' ∧ c ≠ '`' ∧ c ≠ '$') (rest : List Char) :
    escapeTemplate (front ++ rest) = front ++ escapeTemplate rest := by
  induction front with
  | nil => rfl
  | cons c front ih =>
    rw [List.forall_mem_cons] at h
    rw [List.cons_append, escapeTemplate_cons, escapeBefore_of_ne h.1, ih h.2]
    rfl

/-- A text that ends in a closing brace is escaped as if nothing followed it. -/
theorem escapeTemplate_append_close (cs rest : List Char) :
    escapeTemplate (cs ++ '\x7d' :: rest) =
      escapeTemplate (cs ++ ['\x7d']) ++ escapeTemplate rest := by
  induction cs with
  | nil =>
    rw [List.nil_append, List.nil_append, escapeTemplate_cons, escapeTemplate_cons,
      escapeBefore_of_ne (by decide), escapeBefore_of_ne (by decide)]
    rfl
  | cons c cs ih =>
    have hhead : (cs ++ '\x7d' :: rest).head? = (cs ++ ['\x7d']).head? := by cases cs <;> rfl
    rw [List.cons_append, List.cons_append, escapeTemplate_cons, escapeTemplate_cons, hhead, ih,
      List.append_assoc]

/-- A group is escaped as if nothing followed it. -/
theorem escapeTemplate_group_append (inside rest : List Char) :
    escapeTemplate ((Piece.group inside).text ++ rest) =
      escapeTemplate (Piece.group inside).text ++ escapeTemplate rest := by
  rw [Piece.text, List.append_assoc, List.singleton_append]
  exact escapeTemplate_append_close ('\x7b' :: inside) rest

/-- An escaped group opens with its brace. -/
theorem escapeTemplate_group (inside : List Char) :
    escapeTemplate (Piece.group inside).text = '\x7b' :: escapeTemplate (inside ++ ['\x7d']) := by
  rw [Piece.text, List.cons_append, escapeTemplate_cons, escapeBefore_of_ne (by decide)]
  rfl

/-! ### Replacing -/

/-- What stands right at the front is replaced. -/
theorem replaceFirst_self {old : List Char} (hne : old ≠ []) (new rest : List Char) :
    replaceFirst old new (old ++ rest) = new ++ rest := by
  obtain ⟨c, more, rfl⟩ := List.exists_cons_of_ne_nil hne
  have hfront : (c :: more).isPrefixOf (c :: (more ++ rest)) = true := by simp
  rw [List.cons_append, replaceFirst, if_pos hfront, ← List.cons_append, List.drop_left]

/-- What the code in a hole for a part of the request begins with. -/
def requestFront : List Char := ['r', 'e', 'q', '[']

/-- **A text is settled** when a part of the request stands behind every opening brace in it. -/
def Settled : List Char → Prop
  | [] => True
  | c :: rest => (c = '\x7b' → requestFront <+: rest) ∧ Settled rest

theorem Settled.append {front rest : List Char} (hf : Settled front) (hr : Settled rest) :
    Settled (front ++ rest) := by
  induction front with
  | nil => exact hr
  | cons c front ih =>
    exact ⟨fun hc => (hf.1 hc).trans (List.prefix_append front rest), ih hf.2⟩

theorem settled_of_notMem {cs : List Char} (h : '\x7b' ∉ cs) : Settled cs := by
  induction cs with
  | nil => trivial
  | cons c cs ih =>
    rw [List.mem_cons, not_or] at h
    exact ⟨fun hc => absurd hc.symm h.1, ih h.2⟩

/-- **What opens with a brace, but does not go on as a part of the request, is not replaced in a
settled text.** -/
theorem Settled.replaceFirst_append {front : List Char} (hf : Settled front) {more : List Char}
    (hmore : ∀ back, ¬more <+: requestFront ++ back) (new rest : List Char) :
    replaceFirst ('\x7b' :: more) new (front ++ rest) =
      front ++ replaceFirst ('\x7b' :: more) new rest := by
  induction front with
  | nil => rfl
  | cons c front ih =>
    have hnot : ('\x7b' :: more).isPrefixOf (c :: (front ++ rest)) = false := by
      rw [← Bool.not_eq_true, List.isPrefixOf_iff_prefix, List.cons_prefix_cons]
      rintro ⟨rfl, hprefix⟩
      obtain ⟨back, rfl⟩ := hf.1 rfl
      rw [List.append_assoc] at hprefix
      exact hmore _ hprefix
    rw [List.cons_append, replaceFirst, hnot, if_neg Bool.false_ne_true, ih hf.2]
    rfl

/-! ### Filling in -/

/-- The parameter that a group stands for. -/
def groupParameter (inside : List Char) : Parameter :=
  ⟨String.ofList (Piece.group inside).text, split '.' (String.ofList (groupName inside))⟩

/-- **The template literal in which groups have become holes.** -/
def fillIn (hole : List Char → List Char) : List Piece → List Char
  | [] => []
  | .literal c :: rest =>
    escapeBefore (rest.flatMap Piece.text).head? c ++ fillIn hole rest
  | .group inside :: rest => hole inside ++ fillIn hole rest

/-- A group goes on in another way than a part of the request. -/
def IsApart (inside : List Char) : Prop :=
  ∀ back, ¬escapeTemplate (inside ++ ['\x7d']) <+: requestFront ++ back

/-- **Replacing the escaped groups in order fills in the holes**, behind a text that is settled. -/
theorem foldl_replaceFirst_eq_fillIn {hole : Parameter → List Char} {front : List Char}
    (hf : Settled front) (hproper : ∀ piece ∈ pieces, piece.IsProper)
    (hapart : ∀ inside, .group inside ∈ pieces → IsApart inside)
    (hhole : ∀ inside, .group inside ∈ pieces → Settled (hole (groupParameter inside))) :
    (pieces.filterMap Piece.parameter?).foldl
        (fun text parameter =>
          replaceFirst (escapeTemplate parameter.template.toList) (hole parameter) text)
        (front ++ escapeTemplate (pieces.flatMap Piece.text)) =
      front ++ fillIn (fun inside => hole (groupParameter inside)) pieces := by
  -- the induction moves pieces from what is still escaped to the settled text in front of it
  induction pieces generalizing front with
  | nil => simp [fillIn, escapeTemplate]
  | cons piece rest ih =>
    rw [List.forall_mem_cons] at hproper
    have hrest {front : List Char} (hf : Settled front) := ih hf hproper.2
      (fun inside hi => hapart inside (List.mem_cons_of_mem _ hi))
      (fun inside hi => hhole inside (List.mem_cons_of_mem _ hi))
    cases piece with
    | literal c =>
      have hc : '\x7b' ∉ escapeBefore (rest.flatMap Piece.text).head? c := by
        have hne : '\x7b' ≠ c := by
          rintro rfl
          cases hproper.1
        unfold escapeBefore
        split <;> simp [hne]
      rw [List.filterMap_cons_none rfl, List.flatMap_cons, Piece.text, List.singleton_append,
        escapeTemplate_cons, ← List.append_assoc, hrest (hf.append (settled_of_notMem hc)), fillIn,
        List.append_assoc]
    | group inside =>
      have htemplate : escapeTemplate (groupParameter inside).template.toList =
          '\x7b' :: escapeTemplate (inside ++ ['\x7d']) := by
        rw [groupParameter, String.toList_ofList, escapeTemplate_group]
      have hreplaced : replaceFirst (escapeTemplate (groupParameter inside).template.toList)
          (hole (groupParameter inside))
          (front ++ escapeTemplate ((Piece.group inside :: rest).flatMap Piece.text)) =
          front ++ hole (groupParameter inside) ++ escapeTemplate (rest.flatMap Piece.text) := by
        rw [htemplate, hf.replaceFirst_append (hapart inside List.mem_cons_self),
          List.flatMap_cons, escapeTemplate_group_append, escapeTemplate_group,
          replaceFirst_self (List.cons_ne_nil _ _), List.append_assoc]
      have hparameter : (Piece.group inside).parameter? = some (groupParameter inside) := rfl
      rw [List.filterMap_cons_some hparameter, List.foldl_cons, hreplaced,
        hrest (hf.append (hhole inside List.mem_cons_self)), fillIn, List.append_assoc]

/-! ### Reading -/

@[simp] theorem readTemplate?_nil : readTemplate? [] = some [] := by
  rw [readTemplate?]

theorem readTemplate?_escaped {c : Char} (hc : c = '\\' ∨ c = '`' ∨ c = '$') (rest : List Char) :
    readTemplate? ('\\' :: c :: rest) = (readTemplate? rest).map (.char c :: ·) := by
  rw [readTemplate?.eq_def]
  simp [hc]

/-- A character other than a backslash and a backtick stands for itself in front of anything but a
brace. -/
theorem readTemplate?_char {c : Char} (hc : c ≠ '\\' ∧ c ≠ '`') {rest : List Char}
    (hr : rest.head? ≠ some '\x7b') :
    readTemplate? (c :: rest) = (readTemplate? rest).map (.char c :: ·) := by
  rw [readTemplate?.eq_def]
  simp only [if_neg hc.1, if_neg hc.2]
  split
  · cases rest with
    | nil => simp
    | cons d rest =>
      have hd : d ≠ '\x7b' := fun hd => hr (congrArg some hd)
      simp [hd]
  · rfl

/-- A hole ends at the first closing brace. -/
theorem readTemplate?_hole {code : List Char} (hc : '\x7d' ∉ code) (rest : List Char) :
    readTemplate? ('$' :: '\x7b' :: (code ++ '\x7d' :: rest)) =
      (readTemplate? rest).map (.hole code :: ·) := by
  have hne : ∀ c ∈ code, decide (c ≠ '\x7d') = true := by
    intro c hmem
    exact decide_eq_true fun heq => hc (heq ▸ hmem)
  have hdrop : (code ++ '\x7d' :: rest).dropWhile (· ≠ '\x7d') = '\x7d' :: rest := by
    rw [List.dropWhile_append_of_pos hne]
    simp
  have htake : (code ++ '\x7d' :: rest).takeWhile (· ≠ '\x7d') = code := by
    rw [List.takeWhile_append_of_pos hne]
    simp
  rw [readTemplate?.eq_def]
  simp only [if_neg (show '$' ≠ '`' by decide), if_neg (show '$' ≠ '\\' by decide), if_true]
  split
  · next behind hclosed =>
    cases hdrop.symm.trans hclosed
    rw [htake]
  · next hopen => cases hdrop.symm.trans hopen

/-- What a piece is read back as. -/
def PathTemplate.Piece.part (code : List Char → List Char) : Piece → TemplatePart
  | .literal c => .char c
  | .group inside => .hole (code inside)

@[simp] theorem PathTemplate.Piece.part_literal (code : List Char → List Char) (c : Char) :
    (Piece.literal c).part code = .char c := rfl

@[simp] theorem PathTemplate.Piece.part_group (code : List Char → List Char)
    (inside : List Char) : (Piece.group inside).part code = .hole (code inside) := rfl

/-- The code in a hole of a template literal. -/
def holeOf (code : List Char) : List Char := '$' :: '\x7b' :: (code ++ ['\x7d'])

/-- A filled-in template does not begin with a brace. -/
theorem head?_fillIn_append_ne {code : List Char → List Char} {rest : List Char}
    (hproper : ∀ piece ∈ pieces, piece.IsProper) (hr : rest.head? ≠ some '\x7b') :
    (fillIn (fun inside => holeOf (code inside)) pieces ++ rest).head? ≠ some '\x7b' := by
  cases pieces with
  | nil => exact hr
  | cons piece pieces =>
    cases piece with
    | group inside => simp [fillIn, holeOf]
    | literal c =>
      have hc : c ≠ '\x7b' := by
        rintro rfl
        cases hproper _ List.mem_cons_self
      rw [fillIn, escapeBefore]
      split <;> simp [hc]

/-- **A filled-in template is read back**, piece by piece, in front of anything but a brace. -/
theorem readTemplate?_fillIn {code : List Char → List Char} {rest : List Char}
    (hproper : ∀ piece ∈ pieces, piece.IsProper)
    (hcode : ∀ inside, .group inside ∈ pieces → '\x7d' ∉ code inside)
    (hr : rest.head? ≠ some '\x7b') :
    readTemplate? (fillIn (fun inside => holeOf (code inside)) pieces ++ rest) =
      (readTemplate? rest).map (pieces.map (Piece.part code) ++ ·) := by
  induction pieces with
  | nil => simp [fillIn]
  | cons piece pieces ih =>
    have hhead : (fillIn (fun inside => holeOf (code inside)) pieces ++ rest).head? ≠
        some '\x7b' :=
      head?_fillIn_append_ne (fun piece hp => hproper piece (List.mem_cons_of_mem _ hp)) hr
    have hrest := ih (fun piece hp => hproper piece (List.mem_cons_of_mem _ hp))
      (fun inside hi => hcode inside (List.mem_cons_of_mem _ hi))
    have hparts (part : TemplatePart) : ((readTemplate? rest).map
        (pieces.map (Piece.part code) ++ ·)).map (part :: ·) =
        (readTemplate? rest).map (part :: pieces.map (Piece.part code) ++ ·) := by
      rw [Option.map_map]
      rfl
    cases piece with
    | group inside =>
      have hhole := readTemplate?_hole (hcode inside List.mem_cons_self)
        (fillIn (fun inside => holeOf (code inside)) pieces ++ rest)
      rw [fillIn, holeOf, List.append_assoc, List.cons_append, List.cons_append,
        List.append_assoc, List.singleton_append, hhole, hrest, hparts]
      rfl
    | literal c =>
      rw [fillIn, escapeBefore, List.append_assoc]
      split
      · next hspecial =>
        rw [List.cons_append, List.singleton_append,
          readTemplate?_escaped (hspecial.imp_right (Or.imp_right And.left)), hrest, hparts]
        rfl
      · next hplain =>
        rw [not_or, not_or] at hplain
        rw [List.singleton_append, readTemplate?_char ⟨hplain.1, hplain.2.1⟩ hhead, hrest, hparts]
        rfl

end ProtoClient
