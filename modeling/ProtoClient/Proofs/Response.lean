import ProtoClient.Plugin.Response
import ProtoClient.Proofs.Descriptor.Reading

/-!
# Reading an answer back

The bytes of an answer are records and nothing else: one for each part that is present, an empty one
too, and one for each file in order. From these records the answer is read back as it was, so no two
answers have the same bytes.

## Main definitions

* `ResponseFile.records file`, `Response.records response`: the records of a file, and of an answer
* `Response.Fits response`: the numbers and lengths in an answer have 64 bits

## Main results

* `ResponseFile.records?_encode`, `Response.records?_encode`: what is written are these records
* `Response.foldlM_records`: an answer takes in its records one by one
* `Response.encode_lossless`: an answer is read back, and is the only one with its bytes
-/

namespace ProtoClient

open Text

/-! ### The records of parts -/

section Parts

variable {β : Type} {encode : β → List UInt8} {record : β → Record}

theorem records?_encodeOption {part : Option β}
    (h : ∀ value ∈ part, records? (encode value) = some [record value]) :
    records? (encodeOption encode part) = some (part.toList.map record) := by
  cases part with
  | none => exact records?_nil
  | some value => exact h value rfl

theorem records?_flatMap {values : List β}
    (h : ∀ value ∈ values, records? (encode value) = some [record value]) :
    records? (values.flatMap encode) = some (values.map record) := by
  induction values with
  | nil => exact records?_nil
  | cons value rest ih =>
    rw [List.forall_mem_cons] at h
    rw [List.flatMap_cons, records?_append h.1, ih h.2]
    rfl

/-- A text that is written has one record. -/
theorem records?_encodeText {tag : Nat} (ht : IsTag tag) {text : String}
    (hlen : (encodeText tag text).length < 2 ^ 64) :
    records? (encodeText tag text) = some [⟨tag, .delimited (utf8 text)⟩] :=
  records?_encodeEmbedded ht (Nat.lt_of_le_of_lt (length_le_encodeEmbedded tag _) hlen)

end Parts

/-! ### The files of an answer -/

namespace ResponseFile

/-- **The records of a file**: its name under the tag 1, and its text under the tag 15. -/
def records (file : ResponseFile) : List Record :=
  file.name.toList.map (fun name => ⟨1, .delimited (utf8 name)⟩) ++
    file.content.toList.map fun content => ⟨15, .delimited (utf8 content)⟩

/-- The bytes of a file are its records. -/
theorem records?_encode {file : ResponseFile} (hlen : file.encode.length < 2 ^ 64) :
    records? file.encode = some file.records := by
  obtain ⟨name, content⟩ := file
  simp only [encode, List.length_append] at hlen
  have hname : records? (encodeOption (encodeText 1) name) =
      some (name.toList.map fun name => ⟨1, .delimited (utf8 name)⟩) := by
    apply records?_encodeOption
    rintro text rfl
    exact records?_encodeText (by decide) (Nat.lt_of_le_of_lt (Nat.le_add_right _ _) hlen)
  have hcontent : records? (encodeOption (encodeText 15) content) =
      some (content.toList.map fun content => ⟨15, .delimited (utf8 content)⟩) := by
    apply records?_encodeOption
    rintro text rfl
    exact records?_encodeText (by decide) (Nat.lt_of_le_of_lt (Nat.le_add_left _ _) hlen)
  rw [encode, records?_append hname, hcontent]
  rfl

/-- A file is read back from its records. -/
theorem decode?_encode {file : ResponseFile} (hlen : file.encode.length < 2 ^ 64) (budget : Nat) :
    decode? budget file.encode = some file := by
  rw [decode?, readInto, records?_encode hlen]
  obtain ⟨name, content⟩ := file
  cases name <;> cases content <;> simp [records, merge, Record.text?]

end ResponseFile

/-! ### Answers -/

namespace Response

/-- **The records of an answer**: its error under the tag 1, its features under the tag 2, and each
of its files under the tag 15. -/
def records (response : Response) : List Record :=
  response.error.toList.map (fun error => ⟨1, .delimited (utf8 error)⟩) ++
    response.supportedFeatures.toList.map (fun features => ⟨2, .varint features⟩) ++
    response.files.map fun file => ⟨15, .delimited file.encode⟩

/-- **The numbers and lengths in an answer have 64 bits.** The lengths inside a file are smaller
than that of the file. -/
structure Fits (response : Response) : Prop where
  features : ∀ features ∈ response.supportedFeatures, features < 2 ^ 64
  error : ∀ error ∈ response.error, (utf8 error).length < 2 ^ 64
  files : ∀ file ∈ response.files, file.encode.length < 2 ^ 64

/-- The bytes of an answer are its records. -/
theorem records?_encode {response : Response} (h : response.Fits) :
    records? response.encode = some response.records := by
  have herror : records? (encodeOption (encodeText 1) response.error) =
      some (response.error.toList.map fun error => ⟨1, .delimited (utf8 error)⟩) :=
    records?_encodeOption fun error herr => records?_encodeEmbedded (by decide) (h.error error herr)
  have hfeatures : records? (encodeOption (encodeNatural 2) response.supportedFeatures) =
      some (response.supportedFeatures.toList.map fun features => ⟨2, .varint features⟩) :=
    records?_encodeOption fun features hf =>
      records?_encodeNatural (by decide) (h.features features hf)
  have hfiles : records? (response.files.flatMap fun file => encodeEmbedded 15 file.encode) =
      some (response.files.map fun file => ⟨15, .delimited file.encode⟩) :=
    records?_flatMap fun file hf => records?_encodeEmbedded (by decide) (h.files file hf)
  rw [encode, List.append_assoc, records?_append herror, records?_append hfeatures, hfiles, records,
    List.append_assoc]
  rfl

/-- An answer takes in the records of files one by one, and keeps their order. -/
theorem foldlM_files (budget : Nat) {files : List ResponseFile}
    (h : ∀ file ∈ files, file.encode.length < 2 ^ 64) (start : Response) :
    (files.map fun file => (⟨15, .delimited file.encode⟩ : Record)).foldlM (merge (budget + 1))
      start = some { start with files := start.files ++ files } := by
  induction files generalizing start with
  | nil => simp
  | cons file rest ih =>
    rw [List.forall_mem_cons] at h
    have hfile : merge (budget + 1) start ⟨15, .delimited file.encode⟩ =
        some { start with files := start.files ++ [file] } := by
      simp [merge, Record.embedded?, ResponseFile.decode?_encode h.1]
    rw [List.map_cons, List.foldlM_cons, hfile]
    simp [ih h.2]

/-- **An answer takes in its records, and is what it was.** -/
theorem foldlM_records {response : Response} (h : response.Fits) :
    response.records.foldlM (merge depthLimit) {} = some response := by
  obtain ⟨error, features, files⟩ := response
  have hfiles := foldlM_files 99 h.files
  rw [records, List.foldlM_append, List.foldlM_append]
  cases error <;> cases features <;>
    simp [merge, Record.text?, Record.natural?, depthLimit, hfiles]

end Response

/-- **An answer is read back from its bytes**: they are its records, with nothing left over, and no
other answer has the same bytes. Parts that are absent stay apart from empty ones, and files keep
their order. -/
theorem Response.encode_lossless {response : Response} (h : response.Fits) :
    records? response.encode = some response.records ∧
      (∀ file ∈ response.files, records? file.encode = some file.records) ∧
      decode? response.encode = some response ∧
      ∀ other : Response, other.Fits → other.encode = response.encode → other = response := by
  have hdecode {response : Response} (h : response.Fits) :
      decode? response.encode = some response := by
    rw [decode?, readInto, records?_encode h]
    exact foldlM_records h
  refine ⟨records?_encode h, fun file hf => ResponseFile.records?_encode (h.files file hf),
    hdecode h, fun other hother hsame => ?_⟩
  have hboth := hdecode hother
  rw [hsame, hdecode h] at hboth
  exact (Option.some.inj hboth).symm

namespace Sample

/-- An answer with an empty error and files of which parts are absent or empty. -/
def answer : Response where
  error := some ""
  supportedFeatures := some 0
  files := [⟨some "", none⟩, ⟨none, some "export default \x7b\x7d"⟩, {}]

theorem answer_fits : answer.Fits where
  features := by simp [answer]
  error := by
    rintro error ⟨⟩
    decide
  files := by decide +kernel

end Sample

/-- The sample is read back, and without its empty error it has other bytes. -/
theorem Response.encode_lossless_answer :
    decode? Sample.answer.encode = some Sample.answer ∧
      ({ Sample.answer with error := none } : Response).encode ≠ Sample.answer.encode := by
  obtain ⟨-, -, hdecode, hunique⟩ := encode_lossless Sample.answer_fits
  refine ⟨hdecode, fun hsame => ?_⟩
  have herror := congrArg Response.error (hunique { Sample.answer with error := none }
    ⟨Sample.answer_fits.features, fun _ h => (by cases h), Sample.answer_fits.files⟩ hsame)
  exact absurd herror (by decide)

end ProtoClient
