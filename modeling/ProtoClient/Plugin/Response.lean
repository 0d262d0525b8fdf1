import ProtoClient.Descriptor.Encoding

/-!
# Responses

What a plugin answers the proto compiler: the texts of files, or an error, and the features that
it supports. Absent and empty parts are told apart.

## Main definitions

* `ResponseFile`, `Response`: the answer
* `Response.encode response`: its bytes
* `Response.decode? bytes`: the answer that the bytes are
-/

namespace ProtoClient

/-- A file of an answer: where it goes, and its text. -/
structure ResponseFile where
  name : Option String := none
  content : Option String := none
  deriving DecidableEq, Repr, Inhabited

/-- **The answer of a plugin.** -/
structure Response where
  error : Option String := none
  supportedFeatures : Option Nat := none
  files : List ResponseFile := []
  deriving DecidableEq, Repr, Inhabited

/-- The bytes of a file of an answer. -/
def ResponseFile.encode (file : ResponseFile) : List UInt8 :=
  encodeOption (encodeText 1) file.name ++ encodeOption (encodeText 15) file.content

/-- **The bytes of an answer**, its parts in the order of their tags. -/
def Response.encode (response : Response) : List UInt8 :=
  encodeOption (encodeText 1) response.error ++
    encodeOption (encodeNatural 2) response.supportedFeatures ++
    response.files.flatMap fun file => encodeEmbedded 15 file.encode

/-- The number of a record. -/
def Record.natural? (record : Record) : Option Nat :=
  match record.payload with
  | .varint value => some value
  | _ => none

def ResponseFile.merge (budget : Nat) (file : ResponseFile) (record : Record) :
    Option ResponseFile :=
  match record.tag with
  | 1 => record.text?.map fun name => { file with name := some name }
  | 15 => record.text?.map fun content => { file with content := some content }
  | _ => record.skip? budget file

def ResponseFile.decode? (budget : Nat) : List UInt8 → Option ResponseFile :=
  readInto (merge budget) {}

def Response.merge (budget : Nat) (response : Response) (record : Record) : Option Response :=
  match record.tag with
  | 1 => record.text?.map fun error => { response with error := some error }
  | 2 => record.natural?.map fun features => { response with supportedFeatures := some features }
  | 15 => (record.embedded? budget ResponseFile.decode?).map fun file =>
    { response with files := response.files ++ [file] }
  | _ => record.skip? budget response

/-- **The answer that the bytes are.** -/
def Response.decode? (bytes : List UInt8) : Option Response :=
  readInto (merge depthLimit) {} bytes

end ProtoClient
