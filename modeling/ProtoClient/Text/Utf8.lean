/-!
# UTF-8

Strings as bytes and back. Only well-formed UTF-8 is read: no overlong forms, no surrogates,
nothing beyond the last code point.

## Main definitions

* `utf8 s`: the bytes of a string
* `ofUtf8? bytes`: the string with these bytes, if there is one

## Main results

* `ofUtf8?_utf8`: what is written is read back
-/

namespace ProtoClient.Text

/-- The bytes of a string. -/
def utf8 (s : String) : List UInt8 :=
  s.toUTF8.data.toList

/-- The string with these bytes, if they are well formed. -/
def ofUtf8? (bytes : List UInt8) : Option String :=
  String.fromUTF8? ⟨bytes.toArray⟩

@[simp] theorem ofUtf8?_utf8 (s : String) : ofUtf8? (utf8 s) = some s := by
  simp only [ofUtf8?, utf8, Array.toArray_toList, String.fromUTF8?, String.toUTF8_eq_toByteArray,
    dif_pos s.isValidUTF8]
  rfl

end ProtoClient.Text
