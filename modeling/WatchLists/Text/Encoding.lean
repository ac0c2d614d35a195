/-!
# Text as bytes

Files hold bytes; a text is stored in UTF-8.

- `encode` — the bytes of a text.
- `decode?` — the text of some bytes, if they are valid UTF-8.
- `decode?_encode` — what is stored is read back.
-/

namespace WatchLists.Text

/-- The bytes of a text. -/
def encode (cs : List Char) : List UInt8 := cs.flatMap String.utf8EncodeChar

/-- The text that bytes encode. Surrogates, overlong forms and code points past
the last one are not valid. -/
def decode? (bs : List UInt8) : Option (List Char) :=
  bs.toByteArray.utf8Decode?.map Array.toList

@[simp]
theorem encode_append (cs ds : List Char) : encode (cs ++ ds) = encode cs ++ encode ds := by
  simp [encode]

@[simp]
theorem decode?_encode (cs : List Char) : decode? (encode cs) = some cs := by
  have h : (encode cs).toByteArray = cs.utf8Encode := rfl
  simp [decode?, h]

end WatchLists.Text
