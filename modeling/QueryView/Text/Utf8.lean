/-
Text as bytes.  Files, standard streams and terminals carry UTF-8; the library
encodes a text where it leaves and decodes bytes where they enter, and refuses
bytes that no text encodes to.  Both directions are those of the core library, so
a decoded text is always one whose encoding gives the bytes back.
-/
import QueryView.Text.Basic

namespace QueryView
namespace Text

/-- The UTF-8 bytes of a text. -/
def utf8 (t : Text) : List UInt8 := t.flatMap String.utf8EncodeChar

/-- The text that a run of bytes encodes, if there is one. -/
def ofUtf8? (bytes : List UInt8) : Option Text :=
  (String.fromUTF8? (ByteArray.mk bytes.toArray)).map String.toList

/-- What was encoded is decoded to what it was. -/
theorem ofUtf8?_utf8 (t : Text) : ofUtf8? (utf8 t) = some t := by
  have hbytes : ByteArray.mk (utf8 t).toArray = (String.ofList t).toByteArray :=
    ByteArray.ext List.data_toByteArray.symm
  have hvalid : (ByteArray.mk (utf8 t).toArray).IsValidUTF8 :=
    hbytes ▸ (String.ofList t).isValidUTF8
  have hstring : String.fromUTF8 (ByteArray.mk (utf8 t).toArray) hvalid = String.ofList t :=
    String.toByteArray_inj.mp hbytes
  rw [ofUtf8?, String.fromUTF8?, dif_pos hvalid, hstring, Option.map_some, String.toList_ofList]

end Text
end QueryView
