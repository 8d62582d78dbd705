import LiveTokens.Span
import LiveTokens.Text

/-!
# Texts as bytes

Positions count bytes, so a span may cut a character.  What lies under it is then
a part of the UTF-8 form of the text, which need not be a text itself.  The bytes
under a span in the front or in the back of a text are those under it in that part
alone.
-/

namespace LiveTokens

namespace Text

variable {text front back : Text}
variable {span : Span}

/-- The UTF-8 form. -/
def bytes
    (text : Text) : List UInt8 :=
  text.flatMap String.utf8EncodeChar

@[simp] theorem bytes_append
    (front back : Text) :
    bytes (front ++ back) = bytes front ++ bytes back :=
  List.flatMap_append

@[simp] theorem length_bytes
    (text : Text) :
    (bytes text).length = size text := by
  induction text with
  | nil =>
      rfl
  | cons c text ih =>
      rw [bytes, List.flatMap_cons, List.length_append, String.length_utf8EncodeChar, size_cons]
      exact congrArg _ ih

/-- The bytes under a span. -/
def bytesIn
    (text : Text)
    (span : Span) : List UInt8 :=
  (text.bytes.drop span.start).take span.length

theorem bytesIn_front
    (back : Text)
    (h : span.start + span.length ≤ size front) :
    bytesIn (front ++ back) span = bytesIn front span := by
  unfold bytesIn
  rw [bytes_append, List.drop_append_of_le_length (by rw [length_bytes]; omega),
    List.take_append_of_le_length (by rw [List.length_drop, length_bytes]; omega)]

theorem bytesIn_back
    (h : size front ≤ span.start) :
    bytesIn (front ++ back) span = bytesIn back ⟨span.start - size front, span.length⟩ := by
  unfold bytesIn
  rw [bytes_append, List.drop_append, length_bytes,
    List.drop_of_length_le (by rw [length_bytes]; exact h), List.nil_append]

end Text

end LiveTokens
