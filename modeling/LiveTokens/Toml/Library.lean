import LiveTokens.Toml.Value

/-!
# TOML libraries

What a program leaves to code from elsewhere when it keeps a record in a TOML document: reading the
document, finding the fields of the record in its table, and writing the record down.
-/

namespace LiveTokens

namespace Toml

/-- Code from elsewhere that keeps records of type `σ` in documents. -/
structure Library (σ : Type) where
  /-- The table of a document, or what is wrong with the document. -/
  read : Text → Except String Entries
  /-- The record with the values that a table has for its fields, or what is wrong with them. -/
  fill : Entries → Except String σ
  /-- A document for a record, unless one of its values cannot be written. -/
  write : σ → Option Text

end Toml

end LiveTokens
