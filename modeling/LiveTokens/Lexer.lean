import LiveTokens.Text
import LiveTokens.Token

/-!
# Lexers

A lexer reads a text that comes in segments. It asks for the next segment only when it needs it,
and a consumer that has seen enough simply stops reading. Both are told by numbers: each item of a
lexing says how many requests for a segment came before it. The request after the last segment is
the one that is answered by the end of the text.
-/

namespace LiveTokens

/-- Why a lexer gives up. -/
inductive LexError where
  /-- The grammar recognised nothing at this position. -/
  | stalled (position : Nat)
  /-- The grammar claimed more text than there is, or a part of a character. -/
  | overrun (position length : Nat)
deriving DecidableEq, Repr

/-- The wording of a lexer error. -/
def LexError.message : LexError → String
  | .stalled position => s!"no token recognised at offset {position}"
  | .overrun position length => s!"token at offset {position} claims an invalid length of {length}"

/-- A token or an error, and the number of requests for a segment made before it was returned. -/
structure LexItem where
  result : Outcome LexError Token
  requests : Nat
deriving Repr

/-- Everything a lexer returns, and the number of requests made by the time it has nothing left. -/
structure Lexing where
  items : List LexItem
  requests : Nat
deriving Repr

namespace Lexing

/-- Puts an item in front. -/
def cons (item : LexItem) (lexing : Lexing) : Lexing :=
  { lexing with items := item :: lexing.items }

/-- A single item with nothing behind it, not even a request. -/
def last (item : LexItem) : Lexing :=
  ⟨[item], item.requests⟩

end Lexing

/-- A way to split text into tokens, and to say what each kind of token means. -/
structure Lexer where
  /-- Lexes the concatenation of the segments, which starts at an offset in the document. -/
  run : (offset : Nat) → (segments : List Text) → Lexing
  classify : (kind : Nat) → TokenClass

/-- The tokens of a whole text, or the first error. -/
def Lexer.lex (lexer : Lexer) (text : Text) : Outcome LexError (List Token) :=
  (lexer.run 0 [text]).items.mapM (·.result)

end LiveTokens
