import LiveTokens.Edit

/-!
# Change sets

A change set is an ordered list of replacements, all expressed in positions of the generation they
were made for. Applying it copies the text between the replacements and puts the new texts in. The
replacements are checked one after the other: order first, then the end of the document, then that
no character is split.
-/

namespace LiveTokens

/-- Replacements against one generation of a document. -/
structure ChangeSet where
  generation : Nat
  replacements : List Replacement
deriving DecidableEq, Repr

/-- What is wrong with a replacement. -/
inductive Misfit where
  | unordered
  | beyondEnd
  | splitsCharacter
deriving DecidableEq, Repr

/-- The wording of a misfit. -/
def Misfit.message : Misfit → String
  | .unordered => "replacements are out of order or overlap"
  | .beyondEnd => "replacement extends beyond the end of the document"
  | .splitsCharacter => "replacement splits a character"

/-- Why a change set is refused. -/
inductive ChangeError where
  /-- The document is on another generation than the change set was made for. -/
  | outdated (expected found : Nat)
  | invalid (misfit : Misfit)
deriving DecidableEq, Repr

/-- The wording of a refusal. -/
def ChangeError.message : ChangeError → String
  | .outdated expected found =>
    s!"change was made against generation {found} but the document is on generation {expected}"
  | .invalid misfit => s!"invalid change: {misfit.message}"

/-- Applies replacements to `rest`, the part of a text that starts at position `reached`. -/
def Text.replaceFrom (reached : Nat) (rest : Text) : List Replacement → Outcome Misfit Text
  | [] => return rest
  | replacement :: replacements => do
    let target := replacement.target
    if target.start < reached then
      Outcome.fail .unordered
    else
      let stop ← target.stop
      if reached + Text.size rest < stop then
        Outcome.fail .beyondEnd
      else
        match Text.splitAt? rest (target.start - reached) with
        | none => Outcome.fail .splitsCharacter
        | some (kept, behind) =>
          match Text.splitAt? behind target.length with
          | none => Outcome.fail .splitsCharacter
          | some (_, behind) =>
            let text ← replaceFrom stop behind replacements
            return kept ++ replacement.text ++ text

/-- Applies replacements to a whole text. -/
def Text.replaceAll (text : Text) (replacements : List Replacement) : Outcome Misfit Text :=
  Text.replaceFrom 0 text replacements

end LiveTokens
