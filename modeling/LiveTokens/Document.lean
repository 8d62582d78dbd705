import LiveTokens.ChangeSet
import LiveTokens.Slot

/-!
# Documents

A document is an immutable snapshot: a text and the version it belongs to. Its slot accepts change
sets made against the current generation and refuses all others, so that an edit is never applied to
a text it was not made for.
-/

namespace LiveTokens

/-- The text of one generation of a document. -/
structure Document where
  text : Text
  version : Version
deriving DecidableEq, Repr

namespace Document

/-- The first generation of a new line of descent. -/
def ofText (lineage : Nat) (text : Text) : Document :=
  ⟨text, ⟨lineage, 0⟩⟩

/-- The number of changes made so far. -/
def generation (document : Document) : Nat :=
  document.version.generation

/-- Number of bytes of the text. -/
def size (document : Document) : Nat :=
  Text.size document.text

/-- The text under a span, if the span lies in the document and splits no character. -/
def slice? {ε : Type} (document : Document) (span : Span) : Outcome ε (Option Text) := do
  let _ ← span.stop
  return Text.slice? document.text span.start span.length

/-- A place between two characters of a document: its position and the text behind it. -/
structure Cursor where
  position : Nat
  behind : Text
deriving DecidableEq, Repr

/-- The place in front of the text. -/
def start (document : Document) : Cursor :=
  ⟨0, document.text⟩

/-- The text under a span and the place behind it. Spans behind the cursor are read from there, and
all others from the start of the document. -/
def sliceFrom? {ε : Type} (document : Document) (cursor : Cursor) (span : Span) :
    Outcome ε (Option (Text × Cursor)) := do
  let stop ← span.stop
  let cursor := if cursor.position ≤ span.start then cursor else document.start
  return (Text.cut? cursor.behind (span.start - cursor.position) span.length).map
    fun (text, behind) => (text, ⟨stop, behind⟩)

/-- The cursor is a place in the document. -/
def Cursor.IsIn (cursor : Cursor) (document : Document) : Prop :=
  ∃ front, document.text = front ++ cursor.behind ∧ Text.size front = cursor.position

theorem start_isIn (document : Document) : document.start.IsIn document :=
  ⟨[], rfl, rfl⟩

/-- A cut from a place in front of a span is a cut of the whole text. -/
theorem Cursor.IsIn.cut? {cursor : Cursor} {document : Document} (h : cursor.IsIn document)
    {position : Nat} (hle : cursor.position ≤ position) (length : Nat) :
    Text.cut? cursor.behind (position - cursor.position) length =
      Text.cut? document.text position length := by
  obtain ⟨front, htext, hsize⟩ := h
  rw [htext, ← Text.cut?_append front, hsize, Nat.add_sub_cancel' hle]

/-- Reading from a cursor gives the same text as cutting the span out of the document. -/
theorem sliceFrom?_eq_slice? {ε : Type} {document : Document} {cursor : Cursor}
    (h : cursor.IsIn document) (span : Span) :
    (Option.map Prod.fst <$> document.sliceFrom? cursor span : Outcome ε (Option Text)) =
      document.slice? span := by
  have hcut : ∀ start : Cursor, start.IsIn document → start.position ≤ span.start →
      Text.cut? start.behind (span.start - start.position) span.length =
        Text.cut? document.text span.start span.length :=
    fun start hstart hle => hstart.cut? hle span.length
  unfold sliceFrom? slice? Text.slice?
  cases (span.stop : Outcome ε Nat) with
  | error failure => rfl
  | ok stop =>
    have hpick : (if cursor.position ≤ span.start then cursor else document.start).IsIn document ∧
        (if cursor.position ≤ span.start then cursor else document.start).position ≤
          span.start := by
      split
      · next hle => exact ⟨h, hle⟩
      · exact ⟨document.start_isIn, Nat.zero_le _⟩
    simp only [bind, Except.bind, pure, Except.pure, Functor.map, Except.map,
      hcut _ hpick.1 hpick.2, Option.map_map]
    rfl

/-- Reading from a place in the document leads to another one. -/
theorem isIn_of_sliceFrom? {ε : Type} {document : Document} {cursor next : Cursor} {span : Span}
    {text : Text} (h : cursor.IsIn document)
    (hread : (document.sliceFrom? cursor span : Outcome ε _) = .ok (some (text, next))) :
    next.IsIn document := by
  unfold sliceFrom? at hread
  cases hstop : (span.stop : Outcome ε Nat) with
  | error failure => simp [hstop, bind, Except.bind] at hread
  | ok stop =>
    have hsum := advance_eq_ok_iff.mp hstop
    obtain ⟨start, hstart, hle, hpick⟩ : ∃ start : Cursor, start.IsIn document ∧
        start.position ≤ span.start ∧
        (if cursor.position ≤ span.start then cursor else document.start) = start := by
      split
      · next hle => exact ⟨cursor, h, hle, rfl⟩
      · exact ⟨document.start, document.start_isIn, Nat.zero_le _, rfl⟩
    simp only [hstop, bind, Except.bind, pure, Except.pure, hpick, hstart.cut? hle,
      Except.ok.injEq, Option.map_eq_some_iff, Prod.mk.injEq, Prod.exists] at hread
    obtain ⟨middle, back, hcut, rfl, rfl⟩ := hread
    obtain ⟨front, htext, hfront, hmiddle⟩ := Text.cut?_eq_some_iff.mp hcut
    refine ⟨front ++ middle, htext, ?_⟩
    rw [Text.size_append, hfront, hmiddle, hsum.1]

/-- Carries out replacements on a document, under its old version. The change set hands itself back,
both for another attempt and as the record of what was done. -/
def rewrite (changes : ChangeSet) : Work Document ChangeError (ChangeSet × ChangeSet) := do
  let document ← get
  if changes.generation = document.generation then
    let text ← Work.ofOutcome
      ((Text.replaceAll document.text changes.replacements).wrap .invalid)
    modify fun document => { document with text := text }
    return (changes, changes)
  else
    Work.fail (.outdated document.generation changes.generation)

/-- The document with the replacements carried out, under its old version. -/
def applyChanges (changes : ChangeSet) (document : Document) : Outcome ChangeError Document :=
  (rewrite changes).result document

theorem applyChanges_eq (changes : ChangeSet) (document : Document) :
    applyChanges changes document =
      if changes.generation = document.generation then do
        let text ← (Text.replaceAll document.text changes.replacements).wrap .invalid
        return { document with text := text }
      else
        Outcome.fail (.outdated document.generation changes.generation) := by
  rw [applyChanges, rewrite, Work.result_get_bind]
  split
  · rw [Work.result_ofOutcome_bind]
    rfl
  · rfl

instance : Editable Document ChangeSet ChangeSet ChangeError where
  version document := document.version
  apply := rewrite
  modifyVersion step document := { document with version := step document.version }

end Document

namespace Slot

/-- Applies replacements that were made against the given snapshot. -/
def edit (slot : Slot Document) (snapshot : Document) (replacements : List Replacement) :
    Outcome ChangeError (Transition Document ChangeSet) × Slot Document :=
  slot.change ⟨snapshot.generation, replacements⟩

/-- Replaces one span of the given snapshot. -/
def replace (slot : Slot Document) (snapshot : Document) (target : Span) (text : Text) :
    Outcome ChangeError (Transition Document ChangeSet) × Slot Document :=
  slot.edit snapshot [⟨target, text⟩]

end Slot

end LiveTokens
