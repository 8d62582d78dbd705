import Mathlib.Algebra.Ring.Int.Defs
import LiveTokens.Proofs.WholeLines

/-!
# Lines as revisions

Whatever stands on a line of a document, all that it does to the table of the document
is to revise one key: it gives that key a value that follows from the old value.  A
header revises the first key in its name.  A pair behind a header revises the first key
of that header, and a pair in front of all headers the first part of its own key.

So no key ever goes away, an integer that a key of the document has fits into 64 bits,
and lines that leave a key alone do the same whether or not that key has a value.

The order of the entries counts for nothing here: tables are compared by the values of
their keys.
-/

namespace LiveTokens

namespace Toml

/-- If the value is an integer, then it fits into 64 bits with its sign. -/
def Value.Fits
    (value : Value) : Prop :=
  ∀ number, value = .integer number → -2 ^ 63 ≤ number ∧ number < 2 ^ 63

namespace Entries

/-- `after` has the value at the key, and what `before` has at every other key. -/
structure Gives
    (key : Text)
    (value : Value)
    (before after : Entries) : Prop where
  given : after.get? key = some value
  kept : ∀ other, other ≠ key → after.get? other = before.get? other

/-- Gives a key the value that its old value leads to, if it leads to one. -/
def revise
    (key : Text)
    (give : Option Value → Option Value)
    (entries : Entries) : Option Entries :=
  (give (entries.get? key)).map fun value =>
    match entries.get? key with
    | none => entries ++ [(key, value)]
    | some _ => entries.set key value

/-- All that a change does is to revise one key, and an integer that it writes fits. -/
def RevisesOne
    (change : Entries → Option Entries) : Prop :=
  ∃ key give,
    (∀ old value, give old = some value → value.Fits) ∧
    ∀ entries, change entries = revise key give entries

variable {entries before after less more : Entries}
variable {key other : Text}
variable {value : Value}
variable {change : Entries → Option Entries}
variable {give : Option Value → Option Value}

section Lookups

theorem get?_append_single :
    get? (entries ++ [(key, value)]) other =
      (entries.get? other).or (if other = key then some value else none) := by
  rw [get?, get?, List.lookup_append, List.lookup_cons, List.lookup_nil]
  by_cases hsame : other = key
  · simp [hsame]
  · simp [hsame, beq_false_of_ne hsame]

theorem get?_set :
    get? (entries.set key value) other =
      (entries.get? other).map fun old => if other = key then value else old := by
  induction entries with
  | nil =>
      rfl
  | cons entry entries ih =>
      obtain ⟨name, old⟩ := entry
      by_cases hsame : other = name
      · subst hsame
        simp [get?, set]
      · have hfalse : (other == name) = false := beq_false_of_ne hsame
        simp only [get?, set] at ih ⊢
        rw [List.map_cons, List.lookup_cons, List.lookup_cons, hfalse]
        exact ih

theorem gives_append
    (h : entries.get? key = none) :
    Gives key value entries (entries ++ [(key, value)]) := by
  constructor
  · rw [get?_append_single, h]
    simp
  · intro other hne
    rw [get?_append_single, if_neg hne, Option.or_none]

theorem gives_set
    {old : Value}
    (h : entries.get? key = some old) :
    Gives key value entries (entries.set key value) := by
  constructor
  · rw [get?_set, h]
    simp
  · intro other hne
    simp [get?_set, hne]

end Lookups

section Revisions

theorem revise_gives
    (h : give (before.get? key) = some value) :
    ∃ after, revise key give before = some after ∧ Gives key value before after := by
  rw [revise, h]
  cases hold : before.get? key with
  | none =>
      exact ⟨_, rfl, gives_append hold⟩
  | some old =>
      exact ⟨_, rfl, gives_set hold⟩

theorem exists_of_revise_eq_some
    (h : revise key give before = some after) :
    ∃ value, give (before.get? key) = some value ∧ Gives key value before after := by
  obtain ⟨value, hvalue, -⟩ := Option.map_eq_some_iff.mp h
  obtain ⟨found, hfound, hgives⟩ := revise_gives hvalue
  rw [h] at hfound
  cases hfound
  exact ⟨value, hvalue, hgives⟩

/-- No key goes away. -/
theorem RevisesOne.get?_eq_none
    (h : RevisesOne change)
    (hchange : change before = some after)
    (hnone : after.get? key = none) :
    before.get? key = none := by
  obtain ⟨name, give, -, hrevise⟩ := h
  obtain ⟨value, -, hgiven, hkept⟩ := exists_of_revise_eq_some (hrevise before ▸ hchange)
  by_cases hsame : key = name
  · rw [hsame, hgiven] at hnone
    cases hnone
  · rw [← hkept key hsame, hnone]

theorem RevisesOne.fits
    (h : RevisesOne change)
    (hchange : change before = some after)
    (hbefore : ∀ value, before.get? key = some value → value.Fits)
    (hvalue : after.get? key = some value) :
    value.Fits := by
  obtain ⟨name, give, hfits, hrevise⟩ := h
  obtain ⟨new, hnew, hgiven, hkept⟩ := exists_of_revise_eq_some (hrevise before ▸ hchange)
  by_cases hsame : key = name
  · rw [hsame, hgiven] at hvalue
    cases hvalue
    exact hfits _ _ hnew
  · exact hbefore value (hkept key hsame ▸ hvalue)

/-- A change that leaves a key alone does the same where that key has a value. -/
theorem RevisesOne.gives
    (h : RevisesOne change)
    (hmore : Gives key value less more)
    (hchange : change less = some before)
    (hnone : before.get? key = none) :
    ∃ after, change more = some after ∧ Gives key value before after := by
  obtain ⟨name, give, -, hrevise⟩ := h
  obtain ⟨new, hnew, hgiven, hkept⟩ := exists_of_revise_eq_some (hrevise less ▸ hchange)
  have hne : name ≠ key := by
    rintro rfl
    rw [hgiven] at hnone
    cases hnone
  rw [← hmore.kept name hne] at hnew
  obtain ⟨after, hafter, hadded, hothers⟩ := revise_gives hnew
  refine ⟨after, hrevise more ▸ hafter, ?_, fun other hother => ?_⟩
  · rw [hothers key hne.symm, hmore.given]
  · by_cases hsame : other = name
    · rw [hsame, hadded, hgiven]
    · rw [hothers other hsame, hmore.kept other hother, hkept other hsame]

end Revisions

section Changes

variable {missing origin : Origin}
variable {path header : List Text}
variable {alter : Origin → Entries → Option Entries}

theorem fits_table
    {entries : List (Text × Value)} :
    (Value.table origin entries).Fits := by
  simp [Value.Fits]

theorem fits_tables
    {elements : List (List (Text × Value))} :
    (Value.tables elements).Fits := by
  simp [Value.Fits]

/-- What a path that starts with a key makes of the value of that key. -/
def onward
    (missing : Origin)
    (alter : Origin → Entries → Option Entries) :
    Option Value → Option Value
  | none => (alter missing []).map (.table missing)
  | some (.table origin table) =>
    if origin = .inline ∨ (missing = .dotted ∧ origin = .header) then none
    else (alter origin table).map (.table origin)
  | some (.tables elements) =>
    elements.getLast?.bind fun last =>
      (alter .header last).map fun last => .tables (elements.dropLast ++ [last])
  | some _ => none

theorem alterAt_cons :
    alterAt missing alter (key :: path) origin entries =
      revise key (onward missing (alterAt missing alter path)) entries := by
  rw [alterAt, revise]
  cases hold : entries.get? key with
  | none =>
      rw [onward]
      cases alterAt missing alter path missing [] <;> rfl
  | some old =>
      cases old with
      | table origin table =>
          simp only [onward]
          split
          · rfl
          · cases alterAt missing alter path origin table <;> rfl
      | tables elements =>
          simp only [onward]
          cases elements.getLast? with
          | none =>
              rfl
          | some last =>
              simp only [Option.bind_some]
              cases alterAt missing alter path .header last <;> rfl
      | string | integer | float | boolean | dateTime | array =>
          rfl

theorem revisesOne_alterAt
    (h : path = [] → RevisesOne (alter origin)) :
    RevisesOne (alterAt missing alter path origin) := by
  cases path with
  | nil =>
      exact h rfl
  | cons key path =>
      refine ⟨key, _, fun old value hvalue => ?_, fun entries => alterAt_cons⟩
      unfold onward at hvalue
      split at hvalue
      · obtain ⟨table, -, rfl⟩ := Option.map_eq_some_iff.mp hvalue
        exact fits_table
      · obtain ⟨-, hvalue⟩ := Option.ite_none_left_eq_some.mp hvalue
        obtain ⟨table, -, rfl⟩ := Option.map_eq_some_iff.mp hvalue
        exact fits_table
      · obtain ⟨last, -, hvalue⟩ := Option.bind_eq_some_iff.mp hvalue
        obtain ⟨table, -, rfl⟩ := Option.map_eq_some_iff.mp hvalue
        exact fits_tables
      · cases hvalue

theorem revisesOne_insertNew?
    (h : value.Fits) :
    RevisesOne fun entries => entries.insertNew? key value := by
  refine ⟨key, fun old => if old = none then some value else none, ?_, fun entries => ?_⟩
  · intro old new hnew
    obtain ⟨-, hsame⟩ := Option.ite_none_right_eq_some.mp hnew
    cases hsame
    exact h
  · simp only [insertNew?, revise]
    cases entries.get? key <;> rfl

/-- What a header makes of the value of the last key in it. -/
def opened : Option Value → Option Value
  | none => some (.table .header [])
  | some (.table .implied table) => some (.table .header table)
  | some _ => none

/-- What a header of an array of tables makes of the value of the last key in it. -/
def extended : Option Value → Option Value
  | none => some (.tables [[]])
  | some (.tables elements) => some (.tables (elements ++ [[]]))
  | some _ => none

theorem revisesOne_openTable :
    RevisesOne fun entries => entries.openTable path key := by
  refine revisesOne_alterAt fun _ => ⟨key, opened, fun old value hvalue => ?_, fun entries => ?_⟩
  · unfold opened at hvalue
    split at hvalue <;> cases hvalue <;> exact fits_table
  · simp only [revise]
    cases entries.get? key with
    | none =>
        rfl
    | some old =>
        cases old with
        | table origin table =>
            cases origin <;> rfl
        | string | integer | float | boolean | dateTime | array | tables =>
            rfl

theorem revisesOne_openElement :
    RevisesOne fun entries => entries.openElement path key := by
  refine revisesOne_alterAt fun _ => ⟨key, extended, fun old value hvalue => ?_, fun entries => ?_⟩
  · unfold extended at hvalue
    split at hvalue <;> cases hvalue <;> exact fits_tables
  · simp only [revise]
    cases entries.get? key with
    | none =>
        rfl
    | some old =>
        cases old <;> rfl

theorem revisesOne_assign
    (h : value.Fits) :
    RevisesOne fun entries => entries.assign path key value := by
  refine revisesOne_alterAt fun hpath => ?_
  rw [hpath]
  simpa using revisesOne_insertNew? h

theorem revisesOne_assignUnder
    (h : value.Fits) :
    RevisesOne fun entries => entries.assignUnder header path key value :=
  revisesOne_alterAt fun _ => revisesOne_assign h

end Changes

end Entries

section Reading

variable {content final less more : Content}
variable {limit text rest key : Text}
variable {value : Value}

theorem fits_of_fitting?
    {negative : Bool}
    {base : Nat}
    {digits : List Nat}
    {number : Int}
    (h : fitting? negative base digits = some number) :
    -2 ^ 63 ≤ number ∧ number < 2 ^ 63 := by
  unfold fitting? at h
  obtain ⟨-, h⟩ := Option.ite_none_left_eq_some.mp h
  obtain ⟨hlimits, hnumber⟩ := Option.ite_none_right_eq_some.mp h
  cases hnumber
  exact hlimits

theorem fits_of_integer?
    {number : Int}
    (h : integer? text = some number) :
    -2 ^ 63 ≤ number ∧ number < 2 ^ 63 := by
  unfold integer? at h
  split at h
  all_goals
    obtain ⟨digits, -, h⟩ := Option.bind_eq_some_iff.mp h
    exact fits_of_fitting? h

theorem fits_of_bareValue?
    (h : bareValue? text = some value) :
    value.Fits := by
  intro number hnumber
  subst hnumber
  unfold bareValue? at h
  split at h
  · cases h
  split at h
  · cases h
  split at h
  · next found hfound =>
    cases h
    exact fits_of_integer? hfound
  split at h
  · cases h
  split at h
  · cases h
  · cases h

theorem fits_of_readBare
    (h : readBare text = some (value, rest)) :
    value.Fits := by
  have hbare {run behind : Text}
      (h : (bareValue? run).map (fun value => (value, behind)) = some (value, rest)) :
      value.Fits := by
    obtain ⟨found, hfound, hpair⟩ := Option.map_eq_some_iff.mp h
    cases hpair
    exact fits_of_bareValue? hfound
  unfold readBare at h
  simp only at h
  split at h
  · split at h
    · cases h
      simp [Value.Fits]
    · exact hbare h
  · exact hbare h

theorem fits_of_map
    {α : Type}
    {make : α → Value}
    {found : Option (α × Text)}
    (h : (found.map fun (part, rest) => (make part, rest)) = some (value, rest))
    (hmake : ∀ part number, make part ≠ .integer number) :
    value.Fits := by
  obtain ⟨⟨part, behind⟩, -, hpair⟩ := Option.map_eq_some_iff.mp h
  cases hpair
  exact fun number hnumber => absurd hnumber (hmake part number)

theorem fits_of_readValue
    {depth : Nat}
    (h : readValue depth text = some (value, rest)) :
    value.Fits := by
  unfold readValue at h
  split at h
  · exact fits_of_map h (by simp)
  · exact fits_of_map h (by simp)
  · cases h
  · exact fits_of_map h (by simp)
  · cases h
  · split at h
    · cases h
      simp [Value.Fits]
    · exact fits_of_map h (by simp)
  · exact fits_of_readBare h

theorem readHeader_changes
    {close : Text}
    {before : Entries}
    (openAt : Entries → List Text → Text → Option Entries)
    (h : readHeader close (openAt before) text = some (final, rest)) :
    ∃ path key,
      openAt before path key = some final.entries ∧
      ∀ entries, readHeader close (openAt entries) text =
        (openAt entries path key).map fun entries => (⟨entries, final.header⟩, rest) := by
  unfold readHeader at h ⊢
  obtain ⟨⟨path, key, tail⟩, hkey, h⟩ := Option.bind_eq_some_iff.mp h
  simp only at h
  split at h
  · next hclose =>
    obtain ⟨opened, hopened, h⟩ := Option.bind_eq_some_iff.mp h
    obtain ⟨behind, hnext, hpair⟩ := Option.bind_eq_some_iff.mp h
    cases hpair
    refine ⟨path, key, hopened, fun entries => ?_⟩
    simp only [hkey, Option.bind_eq_bind, Option.bind_some, if_pos hclose, hnext]
    cases openAt entries path key <;> rfl
  · cases h

theorem readPair_changes
    {readValue : ValueReader}
    {before after : Entries}
    (assignTo : Entries → List Text → Text → Value → Option Entries)
    (h : readPair readValue (assignTo before) text = some (after, rest)) :
    ∃ path key value start,
      readValue start = some (value, rest) ∧
      assignTo before path key value = some after ∧
      ∀ entries, readPair readValue (assignTo entries) text =
        (assignTo entries path key value).map fun entries => (entries, rest) := by
  unfold readPair at h ⊢
  obtain ⟨⟨path, key, tail⟩, hkey, h⟩ := Option.bind_eq_some_iff.mp h
  simp only at h
  split at h
  · next start =>
    obtain ⟨⟨value, behind⟩, hvalue, h⟩ := Option.bind_eq_some_iff.mp h
    obtain ⟨assigned, hassigned, hpair⟩ := Option.bind_eq_some_iff.mp h
    cases hpair
    refine ⟨path, key, value, _, hvalue, hassigned, fun entries => ?_⟩
    simp only [hkey, Option.bind_eq_bind, Option.bind_some, hvalue]
    cases assignTo entries path key value <;> rfl
  · cases h

/-- A line revises one key of the document, in the same way whatever the document holds. -/
theorem readLine_changes
    (h : readLine content text = some (final, rest)) :
    ∃ change,
      Entries.RevisesOne change ∧
      change content.entries = some final.entries ∧
      ∀ entries, readLine ⟨entries, content.header⟩ text =
        (change entries).map fun entries => (⟨entries, final.header⟩, rest) := by
  fun_cases readLine content text with
  | case1 behind =>
      obtain ⟨path, key, hopened, hmore⟩ := readHeader_changes Entries.openElement h
      exact ⟨_, Entries.revisesOne_openElement, hopened, hmore⟩
  | case2 behind hsingle =>
      rw [readLine_header hsingle] at h
      obtain ⟨path, key, hopened, hmore⟩ := readHeader_changes Entries.openTable h
      refine ⟨_, Entries.revisesOne_openTable, hopened, fun entries => ?_⟩
      rw [readLine_header hsingle]
      exact hmore entries
  | case3 text hdouble hsingle =>
      rw [readLine_pair hdouble hsingle] at h
      obtain ⟨⟨entries, tail⟩, hpair, h⟩ := Option.bind_eq_some_iff.mp h
      obtain ⟨behind, hnext, hfinal⟩ := Option.bind_eq_some_iff.mp h
      cases hfinal
      obtain ⟨path, key, value, start, hvalue, hassigned, hmore⟩ :=
        readPair_changes (fun entries => entries.assignUnder content.header) hpair
      refine ⟨_, Entries.revisesOne_assignUnder (fits_of_readValue hvalue), hassigned,
        fun entries => ?_⟩
      rw [readLine_pair hdouble hsingle, hmore entries]
      cases entries.assignUnder content.header path key value with
      | none =>
          rfl
      | some assigned =>
          simp only [Option.map_some, Option.bind_eq_bind, Option.bind_some, hnext]
          rfl

/-- What every revision of one key preserves holds at the end if it holds at the start. -/
theorem readLines_preserves
    (good : Entries → Prop)
    (hstep : ∀ change before after,
      Entries.RevisesOne change → change before = some after → good before → good after)
    (h : readLines content limit text = some final)
    (hgood : good content.entries) :
    good final.entries := by
  fun_induction readLines content limit text with
  | case1 limit content text hnil =>
      cases h
      exact hgood
  | case2 content text c limit hline ih =>
      obtain ⟨⟨middle, rest⟩, hread, h⟩ := Option.bind_eq_some_iff.mp h
      obtain ⟨change, hrevises, hchange, -⟩ := readLine_changes hread
      exact ih middle rest h (hstep change _ _ hrevises hchange hgood)
  | case3 content text hline =>
      cases h

theorem get?_eq_none_of_readLines
    (h : readLines content limit text = some final)
    (hnone : final.entries.get? key = none) :
    content.entries.get? key = none := by
  by_contra hsome
  refine readLines_preserves (fun entries => entries.get? key ≠ none) ?_ h hsome hnone
  exact fun _ _ _ hrevises hchange hbefore hafter =>
    hbefore (hrevises.get?_eq_none hchange hafter)

theorem fits_of_readLines
    (h : readLines {} limit text = some final)
    (hvalue : final.entries.get? key = some value) :
    value.Fits := by
  refine readLines_preserves (fun entries => ∀ value, entries.get? key = some value → value.Fits)
    ?_ h nofun value hvalue
  exact fun _ _ _ hrevises hchange hbefore _ => hrevises.fits hchange hbefore

/-- Lines that do not mention a key have the same content where that key has a value already. -/
theorem readLines_gives
    (h : readLines less limit text = some final)
    (hmore : Entries.Gives key value less.entries more.entries)
    (hheader : more.header = less.header)
    (hnone : final.entries.get? key = none) :
    ∃ other, readLines more limit text = some other ∧
      Entries.Gives key value final.entries other.entries ∧ other.header = final.header := by
  fun_induction readLines less limit text generalizing more with
  | case1 limit less text hnil =>
      cases h
      exact ⟨more, readLines_nil hnil, hmore, hheader⟩
  | case2 less text c limit hline ih =>
      obtain ⟨⟨middle, rest⟩, hread, h⟩ := Option.bind_eq_some_iff.mp h
      obtain ⟨change, hrevises, hchange, hsame⟩ := readLine_changes hread
      obtain ⟨other, hother, hgives⟩ :=
        hrevises.gives hmore hchange (get?_eq_none_of_readLines h hnone)
      have hread := hsame more.entries
      rw [← hheader, hother] at hread
      rw [readLines_cons hline, hread]
      exact ih middle rest h hgives rfl
  | case3 less text hline =>
      cases h

end Reading

end Toml

end LiveTokens
