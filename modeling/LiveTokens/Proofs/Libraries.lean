import Mathlib.Algebra.Ring.Nat
import Mathlib.Data.List.Forall2
import LiveTokens.Proofs.Revisions
import LiveTokens.Toml.Library

/-!
# Laws of a library

A record is kept in a document by code from elsewhere, and nothing is said here of how
that code goes about it.  What is relied on (`Library.Lawful`) are the rules of TOML 1.0
for pairs of a plain key and a number or a truth value, and the way in which the fields
of a record are found in a table.

* A document is a number of lines, and the pairs of one table may come in any order.  The
  table of the whole document starts with the first line and ends in front of the first
  header, and no key is given a value twice.  (`read_nil`, `read_line`, `read_insert`)
* Integers have 64 bits with their sign, and those that have are read without a loss.
  (`read_line`, `fits_of_read`)
* A field has the value of its key, which has to be of its kind, or its usual value if
  there is no such key.  Keys that belong to no field are passed over.
  (`fill_eq_ok_iff`)
* The fields are written in the order of their declaration, each on a line of its own.  A
  value for which there is no line that reads as this value is not written at all.
  (`write_eq_some`, `read_of_write`)

The laws about reading are about a single pair at a time, and those about writing do not
say what becomes of the lines when they stand together, or among others.
-/

namespace LiveTokens

namespace Toml

/-- The values that the fields of a record can have. -/
inductive Scalar where
  | number (value : Nat)
  | truth (value : Bool)

/-- The fields of a record with their values, in the order of their declaration. -/
abbrev Record : Type :=
  List (Text × Scalar)

/-- A key that is written without quotes. -/
structure Bare
    (key : Text) : Prop where
  key_ne : key ≠ []
  key_parts : ∀ c ∈ key, isKeyPart c = true

/-- A line that gives a value to a key. -/
def line
    (key written : Text) : Text :=
  key ++ ' ' :: '=' :: ' ' :: written ++ ['\n']

/-- The line of a plain key does not start with a byte order mark. -/
theorem Bare.head?_line
    {key written behind : Text}
    (h : Bare key) :
    (line key written ++ behind).head? ≠ some '\ufeff' := by
  obtain ⟨c, others, rfl⟩ := List.exists_cons_of_ne_nil h.key_ne
  rintro ⟨⟩
  cases h.key_parts _ List.mem_cons_self

namespace Scalar

/-- The value in a document. -/
def value : Scalar → Value
  | .number given => .integer given
  | .truth given => .boolean given

/-- The value as it is written: a decimal numeral, or one of two words. -/
def written : Scalar → Text
  | .number given => Nat.toDigits 10 given
  | .truth given => (toString given).toList

/-- The line that gives the value to a key. -/
def line
    (key : Text)
    (scalar : Scalar) : Text :=
  Toml.line key scalar.written

/-- What a field has, given its usual value and the value of its key in a table. -/
inductive Found : Scalar → Option Value → Scalar → Prop
  | missing {usual : Scalar} :
      Found usual none usual
  | number {usual given : Nat} :
      Found (.number usual) (some (.integer given)) (.number given)
  | truth {usual given : Bool} :
      Found (.truth usual) (some (.boolean given)) (.truth given)

theorem fits_number_iff
    {given : Nat} :
    (number given).value.Fits ↔ given < 2 ^ 63 := by
  constructor
  · intro h
    exact Int.ofNat_lt.mp (h given rfl).2
  · rintro h found ⟨⟩
    have hbound : (given : Int) < 2 ^ 63 := Int.ofNat_lt.mpr h
    exact ⟨by omega, hbound⟩

theorem fits_truth
    {given : Bool} :
    (truth given).value.Fits := by
  rintro number ⟨⟩

theorem found_number_iff
    {usual given : Nat}
    {found : Option Value} :
    (number usual).Found found (number given) ↔
      found = none ∧ given = usual ∨ found = some (.integer given) := by
  constructor
  · rintro (_ | _)
    · exact .inl ⟨rfl, rfl⟩
    · exact .inr rfl
  · rintro (⟨rfl, rfl⟩ | rfl)
    · exact .missing
    · exact .number

theorem found_truth_iff
    {usual given : Bool}
    {found : Option Value} :
    (truth usual).Found found (truth given) ↔
      found = none ∧ given = usual ∨ found = some (.boolean given) := by
  constructor
  · rintro (_ | _)
    · exact .inl ⟨rfl, rfl⟩
    · exact .inr rfl
  · rintro (⟨rfl, rfl⟩ | rfl)
    · exact .missing
    · exact .truth

end Scalar

namespace Library

variable {σ : Type}

/-- The text is a number of whole lines and a document by itself, and a new pair behind it belongs
to the table of the whole document, so that there is no header in it. -/
structure AtRoot
    (library : Library σ)
    (front : Text) : Prop where
  whole : WholeLines front
  root : ∃ key entries more,
    Bare key ∧
    library.read front = .ok entries ∧
    entries.get? key = none ∧
    library.read (front ++ (Scalar.truth true).line key) = .ok more ∧
    more.get? key = some (.boolean true)

/-- The library keeps records with these fields, and one with these usual values, by the rules. -/
structure Lawful
    (library : Library σ)
    (fields : σ → Record)
    (usual : σ) : Prop where
  /-- A document without any lines is an empty table. -/
  read_nil : library.read [] = .ok []
  /-- A pair on a line of its own is a document. -/
  read_line : ∀ {key : Text} {scalar : Scalar},
    Bare key → scalar.value.Fits →
    library.read (scalar.line key) = .ok [(key, scalar.value)]
  /-- A new pair on any line in front of the headers adds its key, and nothing else changes.  Only
  in front of a byte order mark there is no line. -/
  read_insert : ∀ {key front back : Text} {scalar : Scalar} {entries : Entries},
    Bare key → scalar.value.Fits →
    library.AtRoot front → (front = [] → back.head? ≠ some '\ufeff') →
    library.read (front ++ back) = .ok entries → entries.get? key = none →
    ∃ more,
      library.read (front ++ scalar.line key ++ back) = .ok more ∧
      Entries.Gives key scalar.value entries more
  /-- No document has an integer of more than 64 bits. -/
  fits_of_read : ∀ {text key : Text} {entries : Entries} {value : Value},
    library.read text = .ok entries → entries.get? key = some value → value.Fits
  /-- Each field is looked up by itself in the table of a document, and nothing else is. -/
  fill_eq_ok_iff : ∀ {text : Text} {entries : Entries} {record : σ},
    library.read text = .ok entries →
    (library.fill entries = .ok record ↔
      List.Forall₂
        (fun usual field => field.1 = usual.1 ∧ usual.2.Found (entries.get? usual.1) field.2)
        (fields usual) (fields record))
  /-- A record whose values all fit is written in full. -/
  write_eq_some : ∀ {record : σ},
    (∀ field ∈ fields record, Bare field.1 ∧ field.2.value.Fits) →
    library.write record = some ((fields record).flatMap fun field => field.2.line field.1)
  /-- Nothing is written with a loss: the line of each field reads as this field. -/
  read_of_write : ∀ {record : σ} {text : Text},
    library.write record = some text →
    ∃ lines,
      text = lines.flatten ∧
      List.Forall₂ (fun field line => library.read line = .ok [(field.1, field.2.value)])
        (fields record) lines

namespace Lawful

variable {library : Library σ}
variable {fields : σ → Record}
variable {usual : σ}

/-- The very start of a document is in front of all headers. -/
theorem atRoot_nil
    (h : library.Lawful fields usual) :
    library.AtRoot [] where
  whole := .inl rfl
  root := by
    have hbare : Bare ['k'] := ⟨by decide, List.all_eq_true.mp rfl⟩
    refine ⟨['k'], [], _, hbare, h.read_nil, rfl, h.read_line hbare Scalar.fits_truth, ?_⟩
    simp [Entries.get?, Scalar.value]

/-- Two new pairs do not disturb each other.  The pair that is further behind is put in first, so
that nobody asks whether the line of the other one is in front of all headers. -/
theorem read_insert_both
    (h : library.Lawful fields usual)
    {key other front middle back : Text}
    {first second : Scalar}
    {entries : Entries}
    (hkey : Bare key)
    (hother : Bare other)
    (hfirst : first.value.Fits)
    (hsecond : second.value.Fits)
    (hne : key ≠ other)
    (hfront : library.AtRoot front)
    (hmiddle : library.AtRoot (front ++ middle))
    (hmark : front = [] → (middle ++ back).head? ≠ some '\ufeff')
    (hread : library.read (front ++ middle ++ back) = .ok entries)
    (hnokey : entries.get? key = none)
    (hnoother : entries.get? other = none) :
    ∃ more,
      library.read (front ++ first.line key ++ middle ++ second.line other ++ back) = .ok more ∧
      more.get? key = some first.value ∧
      more.get? other = some second.value := by
  have hsecondMark : front ++ middle = [] → back.head? ≠ some '\ufeff' := by
    intro hnil
    obtain ⟨hfront, rfl⟩ := List.append_eq_nil_iff.mp hnil
    exact hmark hfront
  have hfirstMark : front = [] → (middle ++ second.line other ++ back).head? ≠ some '\ufeff' := by
    intro hfront
    cases middle with
    | nil =>
        exact hother.head?_line
    | cons c middle =>
        exact hmark hfront
  obtain ⟨more, hmore, hgives⟩ := h.read_insert hother hsecond hmiddle hsecondMark hread hnoother
  have hkey' : more.get? key = none := (hgives.kept key hne).trans hnokey
  rw [List.append_assoc front, List.append_assoc front] at hmore
  obtain ⟨all, hall, hboth⟩ := h.read_insert hkey hfirst hfront hfirstMark hmore hkey'
  refine ⟨all, ?_, hboth.given, ?_⟩
  · simpa using hall
  · rw [hboth.kept other hne.symm, hgives.given]

end Lawful

end Library

end Toml

end LiveTokens
