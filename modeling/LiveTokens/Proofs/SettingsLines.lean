import Mathlib
import LiveTokens.Proofs.SettingsLibrary
import LiveTokens.Settings.File

/-!
# Settings read back

What a lawful library writes for some settings is two lines, one for each of them.
Reading gives the settings back, in either order of the lines, and whatever else stands
around them in the file.  A line that is missing stands for the usual value of its
setting, and the other line counts as before.

A threshold that an integer of a document cannot hold has no line that reads as this
threshold.  So it is not written, and no file is read as settings with such a threshold.

**Results.**  `write_round_trips`.
-/

namespace LiveTokens

namespace Settings

open Toml (Scalar Library)

/-- Three parts of a document that does not mention the settings.  Both cuts are between two lines,
in front of all headers. -/
structure Surrounding
    (library : Library Settings)
    (front middle back : Text) : Prop where
  opening : library.AtRoot front
  continued : library.AtRoot (front ++ middle)
  unmarked : front = [] → (middle ++ back).head? ≠ some '\ufeff'
  silent : ∃ entries,
    library.read (front ++ middle ++ back) = .ok entries ∧
    entries.get? thresholdKey.toList = none ∧
    entries.get? verifyKey.toList = none

variable {settings : Settings}
variable {front middle back text : Text}
variable {entries : Toml.Entries}

theorem thresholdKey_ne_verifyKey :
    thresholdKey.toList ≠ verifyKey.toList := by
  decide

section Lawful

variable {library : Library Settings}

/-- Each setting is looked up by itself, and has its usual value if it is not there. -/
theorem parseWith_eq_ok_iff
    (h : library.Lawful fields {}) :
    parseWith library text = .ok settings ↔
      ∃ entries,
        library.read text = .ok entries ∧
        (Scalar.number ({} : Settings).rebaseThreshold).Found (entries.get? thresholdKey.toList)
          (.number settings.rebaseThreshold) ∧
        (Scalar.truth ({} : Settings).verifyIncremental).Found (entries.get? verifyKey.toList)
          (.truth settings.verifyIncremental) := by
  rw [parseWith, Except.mapError_eq_ok_iff]
  refine Except.bind_eq_ok_iff.trans ?_
  refine exists_congr fun entries => and_congr_right fun hread => ?_
  rw [h.fill_eq_ok_iff hread]
  simp [fields]

/-- The settings of a document, from the values of their keys as far as it has those. -/
theorem parseWith_eq_ok
    (h : library.Lawful fields {})
    (number : Option Nat)
    (truth : Option Bool)
    (hread : library.read text = .ok entries)
    (hnumber : entries.get? thresholdKey.toList = number.map fun number => .integer number)
    (htruth : entries.get? verifyKey.toList = truth.map .boolean) :
    parseWith library text = .ok ⟨number.getD ({} : Settings).rebaseThreshold,
      truth.getD ({} : Settings).verifyIncremental⟩ := by
  refine (parseWith_eq_ok_iff h).mpr ⟨entries, hread, ?_, ?_⟩
  · rw [hnumber]
    cases number with
    | none =>
        exact .missing
    | some number =>
        exact .number
  · rw [htruth]
    cases truth with
    | none =>
        exact .missing
    | some truth =>
        exact .truth

theorem write_eq_some
    (h : library.Lawful fields {})
    (hbound : settings.rebaseThreshold < 2 ^ 63) :
    library.write settings = some (thresholdLine settings ++ verifyLine settings) := by
  rw [h.write_eq_some]
  · simp [fields, thresholdLine, verifyLine]
  · simp only [fields, List.forall_mem_cons]
    exact ⟨⟨bare_thresholdKey, Scalar.fits_number_iff.mpr hbound⟩,
      ⟨bare_verifyKey, Scalar.fits_truth⟩, by simp⟩

/-- There is no line that reads as a threshold of more than 63 bits. -/
theorem write_eq_none
    (h : library.Lawful fields {})
    (hlarge : 2 ^ 63 ≤ settings.rebaseThreshold) :
    library.write settings = none := by
  by_contra hsome
  obtain ⟨text, htext⟩ := Option.ne_none_iff_exists'.mp hsome
  obtain ⟨lines, -, hlines⟩ := h.read_of_write htext
  obtain ⟨line, others, hread, -, rfl⟩ := List.forall₂_cons_left_iff.mp hlines
  have hfits : (Scalar.number settings.rebaseThreshold).value.Fits :=
    h.fits_of_read hread List.lookup_cons_self
  exact absurd (Scalar.fits_number_iff.mp hfits) (Nat.not_lt.mpr hlarge)

/-- No document has a threshold that is too large to be written. -/
theorem rebaseThreshold_lt
    (h : library.Lawful fields {})
    (hparse : parseWith library text = .ok settings) :
    settings.rebaseThreshold < 2 ^ 63 := by
  obtain ⟨entries, hread, hnumber, -⟩ := (parseWith_eq_ok_iff h).mp hparse
  rcases Scalar.found_number_iff.mp hnumber with ⟨-, husual⟩ | hfound
  · rw [husual]
    decide
  · exact Scalar.fits_number_iff.mp (h.fits_of_read hread hfound)

namespace Surrounding

theorem parse_threshold
    (hsurrounding : Surrounding library front middle back)
    (h : library.Lawful fields {})
    (hbound : settings.rebaseThreshold < 2 ^ 63) :
    parseWith library (front ++ thresholdLine settings ++ middle ++ back) =
      .ok { ({} : Settings) with rebaseThreshold := settings.rebaseThreshold } := by
  obtain ⟨entries, hread, hthreshold, hverify⟩ := hsurrounding.silent
  rw [List.append_assoc] at hread ⊢
  obtain ⟨more, hmore, hgives⟩ :=
    h.read_insert bare_thresholdKey (Scalar.fits_number_iff.mpr hbound) hsurrounding.opening
      hsurrounding.unmarked hread hthreshold
  refine parseWith_eq_ok h (some settings.rebaseThreshold) none hmore hgives.given ?_
  rw [hgives.kept _ thresholdKey_ne_verifyKey.symm, hverify]
  rfl

theorem parse_verify
    (hsurrounding : Surrounding library front middle back)
    (h : library.Lawful fields {}) :
    parseWith library (front ++ verifyLine settings ++ middle ++ back) =
      .ok { ({} : Settings) with verifyIncremental := settings.verifyIncremental } := by
  obtain ⟨entries, hread, hthreshold, hverify⟩ := hsurrounding.silent
  rw [List.append_assoc] at hread ⊢
  obtain ⟨more, hmore, hgives⟩ :=
    h.read_insert bare_verifyKey Scalar.fits_truth hsurrounding.opening hsurrounding.unmarked hread
      hverify
  refine parseWith_eq_ok h none (some settings.verifyIncremental) hmore ?_ hgives.given
  rw [hgives.kept _ thresholdKey_ne_verifyKey, hthreshold]
  rfl

theorem parse_threshold_verify
    (hsurrounding : Surrounding library front middle back)
    (h : library.Lawful fields {})
    (hbound : settings.rebaseThreshold < 2 ^ 63) :
    parseWith library (front ++ thresholdLine settings ++ middle ++ verifyLine settings ++ back) =
      .ok settings := by
  obtain ⟨entries, hread, hthreshold, hverify⟩ := hsurrounding.silent
  obtain ⟨more, hmore, hnumber, htruth⟩ :=
    h.read_insert_both bare_thresholdKey bare_verifyKey (Scalar.fits_number_iff.mpr hbound)
      Scalar.fits_truth thresholdKey_ne_verifyKey hsurrounding.opening hsurrounding.continued
      hsurrounding.unmarked hread hthreshold hverify
  exact parseWith_eq_ok h (some settings.rebaseThreshold) (some settings.verifyIncremental) hmore
    hnumber htruth

theorem parse_verify_threshold
    (hsurrounding : Surrounding library front middle back)
    (h : library.Lawful fields {})
    (hbound : settings.rebaseThreshold < 2 ^ 63) :
    parseWith library (front ++ verifyLine settings ++ middle ++ thresholdLine settings ++ back) =
      .ok settings := by
  obtain ⟨entries, hread, hthreshold, hverify⟩ := hsurrounding.silent
  obtain ⟨more, hmore, htruth, hnumber⟩ :=
    h.read_insert_both bare_verifyKey bare_thresholdKey Scalar.fits_truth
      (Scalar.fits_number_iff.mpr hbound) thresholdKey_ne_verifyKey.symm hsurrounding.opening
      hsurrounding.continued hsurrounding.unmarked hread hverify hthreshold
  exact parseWith_eq_ok h (some settings.rebaseThreshold) (some settings.verifyIncremental) hmore
    hnumber htruth

theorem parse_usual
    (hsurrounding : Surrounding library front middle back)
    (h : library.Lawful fields {}) :
    parseWith library (front ++ middle ++ back) = .ok {} := by
  obtain ⟨entries, hread, hthreshold, hverify⟩ := hsurrounding.silent
  exact parseWith_eq_ok h none none hread hthreshold hverify

end Surrounding

theorem surrounding_nil
    (h : library.Lawful fields {}) :
    Surrounding library [] [] [] :=
  ⟨h.atRoot_nil, h.atRoot_nil, by decide, [], h.read_nil, rfl, rfl⟩

end Lawful

/-- Settings read back from what is written for them, by every library that keeps to the laws. -/
theorem write_round_trips :
    ∀ library : Library Settings,
      library.Lawful fields {} →
      ∀ settings : Settings,
        (settings.rebaseThreshold < 2 ^ 63 →
          library.write settings = some (thresholdLine settings ++ verifyLine settings) ∧
          parseWith library (thresholdLine settings ++ verifyLine settings) = .ok settings ∧
          ∀ front middle back,
            Surrounding library front middle back →
            parseWith library
              (front ++ thresholdLine settings ++ middle ++ verifyLine settings ++ back) =
              .ok settings ∧
            parseWith library
              (front ++ verifyLine settings ++ middle ++ thresholdLine settings ++ back) =
              .ok settings ∧
            parseWith library (front ++ thresholdLine settings ++ middle ++ back) =
              .ok { ({} : Settings) with rebaseThreshold := settings.rebaseThreshold } ∧
            parseWith library (front ++ verifyLine settings ++ middle ++ back) =
              .ok { ({} : Settings) with verifyIncremental := settings.verifyIncremental } ∧
            parseWith library (front ++ middle ++ back) = .ok {}) ∧
        (2 ^ 63 ≤ settings.rebaseThreshold →
          library.write settings = none ∧
          ∀ text, parseWith library text ≠ .ok settings) := by
  intro library h settings
  constructor
  · intro hbound
    refine ⟨write_eq_some h hbound, ?_, fun front middle back hsurrounding => ?_⟩
    · simpa using (surrounding_nil h).parse_threshold_verify h hbound
    · exact ⟨hsurrounding.parse_threshold_verify h hbound,
        hsurrounding.parse_verify_threshold h hbound, hsurrounding.parse_threshold h hbound,
        hsurrounding.parse_verify h, hsurrounding.parse_usual h⟩
  · intro hlarge
    exact ⟨write_eq_none h hlarge,
      fun text hparse => absurd (rebaseThreshold_lt h hparse) (Nat.not_lt.mpr hlarge)⟩

/-- The lines of both settings stand among others, and a table at the end has a key of the same
name. -/
theorem write_round_trips_among_others :
    library.Lawful fields {} ∧
    7 < 2 ^ 63 ∧
    Surrounding library "dark = true # for now\n".toList "flags = [true,\n false]\n".toList
      "[test]\nrebase_threshold = true".toList ∧
    parse ("dark = true # for now\nverify_incremental = true\nflags = [true,\n false]\n" ++
      "rebase_threshold = 7\n[test]\nrebase_threshold = true").toList = .ok ⟨7, true⟩ ∧
    2 ^ 63 ≤ 18446744073709551615 ∧
    library.write ⟨18446744073709551615, true⟩ = none := by
  have hbound : (⟨7, true⟩ : Settings).rebaseThreshold < 2 ^ 63 := by
    decide
  have hbare : Toml.Bare ['k'] := ⟨by decide, List.all_eq_true.mp rfl⟩
  have hsurrounding : Surrounding library "dark = true # for now\n".toList
      "flags = [true,\n false]\n".toList "[test]\nrebase_threshold = true".toList := by
    constructor
    · refine ⟨.inr rfl, ['k'], [("dark".toList, .boolean true)],
        [("dark".toList, .boolean true), (['k'], .boolean true)], hbare, ?_, ?_, ?_, ?_⟩
      · cbv
      · cbv
      · cbv
      · cbv
    · refine ⟨.inr rfl, ['k'], [("dark".toList, .boolean true),
        ("flags".toList, .array [.boolean true, .boolean false])],
        [("dark".toList, .boolean true),
        ("flags".toList, .array [.boolean true, .boolean false]), (['k'], .boolean true)],
        hbare, ?_, ?_, ?_, ?_⟩
      · cbv
      · cbv
      · cbv
      · cbv
    · decide
    · refine ⟨[("dark".toList, .boolean true),
        ("flags".toList, .array [.boolean true, .boolean false]),
        ("test".toList, .table .header [("rebase_threshold".toList, .boolean true)])], ?_, ?_, ?_⟩
      · cbv
      · cbv
      · cbv
  have hlarge : 2 ^ 63 ≤ (⟨18446744073709551615, true⟩ : Settings).rebaseThreshold := by
    decide
  have htext : "dark = true # for now\n".toList ++ verifyLine ⟨7, true⟩ ++
      "flags = [true,\n false]\n".toList ++ thresholdLine ⟨7, true⟩ ++
        "[test]\nrebase_threshold = true".toList =
      ("dark = true # for now\nverify_incremental = true\nflags = [true,\n false]\n" ++
        "rebase_threshold = 7\n[test]\nrebase_threshold = true").toList := by
    cbv
  obtain ⟨-, -, hread⟩ := (write_round_trips library lawful_library ⟨7, true⟩).1 hbound
  obtain ⟨-, hread, -⟩ := hread _ _ _ hsurrounding
  rw [htext] at hread
  exact ⟨lawful_library, hbound, hsurrounding, hread, hlarge,
    ((write_round_trips library lawful_library _).2 hlarge).1⟩

end Settings

end LiveTokens
