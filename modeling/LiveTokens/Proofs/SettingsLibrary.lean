import LiveTokens.Proofs.Outcome
import LiveTokens.Proofs.PlainPairs
import LiveTokens.Settings.Library

/-!
# The laws in the program's own library

The library that the program runs with keeps to the laws.  What they say about reading
holds of its documents line by line, what they say about the fields of a record holds
because each setting is looked up by itself, and a threshold is written only if an
integer of a document can hold it.

**Results.**  `lawful_library`.
-/

namespace LiveTokens

namespace Settings

open Toml (Scalar)

/-- Settings as a record, in the order of their declaration. -/
def fields
    (settings : Settings) : Toml.Record :=
  [(thresholdKey.toList, .number settings.rebaseThreshold),
    (verifyKey.toList, .truth settings.verifyIncremental)]

/-- The line of the rebase threshold. -/
def thresholdLine
    (settings : Settings) : Text :=
  (Scalar.number settings.rebaseThreshold).line thresholdKey.toList

/-- The line of the verification. -/
def verifyLine
    (settings : Settings) : Text :=
  (Scalar.truth settings.verifyIncremental).line verifyKey.toList

variable {settings : Settings}
variable {front text : Text}
variable {entries : Toml.Entries}

theorem bare_thresholdKey :
    Toml.Bare thresholdKey.toList :=
  ⟨by decide, List.all_eq_true.mp rfl⟩

theorem bare_verifyKey :
    Toml.Bare verifyKey.toList :=
  ⟨by decide, List.all_eq_true.mp rfl⟩

theorem read_eq_ok_iff :
    library.read text = .ok entries ↔ Toml.parse? text = some entries := by
  cases hparse : Toml.parse? text <;> simp [library, hparse]

theorem opening_of_atRoot
    (h : library.AtRoot front) :
    Toml.Opening (Toml.skipMark front) := by
  obtain ⟨key, entries, more, hbare, hread, hnone, hmore, hgiven⟩ := h.root
  exact Toml.opening_of_parse?_line h.whole (Toml.plain_scalar hbare Scalar.fits_truth)
    (read_eq_ok_iff.mp hread) hnone (read_eq_ok_iff.mp hmore) hgiven

theorem numberAt_eq_ok_iff
    {key : String}
    {usual number : Nat} :
    numberAt entries key usual = .ok number ↔
      (Scalar.number usual).Found (entries.get? key.toList) (.number number) := by
  rw [Scalar.found_number_iff, numberAt]
  generalize entries.get? key.toList = found
  split
  next =>
    simp [eq_comm]
  next found =>
    simp
  next value hother =>
    constructor
    · rintro ⟨⟩
    · rintro (⟨⟨⟩, -⟩ | hfound)
      exact absurd (Option.some.inj hfound) (hother number)

theorem truthAt_eq_ok_iff
    {key : String}
    {usual truth : Bool} :
    truthAt entries key usual = .ok truth ↔
      (Scalar.truth usual).Found (entries.get? key.toList) (.truth truth) := by
  rw [Scalar.found_truth_iff, truthAt]
  generalize entries.get? key.toList = found
  split
  next =>
    simp [eq_comm]
  next found =>
    simp
  next value hother =>
    constructor
    · rintro ⟨⟩
    · rintro (⟨⟨⟩, -⟩ | hfound)
      exact absurd (Option.some.inj hfound) (hother truth)

theorem ofEntries_eq_ok_iff :
    ofEntries entries = .ok settings ↔
      (Scalar.number ({} : Settings).rebaseThreshold).Found (entries.get? thresholdKey.toList)
        (.number settings.rebaseThreshold) ∧
      (Scalar.truth ({} : Settings).verifyIncremental).Found (entries.get? verifyKey.toList)
        (.truth settings.verifyIncremental) := by
  rw [← numberAt_eq_ok_iff, ← truthAt_eq_ok_iff]
  unfold ofEntries
  simp only [Except.bind_eq_ok_iff]
  constructor
  · rintro ⟨number, hnumber, truth, htruth, ⟨⟩⟩
    exact ⟨hnumber, htruth⟩
  · rintro ⟨hnumber, htruth⟩
    exact ⟨_, hnumber, _, htruth, rfl⟩

theorem render?_eq_some_iff :
    render? settings = some text ↔
      settings.rebaseThreshold < 2 ^ 63 ∧ text = thresholdLine settings ++ verifyLine settings := by
  have hlines : thresholdKey.toList ++ " = ".toList ++ Nat.toDigits 10 settings.rebaseThreshold ++
      ['\n'] ++ verifyKey.toList ++ " = ".toList ++ (toString settings.verifyIncremental).toList ++
      ['\n'] = thresholdLine settings ++ verifyLine settings := by
    simp [thresholdLine, verifyLine, Scalar.line, Scalar.written, Toml.line]
  rw [render?, hlines, Option.ite_none_right_eq_some, Option.some.injEq, eq_comm (a := text)]
  rfl

/-- The program's own library keeps to the laws. -/
theorem lawful_library :
    library.Lawful fields {} where
  read_nil := read_eq_ok_iff.mpr Toml.parse?_nil
  read_line hbare hfits :=
    read_eq_ok_iff.mpr (Toml.parse?_line (Toml.plain_scalar hbare hfits))
  read_insert hbare hfits hfront hmark hread hnone := by
    obtain ⟨more, hmore, hgives⟩ := Toml.parse?_insert (opening_of_atRoot hfront)
      (Toml.plain_scalar hbare hfits) hmark (read_eq_ok_iff.mp hread) hnone
    exact ⟨more, read_eq_ok_iff.mpr hmore, hgives⟩
  fits_of_read hread hvalue :=
    Toml.fits_of_parse? (read_eq_ok_iff.mp hread) hvalue
  fill_eq_ok_iff _ := by
    refine ofEntries_eq_ok_iff.trans ?_
    simp [fields]
  write_eq_some {settings} hfits := by
    have hbound : settings.rebaseThreshold < 2 ^ 63 :=
      Scalar.fits_number_iff.mp (hfits _ List.mem_cons_self).2
    refine render?_eq_some_iff.mpr ⟨hbound, ?_⟩
    simp [fields, thresholdLine, verifyLine]
  read_of_write {settings text} hwrite := by
    obtain ⟨hbound, rfl⟩ := render?_eq_some_iff.mp hwrite
    refine ⟨[thresholdLine settings, verifyLine settings], by simp, .cons ?_ (.cons ?_ .nil)⟩
    · exact read_eq_ok_iff.mpr
        (Toml.parse?_line (Toml.plain_scalar bare_thresholdKey (Scalar.fits_number_iff.mpr hbound)))
    · exact read_eq_ok_iff.mpr
        (Toml.parse?_line (Toml.plain_scalar bare_verifyKey Scalar.fits_truth))

end Settings

end LiveTokens
