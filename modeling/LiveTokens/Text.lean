/-!
# Text measured in bytes

A text is a list of characters. Positions in it count the bytes of its UTF-8 form, so only some of
them lie between two characters. Cutting a text at a position therefore has an answer only if the
position is one of those and not behind the end of the text.
-/

namespace LiveTokens

/-- A text, character by character. -/
abbrev Text : Type :=
  List Char

namespace Text

/-- Number of bytes of the UTF-8 form. -/
def size : Text → Nat
  | [] => 0
  | c :: text => c.utf8Size + size text

@[simp] theorem size_nil : size [] = 0 :=
  rfl

@[simp] theorem size_cons (c : Char) (text : Text) :
    size (c :: text) = c.utf8Size + size text :=
  rfl

@[simp] theorem size_append (front back : Text) :
    size (front ++ back) = size front + size back := by
  induction front with
  | nil => simp
  | cons c front ih => simp [ih, Nat.add_assoc]

theorem size_eq_zero_iff {text : Text} : size text = 0 ↔ text = [] := by
  cases text with
  | nil => simp
  | cons c text =>
    have := c.utf8Size_pos
    simp only [size_cons, reduceCtorEq, iff_false]
    omega

/-- The first `count` bytes and what follows them, if the cut falls between two characters. -/
def splitAt? : Text → Nat → Option (Text × Text)
  | text, 0 => some ([], text)
  | [], _ + 1 => none
  | c :: text, count + 1 =>
    if c.utf8Size ≤ count + 1 then
      (splitAt? text (count + 1 - c.utf8Size)).map fun (front, back) => (c :: front, back)
    else
      none

@[simp] theorem splitAt?_zero (text : Text) : splitAt? text 0 = some ([], text) := by
  cases text <;> rfl

/-- Cutting a text finds exactly the ways to write it as a front of that size and a rest. -/
theorem splitAt?_eq_some_iff {text front back : Text} {count : Nat} :
    splitAt? text count = some (front, back) ↔ text = front ++ back ∧ size front = count := by
  induction text generalizing count front with
  | nil =>
    cases count with
    | zero =>
      simp only [splitAt?_zero, Option.some.injEq, Prod.mk.injEq]
      constructor
      · rintro ⟨rfl, rfl⟩
        simp
      · rintro ⟨h, -⟩
        have := List.append_eq_nil_iff.mp h.symm
        exact ⟨this.1.symm, this.2.symm⟩
    | succ count =>
      simp only [splitAt?, reduceCtorEq, false_iff, not_and]
      intro h
      have := (List.append_eq_nil_iff.mp h.symm).1
      simp [this]
  | cons c text ih =>
    have hc := c.utf8Size_pos
    cases count with
    | zero =>
      simp only [splitAt?_zero, Option.some.injEq, Prod.mk.injEq, size_eq_zero_iff]
      constructor
      · rintro ⟨rfl, rfl⟩
        simp
      · rintro ⟨h, rfl⟩
        exact ⟨rfl, by simpa using h⟩
    | succ count =>
      cases front with
      | nil =>
        simp only [splitAt?, List.nil_append, size_nil]
        constructor
        · intro h
          split at h <;> simp at h
        · rintro ⟨-, h⟩
          omega
      | cons d front =>
        simp only [splitAt?, List.cons_append, List.cons.injEq, size_cons]
        constructor
        · intro h
          split at h
          · simp only [Option.map_eq_some_iff, Prod.exists, Prod.mk.injEq, List.cons.injEq] at h
            obtain ⟨a, b, hab, ⟨rfl, rfl⟩, rfl⟩ := h
            have := ih.mp hab
            exact ⟨⟨rfl, this.1⟩, by omega⟩
          · simp at h
        · rintro ⟨⟨rfl, h⟩, hsize⟩
          rw [if_pos (by omega)]
          have := ih.mpr ⟨h, (by omega : size front = count + 1 - c.utf8Size)⟩
          simp [this]

/-- A cut behind a front of the text is a cut of what follows the front. -/
theorem splitAt?_append (front text : Text) (count : Nat) :
    splitAt? (front ++ text) (size front + count) =
      (splitAt? text count).map fun (middle, back) => (front ++ middle, back) := by
  induction front with
  | nil => simp
  | cons c front ih =>
    have hc := c.utf8Size_pos
    obtain ⟨k, hk⟩ : ∃ k, c.utf8Size = k + 1 := ⟨c.utf8Size - 1, by omega⟩
    have hsum : size (c :: front) + count = (k + size front + count) + 1 := by
      rw [size_cons]
      omega
    have hrest : k + size front + count + 1 - c.utf8Size = size front + count := by omega
    rw [hsum, List.cons_append, splitAt?, if_pos (by omega), hrest, ih]
    cases splitAt? text count <;> simp

/-- The text without its first `count` bytes is shorter, unless nothing was cut off. -/
theorem length_lt_of_splitAt? {text front back : Text} {count : Nat}
    (h : splitAt? text count = some (front, back)) (hcount : 0 < count) :
    back.length < text.length := by
  obtain ⟨rfl, hsize⟩ := splitAt?_eq_some_iff.mp h
  cases front with
  | nil =>
    rw [size_nil] at hsize
    omega
  | cons c front =>
    rw [List.length_append, List.length_cons]
    omega

/-- The `length` bytes behind the first `start`, and what follows them, if both cuts fall between
characters. -/
def cut? (text : Text) (start length : Nat) : Option (Text × Text) := do
  let (_, rest) ← splitAt? text start
  splitAt? rest length

/-- The `length` bytes behind the first `start`, if both cuts fall between characters. -/
def slice? (text : Text) (start length : Nat) : Option Text :=
  (cut? text start length).map (·.1)

/-- A cut finds exactly the ways to write a text in three parts of the given sizes. -/
theorem cut?_eq_some_iff {text middle back : Text} {start length : Nat} :
    cut? text start length = some (middle, back) ↔
      ∃ front, text = front ++ middle ++ back ∧ size front = start ∧ size middle = length := by
  simp only [cut?, Option.bind_eq_bind, Option.bind_eq_some_iff, Prod.exists,
    splitAt?_eq_some_iff]
  constructor
  · rintro ⟨front, rest, ⟨rfl, hfront⟩, rfl, hmiddle⟩
    exact ⟨front, by simp, hfront, hmiddle⟩
  · rintro ⟨front, rfl, hfront, hmiddle⟩
    exact ⟨front, middle ++ back, ⟨by simp, hfront⟩, rfl, hmiddle⟩

/-- What lies behind a front of a text can be cut out of the whole text as well. -/
theorem cut?_append (front text : Text) (start length : Nat) :
    cut? (front ++ text) (size front + start) length = cut? text start length := by
  apply Option.ext
  rintro ⟨middle, back⟩
  rw [cut?_eq_some_iff, cut?_eq_some_iff]
  constructor
  · rintro ⟨whole, h, hsize, hmiddle⟩
    have hwhole : splitAt? (front ++ text) (size front + start) =
        some (whole, middle ++ back) := by
      rw [splitAt?_eq_some_iff]
      exact ⟨by rw [h, List.append_assoc], hsize⟩
    rw [splitAt?_append] at hwhole
    obtain ⟨⟨rest, other⟩, hrest, hpair⟩ := Option.map_eq_some_iff.mp hwhole
    obtain ⟨rfl, rfl⟩ := Prod.mk.inj hpair
    obtain ⟨rfl, hstart⟩ := splitAt?_eq_some_iff.mp hrest
    exact ⟨rest, by simp, hstart, hmiddle⟩
  · rintro ⟨rest, rfl, hstart, hmiddle⟩
    exact ⟨front ++ rest, by simp, by simp [hstart], hmiddle⟩

end Text

end LiveTokens
