import LiveTokens.Bisection
import LiveTokens.Proofs.Outcome

/-!
# What the two searches find

Where a question holds for a front of a list and for nothing behind it, the
bisection gives the length of that front.  In any case it is the answers that it
depends on, and nothing else.  Among ascending numbers, the search for a key
succeeds exactly if the key is one of them.
-/

namespace LiveTokens

section Bisect

variable {ε α : Type}
variable {holds : α → Outcome ε Bool}

/-- Bisecting a part of a list that splits into a front where the question holds and a back where it
does not.  A middle in the front sends the search behind it, and one in the back in front of it. -/
theorem bisectFrom_of_split
    (first count : Nat)
    (elements front back : List α)
    (hsplit : elements.take count = front ++ back)
    (hcount : count ≤ elements.length)
    (hfront : ∀ element ∈ front, holds element = .ok true)
    (hback : ∀ element ∈ back, holds element = .ok false) :
    bisectFrom holds first elements count = .ok (first + front.length) := by
  induction count using Nat.strongRecOn generalizing first elements front back with
  | ind count ih =>
      have hlength : front.length + back.length = count := by
        have := congrArg List.length hsplit
        simp only [List.length_take, List.length_append] at this
        omega
      unfold bisectFrom
      split
      next hzero =>
        have : front.length = 0 := by omega
        simp [this]
      next hzero =>
        have hmiddle : count / 2 < elements.length := by omega
        have hbound : count / 2 < (front ++ back).length := by
          rw [List.length_append]
          omega
        have hdrop : elements.drop (count / 2) =
            elements[count / 2] :: elements.drop (count / 2 + 1) :=
          List.drop_eq_getElem_cons hmiddle
        have helement : elements[count / 2] =
            (front ++ back)[count / 2] := by
          simp only [← hsplit, List.getElem_take]
        rw [hdrop]
        simp only
        by_cases hfits : count / 2 < front.length
        · have hholds : holds elements[count / 2] = .ok true := by
            apply hfront
            rw [helement, List.getElem_append_left hfits]
            exact List.getElem_mem hfits
          rw [hholds]
          simp only [Outcome.ok_bind, if_true]
          rw [ih (count - count / 2 - 1) (by omega) (first + count / 2 + 1)
            (elements.drop (count / 2 + 1)) (front.drop (count / 2 + 1)) back ?_
            (by simp only [List.length_drop]; omega)
            (fun element helem => hfront element (List.mem_of_mem_drop helem)) hback]
          · simp only [List.length_drop, Except.ok.injEq]
            omega
          · have hrest := congrArg (List.drop (count / 2 + 1)) hsplit
            rw [List.drop_take, List.drop_append_of_le_length (by omega)] at hrest
            rw [show count - count / 2 - 1 = count - (count / 2 + 1) by omega]
            exact hrest
        · have hholds : holds elements[count / 2] = .ok false := by
            apply hback
            rw [helement, List.getElem_append_right (by omega)]
            exact List.getElem_mem _
          rw [hholds]
          simp only [Outcome.ok_bind, Bool.false_eq_true, if_false]
          refine ih (count / 2) (by omega) first elements front
            (back.take (count / 2 - front.length)) ?_ (by omega) hfront
            (fun element helem => hback element (List.mem_of_mem_take helem))
          have hrest := congrArg (List.take (count / 2)) hsplit
          have hwhole : front.take (count / 2) = front :=
            List.take_of_length_le (by omega)
          rw [List.take_take, Nat.min_eq_left (by omega), List.take_append, hwhole] at hrest
          exact hrest

/-- Bisecting a list gives the length of the front where the question holds. -/
theorem bisect_of_split
    {front back : List α}
    (hfront : ∀ element ∈ front, holds element = .ok true)
    (hback : ∀ element ∈ back, holds element = .ok false) :
    bisect holds (front ++ back) = .ok front.length := by
  unfold bisect
  rw [bisectFrom_of_split 0 (front ++ back).length (front ++ back) front back
    (List.take_length) (Nat.le_refl _) hfront hback, Nat.zero_add]

theorem returns_bisectFrom
    (first count : Nat)
    (elements : List α)
    (h : ∀ element ∈ elements, (holds element).Returns) :
    (bisectFrom holds first elements count).Returns := by
  induction count using Nat.strongRecOn generalizing first elements with
  | ind count ih =>
      unfold bisectFrom
      split
      next =>
        exact Outcome.returns_ok first
      next hzero =>
        split
        next =>
          exact Outcome.returns_ok first
        next element rest hdrop =>
          have hsuffix : (element :: rest) <:+ elements := hdrop ▸ List.drop_suffix _ _
          refine (h element (hsuffix.subset List.mem_cons_self)).bind fun answer _ => ?_
          split
          · refine ih (count - count / 2 - 1) (by omega) _ rest fun other hother => ?_
            exact h other (hsuffix.subset (List.mem_cons_of_mem _ hother))
          · exact ih (count / 2) (by omega) first elements h

/-- A bisection of questions that all have an answer has one itself. -/
theorem returns_bisect
    {elements : List α}
    (h : ∀ element ∈ elements, (holds element).Returns) :
    (bisect holds elements).Returns :=
  returns_bisectFrom 0 elements.length elements h

section Answers

variable {β : Type}
variable {holds' : β → Outcome ε Bool}

theorem bisectFrom_eq_of_map_eq
    (first count : Nat)
    (elements : List α)
    (elements' : List β)
    (h : elements.map holds = elements'.map holds') :
    bisectFrom holds first elements count = bisectFrom holds' first elements' count := by
  induction count using Nat.strongRecOn generalizing first elements elements' with
  | ind count ih =>
      have hdrop := congrArg (List.drop (count / 2)) h
      rw [← List.map_drop, ← List.map_drop] at hdrop
      unfold bisectFrom
      split
      next =>
        rfl
      next hzero =>
        cases hleft : elements.drop (count / 2) with
        | nil =>
            rw [hleft] at hdrop
            rw [List.map_eq_nil_iff.mp hdrop.symm]
        | cons element rest =>
            rw [hleft] at hdrop
            obtain ⟨element', rest', hright, helement, hrest⟩ :=
              List.map_eq_cons_iff.mp hdrop.symm
            rw [hright]
            dsimp only
            rw [helement, ih (count - count / 2 - 1) (by omega) _ rest rest' hrest.symm,
              ih (count / 2) (by omega) first elements elements' h]

/-- A bisection is a matter of the answers, whatever it is that is asked. -/
theorem bisect_eq_of_map_eq
    {elements : List α}
    {elements' : List β}
    (h : elements.map holds = elements'.map holds') :
    bisect holds elements = bisect holds' elements' := by
  have hlength : elements.length = elements'.length := by
    simpa using congrArg List.length h
  rw [bisect, bisect, hlength, bisectFrom_eq_of_map_eq 0 elements'.length elements elements' h]

end Answers

end Bisect

section HoldsKey

variable {numbers : List Nat}

theorem getElem_le_of_ascending
    (hsorted : numbers.Pairwise (· ≤ ·))
    {low high : Nat}
    (hle : low ≤ high)
    (hhigh : high < numbers.length) :
    numbers[low] ≤ numbers[high] := by
  rcases Nat.lt_or_eq_of_le hle with hlt | rfl
  · exact List.pairwise_iff_getElem.mp hsorted low high (by omega) hhigh hlt
  · exact Nat.le_refl _

/-- The search in a range of ascending numbers finds every key that is there.  What lies behind a
middle that is larger than the key is larger as well, and what lies in front of any other middle is
not larger than that middle. -/
theorem holdsKey_iff_getElem?
    (hsorted : numbers.Pairwise (· ≤ ·))
    (key first count : Nat)
    (hpositive : 0 < count)
    (hrange : first + count ≤ numbers.length) :
    holdsKey numbers key first count = true ↔
      ∃ index, first ≤ index ∧ index < first + count ∧ numbers[index]? = some key := by
  induction count using Nat.strongRecOn generalizing first with
  | ind count ih =>
      unfold holdsKey
      split
      next hcount =>
        have hmiddle : first + count / 2 < numbers.length := by omega
        simp only [List.getElem?_eq_getElem hmiddle, Option.any_some, decide_eq_true_eq]
        split
        next hless =>
          rw [ih (count - count / 2) (by omega) first (by omega) (by omega)]
          constructor
          · rintro ⟨index, hlow, hhigh, hkey⟩
            exact ⟨index, hlow, by omega, hkey⟩
          · rintro ⟨index, hlow, hhigh, hkey⟩
            obtain ⟨hindex, heq⟩ := List.getElem?_eq_some_iff.mp hkey
            rcases Nat.lt_or_ge index (first + count / 2) with hbefore | hbehind
            · exact ⟨index, hlow, by omega, hkey⟩
            · have := getElem_le_of_ascending hsorted hbehind hindex
              omega
        next hless =>
          rw [ih (count - count / 2) (by omega) (first + count / 2) (by omega) (by omega)]
          constructor
          · rintro ⟨index, hlow, hhigh, hkey⟩
            exact ⟨index, by omega, by omega, hkey⟩
          · rintro ⟨index, hlow, hhigh, hkey⟩
            obtain ⟨hindex, heq⟩ := List.getElem?_eq_some_iff.mp hkey
            by_cases hbefore : index < first + count / 2
            · have := getElem_le_of_ascending hsorted (Nat.le_of_lt hbefore) hmiddle
              refine ⟨first + count / 2, Nat.le_refl _, by omega, ?_⟩
              rw [List.getElem?_eq_getElem hmiddle]
              congr 1
              omega
            · exact ⟨index, by omega, by omega, hkey⟩
      next hcount =>
        simp only [decide_eq_true_eq]
        constructor
        · intro h
          exact ⟨first, Nat.le_refl _, by omega, h⟩
        · rintro ⟨index, hlow, hhigh, hkey⟩
          have : index = first := by omega
          rwa [this] at hkey

/-- The search among ascending numbers succeeds for their members only. -/
theorem holdsKey_iff_mem
    (hsorted : numbers.Pairwise (· ≤ ·))
    (key : Nat) :
    holdsKey numbers key 0 numbers.length = true ↔ key ∈ numbers := by
  rcases Nat.eq_zero_or_pos numbers.length with hzero | hpositive
  · obtain rfl := List.length_eq_zero_iff.mp hzero
    simp [holdsKey]
  · rw [holdsKey_iff_getElem? hsorted key 0 numbers.length hpositive (by omega)]
    rw [List.mem_iff_getElem?]
    constructor
    · rintro ⟨index, -, -, hkey⟩
      exact ⟨index, hkey⟩
    · rintro ⟨index, hkey⟩
      obtain ⟨hindex, -⟩ := List.getElem?_eq_some_iff.mp hkey
      exact ⟨index, Nat.zero_le _, by omega, hkey⟩

end HoldsKey

end LiveTokens
