import LiveTokens.Proofs.Outcome

/-!
# Two runs side by side

Two outcomes *agree* if they are the same failure, or values that are related.
Two pieces of work agree if their outcomes do and the states that they leave are
related, in one way if they have succeeded and in another if they have failed.
Steps that agree, one after the other, are work that agrees.
-/

namespace LiveTokens

namespace Outcome

variable {ε δ α β α' β' : Type}
variable {related : α → β → Prop}
variable {related' : α' → β' → Prop}

/-- The same failure, or values that are related. -/
def Agree
    (related : α → β → Prop) : Outcome ε α → Outcome ε β → Prop
  | .ok value, .ok value' => related value value'
  | .error failure, .error failure' => failure = failure'
  | _, _ => False

@[simp] theorem agree_ok_iff
    {value : α}
    {value' : β} :
    Agree related (.ok value : Outcome ε α) (.ok value') ↔ related value value' := by
  rfl

theorem agree_of_eq
    {outcome outcome' : Outcome ε α}
    (h : outcome = outcome') :
    Agree Eq outcome outcome' := by
  subst h
  cases outcome <;> rfl

theorem Agree.eq
    {outcome outcome' : Outcome ε α}
    (h : Agree Eq outcome outcome') :
    outcome = outcome' := by
  rcases outcome with failure | value <;> rcases outcome' with failure' | value'
  · exact congrArg _ h
  · exact h.elim
  · exact h.elim
  · exact congrArg _ h

theorem Agree.bind
    {first : Outcome ε α}
    {second : Outcome ε β}
    {next : α → Outcome ε α'}
    {next' : β → Outcome ε β'}
    (h : Agree related first second)
    (hnext : ∀ value value', related value value' → Agree related' (next value) (next' value')) :
    Agree related' (first >>= next) (second >>= next') := by
  rcases first with failure | value <;> rcases second with failure' | value'
  · exact h
  · exact h.elim
  · exact h.elim
  · exact hnext value value' h

theorem Agree.wrap
    {f : ε → δ}
    {first : Outcome ε α}
    {second : Outcome ε β}
    (h : Agree related first second) :
    Agree related (first.wrap f) (second.wrap f) := by
  rcases first with failure | value <;> rcases second with failure' | value'
  · obtain rfl : failure = failure' := h
    rcases failure with _ | error <;> rfl
  · exact h.elim
  · exact h.elim
  · exact h

/-- What two values that agree have in common may stem from the outcomes that gave them. -/
theorem Agree.imp
    {weaker : α → β → Prop}
    {first : Outcome ε α}
    {second : Outcome ε β}
    (h : Agree related first second)
    (himp : ∀ value value',
      first = .ok value → second = .ok value' → related value value' → weaker value value') :
    Agree weaker first second := by
  rcases first with failure | value <;> rcases second with failure' | value'
  · exact h
  · exact h.elim
  · exact h.elim
  · exact himp value value' rfl rfl h

section Filter

variable {γ : Type}
variable {look : α → γ}
variable {elements elements' picked picked' : List α}
variable {question : α → Outcome ε Bool}

theorem agree_filterAuxM
    (hpicked : picked.map look = picked'.map look)
    (h : elements.map look = elements'.map look)
    (hquestion : ∀ element element', look element = look element' →
      question element = question element') :
    Agree (fun found found' => found.map look = found'.map look)
      (elements.filterAuxM question picked) (elements'.filterAuxM question picked') := by
  induction elements generalizing elements' picked picked' with
  | nil =>
      obtain rfl := List.map_eq_nil_iff.mp h.symm
      exact hpicked
  | cons element rest ih =>
      obtain ⟨element', rest', rfl, helement, hrest⟩ := List.map_eq_cons_iff.mp h.symm
      rw [List.filterAuxM, List.filterAuxM, hquestion _ _ helement]
      refine (agree_of_eq rfl).bind fun answer answer' hanswer => ?_
      subst hanswer
      refine ih ?_ hrest.symm
      cases answer with
      | false =>
          exact hpicked
      | true =>
          simp [helement, hpicked]

/-- Picking from two lists that look alike agrees if the questions only depend on the looks. -/
theorem agree_filterM
    (h : elements.map look = elements'.map look)
    (hquestion : ∀ element element', look element = look element' →
      question element = question element') :
    Agree (fun found found' => found.map look = found'.map look)
      (elements.filterM question) (elements'.filterM question) := by
  unfold List.filterM
  refine (agree_filterAuxM rfl h hquestion).bind fun found found' hfound => ?_
  simp [hfound]

end Filter

end Outcome

namespace Work

variable {σ ε α β α' β' : Type}
variable {good : α → σ → β → σ → Prop}
variable {good' : α' → σ → β' → σ → Prop}
variable {bad : σ → σ → Prop}

/-- Both have failed for the same reason and left states related by `bad`, or both have succeeded
with values and states related by `good`. -/
def Agree
    (good : α → σ → β → σ → Prop)
    (bad : σ → σ → Prop) : Outcome ε α × σ → Outcome ε β × σ → Prop
  | (.ok value, state), (.ok value', state') => good value state value' state'
  | (.error failure, state), (.error failure', state') => failure = failure' ∧ bad state state'
  | _, _ => False

theorem Agree.cases
    {result : Outcome ε α × σ}
    {result' : Outcome ε β × σ}
    (h : Agree good bad result result') :
    (∃ failure state state',
      result = (.error failure, state) ∧
      result' = (.error failure, state') ∧
      bad state state') ∨
    ∃ value state value' state',
      result = (.ok value, state) ∧
      result' = (.ok value', state') ∧
      good value state value' state' := by
  rcases result with ⟨failure | value, state⟩ <;> rcases result' with ⟨failure' | value', state'⟩
  · obtain ⟨rfl, hbad⟩ := h
    exact .inl ⟨failure, state, state', rfl, rfl, hbad⟩
  · exact h.elim
  · exact h.elim
  · exact .inr ⟨value, state, value', state', rfl, rfl, h⟩

theorem Agree.bind
    {first : Work σ ε α}
    {second : Work σ ε β}
    {next : α → Work σ ε α'}
    {next' : β → Work σ ε β'}
    {state state' : σ}
    (h : Agree good bad (first.outcome state) (second.outcome state'))
    (hnext : ∀ value middle value' middle',
      good value middle value' middle' →
      Agree good' bad ((next value).outcome middle) ((next' value').outcome middle')) :
    Agree good' bad ((first >>= next).outcome state) ((second >>= next').outcome state') := by
  rw [outcome_bind, outcome_bind]
  revert h
  rcases first.outcome state with ⟨failure | value, middle⟩ <;>
    rcases second.outcome state' with ⟨failure' | value', middle'⟩ <;> intro h
  · exact h
  · exact h.elim
  · exact h.elim
  · exact hnext value middle value' middle' h

/-- First steps that succeed on both sides leave the rest to agree. -/
theorem agree_bind_of_ok
    {first : Work σ ε α}
    {second : Work σ ε β}
    {next : α → Work σ ε α'}
    {next' : β → Work σ ε β'}
    {state middle state' middle' : σ}
    {value : α}
    {value' : β}
    (hfirst : first.outcome state = (.ok value, middle))
    (hsecond : second.outcome state' = (.ok value', middle'))
    (hnext : Agree good' bad ((next value).outcome middle) ((next' value').outcome middle')) :
    Agree good' bad ((first >>= next).outcome state) ((second >>= next').outcome state') := by
  rw [outcome_bind_of_ok hfirst, outcome_bind_of_ok hsecond]
  exact hnext

/-- Outcomes that agree are work that agrees, whatever the states are. -/
theorem agree_mk
    {related : α → β → Prop}
    {result : Outcome ε α}
    {result' : Outcome ε β}
    {state state' : σ}
    (h : Outcome.Agree related result result')
    (hgood : ∀ value value',
      result = .ok value → related value value' → good value state value' state')
    (hbad : bad state state') :
    Agree good bad (result, state) (result', state') := by
  rcases result with failure | value <;> rcases result' with failure' | value'
  · exact ⟨h, hbad⟩
  · exact h.elim
  · exact h.elim
  · exact hgood value value' rfl h

/-- Steps that change nothing agree if their outcomes do. -/
theorem agree_ofOutcome_bind
    {related : α → β → Prop}
    {result : Outcome ε α}
    {result' : Outcome ε β}
    {next : α → Work σ ε α'}
    {next' : β → Work σ ε β'}
    {state state' : σ}
    (h : Outcome.Agree related result result')
    (hbad : bad state state')
    (hnext : ∀ value value',
      related value value' →
      Agree good' bad ((next value).outcome state) ((next' value').outcome state')) :
    Agree good' bad ((ofOutcome result >>= next).outcome state)
      ((ofOutcome result' >>= next').outcome state') := by
  have hfirst : Agree
      (fun value middle value' middle' =>
        related value value' ∧ middle = state ∧ middle' = state')
      bad ((ofOutcome result : Work σ ε α).outcome state)
      ((ofOutcome result' : Work σ ε β).outcome state') := by
    rw [outcome_ofOutcome, outcome_ofOutcome]
    exact agree_mk h (fun _ _ _ hrelated => ⟨hrelated, rfl, rfl⟩) hbad
  refine hfirst.bind fun value middle value' middle' hgood => ?_
  obtain ⟨hrelated, rfl, rfl⟩ := hgood
  exact hnext value value' hrelated

/-- The same outcome agrees with itself. -/
theorem agree_refl
    {good : α → σ → α → σ → Prop}
    (hgood : ∀ value state, good value state value state)
    (hbad : ∀ state, bad state state)
    (result : Outcome ε α × σ) :
    Agree good bad result result := by
  rcases result with ⟨failure | value, state⟩
  · exact ⟨rfl, hbad state⟩
  · exact hgood value state

end Work

end LiveTokens
