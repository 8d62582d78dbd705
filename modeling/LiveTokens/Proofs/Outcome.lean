import LiveTokens.Outcome

/-!
# Reasoning about outcomes

An outcome that is a value is taken apart step by step: each step before it gave
a value as well.  An operation *returns* if it does not overflow; a cause of
failure that it reports counts as an answer.

Work on a state is read through `Work.outcome`, which gives the outcome together
with the state that is left.  The lemmas below open a piece of work one step at
a time.
-/

namespace LiveTokens

namespace Except

variable {ε δ α β : Type}

theorem bind_eq_ok_iff
    {first : Except ε α}
    {next : α → Except ε β}
    {value : β} :
    (first >>= next) = .ok value ↔
      ∃ middle, first = .ok middle ∧ next middle = .ok value := by
  cases first with
  | error error =>
      simp [bind, Except.bind]
  | ok middle =>
      simp [bind, Except.bind]

theorem mapError_eq_ok_iff
    {f : ε → δ}
    {result : Except ε α}
    {value : α} :
    result.mapError f = .ok value ↔ result = .ok value := by
  cases result with
  | error error =>
      constructor
      · rintro ⟨⟩
      · rintro ⟨⟩
  | ok result =>
      constructor
      · rintro ⟨⟩
        rfl
      · rintro ⟨⟩
        rfl

end Except

namespace Outcome

variable {ε δ α β : Type}

@[simp] theorem ok_bind
    (value : α)
    (next : α → Outcome ε β) :
    ((.ok value : Outcome ε α) >>= next) = next value := by
  rfl

@[simp] theorem error_bind
    (failure : Failure ε)
    (next : α → Outcome ε β) :
    ((.error failure : Outcome ε α) >>= next) = .error failure := by
  rfl

@[simp] theorem pure_eq_ok
    (value : α) :
    (pure value : Outcome ε α) = .ok value := by
  rfl

/-- A value at the end of two steps comes from a value of the first. -/
theorem bind_eq_ok_iff
    {first : Outcome ε α}
    {next : α → Outcome ε β}
    {value : β} :
    (first >>= next) = .ok value ↔
      ∃ middle, first = .ok middle ∧ next middle = .ok value := by
  cases first with
  | error failure =>
      simp
  | ok middle =>
      simp

@[simp] theorem wrap_eq_ok_iff
    {f : ε → δ}
    {outcome : Outcome ε α}
    {value : α} :
    outcome.wrap f = .ok value ↔ outcome = .ok value := by
  rcases outcome with (_ | error) | result <;> simp [wrap]

@[simp] theorem wrap_eq_overflow_iff
    {f : ε → δ}
    {outcome : Outcome ε α} :
    outcome.wrap f = .error .overflow ↔ outcome = .error .overflow := by
  rcases outcome with (_ | error) | result <;> simp [wrap]

/-- The operation gives a value or reports a cause. -/
def Returns
    (outcome : Outcome ε α) : Prop :=
  outcome ≠ .error .overflow

@[simp] theorem returns_ok
    (value : α) :
    Returns (.ok value : Outcome ε α) := by
  simp [Returns]

@[simp] theorem returns_fail
    (error : ε) :
    Returns (fail error : Outcome ε α) := by
  simp [Returns, fail]

@[simp] theorem returns_cause
    (error : ε) :
    Returns (.error (.cause error) : Outcome ε α) := by
  simp [Returns]

instance
    [DecidableEq ε]
    [DecidableEq α] : DecidableEq (Outcome ε α)
  | .ok value, .ok value' => decidable_of_iff (value = value') (by simp)
  | .error failure, .error failure' => decidable_of_iff (failure = failure') (by simp)
  | .ok _, .error _ => isFalse (by simp)
  | .error _, .ok _ => isFalse (by simp)

instance (outcome : Outcome ε α) : Decidable outcome.Returns :=
  match outcome with
  | .ok value => isTrue (returns_ok value)
  | .error .overflow => isFalse fun h => h rfl
  | .error (.cause error) => isTrue (returns_cause error)

@[simp] theorem returns_wrap_iff
    {f : ε → δ}
    {outcome : Outcome ε α} :
    (outcome.wrap f).Returns ↔ outcome.Returns := by
  simp [Returns]

instance
    {p : α → Prop}
    [DecidablePred p]
    (outcome : Outcome ε α) : Decidable (∀ value, outcome = .ok value → p value) :=
  match outcome with
  | .ok value => decidable_of_iff (p value) (by simp)
  | .error _ => isTrue (by simp)

theorem Returns.bind
    {first : Outcome ε α}
    {next : α → Outcome ε β}
    (hfirst : first.Returns)
    (hnext : ∀ value, first = .ok value → (next value).Returns) :
    (first >>= next).Returns := by
  rcases first with (_ | error) | value
  · exact absurd rfl hfirst
  · simp
  · exact hnext value rfl

/-- Asking every element succeeds exactly if each of them has an answer. -/
theorem mapM_eq_ok_iff
    {f : α → Outcome ε β}
    {elements : List α}
    {values : List β} :
    elements.mapM f = .ok values ↔ elements.map f = values.map .ok := by
  induction elements generalizing values with
  | nil =>
      cases values <;> simp
  | cons element rest ih =>
      rw [List.mapM_cons, bind_eq_ok_iff]
      simp only [bind_eq_ok_iff, pure_eq_ok, Except.ok.injEq, ih, List.map_cons]
      constructor
      · rintro ⟨value, hvalue, others, hothers, rfl⟩
        rw [hvalue, hothers, List.map_cons]
      · intro h
        cases values with
        | nil =>
            simp at h
        | cons value others =>
            obtain ⟨hvalue, hothers⟩ := List.cons.inj h
            exact ⟨value, hvalue, others, hothers, rfl⟩

/-- Where an element fails, a first one does. -/
theorem exists_first_error
    {f : α → Outcome ε β}
    {elements : List α}
    {element : α}
    (helement : element ∈ elements)
    (hfails : ¬ ∃ value, f element = .ok value) :
    ∃ front first back failure,
      elements = front ++ first :: back ∧
      (∀ other ∈ front, ∃ value, f other = .ok value) ∧
      f first = .error failure := by
  induction elements with
  | nil =>
      cases helement
  | cons head rest ih =>
      rcases hhead : f head with failure | value
      · exact ⟨[], head, rest, failure, rfl, by simp, hhead⟩
      · have hrest : element ∈ rest := by
          refine (List.mem_cons.mp helement).resolve_left ?_
          rintro rfl
          exact hfails ⟨value, hhead⟩
        obtain ⟨front, first, back, failure, rfl, hfront, hfirst⟩ := ih hrest
        exact ⟨head :: front, first, back, failure, rfl,
          List.forall_mem_cons.mpr ⟨⟨value, hhead⟩, hfront⟩, hfirst⟩

/-- Asking every element ends at the first one that fails. -/
theorem mapM_eq_error_of_split
    {f : α → Outcome ε β}
    {front back : List α}
    {first : α}
    {failure : Failure ε}
    (hfront : ∀ other ∈ front, ∃ value, f other = .ok value)
    (hfirst : f first = .error failure) :
    (front ++ first :: back).mapM f = .error failure := by
  induction front with
  | nil =>
      rw [List.nil_append, List.mapM_cons, hfirst, error_bind]
  | cons head rest ih =>
      obtain ⟨⟨value, hhead⟩, hrest⟩ := List.forall_mem_cons.mp hfront
      rw [List.cons_append, List.mapM_cons, hhead, ok_bind, ih hrest, error_bind]

/-- Asking all elements of a list is a matter of the answers. -/
theorem mapM_eq_of_map_eq
    {γ : Type}
    {f : α → Outcome ε γ}
    {f' : β → Outcome ε γ}
    {elements : List α}
    {elements' : List β}
    (h : elements.map f = elements'.map f') :
    elements.mapM f = elements'.mapM f' := by
  induction elements generalizing elements' with
  | nil =>
      rw [List.map_eq_nil_iff.mp h.symm]
      rfl
  | cons element rest ih =>
      obtain ⟨element', rest', rfl, helement, hrest⟩ := List.map_eq_cons_iff.mp h.symm
      rw [List.mapM_cons, List.mapM_cons, helement, ih hrest.symm]

theorem returns_mapM
    {f : α → Outcome ε β}
    {elements : List α}
    (h : ∀ element ∈ elements, (f element).Returns) :
    (elements.mapM f).Returns := by
  induction elements with
  | nil =>
      simp
  | cons element rest ih =>
      rw [List.mapM_cons]
      refine (h element List.mem_cons_self).bind fun value _ => ?_
      refine (ih fun other hother => h other (List.mem_cons_of_mem _ hother)).bind ?_
      exact fun others _ => returns_ok (value :: others)

end Outcome

namespace Work

variable {σ ε α β : Type}

@[simp] theorem outcome_pure
    (value : α)
    (state : σ) :
    (pure value : Work σ ε α).outcome state = (.ok value, state) := by
  rfl

@[simp] theorem outcome_ofOutcome
    (result : Outcome ε α)
    (state : σ) :
    (ofOutcome result : Work σ ε α).outcome state = (result, state) := by
  cases result <;> rfl

@[simp] theorem outcome_fail
    (error : ε)
    (state : σ) :
    (fail error : Work σ ε α).outcome state = (.error (.cause error), state) := by
  rfl

@[simp] theorem outcome_get
    (state : σ) :
    (get : Work σ ε σ).outcome state = (.ok state, state) := by
  rfl

@[simp] theorem outcome_set
    (state next : σ) :
    (set next : Work σ ε PUnit).outcome state = (.ok ⟨⟩, next) := by
  rfl

@[simp] theorem outcome_modify
    (f : σ → σ)
    (state : σ) :
    (modify f : Work σ ε PUnit).outcome state = (.ok ⟨⟩, f state) := by
  rfl

/-- The second step starts from the state that the first one leaves. -/
theorem outcome_bind
    (first : Work σ ε α)
    (next : α → Work σ ε β)
    (state : σ) :
    (first >>= next).outcome state =
      match first.outcome state with
      | (.ok value, state) => (next value).outcome state
      | (.error failure, state) => (.error failure, state) := by
  simp only [outcome, EStateM.run, bind, EStateM.bind]
  cases first state <;> rfl

theorem outcome_bind_of_ok
    {first : Work σ ε α}
    {next : α → Work σ ε β}
    {state middle : σ}
    {value : α}
    (h : first.outcome state = (.ok value, middle)) :
    (first >>= next).outcome state = (next value).outcome middle := by
  rw [outcome_bind, h]

/-- Work of two steps that gives a value has a value after the first step. -/
theorem outcome_bind_eq_ok_iff
    {first : Work σ ε α}
    {next : α → Work σ ε β}
    {state final : σ}
    {value : β} :
    (first >>= next).outcome state = (.ok value, final) ↔
      ∃ result middle, first.outcome state = (.ok result, middle) ∧
        (next result).outcome middle = (.ok value, final) := by
  rw [outcome_bind]
  rcases first.outcome state with ⟨failure | result, middle⟩
  · simp
  · constructor
    · intro h
      exact ⟨result, middle, rfl, h⟩
    · rintro ⟨_, _, heq, h⟩
      cases heq
      exact h

theorem returns_bind
    {first : Work σ ε α}
    {next : α → Work σ ε β}
    {state : σ}
    (hfirst : Outcome.Returns (first.outcome state).1)
    (hnext : ∀ value middle,
      first.outcome state = (.ok value, middle) →
      Outcome.Returns ((next value).outcome middle).1) :
    Outcome.Returns ((first >>= next).outcome state).1 := by
  rw [outcome_bind]
  cases hstep : first.outcome state with
  | mk result middle =>
      rw [hstep] at hfirst
      cases result with
      | error failure =>
          intro hoverflow
          obtain rfl : failure = .overflow := Except.error.inj hoverflow
          exact hfirst rfl
      | ok value =>
          exact hnext value middle hstep

/-- Work that fails leaves the state as it was. -/
def Atomic
    (work : Work σ ε α) : Prop :=
  ∀ state failure,
    (work.outcome state).1 = .error failure →
    (work.outcome state).2 = state

theorem atomic_of_ok
    {work : Work σ ε α}
    (h : ∀ state, ∃ value, (work.outcome state).1 = .ok value) :
    work.Atomic := by
  intro state failure herror
  obtain ⟨value, hvalue⟩ := h state
  cases hvalue.symm.trans herror

theorem atomic_modify
    (f : σ → σ) :
    (modify f : Work σ ε PUnit).Atomic :=
  atomic_of_ok fun _ => ⟨⟨⟩, rfl⟩

theorem atomic_pure
    (value : α) :
    (pure value : Work σ ε α).Atomic :=
  atomic_of_ok fun _ => ⟨value, rfl⟩

theorem atomic_fail
    (error : ε) :
    (fail error : Work σ ε α).Atomic :=
  fun _ _ _ => rfl

/-- Questions may come first. -/
theorem Atomic.ofOutcome_bind
    {first : Outcome ε α}
    {next : α → Work σ ε β}
    (h : ∀ value, (next value).Atomic) :
    (ofOutcome first >>= next).Atomic := by
  intro state failure
  rw [outcome_bind, outcome_ofOutcome]
  cases first with
  | error failure =>
      exact fun _ => rfl
  | ok value =>
      exact h value state failure

theorem Atomic.get_bind
    {next : σ → Work σ ε α}
    (h : ∀ state, (next state).Atomic) :
    (get >>= next).Atomic := by
  intro state failure
  rw [outcome_bind_of_ok (outcome_get state)]
  exact h state state failure

/-- The work gives a value exactly if it has a result, which is then the state that it leaves. -/
theorem result_eq
    (work : Work σ ε α)
    (state : σ) :
    work.result state = (work.outcome state).1.map fun _ => (work.outcome state).2 := by
  unfold result outcome
  cases work.run state <;> rfl

/-- The state behind work that may fail, which is the old one if it does. -/
theorem Atomic.snd_outcome
    {work : Work σ ε α}
    (h : work.Atomic)
    (state : σ) :
    (work.outcome state).2 =
      match work.result state with
      | .ok next => next
      | .error _ => state := by
  have hstate := h state
  rw [result_eq]
  cases hresult : (work.outcome state).1 with
  | error failure =>
      exact hstate failure hresult
  | ok value =>
      rfl

end Work

end LiveTokens
