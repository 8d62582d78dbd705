import LiveTokens.Proofs.Assembly
import LiveTokens.Proofs.UpToDate

/-!
# Following a host

A tokenizer is created over the current snapshot of a host and then told of each
change that the host accepts.  With the lexer of a well-behaved grammar, such as
that of assembly texts, it has the tokens of a full lexing after every change,
and none of the changes needs a fallback.
-/

namespace LiveTokens

/-- The lexer scans by a well-behaved grammar. -/
def Lexer.WellBehaved
    (lexer : Lexer) : Prop :=
  ∃ grammar classify,
    grammar.WellBehaved ∧
    lexer = .ofGrammar grammar classify

namespace Tokenizer

variable {lexer : Lexer}
variable {settings : Settings}
variable {slot : Slot Document}
variable {answer : Outcome FollowError Unit}
variable {tokenizer : Tokenizer}

/-- A host, and a tokenizer that has been told of each of its changes since the tokenizer was
created, with the last answer of the tokenizer. -/
inductive Session
    (lexer : Lexer)
    (settings : Settings) : Slot Document → Outcome FollowError Unit → Tokenizer → Prop
  | created
      {slot : Slot Document}
      {nextId : Nat}
      {tokenizer : Tokenizer}
      (hrange : slot.current.InRange)
      (hcreate : create lexer settings slot.current nextId = .ok tokenizer) :
      Session lexer settings slot (.ok ()) tokenizer
  | followed
      {slot slot' : Slot Document}
      {answer : Outcome FollowError Unit}
      {tokenizer : Tokenizer}
      {wanted : ChangeSet}
      {transition : Transition Document ChangeSet}
      (hsession : Session lexer settings slot answer tokenizer)
      (hchange : slot.change wanted = (.ok transition, slot'))
      (hrange : slot'.current.InRange) :
      Session lexer settings slot' (tokenizer.followTransition transition).1
        (tokenizer.followTransition transition).2

theorem Session.inRange
    (h : Session lexer settings slot answer tokenizer) :
    slot.current.InRange := by
  cases h with
  | created hrange hcreate =>
      exact hrange
  | followed hsession hchange hrange =>
      exact hrange

/-- One more change of the host keeps the tokenizer up to date. -/
theorem exists_followTransition
    {grammar : Grammar}
    {classify : Nat → TokenClass}
    {slot' : Slot Document}
    {wanted : ChangeSet}
    {transition : Transition Document ChangeSet}
    (hgrammar : grammar.WellBehaved)
    (h : tokenizer.UpToDate grammar classify slot.current)
    (hchange : slot.change wanted = (.ok transition, slot'))
    (hbefore : slot.current.InRange)
    (hafter : slot'.current.InRange) :
    ∃ tokenizer',
      tokenizer.followTransition transition = (.ok (), tokenizer') ∧
      tokenizer'.UpToDate grammar classify slot'.current ∧
      tokenizer'.fallbacks = tokenizer.fallbacks := by
  obtain ⟨-, hturns, hold, rfl, rfl⟩ := Slot.change_eq_ok_iff.mp hchange
  have hcurrent : (slot.publish transition.after).current = transition.after := rfl
  rw [hcurrent] at hafter ⊢
  unfold followTransition
  rw [hold]
  exact exists_followChange hgrammar h hturns hbefore hafter

theorem upToDate_of_session
    {grammar : Grammar}
    {classify : Nat → TokenClass}
    (hgrammar : grammar.WellBehaved)
    (h : Session (.ofGrammar grammar classify) settings slot answer tokenizer) :
    answer = .ok () ∧
    tokenizer.UpToDate grammar classify slot.current ∧
    tokenizer.fallbacks = 0 := by
  induction h with
  | @created slot nextId tokenizer hrange hcreate =>
      obtain ⟨created, hcreated, hupToDate, hfallbacks⟩ :=
        exists_create hgrammar classify settings hrange nextId
      rw [hcreate] at hcreated
      cases hcreated
      exact ⟨rfl, hupToDate, hfallbacks⟩
  | followed hsession hchange hrange ih =>
      obtain ⟨-, hupToDate, hfallbacks⟩ := ih
      obtain ⟨tokenizer', hfollow, hupToDate', hfallbacks'⟩ :=
        exists_followTransition hgrammar hupToDate hchange hsession.inRange hrange
      rw [hfollow]
      exact ⟨rfl, hupToDate', hfallbacks'.trans hfallbacks⟩

theorem wellBehaved_assembly :
    Assembly.lexer.WellBehaved :=
  ⟨_, _, Assembly.wellBehaved_scan, rfl⟩

theorem wellBehaved_of_or
    (hlexer : lexer = Assembly.lexer ∨ lexer.WellBehaved) :
    lexer.WellBehaved := by
  rcases hlexer with rfl | hlexer
  · exact wellBehaved_assembly
  · exact hlexer

/-- Over every snapshot of a host a tokenizer can be created, and after every change it has followed
the change incrementally and has the tokens of a full lexing. -/
theorem exact_of_session
    (hlexer : lexer = Assembly.lexer ∨ lexer.WellBehaved)
    (settings : Settings) :
    (∀ (slot : Slot Document) (nextId : Nat),
      slot.current.InRange →
      ∃ tokenizer, create lexer settings slot.current nextId = .ok tokenizer) ∧
    ∀ slot answer tokenizer,
      Session lexer settings slot answer tokenizer →
      answer = .ok () ∧
      (∃ tokens,
        tokenizer.store.toList = .ok tokens ∧
        lexer.lex slot.current.text = .ok tokens) ∧
      tokenizer.store.check = .ok () ∧
      tokenizer.document = slot.current ∧
      (tokenizer.store.version : Outcome StoreError Nat) = .ok slot.current.generation ∧
      tokenizer.fallbacks = 0 := by
  obtain ⟨grammar, classify, hgrammar, rfl⟩ := wellBehaved_of_or hlexer
  constructor
  · intro slot nextId hrange
    obtain ⟨tokenizer, hcreate, -, -⟩ := exists_create hgrammar classify settings hrange nextId
    exact ⟨tokenizer, hcreate⟩
  · intro slot answer tokenizer h
    obtain ⟨hanswer, hupToDate, hfallbacks⟩ := upToDate_of_session hgrammar h
    obtain ⟨view, hdescribes⟩ := hupToDate.describes
    obtain ⟨hversion, hcheck, htokens⟩ :=
      readings_of_describes hgrammar classify hdescribes h.inRange.size_lt
    exact ⟨hanswer, htokens, hcheck, hupToDate.document_eq, hversion, hfallbacks⟩

/-- A semicolon comes to stand in front of a word. -/
theorem exact_after_semicolon :
    ∃ tokenizer transition slot,
      create Assembly.lexer {} ⟨['a'], ⟨0, 0⟩⟩ 0 = .ok tokenizer ∧
      (Slot.holding ⟨['a'], ⟨0, 0⟩⟩).change ⟨0, [⟨⟨0, 0⟩, [';']⟩]⟩ = (.ok transition, slot) ∧
      slot.current.InRange ∧
      slot.current.text = [';', 'a'] ∧
      (tokenizer.followTransition transition).1 = .ok () ∧
      ∃ tokens,
        (tokenizer.followTransition transition).2.store.toList = .ok tokens ∧
        Assembly.lexer.lex [';', 'a'] = .ok tokens := by
  obtain ⟨hcreate, hsession⟩ := exact_of_session (.inl rfl) {}
  obtain ⟨tokenizer, htokenizer⟩ :=
    hcreate (Slot.holding ⟨['a'], ⟨0, 0⟩⟩) 0 ⟨by decide, by decide⟩
  let wanted : ChangeSet := ⟨0, [⟨⟨0, 0⟩, [';']⟩]⟩
  let transition : Transition Document ChangeSet :=
    ⟨⟨['a'], ⟨0, 0⟩⟩, ⟨[';', 'a'], ⟨0, 1⟩⟩, wanted⟩
  have hchange : (Slot.holding ⟨['a'], ⟨0, 0⟩⟩).change wanted =
      (.ok transition, (Slot.holding ⟨['a'], ⟨0, 0⟩⟩).publish transition.after) := rfl
  have hrange : (⟨[';', 'a'], ⟨0, 1⟩⟩ : Document).InRange := ⟨by decide, by decide⟩
  obtain ⟨hanswer, htokens, -⟩ :=
    hsession _ _ _ (.followed (.created ⟨by decide, by decide⟩ htokenizer) hchange hrange)
  exact ⟨tokenizer, _, _, htokenizer, hchange, hrange, rfl, hanswer, htokens⟩

end Tokenizer

end LiveTokens
