import LiveTokens.Proofs.Atomicity
import LiveTokens.Scanner.Samples

/-!
# Edits change only what they report

Where the tokens of a document tile it and an update needs no fallback, the
tokens in front of the edit stay as they are, and those behind it keep their
identities and kinds and move along.  Only the tokens that the edit touches, and a
run of tokens directly behind these, give way to the new tokens that the update
reports.
-/

namespace LiveTokens

namespace TokenStore

variable {store : TokenStore}
variable {version : Nat}
variable {view : List (TrackedToken × Span)}
variable {tokens : List Token}

/-- The tokens of the store in its generation, each behind its number. -/
def Lists
    (store : TokenStore)
    (listing : List (Nat × Token)) : Prop :=
  store.ids = listing.map Prod.fst ∧
  store.toList = .ok (listing.map Prod.snd)

theorem Layout.lists
    (h : Layout store version view) :
    store.Lists (view.map face) := by
  refine ⟨h.ids_eq, ?_⟩
  rw [map_snd_face]
  exact h.toList_eq

/-- Tokens that can be listed, and tile a range, are a layout. -/
theorem exists_layout_of_toList
    {start stop : Nat}
    (htoList : store.toList = .ok tokens)
    (htiles : Tiles start tokens stop)
    (hdistinct : store.ids.Nodup) :
    ∃ version view,
      Layout store version view ∧
      view.map placed = tokens := by
  obtain ⟨version, view, harrangement, hplaced⟩ :=
    Arrangement.exists_of_toList htoList htiles.ordered
      fun token htoken => (htiles.bounds_of_mem htoken).2.2.2
  exact ⟨version, view, ⟨harrangement, hdistinct⟩, hplaced⟩

end TokenStore

/-- From one listing to the other, the tokens at the edit and a run of tokens behind them have given
way to `added`; those in front are the same, and those behind have moved along. -/
def Edit.Replaces
    (edit : Edit)
    (old added new : List (Nat × Token)) : Prop :=
  ∃ front touched run back,
    old = front ++ touched ++ run ++ back ∧
    new = front ++ added ++ back.map (Prod.map id (Token.slide edit.delta)) ∧
    (∀ entry ∈ front,
      entry.2.span.start + entry.2.span.length < edit.region.start) ∧
    (∀ entry ∈ touched,
      edit.region.start ≤ entry.2.span.start + entry.2.span.length ∧
        entry.2.span.start ≤ edit.region.start + edit.region.length) ∧
    (∀ entry ∈ run ++ back,
      edit.region.start + edit.region.length < entry.2.span.start) ∧
    ∀ entry ∈ back,
      entry.2.span.shifted? edit.delta = some (entry.2.span.slide edit.delta)

namespace Tokenizer

open TokenStore

variable {tokenizer : Tokenizer}
variable {before after : Document}
variable {replacements : List Replacement}
variable {front touched superseded rest view view' : List (TrackedToken × Span)}
variable {firstId : Nat}

/-- The new tokens of an update, each behind its number. -/
def addition
    (stages : Stages tokenizer before after replacements firstId) : List (Nat × Token) :=
  ((TrackedToken.number after.generation firstId stages.realignment.tokens).map
    TrackedToken.entry).map face

theorem map_snd_addition
    (stages : Stages tokenizer before after replacements firstId) :
    (addition stages).map Prod.snd = stages.realignment.tokens := by
  rw [addition, map_snd_face, map_placed_number]

/-- New tokens have numbers that were free. -/
theorem le_of_mem_addition
    {entry : Nat × Token}
    (stages : Stages tokenizer before after replacements firstId)
    (hentry : entry ∈ addition stages) :
    firstId ≤ entry.1 := by
  have hids : (addition stages).map Prod.fst =
      List.range' firstId stages.realignment.tokens.length := by
    rw [← TrackedToken.map_id_number after.generation firstId, addition, List.map_map,
      List.map_map]
    rfl
  have hid := List.mem_map_of_mem (f := Prod.fst) hentry
  rw [hids, List.mem_range'_1] at hid
  exact hid.1

theorem shifted?_of_le
    {span : Span}
    {delta : Int}
    (hnonneg : 0 ≤ span.start + delta)
    (hbound : span.start + delta < positionBound) :
    span.shifted? delta = some (span.slide delta) := by
  rw [Span.shifted?, shift?, if_pos ⟨hnonneg, hbound⟩]
  rfl

/-- What an update puts in the place of what, as it shows in the two listings. -/
theorem replaces_of_patched
    (stages : Stages tokenizer before after replacements firstId)
    (hview : view = front ++ touched ++ (superseded ++ rest))
    (hdivided : Divided stages.edit.region front touched (superseded ++ rest))
    (hfaces : view'.map face = (patched stages front rest).map face)
    (htiles : Tiles 0 (view'.map placed) after.size)
    (hafter : after.size < positionBound) :
    stages.edit.Replaces (view.map face) (addition stages) (view'.map face) := by
  have hedit := (Edit.plausible_of_join stages.join).2
  unfold Edit.Plausible at hedit
  refine ⟨front.map face, touched.map face, superseded.map face, rest.map face,
    ?_, ?_, ?_, ?_, ?_, ?_⟩
  · rw [hview]
    simp only [List.map_append, List.append_assoc]
  · rw [hfaces, patched, List.map_append, List.map_append, List.map_map, List.map_map,
      List.map_map, addition, List.map_map]
    rfl
  · intro entry hentry
    obtain ⟨located, hlocated, rfl⟩ := List.mem_map.mp hentry
    exact hdivided.front located hlocated
  · intro entry hentry
    obtain ⟨located, hlocated, rfl⟩ := List.mem_map.mp hentry
    exact hdivided.middle located hlocated
  · intro entry hentry
    rw [← List.map_append] at hentry
    obtain ⟨located, hlocated, rfl⟩ := List.mem_map.mp hentry
    exact hdivided.back located hlocated
  · intro entry hentry
    obtain ⟨located, hlocated, rfl⟩ := List.mem_map.mp hentry
    have hbehind := hdivided.back located (List.mem_append_right _ hlocated)
    have hmoved : placed (stages.edit.slideEntry located) ∈ view'.map placed := by
      rw [map_placed_of_map_face hfaces, patched, List.map_append]
      exact List.mem_append_right _ (List.mem_map_of_mem (List.mem_map_of_mem hlocated))
    have hend : (located.2.start + stages.edit.delta).toNat + located.2.length ≤ after.size :=
      (htiles.bounds_of_mem hmoved).2.1
    refine shifted?_of_le ?_ ?_
    · simp only [face, placed]
      omega
    · simp only [face, placed]
      omega

/-- An update that needs no fallback, from tokens that tile the document, changes only the tokens
that it reports and those in their place. -/
theorem replaces_of_incremental
    {slot slot' : Slot Document}
    {wanted : ChangeSet}
    {transition : Transition Document ChangeSet}
    (h : Attainable tokenizer)
    (hverify : tokenizer.settings.verifyIncremental = false)
    (hcovers : tokenizer.Covers)
    (hcurrent : slot.current = tokenizer.document)
    (hchange : slot.change wanted = (.ok transition, slot'))
    (hsome : wanted.replacements ≠ [])
    (hrange : slot'.current.size < positionBound)
    (hreturns : (tokenizer.followTransition transition).1.Returns)
    (hfallbacks : (tokenizer.followTransition transition).2.fallbacks ≤ tokenizer.fallbacks) :
    (tokenizer.followTransition transition).1 = .ok () ∧
    ∃ edit old added new,
      Edit.join wanted.replacements = .ok edit ∧
      tokenizer.store.Lists old ∧
      (tokenizer.followTransition transition).2.store.Lists new ∧
      edit.Replaces old added new ∧
      added.map Prod.snd =
        (tokenizer.followTransition transition).2.publications.current.updated ∧
      ∀ entry ∈ added, entry.1 ∉ tokenizer.store.ids := by
  obtain ⟨-, hturns, hold, rfl, rfl⟩ := Slot.change_eq_ok_iff.mp hchange
  rw [hcurrent] at hturns hold
  rw [followTransition, hold] at hreturns hfallbacks ⊢
  rcases hattempt : (tokenizer.supersede.2.incremental tokenizer.document transition.after
    transition.change.replacements).outcome tokenizer.toProgress with
      ⟨(_ | error) | ⟨store, updated⟩, progress⟩
  · rw [followChange_of_overflow hsome hattempt] at hreturns
    exact absurd rfl hreturns
  · obtain ⟨-, -, -, -, hcounted⟩ := fallsBack_of_abandons hsome hverify hattempt
    omega
  · obtain ⟨stages⟩ := exists_stages hattempt
    obtain ⟨tokens, htoList, htiles⟩ := hcovers
    obtain ⟨version, view, hlayout, rfl⟩ :=
      exists_layout_of_toList htoList htiles h.numbered.distinct
    have hversion : tokenizer.document.generation = version := by
      have heq := hlayout.version_eq (ε := UpdateError)
      exact Except.ok.inj (stages.version.symm.trans heq)
    subst hversion
    obtain ⟨front, touched, superseded, rest, view', hview, hdivided, horderly, hfaces, htiles'⟩ :=
      exists_patched stages ⟨hlayout, h.numbered.used⟩ htiles hturns hrange
    have hreplaces := replaces_of_patched stages hview hdivided hfaces htiles' hrange
    have hoff : tokenizer.supersede.2.settings.verifyIncremental = false := hverify
    rw [followChange_of_ok hsome hattempt]
    rw [outcome_incremental stages, conclude, if_neg (by simp [hoff])] at hattempt
    cases hattempt
    refine ⟨rfl, stages.edit, view.map face, addition stages, view'.map face, stages.join,
      hlayout.lists, horderly.layout.lists, hreplaces, map_snd_addition stages, ?_⟩
    intro entry hentry hmem
    have hused := h.numbered.used _ hmem
    have hfree := le_of_mem_addition stages hentry
    omega

/-- The change of `a b` to `xa b`. -/
def prefixed : Transition Document ChangeSet where
  before := ⟨['a', ' ', 'b'], ⟨0, 0⟩⟩
  after := ⟨['x', 'a', ' ', 'b'], ⟨0, 1⟩⟩
  change := ⟨0, [⟨⟨0, 0⟩, ['x']⟩]⟩

theorem replaces_of_prefixed :
    ∃ tokenizer old added new,
      create Samples.first4 {} prefixed.before 0 = .ok tokenizer ∧
      (tokenizer.followTransition prefixed).1 = .ok () ∧
      tokenizer.store.Lists old ∧
      (tokenizer.followTransition prefixed).2.store.Lists new ∧
      Edit.Replaces ⟨⟨0, 0⟩, 1⟩ old added new ∧
      added.map Prod.snd = [⟨1, ⟨0, 2⟩⟩] := by
  obtain ⟨tokenizer, hcreate, hsettings, hdocument, hcovers, hreturns, hfallbacks, hupdated⟩ :
      ∃ tokenizer,
        create Samples.first4 {} prefixed.before 0 = .ok tokenizer ∧
        tokenizer.settings.verifyIncremental = false ∧
        prefixed.before = tokenizer.document ∧
        tokenizer.store.toList = .ok [⟨1, ⟨0, 1⟩⟩, ⟨2, ⟨1, 1⟩⟩, ⟨1, ⟨2, 1⟩⟩] ∧
        (tokenizer.followTransition prefixed).1.Returns ∧
        (tokenizer.followTransition prefixed).2.fallbacks ≤ tokenizer.fallbacks ∧
        (tokenizer.followTransition prefixed).2.publications.current.updated =
          [⟨1, ⟨0, 2⟩⟩] :=
    ⟨_, create_eq_ok_iff.mpr ⟨[⟨1, ⟨0, 1⟩⟩, ⟨2, ⟨1, 1⟩⟩, ⟨1, ⟨2, 1⟩⟩], by decide +kernel, rfl⟩,
      rfl, rfl, by decide +kernel, by decide +kernel, by decide +kernel, by decide +kernel⟩
  have hchange : (Slot.holding prefixed.before).change prefixed.change =
      (.ok prefixed, (Slot.holding prefixed.before).publish prefixed.after) := rfl
  have htiles : Tiles 0 [⟨1, ⟨0, 1⟩⟩, ⟨2, ⟨1, 1⟩⟩, ⟨1, ⟨2, 1⟩⟩] tokenizer.document.size := by
    rw [← hdocument]
    exact tileFrom_eq_ok_iff.mp (by decide +kernel)
  obtain ⟨hanswer, edit, old, added, new, hjoin, hold, hnew, hreplaces, hadded, -⟩ :=
    replaces_of_incremental (.created hcreate) hsettings ⟨_, hcovers, htiles⟩ hdocument hchange
      (by decide) (by decide) hreturns hfallbacks
  cases hjoin
  exact ⟨tokenizer, old, added, new, hcreate, hanswer, hold, hnew, hreplaces,
    hadded.trans hupdated⟩

end Tokenizer

end LiveTokens
