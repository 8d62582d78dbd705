import LiveTokens.Proofs.Rebuild
import LiveTokens.Proofs.Scanning

/-!
# Updates that return

A lexer *fits* if it finds no token that ends beyond the last position, and it is
*bounded* if it finds none that ends beyond the last delta, in a text that does
not either.  With a lexer that fits no step of an update needs a position that is
not a number of 64 bits, so that every update returns.
-/

namespace LiveTokens

open TokenStore

/-- The item is an error, or a token that ends in front of the limit. -/
def LexItem.Below
    (item : LexItem)
    (limit : Nat) : Prop :=
  item.result.Returns ∧
  ∀ token, item.result = .ok token → token.span.start + token.span.length < limit

/-- Tokens of a text that ends in front of position `2 ^ 63` end there as well. -/
def Lexer.Bounded
    (lexer : Lexer) : Prop :=
  ∀ offset segments,
    offset + Text.size (List.flatten segments) < deltaBound →
    ∀ item ∈ (lexer.run offset segments).items, item.Below deltaBound

/-- Tokens of a text that ends in front of position `2 ^ 63` end at a position. -/
def Lexer.Fits
    (lexer : Lexer) : Prop :=
  ∀ offset segments,
    offset + Text.size (List.flatten segments) < deltaBound →
    ∀ item ∈ (lexer.run offset segments).items, item.Below positionBound

/-- No item of a full lexing of the text is a token that ends at the limit or beyond. -/
def Lexer.LexesBelow
    (lexer : Lexer)
    (text : Text)
    (limit : Nat) : Prop :=
  ∀ item ∈ (lexer.run 0 [text]).items, item.Below limit

theorem Lexer.Bounded.fits
    {lexer : Lexer}
    (h : lexer.Bounded) :
    lexer.Fits := by
  intro offset segments hsize item hitem
  obtain ⟨hreturns, hbelow⟩ := h offset segments hsize item hitem
  exact ⟨hreturns, fun token htoken => Span.fits_of_lt_deltaBound (hbelow token htoken)⟩

theorem Lexer.Bounded.lexesBelow
    {lexer : Lexer}
    {text : Text}
    (h : lexer.Bounded)
    (hsize : Text.size text < deltaBound) :
    lexer.LexesBelow text deltaBound :=
  h 0 [text] (by simpa using hsize)

theorem Lexer.Fits.lexesBelow
    {lexer : Lexer}
    {text : Text}
    (h : lexer.Fits)
    (hsize : Text.size text < deltaBound) :
    lexer.LexesBelow text positionBound :=
  h 0 [text] (by simpa using hsize)

section Scanning

/-- The tokens of a scanner end in the text that it is supplied with. -/
theorem Scanner.below_scanFrom
    {grammar : Grammar}
    {position limit : Nat}
    {buffer : Text}
    {supply : Supply}
    (hlimit : limit ≤ positionBound)
    (hbound : position + Text.size buffer + Text.size supply.segments.flatten < limit) :
    ∀ item ∈ (scanFrom grammar position buffer supply).items, item.Below limit := by
  intro item hitem
  have hsupplied := supplied_of_mem_scanFrom item hitem
  have hreach : position + Text.size (buffer ++ supply.drawnBy item.requests) < limit := by
    have hdrawn := supply.size_drawnBy_le item.requests
    rw [Text.size_append]
    omega
  constructor
  · intro hoverflow
    have hbeyond := hsupplied.overflow hoverflow
    omega
  · intro token htoken
    exact Nat.lt_of_le_of_lt (hsupplied.token token htoken) hreach

/-- The lexer of any grammar is bounded. -/
theorem Lexer.bounded_ofGrammar
    (grammar : Grammar)
    (classify : Nat → TokenClass) :
    (Lexer.ofGrammar grammar classify).Bounded := by
  intro offset segments hbound
  have hbuffer : offset + Text.size [] + Text.size segments.flatten < deltaBound := by
    rw [Text.size_nil, Nat.add_zero]
    exact hbound
  exact Scanner.below_scanFrom (by decide) hbuffer

end Scanning

section Realign

variable {after : Document}
variable {feed : Feed}
variable {invalid : Span}
variable {invalidStop requests position made state : Nat}
variable {items : List LexItem}
variable {reading : Reading}

/-- The texts of entries behind a position fit between it and the end of the document. -/
theorem Candidate.size_texts
    {entries : List (TrackedToken × Span)}
    (hposition : position ≤ after.size)
    (hstart : ∀ entry ∈ entries, position ≤ entry.2.start)
    (hordered : entries.Pairwise fun first second => first.2.Precedes second.2) :
    position + Text.size ((entries.map (ofEntry after)).map (·.text)).flatten ≤ after.size := by
  induction entries generalizing position with
  | nil =>
      exact hposition
  | cons entry rest ih =>
      obtain ⟨hfirst, hrest⟩ := List.pairwise_cons.mp hordered
      have hentry := hstart entry List.mem_cons_self
      rw [List.map_cons, List.map_cons, List.flatten_cons, Text.size_append, ofEntry]
      dsimp only
      cases hslice : Text.slice? after.text entry.2.start entry.2.length with
      | none =>
          have hothers := ih hposition
            (fun other hother => hstart other (List.mem_cons_of_mem _ hother)) hrest
          rw [Option.getD_none, Text.size_nil]
          omega
      | some text =>
          obtain ⟨hsize, hstop⟩ := Text.size_of_slice? hslice
          have hothers := ih hstop (fun other hother => (hfirst other hother).1) hrest
          rw [Option.getD_some]
          omega

namespace Realignment

theorem returns_read
    (hfailure : feed.failure ≠ some .overflow)
    (hitems : ∀ item ∈ items, item.Below positionBound) :
    ((read feed invalidStop requests position items).outcome state).1.Returns := by
  have hoverflow : ∀ count, (feed.checkOverflow count).Returns := by
    intro count
    rw [Feed.checkOverflow, Feed.failureAt]
    split
    next heq =>
      split at heq
      · exact absurd heq hfailure
      · cases heq
    next =>
      exact Outcome.returns_ok ()
  induction items generalizing position state with
  | nil =>
      rw [read, Work.outcome_bind_of_ok (Work.outcome_set _ _)]
      refine Work.returns_bind ?_ fun _ _ _ => Outcome.returns_ok _
      rw [Work.outcome_ofOutcome]
      exact hoverflow requests
  | cons item items ih =>
      obtain ⟨hresult, hbelow⟩ := hitems item List.mem_cons_self
      rw [read, Work.outcome_bind_of_ok (Work.outcome_set _ _)]
      refine Work.returns_bind ?_ fun _ _ _ => ?_
      · rw [Work.outcome_ofOutcome]
        exact hoverflow item.requests
      refine Work.returns_bind ?_ fun token _ htoken => ?_
      · rw [Work.outcome_ofOutcome, Outcome.returns_wrap_iff]
        exact hresult
      rw [Work.outcome_ofOutcome, Prod.mk.injEq, Outcome.wrap_eq_ok_iff] at htoken
      have hfits : token.span.Fits := hbelow token htoken.1
      split
      next =>
        exact Outcome.returns_cause _
      next =>
        rw [hfits.stop_eq, Work.outcome_bind_of_ok (Work.outcome_ofOutcome _ _)]
        split
        next =>
          exact Outcome.returns_ok _
        next =>
          refine Work.returns_bind ?_ fun _ _ _ => Outcome.returns_ok _
          exact ih fun other hother => hitems other (List.mem_cons_of_mem _ hother)

theorem returns_ofReading
    (hfailure : feed.failure ≠ some .overflow) :
    (ofReading feed invalid invalidStop requests reading).Returns := by
  unfold ofReading
  refine Outcome.Returns.bind ?_ fun _ _ => ?_
  · rw [Feed.checkFailure, Feed.failureAt]
    split
    next failure heq =>
      split at heq
      · cases failure with
        | overflow =>
            exact absurd heq hfailure
        | cause error =>
            exact Outcome.returns_cause error
      · cases heq
    next =>
      exact Outcome.returns_ok ()
  · dsimp only
    split
    · exact Outcome.returns_ok _
    · exact Outcome.returns_fail _

theorem returns_ofFeed
    {lexer : Lexer}
    {text : Text}
    (hfailure : feed.failure ≠ some .overflow)
    (hitems : ∀ item ∈ (lexer.run invalid.start (text :: feed.candidates.map (·.text))).items,
      item.Below positionBound) :
    (ofFeed lexer invalid invalidStop text feed).1.Returns := by
  unfold ofFeed
  refine Outcome.Returns.bind ?_ fun reading _ => returns_ofReading hfailure
  exact returns_read hfailure hitems

/-- A realignment on a layout returns. -/
theorem returns_realign
    {store : TokenStore}
    {version : Nat}
    {front back : List (TrackedToken × Span)}
    {lexer : Lexer}
    (hlexer : lexer.Fits)
    (h : Layout store version (front ++ back))
    (hafter : after.size < deltaBound)
    (hfits : invalid.Fits)
    (hfront : ∀ entry ∈ front, entry.2.start < invalid.start + invalid.length)
    (hback : ∀ entry ∈ back, invalid.start + invalid.length ≤ entry.2.start) :
    (realign store lexer after invalid).Returns := by
  rw [realign_eq h.toArrangement hfits hfront hback]
  split
  next =>
    exact Outcome.returns_fail _
  next text htext =>
    obtain ⟨enough, heq, -⟩ :=
      exists_attempt_of_withEnough back.length 4 (attempt lexer after invalid text back)
    rw [heq]
    have hbackOrdered : back.Pairwise fun first second => first.2.Precedes second.2 :=
      (List.pairwise_append.mp h.ordered).2.1
    obtain ⟨fed, unfed, htake, hcandidates, hfailure, -⟩ :=
      Feed.exists_of_ofLocated after.start_isIn fun entry (hentry : entry ∈ back.take enough) =>
        h.fits entry (List.mem_append_right front (List.mem_of_mem_take hentry))
    have hfed : fed.Sublist back :=
      ((List.sublist_append_left fed unfed).trans (htake ▸ List.Sublist.refl _)).trans
        (List.take_sublist enough back)
    obtain ⟨hsize, hstop⟩ := Text.size_of_slice? htext
    have htexts := Candidate.size_texts hstop (fun entry hentry => hback entry (hfed.subset hentry))
      (hbackOrdered.sublist hfed)
    refine returns_ofFeed ?_ ?_
    · rw [hfailure]
      cases unfed with
      | nil =>
          intro heq
          cases heq
      | cons entry unfed =>
          intro heq
          cases heq
    · rw [hcandidates]
      refine hlexer _ _ ?_
      rw [List.flatten_cons, Text.size_append]
      unfold Document.size at htexts hafter
      omega

end Realignment

end Realign

section Excision

theorem lt_of_shift?
    {start stop : Nat}
    {delta : Int}
    (h : shift? start delta = some stop) :
    stop < positionBound := by
  rw [shift?] at h
  split at h
  · cases h
    omega
  · cases h

variable {before after : Document}
variable {edit : Edit}
variable {touched : List (TrackedToken × Span)}

namespace Excision

/-- The place of spans that fit can be computed, and fits as well if there is one. -/
theorem extent_returns
    (before : Document)
    {spans : List Span}
    (hspans : ∀ span ∈ spans, span.Fits)
    (hregion : edit.region.Fits)
    (hafter : after.size < positionBound) :
    (extent before after edit spans).Returns ∧
    ∀ span, extent before after edit spans = .ok span → span.Fits := by
  unfold extent
  split
  next first last hfirst hlast =>
    have hlastFits : last.Fits := hspans last (List.mem_of_getLast? hlast)
    split
    next =>
      exact ⟨Outcome.returns_fail _, fun span heq => by cases heq⟩
    next =>
      rw [hlastFits.stop_eq, Outcome.ok_bind, hregion.stop_eq, Outcome.ok_bind]
      split
      next =>
        exact ⟨Outcome.returns_fail _, fun span heq => by cases heq⟩
      next =>
        split
        next span hspan =>
          refine ⟨Outcome.returns_ok _, ?_⟩
          intro span' heq
          cases heq
          obtain ⟨stop, hstop, hbetween⟩ := Option.bind_eq_some_iff.mp hspan
          have hbound := lt_of_shift? hstop
          rw [Span.between?] at hbetween
          split at hbetween
          next hle =>
            cases hbetween
            exact Span.fits_mk.mpr (by omega)
          next =>
            cases hbetween
        next =>
          exact ⟨Outcome.returns_fail _, fun span heq => by cases heq⟩
  next =>
    split
    · refine ⟨Outcome.returns_ok _, ?_⟩
      intro span heq
      cases heq
      exact Span.fits_mk.mpr (by omega)
    · exact ⟨Outcome.returns_fail _, fun span heq => by cases heq⟩

theorem returns_settle
    (htouched : ∀ entry ∈ touched, entry.2.Fits)
    (hregion : edit.region.Fits)
    (hbound : before.generation + 1 < positionBound)
    (hafter : after.size < positionBound) :
    (settle before after edit touched).Returns := by
  have hspans : ∀ span ∈ touched.map (·.2), span.Fits := by
    intro span hspan
    obtain ⟨entry, hentry, rfl⟩ := List.mem_map.mp hspan
    exact htouched entry hentry
  obtain ⟨hreturns, hfits⟩ := extent_returns before hspans hregion hafter
  rw [settle, advance_eq_ok hbound, Outcome.ok_bind]
  split
  next =>
    exact Outcome.returns_fail _
  next =>
    refine hreturns.bind fun span hspan => ?_
    rw [(hfits span hspan).stop_eq, Outcome.ok_bind]
    split
    · exact Outcome.returns_fail _
    · exact Outcome.returns_ok _

end Excision

end Excision

namespace Tokenizer

variable {lexer : Lexer}
variable {document : Document}
variable {tokens : List Token}

section Rebuild

theorem lex_below
    {text : Text}
    {limit : Nat}
    (hitems : lexer.LexesBelow text limit) :
    (lexer.lex text).Returns ∧
    ∀ tokens,
      lexer.lex text = .ok tokens →
      ∀ token ∈ tokens, token.span.start + token.span.length < limit := by
  constructor
  · exact Outcome.returns_mapM fun item hitem => (hitems item hitem).1
  · intro tokens htokens token htoken
    rw [Lexer.lex, Outcome.mapM_eq_ok_iff] at htokens
    have hmem : Except.ok token ∈ (lexer.run 0 [text]).items.map (·.result) := by
      rw [htokens]
      exact List.mem_map_of_mem htoken
    obtain ⟨item, hitem, hresult⟩ := List.mem_map.mp hmem
    exact (hitems item hitem).2 token hresult

theorem returns_tileFrom
    {position : Nat}
    (hfits : ∀ token ∈ tokens, token.span.Fits) :
    (tileFrom position tokens).Returns := by
  induction tokens generalizing position with
  | nil =>
      exact Outcome.returns_ok position
  | cons token tokens ih =>
      rw [tileFrom]
      split
      next =>
        exact Outcome.returns_fail _
      next =>
        rw [(hfits token List.mem_cons_self).stop_eq, Outcome.ok_bind]
        exact ih fun other hother => hfits other (List.mem_cons_of_mem _ hother)

theorem returns_lexAll
    (hitems : lexer.LexesBelow document.text positionBound) :
    (lexAll lexer document).Returns := by
  obtain ⟨hreturns, hfits⟩ := lex_below hitems
  rw [lexAll]
  refine Outcome.Returns.bind (Outcome.returns_wrap_iff.mpr hreturns) fun tokens htokens => ?_
  rw [Outcome.wrap_eq_ok_iff] at htokens
  refine Outcome.Returns.bind (returns_tileFrom (hfits tokens htokens)) fun stop _ => ?_
  · split
    · exact Outcome.returns_fail _
    · exact Outcome.returns_ok _

end Rebuild

section Incremental

variable {tokenizer : Tokenizer}
variable {before after : Document}
variable {replacements : List Replacement}
variable {progress : Progress}

/-- The store is orderly at the generation of the document, and no token ends beyond the last
delta. -/
structure Consistent
    (tokenizer : Tokenizer)
    (document : Document) : Prop where
  document_eq : tokenizer.document = document
  entries : ∃ view,
    Workspace.Orderly ⟨tokenizer.store, tokenizer.nextId⟩ document.generation view ∧
    ∀ entry ∈ view, entry.2.start + entry.2.length < deltaBound

theorem delta_lt_of_turns
    {edit : Edit}
    (hturns : before.Turns after replacements)
    (hjoin : Edit.join replacements = .ok edit)
    (hafter : after.InRange) :
    edit.delta < deltaBound := by
  obtain ⟨front, old, new, back, -, htext, -, -, hdelta⟩ :=
    Text.exists_changed_of_replaceAll hturns.text hjoin
  have hsize := hafter.size
  rw [Document.size, htext, Text.size_append, Text.size_append] at hsize
  omega

theorem returns_verify
    {store : TokenStore}
    {updated : List Token}
    {nextId version : Nat}
    {view : List (TrackedToken × Span)}
    (hitems : lexer.LexesBelow document.text positionBound)
    (h : Workspace.Orderly ⟨store, nextId⟩ version view) :
    ((verify lexer document store updated).outcome progress).1.Returns := by
  obtain ⟨hreturns, hfits⟩ := lex_below hitems
  rw [verify, h.layout.check_eq, Outcome.wrap_ok,
    Work.outcome_bind_of_ok (Work.outcome_ofOutcome _ _)]
  refine Work.returns_bind ?_ fun expected _ hexpected => ?_
  · rw [Work.outcome_ofOutcome, Outcome.returns_wrap_iff]
    exact hreturns
  rw [Work.outcome_ofOutcome, Prod.mk.injEq, Outcome.wrap_eq_ok_iff] at hexpected
  rw [h.layout.toList_eq, Outcome.wrap_ok, Work.outcome_bind_of_ok (Work.outcome_ofOutcome _ _)]
  split
  next =>
    exact Outcome.returns_ok _
  next =>
    rw [Work.outcome_bind_of_ok (Attempt.outcome_note _),
      Work.outcome_bind_of_ok Attempt.outcome_countFallback]
    refine Work.returns_bind ?_ fun _ _ _ => Outcome.returns_ok _
    rw [Attempt.number, Work.outcome_bind_of_ok (Work.outcome_get _),
      Work.outcome_bind_of_ok (Work.outcome_set _ _), Work.outcome_ofOutcome,
      Outcome.returns_wrap_iff]
    exact returns_ofTokens (hfits expected hexpected.1)

/-- With a lexer that fits, an incremental update returns. -/
theorem returns_incremental
    (hlexer : tokenizer.lexer.Fits)
    (h : tokenizer.Consistent before)
    (hturns : before.Turns after replacements)
    (hsome : replacements ≠ [])
    (hbefore : before.InRange)
    (hafter : after.InRange) :
    ((tokenizer.incremental before after replacements).outcome tokenizer.toProgress).1.Returns := by
  obtain ⟨rfl, view, horderly, hview⟩ := h
  obtain ⟨edit, hjoin⟩ :=
    Text.exists_join_of_replaceAll hturns.text hsome hbefore.size hafter.size
  have hdelta := delta_lt_of_turns hturns hjoin hafter
  have hbound : tokenizer.document.generation + 1 < positionBound := by
    rw [← hturns.generation]
    exact hafter.generation
  have hafterBound : after.size < positionBound := hafter.size_lt
  obtain ⟨touched, excised, hexcise, htouched, hexcised⟩ :=
    horderly.exists_excised after hjoin fun entry hentry _ => by
      have hstop := hview entry hentry
      unfold deltaBound at hstop hdelta
      unfold positionBound
      omega
  obtain ⟨view', hview'⟩ := hexcised hbound
  rw [incremental, horderly.layout.version_eq,
    Work.outcome_bind_of_ok (Work.outcome_ofOutcome _ _), if_neg (by simp), hjoin,
    Outcome.wrap_ok, Work.outcome_bind_of_ok (Work.outcome_ofOutcome _ _),
    Work.outcome_bind_of_ok (Attempt.outcome_enter _)]
  refine Work.returns_bind ?_ fun result _ hrevise => ?_
  · rw [Attempt.returns_revise_iff, hexcise]
    exact Excision.returns_settle htouched (Edit.plausible_of_join hjoin).1 hbound hafterBound
  obtain ⟨workspace, hok, hstore, rfl⟩ := Attempt.exists_of_outcome_revise hrevise
  rw [hexcise, Prod.mk.injEq] at hok
  obtain ⟨hsettle, rfl⟩ := hok
  obtain ⟨-, -, -, hfits, -, -⟩ := Excision.settle_eq_ok_iff.mp hsettle
  rw [Work.outcome_bind_of_ok (Attempt.outcome_note _),
    Work.outcome_bind_of_ok (Attempt.outcome_enter _), hstore]
  refine Work.returns_bind ?_ fun realignment _ hrealign => ?_
  · obtain ⟨ahead, behind, rfl, hahead, hbehind⟩ :=
      hview'.layout.exists_start_split (result.1.span.start + result.1.span.length)
    rw [Work.outcome_ofOutcome]
    exact Realignment.returns_realign hlexer hview'.layout hafter.size hfits hahead hbehind
  rw [Work.outcome_ofOutcome, Prod.mk.injEq] at hrealign
  obtain ⟨hrealign, rfl⟩ := hrealign
  obtain ⟨hreturns, hmerge⟩ := Revision.orderly_merge_of_realign hview' hfits hrealign
  rw [Work.outcome_bind_of_ok (Attempt.outcome_note _),
    Work.outcome_bind_of_ok (Attempt.outcome_enter _)]
  refine Work.returns_bind ?_ fun result' _ hrevise' => ?_
  · rw [Attempt.returns_revise_iff]
    exact hreturns
  obtain ⟨merged, hmerged, hstore', rfl⟩ := Attempt.exists_of_outcome_revise hrevise'
  obtain ⟨mergedView, hmergedView⟩ := hmerge _ hmerged
  obtain ⟨store, compactView, hcompact, hcompactView, -⟩ :=
    orderly_compactBeyond tokenizer.settings hmergedView
  dsimp only
  rw [hstore', hcompact, Outcome.wrap_ok, Work.outcome_bind_of_ok (Work.outcome_ofOutcome _ _),
    Work.outcome_bind_of_ok (Attempt.outcome_note _)]
  split
  next =>
    exact returns_verify (hlexer.lexesBelow hafter.size) hcompactView
  next =>
    exact Outcome.returns_ok _

end Incremental

end Tokenizer

end LiveTokens
