import LiveTokens.Proofs.Tiling

/-!
# What a realignment reads

The feed consists of candidates for the old tokens, up to the first one whose
text is not there.  The tokens that are read from the lexer tile a range, which
ends at a boundary unless the lexer has nothing left.

An accepted realignment stems from an attempt with enough old tokens at hand: it
either had all of them or did not ask for more.  The old tokens that it replaces
are the first ones of those that follow the invalidated text.
-/

namespace LiveTokens

open TokenStore

variable {after : Document}

/-- The candidate for a located token. -/
def Candidate.ofEntry
    (after : Document)
    (entry : TrackedToken × Span) : Candidate :=
  ⟨entry.1, entry.2.start + entry.2.length,
    (Text.slice? after.text entry.2.start entry.2.length).getD []⟩

namespace Feed

variable {feed : Feed}
variable {requests : Nat}

/-- The feed for located tokens ends in front of the first one that lies outside of the text. -/
theorem exists_of_ofLocated
    {cursor : Document.Cursor}
    {located : List (TrackedToken × Span)}
    (hcursor : cursor.IsIn after)
    (hfits : ∀ entry ∈ located, entry.2.Fits) :
    ∃ front back,
      located = front ++ back ∧
      (ofLocated after none cursor located).candidates = front.map (Candidate.ofEntry after) ∧
      (ofLocated after none cursor located).failure =
        back.head?.map (fun entry => .cause (.outOfBounds entry.2 after.size)) ∧
      ∀ entry ∈ back.head?, Text.slice? after.text entry.2.start entry.2.length = none := by
  induction located generalizing cursor with
  | nil =>
      exact ⟨[], [], rfl, rfl, rfl, by simp⟩
  | cons entry rest ih =>
      have hentry := hfits entry List.mem_cons_self
      have hslice := Document.sliceFrom?_eq_slice? (ε := UpdateError) hcursor entry.2
      have hcut : (after.slice? entry.2 : Outcome UpdateError (Option Text)) =
          .ok (Text.slice? after.text entry.2.start entry.2.length) := by
        unfold Document.slice?
        rw [hentry.stop_eq]
        rfl
      rw [hcut] at hslice
      rw [ofLocated]
      cases hread : (after.sliceFrom? cursor entry.2 : Outcome UpdateError _) with
      | error failure =>
          rw [hread] at hslice
          cases hslice
      | ok found =>
          rw [hread] at hslice
          have hfound : found.map Prod.fst =
              Text.slice? after.text entry.2.start entry.2.length :=
            Except.ok.inj hslice
          cases found with
          | none =>
              refine ⟨[], entry :: rest, rfl, rfl, rfl, ?_⟩
              intro other hother
              cases hother
              exact hfound.symm
          | some pair =>
              obtain ⟨text, next⟩ := pair
              obtain ⟨front, back, rfl, hcandidates, hfailure, hback⟩ :=
                ih (Document.isIn_of_sliceFrom? hcursor hread)
                  (fun other hother => hfits other (List.mem_cons_of_mem _ hother))
              refine ⟨entry :: front, back, rfl, ?_, hfailure, hback⟩
              dsimp only
              rw [List.map_cons, hcandidates, Candidate.ofEntry, ← hfound]
              rfl

theorem handedOut_of_map
    {entries : List (TrackedToken × Span)}
    (h : feed.candidates = entries.map (Candidate.ofEntry after)) :
    feed.handedOut requests = (entries.take (requests - 1)).map (Candidate.ofEntry after) := by
  rw [handedOut, h, List.map_take]

end Feed

namespace Realignment

variable {feed : Feed}
variable {invalid : Span}
variable {invalidStop requests position made state : Nat}
variable {items : List LexItem}
variable {reading : Reading}
variable {realignment : Realignment}

/-- Among ascending ends, a boundary is the end of the invalidated text or one of them behind it. -/
theorem isBoundary_iff
    (hsorted : ((feed.handedOut requests).map (·.stop)).Pairwise (· ≤ ·)) :
    isBoundary feed invalidStop position requests = true ↔
      position = invalidStop ∨
      invalidStop < position ∧
        ∃ candidate ∈ feed.handedOut requests, candidate.stop = position := by
  unfold isBoundary
  simp only [Bool.or_eq_true, beq_iff_eq, Bool.and_eq_true, decide_eq_true_eq,
    holdsKey_iff_mem hsorted, List.mem_map]

/-- What is read tiles a range.  It ends at a boundary, or the lexer has nothing left, and no token
before the last one ends at a boundary. -/
theorem read_eq_ok
    (h : (read feed invalidStop requests position items).outcome state = (.ok reading, made)) :
    Tiles position reading.tokens reading.stop ∧
    ∃ front back,
      items = front ++ back ∧
      front.map (·.result) = reading.tokens.map .ok ∧
      (∀ item ∈ front, ∀ token,
        item.result = .ok token →
        token.span.start + token.span.length < reading.stop →
        isBoundary feed invalidStop (token.span.start + token.span.length) item.requests =
          false) ∧
      (back = [] ∧ made = requests ∨
        ∃ item token,
          item ∈ front ∧
          item.result = .ok token ∧
          token.span.start + token.span.length = reading.stop ∧
          made = item.requests ∧
          isBoundary feed invalidStop reading.stop made = true) := by
  induction items generalizing position state reading with
  | nil =>
      rw [read, Work.outcome_bind_of_ok (Work.outcome_set state requests),
        Work.outcome_bind_eq_ok_iff] at h
      obtain ⟨_, middle, hoverflow, hreading⟩ := h
      cases hreading
      rw [Work.outcome_ofOutcome, Prod.mk.injEq] at hoverflow
      exact ⟨rfl, [], [], rfl, rfl, by simp, .inl ⟨rfl, hoverflow.2.symm⟩⟩
  | cons item items ih =>
      rw [read, Work.outcome_bind_of_ok (Work.outcome_set state item.requests),
        Work.outcome_bind_eq_ok_iff] at h
      obtain ⟨_, middle, hoverflow, h⟩ := h
      rw [Work.outcome_ofOutcome, Prod.mk.injEq] at hoverflow
      obtain ⟨-, rfl⟩ := hoverflow
      obtain ⟨token, middle, htoken, h⟩ := Work.outcome_bind_eq_ok_iff.mp h
      rw [Work.outcome_ofOutcome, Prod.mk.injEq, Outcome.wrap_eq_ok_iff] at htoken
      obtain ⟨htoken, rfl⟩ := htoken
      split at h
      next =>
        cases h
      next hnext =>
        obtain ⟨stop, middle, hstop, h⟩ := Work.outcome_bind_eq_ok_iff.mp h
        rw [Work.outcome_ofOutcome, Prod.mk.injEq] at hstop
        obtain ⟨hstop, rfl⟩ := hstop
        obtain ⟨rfl, hfits⟩ := Span.stop_eq_ok_iff.mp hstop
        have hstart : token.span.start = position := by omega
        split at h
        next hboundary =>
          cases h
          refine ⟨⟨hstart, by omega, hfits, by rw [hstart]; rfl⟩, [item], items, rfl, ?_, ?_, ?_⟩
          · rw [List.map_singleton, List.map_singleton, htoken]
          · intro other hother token' htoken' hbefore
            obtain rfl := List.mem_singleton.mp hother
            rw [htoken] at htoken'
            cases htoken'
            exact absurd hbefore (Nat.lt_irrefl _)
          · exact .inr ⟨item, token, List.mem_singleton_self item, htoken, rfl, rfl, hboundary⟩
        next hinside =>
          obtain ⟨others, middle, hothers, hreading⟩ := Work.outcome_bind_eq_ok_iff.mp h
          cases hreading
          obtain ⟨htiles, front, back, rfl, hresults, hearlier, hend⟩ := ih hothers
          refine ⟨⟨hstart, by omega, hfits, hstart ▸ htiles⟩, item :: front, back, rfl, ?_, ?_, ?_⟩
          · rw [List.map_cons, List.map_cons, htoken, hresults]
          · intro other hother token' htoken' hbefore
            rcases List.mem_cons.mp hother with rfl | hmem
            · rw [htoken] at htoken'
              cases htoken'
              exact Bool.eq_false_iff.mpr hinside
            · exact hearlier other hmem token' htoken' hbefore
          · rcases hend with hend | ⟨last, token', hmem, hlast⟩
            · exact .inl hend
            · exact .inr ⟨last, token', List.mem_cons_of_mem _ hmem, hlast⟩

theorem ofReading_eq_ok_iff :
    ofReading feed invalid invalidStop requests reading = .ok realignment ↔
      feed.checkFailure requests = .ok () ∧
      (reading.stop = invalidStop ∨
        ∃ candidate ∈ feed.handedOut requests, candidate.stop = reading.stop) ∧
      realignment.tokens = reading.tokens ∧
      realignment.superseded =
        ((feed.handedOut requests).takeWhile (·.stop ≤ reading.stop)).map (·.tracked) ∧
      realignment.scanned = Span.ofBounds invalid.start reading.stop := by
  unfold ofReading
  rw [Outcome.bind_eq_ok_iff]
  simp only [List.any_eq_true, decide_eq_true_eq]
  constructor
  · rintro ⟨_, hfailure, h⟩
    split at h
    next hend =>
      cases h
      exact ⟨hfailure, hend, rfl, rfl, rfl⟩
    next =>
      cases h
  · rintro ⟨hfailure, hend, htokens, hsuperseded, hscanned⟩
    refine ⟨(), hfailure, ?_⟩
    rw [if_pos hend, ← htokens, ← hsuperseded, ← hscanned]
    rfl

/-- The attempt whose result counts had all old tokens at hand or did not ask for more. -/
theorem exists_attempt_of_withEnough
    (total count : Nat)
    (attempt : Nat → Outcome UpdateError Realignment × Nat) :
    ∃ enough,
      withEnough total attempt count = (attempt enough).1 ∧
      (enough < total → (attempt enough).2 ≤ enough + 1) := by
  induction hmeasure : total - count using Nat.strongRecOn generalizing count with
  | ind measure ih =>
      rw [withEnough]
      dsimp only
      split
      next hmore =>
        exact ih (total - (2 * count + 1)) (by omega) (2 * count + 1) rfl
      next hdone =>
        exact ⟨count, rfl, by omega⟩

/-- One attempt at a realignment, with so many of the located tokens in the feed. -/
def attempt
    (lexer : Lexer)
    (after : Document)
    (invalid : Span)
    (text : Text)
    (located : List (TrackedToken × Span))
    (count : Nat) : Outcome UpdateError Realignment × Nat :=
  ofFeed lexer invalid (invalid.start + invalid.length) text
    (Feed.ofLocated after none after.start (located.take count))

theorem ofFeed_eq_ok
    {lexer : Lexer}
    {text : Text}
    (h : ofFeed lexer invalid invalidStop text feed = (.ok realignment, made)) :
    ∃ reading,
      (read feed invalidStop
          (lexer.run invalid.start (text :: feed.candidates.map (·.text))).requests invalid.start
          (lexer.run invalid.start (text :: feed.candidates.map (·.text))).items).outcome 0 =
        (.ok reading, made) ∧
      ofReading feed invalid invalidStop made reading = .ok realignment := by
  unfold ofFeed at h
  dsimp only at h
  cases hread : (read feed invalidStop
      (lexer.run invalid.start (text :: feed.candidates.map (·.text))).requests invalid.start
      (lexer.run invalid.start (text :: feed.candidates.map (·.text))).items).outcome 0 with
  | mk result requests =>
      rw [hread, Prod.mk.injEq] at h
      obtain ⟨hresult, rfl⟩ := h
      obtain ⟨reading, rfl, hreading⟩ := Outcome.bind_eq_ok_iff.mp hresult
      exact ⟨reading, rfl, hreading⟩

section Arrangement

variable {store : TokenStore}
variable {version : Nat}
variable {front back : List (TrackedToken × Span)}
variable {lexer : Lexer}

/-- A realignment feeds the entries that start behind the invalidated text. -/
theorem realign_eq
    (h : Arrangement store version (front ++ back))
    (hfits : invalid.Fits)
    (hfront : ∀ entry ∈ front, entry.2.start < invalid.start + invalid.length)
    (hback : ∀ entry ∈ back, invalid.start + invalid.length ≤ entry.2.start) :
    realign store lexer after invalid =
      match Text.slice? after.text invalid.start invalid.length with
      | none => Outcome.fail (.outOfBounds invalid after.size)
      | some text => withEnough back.length (attempt lexer after invalid text back) 4 := by
  have hslice : (after.slice? invalid : Outcome UpdateError (Option Text)) =
      .ok (Text.slice? after.text invalid.start invalid.length) := by
    unfold Document.slice?
    rw [hfits.stop_eq]
    rfl
  unfold realign
  rw [h.version_eq, Outcome.ok_bind, hslice, Outcome.ok_bind]
  cases Text.slice? after.text invalid.start invalid.length with
  | none =>
      rfl
  | some text =>
      have hdrop : store.tokens.drop front.length = back.map Prod.fst := by
        rw [← h.tokens, List.map_append, List.drop_left' (List.length_map _)]
      dsimp only
      rw [hfits.stop_eq, Outcome.ok_bind, h.indexOf_eq rfl hfront hback, Outcome.wrap_ok,
        Outcome.ok_bind, hdrop, List.length_map]
      congr 1
      funext count
      have hmem : ∀ entry ∈ back.take count, entry ∈ front ++ back := fun entry hentry =>
        List.mem_append_right front (List.mem_of_mem_take hentry)
      have hwalk := h.walk_eq hmem
      rw [← List.map_take, hwalk]
      rfl

/-- A realignment reads tokens that tile a range, up to where the invalidated text or one of the
given entries behind it ends.  It replaces the given entries that end no later. -/
theorem exists_of_realign
    (h : Arrangement store version (front ++ back))
    (hfits : invalid.Fits)
    (hfront : ∀ entry ∈ front, entry.2.start < invalid.start + invalid.length)
    (hback : ∀ entry ∈ back, invalid.start + invalid.length ≤ entry.2.start)
    (hrealign : realign store lexer after invalid = .ok realignment) :
    ∃ stop given rest,
      Tiles invalid.start realignment.tokens stop ∧
      back = given ++ rest ∧
      (stop = invalid.start + invalid.length ∨
        ∃ entry ∈ given, entry.2.start + entry.2.length = stop) ∧
      realignment.superseded =
        (given.takeWhile fun entry => entry.2.start + entry.2.length ≤ stop).map Prod.fst := by
  rw [realign_eq h hfits hfront hback] at hrealign
  split at hrealign
  next =>
    cases hrealign
  next text htext =>
    obtain ⟨enough, heq, -⟩ :=
      exists_attempt_of_withEnough back.length 4 (attempt lexer after invalid text back)
    rw [heq] at hrealign
    cases hattempt : attempt lexer after invalid text back enough with
    | mk result made =>
      rw [hattempt] at hrealign
      obtain rfl : result = .ok realignment := hrealign
      have hfedFits : ∀ entry ∈ back.take enough, entry.2.Fits := fun entry hentry =>
        h.fits entry (List.mem_append_right front (List.mem_of_mem_take hentry))
      obtain ⟨fed, unfed, htake, hcandidates, -, -⟩ :=
        Feed.exists_of_ofLocated after.start_isIn hfedFits
      obtain ⟨reading, hread, hreading⟩ := ofFeed_eq_ok hattempt
      obtain ⟨-, hend, htokens, hsuperseded, -⟩ := ofReading_eq_ok_iff.mp hreading
      obtain ⟨htiles, -⟩ := read_eq_ok hread
      rw [Feed.handedOut_of_map hcandidates] at hend hsuperseded
      rw [List.takeWhile_map, List.map_map] at hsuperseded
      have hfed : fed <+: back :=
        (htake ▸ List.prefix_append fed unfed : fed <+: back.take enough).trans
          (List.take_prefix enough back)
      obtain ⟨rest, hrest⟩ := (List.take_prefix (made - 1) fed).trans hfed
      refine ⟨reading.stop, fed.take (made - 1), rest, htokens ▸ htiles, hrest.symm, ?_,
        hsuperseded⟩
      rcases hend with hend | ⟨candidate, hmem, hstop⟩
      · exact .inl hend
      · obtain ⟨entry, hentry, rfl⟩ := List.mem_map.mp hmem
        exact .inr ⟨entry, hentry, hstop⟩

end Arrangement

end Realignment

end LiveTokens
