import LiveTokens.Proofs.Realignment
import LiveTokens.Proofs.Scanning

/-!
# New and old tokens converge

The lexer of a prefix-stable grammar reads the invalidated text and then the texts
of the old tokens behind it.  It stops at the first of its tokens that ends where
the invalidated text or an old token does.  An old token that ends there has been
handed out by then, since the lexer has returned no text that it was not supplied
with.

The attempt whose result counts is one that has not met the end of its feed too
early: a token that ends in front of it has at least one character of the feed
behind it, and stays the same whatever follows.
-/

namespace LiveTokens

open TokenStore

variable {grammar : Grammar}
variable {position start stop : Nat}
variable {text behind : Text}
variable {tokens : List Token}

namespace Realignment

variable {feed : Feed}
variable {invalidStop requests state : Nat}
variable {items : List LexItem}

/-- Tokens that tile a range are read, as long as the feed has no failure. -/
theorem exists_read_eq_ok
    (invalidStop state : Nat)
    (hfailure : feed.failure = none)
    (hitems : items.map (·.result) = tokens.map .ok)
    (htiles : Tiles position tokens stop) :
    ∃ reading made,
      (read feed invalidStop requests position items).outcome state = (.ok reading, made) := by
  have hoverflow : ∀ count, feed.checkOverflow count = .ok () := by
    intro count
    rw [Feed.checkOverflow, Feed.failureAt, hfailure, ite_self]
    rfl
  induction items generalizing position tokens state with
  | nil =>
      refine ⟨⟨[], position⟩, requests, ?_⟩
      rw [read, Work.outcome_bind_of_ok (Work.outcome_set _ _), hoverflow,
        Work.outcome_bind_of_ok (Work.outcome_ofOutcome _ _), Work.outcome_pure]
  | cons item items ih =>
      cases tokens with
      | nil =>
          cases hitems
      | cons token tokens =>
          obtain ⟨hresult, hresults⟩ := List.cons.inj hitems
          obtain ⟨hstart, hlength, hfits, hrest⟩ := htiles
          rw [read, Work.outcome_bind_of_ok (Work.outcome_set _ _), hoverflow,
            Work.outcome_bind_of_ok (Work.outcome_ofOutcome _ _)]
          dsimp only at hresult
          rw [hresult, Outcome.wrap_ok, Work.outcome_bind_of_ok (Work.outcome_ofOutcome _ _),
            if_neg (by omega), hfits.stop_eq, Work.outcome_bind_of_ok (Work.outcome_ofOutcome _ _)]
          split
          next =>
            exact ⟨_, _, Work.outcome_pure _ _⟩
          next =>
            obtain ⟨reading, made, hread⟩ := ih _ hresults (hstart ▸ hrest)
            exact ⟨_, _, (Work.outcome_bind_of_ok hread).trans (Work.outcome_pure _ _)⟩

/-- The texts of old tokens that tile a range are as long as the range. -/
theorem size_texts_of_tiles
    {after : Document}
    {entries : List (TrackedToken × Span)}
    (h : Tiles position (entries.map placed) stop)
    (hsizes : ∀ entry ∈ entries, Text.size (Candidate.ofEntry after entry).text = entry.2.length) :
    position + Text.size ((entries.map (Candidate.ofEntry after)).map (·.text)).flatten = stop := by
  induction entries generalizing position with
  | nil =>
      exact h
  | cons entry rest ih =>
      obtain ⟨-, -, -, hrest⟩ := h
      rw [List.map_cons, List.map_cons, List.flatten_cons, Text.size_append,
        hsizes entry List.mem_cons_self, ← Nat.add_assoc]
      exact ih hrest fun other hother => hsizes other (List.mem_cons_of_mem _ hother)

/-- The feed for tokens that cut a part of the text has all of them, and no failure. -/
theorem ofLocated_complete
    {after : Document}
    {located : List (TrackedToken × Span)}
    {front back : Text}
    (h : Cuts position text (located.map placed))
    (hdocument : after.text = front ++ (text ++ back))
    (hposition : Text.size front = position)
    (hbound : position + Text.size text < positionBound) :
    (Feed.ofLocated after none after.start located).candidates =
      located.map (Candidate.ofEntry after) ∧
    (Feed.ofLocated after none after.start located).failure = none ∧
    ((located.map (Candidate.ofEntry after)).map (·.text)).flatten = text ∧
    ∀ entry ∈ located, Text.size (Candidate.ofEntry after entry).text = entry.2.length := by
  obtain ⟨hslices, hflatten⟩ := h.flatten_slices back hposition
  rw [← hdocument] at hslices hflatten
  have hfits : ∀ entry ∈ located, entry.2.Fits := fun entry hentry =>
    ((h.tiles hbound).bounds_of_mem (List.mem_map.mpr ⟨entry, hentry, rfl⟩)).2.2.2
  have hsizes : ∀ entry ∈ located,
      Text.size (Candidate.ofEntry after entry).text = entry.2.length := by
    intro entry hentry
    obtain ⟨part, hpart⟩ :=
      Option.ne_none_iff_exists'.mp (hslices _ (List.mem_map.mpr ⟨entry, hentry, rfl⟩))
    have hpart' : Text.slice? after.text entry.2.start entry.2.length = some part := hpart
    rw [Candidate.ofEntry, hpart']
    exact (Text.size_of_slice? hpart').1
  obtain ⟨fed, unfed, rfl, hcandidates, hfailure, hunfed⟩ :=
    Feed.exists_of_ofLocated after.start_isIn hfits
  cases unfed with
  | nil =>
      rw [List.append_nil] at hflatten hcandidates hfailure hsizes ⊢
      refine ⟨hcandidates, hfailure, ?_, hsizes⟩
      rw [List.map_map] at hflatten ⊢
      exact hflatten
  | cons entry unfed =>
      have hmem : placed entry ∈ (fed ++ entry :: unfed).map placed :=
        List.mem_map.mpr ⟨entry, by simp, rfl⟩
      exact absurd (hunfed entry rfl) (hslices _ hmem)

/-- A token ends in front of the old tokens that have not been handed out by the time it is
returned. -/
theorem stop_le_of_supplied
    {after : Document}
    {fed : List (TrackedToken × Span)}
    {item : LexItem}
    {token : Token}
    (hsupplied : Scanner.Supplied start []
      { segments := text :: (fed.map (Candidate.ofEntry after)).map (·.text) } item)
    (htoken : item.result = .ok token)
    (hfed : Tiles (start + Text.size text) (fed.map placed) stop)
    (hsizes : ∀ entry ∈ fed, Text.size (Candidate.ofEntry after entry).text = entry.2.length) :
    ∀ entry ∈ fed.drop (item.requests - 1),
      token.span.start + token.span.length ≤ entry.2.start := by
  intro entry hentry
  have hreach := hsupplied.token token htoken
  rw [← List.take_append_drop (item.requests - 1) fed, List.map_append] at hfed
  obtain ⟨middle, htaken, hdropped⟩ := tiles_append_iff.mp hfed
  have hsize := size_texts_of_tiles htaken fun other hother =>
    hsizes other (List.mem_of_mem_take hother)
  have hstart := (hdropped.bounds_of_entry hentry).1
  have hdrawn : Text.size (Supply.drawnBy
      { segments := text :: (fed.map (Candidate.ofEntry after)).map (·.text) } item.requests) ≤
        Text.size text + Text.size (((fed.take (item.requests - 1)).map
          (Candidate.ofEntry after)).map (·.text)).flatten := by
    rw [Supply.drawnBy, Nat.sub_zero]
    cases item.requests with
    | zero =>
        exact Nat.zero_le _
    | succ count =>
        refine Nat.le_of_eq ?_
        rw [List.take_succ_cons, List.flatten_cons, Text.size_append, Nat.add_sub_cancel,
          List.map_take, List.map_take]
  rw [List.nil_append] at hreach
  omega

/-- No token meets the end of the invalidated text or of one of the entries, unless it is one that
ends at `stop` or behind. -/
def MeetsFirstAt
    (stop : Nat)
    (invalidStop : Nat)
    (entries : List (TrackedToken × Span))
    (tokens : List Token) : Prop :=
  ∀ token ∈ tokens,
    token.span.start + token.span.length < stop →
    token.span.start + token.span.length ≠ invalidStop ∧
    ∀ entry ∈ entries, entry.2.start + entry.2.length ≠ token.span.start + token.span.length

/-- The boundaries of a feed of old tokens are the ends of those that have been handed out, and the
end of the invalidated text. -/
theorem isBoundary_iff_of_map
    {after : Document}
    {fed : List (TrackedToken × Span)}
    (hcandidates : feed.candidates = fed.map (Candidate.ofEntry after))
    (hfed : Tiles start (fed.map placed) stop) :
    isBoundary feed start position requests = true ↔
      position = start ∨
      ∃ entry ∈ fed.take (requests - 1), entry.2.start + entry.2.length = position := by
  have hhanded : feed.handedOut requests = (fed.take (requests - 1)).map (Candidate.ofEntry after) :=
    Feed.handedOut_of_map hcandidates
  have hsorted : ((feed.handedOut requests).map (·.stop)).Pairwise (· ≤ ·) := by
    have hordered := List.pairwise_map.mp (List.pairwise_map.mp hfed.ordered)
    rw [hhanded, List.map_map, List.pairwise_map]
    refine (hordered.sublist (List.take_sublist _ fed)).imp ?_
    intro first second hprecedes
    exact Nat.le_trans hprecedes.1 (Nat.le_add_right _ _)
  rw [isBoundary_iff hsorted, hhanded]
  refine or_congr_right ⟨?_, ?_⟩
  · rintro ⟨-, candidate, hcandidate, hstop⟩
    obtain ⟨entry, hentry, rfl⟩ := List.mem_map.mp hcandidate
    exact ⟨entry, hentry, hstop⟩
  · rintro ⟨entry, hentry, rfl⟩
    have hbounds := hfed.bounds_of_entry (List.mem_of_mem_take hentry)
    exact ⟨by omega, Candidate.ofEntry after entry, List.mem_map_of_mem hentry, rfl⟩

/-- Tokens that were no boundary when they were returned meet none of the old tokens.  What has not
been handed out lies behind them. -/
theorem meetsFirstAt_of_results
    {after : Document}
    {fed : List (TrackedToken × Span)}
    {middle : Nat}
    (hcandidates : feed.candidates = fed.map (Candidate.ofEntry after))
    (hfed : Tiles start (fed.map placed) stop)
    (hresults : items.map (·.result) = tokens.map .ok)
    (hsupplied : ∀ item ∈ items, ∀ token,
      item.result = .ok token →
      ∀ entry ∈ fed.drop (item.requests - 1),
        token.span.start + token.span.length ≤ entry.2.start)
    (hearlier : ∀ item ∈ items, ∀ token,
      item.result = .ok token →
      token.span.start + token.span.length < middle →
      isBoundary feed start (token.span.start + token.span.length) item.requests = false) :
    MeetsFirstAt middle start fed tokens := by
  intro token htoken hbefore
  obtain ⟨item, hitem, hresult⟩ : ∃ item ∈ items, item.result = .ok token := by
    have hmem : (Except.ok token : Outcome LexError Token) ∈ tokens.map .ok :=
      List.mem_map_of_mem htoken
    rw [← hresults] at hmem
    exact List.mem_map.mp hmem
  have hinside := hearlier item hitem token hresult hbefore
  have hnot := mt (isBoundary_iff_of_map hcandidates hfed).mpr (Bool.eq_false_iff.mp hinside)
  refine ⟨fun heq => hnot (.inl heq), fun entry hentry heq => ?_⟩
  have hpositive := (hfed.bounds_of_entry hentry).2.2
  rw [← List.take_append_drop (item.requests - 1) fed] at hentry
  rcases List.mem_append.mp hentry with htaken | hdropped
  · exact hnot (.inr ⟨entry, htaken, heq⟩)
  · have hle := hsupplied item hitem token hresult entry hdropped
    omega

/-- Old tokens are split behind each of those that have been handed out. -/
theorem exists_split_of_mem_take
    {fed : List (TrackedToken × Span)}
    {entry : TrackedToken × Span}
    {count : Nat}
    (hfed : Tiles start (fed.map placed) stop)
    (hentry : entry ∈ fed.take count) :
    ∃ first second,
      fed = first ++ second ∧
      first.length ≤ count ∧
      Tiles start (first.map placed) (entry.2.start + entry.2.length) := by
  obtain ⟨ahead, behind, htake⟩ := List.append_of_mem hentry
  have hsplit : fed = ahead ++ [entry] ++ (behind ++ fed.drop count) := by
    calc
      fed = fed.take count ++ fed.drop count := (List.take_append_drop count fed).symm
      _ = ahead ++ [entry] ++ (behind ++ fed.drop count) := by
        rw [htake]
        simp only [List.append_assoc, List.cons_append, List.nil_append]
  have hlength : (ahead ++ [entry]).length ≤ count := by
    have htaken := congrArg List.length htake
    rw [List.length_take, List.length_append, List.length_cons] at htaken
    rw [List.length_append, List.length_singleton]
    omega
  rw [hsplit, List.map_append] at hfed
  obtain ⟨middle, hfirst, -⟩ := tiles_append_iff.mp hfed
  obtain rfl : middle = entry.2.start + entry.2.length := hfirst.stop_of_concat.symm
  exact ⟨ahead ++ [entry], _, hsplit, hlength, hfirst⟩

/-- A reading ends where one of the tokens of its feed does, and in front of the end of the feed if
it has not met that.  A lexer that has nothing left has read its feed to the end. -/
theorem exists_fed_split
    {after : Document}
    {fed : List (TrackedToken × Span)}
    {lexing : Lexing}
    {all : List Token}
    {reading : Reading}
    {made : Nat}
    (hcandidates : feed.candidates = fed.map (Candidate.ofEntry after))
    (hfed : Tiles invalidStop (fed.map placed) stop)
    (hall : Tiles start all stop)
    (hcomplete : Scanner.Complete lexing all stop (fed.length + 2))
    (hsupplied : ∀ item ∈ lexing.items, ∀ token,
      item.result = .ok token →
      ∀ entry ∈ fed.drop (item.requests - 1),
        token.span.start + token.span.length ≤ entry.2.start)
    (hread : (read feed invalidStop lexing.requests start lexing.items).outcome state =
      (.ok reading, made)) :
    ∃ first second more,
      fed = first ++ second ∧
      first.length ≤ made - 1 ∧
      Tiles invalidStop (first.map placed) reading.stop ∧
      all = reading.tokens ++ more ∧
      Tiles start reading.tokens reading.stop ∧
      MeetsFirstAt reading.stop invalidStop fed reading.tokens ∧
      (made < fed.length + 2 → reading.stop < stop) := by
  obtain ⟨htiles, readItems, unread, hitems, hresults, hearlier, hend⟩ := read_eq_ok hread
  have hreadItems : ∀ item ∈ readItems, item ∈ lexing.items := fun item hitem =>
    hitems ▸ List.mem_append_left unread hitem
  have hall' : all.map Except.ok = reading.tokens.map Except.ok ++ unread.map (·.result) := by
    rw [← hcomplete.results, hitems, List.map_append, hresults]
  obtain ⟨tokens, more, rfl, htokens, hmore⟩ := List.map_eq_append_iff.mp hall'
  obtain rfl : tokens = reading.tokens :=
    (List.map_inj_right fun _ _ heq => Except.ok.inj heq).mp htokens
  have hmeets : MeetsFirstAt reading.stop invalidStop fed reading.tokens :=
    meetsFirstAt_of_results hcandidates hfed hresults
      (fun item hitem => hsupplied item (hreadItems item hitem)) hearlier
  rcases hend with ⟨rfl, hmade⟩ | ⟨item, token, hitem, htoken, hstop, hmade, hboundary⟩
  · rw [List.map_nil, List.map_eq_nil_iff] at hmore
    subst hmore
    rw [List.append_nil] at hall
    have hstop := htiles.stop_unique hall
    rw [hcomplete.requests] at hmade
    exact ⟨fed, [], [], by rw [List.append_nil], by omega, hstop ▸ hfed, by rw [List.append_nil],
      htiles, hmeets, fun hless => absurd hless (by omega)⟩
  · have hearly : made < fed.length + 2 → reading.stop < stop := by
      intro hless
      rw [← hstop]
      exact hcomplete.early item (hreadItems item hitem) token htoken (hmade ▸ hless)
    rcases (isBoundary_iff_of_map hcandidates hfed).mp hboundary with
      heq | ⟨entry, hentry, hentryStop⟩
    · exact ⟨[], fed, more, rfl, Nat.zero_le _, heq.symm, rfl, htiles, hmeets, hearly⟩
    · obtain ⟨first, second, hsplit, hlength, hfirst⟩ := exists_split_of_mem_take hfed hentry
      exact ⟨first, second, more, hsplit, hlength, hentryStop ▸ hfirst, rfl, htiles, hmeets, hearly⟩

/-- The old tokens that a reading replaces are those of its feed that end where it does or
earlier. -/
theorem superseded_eq
    {after : Document}
    {first second : List (TrackedToken × Span)}
    {made middle : Nat}
    (hcandidates : feed.candidates = (first ++ second).map (Candidate.ofEntry after))
    (hlength : first.length ≤ made - 1)
    (hfirst : Tiles start (first.map placed) middle)
    (hsecond : Tiles middle (second.map placed) stop) :
    ((feed.handedOut made).takeWhile (·.stop ≤ middle)).map (·.tracked) = first.map Prod.fst := by
  have hinside : ∀ entry ∈ first, entry.2.start + entry.2.length ≤ middle := fun entry hentry =>
    (hfirst.bounds_of_entry hentry).2.1
  have hbeyond : ∀ entry ∈ second, middle < entry.2.start + entry.2.length := by
    intro entry hentry
    have hbounds := hsecond.bounds_of_entry hentry
    omega
  have htake : (first ++ second).take (made - 1) =
      first ++ second.take (made - 1 - first.length) := by
    rw [List.take_append, List.take_of_length_le hlength]
  have hnone : ∀ k, (second.take k).takeWhile
      ((fun candidate => decide (candidate.stop ≤ middle)) ∘ Candidate.ofEntry after) = [] := by
    intro k
    cases htaken : second.take k with
    | nil =>
        rfl
    | cons entry others =>
        have hmem : entry ∈ second := by
          apply List.mem_of_mem_take (i := k)
          rw [htaken]
          exact List.mem_cons_self
        have hlt := hbeyond entry hmem
        rw [List.takeWhile_cons, if_neg]
        exact fun hle => absurd (of_decide_eq_true hle) (Nat.not_le_of_lt hlt)
  rw [Feed.handedOut_of_map hcandidates, htake, List.takeWhile_map, List.map_map,
    List.takeWhile_append_of_pos, hnone, List.append_nil]
  · rfl
  · intro entry hentry
    exact decide_eq_true (hinside entry hentry)

/-- A reading that ends where a token of its feed does is a realignment. -/
theorem ofReading_of_fed
    {after : Document}
    {invalid : Span}
    {first second : List (TrackedToken × Span)}
    {reading : Reading}
    {made : Nat}
    (hfailure : feed.failure = none)
    (hcandidates : feed.candidates = (first ++ second).map (Candidate.ofEntry after))
    (hlength : first.length ≤ made - 1)
    (hfirst : Tiles invalidStop (first.map placed) reading.stop)
    (hsecond : Tiles reading.stop (second.map placed) stop) :
    ofReading feed invalid invalidStop made reading =
      .ok ⟨reading.tokens, first.map Prod.fst, Span.ofBounds invalid.start reading.stop⟩ := by
  have hchecked : feed.checkFailure made = .ok () := by
    rw [Feed.checkFailure, Feed.failureAt, hfailure, ite_self]
    rfl
  have hboundary : reading.stop = invalidStop ∨
      ∃ candidate ∈ feed.handedOut made, candidate.stop = reading.stop := by
    rcases List.eq_nil_or_concat first with rfl | ⟨ahead, entry, rfl⟩
    · exact .inl hfirst.symm
    · right
      rw [List.concat_eq_append] at hlength hfirst hcandidates
      refine ⟨Candidate.ofEntry after entry, ?_, hfirst.stop_of_concat⟩
      rw [Feed.handedOut_of_map hcandidates]
      refine List.mem_map.mpr ⟨entry, ?_, rfl⟩
      rw [List.take_append, List.take_of_length_le hlength]
      simp
  exact ofReading_eq_ok_iff.mpr ⟨hchecked, hboundary, rfl,
    (superseded_eq hcandidates hlength hfirst hsecond).symm, rfl⟩

theorem ofFeed_of_read
    {lexer : Lexer}
    {invalid : Span}
    {reading : Reading}
    {made : Nat}
    (h : (read feed invalidStop
        (lexer.run invalid.start (text :: feed.candidates.map (·.text))).requests invalid.start
        (lexer.run invalid.start (text :: feed.candidates.map (·.text))).items).outcome 0 =
      (.ok reading, made)) :
    ofFeed lexer invalid invalidStop text feed =
      (ofReading feed invalid invalidStop made reading, made) := by
  unfold ofFeed
  dsimp only
  rw [h]
  rfl

/-- With a complete feed, the new tokens meet an old one, at the end of the feed if not before. -/
theorem exists_ofFeed_eq_ok
    {after : Document}
    {invalid fedText : Text}
    {fed : List (TrackedToken × Span)}
    (hgrammar : grammar.PrefixStable)
    (classify : Nat → TokenClass)
    (hcandidates : feed.candidates = fed.map (Candidate.ofEntry after))
    (hfailure : feed.failure = none)
    (hflatten : (feed.candidates.map (·.text)).flatten = fedText)
    (hsizes : ∀ entry ∈ fed, Text.size (Candidate.ofEntry after entry).text = entry.2.length)
    (hfed : Cuts (start + Text.size invalid) fedText (fed.map placed))
    (hbound : start + Text.size invalid + Text.size fedText < positionBound) :
    ∃ realignment made first second firstText secondText,
      ofFeed (.ofGrammar grammar classify) ⟨start, Text.size invalid⟩ (start + Text.size invalid)
        invalid feed = (.ok realignment, made) ∧
      fed = first ++ second ∧
      fedText = firstText ++ secondText ∧
      realignment.superseded = first.map Prod.fst ∧
      realignment.scanned = ⟨start, Text.size (invalid ++ firstText)⟩ ∧
      Scans grammar start (invalid ++ firstText) secondText realignment.tokens ∧
      MeetsFirstAt (start + Text.size (invalid ++ firstText)) (start + Text.size invalid) first
        realignment.tokens ∧
      Cuts (start + Text.size invalid) firstText (first.map placed) ∧
      Cuts (start + Text.size (invalid ++ firstText)) secondText (second.map placed) ∧
      (made < fed.length + 2 → secondText ≠ []) := by
  have hfedTiles := hfed.tiles hbound
  have hsegments : (invalid :: feed.candidates.map (·.text)).flatten = invalid ++ fedText := by
    rw [List.flatten_cons, hflatten]
  have hlimit : (invalid :: feed.candidates.map (·.text)).length + 1 = fed.length + 2 := by
    rw [List.length_cons, hcandidates, List.length_map, List.length_map]
  obtain ⟨all, hall, hcomplete⟩ :=
    Lexer.exists_complete_run hgrammar classify start
      (invalid :: feed.candidates.map (·.text)) (by rw [hsegments, Text.size_append]; omega)
  rw [hsegments] at hall hcomplete
  rw [hlimit] at hcomplete
  rw [Text.size_append, ← Nat.add_assoc] at hcomplete
  have hallTiles := hall.tiles (by rw [Text.size_append]; omega)
  rw [Text.size_append, ← Nat.add_assoc] at hallTiles
  have hsupplied : ∀ item ∈ ((Lexer.ofGrammar grammar classify).run start
      (invalid :: feed.candidates.map (·.text))).items, ∀ token,
        item.result = .ok token →
        ∀ entry ∈ fed.drop (item.requests - 1),
          token.span.start + token.span.length ≤ entry.2.start := by
    intro item hitem token htoken
    have hitemSupplied := Scanner.supplied_of_mem_scanFrom item hitem
    rw [hcandidates] at hitemSupplied
    exact stop_le_of_supplied hitemSupplied htoken hfedTiles hsizes
  obtain ⟨reading, made, hread⟩ :=
    exists_read_eq_ok (start + Text.size invalid) 0 hfailure hcomplete.results hallTiles
  obtain ⟨first, second, more, rfl, hlength, hfirstTiles, rfl, htiles, hmeets, hearly⟩ :=
    exists_fed_split hcandidates hfedTiles hallTiles hcomplete hsupplied hread
  rw [List.map_append] at hfed hfedTiles
  obtain ⟨firstText, secondText, rfl, hfirst, hsecond⟩ := hfed.exists_of_append
  rw [Text.size_append] at hbound
  have hstop : reading.stop = start + Text.size invalid + Text.size firstText :=
    hfirstTiles.stop_unique (hfirst.tiles (by omega))
  have hwhole : reading.stop = start + Text.size (invalid ++ firstText) := by
    rw [hstop, Text.size_append, Nat.add_assoc]
  obtain ⟨newText, restText, hsplit, hnew, -⟩ := hall.exists_of_append
  have hnewBound : start + Text.size newText < positionBound := by
    have hsizes := congrArg Text.size hsplit
    simp only [Text.size_append] at hsizes
    omega
  have hnewStop : reading.stop = start + Text.size newText :=
    htiles.stop_unique (hnew.tiles hnewBound)
  rw [← List.append_assoc] at hsplit
  obtain ⟨rfl, rfl⟩ := Text.append_inj_of_size hsplit (by omega)
  rw [List.append_nil] at hnew
  have hsecondTiles := hsecond.tiles (by omega)
  rw [← hstop] at hsecondTiles
  refine ⟨⟨reading.tokens, first.map Prod.fst, Span.ofBounds start reading.stop⟩, made, first,
    second, firstText, secondText, ?_, rfl, rfl, rfl, ?_, hnew, ?_, hfirst, ?_, ?_⟩
  · rw [ofFeed_of_read hread,
      ofReading_of_fed hfailure hcandidates hlength hfirstTiles hsecondTiles]
  · rw [Span.ofBounds, hwhole, Nat.add_sub_cancel_left]
  · intro token htoken hbefore
    obtain ⟨hinvalid, hentries⟩ := hmeets token htoken (hwhole ▸ hbefore)
    exact ⟨hinvalid, fun entry hentry => hentries entry (List.mem_append_left second hentry)⟩
  · rw [Text.size_append, ← Nat.add_assoc]
    exact hsecond
  · rintro hless rfl
    have hlt := hearly hless
    rw [Text.size_append, Text.size_nil] at hlt
    omega

section Attempt

variable {after : Document}
variable {kept invalid behind : Text}
variable {back : List (TrackedToken × Span)}

/-- The realignment stops where the new tokens first end with the invalidated text or with an old
token behind it, and replaces the old tokens up to there. -/
structure Meets
    (realignment : Realignment)
    (grammar : Grammar)
    (kept invalid replaced remaining : Text)
    (superseded rest : List (TrackedToken × Span)) : Prop where
  superseded_eq : realignment.superseded = superseded.map Prod.fst
  scanned_eq : realignment.scanned = ⟨Text.size kept, Text.size (invalid ++ replaced)⟩
  scans : Scans grammar (Text.size kept) (invalid ++ replaced) remaining realignment.tokens
  first : MeetsFirstAt (Text.size kept + Text.size (invalid ++ replaced))
    (Text.size kept + Text.size invalid) superseded realignment.tokens
  supersededCuts : Cuts (Text.size kept + Text.size invalid) replaced (superseded.map placed)
  restCuts : Cuts (Text.size kept + Text.size (invalid ++ replaced)) remaining (rest.map placed)

/-- An attempt that had all old tokens at hand, or did not ask for more than it had, meets one of
them.  What was held back and not asked for makes no difference to its tokens. -/
theorem exists_attempt_eq_ok
    {count : Nat}
    (hgrammar : grammar.PrefixStable)
    (classify : Nat → TokenClass)
    (hdocument : after.text = kept ++ (invalid ++ behind))
    (hbound : Text.size after.text < positionBound)
    (hback : Cuts (Text.size kept + Text.size invalid) behind (back.map placed))
    (henough : count < back.length →
      (attempt (.ofGrammar grammar classify) after ⟨Text.size kept, Text.size invalid⟩ invalid back
        count).2 ≤ count + 1) :
    ∃ realignment superseded rest replaced remaining,
      (attempt (.ofGrammar grammar classify) after ⟨Text.size kept, Text.size invalid⟩ invalid back
        count).1 = .ok realignment ∧
      back = superseded ++ rest ∧
      behind = replaced ++ remaining ∧
      realignment.Meets grammar kept invalid replaced remaining superseded rest := by
  rw [hdocument, Text.size_append, Text.size_append] at hbound
  have hcut : back.map placed = (back.take count).map placed ++ (back.drop count).map placed := by
    rw [← List.map_append, List.take_append_drop]
  rw [hcut] at hback
  obtain ⟨fedText, heldText, rfl, hfed, hheld⟩ := hback.exists_of_append
  rw [Text.size_append] at hbound
  have hparts : after.text = kept ++ invalid ++ (fedText ++ heldText) := by
    rw [hdocument, List.append_assoc]
  obtain ⟨hcandidates, hfailure, hflatten, hsizes⟩ :=
    ofLocated_complete hfed hparts (Text.size_append kept invalid) (by omega)
  rw [← hcandidates] at hflatten
  obtain ⟨realignment, made, first, second, replaced, secondText, hrealign, hsplit, rfl,
      hsuperseded, hscanned, hnew, hmeets, hfirst, hsecond, hearly⟩ :=
    exists_ofFeed_eq_ok hgrammar classify hcandidates hfailure hflatten hsizes hfed (by omega)
  have hattempt : attempt (.ofGrammar grammar classify) after
      ⟨Text.size kept, Text.size invalid⟩ invalid back count = (.ok realignment, made) :=
    hrealign
  have hheld' : Cuts
      (Text.size kept + Text.size (invalid ++ replaced) + Text.size secondText) heldText
      ((back.drop count).map placed) := by
    rw [Text.size_append, ← Nat.add_assoc] at hheld ⊢
    exact hheld
  have hgap : Scans grammar (Text.size kept) (invalid ++ replaced) (secondText ++ heldText)
      realignment.tokens := by
    by_cases hcount : count < back.length
    · have hmade := henough hcount
      rw [hattempt] at hmade
      have hlength : (back.take count).length = count := by
        rw [List.length_take]
        omega
      have hrest : secondText ≠ [] := hearly (by rw [hlength]; dsimp only at hmade; omega)
      exact hnew.extend_behind hgrammar heldText hrest
    · rw [List.drop_of_length_le (Nat.le_of_not_lt hcount), List.map_nil] at hheld
      rw [hheld.text_eq_nil, List.append_nil]
      exact hnew
  refine ⟨realignment, first, second ++ back.drop count, replaced, secondText ++ heldText, ?_, ?_,
    List.append_assoc _ _ _, hsuperseded, hscanned, hgap, hmeets, hfirst, ?_⟩
  · rw [hattempt]
  · rw [← List.append_assoc, ← hsplit, List.take_append_drop]
  · rw [List.map_append]
    exact hsecond.append hheld'

/-- A realignment meets one of the old tokens behind the invalidated text, or has read all of the
text, and reads the tokens of the text in front of that. -/
theorem exists_realign_eq_ok
    {store : TokenStore}
    {version : Nat}
    {front : List (TrackedToken × Span)}
    (hgrammar : grammar.PrefixStable)
    (classify : Nat → TokenClass)
    (h : Arrangement store version (front ++ back))
    (hdocument : after.text = kept ++ (invalid ++ behind))
    (hbound : Text.size after.text < positionBound)
    (hfront : Tiles 0 (front.map placed) (Text.size kept))
    (hback : Cuts (Text.size kept + Text.size invalid) behind (back.map placed)) :
    ∃ realignment superseded rest replaced remaining,
      realign store (.ofGrammar grammar classify) after ⟨Text.size kept, Text.size invalid⟩ =
        .ok realignment ∧
      back = superseded ++ rest ∧
      behind = replaced ++ remaining ∧
      realignment.Meets grammar kept invalid replaced remaining superseded rest := by
  have hsize := hbound
  rw [hdocument, Text.size_append, Text.size_append] at hsize
  have hbackTiles := hback.tiles (by omega)
  have hslice : Text.slice? after.text (Text.size kept) (Text.size invalid) = some invalid := by
    rw [Text.slice?, Option.map_eq_some_iff]
    refine ⟨(invalid, behind), Text.cut?_eq_some_iff.mpr ⟨kept, ?_, rfl, rfl⟩, rfl⟩
    rw [hdocument, List.append_assoc]
  have hahead : ∀ entry ∈ front, entry.2.start < Text.size kept + Text.size invalid := by
    intro entry hentry
    have hbounds := hfront.bounds_of_entry hentry
    omega
  have hbehind : ∀ entry ∈ back, Text.size kept + Text.size invalid ≤ entry.2.start :=
    fun entry hentry => (hbackTiles.bounds_of_entry hentry).1
  have hfits : Span.Fits ⟨Text.size kept, Text.size invalid⟩ :=
    Span.fits_mk.mpr (by omega)
  obtain ⟨enough, heq, henough⟩ :=
    exists_attempt_of_withEnough back.length 4
      (attempt (.ofGrammar grammar classify) after ⟨Text.size kept, Text.size invalid⟩ invalid back)
  rw [realign_eq h hfits hahead hbehind]
  dsimp only
  rw [hslice]
  dsimp only
  rw [heq]
  exact exists_attempt_eq_ok hgrammar classify hdocument hbound hback henough

end Attempt

end Realignment

end LiveTokens
