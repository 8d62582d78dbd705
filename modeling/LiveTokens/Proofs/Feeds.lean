import LiveTokens.Proofs.Likeness

/-!
# Feeds that look alike

A lexer sees the texts of the old tokens and how many of them there are, and it
is stopped where one of them ends.  Two feeds with the same texts, the same ends
and the same failure behind them therefore give the same reading.  What is made
of the reading differs in the old tokens that it replaces, but not in their
number, so that the entries that are left look alike again.
-/

namespace LiveTokens

open TokenStore

/-- What a lexer can tell of a candidate: where it ends, and its text. -/
def Candidate.content
    (candidate : Candidate) : Nat × Text :=
  (candidate.stop, candidate.text)

namespace Feed

variable {feed feed' : Feed}
variable {requests : Nat}

/-- The feeds have the same contents and end for the same reason. -/
structure Alike
    (feed feed' : Feed) : Prop where
  contents : feed.candidates.map Candidate.content = feed'.candidates.map Candidate.content
  failure_eq : feed.failure = feed'.failure

/-- A feed depends on the spans of the located tokens. -/
theorem alike_ofLocated
    {after : Document}
    {failure : Option (Failure UpdateError)}
    {cursor : Document.Cursor}
    {located located' : List (TrackedToken × Span)}
    (h : located.map Prod.snd = located'.map Prod.snd) :
    (ofLocated after failure cursor located).Alike (ofLocated after failure cursor located') := by
  induction located generalizing cursor located' with
  | nil =>
      obtain rfl := List.map_eq_nil_iff.mp h.symm
      exact ⟨rfl, rfl⟩
  | cons entry rest ih =>
      obtain ⟨⟨tracked', span⟩, rest', rfl, hspan, hrest⟩ := List.map_eq_cons_iff.mp h.symm
      obtain rfl : span = entry.2 := hspan
      rw [ofLocated, ofLocated]
      split
      · exact ⟨rfl, rfl⟩
      · exact ⟨rfl, rfl⟩
      · obtain ⟨hcontents, hfailure⟩ := ih hrest.symm
        refine ⟨?_, hfailure⟩
        rw [List.map_cons, List.map_cons, hcontents]
        rfl

namespace Alike

theorem length_eq
    (h : feed.Alike feed') :
    feed.candidates.length = feed'.candidates.length := by
  simpa using congrArg List.length h.contents

theorem texts_eq
    (h : feed.Alike feed') :
    feed.candidates.map (·.text) = feed'.candidates.map (·.text) := by
  have htexts := congrArg (List.map Prod.snd) h.contents
  rw [List.map_map, List.map_map] at htexts
  exact htexts

theorem handedOut_eq
    (h : feed.Alike feed') :
    (feed.handedOut requests).map (·.stop) = (feed'.handedOut requests).map (·.stop) := by
  have hstops := congrArg (List.map Prod.fst) h.contents
  rw [List.map_map, List.map_map] at hstops
  rw [handedOut, handedOut, List.map_take, List.map_take]
  exact congrArg _ hstops

theorem failureAt_eq
    (h : feed.Alike feed') :
    feed.failureAt requests = feed'.failureAt requests := by
  rw [failureAt, failureAt, h.length_eq, h.failure_eq]

theorem checkOverflow_eq
    (h : feed.Alike feed') :
    feed.checkOverflow requests = feed'.checkOverflow requests := by
  rw [checkOverflow, checkOverflow, h.failureAt_eq]

theorem checkFailure_eq
    (h : feed.Alike feed') :
    feed.checkFailure requests = feed'.checkFailure requests := by
  rw [checkFailure, checkFailure, h.failureAt_eq]

end Alike

end Feed

namespace Realignment

variable {feed feed' : Feed}
variable {invalid : Span}
variable {invalidStop requests position : Nat}
variable {items : List LexItem}
variable {reading : Reading}
variable {lexer : Lexer}
variable {after : Document}
variable {text : Text}

/-- The realignments have read the same tokens from the same text, and replace as many old ones. -/
structure Alike
    (realignment realignment' : Realignment) : Prop where
  tokens_eq : realignment.tokens = realignment'.tokens
  scanned_eq : realignment.scanned = realignment'.scanned
  length_eq : realignment.superseded.length = realignment'.superseded.length

theorem isBoundary_eq
    (h : feed.Alike feed') :
    isBoundary feed invalidStop position requests =
      isBoundary feed' invalidStop position requests := by
  unfold isBoundary
  rw [h.handedOut_eq]

theorem read_eq
    (h : feed.Alike feed') :
    read feed invalidStop requests position items =
      read feed' invalidStop requests position items := by
  induction items generalizing position with
  | nil =>
      rw [read, read, h.checkOverflow_eq]
  | cons item items ih =>
      rw [read, read, h.checkOverflow_eq]
      simp only [isBoundary_eq h, ih]

theorem agree_ofReading
    (h : feed.Alike feed') :
    Outcome.Agree Alike (ofReading feed invalid invalidStop requests reading)
      (ofReading feed' invalid invalidStop requests reading) := by
  have hstops : (feed.handedOut requests).map (·.stop) = (feed'.handedOut requests).map (·.stop) :=
    h.handedOut_eq
  have hany : (feed.handedOut requests).any (·.stop = reading.stop) =
      (feed'.handedOut requests).any (·.stop = reading.stop) := by
    have hany := congrArg (List.any · (· = reading.stop)) hstops
    rwa [List.any_map, List.any_map] at hany
  have hcount : ((feed.handedOut requests).takeWhile (·.stop ≤ reading.stop)).length =
      ((feed'.handedOut requests).takeWhile (·.stop ≤ reading.stop)).length := by
    have hlengths := congrArg (fun stops => (stops.takeWhile (· ≤ reading.stop)).length) hstops
    rwa [List.takeWhile_map, List.takeWhile_map, List.length_map, List.length_map] at hlengths
  unfold ofReading
  rw [h.checkFailure_eq]
  refine (Outcome.agree_of_eq rfl).bind fun _ _ _ => ?_
  dsimp only
  rw [hany]
  split
  · refine ⟨rfl, rfl, ?_⟩
    rw [List.length_map, List.length_map, hcount]
  · rfl

theorem agree_ofFeed
    (h : feed.Alike feed') :
    Outcome.Agree Alike (ofFeed lexer invalid invalidStop text feed).1
        (ofFeed lexer invalid invalidStop text feed').1 ∧
      (ofFeed lexer invalid invalidStop text feed).2 =
        (ofFeed lexer invalid invalidStop text feed').2 := by
  unfold ofFeed
  dsimp only
  rw [h.texts_eq, read_eq h]
  exact ⟨(Outcome.agree_of_eq rfl).bind fun reading _ hreading => hreading ▸ agree_ofReading h, rfl⟩

/-- Attempts that agree are repeated as often, and agree in the end. -/
theorem agree_withEnough
    {attempt attempt' : Nat → Outcome UpdateError Realignment × Nat}
    (total count : Nat)
    (h : ∀ count,
      Outcome.Agree Alike (attempt count).1 (attempt' count).1 ∧
      (attempt count).2 = (attempt' count).2) :
    Outcome.Agree Alike (withEnough total attempt count) (withEnough total attempt' count) := by
  induction hmeasure : total - count using Nat.strongRecOn generalizing count with
  | ind measure ih =>
      obtain ⟨hresult, hrequests⟩ := h count
      unfold withEnough
      rw [← hrequests]
      split
      next hmore =>
        exact ih (total - (2 * count + 1)) (by omega) (2 * count + 1) rfl
      next =>
        exact hresult

section Workspaces

variable {store store' : TokenStore}
variable {workspace workspace' : Workspace}
variable {version : Nat}
variable {front front' back back' : List (TrackedToken × Span)}

theorem agree_realign
    (h : Arrangement store version (front ++ back))
    (h' : Arrangement store' version (front' ++ back'))
    (hfits : invalid.Fits)
    (hahead : ∀ entry ∈ front, entry.2.start < invalid.start + invalid.length)
    (hahead' : ∀ entry ∈ front', entry.2.start < invalid.start + invalid.length)
    (hbehind : ∀ entry ∈ back, invalid.start + invalid.length ≤ entry.2.start)
    (hbehind' : ∀ entry ∈ back', invalid.start + invalid.length ≤ entry.2.start)
    (hback : back.map face = back'.map face) :
    Outcome.Agree Alike (realign store lexer after invalid)
      (realign store' lexer after invalid) := by
  rw [realign_eq h hfits hahead hbehind, realign_eq h' hfits hahead' hbehind',
    length_of_map_face hback]
  split
  · rfl
  · refine agree_withEnough _ _ fun count => agree_ofFeed (Feed.alike_ofLocated ?_)
    rw [List.map_take, List.map_take, map_snd_of_map_face hback]

/-- The old tokens that a realignment replaces are the first ones behind the invalidated text. -/
theorem superseded_eq_take
    {realignment : Realignment}
    (h : Arrangement store version (front ++ back))
    (hfits : invalid.Fits)
    (hahead : ∀ entry ∈ front, entry.2.start < invalid.start + invalid.length)
    (hbehind : ∀ entry ∈ back, invalid.start + invalid.length ≤ entry.2.start)
    (hrealign : realign store lexer after invalid = .ok realignment) :
    realignment.superseded = (back.take realignment.superseded.length).map Prod.fst := by
  obtain ⟨stop, given, rest, -, rfl, -, hsuperseded⟩ :=
    exists_of_realign h hfits hahead hbehind hrealign
  have htaken : given.takeWhile (fun entry => entry.2.start + entry.2.length ≤ stop) <+:
      given ++ rest :=
    (List.takeWhile_prefix _).trans (List.prefix_append given rest)
  rw [hsuperseded, List.length_map, ← List.prefix_iff_eq_take.mp htaken]

/-- In workspaces that look alike the same tokens are read, and merging them agrees. -/
theorem agree_merge_of_realign
    (h : workspace.Alike version workspace')
    (hfits : invalid.Fits) :
    Outcome.Agree
      (fun realignment realignment' =>
        realignment.Alike realignment' ∧
        Revision.Agree version Eq ((merge realignment).outcome workspace)
          ((merge realignment').outcome workspace'))
      (realign workspace.store lexer after invalid)
      (realign workspace'.store lexer after invalid) := by
  obtain ⟨hnextId, view, view', hview, hview', hfaces⟩ := h
  obtain ⟨front, back, rfl, hahead, hbehind⟩ :=
    hview.layout.exists_start_split (invalid.start + invalid.length)
  obtain ⟨front', back', rfl, hfront, hback⟩ := exists_append_of_map_face hfaces
  have hahead' := forall_of_map_face (p := (·.start < invalid.start + invalid.length))
    hfront hahead
  have hbehind' := forall_of_map_face (p := (invalid.start + invalid.length ≤ ·.start))
    hback hbehind
  have hlayout := hview.layout
  have hlayout' := hview'.layout
  have hagree : Outcome.Agree Alike (realign workspace.store lexer after invalid)
      (realign workspace'.store lexer after invalid) :=
    agree_realign hlayout.toArrangement hlayout'.toArrangement hfits hahead hahead' hbehind
      hbehind' hback
  refine hagree.imp fun realignment realignment' hrealign hrealign' halike => ?_
  have hsuperseded := superseded_eq_take hlayout.toArrangement hfits hahead hbehind hrealign
  have hsuperseded' := superseded_eq_take hlayout'.toArrangement hfits hahead' hbehind' hrealign'
  obtain ⟨stop, _, _, htiles, -⟩ :=
    exists_of_realign hlayout.toArrangement hfits hahead hbehind hrealign
  have htokensFit : ∀ token ∈ realignment.tokens, token.span.Fits := fun token htoken =>
    (htiles.bounds_of_mem htoken).2.2.2
  refine ⟨halike, ?_⟩
  obtain ⟨htokens, -, hlength⟩ := halike
  rw [← hlength] at hsuperseded'
  rw [← List.take_append_drop realignment.superseded.length back, ← List.append_assoc] at hview
  rw [← List.take_append_drop realignment.superseded.length back', ← List.append_assoc] at hview'
  refine Revision.agree_merge hview hview' hnextId hfront ?_ hsuperseded hsuperseded' htokens
    htokensFit
  rw [List.map_drop, List.map_drop, hback]

end Workspaces

end Realignment

end LiveTokens
