import Mathlib.Order.Bounds.Defs
import LiveTokens.Proofs.Assembly
import LiveTokens.Proofs.Convergence

/-!
# Realignments stop at the first meeting

Let the tokens of a store tile a document except for an invalidated part.  A
realignment lexes the document from there on, but sees only as much of it as it
asks for.  A full lexing of the same text has *meetings*: positions where one of
its tokens ends with the invalidated part, or behind it with an old token.

With a prefix-stable grammar, the realignment reads the tokens of the full lexing
up to the least meeting, and replaces the old tokens up to there.
-/

namespace LiveTokens

open TokenStore

variable {after : Document}
variable {invalid : Span}
variable {old lexed front back : List Token}

/-- The positions where a token ends with the invalidated part, or behind it with an old token. -/
def meetings
    (invalid : Span)
    (old lexed : List Token) : Set Nat :=
  {position |
    (∃ token ∈ lexed, token.span.start + token.span.length = position) ∧
    invalid.start + invalid.length ≤ position ∧
    (position = invalid.start + invalid.length ∨
      ∃ token ∈ old, token.span.start + token.span.length = position)}

/-- The realignment reads the tokens of the lexing up to the first meeting, and replaces the tokens
of the store that lie between the invalidated part and there. -/
structure Realignment.Resynchronises
    (realignment : Realignment)
    (store : TokenStore)
    (invalid : Span)
    (old lexed : List Token)
    (stop : Nat) : Prop where
  isLeast : IsLeast (meetings invalid old lexed) stop
  tokens : realignment.tokens <+: lexed
  tiles : Tiles invalid.start realignment.tokens stop
  superseded : realignment.superseded = store.tokensWhere fun span =>
    invalid.start + invalid.length ≤ span.start ∧ span.start + span.length ≤ stop
  scanned : realignment.scanned = Span.ofBounds invalid.start stop

/-- Tokens around an invalidated part of the text cut the rest of the text. -/
theorem exists_cuts_around
    (hfront : Tiles 0 front invalid.start)
    (hback : Tiles (invalid.start + invalid.length) back after.size)
    (hslices : ∀ token ∈ front ++ back,
      Text.slice? after.text token.span.start token.span.length ≠ none) :
    ∃ kept lost behind,
      after.text = kept ++ (lost ++ behind) ∧
      Text.size kept = invalid.start ∧
      Text.size lost = invalid.length ∧
      Cuts (invalid.start + invalid.length) behind back := by
  obtain ⟨kept, rest, hsplit, hkept, -⟩ :=
    Cuts.exists_of_tiles [] after.text hfront rfl fun token htoken =>
      hslices token (List.mem_append_left back htoken)
  rw [Nat.zero_add] at hkept
  have hsize : after.size = Text.size kept + Text.size rest := by
    rw [Document.size, hsplit, Text.size_append]
  obtain ⟨lost, behind, rfl, hlost⟩ :
      ∃ lost behind, rest = lost ++ behind ∧ Text.size lost = invalid.length := by
    cases back with
    | nil =>
        have hstop : invalid.start + invalid.length = after.size := hback
        exact ⟨rest, [], (List.append_nil rest).symm, by omega⟩
    | cons token tokens =>
        obtain ⟨part, hpart⟩ :=
          Option.ne_none_iff_exists'.mp (hslices token (by simp))
        rw [Text.slice?, Option.map_eq_some_iff] at hpart
        obtain ⟨⟨_, remaining⟩, hcut, rfl⟩ := hpart
        obtain ⟨ahead, hwhole, hahead, -⟩ := Text.cut?_eq_some_iff.mp hcut
        rw [hsplit, List.append_assoc] at hwhole
        have hstart := hback.1
        obtain ⟨lost, rfl, hrest⟩ := Text.exists_append_of_size_le hwhole (by omega)
        rw [Text.size_append] at hahead
        exact ⟨lost, _, hrest, by omega⟩
  have hwhole : after.text = kept ++ lost ++ behind := by
    rw [hsplit, List.append_assoc]
  obtain ⟨text, rest, rfl, hstop, hcuts⟩ :=
    Cuts.exists_of_tiles (kept ++ lost) behind hback
      (by rw [Text.size_append]; omega)
      fun token htoken => by
        rw [← hwhole]
        exact hslices token (List.mem_append_right front htoken)
  have hrest : rest = [] := by
    simp only [Text.size_append] at hsize
    exact Text.size_eq_zero_iff.mp (by omega)
  rw [hrest, List.append_nil] at hsplit
  exact ⟨kept, lost, text, hsplit, hkept, hlost, hcuts⟩

/-- Tokens on both sides of an invalidated part come in order. -/
theorem ordered_around
    {stop : Nat}
    (hfront : Tiles 0 front invalid.start)
    (hback : Tiles (invalid.start + invalid.length) back stop) :
    ((front ++ back).map (·.span)).Pairwise Span.Precedes := by
  rw [List.map_append]
  refine List.pairwise_append.mpr ⟨hfront.ordered, hback.ordered, ?_⟩
  intro first hfirst second hsecond
  obtain ⟨token, htoken, rfl⟩ := List.mem_map.mp hfirst
  obtain ⟨other, hother, rfl⟩ := List.mem_map.mp hsecond
  obtain ⟨-, hstop, -, hfits⟩ := hfront.bounds_of_mem htoken
  have hstart := (hback.bounds_of_mem hother).1
  exact ⟨by omega, hfits⟩

namespace Realignment

variable {realignment : Realignment}
variable {grammar : Grammar}
variable {kept lost replaced remaining : Text}
variable {ahead superseded rest : List (TrackedToken × Span)}
variable {more : List Token}

/-- Where a realignment meets the old tokens is the first meeting of a full lexing. -/
theorem isLeast_of_meets
    (h : realignment.Meets grammar kept lost replaced remaining superseded rest)
    (hlost : lost ≠ [])
    (hbound : Text.size kept + Text.size (lost ++ replaced) + Text.size remaining < positionBound)
    (hahead : Tiles 0 (ahead.map placed) (Text.size kept))
    (hmore : Scans grammar (Text.size kept + Text.size (lost ++ replaced)) remaining [] more) :
    IsLeast
      (meetings ⟨Text.size kept, Text.size lost⟩ ((ahead ++ (superseded ++ rest)).map placed)
        (realignment.tokens ++ more))
      (Text.size kept + Text.size (lost ++ replaced)) := by
  have htiles := h.scans.tiles (by omega)
  have hmoreTiles := hmore.tiles hbound
  have hrestTiles := h.restCuts.tiles hbound
  have hpositive := Text.size_pos hlost
  rw [Text.size_append] at hbound
  have hsupersededTiles := h.supersededCuts.tiles (by omega)
  have hstop : Text.size kept + Text.size lost + Text.size replaced =
      Text.size kept + Text.size (lost ++ replaced) := by
    rw [Text.size_append, Nat.add_assoc]
  rw [hstop] at hsupersededTiles
  constructor
  · refine ⟨?_, ?_, ?_⟩
    · obtain ⟨last, hlast⟩ : ∃ last, realignment.tokens.getLast? = some last := by
        refine Option.ne_none_iff_exists'.mp fun hnone => ?_
        rw [List.getLast?_eq_none_iff] at hnone
        rw [hnone] at htiles
        have hempty : Text.size kept = Text.size kept + Text.size (lost ++ replaced) := htiles
        omega
      exact ⟨last, List.mem_append_left more (List.mem_of_getLast? hlast),
        htiles.stop_of_getLast? hlast⟩
    · dsimp only
      omega
    · dsimp only
      rcases List.eq_nil_or_concat superseded with rfl | ⟨others, entry, rfl⟩
      · exact .inl hsupersededTiles.symm
      · rw [List.concat_eq_append] at hsupersededTiles ⊢
        exact .inr ⟨placed entry, List.mem_map_of_mem (by simp), hsupersededTiles.stop_of_concat⟩
  · rintro _ ⟨⟨token, htoken, rfl⟩, hbehind, hmeeting⟩
    dsimp only at hbehind hmeeting
    rcases List.mem_append.mp htoken with htoken | htoken
    · refine Nat.le_of_not_lt fun hbefore => ?_
      obtain ⟨hinvalid, hentries⟩ := h.first token htoken hbefore
      obtain ⟨_, hold, hend⟩ := hmeeting.resolve_left hinvalid
      obtain ⟨entry, hentry, rfl⟩ := List.mem_map.mp hold
      have hend' : entry.2.start + entry.2.length = token.span.start + token.span.length := hend
      rcases List.mem_append.mp hentry with hentry | hentry
      · have hinside := hahead.bounds_of_entry hentry
        omega
      · rcases List.mem_append.mp hentry with hentry | hentry
        · exact hentries entry hentry hend'
        · have hbeyond := hrestTiles.bounds_of_entry hentry
          omega
    · have hbeyond := (hmoreTiles.bounds_of_mem htoken).1
      omega

/-- The old tokens that a realignment replaces are those between the invalidated part and where it
stops. -/
theorem superseded_eq_tokensWhere
    {store : TokenStore}
    {version : Nat}
    (h : realignment.Meets grammar kept lost replaced remaining superseded rest)
    (harrangement : Arrangement store version (ahead ++ superseded ++ rest))
    (hbound : Text.size kept + Text.size (lost ++ replaced) + Text.size remaining < positionBound)
    (hahead : Tiles 0 (ahead.map placed) (Text.size kept)) :
    realignment.superseded = store.tokensWhere fun span =>
      Text.size kept + Text.size lost ≤ span.start ∧
        span.start + span.length ≤ Text.size kept + Text.size (lost ++ replaced) := by
  have hrestTiles := h.restCuts.tiles hbound
  rw [Text.size_append] at hbound hrestTiles ⊢
  have hsupersededTiles := h.supersededCuts.tiles (by omega)
  rw [h.superseded_eq]
  refine (harrangement.tokensWhere_eq ?_ ?_ ?_).symm
  · intro entry hentry
    have hbounds := hahead.bounds_of_entry hentry
    omega
  · intro entry hentry
    obtain ⟨hstart, hstop, -⟩ := hsupersededTiles.bounds_of_entry hentry
    exact ⟨hstart, Nat.le_trans hstop (Nat.le_of_eq (Nat.add_assoc _ _ _))⟩
  · intro entry hentry
    have hbounds := hrestTiles.bounds_of_entry hentry
    omega

/-- Where the tokens of a store tile a document except for a part that is not empty, a realignment
succeeds: it reads the tokens of a lexing of all that follows up to the first meeting, and replaces
the tokens of the store up to there. -/
theorem exists_resynchronises
    {store : TokenStore}
    (hgrammar : grammar.PrefixStable)
    (classify : Nat → TokenClass)
    (htoList : store.toList = .ok (front ++ back))
    (hfront : Tiles 0 front invalid.start)
    (hback : Tiles (invalid.start + invalid.length) back after.size)
    (hslices : ∀ token ∈ front ++ back,
      Text.slice? after.text token.span.start token.span.length ≠ none)
    (hinvalid : 0 < invalid.length)
    (hbound : after.size < positionBound) :
    ∃ realignment text lexed stop,
      realign store (.ofGrammar grammar classify) after invalid = .ok realignment ∧
      Text.slice? after.text invalid.start (after.size - invalid.start) = some text ∧
      ((Lexer.ofGrammar grammar classify).run invalid.start [text]).items.map (·.result) =
        lexed.map .ok ∧
      realignment.Resynchronises store invalid (front ++ back) lexed stop := by
  obtain ⟨kept, lost, behind, htext, hkept, hlost, hcuts⟩ :=
    exists_cuts_around hfront hback hslices
  obtain ⟨version, view, harrangement, hplaced⟩ :=
    Arrangement.exists_of_toList htoList (ordered_around hfront hback) fun token htoken => by
      rcases List.mem_append.mp htoken with hmem | hmem
      · exact (hfront.bounds_of_mem hmem).2.2.2
      · exact (hback.bounds_of_mem hmem).2.2.2
  obtain ⟨ahead, entries, rfl, rfl, rfl⟩ := List.map_eq_append_iff.mp hplaced
  obtain ⟨start, length⟩ := invalid
  dsimp only at hfront hback hinvalid hkept hlost hcuts ⊢
  subst hkept hlost
  obtain ⟨realignment, superseded, rest, replaced, remaining, hrealign, rfl, rfl, hmeets⟩ :=
    exists_realign_eq_ok hgrammar classify harrangement htext hbound hfront hcuts
  have hsize : Text.size kept + Text.size (lost ++ replaced) + Text.size remaining =
      after.size := by
    rw [Document.size, htext]
    simp only [Text.size_append]
    omega
  have hwhole : after.text = kept ++ (lost ++ replaced ++ remaining) := by
    rw [htext, List.append_assoc lost]
  obtain ⟨lexed, hlexed, hcomplete⟩ :=
    Lexer.exists_complete_run hgrammar classify (Text.size kept) [lost ++ replaced ++ remaining]
      (by rw [List.flatten_singleton, Text.size_append]; omega)
  obtain ⟨more, hmore, -⟩ :=
    Lexer.exists_complete_run hgrammar classify (Text.size kept + Text.size (lost ++ replaced))
      [remaining] (by rw [List.flatten_singleton]; omega)
  rw [List.flatten_singleton] at hlexed hmore
  obtain rfl : lexed = realignment.tokens ++ more :=
    hlexed.unique (Scans.append (by rw [List.append_nil]; exact hmeets.scans) hmore)
  have hleast := isLeast_of_meets hmeets (by rintro rfl; exact Nat.lt_irrefl 0 hinvalid)
    (by omega) hfront hmore
  refine ⟨realignment, lost ++ replaced ++ remaining, _,
    Text.size kept + Text.size (lost ++ replaced), hrealign, ?_, hcomplete.results, ?_⟩
  · rw [Text.slice?, Option.map_eq_some_iff]
    refine ⟨(lost ++ replaced ++ remaining, []), Text.cut?_eq_some_iff.mpr ⟨kept, ?_, rfl, ?_⟩, rfl⟩
    · rw [List.append_nil]
      exact hwhole
    · rw [Text.size_append]
      omega
  · refine ⟨by rwa [← List.map_append], List.prefix_append _ more, hmeets.scans.tiles (by omega), ?_,
      ?_⟩
    · rw [← List.append_assoc] at harrangement
      exact superseded_eq_tokensWhere hmeets harrangement (by omega) hfront
    · rw [hmeets.scanned_eq, Span.ofBounds, Nat.add_sub_cancel_left]

section OpenedComment

/-- A text in which the mark that opens a comment is new. -/
def opened : Document :=
  .ofText 0 ['a', ' ', '/', '*', ' ', 'b', ' ', 'c', ' ', '*', '/', ' ', 'd']

/-- The old token in front of the mark. -/
def aheadOfMark : List Token :=
  [⟨Assembly.Kind.identifier.code, ⟨0, 1⟩⟩]

/-- The old tokens behind the mark, which know of no comment. -/
def behindMark : List Token :=
  [⟨Assembly.Kind.whitespace.code, ⟨4, 1⟩⟩, ⟨Assembly.Kind.identifier.code, ⟨5, 1⟩⟩,
    ⟨Assembly.Kind.whitespace.code, ⟨6, 1⟩⟩, ⟨Assembly.Kind.identifier.code, ⟨7, 1⟩⟩,
    ⟨Assembly.Kind.whitespace.code, ⟨8, 1⟩⟩, ⟨Assembly.Kind.operator.code, ⟨9, 1⟩⟩,
    ⟨Assembly.Kind.operator.code, ⟨10, 1⟩⟩, ⟨Assembly.Kind.whitespace.code, ⟨11, 1⟩⟩,
    ⟨Assembly.Kind.identifier.code, ⟨12, 1⟩⟩]

/-- The comment takes the place of the seven old tokens up to the mark that closes it. -/
theorem resynchronises_opened :
    (fresh 0 0 (aheadOfMark ++ behindMark)).toList = .ok (aheadOfMark ++ behindMark) ∧
    ∃ realignment lexed stop,
      realign (fresh 0 0 (aheadOfMark ++ behindMark))
        (.ofGrammar Assembly.scan fun _ => .unknown) opened ⟨1, 3⟩ = .ok realignment ∧
      realignment.Resynchronises (fresh 0 0 (aheadOfMark ++ behindMark)) ⟨1, 3⟩
        (aheadOfMark ++ behindMark) lexed stop ∧
      realignment.superseded.length = 7 ∧
      realignment.scanned = ⟨1, 10⟩ := by
  have htoList : (fresh 0 0 (aheadOfMark ++ behindMark)).toList =
      .ok (aheadOfMark ++ behindMark) := by
    decide +kernel
  have hfront : Tiles 0 aheadOfMark (Span.start ⟨1, 3⟩) := by decide
  have hback : Tiles (Span.start ⟨1, 3⟩ + Span.length ⟨1, 3⟩) behindMark opened.size := by decide
  obtain ⟨realignment, text, lexed, stop, hrealign, -, -, hresynchronises⟩ :=
    exists_resynchronises Assembly.wellBehaved_scan.prefixStable (fun _ => .unknown) htoList
      hfront hback (by decide) (by decide) (by decide)
  have hread : (realign (fresh 0 0 (aheadOfMark ++ behindMark))
      (.ofGrammar Assembly.scan fun _ => .unknown) opened ⟨1, 3⟩).map
        (fun realignment => (realignment.superseded.length, realignment.scanned)) =
          .ok (7, ⟨1, 10⟩) := by
    decide +kernel
  rw [hrealign] at hread
  obtain ⟨hlength, hscanned⟩ := Prod.mk.inj (Except.ok.inj hread)
  exact ⟨htoList, realignment, lexed, stop, hrealign, hresynchronises, hlength, hscanned⟩

end OpenedComment

end Realignment

end LiveTokens
