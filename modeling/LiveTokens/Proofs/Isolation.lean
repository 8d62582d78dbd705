import LiveTokens.Proofs.Excision
import LiveTokens.Proofs.Survival

/-!
# An excision isolates the edit

Let tokens that are not empty tile a document, whatever lexer they come from, and
let the host turn the document into its next generation.  An excision takes out the
tokens at the edit, and the span that it reports lies between the others: what is
in front of the span and behind it is text that did not change, and the tokens
there still lie over the same bytes.

Tokens may cut characters, and their identities may coincide.
-/

namespace LiveTokens

open TokenStore

variable {before after : Document}
variable {edit : Edit}
variable {replacements : List Replacement}
variable {start stop : Nat}
variable {front middle back : List (TrackedToken × Span)}

namespace Edit

variable {text text' : Text}
variable {position : Nat}

/-- The span intersects the region of the edit, or touches it at one of its ends. -/
def Touches
    (edit : Edit)
    (span : Span) : Prop :=
  edit.region.start ≤ span.start + span.length ∧
    span.start ≤ edit.region.start + edit.region.length

instance (edit : Edit) : DecidablePred edit.Touches :=
  fun span => inferInstanceAs (Decidable (edit.region.start ≤ span.start + span.length ∧
    span.start ≤ edit.region.start + edit.region.length))

theorem Splices.size_eq
    (h : edit.Splices text text') :
    (Text.size text' : Int) = Text.size text + edit.delta := by
  obtain ⟨front, old, new, back, rfl, rfl, -, -, hnew⟩ := h
  simp only [Text.size_append]
  omega

theorem Splices.region_le
    (h : edit.Splices text text') :
    edit.region.start + edit.region.length ≤ Text.size text ∧
    edit.Plausible := by
  obtain ⟨front, old, new, back, rfl, -, hfront, hold, hnew⟩ := h
  unfold Plausible
  simp only [Text.size_append]
  omega

/-- The bytes in front of the region stay. -/
theorem Splices.take_bytes
    (h : edit.Splices text text')
    (hposition : position ≤ edit.region.start) :
    text'.bytes.take position = text.bytes.take position := by
  obtain ⟨front, old, new, back, rfl, rfl, hfront, -, -⟩ := h
  have hlength : position ≤ (Text.bytes front).length := by
    rw [Text.length_bytes, hfront]
    exact hposition
  rw [List.append_assoc, List.append_assoc, Text.bytes_append, Text.bytes_append front,
    List.take_append_of_le_length hlength, List.take_append_of_le_length hlength]

/-- The bytes behind the region stay. -/
theorem Splices.drop_bytes
    {position' : Nat}
    (h : edit.Splices text text')
    (hposition : edit.region.start + edit.region.length ≤ position)
    (hmoved : (position' : Int) = position + edit.delta) :
    text'.bytes.drop position' = text.bytes.drop position := by
  obtain ⟨front, old, new, back, rfl, rfl, hfront, hold, hnew⟩ := h
  have hlength : (Text.bytes (front ++ old)).length ≤ position := by
    rw [Text.length_bytes, Text.size_append]
    omega
  have hlength' : (Text.bytes (front ++ new)).length ≤ position' := by
    rw [Text.length_bytes, Text.size_append]
    omega
  rw [Text.bytes_append, Text.bytes_append (front ++ old), List.drop_append, List.drop_append,
    List.drop_of_length_le hlength, List.drop_of_length_le hlength', Text.length_bytes,
    Text.length_bytes, Text.size_append, Text.size_append]
  congr 2
  omega

end Edit

/-- Entries tile a text that an edit splices, and those at its region lie between `start` and
`stop`. -/
structure Encloses
    (before after : Document)
    (edit : Edit)
    (front middle back : List (TrackedToken × Span))
    (start stop : Nat) : Prop where
  splices : edit.Splices before.text after.text
  divided : Divided edit.region front middle back
  front : Tiles 0 (front.map placed) start
  middle : Tiles start (middle.map placed) stop
  back : Tiles stop (back.map placed) before.size
  before_lt : before.size < positionBound
  after_lt : after.size < positionBound

namespace Encloses

theorem covers
    (h : Encloses before after edit front middle back start stop) :
    start ≤ edit.region.start ∧
    edit.region.start + edit.region.length ≤ stop ∧
    (middle = [] → before.size = 0) :=
  h.divided.covers h.front h.middle h.back h.splices.region_le.1

/-- The text in the place of the entries at the region lies in the text after the edit. -/
theorem exists_extent
    (h : Encloses before after edit front middle back start stop) :
    ∃ length : Nat,
      Excision.extent before after edit (middle.map (·.2)) = .ok ⟨start, length⟩ ∧
      ((start + length : Nat) : Int) = stop + edit.delta ∧
      start + length ≤ after.size := by
  obtain ⟨hregion, hedit⟩ := h.splices.region_le
  have hsize : (after.size : Int) = before.size + edit.delta := h.splices.size_eq
  obtain ⟨hstart, hstop, -⟩ := h.covers
  have hle := h.back.le
  have hextent := Excision.extent_of_tiles h.divided hedit h.front h.middle h.back hregion
    h.before_lt h.after_lt hsize
  unfold Edit.Plausible at hedit
  exact ⟨_, hextent, by omega, by omega⟩

/-- The entries behind the region tile the rest of the text after the edit. -/
theorem tiles_back
    {stop' : Nat}
    (h : Encloses before after edit front middle back start stop)
    (hstop : (stop' : Int) = stop + edit.delta) :
    Tiles stop' ((back.map edit.slideEntry).map placed) after.size := by
  have hsize : (after.size : Int) = before.size + edit.delta := h.splices.size_eq
  have hbound := h.after_lt
  have hslid := h.back.slide edit.delta (by omega) (by omega)
  have hstart : (stop + edit.delta).toNat = stop' := by
    omega
  have hend : (before.size + edit.delta).toNat = after.size := by
    omega
  rw [hstart, hend, List.map_map] at hslid
  rw [List.map_map]
  exact hslid

theorem bytesIn_front
    {entry : TrackedToken × Span}
    (h : Encloses before after edit front middle back start stop)
    (hentry : entry ∈ front) :
    after.text.bytesIn entry.2 = before.text.bytesIn entry.2 := by
  have hbounds := h.front.bounds_of_entry hentry
  have hcovers := h.covers
  have hle := h.middle.le
  have hle' := h.back.le
  have hbefore := h.before_lt
  have hinside : entry.2.start + entry.2.length ≤ before.size := by
    omega
  have hcarry : (edit.carry entry.2 : Outcome LogError _) = .ok (.unmoved, entry.2) :=
    Edit.carry_of_spares (Nat.lt_of_le_of_lt hinside hbefore)
      (Nat.le_of_lt (h.divided.front entry hentry))
  exact (h.splices.bytesIn_carried hinside hcarry (by simp)).2

theorem bytesIn_back
    {entry : TrackedToken × Span}
    (h : Encloses before after edit front middle back start stop)
    (hentry : entry ∈ back) :
    after.text.bytesIn (edit.slideEntry entry).2 = before.text.bytesIn entry.2 := by
  obtain ⟨-, hedit⟩ := h.splices.region_le
  have hsize : (after.size : Int) = before.size + edit.delta := h.splices.size_eq
  have hbounds := h.back.bounds_of_entry hentry
  have hbehind := h.divided.back entry hentry
  have hafter := h.after_lt
  unfold Edit.Plausible at hedit
  have hslides : edit.Slides entry.2 := ⟨hbehind, by omega, by omega⟩
  obtain ⟨fate, halive, hcarry⟩ := Edit.carry_of_slides (ε := LogError)
    (Nat.lt_of_le_of_lt hbounds.2.1 h.before_lt) hslides
  exact (h.splices.bytesIn_carried hbounds.2.1 hcarry halive).2

end Encloses

/-- What an excision has done to a store whose tokens tiled the text: the tokens that the edit
touches, which lay at `spans`, are gone, and the others lie around the reported span. -/
structure Isolates
    (before after : Document)
    (edit : Edit)
    (store store' : TokenStore)
    (excision : Excision)
    (spans : List Span) : Prop where
  removed : excision.removed = store.tokensWhere edit.Touches
  located : excision.removed.map store.place = spans.map .ok
  kept : store'.tokens = store.tokensWhere fun span => ¬ edit.Touches span
  version : (store'.version : Outcome StoreError Nat) = .ok after.generation
  /-- Without a touched token there was no text. -/
  empty : spans = [] → before.text = [] ∧ excision.span = ⟨0, after.size⟩
  first : ∀ first ∈ spans.head?,
    excision.span.start = first.start ∧
    after.text.bytes.take excision.span.start = before.text.bytes.take first.start
  last : ∀ last ∈ spans.getLast?,
    ((excision.span.start + excision.span.length : Nat) : Int) =
      ((last.start + last.length : Nat) : Int) + edit.delta ∧
    after.text.bytes.drop (excision.span.start + excision.span.length) =
      before.text.bytes.drop (last.start + last.length)
  within : excision.span.start + excision.span.length ≤ after.size
  /-- The other tokens lie outside of the span, over the same bytes as before. -/
  outside : ∀ tracked ∈ store'.tokens, ∃ span span',
    store.place tracked = .ok span ∧
    store'.place tracked = .ok span' ∧
    (span'.start + span'.length ≤ excision.span.start ∨
      excision.span.start + excision.span.length ≤ span'.start) ∧
    after.text.bytesIn span' = before.text.bytesIn span
  tiles : ∃ front back,
    store'.toList = .ok (front ++ back) ∧
    Tiles 0 front excision.span.start ∧
    Tiles (excision.span.start + excision.span.length) back after.size

/-- The entries that an excision takes out and those that it leaves isolate the edit. -/
theorem Encloses.isolates
    {store store' : TokenStore}
    {length : Nat}
    (h : Encloses before after edit front middle back start stop)
    (hview : Arrangement store before.generation (front ++ middle ++ back))
    (hview' : Arrangement store' after.generation (front ++ back.map edit.slideEntry))
    (hstop : ((start + length : Nat) : Int) = stop + edit.delta)
    (hwithin : start + length ≤ after.size) :
    Isolates before after edit store store' ⟨middle.map Prod.fst, ⟨start, length⟩⟩
      (middle.map (·.2)) := by
  obtain ⟨hstartLe, hstopLe, hnone⟩ := h.covers
  have hbackTiles := h.tiles_back hstop
  have hfront : ∀ entry ∈ front, ¬ edit.Touches entry.2 := fun entry hentry htouches =>
    Nat.not_le_of_lt (h.divided.front entry hentry) htouches.1
  have hback : ∀ entry ∈ back, ¬ edit.Touches entry.2 := fun entry hentry htouches =>
    Nat.not_le_of_lt (h.divided.back entry hentry) htouches.2
  refine ⟨?_, ?_, ?_, hview'.version_eq, ?_, ?_, ?_, hwithin, ?_, ?_⟩
  · exact (hview.tokensWhere_eq hfront h.divided.middle hback).symm
  · rw [List.map_map, List.map_map]
    refine List.map_congr_left fun entry hentry => ?_
    exact (hview.place_eq entry.1).trans (hview.located entry (by simp [hentry]))
  · rw [hview.tokensWhere_not_eq hfront h.divided.middle hback, ← hview'.tokens, List.map_append,
      List.map_append, List.map_map]
    rfl
  · intro hempty
    have hsize := hnone (List.map_eq_nil_iff.mp hempty)
    have hle := h.middle.le
    have hle' := h.back.le
    have hafter : (after.size : Int) = before.size + edit.delta := h.splices.size_eq
    refine ⟨Text.size_eq_zero_iff.mp hsize, ?_⟩
    rw [Span.mk.injEq]
    omega
  · intro first hfirst
    have hfirstStart : first.start = start := by
      cases middle with
      | nil =>
          cases hfirst
      | cons entry others =>
          cases hfirst
          exact h.middle.1
    exact ⟨hfirstStart.symm, by rw [hfirstStart]; exact h.splices.take_bytes hstartLe⟩
  · intro last hlast
    have hlastStop : last.start + last.length = stop := by
      rw [List.getLast?_map] at hlast
      obtain ⟨entry, hentry, rfl⟩ := Option.map_eq_some_iff.mp hlast
      have hplaced : (middle.map placed).getLast? = some (placed entry) := by
        rw [List.getLast?_map, hentry, Option.map_some]
      exact h.middle.stop_of_getLast? hplaced
    rw [hlastStop]
    exact ⟨hstop, h.splices.drop_bytes hstopLe hstop⟩
  · intro tracked htracked
    rw [← hview'.tokens] at htracked
    obtain ⟨entry', hentry', rfl⟩ := List.mem_map.mp htracked
    have hplace' := (hview'.place_eq entry'.1).trans (hview'.located entry' hentry')
    rcases List.mem_append.mp hentry' with hmem | hmem
    · refine ⟨entry'.2, entry'.2, ?_, hplace', .inl (h.front.bounds_of_entry hmem).2.1,
        h.bytesIn_front hmem⟩
      exact (hview.place_eq entry'.1).trans (hview.located entry' (by simp [hmem]))
    · obtain ⟨entry, hentry, rfl⟩ := List.mem_map.mp hmem
      refine ⟨entry.2, _, ?_, hplace', .inr (hbackTiles.bounds_of_entry hmem).1,
        h.bytesIn_back hentry⟩
      exact (hview.place_eq entry.1).trans (hview.located entry (by simp [hentry]))
  · refine ⟨front.map placed, (back.map edit.slideEntry).map placed, ?_, h.front, hbackTiles⟩
    rw [← List.map_append]
    exact hview'.toList_eq

namespace Excision

/-- Where the tokens of a store tile a document, an excision succeeds and isolates the edit. -/
theorem exists_isolates
    {workspace : Workspace}
    {tokens : List Token}
    (hversion : (workspace.store.version : Outcome StoreError Nat) = .ok before.generation)
    (htoList : workspace.store.toList = .ok tokens)
    (htiles : Tiles 0 tokens before.size)
    (hturns : before.Turns after replacements)
    (hsome : replacements ≠ [])
    (hbefore : before.InRange)
    (hafter : after.InRange) :
    ∃ edit excision workspace' spans,
      Edit.join replacements = .ok edit ∧
      (excise before after edit).outcome workspace = (.ok excision, workspace') ∧
      Isolates before after edit workspace.store workspace'.store excision spans := by
  obtain ⟨edit, hjoin⟩ :=
    Text.exists_join_of_replaceAll hturns.text hsome hbefore.size hafter.size
  have hsplices : edit.Splices before.text after.text :=
    Text.exists_changed_of_replaceAll hturns.text hjoin
  obtain ⟨version, view, harrangement, hplaced⟩ :=
    Arrangement.exists_of_toList htoList htiles.ordered
      fun token htoken => (htiles.bounds_of_mem htoken).2.2.2
  obtain rfl : version = before.generation :=
    Except.ok.inj (harrangement.version_eq.symm.trans hversion)
  obtain ⟨front, middle, back, rfl, hdivided⟩ := harrangement.exists_divided edit.region
  rw [← hplaced, List.map_append, List.map_append] at htiles
  obtain ⟨stop, htiles, hback⟩ := tiles_append_iff.mp htiles
  obtain ⟨start, hfront, hmiddle⟩ := tiles_append_iff.mp htiles
  have hencloses : Encloses before after edit front middle back start stop :=
    ⟨hsplices, hdivided, hfront, hmiddle, hback, hbefore.size_lt, hafter.size_lt⟩
  obtain ⟨length, hextent, hstop, hwithin⟩ := hencloses.exists_extent
  have hpositive : ∀ entry ∈ front, 0 < entry.2.length := fun entry hentry =>
    (hfront.bounds_of_entry hentry).2.2
  have hsettle : settle before after edit middle =
      .ok ⟨middle.map Prod.fst, ⟨start, length⟩⟩ :=
    settle_eq_ok_iff.mpr ⟨hturns.generation.symm, hafter.generation, hextent,
      Span.fits_mk.mpr (Nat.lt_of_le_of_lt hwithin hafter.size_lt), hwithin, rfl⟩
  have hrange : ∀ entry ∈ back,
      entry.2.start + entry.2.length + edit.delta < positionBound := by
    intro entry hentry
    have hbounds := hback.bounds_of_entry hentry
    have hsize : (after.size : Int) = before.size + edit.delta := hsplices.size_eq
    have hbound := hafter.size_lt
    omega
  have hexcised := harrangement.excised (hturns.generation ▸ hafter.generation) hdivided
    hsplices.region_le.2 hrange
  rw [← hturns.generation] at hexcised
  refine ⟨edit, _, ⟨(workspace.store.withEntries (front ++ back)).advance edit, workspace.nextId⟩, _,
    hjoin, ?_, hencloses.isolates harrangement hexcised hstop hwithin⟩
  rw [outcome_excise_of_removals harrangement (hsplices.region_fits hbefore.size_lt) hdivided
    (Revision.outcome_removals_of_positive harrangement hpositive), hsettle]

section CutCharacter

/-- A text with a character of two bytes. -/
def accented : Document :=
  .ofText 0 ['a', 'é', 'b', 'c', 'd']

/-- The text with two letters in the place of one. -/
def accentedChanged : Document :=
  ⟨['a', 'é', 'x', 'y', 'c', 'd'], accented.version.successor⟩

/-- One token a byte, and all of them under one number. -/
def bytewise : Workspace :=
  ⟨⟨(List.range 6).map fun position => ⟨7, ⟨1, ⟨position, 1⟩⟩, 0⟩, EditLog.startingAt 0⟩, 8⟩

/-- An insertion and a deletion at one place touch three tokens, one of which cuts the character in
front of them. -/
theorem isolates_bytewise :
    ∃ edit excision workspace' spans,
      Edit.join [⟨⟨3, 0⟩, ['x', 'y']⟩, ⟨⟨3, 1⟩, []⟩] = .ok edit ∧
      (excise accented accentedChanged edit).outcome bytewise = (.ok excision, workspace') ∧
      Isolates accented accentedChanged edit bytewise.store workspace'.store excision spans ∧
      excision.span = ⟨2, 4⟩ ∧
      workspace'.store.toList = .ok [⟨1, ⟨0, 1⟩⟩, ⟨1, ⟨1, 1⟩⟩, ⟨1, ⟨6, 1⟩⟩] := by
  have hversion : (bytewise.store.version : Outcome StoreError Nat) = .ok accented.generation :=
    rfl
  have htoList : bytewise.store.toList =
      .ok ((List.range 6).map fun position => ⟨1, ⟨position, 1⟩⟩) := by
    decide +kernel
  have hturns : accented.Turns accentedChanged [⟨⟨3, 0⟩, ['x', 'y']⟩, ⟨⟨3, 1⟩, []⟩] :=
    ⟨by decide +kernel, rfl⟩
  obtain ⟨edit, excision, workspace', spans, hjoin, hexcise, hisolates⟩ :=
    exists_isolates hversion htoList (by decide +kernel) hturns (by simp)
      ⟨by decide +kernel, by decide⟩ ⟨by decide +kernel, by decide⟩
  obtain rfl : edit = ⟨⟨3, 1⟩, 1⟩ :=
    Except.ok.inj (hjoin.symm.trans (by decide +kernel))
  have hspan : (((excise accented accentedChanged ⟨⟨3, 1⟩, 1⟩).outcome bytewise).1.map
      (·.span)) = .ok ⟨2, 4⟩ := by
    decide +kernel
  have hleft : ((excise accented accentedChanged ⟨⟨3, 1⟩, 1⟩).outcome bytewise).2.store.toList =
      .ok [⟨1, ⟨0, 1⟩⟩, ⟨1, ⟨1, 1⟩⟩, ⟨1, ⟨6, 1⟩⟩] := by
    decide +kernel
  rw [hexcise] at hspan hleft
  exact ⟨_, excision, workspace', spans, hjoin, hexcise, hisolates, Except.ok.inj hspan, hleft⟩

end CutCharacter

end Excision

end LiveTokens
