import LiveTokens.Proofs.Rebuild

/-!
# What an update puts in the place of what

Where the tokens of a document tile it, the tokens that an excision takes out
tile a range, and so do those in front of them and behind them.  A realignment
ends where one of the old tokens behind that range does, and replaces the tokens
up to there.  So the new tokens fit into the gap exactly, whatever the lexer has
found, and the tokens of the next generation tile its document again.
-/

namespace LiveTokens

open TokenStore

variable {before after : Document}
variable {replacements : List Replacement}
variable {edit : Edit}
variable {position start stop target size : Nat}
variable {tokens : List Token}
variable {front middle back : List (TrackedToken × Span)}

namespace Tiles

/-- The entries that end in front of the end of one of them, or there, tile the range up to it. -/
theorem takeWhile
    {entries : List (TrackedToken × Span)}
    (h : Tiles position (entries.map placed) stop)
    (htarget : target = position ∨
      ∃ entry ∈ entries, entry.2.start + entry.2.length = target) :
    Tiles position
      ((entries.takeWhile fun entry => entry.2.start + entry.2.length ≤ target).map placed)
      target := by
  induction entries generalizing position with
  | nil =>
      simpa [eq_comm] using htarget
  | cons entry rest ih =>
      obtain ⟨hstart, hlength, hfits, hrest⟩ := h
      simp only [placed] at hstart hlength hfits hrest
      have hmember : ∀ other ∈ rest, position + entry.2.length <
          other.2.start + other.2.length := by
        intro other hother
        have hbounds := hrest.bounds_of_entry hother
        omega
      by_cases hle : entry.2.start + entry.2.length ≤ target
      · rw [List.takeWhile_cons_of_pos (by simpa using hle), List.map_cons]
        refine ⟨hstart, hlength, hfits, ih hrest ?_⟩
        rcases htarget with rfl | ⟨other, hother, hstop⟩
        · omega
        · rcases List.mem_cons.mp hother with rfl | hmem
          · exact .inl (by simp only [placed]; omega)
          · exact .inr ⟨other, hmem, hstop⟩
      · rw [List.takeWhile_cons_of_neg (by simpa using hle)]
        rcases htarget with rfl | ⟨other, hother, hstop⟩
        · rfl
        · rcases List.mem_cons.mp hother with rfl | hmem
          · omega
          · have := hmember other hmem
            omega

end Tiles

/-- A document grows by the delta of the joined replacements. -/
theorem Document.Turns.size_eq
    (h : before.Turns after replacements)
    (hjoin : Edit.join replacements = .ok edit) :
    (after.size : Int) = before.size + edit.delta := by
  obtain ⟨front, old, new, back, hbefore, hafter, -, -, hdelta⟩ :=
    Text.exists_changed_of_replaceAll h.text hjoin
  rw [Document.size, Document.size, hbefore, hafter]
  simp only [Text.size_append]
  omega

/-- What takes the place of touched tokens starts where they did, and ends where they did but for
the delta. -/
theorem Excision.bounds_of_extent
    {span : Span}
    (hmiddle : Tiles start (middle.map placed) stop)
    (hback : Tiles stop (back.map placed) before.size)
    (hsize : (after.size : Int) = before.size + edit.delta)
    (h : extent before after edit (middle.map (·.2)) = .ok span) :
    span.start = start ∧
    ((span.start + span.length : Nat) : Int) = stop + edit.delta := by
  cases middle with
  | nil =>
      have hstop : start = stop := hmiddle
      have hle := hback.le
      simp only [extent, List.map_nil, List.head?_nil] at h
      split at h
      next hempty =>
        have hnone : before.size = 0 := by
          rw [Document.size, hempty, Text.size_nil]
        cases h
        dsimp only
        omega
      next =>
        cases h
  | cons first others =>
      have hfirst : first.2.start = start := hmiddle.1
      obtain ⟨last, hlast⟩ : ∃ last, (first :: others).getLast? = some last :=
        ⟨_, List.getLast?_eq_some_getLast (by simp)⟩
      have hstop : last.2.start + last.2.length = stop := by
        have hplaced : ((first :: others).map placed).getLast? = some (placed last) := by
          rw [List.getLast?_map, hlast, Option.map_some]
        exact hmiddle.stop_of_getLast? hplaced
      rw [extent, List.getLast?_map, hlast, Option.map_some, List.map_cons, List.head?_cons] at h
      dsimp only at h
      split at h
      next =>
        cases h
      next =>
        obtain ⟨reached, hreached, h⟩ := Outcome.bind_eq_ok_iff.mp h
        obtain ⟨rfl, -⟩ := Span.stop_eq_ok_iff.mp hreached
        obtain ⟨regionStop, -, h⟩ := Outcome.bind_eq_ok_iff.mp h
        split at h
        next =>
          cases h
        next =>
          split at h
          next found hfound =>
            cases h
            obtain ⟨moved, hmoved, hbetween⟩ := Option.bind_eq_some_iff.mp hfound
            rw [shift?, hstop] at hmoved
            rw [Span.between?] at hbetween
            split at hmoved
            next hposition =>
              cases hmoved
              split at hbetween
              next hle =>
                cases hbetween
                dsimp only
                omega
              next =>
                cases hbetween
            next =>
              cases hmoved
          next =>
            cases h

/-- A realignment on tokens that tile the text behind the invalidated part puts its tokens in the
place of that part and of the old tokens that it replaces. -/
theorem Realignment.exists_tiles_of_realign
    {store : TokenStore}
    {version : Nat}
    {lexer : Lexer}
    {invalid : Span}
    {realignment : Realignment}
    (h : Layout store version (front ++ back))
    (hfits : invalid.Fits)
    (hfront : ∀ entry ∈ front, entry.2.start < invalid.start + invalid.length)
    (hback : Tiles (invalid.start + invalid.length) (back.map placed) size)
    (hrealign : realign store lexer after invalid = .ok realignment) :
    ∃ stop superseded rest,
      back = superseded ++ rest ∧
      realignment.superseded = superseded.map Prod.fst ∧
      Tiles invalid.start realignment.tokens stop ∧
      Tiles stop (rest.map placed) size := by
  obtain ⟨stop, given, rest, htokens, rfl, hend, hsuperseded⟩ :=
    exists_of_realign h.toArrangement hfits hfront
      (fun entry hentry => (hback.bounds_of_entry hentry).1) hrealign
  have hsplit : given ++ rest =
      (given.takeWhile fun entry => entry.2.start + entry.2.length ≤ stop) ++
        ((given.dropWhile fun entry => entry.2.start + entry.2.length ≤ stop) ++ rest) := by
    rw [← List.append_assoc, List.takeWhile_append_dropWhile]
  refine ⟨stop, _, _, hsplit, hsuperseded, htokens, ?_⟩
  have hgiven := hback
  rw [List.map_append] at hgiven
  obtain ⟨_, hgiven, -⟩ := tiles_append_iff.mp hgiven
  rw [hsplit, List.map_append] at hback
  obtain ⟨reached, hreached, hremaining⟩ := tiles_append_iff.mp hback
  exact (hgiven.takeWhile hend).stop_unique hreached ▸ hremaining

namespace Tokenizer

variable {tokenizer : Tokenizer}
variable {firstId : Nat}
variable {view touched superseded rest : List (TrackedToken × Span)}

/-- The entries of the next generation: new tokens in the place of the touched and the superseded
ones, and the tokens behind them moved along. -/
def patched
    (stages : Stages tokenizer before after replacements firstId)
    (front rest : List (TrackedToken × Span)) : List (TrackedToken × Span) :=
  front ++
    (TrackedToken.number after.generation firstId stages.realignment.tokens).map
      TrackedToken.entry ++
    rest.map stages.edit.slideEntry

/-- An update of tokens that tile the document takes out the touched tokens and a run of tokens
behind them, and puts in tokens such that all of them tile the next generation.  The excision leaves
a gap, and the realignment fills it together with the place of what it supersedes. -/
theorem exists_patched
    (stages : Stages tokenizer before after replacements firstId)
    (h : Workspace.Orderly ⟨tokenizer.store, firstId⟩ before.generation view)
    (htiles : Tiles 0 (view.map placed) before.size)
    (hturns : before.Turns after replacements)
    (hafter : after.size < positionBound) :
    ∃ front touched superseded rest view',
      view = front ++ touched ++ (superseded ++ rest) ∧
      Divided stages.edit.region front touched (superseded ++ rest) ∧
      Workspace.Orderly ⟨stages.store, stages.merged.nextId⟩ after.generation view' ∧
      view'.map face = (patched stages front rest).map face ∧
      Tiles 0 (view'.map placed) after.size := by
  obtain ⟨hregion, hedit⟩ := Edit.plausible_of_join stages.join
  have hsize := hturns.size_eq stages.join
  obtain ⟨front, touched, back, rfl, hdivided⟩ := h.layout.exists_divided stages.edit.region
  rw [List.map_append, List.map_append] at htiles
  obtain ⟨stop, htiles, hback⟩ := tiles_append_iff.mp htiles
  obtain ⟨start, hfront, hmiddle⟩ := tiles_append_iff.mp htiles
  have hexcise := stages.excise
  rw [Excision.outcome_excise h.layout hregion hdivided, Prod.mk.injEq] at hexcise
  obtain ⟨hsettle, hexcised⟩ := hexcise
  obtain ⟨hgeneration, hbound, hextent, hfits, -, -⟩ := Excision.settle_eq_ok_iff.mp hsettle
  obtain ⟨hstart, hstop⟩ := Excision.bounds_of_extent hmiddle hback hsize hextent
  have horderly : stages.excised.Orderly after.generation
      (front ++ back.map stages.edit.slideEntry) := by
    rw [← hexcised, ← hgeneration]
    refine h.excised (hgeneration ▸ hbound) hdivided hedit fun entry hentry => ?_
    obtain ⟨-, hend, -⟩ := hback.bounds_of_entry hentry
    omega
  have hslid : Tiles (stages.excision.span.start + stages.excision.span.length)
      ((back.map stages.edit.slideEntry).map placed) after.size := by
    have hmoved := hback.slide stages.edit.delta (by omega) (by omega)
    rw [← hstop, Int.toNat_natCast, ← hsize, Int.toNat_natCast, List.map_map] at hmoved
    rw [List.map_map]
    exact hmoved
  have hahead : ∀ entry ∈ front, entry.2.start < stages.excision.span.start ∧
      entry.2.start + entry.2.length ≤ stages.excision.span.start := by
    intro entry hentry
    obtain ⟨-, hend, hpositive⟩ := hfront.bounds_of_entry hentry
    omega
  obtain ⟨reached, superseded', rest', hsplit, hsuperseded, htokens, hremaining⟩ :=
    Realignment.exists_tiles_of_realign horderly.layout hfits
      (fun entry hentry => Nat.lt_of_lt_of_le (hahead entry hentry).1 (Nat.le_add_right _ _))
      hslid stages.realign
  obtain ⟨superseded, rest, rfl, rfl, rfl⟩ := List.map_eq_append_iff.mp hsplit
  rw [List.map_append, ← List.append_assoc] at horderly
  obtain ⟨merged, hmerge, hmerged⟩ := Revision.outcome_merge horderly hsuperseded htokens hahead
    fun entry hentry => (hremaining.bounds_of_entry hentry).1
  rw [stages.merge, Prod.mk.injEq] at hmerge
  obtain ⟨-, rfl⟩ := hmerge
  obtain ⟨store, view', hcompact, hcompacted, hfaces⟩ :=
    orderly_compactBeyond tokenizer.settings hmerged
  rw [stages.compact, Except.ok.injEq] at hcompact
  subst hcompact
  have hnextId : stages.excised.nextId = firstId := by
    rw [← hexcised]
  rw [hnextId] at hfaces
  refine ⟨front, touched, superseded, rest, view', rfl, hdivided, hcompacted, hfaces, ?_⟩
  rw [map_placed_of_map_face hfaces, List.map_append, List.map_append, map_placed_number]
  exact tiles_append_iff.mpr
    ⟨reached, tiles_append_iff.mpr ⟨start, hfront, hstart ▸ htokens⟩, hremaining⟩

end Tokenizer

end LiveTokens
