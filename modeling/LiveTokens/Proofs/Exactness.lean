import LiveTokens.Proofs.Convergence
import LiveTokens.Proofs.Rebuild
import LiveTokens.Proofs.Splice

/-!
# Incremental updates are exact

A workspace *describes* a document if its tokens are those of the document's
text.  From there, an incremental update to the next generation goes through all
its stages, and the workspace describes the next generation afterwards: the
tokens in front of the touched ones depend on text that is still there, and from
where the realignment stops the old tokens are right.
-/

namespace LiveTokens

open TokenStore

variable {grammar : Grammar}
variable {before after document : Document}
variable {edit : Edit}
variable {view front middle back : List (TrackedToken × Span)}

/-- The tokens of the store, located in the generation of the document, are those of its text. -/
structure Workspace.Describes
    (workspace : Workspace)
    (grammar : Grammar)
    (document : Document)
    (view : List (TrackedToken × Span)) : Prop where
  orderly : workspace.Orderly document.generation view
  scans : Scans grammar 0 document.text [] (view.map placed)

section Touched

variable {kept ahead old new behind rest : Text}

/-- The text around a change belongs in part to the touched tokens, in part to those in front of
them and behind them. -/
structure Touched
    (grammar : Grammar)
    (kept ahead old behind rest : Text)
    (front middle back : List (TrackedToken × Span)) : Prop where
  frontTokens : Scans grammar 0 kept (ahead ++ old ++ behind ++ rest) (front.map placed)
  middleTokens : Scans grammar (Text.size kept) (ahead ++ old ++ behind) rest (middle.map placed)
  backTokens : Scans grammar (Text.size kept + Text.size (ahead ++ old ++ behind)) rest []
    (back.map placed)
  frontGap : front = [] ∨ ahead ≠ []
  backGap : back = [] ∨ behind ≠ []

/-- An edit between the entries that tile a text touches the middle of the text.  The tokens in
front end in front of the change, and the tokens behind start behind it. -/
theorem exists_touched
    {text start stop : Text}
    (h : Scans grammar 0 text [] ((front ++ middle ++ back).map placed))
    (hbound : Text.size text < positionBound)
    (htext : text = start ++ old ++ stop)
    (hstart : Text.size start = edit.region.start)
    (hold : Text.size old = edit.region.length)
    (hdivided : Divided edit.region front middle back) :
    ∃ kept ahead behind rest,
      start = kept ++ ahead ∧
      stop = behind ++ rest ∧
      Touched grammar kept ahead old behind rest front middle back := by
  rw [List.map_append, List.map_append] at h
  obtain ⟨frontMiddle, rest, hsplit, hfrontMiddle, hback⟩ := h.exists_of_append
  obtain ⟨kept, touched, rfl, hfront, hmiddle⟩ := hfrontMiddle.exists_of_append
  rw [hsplit, Text.size_append, Text.size_append] at hbound
  rw [Text.size_append, Nat.zero_add] at hback
  rw [Nat.zero_add, List.append_nil] at hmiddle
  have hsizes : Text.size kept + Text.size touched + Text.size rest =
      Text.size start + Text.size old + Text.size stop := by
    have hboth := congrArg Text.size (hsplit.symm.trans htext)
    simpa only [Text.size_append] using hboth
  have hkept : front = [] ∧ kept = [] ∨ Text.size kept < Text.size start := by
    rcases List.eq_nil_or_concat front with rfl | ⟨others, entry, rfl⟩
    · exact .inl ⟨rfl, hfront.text_eq_nil⟩
    · right
      rw [List.concat_eq_append] at hfront hdivided
      have hlast : ((others ++ [entry]).map placed).getLast? = some (placed entry) := by
        simp
      have hstop := (hfront.tiles (by omega)).stop_of_getLast? hlast
      have hlt := hdivided.front entry (by simp)
      have hplaced : entry.2.start + entry.2.length = 0 + Text.size kept := hstop
      omega
  have hrest : back = [] ∧ rest = [] ∨ Text.size rest < Text.size stop := by
    cases back with
    | nil =>
        exact .inl ⟨rfl, hback.text_eq_nil⟩
    | cons entry others =>
        right
        have hfirst := (hback.tiles (by omega)).1
        have hlt := hdivided.back entry List.mem_cons_self
        have hplaced : entry.2.start = Text.size kept + Text.size touched := hfirst
        omega
  have hkeptSize : Text.size kept ≤ Text.size start := by
    rcases hkept with ⟨-, rfl⟩ | hlt
    · exact Nat.zero_le _
    · exact Nat.le_of_lt hlt
  have hrestSize : Text.size rest ≤ Text.size stop := by
    rcases hrest with ⟨-, rfl⟩ | hlt
    · exact Nat.zero_le _
    · exact Nat.le_of_lt hlt
  have hwhole : kept ++ (touched ++ rest) = start ++ (old ++ stop) := by
    rw [← List.append_assoc, ← List.append_assoc, ← hsplit, ← htext]
  obtain ⟨ahead, rfl, hremaining⟩ := Text.exists_append_of_size_le hwhole hkeptSize
  rw [← List.append_assoc] at hremaining
  obtain ⟨behind, rfl, rfl⟩ := Text.exists_append_of_size_le hremaining.symm (by
    rw [Text.size_append] at hsizes ⊢
    omega)
  refine ⟨kept, ahead, behind, rest, rfl, rfl, ?_, hmiddle, hback, ?_, ?_⟩
  · rwa [List.append_nil] at hfront
  · rcases hkept with ⟨rfl, -⟩ | hlt
    · exact .inl rfl
    · right
      rintro rfl
      rw [List.append_nil] at hlt
      exact Nat.lt_irrefl _ hlt
  · rcases hrest with ⟨rfl, -⟩ | hlt
    · exact .inl rfl
    · right
      rintro rfl
      exact Nat.lt_irrefl _ hlt

/-- After the change, the tokens around the touched ones are still those of the text. -/
theorem scans_of_touched
    (hgrammar : grammar.WellBehaved)
    (h : Touched grammar kept ahead old behind rest front middle back)
    (hnew : (Text.size new : Int) = Text.size old + edit.delta) :
    Scans grammar 0 kept (ahead ++ new ++ behind ++ rest) (front.map placed) ∧
    Scans grammar (Text.size kept + Text.size (ahead ++ new ++ behind)) rest []
      ((back.map edit.slideEntry).map placed) := by
  constructor
  · have hfront := h.frontTokens
    rw [List.append_assoc, List.append_assoc] at hfront ⊢
    refine Scans.change_behind hgrammar hfront ?_
    rcases h.frontGap with rfl | hahead
    · exact .inl rfl
    · exact .inr hahead
  · have hposition : ((Text.size kept + Text.size (ahead ++ old ++ behind) : Nat) +
        edit.delta).toNat = Text.size kept + Text.size (ahead ++ new ++ behind) := by
      simp only [Text.size_append]
      omega
    have hslid := h.backTokens.slide edit.delta (by
      simp only [Text.size_append]
      omega)
    rw [hposition, List.map_map] at hslid
    rw [List.map_map]
    exact hslid

end Touched

section Incremental

variable {workspace : Workspace}
variable {replacements : List Replacement}

/-- An excision leaves the right tokens around the text that has to be lexed again. -/
theorem exists_excised
    (hgrammar : grammar.WellBehaved)
    (h : workspace.Describes grammar before view)
    (hturns : before.Turns after replacements)
    (hjoin : Edit.join replacements = .ok edit)
    (hbefore : before.InRange)
    (hafter : after.InRange) :
    ∃ excision excised kept invalid behind front back,
      (excise before after edit).outcome workspace = (.ok excision, excised) ∧
      excision.span = ⟨Text.size kept, Text.size invalid⟩ ∧
      after.text = kept ++ (invalid ++ behind) ∧
      excised.Orderly after.generation (front ++ back) ∧
      Scans grammar 0 kept (invalid ++ behind) (front.map placed) ∧
      Scans grammar (Text.size kept + Text.size invalid) behind [] (back.map placed) := by
  have hgeneration := hturns.generation.symm
  have hgenerationBound := hafter.generation
  have hbeforeBound : before.size < positionBound := hbefore.size_lt
  have hafterBound : after.size < positionBound := hafter.size_lt
  obtain ⟨hregion, hedit⟩ := Edit.plausible_of_join hjoin
  obtain ⟨start, old, new, stop, hbeforeText, hafterText, hstart, hold, hnew⟩ :=
    Text.exists_changed_of_replaceAll hturns.text hjoin
  obtain ⟨front, middle, back, rfl, hdivided⟩ := h.orderly.layout.exists_divided edit.region
  obtain ⟨kept, ahead, behind, rest, rfl, rfl, htouched⟩ :=
    exists_touched h.scans hbeforeBound hbeforeText hstart hold hdivided
  have hbeforeText' : before.text = kept ++ (ahead ++ old ++ behind ++ rest) := by
    rw [hbeforeText]
    simp only [List.append_assoc]
  have hafterText' : after.text = kept ++ (ahead ++ new ++ behind ++ rest) := by
    rw [hafterText]
    simp only [List.append_assoc]
  have hafterSize : after.size =
      Text.size kept + (Text.size (ahead ++ new ++ behind) + Text.size rest) := by
    rw [Document.size, hafterText', Text.size_append, Text.size_append]
  obtain ⟨hfront, hback⟩ := scans_of_touched hgrammar htouched hnew
  have hbeforeSize : before.size =
      Text.size kept + Text.size (ahead ++ old ++ behind) + Text.size rest := by
    rw [Document.size, hbeforeText', Text.size_append, Text.size_append, Nat.add_assoc]
  have hextent : Excision.extent before after edit (middle.map (·.2)) =
      .ok ⟨Text.size kept, Text.size (ahead ++ new ++ behind)⟩ := by
    have hfrontTiles := htouched.frontTokens.tiles (by omega)
    rw [Nat.zero_add] at hfrontTiles
    have hmiddleTiles := htouched.middleTokens.tiles (by omega)
    have hbackTiles := htouched.backTokens.tiles (by omega)
    rw [← hbeforeSize] at hbackTiles
    simp only [Text.size_append] at hstart hbeforeSize hafterSize hmiddleTiles hbackTiles ⊢
    rw [Excision.extent_of_tiles hdivided hedit hfrontTiles hmiddleTiles hbackTiles (by omega)
      hbeforeBound hafterBound (by omega)]
    congr 2
    omega
  have hsettle : Excision.settle before after edit middle =
      .ok ⟨middle.map Prod.fst, ⟨Text.size kept, Text.size (ahead ++ new ++ behind)⟩⟩ := by
    refine Excision.settle_eq_ok_iff.mpr
      ⟨hgeneration, hgenerationBound, hextent, ?_, ?_, rfl⟩
    · exact Span.fits_mk.mpr (by omega)
    · dsimp only
      omega
  have hrange : ∀ entry ∈ back,
      entry.2.start + entry.2.length + edit.delta < positionBound := by
    intro entry hentry
    have hslid : placed (edit.slideEntry entry) ∈ (back.map edit.slideEntry).map placed :=
      List.mem_map_of_mem (List.mem_map_of_mem hentry)
    obtain ⟨-, hstop, -, -⟩ := (hback.tiles (by omega)).bounds_of_mem hslid
    have hstop' : (entry.2.start + edit.delta).toNat + entry.2.length ≤
        Text.size kept + Text.size (ahead ++ new ++ behind) + Text.size rest := hstop
    omega
  have horderly := h.orderly.excised (by omega) hdivided hedit hrange
  rw [hgeneration] at horderly
  refine ⟨⟨middle.map Prod.fst, _⟩, _, kept, ahead ++ new ++ behind, rest, front, _, ?_, rfl,
    hafterText', horderly, hfront, hback⟩
  rw [Excision.outcome_excise h.orderly.layout hregion hdivided, hsettle]

/-- What a realignment has read can be merged, and then every token is right. -/
theorem exists_merged
    {kept invalid behind : Text}
    (hgrammar : grammar.PrefixStable)
    (classify : Nat → TokenClass)
    (h : workspace.Orderly document.generation (front ++ back))
    (htext : document.text = kept ++ (invalid ++ behind))
    (hbound : document.size < positionBound)
    (hfront : Scans grammar 0 kept (invalid ++ behind) (front.map placed))
    (hback : Scans grammar (Text.size kept + Text.size invalid) behind [] (back.map placed)) :
    ∃ realignment merged view',
      realign workspace.store (.ofGrammar grammar classify) document
        ⟨Text.size kept, Text.size invalid⟩ = .ok realignment ∧
      (merge realignment).outcome workspace = (.ok (), merged) ∧
      merged.Describes grammar document view' := by
  have hsize := hbound
  rw [Document.size, htext, Text.size_append, Text.size_append] at hsize
  have hfrontTiles := hfront.tiles (by omega)
  rw [Nat.zero_add] at hfrontTiles
  obtain ⟨realignment, superseded, rest, replaced, remaining, hrealign, rfl, rfl, hmeets⟩ :=
    Realignment.exists_realign_eq_ok hgrammar classify h.layout.toArrangement htext hbound
      hfrontTiles hback.cuts
  rw [List.map_append] at hback
  obtain ⟨-, hrest⟩ := hback.of_cuts hmeets.supersededCuts
  rw [Nat.add_assoc, ← Text.size_append] at hrest
  rw [Text.size_append] at hsize
  have hnewTiles := hmeets.scans.tiles (by
    rw [Text.size_append]
    omega)
  have hrestTiles := hrest.tiles (by
    rw [Text.size_append]
    omega)
  have hahead : ∀ entry ∈ front,
      entry.2.start < Text.size kept ∧ entry.2.start + entry.2.length ≤ Text.size kept := by
    intro entry hentry
    obtain ⟨-, hstop, hpositive⟩ := hfrontTiles.bounds_of_entry hentry
    exact ⟨by omega, hstop⟩
  have hbehind : ∀ entry ∈ rest,
      Text.size kept + Text.size (invalid ++ replaced) ≤ entry.2.start :=
    fun entry hentry => (hrestTiles.bounds_of_entry hentry).1
  rw [← List.append_assoc] at h
  obtain ⟨merged, hmerge, horderly⟩ :=
    Revision.outcome_merge h hmeets.superseded_eq hnewTiles hahead hbehind
  refine ⟨realignment, merged, _, hrealign, hmerge, horderly, ?_⟩
  have hwhole : document.text = kept ++ (invalid ++ replaced) ++ remaining := by
    rw [htext]
    simp only [List.append_assoc]
  rw [List.map_append, List.map_append, map_placed_number, hwhole]
  refine Scans.append (Scans.append ?_ ?_) ?_
  · rw [List.append_nil, List.append_assoc]
    exact hfront
  · rw [List.append_nil, Nat.zero_add]
    exact hmeets.scans
  · rw [Text.size_append, Nat.zero_add]
    exact hrest

section Stages

variable {tokenizer : Tokenizer}
variable {classify : Nat → TokenClass}
variable {progress : Progress}

/-- An update from a described document goes through all its stages, and the store that comes out
describes the next generation. -/
theorem exists_describing_stages
    (hgrammar : grammar.WellBehaved)
    (hlexer : tokenizer.lexer = .ofGrammar grammar classify)
    (h : Workspace.Describes ⟨tokenizer.store, progress.nextId⟩ grammar before view)
    (hlineage : before.version.lineage = tokenizer.document.version.lineage)
    (hturns : before.Turns after replacements)
    (hsome : replacements ≠ [])
    (hbefore : before.InRange)
    (hafter : after.InRange) :
    ∃ stages : Stages tokenizer before after replacements progress.nextId,
    ∃ view',
      Workspace.Describes ⟨stages.store, stages.merged.nextId⟩ grammar after view' := by
  obtain ⟨edit, hjoin⟩ :=
    Text.exists_join_of_replaceAll hturns.text hsome hbefore.size hafter.size
  obtain ⟨excision, excised, kept, invalid, behind, front, back, hexcise, hspan, htext, horderly,
      hfront, hback⟩ :=
    exists_excised hgrammar h hturns hjoin hbefore hafter
  obtain ⟨realignment, merged, mergedView, hrealign, hmerge, hmerged⟩ :=
    exists_merged hgrammar.prefixStable classify horderly htext hafter.size_lt hfront hback
  rw [← hspan, ← hlexer] at hrealign
  obtain ⟨store, view', hcompact, hcompacted, hview'⟩ :=
    Tokenizer.orderly_compactBeyond tokenizer.settings hmerged.orderly
  have hscans := hmerged.scans
  rw [← map_placed_of_map_face hview'] at hscans
  exact ⟨{
    edit := edit
    excision := excision
    excised := excised
    realignment := realignment
    merged := merged
    store := store
    lineage := hlineage
    version := h.orderly.layout.version_eq
    join := hjoin
    excise := hexcise
    realign := hrealign
    merge := hmerge
    compact := hcompact }, view', hcompacted, hscans⟩

end Stages

end Incremental

end LiveTokens
