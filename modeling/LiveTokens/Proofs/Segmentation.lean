import LiveTokens.Proofs.Assembly

/-!
# Segments do not matter

A text may be supplied to a scanner in any number of segments, empty ones
included, and it may start anywhere in a document.  With a prefix-stable grammar,
such as that of assembly texts, the scanner finds the same tokens as in the whole
text, only further on.  A token that runs over many segments is found whole.
-/

namespace LiveTokens

namespace Scanner

variable {grammar : Grammar}

theorem prefixStable_of_or
    (hgrammar : grammar = Assembly.scan ∨ grammar.PrefixStable) :
    grammar.PrefixStable := by
  rcases hgrammar with rfl | hgrammar
  · exact Assembly.wellBehaved_scan.prefixStable
  · exact hgrammar

/-- The scanner returns the tokens of the text of all segments, and nothing else. -/
theorem exists_results_scan
    (hgrammar : grammar.PrefixStable)
    (offset : Nat)
    (segments : List Text)
    (hbound : offset + Text.size segments.flatten < positionBound) :
    ∃ tokens,
      Scans grammar offset segments.flatten [] tokens ∧
      (scan grammar offset segments).items.map (·.result) = tokens.map .ok := by
  obtain ⟨tokens, htokens, hcomplete⟩ :=
    Lexer.exists_complete_run hgrammar (fun _ => .unknown) offset segments hbound
  exact ⟨tokens, htokens, hcomplete.results⟩

/-- Whatever segments a text comes in and wherever it starts, the scanner returns the tokens that it
returns for the whole text at the start of a document, moved by the offset, and then ends. -/
theorem results_scan_segments
    (hgrammar : grammar = Assembly.scan ∨ grammar.PrefixStable)
    (offset : Nat)
    (segments : List Text)
    (hbound : offset + Text.size segments.flatten < positionBound) :
    ∃ tokens,
      Scans grammar 0 segments.flatten [] tokens ∧
      (scan grammar 0 [segments.flatten]).items.map (·.result) = tokens.map .ok ∧
      (scan grammar offset segments).items.map (·.result) =
        tokens.map fun token => .ok ⟨token.kind, token.span.slide offset⟩ := by
  have hstable := prefixStable_of_or hgrammar
  obtain ⟨tokens, htokens, hwhole⟩ :=
    exists_results_scan hstable 0 [segments.flatten] (by rw [List.flatten_singleton]; omega)
  obtain ⟨moved, hmoved, hsegments⟩ := exists_results_scan hstable offset segments hbound
  rw [List.flatten_singleton] at htokens
  have hslide := htokens.slide offset (by omega)
  have hstart : (((0 : Nat) : Int) + offset).toNat = offset := by omega
  rw [hstart] at hslide
  obtain rfl := hmoved.unique hslide
  refine ⟨tokens, htokens, hwhole, ?_⟩
  rw [hsegments, List.map_map]
  rfl

/-- Both marks of the comment and the line end are cut, and the second segment is empty. -/
theorem results_scan_cut_comment :
    7 + Text.size ['/', '*', ' ', '*', '/', 'b', '\r', '\n'] < positionBound ∧
    (scan Assembly.scan 7 [['/'], [], ['*', ' ', '*'], ['/', 'b', '\r'], ['\n']]).items.map
        (·.result) =
      [.ok ⟨Assembly.Kind.blockComment.code, ⟨7, 5⟩⟩, .ok ⟨Assembly.Kind.identifier.code, ⟨12, 1⟩⟩,
        .ok ⟨Assembly.Kind.eol.code, ⟨13, 2⟩⟩] := by
  have hbound : 7 + Text.size ['/', '*', ' ', '*', '/', 'b', '\r', '\n'] < positionBound := by
    decide
  obtain ⟨tokens, -, hwhole, hsegments⟩ :=
    results_scan_segments (.inl rfl) 7 [['/'], [], ['*', ' ', '*'], ['/', 'b', '\r'], ['\n']] hbound
  have hlex : (scan Assembly.scan 0 [['/', '*', ' ', '*', '/', 'b', '\r', '\n']]).items.map
      (·.result) =
        [⟨Assembly.Kind.blockComment.code, ⟨0, 5⟩⟩, ⟨Assembly.Kind.identifier.code, ⟨5, 1⟩⟩,
          ⟨Assembly.Kind.eol.code, ⟨6, 2⟩⟩].map .ok := by
    decide +kernel
  have htokens := hwhole.symm.trans hlex
  rw [List.map_inj_right fun _ _ => Except.ok.inj] at htokens
  rw [hsegments, htokens]
  exact ⟨hbound, rfl⟩

end Scanner

end LiveTokens
