import Monkey.Proofs.Token.Segments

/-!
# Tokens tile their source

Nothing of a source text is lost in its tokens. Their spans follow each other in the source, each on
character boundaries and around the very text that the token shows, and what lies before, between
and behind them is spacing only.
-/

namespace Monkey

/-- The span has character boundaries of the source at both ends, and the piece between them. -/
def Span.Cuts (span : Span) (source piece : String) : Prop :=
  ∃ before after : String, source = before ++ piece ++ after ∧
    span.start = before.utf8ByteSize ∧ span.stop = (before ++ piece).utf8ByteSize

/-- The spans that tokens leave free between two positions. -/
def gaps (start finish : Nat) : List Token → List Span
  | [] => [⟨start, finish⟩]
  | token :: rest => ⟨start, token.span.start⟩ :: gaps token.span.stop finish rest

/-- The tokens tile the source from a position on. -/
structure Tiles (source : String) (start : Nat) (tokens : List Token) : Prop where
  kind : ∀ token ∈ tokens, token.kind ≠ .eof
  behind : ∀ token ∈ tokens, start ≤ token.span.start
  nonempty : ∀ token ∈ tokens, token.span.start < token.span.stop
  inside : ∀ token ∈ tokens, token.span.stop ≤ source.utf8ByteSize
  text : ∀ token ∈ tokens, token.span.Cuts source token.text
  ordered : tokens.Pairwise fun earlier later => earlier.span.stop ≤ later.span.start
  gaps : ∀ gap ∈ gaps start source.utf8ByteSize tokens,
    ∃ blank : String, gap.Cuts source blank ∧ Spacing blank.toList

theorem utf8ByteSize_ofList (text : List Char) : (String.ofList text).utf8ByteSize = byteWidth text := by
  rw [← byteWidth_toList, String.toList_ofList]

theorem Span.cuts_covering (before piece after : List Char) :
    (Span.covering (byteWidth before) piece).Cuts (String.ofList (before ++ piece ++ after))
      (String.ofList piece) := by
  refine ⟨String.ofList before, String.ofList after, ?_, ?_, ?_⟩
  · rw [String.ofList_append, String.ofList_append]
  · simp [covering, utf8ByteSize_ofList]
  · simp [covering, utf8ByteSize_ofList, String.utf8ByteSize_append]

theorem Span.Cuts.stop_le {span : Span} {source piece : String} (cuts : span.Cuts source piece) :
    span.stop ≤ source.utf8ByteSize := by
  rcases cuts with ⟨before, after, rfl, _, stop⟩
  rw [stop, String.utf8ByteSize_append (s := before ++ piece)]
  exact Nat.le_add_right _ _

theorem byteWidth_pos {text : List Char} (nonempty : text ≠ []) : 0 < byteWidth text := by
  cases text with
  | nil => exact absurd rfl nonempty
  | cons char rest => exact Nat.add_pos_left (Char.utf8Size_pos char) _

namespace Lexeme

theorem source_cut_ne_nil (char : Char) (text : List Char) : (cut char text).1.source ≠ [] := by
  intro empty
  have parts := congrArg List.length (source_append_cut char text)
  have shorter := length_cut_lt char text
  rw [empty] at parts
  simp at parts
  omega

/-- A lexeme splits the text around it in three. -/
theorem append_cut (before blank : List Char) (char : Char) (text : List Char) :
    before ++ (blank ++ char :: text) =
      before ++ blank ++ (cut char text).1.source ++ (cut char text).2 := by
  rw [List.append_assoc, List.append_assoc, source_append_cut]

theorem text_cutString (position : Nat) (text : List Char) :
    (Token.ofLexeme position (cutString text).1).text = String.ofList (cutString text).1.source := by
  rw [cutString]
  split
  · rfl
  · rename_i quote rest closed
    have isQuote : quote = '"' := by
      have notSkipped := List.head?_dropWhile_not (· ≠ '"') text
      rw [closed] at notSkipped
      simpa using notSkipped
    rw [isQuote]
    apply String.toList_injective
    simp [Token.ofLexeme, Token.text]

theorem text_cut (position : Nat) (char : Char) (text : List Char) :
    (Token.ofLexeme position (cut char text).1).text = String.ofList (cut char text).1.source := by
  rw [cut]
  split
  · split <;> rfl
  · split
    · exact text_cutString position text
    · split
      · rfl
      · split
        · simp only [plain, wordKind]
          split <;> rfl
        · rfl

end Lexeme

namespace Tiles

theorem nil {before blank : List Char} (spacing : Spacing blank) :
    Tiles (String.ofList (before ++ blank)) (byteWidth before) [] := by
  refine ⟨nofun, nofun, nofun, nofun, nofun, .nil, fun gap member => ?_⟩
  rw [Monkey.gaps, List.mem_singleton] at member
  have cuts := Span.cuts_covering before blank []
  refine ⟨String.ofList blank, ?_, by simpa using spacing⟩
  simpa [member, Span.covering, utf8ByteSize_ofList] using cuts

theorem cons {before blank piece after : List Char} {token : Token} {rest : List Token}
    (spacing : Spacing blank) (nonempty : piece ≠ []) (kind : token.kind ≠ .eof)
    (span : token.span = .covering (byteWidth (before ++ blank)) piece)
    (text : token.text = String.ofList piece)
    (tiles : Tiles (String.ofList (before ++ blank ++ piece ++ after))
      (byteWidth (before ++ blank ++ piece)) rest) :
    Tiles (String.ofList (before ++ blank ++ piece ++ after)) (byteWidth before) (token :: rest) := by
  have width := byteWidth_pos nonempty
  have start : token.span.start = byteWidth before + byteWidth blank := by
    simp [span, Span.covering]
  have stop : token.span.stop = byteWidth (before ++ blank ++ piece) := by
    simp [span, Span.covering, Nat.add_assoc]
  have cuts : token.span.Cuts (String.ofList (before ++ blank ++ piece ++ after)) token.text := by
    rw [span, text]
    exact Span.cuts_covering (before ++ blank) piece after
  have blankCuts := Span.cuts_covering before blank (piece ++ after)
  refine ⟨?_, ?_, ?_, ?_, ?_, ?_, ?_⟩
  · exact List.forall_mem_cons.mpr ⟨kind, tiles.kind⟩
  · refine List.forall_mem_cons.mpr ⟨by omega, fun later member => ?_⟩
    have behind := tiles.behind later member
    simp only [byteWidth_append] at behind
    omega
  · refine List.forall_mem_cons.mpr ⟨?_, tiles.nonempty⟩
    simp only [start, stop, byteWidth_append]
    omega
  · exact List.forall_mem_cons.mpr ⟨cuts.stop_le, tiles.inside⟩
  · exact List.forall_mem_cons.mpr ⟨cuts, tiles.text⟩
  · exact List.pairwise_cons.mpr ⟨fun later member => stop ▸ tiles.behind later member, tiles.ordered⟩
  · refine List.forall_mem_cons.mpr ⟨⟨String.ofList blank, ?_, by simpa using spacing⟩, ?_⟩
    · simpa [start, Span.covering] using blankCuts
    · simpa [stop] using tiles.gaps

end Tiles

theorem Segmented.tiles {position : Nat} {text : List Char} {tokens : List Token}
    (segmented : Segmented position text tokens) :
    ∀ before : List Char, position = byteWidth before →
      ∃ pieces, tokens = pieces ++ [.eof (byteWidth (before ++ text))] ∧
        Tiles (String.ofList (before ++ text)) (byteWidth before) pieces := by
  -- What stands before the text is carried along, so that spans are looked up in the whole source.
  induction segmented with
  | @spacing position blank spacing =>
      rintro before rfl
      exact ⟨[], by simp, .nil spacing⟩
  | @lexeme position blank text char tokens spacing solid _ ih =>
      rintro before rfl
      rw [Lexeme.append_cut]
      rcases ih (before ++ blank ++ (Lexeme.cut char text).1.source) (by simp [Nat.add_assoc])
        with ⟨pieces, rfl, tiles⟩
      refine ⟨_ :: pieces, rfl, ?_⟩
      exact .cons spacing (Lexeme.source_cut_ne_nil char text) (Lexeme.kind_cut_ne_eof char text)
        (by simp [Token.ofLexeme]) (Lexeme.text_cut _ char text) tiles

/-- The tokens of a source text are the end of the source, at its last position, and in front of it
tokens that tile the source. -/
theorem tokenize_tiles (source : String) :
    ∃ pieces, tokenize source =
        pieces ++ [⟨.eof, "", ⟨source.utf8ByteSize, source.utf8ByteSize⟩⟩] ∧
      Tiles source 0 pieces := by
  rcases (segmented_tokenize source).tiles [] rfl with ⟨pieces, tokens, tiles⟩
  refine ⟨pieces, ?_, by simpa using tiles⟩
  rw [tokens, List.nil_append, byteWidth_toList, Token.eof]

end Monkey
