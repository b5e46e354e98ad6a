import TypeNotation.Proofs.Grammar.Annotation
import TypeNotation.Proofs.Grammar.Separators
import TypeNotation.Proofs.Lexical.MaximalMunch

/-!
# Layout and commas say nothing

An annotation may be laid out anew: its words may be moved apart by any layout, as long as there is
some between neighbours, and some of its commas may go. A word in front of layout is the token that
it was, so the tokens are the same but for the commas, and these make no difference to the type.
-/

namespace TypeNotation

/-! ## Words of a text -/

theorem eq_nil_of_utf8Length_append {text more : List Char}
    (h : utf8Length (text ++ more) = utf8Length text) : more = [] := by
  by_contra hne
  have hpos := utf8Length_pos hne
  rw [utf8Length_append] at h
  omega

/-- Where a part of a text ends is determined by its bytes. -/
theorem append_inj_of_utf8Length_eq {first first' rest rest' : List Char}
    (h : first ++ rest = first' ++ rest') (hlength : utf8Length first = utf8Length first') :
    first = first' ∧ rest = rest' := by
  rcases List.append_eq_append_iff.mp h with ⟨middle, rfl, rfl⟩ | ⟨middle, rfl, rfl⟩
  · rw [eq_nil_of_utf8Length_append hlength.symm, List.append_nil, List.nil_append]
    exact ⟨rfl, rfl⟩
  · rw [eq_nil_of_utf8Length_append hlength, List.append_nil, List.nil_append]
    exact ⟨rfl, rfl⟩

theorem StandsAt.unique {text word word' : List Char} {span : Span} (h : StandsAt text span word)
    (h' : StandsAt text span word') : word = word' := by
  obtain ⟨before, behind, rfl, rfl⟩ := h
  obtain ⟨before', behind', htext, hspan⟩ := h'
  obtain ⟨hstart, hstop⟩ := Span.mk.inj hspan
  obtain ⟨-, hrest⟩ := append_inj_of_utf8Length_eq htext hstart
  exact (append_inj_of_utf8Length_eq hrest (by omega)).1

/-- What stands at the span of a token is what the token was made of. -/
theorem exists_isLexeme_of_tokenize {source : String} {located : List Located}
    (h : tokenize source = .ok located) :
    ∀ place ∈ located, ∃ word, StandsAt source.toList place.span word ∧
      IsLexeme word place.token := by
  have hpieces : (Scanner.ofSource source).cursor.pieces = piecesOf located :=
    tokenize_eq_ok_iff.mp h
  obtain ⟨words, -, hwords⟩ := Scanner.exists_laidOut (Cursor.isIn_atStart source.toList) hpieces
  exact ((List.forall₂_and_left _ _).mp (hwords.imp fun _ word hword ↦ ⟨⟨word, hword⟩, hword⟩)).1

theorem isLexeme_of_standsAt {source : String} {located kept : List Located}
    {words : List (List Char)} (htokens : tokenize source = .ok located)
    (hkept : ∀ place ∈ kept, place ∈ located)
    (hwords : List.Forall₂ (fun place word ↦ StandsAt source.toList place.span word) kept words) :
    List.Forall₂ (fun place word ↦ IsLexeme word place.token) kept words := by
  have hmade := exists_isLexeme_of_tokenize htokens
  have hboth := (List.forall₂_and_left _ _).mpr
    ⟨fun place hplace ↦ hmade place (hkept place hplace), hwords⟩
  refine hboth.imp ?_
  rintro place word ⟨⟨word', hword', hlexeme⟩, hword⟩
  rwa [hword.unique hword']

/-! ## Laying words out -/

/-- The words stand in the text with layout behind each of them, and some between neighbours. -/
inductive Spread : List Char → List (List Char) → Prop
  | last {word layout : List Char} (hlayout : ∀ c ∈ layout, isLayout c = true) :
      Spread (word ++ layout) [word]
  | cons {word layout rest : List Char} {words : List (List Char)}
      (hlayout : ∀ c ∈ layout, isLayout c = true) (hne : layout ≠ []) (htail : Spread rest words) :
      Spread (word ++ (layout ++ rest)) (word :: words)

theorem Scans.layout_append {layout text rest : List Char} {tokens : List Token}
    (hlayout : ∀ c ∈ layout, isLayout c = true) (h : Scans text tokens rest) :
    Scans (layout ++ text) tokens rest := by
  induction layout with
  | nil => exact h
  | cons c layout ih =>
    obtain ⟨hc, hlayout⟩ := List.forall_mem_cons.mp hlayout
    exact .layout hc (ih hlayout)

theorem extendsLexeme_of_isLayout {c : Char} (h : isLayout c = true) : extendsLexeme c = false := by
  rcases isLayout_cases h with rfl | rfl | rfl | rfl | rfl <;> rfl

theorem endsRun_of_forall_isLayout {layout : List Char} (h : ∀ c ∈ layout, isLayout c = true) :
    EndsRun extendsLexeme layout :=
  fun c hc ↦ extendsLexeme_of_isLayout (h c (List.mem_of_mem_head? hc))

/-- Words that are lexemes are scanned as their tokens wherever they are laid out. -/
theorem Spread.scans {text : List Char} {words : List (List Char)} (h : Spread text words)
    {located : List Located}
    (hwords : List.Forall₂ (fun place word ↦ IsLexeme word place.token) located words) :
    Scans text (tokensOf located) [] := by
  induction h generalizing located with
  | last hlayout =>
    obtain ⟨place, _, hword, hnil, rfl⟩ := List.forall₂_cons_right_iff.mp hwords
    rw [List.forall₂_nil_right_iff.mp hnil]
    have hbehind : Scans (_ ++ []) [] [] := .layout_append hlayout .done
    rw [List.append_nil] at hbehind
    exact .lexeme (hword.lexemeAt?_append (endsRun_of_forall_isLayout hlayout)) hbehind
  | cons hlayout hne _ ih =>
    obtain ⟨place, others, hword, hothers, rfl⟩ := List.forall₂_cons_right_iff.mp hwords
    have hends := (endsRun_of_forall_isLayout hlayout).append_of_ne_nil hne
    exact .lexeme (hword.lexemeAt?_append (hends _)) (.layout_append hlayout (ih hothers))

/-! ## The same type -/

/-- **Layout and commas say nothing.** Take an annotation that is a type, leave out any of its
commas, and write the words of the other tokens with any layout in front, between and behind, some
at least between neighbours: that is the same type. -/
theorem parse_spread {source : String} {t : TypeExpr} {located kept : List Located}
    {words : List (List Char)} {layout text : List Char}
    (hparse : parse source = .ok t) (htokens : tokenize source = .ok located)
    (hkept : LeavesOut (fun place ↦ place.token = .symbol .comma) located kept)
    (hwords : List.Forall₂ (fun place word ↦ StandsAt source.toList place.span word) kept words)
    (hlayout : ∀ c ∈ layout, isLayout c = true) (htext : Spread text words) :
    parse (String.ofList (layout ++ text)) = .ok t := by
  have hlexemes := isLexeme_of_standsAt htokens hkept.subset hwords
  have hscans : Scans (String.ofList (layout ++ text)).toList (tokensOf kept) [] := by
    rw [String.toList_ofList]
    exact .layout_append hlayout (htext.scans hlexemes)
  obtain ⟨relocated, hrelocated, htokensOf⟩ := hscans.tokenize
  obtain ⟨located', htokens', hderives⟩ := parse_eq_ok_iff.mp hparse
  obtain rfl : located' = located := Except.ok.inj (htokens'.symm.trans htokens)
  refine parse_eq_ok_iff.mpr ⟨relocated, hrelocated, ?_⟩
  rw [htokensOf]
  exact hderives.withoutCommas (hkept.map Located.token fun _ hcomma ↦ hcomma)

/-- A function with a comma behind its parameter; then without it, and with each word on a line. -/
theorem parse_spread_without_comma :
    parse "(a,)" = .ok (.function [.unnamed (.entity "a")] none) ∧
      parse (String.ofList ("\t".toList ++ "(\n a\r\n)\n".toList)) =
        .ok (.function [.unnamed (.entity "a")] none) := by
  have htokens : tokenize "(a,)" = .ok
      [⟨.symbol .leftParen, ⟨0, 1⟩⟩, ⟨.identifier "a", ⟨1, 2⟩⟩, ⟨.symbol .comma, ⟨2, 3⟩⟩,
        ⟨.symbol .rightParen, ⟨3, 4⟩⟩] := by decide +kernel
  have hparse : parse "(a,)" = .ok (.function [.unnamed (.entity "a")] none) :=
    parse_eq_ok_iff.mpr ⟨_, htokens, .function (.consComma (.unnamed (.entity "a" [])) .nil)⟩
  have hopen : StandsAt "(a,)".toList ⟨0, 1⟩ ['('] := ⟨[], ['a', ',', ')'], rfl, rfl⟩
  have hname : StandsAt "(a,)".toList ⟨1, 2⟩ ['a'] := ⟨['('], [',', ')'], rfl, rfl⟩
  have hclose : StandsAt "(a,)".toList ⟨3, 4⟩ [')'] := ⟨['(', 'a', ','], [], rfl, rfl⟩
  have hlast : Spread ")\n".toList [[')']] := @Spread.last [')'] ['\n'] (List.all_eq_true.mp rfl)
  have hsecond : Spread "a\r\n)\n".toList [['a'], [')']] :=
    @Spread.cons ['a'] ['\r', '\n'] _ _ (List.all_eq_true.mp rfl) (List.cons_ne_nil _ _) hlast
  have htext : Spread "(\n a\r\n)\n".toList [['('], ['a'], [')']] :=
    @Spread.cons ['('] ['\n', ' '] _ _ (List.all_eq_true.mp rfl) (List.cons_ne_nil _ _) hsecond
  exact ⟨hparse, parse_spread hparse htokens (.keep _ (.keep _ (.drop rfl (.keep _ .nil))))
    (.cons hopen (.cons hname (.cons hclose .nil))) (List.all_eq_true.mp rfl) htext⟩

end TypeNotation
