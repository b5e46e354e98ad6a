import Mathlib.Data.Set.Function
import Mathlib.Tactic.TFAE
import TypeNotation.Proofs.Canonical.WellFormed
import TypeNotation.Proofs.Grammar.Annotation
import TypeNotation.Proofs.Lexical.Strings

/-!
# Canonical form and back

The canonical form of a well-formed type is read as that type. Its tokens are those of a derivation
in which every separator is a comma, and they are found again because behind each name and number
something is written that neither can go on with. Reading therefore reaches the well-formed types
and no others, each of them from its canonical form.
-/

namespace TypeNotation

/-! ## Texts and their tokens -/

/-- The text is scanned to the tokens, whatever is behind it that does not make a lexeme longer. -/
def Spells (text : List Char) (tokens : List Token) : Prop :=
  ∀ rest, EndsRun extendsLexeme rest → Scans (text ++ rest) tokens rest

theorem spells_nil : Spells [] [] := fun _ _ ↦ .done

theorem spells_of_lexemeAt? {word : List Char} {token : Token}
    (h : ∀ rest, EndsRun extendsLexeme rest →
      lexemeAt? (word ++ rest) = some (token, word.length)) : Spells word [token] :=
  fun rest hrest ↦ .lexeme (h rest hrest) .done

theorem spells_number {text : String} (h : IsNumber text.toList) :
    Spells text.toList [.number text] :=
  spells_of_lexemeAt? fun _ hrest ↦ by
    rw [lexemeAt?_number h (isNumberPart_of_extends hrest), String.ofList_toList]

theorem spells_string (value : String) : Spells (canonicalString value.toList) [.string value] :=
  spells_of_lexemeAt? fun rest _ ↦ lexemeAt?_canonicalString value rest

/-! ## Dotted names -/

theorem IsWord.endsRun_dot {word : List Char} (h : IsWord word) (rest : List Char) :
    EndsRun (· = '.') (word ++ rest) := by
  obtain ⟨hstart, -⟩ := h
  rw [List.cons_append, endsRun_cons, decide_eq_false_iff_not]
  rintro rfl
  cases hstart

theorem spells_segments {segments : List String} (h : ∀ part ∈ segments, IsIdentifier part) :
    Spells (segments.flatMap fun part ↦ '.' :: part.toList) (segmentTokens segments) := by
  induction segments with
  | nil => exact spells_nil
  | cons part segments ih =>
    obtain ⟨hpart, hsegments⟩ := List.forall_mem_cons.mp h
    intro rest hrest
    have hends := endsRun_segments segments (isIdentifierPart_of_extends hrest)
    rw [List.flatMap_cons, List.append_assoc, List.cons_append]
    exact .mark (lexemeAt?_dot (hpart.word.endsRun_dot _))
      (.lexeme (lexemeAt?_identifier hpart hends) (ih hsegments rest hrest))

/-- A dotted name is scanned to its parts and the dots between them. -/
theorem spells_dotted {first : String} {segments : List String}
    (h : ∀ part ∈ first :: segments, IsIdentifier part) :
    Spells (".".intercalate (first :: segments)).toList
      (.identifier first :: segmentTokens segments) := by
  obtain ⟨hfirst, hsegments⟩ := List.forall_mem_cons.mp h
  intro rest hrest
  have hends := endsRun_segments segments (isIdentifierPart_of_extends hrest)
  rw [toList_intercalate_dot, List.append_assoc]
  exact .lexeme (lexemeAt?_identifier hfirst hends) (spells_segments hsegments rest hrest)

/-! ## Lists, parameters and members -/

/-- If each item is scanned to tokens of its own, the list is scanned to the tokens of a list with
commas. -/
theorem spells_listed {α : Type} {Item : List Token → α → Prop} {write : α → List Char}
    {items : List α} (h : ∀ a ∈ items, ∃ tokens, Item tokens a ∧ Spells (write a) tokens) :
    ∃ tokens, ListOf Item tokens items ∧ Spells (listed (items.map write)) tokens := by
  induction items with
  | nil => exact ⟨[], .nil, spells_nil⟩
  | cons a items ih =>
    obtain ⟨⟨first, hitem, hfirst⟩, hitems⟩ := List.forall_mem_cons.mp h
    obtain ⟨tokens, hlist, htokens⟩ := ih hitems
    cases items with
    | nil =>
      refine ⟨first ++ [], .cons hitem .nil, ?_⟩
      rw [List.append_nil]
      simpa [listed] using hfirst
    | cons second items =>
      refine ⟨first ++ .symbol .comma :: tokens, .consComma hitem hlist, fun rest hrest ↦ ?_⟩
      have hsplit : listed ((a :: second :: items).map write) ++ rest =
          write a ++ (',' :: ' ' :: (listed ((second :: items).map write) ++ rest)) := by
        simp [listed]
      rw [hsplit]
      -- the comma ends the item in front of it
      exact (hfirst _ (endsRun_cons.mpr rfl)).append
        (.mark rfl (.layout rfl (htokens rest hrest)))

theorem spells_typed {name : String} {text : List Char} {tokens : List Token}
    (hname : IsIdentifier name) (h : Spells text tokens) :
    Spells (name.toList ++ ':' :: ' ' :: text)
      (.identifier name :: .symbol .colon :: tokens) := by
  intro rest hrest
  rw [List.append_assoc]
  exact .lexeme (lexemeAt?_identifier hname (endsRun_cons.mpr rfl))
    (.mark rfl (.layout rfl (h rest hrest)))

theorem spells_param {param : Param} (hparam : param.HasRegularName)
    (htype : ∃ tokens, Derives tokens param.type ∧ Spells param.type.canonicalChars tokens) :
    ∃ tokens, DerivesParam tokens param ∧ Spells param.canonicalChars tokens := by
  obtain ⟨tokens, hderives, htokens⟩ := htype
  rcases hparam.cases with heq | ⟨name, hname, heq | heq⟩
  · rw [heq]
    exact ⟨tokens, .unnamed hderives, htokens⟩
  · rw [heq]
    refine ⟨_, .named name hderives, ?_⟩
    simpa [Param.named, Param.canonicalChars] using spells_typed hname htokens
  · rw [heq]
    refine ⟨_, .variadic name hderives, fun rest hrest ↦ ?_⟩
    have hellipsis (text : List Char) :
        lexemeAt? (['.', '.', '.'] ++ text) = some (.symbol .ellipsis, 3) := rfl
    have hscan := Scans.lexeme (hellipsis _) (spells_typed hname htokens rest hrest)
    simpa [Param.variadic, Param.canonicalChars] using hscan

theorem spells_member {member : Member} (hname : IsIdentifier member.name)
    (htype : ∃ tokens, Derives tokens member.type ∧ Spells member.type.canonicalChars tokens) :
    ∃ tokens, DerivesMember tokens member ∧ Spells member.canonicalChars tokens := by
  obtain ⟨tokens, hderives, htokens⟩ := htype
  obtain ⟨name, type⟩ := member
  exact ⟨_, .mk name hderives, spells_typed hname htokens⟩

theorem spells_result {result : Option TypeExpr}
    (h : ∀ t ∈ result, ∃ tokens, Derives tokens t ∧ Spells t.canonicalChars tokens) :
    ∃ tokens, DerivesResult tokens result ∧ Spells (canonicalResult result) tokens := by
  cases result with
  | none => exact ⟨[], .none, spells_nil⟩
  | some t =>
    obtain ⟨tokens, hderives, htokens⟩ := h t rfl
    exact ⟨_, .some hderives, fun rest hrest ↦
      .layout rfl (.mark rfl (.layout rfl (htokens rest hrest)))⟩

/-- A closing character ends whatever it closes. -/
theorem Spells.closed {text : List Char} {tokens : List Token} {c : Char} {close : Symbol}
    (h : Spells text tokens) (hclose : extendsLexeme c = false)
    (hmark : ∀ rest, lexemeAt? (c :: rest) = some (.symbol close, 1)) (rest : List Char) :
    Scans (text ++ [c] ++ rest) (tokens ++ [.symbol close]) rest := by
  rw [List.append_assoc]
  exact (h _ (endsRun_cons.mpr hclose)).append (.mark (hmark rest) .done)

/-! ## Types -/

/-- The canonical form of a well-formed type is scanned to tokens that derive it. -/
theorem TypeExpr.WellFormed.spells_canonical {t : TypeExpr} (h : t.WellFormed) :
    ∃ tokens, Derives tokens t ∧ Spells t.canonicalChars tokens := by
  induction h with
  | any => exact ⟨_, .any, fun rest _ ↦ .mark rfl .done⟩
  | entity hname =>
    obtain ⟨first, segments, hparts, rfl⟩ := hname
    exact ⟨_, .entity first segments, spells_dotted hparts⟩
  | nullable _ ih =>
    obtain ⟨tokens, hderives, htokens⟩ := ih
    exact ⟨_, .nullable hderives, fun rest hrest ↦ .mark rfl (htokens rest hrest)⟩
  | union _ ih =>
    obtain ⟨tokens, hlist, htokens⟩ := spells_listed ih
    refine ⟨_, .union hlist, fun rest hrest ↦ ?_⟩
    have hkeyword (text : List Char) :
        lexemeAt? ("union".toList ++ '<' :: text) = some (.symbol .union, 5) :=
      lexemeAt?_word (by decide) (endsRun_cons.mpr rfl)
    have hclose (text : List Char) : lexemeAt? ('>' :: text) = some (.symbol .greater, 1) := rfl
    have hscan := Scans.lexeme (hkeyword _) (.mark rfl (htokens.closed rfl hclose rest))
    rw [canonicalChars_union]
    simpa using hscan
  | function hnames _ _ ihtypes ihresult =>
    obtain ⟨tokens, hlist, htokens⟩ :=
      spells_listed fun param hparam ↦ spells_param (hnames param hparam) (ihtypes param hparam)
    obtain ⟨resultTokens, hresult, hresultTokens⟩ := spells_result ihresult
    refine ⟨_, derives_leftParen_iff.mpr ⟨_, _, _, _, rfl, hlist, hresult, rfl⟩,
      fun rest hrest ↦ ?_⟩
    have hclose (text : List Char) : lexemeAt? (')' :: text) = some (.symbol .rightParen, 1) := rfl
    have hscan := (htokens.closed rfl hclose _).append (hresultTokens rest hrest)
    rw [canonicalChars_function]
    simpa using Scans.mark rfl hscan
  | array _ ih =>
    obtain ⟨tokens, hderives, htokens⟩ := ih
    exact ⟨_, .array hderives, fun rest _ ↦ .mark rfl (htokens.closed rfl (fun _ ↦ rfl) rest)⟩
  | object hnames _ ih =>
    obtain ⟨tokens, hlist, htokens⟩ :=
      spells_listed fun member hmember ↦ spells_member (hnames member hmember) (ih member hmember)
    refine ⟨_, .object hlist, fun rest _ ↦ ?_⟩
    rw [canonicalChars_object]
    exact .mark rfl (htokens.closed rfl (fun _ ↦ rfl) rest)
  | text value => exact ⟨_, .text value, spells_string value⟩
  | number htext => exact ⟨_, .number _, spells_number htext⟩

/-! ## Reading the canonical form -/

theorem TypeExpr.WellFormed.parse_canonical {t : TypeExpr} (h : t.WellFormed) :
    parse t.canonical = .ok t := by
  obtain ⟨tokens, hderives, htokens⟩ := h.spells_canonical
  have hscan : Scans t.canonical.toList tokens [] := by
    simpa using htokens [] endsRun_nil
  obtain ⟨located, htokenize, rfl⟩ := hscan.tokenize
  exact parse_eq_ok_iff.mpr ⟨located, htokenize, hderives⟩

theorem wellFormed_of_parse {source : String} {t : TypeExpr} (h : parse source = .ok t) :
    t.WellFormed := by
  obtain ⟨located, htokenize, hderives⟩ := parse_eq_ok_iff.mp h
  exact hderives.wellFormed fun _ ↦ isRegular_of_tokenize htokenize

/-- An annotation put in canonical form, unless it is none. -/
def canonicalize (source : String) : Except SyntaxError String :=
  (parse source).map TypeExpr.canonical

theorem canonicalize_of_ok {source : String} {t : TypeExpr} (h : parse source = .ok t) :
    canonicalize source = .ok t.canonical := by
  rw [canonicalize, h]
  rfl

theorem canonicalize_of_error {source : String} {error : SyntaxError}
    (h : parse source = .error error) : canonicalize source = .error error := by
  rw [canonicalize, h]
  rfl

/-- **Canonical form and reading are inverse to each other.** The types that some annotation denotes
are the well-formed ones, and they are those that are read back from their canonical form. So two
of them have different canonical forms, and putting an annotation in canonical form twice is the
same as doing it once. -/
theorem parse_canonical_round_trip :
    (∀ t : TypeExpr,
      [∃ source, parse source = .ok t, t.WellFormed, parse t.canonical = .ok t].TFAE) ∧
    {t | ∃ source, parse source = .ok t}.InjOn TypeExpr.canonical ∧
    ∀ source, (canonicalize source).bind canonicalize = canonicalize source := by
  refine ⟨fun t ↦ ?_, ?_, fun source ↦ ?_⟩
  · -- reading gives well-formed types only, and these come back from their canonical form
    tfae_have 1 → 2 := fun ⟨_, h⟩ ↦ wellFormed_of_parse h
    tfae_have 2 → 3 := fun h ↦ h.parse_canonical
    tfae_have 3 → 1 := fun h ↦ ⟨_, h⟩
    tfae_finish
  · rintro t ⟨source, ht⟩ t' ⟨source', ht'⟩ heq
    have hread := (wellFormed_of_parse ht).parse_canonical
    rw [heq, (wellFormed_of_parse ht').parse_canonical, Except.ok.injEq] at hread
    exact hread.symm
  · cases ht : parse source with
    | error error =>
      rw [canonicalize_of_error ht]
      rfl
    | ok t =>
      have hread := (wellFormed_of_parse ht).parse_canonical
      rw [canonicalize_of_ok ht]
      exact canonicalize_of_ok hread

end TypeNotation
