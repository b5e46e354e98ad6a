import TypeNotation.Proofs.Canonical.Files
import TypeNotation.Proofs.Lexical.Spellings
import TypeNotation.Token.Listing

/-!
# Listings tell the tokens

A listing shows each token on a line of its own. The numbers of the span end where the padding or
the dots begin, and what is behind them tells the kind of the token by its first character and its
value by what stands between the marks. The value of a string is shown as quoted text, which is one
of its own spellings: it is read again as the string, so it cannot be the same for two strings. In
it the line breaks are spelled, and a name or a number has none. So every token can be told from its
line, and the tokens of an annotation from their listing.
-/

namespace TypeNotation

/-! ## Quoted text is a spelling -/

theorem isHexDigit_digitChar {n : Nat} (h : n < 16) : IsHexDigit n.digitChar n := by
  have key : ∀ n < 16, "0123456789abcdef".toList[n]? = some n.digitChar := by decide
  exact .inl (key n h)

theorem exists_forall₂_write (n : Nat) :
    ∃ values, List.Forall₂ IsHexDigit (Hex.write n) values ∧
      Nat.ofDigits 16 values.reverse = n := by
  induction n using Nat.strongRecOn with
  | ind n ih =>
    rw [Hex.write, Nat.toDigits_eq_if (by decide)]
    by_cases hlt : n < 16
    · rw [if_pos hlt]
      exact ⟨[n], .cons (isHexDigit_digitChar hlt) .nil, Nat.ofDigits_singleton⟩
    · rw [if_neg hlt]
      obtain ⟨values, hdigits, hvalue⟩ := ih (n / 16) (by omega)
      have hlast : IsHexDigit (n % 16).digitChar (n % 16) :=
        isHexDigit_digitChar (Nat.mod_lt n (by decide))
      refine ⟨values ++ [n % 16], List.rel_append hdigits (.cons hlast .nil), ?_⟩
      rw [List.reverse_append, List.reverse_singleton, List.singleton_append, Nat.ofDigits_cons,
        hvalue]
      exact Nat.mod_add_div n 16

theorem namesChar_write (c : Char) : NamesChar (Hex.write c.toNat) c := by
  obtain ⟨values, hdigits, hvalue⟩ := exists_forall₂_write c.toNat
  exact .mk Nat.toDigits_ne_nil hdigits hvalue

/-- What is written for a character in quoted text is a spelling of it. -/
theorem isSpelling_quotedChar (c : Char) : IsSpelling '"' (quotedChar c) c := by
  unfold quotedChar
  split_ifs with hquote hbackslash hzero htab hreturn hfeed hreadable
  · subst hquote
    exact .escaped (by decide)
  · subst hbackslash
    exact .escaped (by decide)
  · subst hzero
    exact .control (by decide)
  · subst htab
    exact .control (by decide)
  · subst hreturn
    exact .control (by decide)
  · subst hfeed
    exact .control (by decide)
  · exact .plain hquote hbackslash
  · exact .braced (namesChar_write c)

theorem onOneLine_quotedChar (c : Char) : OnOneLine (quotedChar c) := by
  have hdigits : OnOneLine (Hex.write c.toNat) := fun d hd ↦
    ⟨(namesChar_write c).ne_of_mem rfl d hd, (namesChar_write c).ne_of_mem rfl d hd⟩
  unfold quotedChar
  split_ifs <;> simp_all

theorem unescape_quoted (text : List Char) : unescape (text.flatMap quotedChar) = text := by
  have hspellings : List.Forall₂ (IsSpelling '"') (text.map quotedChar) text :=
    List.forall₂_map_left_iff.mpr (List.forall₂_same.mpr fun c _ ↦ isSpelling_quotedChar c)
  exact unescape_spellings hspellings

theorem quotedChars_injective : Function.Injective quotedChars := by
  intro text text' h
  have hbody := List.append_cancel_right (List.cons.inj h).2
  rw [← unescape_quoted text, hbody, unescape_quoted]

theorem onOneLine_quotedChars (text : List Char) : OnOneLine (quotedChars text) := by
  have hbody : OnOneLine (text.flatMap quotedChar) :=
    onOneLine_flatMap fun c _ ↦ onOneLine_quotedChar c
  simpa [quotedChars] using hbody

/-! ## Descriptions -/

theorem Symbol.name_injective : Function.Injective Symbol.name := by
  intro a b h
  cases a <;> cases b <;> first | rfl | exact absurd h (by decide)

namespace Token

/-- The first character of the description of a token. -/
def initial : Token → Char
  | symbol _ => '\''
  | identifier _ => 'i'
  | number _ => 'n'
  | string _ => 's'

theorem toList_describe (token : Token) :
    token.describe.toList = match token with
      | symbol s => s.name.toList
      | identifier name => "identifier `".toList ++ (name.toList ++ ['`'])
      | number text => "number `".toList ++ (text.toList ++ ['`'])
      | string value => "string ".toList ++ quotedChars value.toList := by
  cases token <;> simp [describe]

theorem head?_describe (token : Token) : token.describe.toList.head? = some token.initial := by
  rw [toList_describe]
  cases token with
  | symbol s => cases s <;> rfl
  | _ => rfl

theorem describe_injective : Function.Injective describe := by
  intro token token' h
  have hinitial : some token.initial = some token'.initial := by
    rw [← head?_describe, h, head?_describe]
  have hchars := congrArg String.toList h
  rw [toList_describe, toList_describe] at hchars
  cases token <;> cases token'
  case symbol.symbol =>
    exact congrArg symbol (Symbol.name_injective (String.toList_injective hchars))
  case identifier.identifier =>
    have hname := List.append_cancel_right (List.append_cancel_left hchars)
    exact congrArg identifier (String.toList_injective hname)
  case number.number =>
    have htext := List.append_cancel_right (List.append_cancel_left hchars)
    exact congrArg number (String.toList_injective htext)
  case string.string =>
    have hvalue := quotedChars_injective (List.append_cancel_left hchars)
    exact congrArg string (String.toList_injective hvalue)
  -- tokens of two kinds do not begin alike
  all_goals exact absurd hinitial (by simp [initial])

/-- Only the value of a string can hold a line break, and there it is spelled. -/
theorem IsRegular.onOneLine_describe {token : Token} (h : token.IsRegular) :
    OnOneLine token.describe.toList := by
  rw [toList_describe]
  cases token with
  | symbol s => cases s <;> simp [Symbol.name]
  | identifier name =>
    have hname : OnOneLine name.toList := onOneLine_of_isVisible fun c hc ↦
      isVisible_of_isIdentifierPart (h.word.isIdentifierPart c hc)
    simpa using hname
  | number text =>
    have htext : OnOneLine text.toList := onOneLine_of_isVisible h.isVisible
    simpa using htext
  | string value => simpa using onOneLine_quotedChars value.toList

end Token

/-- The description of a token ends a run of characters that does not go on with its initial. -/
theorem Token.endsRun_describe {p : Char → Bool} {token : Token} (h : p token.initial = false) :
    EndsRun p token.describe.toList := by
  intro c hc
  rw [token.head?_describe] at hc
  cases hc
  exact h

/-! ## Lines -/

theorem endsRun_blank_toString (n : Nat) : EndsRun (· = ' ') (toString n).toList := by
  obtain ⟨first, others, heq, hfirst⟩ := (isDigits_toString n).exists_cons
  rw [heq]
  refine endsRun_cons.mpr (decide_eq_false ?_)
  rintro rfl
  exact absurd hfirst (by decide)

/-- The text is the two numbers of a span with dots between them and blanks on their outer sides,
and then what is shown of a token. -/
inductive IsLine (span : Span) (shown : List Char) : List Char → Prop
  | mk {front behind : List Char} (hfront : ∀ c ∈ front, (c = ' ' : Bool))
      (hbehind : ∀ c ∈ behind, (c = ' ' : Bool)) (hne : behind ≠ []) :
      IsLine span shown (front ++ ((toString span.start).toList ++ '.' :: '.' ::
        ((toString span.stop).toList ++ (behind ++ shown))))

theorem Located.isLine (located : Located) :
    IsLine located.span located.token.describe.toList located.line.toList := by
  have hblank : ∀ n, ∀ c ∈ List.replicate n ' ', (c = ' ' : Bool) := fun n c hc ↦
    decide_eq_true (List.eq_of_mem_replicate hc)
  have hline : IsLine located.span located.token.describe.toList _ := .mk
    (hblank (numberColumns - (toString located.span.start).length))
    (hblank (numberColumns - (toString located.span.stop).length + 1))
    (List.cons_ne_nil _ _)
  rw [List.replicate_succ'] at hline
  simpa [line, padLeft, padRight] using hline

theorem IsLine.unique {span span' : Span} {token token' : Token} {text : List Char}
    (h : IsLine span token.describe.toList text) (h' : IsLine span' token'.describe.toList text) :
    span = span' ∧ token = token' := by
  have hnumber (n : Nat) (rest : List Char) : EndsRun (· = ' ') ((toString n).toList ++ rest) :=
    (endsRun_blank_toString n).append_of_ne_nil (isDigits_toString n).ne_nil rest
  have hdots (rest : List Char) : EndsRun Char.isDigit ('.' :: rest) := endsRun_cons.mpr rfl
  have hblanks {blanks : List Char} (h : ∀ c ∈ blanks, (c = ' ' : Bool)) (hne : blanks ≠ [])
      (rest : List Char) : EndsRun Char.isDigit (blanks ++ rest) := by
    refine EndsRun.append_of_ne_nil (fun c hc ↦ ?_) hne rest
    rw [of_decide_eq_true (h c (List.mem_of_mem_head? hc))]
    rfl
  have hshown (token : Token) : EndsRun (· = ' ') token.describe.toList :=
    Token.endsRun_describe (by cases token <;> rfl)
  generalize htext : text = text' at h'
  obtain @⟨front, behind, hfront, hbehind, hne⟩ := h
  obtain @⟨front', behind', hfront', hbehind', hne'⟩ := h'
  -- blanks, digits, dots, digits and blanks again: each ends where the next begins
  obtain ⟨-, hnumbers⟩ := eq_of_append_eq_append hfront hfront' (hnumber _ _) (hnumber _ _) htext
  obtain ⟨hstart, hstops⟩ := eq_of_append_eq_append (isDigits_toString _).digits
    (isDigits_toString _).digits (hdots _) (hdots _) hnumbers
  have hstops := (List.cons.inj (List.cons.inj hstops).2).2
  obtain ⟨hstop, htokens⟩ := eq_of_append_eq_append (isDigits_toString _).digits
    (isDigits_toString _).digits (hblanks hbehind hne _) (hblanks hbehind' hne' _) hstops
  obtain ⟨-, htoken⟩ := eq_of_append_eq_append hbehind hbehind' (hshown _) (hshown _) htokens
  constructor
  · cases span
    cases span'
    exact congrArg₂ Span.mk (toString_injective (String.toList_injective hstart))
      (toString_injective (String.toList_injective hstop))
  · exact Token.describe_injective (String.toList_injective htoken)

theorem Located.line_injective : Function.Injective Located.line := by
  intro located located' h
  obtain ⟨hspan, htoken⟩ := (h ▸ located.isLine).unique located'.isLine
  cases located
  cases located'
  exact congrArg₂ Located.mk htoken hspan

theorem IsLine.ne_nil {span : Span} {shown text : List Char} (h : IsLine span shown text) :
    text ≠ [] := by
  obtain ⟨-, -, -⟩ := h
  simp

theorem IsLine.onOneLine {span : Span} {shown text : List Char} (h : IsLine span shown text)
    (hshown : OnOneLine shown) : OnOneLine text := by
  have hnumber (n : Nat) : OnOneLine (toString n).toList := fun c hc ↦ by
    have hdigit := (isDigits_toString n).digits c hc
    constructor <;> rintro rfl <;> exact absurd hdigit (by decide)
  have hblanks {blanks : List Char} (h : ∀ c ∈ blanks, (c = ' ' : Bool)) : OnOneLine blanks :=
    fun c hc ↦ by rw [of_decide_eq_true (h c hc)]; decide
  obtain ⟨hfront, hbehind, -⟩ := h
  simp only [onOneLine_append, onOneLine_cons]
  exact ⟨hblanks hfront, hnumber _, by decide, by decide, hnumber _, hblanks hbehind, hshown⟩

/-! ## Listings -/

theorem splitLines_intercalate {line : String} {lines : List String}
    (h : ∀ text ∈ line :: lines, '\n' ∉ text.toList) :
    splitLines ("\n".intercalate (line :: lines)).toList = (line :: lines).map String.toList := by
  induction lines generalizing line with
  | nil =>
    rw [String.intercalate_singleton, splitLines_of_not_mem (h line List.mem_cons_self)]
    rfl
  | cons second lines ih =>
    obtain ⟨hfirst, hothers⟩ := List.forall_mem_cons.mp h
    rw [String.intercalate_cons_cons, String.toList_append, String.toList_append,
      List.append_assoc]
    exact (splitLines_cons hfirst _).trans (congrArg (line.toList :: ·) (ih hothers))

section Listing

variable {source source' : String} {tokens tokens' : List Located}

theorem onOneLine_of_tokenize (h : tokenize source = .ok tokens) {located : Located}
    (hmem : located ∈ tokens) : OnOneLine located.line.toList :=
  located.isLine.onOneLine
    (isRegular_of_tokenize h (List.mem_map_of_mem hmem)).onOneLine_describe

/-- The lines of a listing are those of the tokens. -/
theorem splitLines_listing (h : tokenize source = .ok tokens) (hne : tokens ≠ []) :
    splitLines (listing tokens).toList = tokens.map (·.line.toList) := by
  cases tokens with
  | nil => exact absurd rfl hne
  | cons located tokens =>
    have hlines : splitLines ("\n".intercalate (located.line :: tokens.map Located.line)).toList =
        (located.line :: tokens.map Located.line).map String.toList := by
      refine splitLines_intercalate fun text htext hfeed ↦ ?_
      obtain ⟨found, hfound, rfl⟩ := List.mem_map.mp (List.map_cons ▸ htext)
      exact (onOneLine_of_tokenize h hfound '\n' hfeed).1 rfl
    rw [listing, List.map_cons, hlines, ← List.map_cons, List.map_map]
    rfl

theorem listing_eq_empty_iff (h : tokenize source = .ok tokens) :
    listing tokens = "" ↔ tokens = [] := by
  constructor
  · intro hempty
    by_contra hne
    have hlines := splitLines_listing h hne
    obtain ⟨located, others, rfl⟩ := List.exists_cons_of_ne_nil hne
    rw [hempty] at hlines
    exact located.isLine.ne_nil (List.cons.inj hlines).1.symm
  · rintro rfl
    rfl

/-- **A listing tells the tokens.** The listing of an annotation has one line for each token, the
empty text if there is none, and no line is broken by what it shows. Two annotations have the same
listing only if they have the same tokens at the same places. -/
theorem listing_tells_tokens (h : tokenize source = .ok tokens)
    (h' : tokenize source' = .ok tokens') :
    ((listing tokens = "" ↔ tokens = []) ∧
      (tokens ≠ [] → splitLines (listing tokens).toList = tokens.map (·.line.toList)) ∧
      ∀ located ∈ tokens, OnOneLine located.line.toList) ∧
    (listing tokens = listing tokens' → tokens = tokens') := by
  refine ⟨⟨listing_eq_empty_iff h, splitLines_listing h, fun _ ↦ onOneLine_of_tokenize h⟩, ?_⟩
  intro heq
  by_cases hne : tokens = []
  · rw [(listing_eq_empty_iff h).mpr hne] at heq
    rw [hne, (listing_eq_empty_iff h').mp heq.symm]
  · have hne' : tokens' ≠ [] := by
      rintro rfl
      exact hne ((listing_eq_empty_iff h).mp heq)
    have hlines : tokens.map (·.line.toList) = tokens'.map (·.line.toList) := by
      rw [← splitLines_listing h hne, heq, splitLines_listing h' hne']
    have hinjective : Function.Injective fun located : Located ↦ located.line.toList :=
      fun _ _ hchars ↦ Located.line_injective (String.toList_injective hchars)
    exact List.map_injective_iff.mpr hinjective hlines

/-- A string that holds a line feed, spelled in two ways. -/
theorem listing_tells_tokens_of_spellings :
    tokenize "'\\n'" = .ok [⟨.string "\n", ⟨0, 4⟩⟩] ∧
      tokenize "'\\x0a'" = .ok [⟨.string "\n", ⟨0, 6⟩⟩] ∧
      splitLines (listing [⟨.string "\n", ⟨0, 4⟩⟩]).toList = ["  0..4   string \"\\n\"".toList] ∧
      listing [⟨.string "\n", ⟨0, 4⟩⟩] ≠ listing [⟨.string "\n", ⟨0, 6⟩⟩] := by
  have hshort : tokenize "'\\n'" = .ok [⟨.string "\n", ⟨0, 4⟩⟩] := by decide +kernel
  have hlong : tokenize "'\\x0a'" = .ok [⟨.string "\n", ⟨0, 6⟩⟩] := by decide +kernel
  obtain ⟨⟨-, hlines, -⟩, htells⟩ := listing_tells_tokens hshort hlong
  refine ⟨hshort, hlong, (hlines (List.cons_ne_nil _ _)).trans (by decide +kernel), fun heq ↦ ?_⟩
  exact absurd (htells heq) (by decide)

end Listing

end TypeNotation
