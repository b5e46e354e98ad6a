import Mathlib.Data.List.Forall2
import Mathlib.Data.Nat.Digits.Defs
import TypeNotation.Proofs.Grammar.Annotation
import TypeNotation.Proofs.Lexical.MaximalMunch

/-!
# The spellings of a string

A string has many spellings besides its canonical one: a character may stand for itself or behind a
backslash, or be named by its number in one of three forms. The spellings of the characters may be
put next to each other in any order. What an escape takes is settled by its first characters and
its length, so a hexadecimal digit or a brace behind an escape is never drawn into it, and the lexer
pairs the backslashes as the decoder does.
-/

namespace TypeNotation

/-! ## Numbers of characters -/

/-- The character is a hexadecimal digit of the value, in either case. -/
def IsHexDigit (c : Char) (value : Nat) : Prop :=
  "0123456789abcdef".toList[value]? = some c ∨ "0123456789ABCDEF".toList[value]? = some c

/-- The digits, of which there is at least one, are the number of the character. -/
inductive NamesChar : List Char → Char → Prop
  | mk {digits : List Char} {values : List Nat} {c : Char} (hne : digits ≠ [])
      (hdigits : List.Forall₂ IsHexDigit digits values)
      (hvalue : Nat.ofDigits 16 values.reverse = c.toNat) : NamesChar digits c

theorem IsHexDigit.digit?_eq {c : Char} {value : Nat} (h : IsHexDigit c value) :
    Hex.digit? c = some value := by
  have key (digits : List Char) (hread : ∀ n < digits.length, digits[n]?.bind Hex.digit? = some n)
      (hc : digits[value]? = some c) : Hex.digit? c = some value := by
    have hlt := (List.getElem?_eq_some_iff.mp hc).1
    rw [← hread value hlt, hc]
    rfl
  rcases h with hlower | hupper
  · exact key _ (by decide) hlower
  · exact key _ (by decide) hupper

theorem IsHexDigit.ne {c d : Char} {value : Nat} (h : IsHexDigit c value)
    (hd : Hex.digit? d = none) : c ≠ d := by
  rintro rfl
  rw [h.digit?_eq] at hd
  cases hd

theorem Hex.valueFrom?_of_forall₂ {digits : List Char} {values : List Nat}
    (h : List.Forall₂ IsHexDigit digits values) (high : Nat) :
    Hex.valueFrom? high digits =
      some (high * 16 ^ digits.length + Nat.ofDigits 16 values.reverse) := by
  induction h generalizing high with
  | nil => simp [Hex.valueFrom?]
  | cons hdigit _ ih =>
    rename_i c d digits values hvalues
    have hlength : values.reverse.length = digits.length := by
      rw [List.length_reverse, hvalues.length_eq]
    rw [Hex.valueFrom?, hdigit.digit?_eq, Option.bind_some, ih, List.reverse_cons,
      Nat.ofDigits_append, Nat.ofDigits_singleton, hlength, List.length_cons]
    ring_nf

namespace NamesChar

variable {digits : List Char} {c : Char}

theorem ne_nil (h : NamesChar digits c) : digits ≠ [] := by
  obtain ⟨hne, -, -⟩ := h
  exact hne

theorem ne_of_mem (h : NamesChar digits c) {mark : Char} (hmark : Hex.digit? mark = none) :
    ∀ d ∈ digits, d ≠ mark := by
  obtain ⟨-, hdigits, -⟩ := h
  have hboth := hdigits.imp fun d value hd ↦ (⟨hd.ne hmark, hd⟩ : d ≠ mark ∧ IsHexDigit d value)
  exact ((List.forall₂_and_left _ _).mp hboth).1

theorem char?_eq (h : NamesChar digits c) : Hex.char? digits = some c := by
  obtain ⟨hne, hdigits, hvalue⟩ := h
  have hread : Hex.value? digits = some c.toNat := by
    obtain ⟨first, others, rfl⟩ := List.exists_cons_of_ne_nil hne
    rw [Hex.value?, Hex.valueFrom?_of_forall₂ hdigits, hvalue, Nat.zero_mul, Nat.zero_add]
    exact List.cons_ne_nil _ _
  have hvalid : c.toNat.isValidChar := c.valid
  rw [Hex.char?, hread, Option.bind_some, if_pos hvalid, Char.ofNat_toNat]

end NamesChar

/-! ## Spellings of a character -/

/-- The characters that a backslash and a letter or a zero stand for. -/
def controlEscapes : List (Char × Char) :=
  [('n', '\n'), ('r', '\r'), ('t', '\t'), ('0', '\x00')]

/-- Between two quotes, the text stands for the character. -/
inductive IsSpelling (quote : Char) : List Char → Char → Prop
  | plain {c : Char} (hquote : c ≠ quote) (hbackslash : c ≠ '\\') : IsSpelling quote [c] c
  | control {mark c : Char} (hmark : (mark, c) ∈ controlEscapes) : IsSpelling quote ['\\', mark] c
  | escaped {c : Char} (hmark : c ∉ ['n', 'r', 't', '0', 'x', 'u', '\n']) :
      IsSpelling quote ['\\', c] c
  | byte {digits : List Char} {c : Char} (hlength : digits.length = 2)
      (hname : NamesChar digits c) :
      IsSpelling quote ('\\' :: 'x' :: digits) c
  | unit {digits : List Char} {c : Char} (hlength : digits.length = 4)
      (hname : NamesChar digits c) :
      IsSpelling quote ('\\' :: 'u' :: digits) c
  | braced {digits : List Char} {c : Char} (hname : NamesChar digits c) :
      IsSpelling quote ('\\' :: 'u' :: '{' :: (digits ++ ['}'])) c

section Escapes

variable {digits rest : List Char} {c : Char}

theorem escapeAt_control {mark : Char} (h : (mark, c) ∈ controlEscapes) (rest : List Char) :
    escapeAt (mark :: rest) = ([c], 1) := by
  simp only [controlEscapes, List.mem_cons, Prod.mk.injEq, List.not_mem_nil, or_false] at h
  rcases h with ⟨rfl, rfl⟩ | ⟨rfl, rfl⟩ | ⟨rfl, rfl⟩ | ⟨rfl, rfl⟩ <;> rfl

theorem escapeAt_escaped (h : c ∉ ['n', 'r', 't', '0', 'x', 'u']) (rest : List Char) :
    escapeAt (c :: rest) = ([c], 1) := by
  simp only [List.mem_cons, List.not_mem_nil, or_false, not_or] at h
  unfold escapeAt
  split <;> simp_all

theorem escapeAt_byte (hlength : digits.length = 2) (h : NamesChar digits c) (rest : List Char) :
    escapeAt ('x' :: (digits ++ rest)) = ([c], 1 + digits.length) := by
  have htake : (digits ++ rest).take 2 = digits := by rw [← hlength, List.take_left]
  have hbyte : byteChar? digits = some c := by
    obtain ⟨high, low, rfl⟩ := List.length_eq_two.mp hlength
    rw [byteChar?, if_neg (h.ne_of_mem rfl high List.mem_cons_self)]
    exact h.char?_eq
  rw [escapeAt, htake, hbyte]

theorem escapeAt_unit (hlength : digits.length = 4) (h : NamesChar digits c) (rest : List Char) :
    escapeAt ('u' :: (digits ++ rest)) = ([c], 1 + digits.length) := by
  have htake : (digits ++ rest).take 4 = digits := by rw [← hlength, List.take_left]
  -- a digit is no brace
  obtain ⟨first, others, rfl⟩ := List.exists_cons_of_ne_nil h.ne_nil
  have hbrace : first ≠ '{' := h.ne_of_mem rfl first List.mem_cons_self
  have hother : ∀ rest', first :: others ++ rest ≠ '{' :: rest' :=
    fun _ heq ↦ hbrace (List.cons.inj heq).1
  rw [escapeAt.eq_8 _ hother, htake, if_pos hlength, h.char?_eq]

theorem escapeAt_braced (h : NamesChar digits c) (rest : List Char) :
    escapeAt ('u' :: '{' :: (digits ++ '}' :: rest)) = ([c], 3 + digits.length) := by
  have hall : ∀ d ∈ digits, decide (d ≠ '}') = true := fun d hd ↦
    decide_eq_true (h.ne_of_mem rfl d hd)
  have htake : (digits ++ '}' :: rest).takeWhile (· ≠ '}') = digits := by
    rw [List.takeWhile_append_of_pos hall, List.takeWhile_cons_of_neg (by simp), List.append_nil]
  have hlt : digits.length < (digits ++ '}' :: rest).length := by
    rw [List.length_append, List.length_cons]
    omega
  rw [escapeAt, htake, if_pos hlt, h.char?_eq]

end Escapes

/-! ## Spellings of a string -/

section Strings

variable {quote : Char}

/-- A backslash and what the escape takes are decoded to what the escape stands for. -/
theorem unescape_escape {marks rest : List Char} {c : Char}
    (h : escapeAt (marks ++ rest) = ([c], marks.length)) :
    unescape ('\\' :: marks ++ rest) = c :: unescape rest := by
  rw [List.cons_append, unescape, if_pos rfl, h, List.drop_left]
  rfl

theorem unescape_control {mark c : Char} (h : (mark, c) ∈ controlEscapes) (rest : List Char) :
    unescape ('\\' :: mark :: rest) = c :: unescape rest := by
  have hescape : escapeAt ([mark] ++ rest) = ([c], [mark].length) := escapeAt_control h rest
  exact unescape_escape hescape

theorem unescape_escaped {c : Char} (h : c ∉ ['n', 'r', 't', '0', 'x', 'u']) (rest : List Char) :
    unescape ('\\' :: c :: rest) = c :: unescape rest := by
  have hescape : escapeAt ([c] ++ rest) = ([c], [c].length) := escapeAt_escaped h rest
  exact unescape_escape hescape

theorem IsSpelling.unescape_append {text : List Char} {c : Char} (h : IsSpelling quote text c)
    (rest : List Char) : unescape (text ++ rest) = c :: unescape rest := by
  cases h with
  | plain _ hbackslash => rw [List.singleton_append, unescape, if_neg hbackslash]
  | control hmark => exact unescape_control hmark rest
  | escaped hmark =>
    have hmark' : c ∉ ['n', 'r', 't', '0', 'x', 'u'] := mt (List.mem_append_left ['\n']) hmark
    exact unescape_escaped hmark' rest
  | byte hlength hname =>
    refine unescape_escape ((escapeAt_byte hlength hname rest).trans ?_)
    rw [List.length_cons, Nat.add_comm]
  | unit hlength hname =>
    refine unescape_escape ((escapeAt_unit hlength hname rest).trans ?_)
    rw [List.length_cons, Nat.add_comm]
  | braced hname =>
    rename_i digits
    have hlength : ('u' :: '{' :: (digits ++ ['}'])).length = 3 + digits.length := by
      simp only [List.length_cons, List.length_append, List.length_nil]
      omega
    refine unescape_escape ?_
    rw [hlength, List.cons_append, List.cons_append, List.append_assoc, List.singleton_append]
    exact escapeAt_braced hname rest

theorem isBody_append {body rest : List Char} (hbody : IsBody quote body)
    (hrest : IsBody quote rest) : IsBody quote (body ++ rest) := by
  induction hbody with
  | nil => exact hrest
  | plain hquote hbackslash _ ih => exact .plain hquote hbackslash ih
  | escape hfeed _ ih => exact .escape hfeed ih

theorem isBody_of_forall {body : List Char} (h : ∀ c ∈ body, c ≠ quote ∧ c ≠ '\\') :
    IsBody quote body := by
  induction body with
  | nil => exact .nil
  | cons c body ih =>
    obtain ⟨⟨hquote, hbackslash⟩, hbody⟩ := List.forall_mem_cons.mp h
    exact .plain hquote hbackslash (ih hbody)

theorem NamesChar.isBody {digits : List Char} {c : Char} (h : NamesChar digits c)
    (hquote : isQuote quote = true) : IsBody quote digits := by
  have hdigit : Hex.digit? quote = none := by
    simp only [isQuote, Bool.or_eq_true, decide_eq_true_eq] at hquote
    rcases hquote with rfl | rfl <;> rfl
  exact isBody_of_forall fun d hd ↦ ⟨h.ne_of_mem hdigit d hd, h.ne_of_mem rfl d hd⟩

theorem IsSpelling.isBody {text : List Char} {c : Char} (h : IsSpelling quote text c)
    (hquote : isQuote quote = true) : IsBody quote text := by
  cases h with
  | plain hne hbackslash => exact .plain hne hbackslash .nil
  | control hmark =>
    refine .escape ?_ .nil
    rintro rfl
    simp [controlEscapes] at hmark
  | escaped hmark =>
    refine .escape ?_ .nil
    rintro rfl
    simp at hmark
  | byte _ hname => exact .escape (by decide) (hname.isBody hquote)
  | unit _ hname => exact .escape (by decide) (hname.isBody hquote)
  | braced hname =>
    -- neither brace is a quote
    have hbraces : '{' ≠ quote ∧ '}' ≠ quote := by
      simp only [isQuote, Bool.or_eq_true, decide_eq_true_eq] at hquote
      rcases hquote with rfl | rfl <;> decide
    refine .escape (by decide) (.plain hbraces.1 (by decide) (isBody_append ?_ ?_))
    · exact hname.isBody hquote
    · exact .plain hbraces.2 (by decide) .nil

variable {spellings : List (List Char)} {value : List Char}

theorem isBody_spellings (hquote : isQuote quote = true)
    (h : List.Forall₂ (IsSpelling quote) spellings value) : IsBody quote spellings.flatten := by
  induction h with
  | nil => exact .nil
  | cons hspelling _ ih =>
    rw [List.flatten_cons]
    exact isBody_append (hspelling.isBody hquote) ih

theorem unescape_spellings (h : List.Forall₂ (IsSpelling quote) spellings value) :
    unescape spellings.flatten = value := by
  induction h with
  | nil => rw [List.flatten_nil, unescape]
  | cons hspelling _ ih => rw [List.flatten_cons, hspelling.unescape_append, ih]

end Strings

/-- **Every spelling of a string is that string.** Between two quotes of either kind, put any
spellings of characters next to each other: the text is a single token, a string of these
characters, and it denotes the type of that string. -/
theorem parse_spellings {quote : Char} {spellings : List (List Char)} {value : List Char}
    (hquote : isQuote quote = true) (hvalue : List.Forall₂ (IsSpelling quote) spellings value) :
    let source := String.ofList (quote :: (spellings.flatten ++ [quote]))
    tokenize source = .ok [⟨.string (String.ofList value), ⟨0, source.utf8ByteSize⟩⟩] ∧
      parse source = .ok (.text (String.ofList value)) := by
  intro source
  have hlexeme := isLexeme_string hquote (isBody_spellings hquote hvalue)
  rw [unescape_spellings hvalue] at hlexeme
  have htokens := hlexeme.tokenize_eq
  rw [← String.toList_ofList (l := quote :: (spellings.flatten ++ [quote])), utf8Length_toList,
    String.ofList_toList] at htokens
  exact ⟨htokens, parse_eq_ok_iff.mpr ⟨_, htokens, .text _⟩⟩

/-- An escape with a digit behind it that it does not take, a number with leading zeros, and a quote
of the other kind behind a backslash. -/
theorem parse_spellings_of_escapes :
    isQuote '"' = true ∧
      List.Forall₂ (IsSpelling '"') ["\\x41".toList, ['1'], "\\u{00041}".toList, "\\'".toList]
        "A1A'".toList ∧
      tokenize "\"\\x411\\u{00041}\\'\"" = .ok [⟨.string "A1A'", ⟨0, 18⟩⟩] ∧
      parse "\"\\x411\\u{00041}\\'\"" = .ok (.text "A1A'") := by
  have htwo : NamesChar ['4', '1'] 'A' :=
    .mk (by decide) (.cons (.inl rfl) (.cons (.inl rfl) .nil) : List.Forall₂ _ _ [4, 1]) rfl
  have hfive : NamesChar ['0', '0', '0', '4', '1'] 'A' :=
    .mk (by decide) (.cons (.inl rfl) (.cons (.inl rfl) (.cons (.inl rfl) (.cons (.inl rfl)
      (.cons (.inl rfl) .nil)))) : List.Forall₂ _ _ [0, 0, 0, 4, 1]) rfl
  have hvalue : List.Forall₂ (IsSpelling '"')
      ["\\x41".toList, ['1'], "\\u{00041}".toList, "\\'".toList] "A1A'".toList :=
    .cons (.byte rfl htwo) (.cons (.plain (by decide) (by decide)) (.cons (.braced hfive)
      (.cons (.escaped (by decide)) .nil)))
  have hread := parse_spellings rfl hvalue
  have hsource : String.ofList ('"' :: (["\\x41".toList, ['1'], "\\u{00041}".toList,
      "\\'".toList].flatten ++ ['"'])) = "\"\\x411\\u{00041}\\'\"" := by decide
  rw [hsource, String.ofList_toList] at hread
  exact ⟨rfl, hvalue, hread⟩

end TypeNotation
