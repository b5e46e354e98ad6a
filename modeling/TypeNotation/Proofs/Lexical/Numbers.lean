import TypeNotation.Proofs.Lexical.Words

/-!
# Numbers

What a number is, part by part: an optional minus sign, digits, an optional fraction and an optional
exponent. The length that the lexer computes is the length of a number; and if a number stands in
front of a text that no number goes on with, it is the length of that number.
-/

namespace TypeNotation

/-! ## The parts of a number -/

/-- One or more decimal digits. -/
structure IsDigits (text : List Char) : Prop where
  ne_nil : text ≠ []
  digits : ∀ c ∈ text, c.isDigit = true

/-- A decimal point and digits behind it, if anything. -/
inductive IsFraction : List Char → Prop
  | absent : IsFraction []
  | present {digits : List Char} (hdigits : IsDigits digits) : IsFraction ('.' :: digits)

/-- The sign of an exponent, if there is one. -/
inductive IsSign : List Char → Prop
  | absent : IsSign []
  | plus : IsSign ['+']
  | minus : IsSign ['-']

/-- A mark, a sign and digits behind it, if anything. -/
inductive IsExponent : List Char → Prop
  | absent : IsExponent []
  | present {mark : Char} {sign digits : List Char} (hmark : mark = 'e' ∨ mark = 'E')
      (hsign : IsSign sign) (hdigits : IsDigits digits) : IsExponent (mark :: (sign ++ digits))

/-- Digits, a fraction and an exponent. -/
inductive IsUnsigned : List Char → Prop
  | mk {whole fraction exponent : List Char} (hwhole : IsDigits whole)
      (hfraction : IsFraction fraction) (hexponent : IsExponent exponent) :
      IsUnsigned (whole ++ (fraction ++ exponent))

/-- A number with or without a minus sign. -/
inductive IsNumber : List Char → Prop
  | plain {text : List Char} (unsigned : IsUnsigned text) : IsNumber text
  | negative {text : List Char} (unsigned : IsUnsigned text) : IsNumber ('-' :: text)

theorem IsDigits.exists_cons {text : List Char} (h : IsDigits text) :
    ∃ first others, text = first :: others ∧ first.isDigit = true := by
  cases text with
  | nil => exact absurd rfl h.ne_nil
  | cons first others => exact ⟨first, others, rfl, h.digits first List.mem_cons_self⟩

theorem IsUnsigned.exists_cons {text : List Char} (h : IsUnsigned text) :
    ∃ first others, text = first :: others ∧ first.isDigit = true := by
  obtain ⟨hwhole, -, -⟩ := h
  obtain ⟨first, others, rfl, hfirst⟩ := hwhole.exists_cons
  exact ⟨first, _, rfl, hfirst⟩

/-! ## Written numbers -/

theorem toString_injective : Function.Injective (toString : Nat → String) := by
  intro m n h
  rw [Nat.toString_eq_ofList_toDigits, Nat.toString_eq_ofList_toDigits] at h
  have hvalue := congrArg (fun digits ↦ Nat.ofDigitChars 10 digits 0) (String.ofList_injective h)
  simpa only [Nat.ofDigitChars_ten_toDigits] using hvalue

theorem isDigits_toString (n : Nat) : IsDigits (toString n).toList := by
  rw [Nat.toString_eq_repr, Nat.toList_repr]
  exact ⟨Nat.toDigits_ne_nil, fun c hc ↦ Nat.isDigit_of_mem_toDigits (by decide) (by decide) hc⟩

/-! ## In front of other text -/

/-- No number goes on with the text: it begins neither with a digit nor with a decimal point or the
mark of an exponent. -/
def isNumberPart (c : Char) : Bool := c.isDigit || c = '.' || c = 'e' || c = 'E'

section Append

variable {rest : List Char}

theorem EndsRun.digit (h : EndsRun isNumberPart rest) : EndsRun Char.isDigit rest :=
  h.mono fun c hc ↦ by simp [isNumberPart, hc]

/-- A fraction or an exponent ends the digits in front of it. -/
theorem IsFraction.endsRun {text : List Char} (h : IsFraction text) :
    EndsRun Char.isDigit text := by
  cases h with
  | absent => exact endsRun_nil
  | present => exact endsRun_cons.mpr rfl

theorem IsExponent.endsRun {text : List Char} (h : IsExponent text) :
    EndsRun Char.isDigit text := by
  cases h with
  | absent => exact endsRun_nil
  | present hmark => rcases hmark with rfl | rfl <;> exact endsRun_cons.mpr rfl

/-- No fraction begins like an exponent. -/
theorem IsExponent.endsRun_point {text : List Char} (h : IsExponent text) :
    EndsRun (· = '.') text := by
  cases h with
  | absent => exact endsRun_nil
  | present hmark => rcases hmark with rfl | rfl <;> exact endsRun_cons.mpr rfl

theorem fractionLength_of_endsRun (hrest : EndsRun (· = '.') rest) : fractionLength rest = 0 := by
  unfold fractionLength
  split
  · cases endsRun_cons.mp hrest
  · rfl

theorem fractionLength_append {text : List Char} (h : IsFraction text)
    (hpoint : EndsRun (· = '.') rest) (hdigit : EndsRun Char.isDigit rest) :
    fractionLength (text ++ rest) = text.length := by
  cases h with
  | absent => exact fractionLength_of_endsRun hpoint
  | present h =>
    rename_i digits
    obtain ⟨first, others, rfl, -⟩ := h.exists_cons
    rw [List.cons_append, fractionLength, runLength_append h.digits hdigit]
    rfl

theorem exponentLength_of_endsRun (hrest : EndsRun isNumberPart rest) :
    exponentLength rest = 0 := by
  unfold exponentLength
  split
  · cases endsRun_cons.mp hrest
  · cases endsRun_cons.mp hrest
  · rfl

theorem signLength_append {sign digits : List Char} (hsign : IsSign sign) (h : IsDigits digits) :
    signLength (sign ++ (digits ++ rest)) = sign.length := by
  cases hsign with
  | absent =>
    obtain ⟨first, others, rfl, hfirst⟩ := h.exists_cons
    unfold signLength
    split
    · next heq =>
      cases heq
      cases hfirst
    · next heq =>
      cases heq
      cases hfirst
    · rfl
  | plus => rfl
  | minus => rfl

theorem exponentLength_append {text : List Char} (h : IsExponent text)
    (hrest : EndsRun isNumberPart rest) : exponentLength (text ++ rest) = text.length := by
  cases h with
  | absent => exact exponentLength_of_endsRun hrest
  | present hmark hsign h =>
    rename_i mark sign digits
    have hrun : runLength Char.isDigit (digits ++ rest) = digits.length :=
      runLength_append h.digits hrest.digit
    obtain ⟨first, others, rfl, -⟩ := h.exists_cons
    -- the lexer has a branch for either mark, and they do the same
    rcases hmark with rfl | rfl
    all_goals
      rw [List.cons_append, List.append_assoc, exponentLength, signLength_append hsign h,
        List.drop_left, hrun]
      simp only [List.length_cons, List.length_append]
      omega

/-- The parts of a number are found one behind the other. -/
theorem unsignedLength_eq {text : List Char} {whole : Nat} (h : runLength Char.isDigit text = whole)
    (hpos : 0 < whole) :
    unsignedLength text = whole + fractionLength (text.drop whole) +
      exponentLength (text.drop (whole + fractionLength (text.drop whole))) := by
  rw [unsignedLength, h]
  split
  · cases hpos
  · rfl

theorem unsignedLength_append {text : List Char} (h : IsUnsigned text)
    (hrest : EndsRun isNumberPart rest) : unsignedLength (text ++ rest) = text.length := by
  obtain ⟨hwhole, hfraction, hexponent⟩ := h
  rename_i whole fraction exponent
  -- each part ends where the next one begins, and the last one in front of `rest`
  have hpoint : EndsRun (· = '.') rest := hrest.mono fun c hc ↦ by simp_all [isNumberPart]
  have hrun : runLength Char.isDigit (whole ++ (fraction ++ (exponent ++ rest))) = whole.length :=
    runLength_append hwhole.digits
      (hfraction.endsRun.append (hexponent.endsRun.append hrest.digit))
  have hfractionLength : fractionLength (fraction ++ (exponent ++ rest)) = fraction.length :=
    fractionLength_append hfraction (hexponent.endsRun_point.append hpoint)
      (hexponent.endsRun.append hrest.digit)
  rw [List.append_assoc, List.append_assoc,
    unsignedLength_eq hrun (List.length_pos_iff.mpr hwhole.ne_nil), List.drop_left,
    hfractionLength, ← List.append_assoc, ← List.length_append, List.drop_left,
    exponentLength_append hexponent hrest]
  simp only [List.length_append, Nat.add_assoc]

theorem numberLength_of_isDigit {first : Char} (h : first.isDigit = true) :
    numberLength (first :: rest) = unsignedLength (first :: rest) := by
  unfold numberLength
  split
  · next heq =>
    cases heq
    cases h
  · rfl

theorem numberLength_append {text : List Char} (h : IsNumber text)
    (hrest : EndsRun isNumberPart rest) : numberLength (text ++ rest) = text.length := by
  cases h with
  | plain h =>
    have hlength := unsignedLength_append h hrest
    obtain ⟨first, others, rfl, hfirst⟩ := h.exists_cons
    rwa [List.cons_append, numberLength_of_isDigit hfirst]
  | negative h =>
    rename_i digits
    have hlength := unsignedLength_append h hrest
    obtain ⟨first, others, rfl, -⟩ := h.exists_cons
    rw [List.cons_append, numberLength, hlength]
    rfl

end Append

/-! ## In front of any text

A number may go on behind the text in question, and then its length is larger; but it is never less,
and never more than there is. -/

section Bounds

variable {text : List Char}

theorem IsDigits.exists_runLength_eq (h : IsDigits text) (rest : List Char) :
    ∃ n, runLength Char.isDigit (text ++ rest) = n + 1 ∧ text.length ≤ n + 1 := by
  have hpos : 0 < text.length := List.length_pos_iff.mpr h.ne_nil
  have hrun := runLength_append_of_forall h.digits rest
  exact ⟨text.length + runLength Char.isDigit rest - 1, by omega, by omega⟩

theorem IsFraction.length_le (h : IsFraction text) (rest : List Char) :
    text.length ≤ fractionLength (text ++ rest) := by
  cases h with
  | absent => exact Nat.zero_le _
  | present h =>
    obtain ⟨n, hn, hle⟩ := h.exists_runLength_eq rest
    rw [List.cons_append, fractionLength, hn, List.length_cons]
    dsimp only
    omega

theorem IsExponent.length_le (h : IsExponent text) (rest : List Char) :
    text.length ≤ exponentLength (text ++ rest) := by
  cases h with
  | absent => exact Nat.zero_le _
  | present hmark hsign h =>
    obtain ⟨n, hn, hle⟩ := h.exists_runLength_eq rest
    rcases hmark with rfl | rfl
    all_goals
      rw [List.cons_append, List.append_assoc, exponentLength, signLength_append hsign h,
        List.drop_left, hn, List.length_cons, List.length_append]
      dsimp only
      omega

theorem IsUnsigned.length_le (h : IsUnsigned text) (rest : List Char) :
    text.length ≤ unsignedLength (text ++ rest) := by
  obtain ⟨hwhole, hfraction, hexponent⟩ := h
  rename_i whole fraction exponent
  have hpos : 0 < whole.length := List.length_pos_iff.mpr hwhole.ne_nil
  have hfractionLength := hfraction.length_le (exponent ++ rest)
  have hexponentLength := hexponent.length_le rest
  rw [List.append_assoc, List.append_assoc]
  -- a part that another one follows ends where that one begins
  by_cases hlast : exponent = []
  · subst hlast
    by_cases honly : fraction = []
    · subst honly
      have hrun := runLength_append_of_forall hwhole.digits ([] ++ ([] ++ rest))
      rw [unsignedLength_eq hrun (by omega)]
      simp only [List.length_append, List.length_nil]
      omega
    · have hrun := runLength_append hwhole.digits
        (hfraction.endsRun.append_of_ne_nil honly ([] ++ rest))
      rw [unsignedLength_eq hrun hpos, List.drop_left]
      simp only [List.length_append, List.length_nil]
      omega
  · have hdigit := hexponent.endsRun.append_of_ne_nil hlast rest
    have hpoint := hexponent.endsRun_point.append_of_ne_nil hlast rest
    have hrun := runLength_append hwhole.digits (hfraction.endsRun.append hdigit)
    rw [unsignedLength_eq hrun hpos, List.drop_left,
      fractionLength_append hfraction hpoint hdigit, ← List.length_append,
      ← List.append_assoc whole fraction (exponent ++ rest), List.drop_left]
    simp only [List.length_append]
    omega

/-- In front of a text that is a number, no shorter number is found. -/
theorem IsNumber.length_le (h : IsNumber text) (rest : List Char) :
    text.length ≤ numberLength (text ++ rest) := by
  cases h with
  | plain h =>
    have hle := h.length_le rest
    obtain ⟨first, others, rfl, hfirst⟩ := h.exists_cons
    rwa [List.cons_append, numberLength_of_isDigit hfirst]
  | negative h =>
    rename_i digits
    have hle := h.length_le rest
    obtain ⟨first, others, rfl, -⟩ := h.exists_cons
    rw [List.cons_append, numberLength]
    split
    · next hzero =>
      rw [hzero] at hle
      cases hle
    · next n hn =>
      rw [hn] at hle
      rw [List.length_cons]
      omega

theorem fractionLength_le_length (text : List Char) : fractionLength text ≤ text.length := by
  unfold fractionLength
  split
  · next rest =>
    have hle := runLength_le_length Char.isDigit rest
    rw [List.length_cons]
    split <;> omega
  · exact Nat.zero_le _

theorem exponentLength_le_length (text : List Char) : exponentLength text ≤ text.length := by
  have key (rest : List Char) :
      runLength Char.isDigit (rest.drop (signLength rest)) ≤ rest.length - signLength rest := by
    have hle := runLength_le_length Char.isDigit (rest.drop (signLength rest))
    rwa [List.length_drop] at hle
  unfold exponentLength
  split
  · next rest =>
    have hle := key rest
    rw [List.length_cons]
    split <;> omega
  · next rest =>
    have hle := key rest
    rw [List.length_cons]
    split <;> omega
  · exact Nat.zero_le _

theorem unsignedLength_le_length (text : List Char) : unsignedLength text ≤ text.length := by
  have hwhole := runLength_le_length Char.isDigit text
  unfold unsignedLength
  split
  · exact Nat.zero_le _
  · next n hn =>
    have hfraction := fractionLength_le_length (text.drop (n + 1))
    have hexponent := exponentLength_le_length
      (text.drop (n + 1 + fractionLength (text.drop (n + 1))))
    rw [List.length_drop] at hfraction hexponent
    dsimp only
    omega

theorem numberLength_le_length (text : List Char) : numberLength text ≤ text.length := by
  unfold numberLength
  split
  · next rest =>
    have hle := unsignedLength_le_length rest
    rw [List.length_cons]
    split <;> omega
  · exact unsignedLength_le_length text

end Bounds

/-- What a name or a number can go on with. -/
def extendsLexeme (c : Char) : Bool := isIdentifierPart c || c = '.'

theorem isIdentifierPart_of_extends {rest : List Char} (h : EndsRun extendsLexeme rest) :
    EndsRun isIdentifierPart rest :=
  h.mono fun c hc ↦ by simp [extendsLexeme, hc]

theorem isNumberPart_of_extends {rest : List Char} (h : EndsRun extendsLexeme rest) :
    EndsRun isNumberPart rest := by
  refine h.mono fun c hc ↦ ?_
  simp only [isNumberPart, Bool.or_eq_true, decide_eq_true_eq] at hc
  rcases hc with ((hdigit | rfl) | rfl) | rfl
  · simp [extendsLexeme, isIdentifierPart, Char.isAlphanum, hdigit]
  · rfl
  · rfl
  · rfl

/-! ## Longest matches -/

theorem isDigits_take {text : List Char} {n : Nat} (h : runLength Char.isDigit text = n + 1) :
    IsDigits (text.take (n + 1)) where
  ne_nil hnil := by
    rw [← h, take_runLength] at hnil
    rw [runLength, hnil] at h
    cases h
  digits c hc := by
    rw [← h] at hc
    exact of_mem_take_runLength hc

theorem isFraction_take (text : List Char) : IsFraction (text.take (fractionLength text)) := by
  unfold fractionLength
  split
  · next rest =>
    split
    · exact .absent
    · next n hn =>
      rw [List.take_succ_cons]
      exact .present (isDigits_take hn)
  · exact .absent

theorem isSign_take (text : List Char) : IsSign (text.take (signLength text)) := by
  unfold signLength
  split
  · exact .plus
  · exact .minus
  · exact .absent

theorem isExponent_take (text : List Char) : IsExponent (text.take (exponentLength text)) := by
  have key (mark : Char) (rest : List Char) (n : Nat) (hmark : mark = 'e' ∨ mark = 'E')
      (hn : runLength Char.isDigit (rest.drop (signLength rest)) = n + 1) :
      IsExponent ((mark :: rest).take (n + 2 + signLength rest)) := by
    have hlength : n + 2 + signLength rest = signLength rest + (n + 1) + 1 := by omega
    rw [hlength, List.take_succ_cons, List.take_add]
    exact .present hmark (isSign_take rest) (isDigits_take hn)
  unfold exponentLength
  split
  · split
    · exact .absent
    · next hn => exact key _ _ _ (.inl rfl) hn
  · split
    · exact .absent
    · next hn => exact key _ _ _ (.inr rfl) hn
  · exact .absent

theorem isUnsigned_take {text : List Char} {n : Nat} (h : unsignedLength text = n + 1) :
    IsUnsigned (text.take (n + 1)) := by
  unfold unsignedLength at h
  split at h
  · cases h
  · next m hm =>
    dsimp only at h
    rw [← h, List.take_add, List.take_add, List.append_assoc]
    exact .mk (isDigits_take hm) (isFraction_take _) (isExponent_take _)

/-- A text that a number begins has a number of that length in front. -/
theorem isNumber_take {text : List Char} {n : Nat} (h : numberLength text = n + 1) :
    IsNumber (text.take (n + 1)) := by
  unfold numberLength at h
  split at h
  · split at h
    · cases h
    · next m hm =>
      obtain rfl : m + 1 = n := Nat.succ.inj h
      rw [List.take_succ_cons]
      exact .negative (isUnsigned_take hm)
  · exact .plain (isUnsigned_take h)

/-! ## The lexeme of a number -/

theorem toNat_le_of_isAlpha {c : Char} (h : c.isAlpha = true) : 'A'.toNat ≤ c.toNat := by
  rcases Bool.or_eq_true_iff.mp h with hupper | hlower
  · exact UInt32.le_iff_toNat_le.mp (of_decide_eq_true hupper).1
  · have hbound : 'A'.toNat ≤ 'a'.toNat := by decide
    exact Nat.le_trans hbound
      (UInt32.le_iff_toNat_le.mp (of_decide_eq_true (Bool.and_eq_true_iff.mp hlower).1))

theorem not_isIdentifierStart_of_isDigit {c : Char} (h : c.isDigit = true) :
    isIdentifierStart c = false := by
  rw [Bool.eq_false_iff]
  intro hstart
  rw [Char.isDigit_iff_toNat] at h
  simp only [isIdentifierStart, Bool.or_eq_true, decide_eq_true_eq] at hstart
  rcases hstart with (halpha | rfl) | rfl
  · have hletter := toNat_le_of_isAlpha halpha
    have hbound : '9'.toNat < 'A'.toNat := by decide
    omega
  · exact absurd h (by decide)
  · exact absurd h (by decide)

theorem IsNumber.exists_cons {text : List Char} (h : IsNumber text) :
    ∃ first others, text = first :: others ∧ (first.isDigit = true ∨ first = '-') := by
  cases h with
  | plain h =>
    obtain ⟨first, others, rfl, hfirst⟩ := h.exists_cons
    exact ⟨first, others, rfl, .inl hfirst⟩
  | negative h => exact ⟨'-', _, rfl, .inr rfl⟩

/-- What a number begins with begins neither a word nor a string. -/
theorem lexemeAt?_of_numberLength {first : Char} {rest : List Char} {n : Nat}
    (hfirst : first.isDigit = true ∨ first = '-') (h : numberLength (first :: rest) = n + 1) :
    lexemeAt? (first :: rest) =
      some (.number (String.ofList ((first :: rest).take (n + 1))), n + 1) := by
  have hstart : isIdentifierStart first = false := by
    rcases hfirst with hdigit | rfl
    · exact not_isIdentifierStart_of_isDigit hdigit
    · rfl
  have hquote : isQuote first = false := by
    simp only [isQuote, Bool.or_eq_false_iff, decide_eq_false_iff_not]
    refine ⟨?_, ?_⟩ <;> rintro rfl <;> simp at hfirst
  rw [lexemeAt?, if_neg (by simp [hstart]), if_neg (by simp [hquote]), h]

theorem lexemeAt?_number {text rest : List Char} (h : IsNumber text)
    (hrest : EndsRun isNumberPart rest) :
    lexemeAt? (text ++ rest) = some (.number (String.ofList text), text.length) := by
  have hlength := numberLength_append h hrest
  obtain ⟨first, others, rfl, hfirst⟩ := h.exists_cons
  rw [List.cons_append] at hlength ⊢
  rw [lexemeAt?_of_numberLength hfirst hlength, ← List.cons_append, ← List.length_cons,
    List.take_left]

end TypeNotation
