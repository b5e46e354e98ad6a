import TypeNotation.Proofs.Lexical.Escapes

/-!
# The rules of decoding

What the body of a string literal is decoded to, as rules without an order, from the front of the
body to its end. The rules leave open which texts behind the mark of a numeric escape are the number
of a character: a number is replaced by its character, and where none stands, the mark and what the
escape takes are kept as they are.

Numbers are meant to be written in hexadecimal digits and nothing else. Behind `\u` and `\u{` this
is so, but the digits of `\x` are read by a reader that knows signs, which passes over a plus sign
in place of the first digit. There is no other difference, so a body is decoded as it is meant to be
exactly if the decoder comes to no number with a sign.
-/

namespace TypeNotation

/-! ## The rules -/

/-- The body is decoded to the value, where `Numeral` tells which texts behind a mark are the number
of a character. -/
inductive DecodesTo (Numeral : Char → List Char → Char → Prop) : List Char → List Char → Prop
  | nil : DecodesTo Numeral [] []
  | plain {c : Char} {rest value : List Char} (hc : c ≠ '\\') (h : DecodesTo Numeral rest value) :
      DecodesTo Numeral (c :: rest) (c :: value)
  | lone : DecodesTo Numeral ['\\'] ['\\']
  | control {mark c : Char} {rest value : List Char} (hmark : (mark, c) ∈ controlEscapes)
      (h : DecodesTo Numeral rest value) : DecodesTo Numeral ('\\' :: mark :: rest) (c :: value)
  | escaped {c : Char} {rest value : List Char} (hmark : c ∉ ['n', 'r', 't', '0', 'x', 'u'])
      (h : DecodesTo Numeral rest value) : DecodesTo Numeral ('\\' :: c :: rest) (c :: value)
  | numeral {mark c : Char} {number rest value : List Char} (hnumber : Numeral mark number c)
      (h : DecodesTo Numeral rest value) :
      DecodesTo Numeral ('\\' :: mark :: (number ++ rest)) (c :: value)
  | verbatim {mark : Char} {rest value : List Char} (hmark : mark ∈ ['x', 'u'])
      (hnone : ∀ number c, Numeral mark number c → ¬number <+: rest)
      (h : DecodesTo Numeral (rest.drop (numberTaken mark rest).length) value) :
      DecodesTo Numeral ('\\' :: mark :: rest) (mark :: (numberTaken mark rest ++ value))

/-- What the decoder takes for the number of a character: a number, and behind `\x` also a plus sign
and a single digit. -/
inductive IsReadAsNumber : Char → List Char → Char → Prop
  | numbered {mark c : Char} {number : List Char} (h : IsNumbered mark number c) :
      IsReadAsNumber mark number c
  | signed {digit c : Char} (h : NamesChar [digit] c) : IsReadAsNumber 'x' ['+', digit] c

/-! ## Digits -/

theorem IsHexDigit.lt {c : Char} {value : Nat} (h : IsHexDigit c value) : value < 16 := by
  rcases h with hlower | hupper
  · exact (List.getElem?_eq_some_iff.mp hlower).1
  · exact (List.getElem?_eq_some_iff.mp hupper).1

theorem exists_isNumbered_byte_iff {high low : Char} :
    (∃ c, IsNumbered 'x' [high, low] c) ↔
      (∃ value, IsHexDigit high value) ∧ ∃ value, IsHexDigit low value := by
  constructor
  · rintro ⟨c, ⟨-, -, hdigits, -⟩⟩
    rcases hdigits with _ | ⟨hhigh, _ | ⟨hlow, -⟩⟩
    exact ⟨⟨_, hhigh⟩, ⟨_, hlow⟩⟩
  · rintro ⟨⟨v, hhigh⟩, ⟨w, hlow⟩⟩
    have hv := hhigh.lt
    have hw := hlow.lt
    have hvalid : (w + 16 * v).isValidChar := .inl (by omega)
    refine ⟨Char.ofNat (w + 16 * v), .byte rfl (.mk (by simp) (.cons hhigh (.cons hlow .nil)) ?_)⟩
    rw [toNat_ofNat_of_isValidChar hvalid]
    simp only [List.reverse_cons, List.reverse_nil, List.nil_append, List.singleton_append,
      Nat.ofDigits_cons, Nat.ofDigits_nil]
    rfl

theorem NamesChar.toNat_lt {digit c : Char} (h : NamesChar [digit] c) : c.toNat < 16 := by
  obtain ⟨-, hdigits, hvalue⟩ := h
  rcases hdigits with _ | ⟨hdigit, _ | _⟩
  rw [← hvalue]
  simpa using hdigit.lt

theorem IsNumbered.not_beginsSigned {number rest : List Char} {c : Char}
    (h : IsNumbered 'x' number c) : ¬BeginsSigned (number ++ rest) := by
  rintro ⟨digit, _, -, hbegins⟩
  obtain ⟨hlength, hname⟩ := h
  obtain ⟨high, low, rfl⟩ := List.length_eq_two.mp hlength
  have hplus : '+' = high := (List.cons_prefix_cons.mp hbegins).1
  exact hname.ne_of_mem rfl high List.mem_cons_self hplus.symm

/-! ## One escape -/

theorem isReadAsNumber_of_beginsSigned {rest : List Char} (h : BeginsSigned rest) :
    ∃ number c, IsReadAsNumber 'x' number c ∧ number <+: rest := by
  obtain ⟨digit, c, hname, hbegins⟩ := h
  exact ⟨_, c, .signed hname, hbegins⟩

namespace IsReadAsNumber

variable {mark c : Char} {number : List Char}

theorem escapeAt_eq (h : IsReadAsNumber mark number c) (rest : List Char) :
    escapeAt (mark :: (number ++ rest)) = ([c], 1 + number.length) := by
  cases h with
  | signed hname => exact escapeAt_signed hname rest
  | numbered h =>
    cases h with
    | byte hlength hname => exact escapeAt_byte hlength hname rest
    | unit hlength hname => exact escapeAt_unit hlength hname rest
    | braced hname =>
      have hescape := escapeAt_braced hname rest
      rw [List.cons_append, List.append_assoc, List.singleton_append, hescape, List.length_cons,
        List.length_append, List.length_singleton]
      congr 1
      omega

theorem unescape_append (h : IsReadAsNumber mark number c) (rest : List Char) :
    unescape ('\\' :: mark :: (number ++ rest)) = c :: unescape rest := by
  have hescape : escapeAt (mark :: number ++ rest) = ([c], (mark :: number).length) := by
    rw [List.length_cons, Nat.add_comm]
    exact h.escapeAt_eq rest
  exact unescape_escape hescape

/-- An escape with a number takes that and nothing else. -/
theorem numberTaken_append (h : IsReadAsNumber mark number c) (rest : List Char) :
    numberTaken mark (number ++ rest) = number := by
  obtain ⟨value, heq, -⟩ := escapeAt_cons mark (number ++ rest)
  rw [h.escapeAt_eq rest] at heq
  have hlength : (numberTaken mark (number ++ rest)).length = number.length :=
    (Nat.add_left_cancel (Prod.mk.inj heq).2).symm
  have hbegins := List.prefix_iff_eq_take.mp (numberTaken_isPrefix mark (number ++ rest))
  rw [hbegins, hlength, List.take_left]

end IsReadAsNumber

/-- An escape without a number is kept as it is. -/
theorem unescape_of_not_isReadAsNumber {mark : Char} {rest : List Char} (hmark : mark ∈ ['x', 'u'])
    (h : ∀ number c, IsReadAsNumber mark number c → ¬number <+: rest) :
    unescape ('\\' :: mark :: rest) = mark :: (numberTaken mark rest ++
      unescape (rest.drop (numberTaken mark rest).length)) := by
  refine unescape_of_namesNothing hmark (fun number c hnumber ↦ h number c (.numbered hnumber)) ?_
  rintro rfl hsigned
  obtain ⟨number, c, hnumber, hbegins⟩ := isReadAsNumber_of_beginsSigned hsigned
  exact h number c hnumber hbegins

theorem unescape_lone : unescape ['\\'] = ['\\'] := by
  rw [unescape, if_pos rfl, escapeAt, List.drop_nil, unescape]
  rfl

theorem numberTaken_of_notMem {mark : Char} (h : mark ∉ ['x', 'u']) (rest : List Char) :
    numberTaken mark rest = [] := by
  unfold numberTaken
  split <;> simp_all

/-- The marks of the escapes that are not numeric. -/
theorem exists_control_or_notMem {mark : Char} (h : mark ∉ ['x', 'u']) :
    (∃ c, (mark, c) ∈ controlEscapes) ∨ mark ∉ ['n', 'r', 't', '0', 'x', 'u'] := by
  by_cases hcontrol : mark ∈ ['n', 'r', 't', '0']
  · have hall : ∀ mark ∈ ['n', 'r', 't', '0'], ∃ entry ∈ controlEscapes, entry.1 = mark := by
      simp [controlEscapes]
    obtain ⟨⟨_, c⟩, hentry, rfl⟩ := hall mark hcontrol
    exact .inl ⟨c, hentry⟩
  · refine .inr fun hmem ↦ ?_
    have hsplit : mark ∈ ['n', 'r', 't', '0'] ++ ['x', 'u'] := hmem
    exact (List.mem_append.mp hsplit).elim hcontrol h

theorem notMem_of_mem_controlEscapes {mark c : Char} (h : (mark, c) ∈ controlEscapes) :
    mark ∉ ['x', 'u'] := by
  have hall : ∀ entry ∈ controlEscapes, entry.1 ∉ ['x', 'u'] := by decide
  exact hall _ h

/-! ## Whole bodies -/

/-- A body is decoded by the rules, if they tell a number at each escape as the decoder does. -/
theorem decodesTo_unescape {Numeral : Char → List Char → Char → Prop} {body : List Char}
    (h : ∀ mark rest, ByEscapes body ('\\' :: mark :: rest) → ∀ number c, number <+: rest →
      (Numeral mark number c ↔ IsReadAsNumber mark number c)) :
    DecodesTo Numeral body (unescape body) := by
  induction body using decoding_induction with
  | nil =>
    rw [unescape]
    exact .nil
  | lone =>
    rw [unescape_lone]
    exact .lone
  | plain c rest hc ih =>
    rw [unescape, if_neg hc]
    exact .plain hc (ih fun mark rest' hreach ↦ h mark rest' (.plain hc hreach))
  | escape mark rest ih =>
    have hhere := h mark rest (.here _)
    have hbehind := ih fun mark' rest' hreach ↦
      h mark' rest' (byEscapes_escape_iff.mpr (.inr hreach))
    by_cases hnumber : ∃ number c, IsReadAsNumber mark number c ∧ number <+: rest
    · obtain ⟨number, c, hnumber, rest', rfl⟩ := hnumber
      rw [hnumber.numberTaken_append, List.drop_left] at hbehind
      rw [hnumber.unescape_append]
      exact .numeral ((hhere number c (List.prefix_append _ _)).mpr hnumber) hbehind
    · have hnone : ∀ number c, IsReadAsNumber mark number c → ¬number <+: rest :=
        fun number c hread hbegins ↦ hnumber ⟨number, c, hread, hbegins⟩
      by_cases hmark : mark ∈ ['x', 'u']
      · rw [unescape_of_not_isReadAsNumber hmark hnone]
        refine .verbatim hmark (fun number c hnumeral hbegins ↦ ?_) hbehind
        exact hnone number c ((hhere number c hbegins).mp hnumeral) hbegins
      · rw [numberTaken_of_notMem hmark, List.length_nil, List.drop_zero] at hbehind
        rcases exists_control_or_notMem hmark with ⟨c, hcontrol⟩ | hescaped
        · rw [unescape_control hcontrol]
          exact .control hcontrol hbehind
        · rw [unescape_escaped hescaped]
          exact .escaped hescaped hbehind

theorem DecodesTo.unescape_eq {body value : List Char} (h : DecodesTo IsReadAsNumber body value) :
    unescape body = value := by
  induction h with
  | nil => rw [unescape]
  | lone => exact unescape_lone
  | plain hc _ ih => rw [unescape, if_neg hc, ih]
  | control hmark _ ih => rw [unescape_control hmark, ih]
  | escaped hmark _ ih => rw [unescape_escaped hmark, ih]
  | numeral hnumber _ ih => rw [hnumber.unescape_append, ih]
  | verbatim hmark hnone _ ih => rw [unescape_of_not_isReadAsNumber hmark hnone, ih]

/-- A number with a sign is not decoded as it is meant to be. -/
theorem unescape_ne_of_beginsSigned {rest value : List Char} (h : BeginsSigned rest) :
    unescape ('\\' :: 'x' :: rest) ≠ 'x' :: value := by
  obtain ⟨digit, c, hname, behind, rfl⟩ := h
  intro heq
  rw [(IsReadAsNumber.signed hname).unescape_append] at heq
  have hlt := hname.toNat_lt
  rw [(List.cons.inj heq).1] at hlt
  exact absurd hlt (by decide)

theorem DecodesTo.of_plain {Numeral : Char → List Char → Char → Prop} {c : Char}
    {rest value : List Char} (hc : c ≠ '\\') (h : DecodesTo Numeral (c :: rest) (c :: value)) :
    DecodesTo Numeral rest value := by
  cases h with
  | plain _ h => exact h
  | lone | control | escaped | numeral | verbatim => exact absurd rfl hc

section Meant

variable {mark : Char} {rest : List Char}

/-- What is meant at an escape is not what a number with a sign is decoded to. -/
theorem DecodesTo.not_beginsSigned
    (h : DecodesTo IsNumbered ('\\' :: 'x' :: rest) (unescape ('\\' :: 'x' :: rest))) :
    ¬BeginsSigned rest := by
  intro hsigned
  generalize hvalue : unescape ('\\' :: 'x' :: rest) = value at h
  cases h with
  | plain hc => exact absurd rfl hc
  | control hmark => exact absurd (by simp) (notMem_of_mem_controlEscapes hmark)
  | escaped hmark => exact absurd (by simp) hmark
  | numeral hnumber => exact hnumber.not_beginsSigned hsigned
  | verbatim => exact unescape_ne_of_beginsSigned hsigned hvalue

/-- Behind an escape that is decoded as it is meant to be, the same holds of the rest if it held of
the whole. -/
theorem DecodesTo.behind
    (h : DecodesTo IsNumbered ('\\' :: mark :: rest) (unescape ('\\' :: mark :: rest))) :
    DecodesTo IsNumbered (rest.drop (numberTaken mark rest).length)
      (unescape (rest.drop (numberTaken mark rest).length)) := by
  generalize hvalue : unescape ('\\' :: mark :: rest) = value at h
  cases h with
  | plain hc => exact absurd rfl hc
  | control hmark h =>
    rw [unescape_control hmark] at hvalue
    rw [numberTaken_of_notMem (notMem_of_mem_controlEscapes hmark), List.length_nil, List.drop_zero,
      (List.cons.inj hvalue).2]
    exact h
  | escaped hmark h =>
    rw [unescape_escaped hmark] at hvalue
    rw [numberTaken_of_notMem fun hmem ↦ hmark (List.mem_append_right ['n', 'r', 't', '0'] hmem),
      List.length_nil, List.drop_zero, (List.cons.inj hvalue).2]
    exact h
  | numeral hnumber h =>
    have hread := IsReadAsNumber.numbered hnumber
    rw [hread.unescape_append] at hvalue
    rw [hread.numberTaken_append, List.drop_left, (List.cons.inj hvalue).2]
    exact h
  | verbatim hmark hnone h =>
    rw [unescape_of_namesNothing hmark hnone] at hvalue
    · rwa [List.append_cancel_left (List.cons.inj hvalue).2]
    · rintro rfl hsigned
      exact unescape_ne_of_beginsSigned hsigned hvalue

end Meant

/-- A body is decoded as it is meant to be exactly if the decoder comes to no number with a sign. -/
theorem decodesTo_isNumbered_iff {body : List Char} :
    DecodesTo IsNumbered body (unescape body) ↔
      ∀ rest, ByEscapes body ('\\' :: 'x' :: rest) → ¬BeginsSigned rest := by
  constructor
  · intro h rest hreach
    generalize hleft : '\\' :: 'x' :: rest = left at hreach
    induction hreach with
    | here => exact (hleft ▸ h).not_beginsSigned
    | plain hc _ ih =>
      rw [unescape, if_neg hc] at h
      exact ih (h.of_plain hc) hleft
    | @escape text left hbehind ih =>
      cases text with
      | nil =>
        rw [List.drop_nil, ← hleft] at hbehind
        exact absurd hbehind Reaches.not_nil
      | cons mark text =>
        rw [drop_escapeAt] at ih
        exact ih h.behind hleft
  · intro h
    refine decodesTo_unescape fun mark rest hreach number c hbegins ↦ ⟨.numbered, fun hread ↦ ?_⟩
    cases hread with
    | numbered hnumber => exact hnumber
    | signed hname => exact absurd ⟨_, c, hname, hbegins⟩ (h rest hreach)

/-- **A body is decoded by the rules, but signs pass for digits.** What the decoder writes for a
body is what the rules give and nothing else, if behind `\x` a plus sign and a digit count as a
number. By the rules as they are meant, where a number has digits only, the body is decoded exactly
if the decoder comes to no such sign in it. Any two digits are a number behind `\x`. -/
theorem unescape_by_rules (body : List Char) :
    (∀ value, unescape body = value ↔ DecodesTo IsReadAsNumber body value) ∧
      (DecodesTo IsNumbered body (unescape body) ↔
        ∀ rest, ByEscapes body ('\\' :: 'x' :: rest) → ¬BeginsSigned rest) ∧
      ∀ high low, (∃ c, IsNumbered 'x' [high, low] c) ↔
        (∃ value, IsHexDigit high value) ∧ ∃ value, IsHexDigit low value := by
  refine ⟨fun value ↦ ⟨?_, DecodesTo.unescape_eq⟩, decodesTo_isNumbered_iff, fun high low ↦ ?_⟩
  · rintro rfl
    exact decodesTo_unescape fun _ _ _ _ _ _ ↦ Iff.rfl
  · exact exists_isNumbered_byte_iff

/-- Behind the mark stand a sign and a digit, which is no number and should be kept as it is. -/
theorem unescape_by_rules_ne :
    DecodesTo IsNumbered "\\x+4".toList "x+4".toList ∧
      unescape "\\x+4".toList = ['\x04'] ∧
      ¬DecodesTo IsNumbered "\\x+4".toList (unescape "\\x+4".toList) := by
  have hname : NamesChar ['4'] '\x04' :=
    .mk (by decide) (.cons (.inl rfl) .nil : List.Forall₂ _ _ [4]) rfl
  have hsigned : BeginsSigned ['+', '4'] := ⟨'4', '\x04', hname, List.prefix_refl _⟩
  have hnone : ∀ number c, IsNumbered 'x' number c → ¬number <+: ['+', '4'] := by
    rintro number c hnumber ⟨behind, hrest⟩
    exact hnumber.not_beginsSigned (hrest ▸ hsigned)
  exact ⟨.verbatim (by decide) hnone .nil, by decide +kernel, fun h ↦ h.not_beginsSigned hsigned⟩

end TypeNotation
