import TypeNotation.Json.Writer

/-!
# JSON strings

Which texts are JSON strings and what they stand for, after RFC 8259: between quotes, characters
that stand for themselves, escapes of one character, and numeric escapes, two of them for a
character outside the basic plane. A string says itself where it ends, so in front of any text it is
read in one way only. What is written for a string is one of the texts that stand for it.
-/

namespace TypeNotation

/-! ## The grammar -/

/-- What an escape of one character stands for. -/
def jsonEscape? : Char → Option Char
  | '"' => some '"'
  | '\\' => some '\\'
  | '/' => some '/'
  | 'b' => some '\x08'
  | 'f' => some '\x0c'
  | 'n' => some '\n'
  | 'r' => some '\r'
  | 't' => some '\t'
  | _ => none

/-- The text stands for one code unit: a numeric escape. -/
inductive IsJsonUnit : List Char → Nat → Prop
  | mk {digits : List Char} {n : Nat} (hlength : digits.length = 4)
      (hvalue : Hex.value? digits = some n) : IsJsonUnit ('\\' :: 'u' :: digits) n

/-- Whether a code unit is the first half of a surrogate pair. -/
def isFirstHalf (n : Nat) : Bool := 0xD800 ≤ n && n ≤ 0xDBFF

/-- Whether a code unit is the second half of a surrogate pair. -/
def isSecondHalf (n : Nat) : Bool := 0xDC00 ≤ n && n ≤ 0xDFFF

/-- The text stands for the character in a JSON string. -/
inductive IsJsonChar : List Char → Char → Prop
  | plain {c : Char} (hquote : c ≠ '"') (hbackslash : c ≠ '\\') (hcontrol : ¬c < ' ') :
      IsJsonChar [c] c
  | escape {mark c : Char} (hmark : jsonEscape? mark = some c) : IsJsonChar ['\\', mark] c
  | unit {text : List Char} {n : Nat} (hunit : IsJsonUnit text n)
      (hfirst : isFirstHalf n = false) (hsecond : isSecondHalf n = false) :
      IsJsonChar text (Char.ofNat n)
  | pair {text text' : List Char} {n n' : Nat} (hunit : IsJsonUnit text n)
      (hunit' : IsJsonUnit text' n') (hfirst : isFirstHalf n = true)
      (hsecond : isSecondHalf n' = true) :
      IsJsonChar (text ++ text') (Char.ofNat (0x10000 + (n - 0xD800) * 0x400 + (n' - 0xDC00)))

/-- The text, up to and with the closing quote, stands for the characters. -/
inductive IsJsonBody : List Char → List Char → Prop
  | close : IsJsonBody ['"'] []
  | char {text body value : List Char} {c : Char} (hchar : IsJsonChar text c)
      (hbody : IsJsonBody body value) : IsJsonBody (text ++ body) (c :: value)

/-- The text is a JSON string that stands for the characters. -/
inductive IsJsonString : List Char → List Char → Prop
  | mk {body value : List Char} (hbody : IsJsonBody body value) : IsJsonString ('"' :: body) value

/-! ## In front of other text -/

section Unique

variable {a b u v : List Char}

theorem IsJsonUnit.unique {n n' : Nat} (h : IsJsonUnit a n) (h' : IsJsonUnit b n')
    (heq : a ++ u = b ++ v) : a = b ∧ n = n' := by
  obtain ⟨hlength, hvalue⟩ := h
  obtain ⟨hlength', hvalue'⟩ := h'
  simp only [List.cons_append, List.cons.injEq, true_and] at heq
  obtain ⟨rfl, -⟩ := List.append_inj heq (hlength.trans hlength'.symm)
  exact ⟨rfl, Option.some.inj (hvalue.symm.trans hvalue')⟩

theorem IsJsonUnit.exists_cons {n : Nat} (h : IsJsonUnit a n) :
    ∃ digits, a = '\\' :: 'u' :: digits := by
  obtain ⟨-, -⟩ := h
  exact ⟨_, rfl⟩

theorem IsJsonChar.exists_cons {c : Char} (h : IsJsonChar a c) :
    ∃ first others, a = first :: others ∧ first ≠ '"' := by
  cases h with
  | plain hquote => exact ⟨_, _, rfl, hquote⟩
  | escape => exact ⟨_, _, rfl, by decide⟩
  | unit hunit =>
    obtain ⟨digits, rfl⟩ := hunit.exists_cons
    exact ⟨_, _, rfl, by decide⟩
  | pair hunit =>
    obtain ⟨digits, rfl⟩ := hunit.exists_cons
    exact ⟨_, _, rfl, by decide⟩

/-- The escapes of one character are none of the numeric ones. -/
private theorem IsJsonUnit.ne_escape {n : Nat} {mark c : Char} (h : IsJsonUnit a n)
    (hmark : jsonEscape? mark = some c) : a ++ u ≠ '\\' :: mark :: v := by
  obtain ⟨digits, rfl⟩ := h.exists_cons
  intro heq
  cases heq
  cases hmark

private theorem IsJsonUnit.ne_plain {n : Nat} {c : Char} (h : IsJsonUnit a n)
    (hbackslash : c ≠ '\\') : a ++ u ≠ c :: v := by
  obtain ⟨digits, rfl⟩ := h.exists_cons
  intro heq
  exact hbackslash (List.cons.inj heq).1.symm

theorem IsJsonChar.unique {c d : Char} (h : IsJsonChar a c) (h' : IsJsonChar b d)
    (heq : a ++ u = b ++ v) : a = b ∧ c = d := by
  -- the backslash and the `u` behind it tell three kinds apart; a unit and a pair both begin with a
  -- unit, which is the first half of a pair in the one case only
  cases h with
  | plain hquote hbackslash =>
    cases h' with
    | plain =>
      obtain ⟨rfl, -⟩ := List.cons.inj heq
      exact ⟨rfl, rfl⟩
    | escape => exact absurd (List.cons.inj heq).1 hbackslash
    | unit hunit => exact absurd heq.symm (hunit.ne_plain hbackslash)
    | pair hunit =>
      rw [List.append_assoc] at heq
      exact absurd heq.symm (hunit.ne_plain hbackslash)
  | escape hmark =>
    cases h' with
    | plain _ hbackslash => exact absurd (List.cons.inj heq).1.symm hbackslash
    | escape hmark' =>
      simp only [List.cons_append, List.cons.injEq, true_and] at heq
      obtain ⟨rfl, -⟩ := heq
      exact ⟨rfl, Option.some.inj (hmark.symm.trans hmark')⟩
    | unit hunit => exact absurd heq.symm (hunit.ne_escape hmark)
    | pair hunit =>
      rw [List.append_assoc] at heq
      exact absurd heq.symm (hunit.ne_escape hmark)
  | unit hunit hfirst =>
    cases h' with
    | plain _ hbackslash => exact absurd heq (hunit.ne_plain hbackslash)
    | escape hmark => exact absurd heq (hunit.ne_escape hmark)
    | unit hunit' =>
      obtain ⟨rfl, rfl⟩ := hunit.unique hunit' heq
      exact ⟨rfl, rfl⟩
    | pair hunit' _ hfirst' =>
      rw [List.append_assoc] at heq
      obtain ⟨rfl, rfl⟩ := hunit.unique hunit' heq
      cases hfirst.symm.trans hfirst'
  | pair hunit hsecond hfirst =>
    cases h' with
    | plain _ hbackslash =>
      rw [List.append_assoc] at heq
      exact absurd heq (hunit.ne_plain hbackslash)
    | escape hmark =>
      rw [List.append_assoc] at heq
      exact absurd heq (hunit.ne_escape hmark)
    | unit hunit' hfirst' =>
      rw [List.append_assoc] at heq
      obtain ⟨rfl, rfl⟩ := hunit.unique hunit' heq
      cases hfirst.symm.trans hfirst'
    | pair hunit' hsecond' =>
      rw [List.append_assoc, List.append_assoc] at heq
      obtain ⟨rfl, rfl⟩ := hunit.unique hunit' heq
      obtain ⟨rfl, rfl⟩ := hsecond.unique hsecond' (List.append_cancel_left heq)
      exact ⟨rfl, rfl⟩

theorem IsJsonBody.unique {x y : List Char} (h : IsJsonBody a x) (h' : IsJsonBody b y)
    (heq : a ++ u = b ++ v) : a = b ∧ x = y := by
  induction h generalizing b y with
  | close =>
    cases h' with
    | close => exact ⟨rfl, rfl⟩
    | char hchar hbody =>
      obtain ⟨first, others, rfl, hne⟩ := hchar.exists_cons
      exact absurd (List.cons.inj heq).1.symm hne
  | char hchar hbody ih =>
    cases h' with
    | close =>
      obtain ⟨first, others, rfl, hne⟩ := hchar.exists_cons
      exact absurd (List.cons.inj heq).1 hne
    | char hchar' hbody' =>
      rw [List.append_assoc, List.append_assoc] at heq
      obtain ⟨rfl, rfl⟩ := hchar.unique hchar' heq
      obtain ⟨rfl, rfl⟩ := ih hbody' (List.append_cancel_left heq)
      exact ⟨rfl, rfl⟩

theorem IsJsonString.unique {x y : List Char} (h : IsJsonString a x) (h' : IsJsonString b y)
    (heq : a ++ u = b ++ v) : a = b ∧ x = y := by
  obtain ⟨hbody⟩ := h
  obtain ⟨hbody'⟩ := h'
  obtain ⟨rfl, rfl⟩ := hbody.unique hbody' (List.cons.inj heq).2
  exact ⟨rfl, rfl⟩

end Unique

/-! ## Written strings -/

private theorem isJsonUnit_writePadded :
    ∀ n < 0x20, (Hex.writePadded 4 n).length = 4 ∧ Hex.value? (Hex.writePadded 4 n) = some n := by
  decide

theorem isJsonChar_jsonChar (c : Char) : IsJsonChar (jsonChar c) c := by
  unfold jsonChar
  split
  · next h =>
    rw [h]
    exact .escape rfl
  next hquote =>
  split
  · next h =>
    rw [h]
    exact .escape rfl
  next hbackslash =>
  split
  · next h =>
    rw [h]
    exact .escape rfl
  split
  · next h =>
    rw [h]
    exact .escape rfl
  split
  · next h =>
    rw [h]
    exact .escape rfl
  split
  · next h =>
    rw [h]
    exact .escape rfl
  split
  · next h =>
    rw [h]
    exact .escape rfl
  split
  · next hcontrol =>
    -- far below the surrogates, so the unit stands alone
    have hlt : c.toNat < 0x20 := hcontrol
    obtain ⟨hlength, hvalue⟩ := isJsonUnit_writePadded c.toNat hlt
    have hunit := IsJsonChar.unit (.mk hlength hvalue) (by simp [isFirstHalf]; omega)
      (by simp [isSecondHalf]; omega)
    rwa [Char.ofNat_toNat] at hunit
  · next hcontrol => exact .plain hquote hbackslash hcontrol

theorem isJsonString_jsonString (value : List Char) : IsJsonString (jsonString value) value := by
  have hbody : IsJsonBody (value.flatMap jsonChar ++ ['"']) value := by
    induction value with
    | nil => exact .close
    | cons c value ih =>
      rw [List.flatMap_cons, List.append_assoc]
      exact .char (isJsonChar_jsonChar c) ih
  exact .mk hbody

/-! ## Strings without escapes -/

/-- The character may stand for itself in a string. -/
def IsPlain (c : Char) : Prop := c ≠ '"' ∧ c ≠ '\\' ∧ ¬c < ' '

instance : DecidablePred IsPlain := fun _ ↦ inferInstanceAs (Decidable (_ ∧ _ ∧ _))

/-- The characters between quotes, as they are. -/
def betweenQuotes (value : List Char) : List Char := '"' :: (value ++ ['"'])

section Plain

variable {text body value : List Char} {c : Char}

theorem IsJsonUnit.two_le_length {n : Nat} (h : IsJsonUnit text n) : 2 ≤ text.length := by
  obtain ⟨digits, rfl⟩ := h.exists_cons
  rw [List.length_cons, List.length_cons]
  omega

theorem IsJsonChar.isPlain_or_two_le_length (h : IsJsonChar text c) :
    IsPlain c ∧ text.length = 1 ∨ 2 ≤ text.length := by
  cases h with
  | plain hquote hbackslash hcontrol => exact .inl ⟨⟨hquote, hbackslash, hcontrol⟩, rfl⟩
  | escape => exact .inr (Nat.le_refl 2)
  | unit hunit => exact .inr hunit.two_le_length
  | pair hunit =>
    rw [List.length_append]
    exact .inr (Nat.le_add_right_of_le hunit.two_le_length)

theorem IsJsonBody.length_lt (h : IsJsonBody body value) : value.length < body.length := by
  induction h with
  | close => exact Nat.one_pos
  | char hchar _ ih =>
    rw [List.length_append, List.length_cons]
    rcases hchar.isPlain_or_two_le_length with ⟨-, hlength⟩ | hlength <;> omega

/-- If a text is no longer than what it stands for and its closing quote, nothing is escaped in
it. -/
theorem IsJsonBody.isPlain_of_length (h : IsJsonBody body value)
    (hlength : body.length = value.length + 1) : ∀ c ∈ value, IsPlain c := by
  induction h with
  | close => exact List.forall_mem_nil _
  | char hchar hbody ih =>
    have hlt := hbody.length_lt
    rw [List.length_append, List.length_cons] at hlength
    rcases hchar.isPlain_or_two_le_length with ⟨hplain, hone⟩ | htwo
    · exact List.forall_mem_cons.mpr ⟨hplain, ih (by omega)⟩
    · omega

/-- Characters between quotes are a string that stands for them exactly if none of them needs an
escape. -/
theorem isJsonString_betweenQuotes_iff :
    IsJsonString (betweenQuotes value) value ↔ ∀ c ∈ value, IsPlain c := by
  constructor
  · rintro ⟨hbody⟩
    exact hbody.isPlain_of_length (by rw [List.length_append, List.length_singleton])
  · intro h
    refine .mk ?_
    induction value with
    | nil => exact .close
    | cons c value ih =>
      obtain ⟨⟨hquote, hbackslash, hcontrol⟩, hvalue⟩ := List.forall_mem_cons.mp h
      have hchar : IsJsonChar [c] c := .plain hquote hbackslash hcontrol
      have hbody : IsJsonBody ([c] ++ (value ++ ['"'])) (c :: value) := .char hchar (ih hvalue)
      exact hbody

theorem jsonChar_of_isPlain (h : IsPlain c) : jsonChar c = [c] := by
  obtain ⟨hquote, hbackslash, hcontrol⟩ := h
  have hne (d : Char) (hd : d < ' ') : c ≠ d := by
    rintro rfl
    exact hcontrol hd
  rw [jsonChar, if_neg hquote, if_neg hbackslash, if_neg (hne _ (by decide)),
    if_neg (hne _ (by decide)), if_neg (hne _ (by decide)), if_neg (hne _ (by decide)),
    if_neg (hne _ (by decide)), if_neg hcontrol]

/-- What is written for a string is the string between quotes exactly if no character of it needs an
escape. -/
theorem jsonString_eq_betweenQuotes_iff :
    jsonString value = betweenQuotes value ↔ ∀ c ∈ value, IsPlain c := by
  constructor
  · intro h
    have hstring := isJsonString_jsonString value
    rw [h] at hstring
    exact isJsonString_betweenQuotes_iff.mp hstring
  · intro h
    have hchars : value.flatMap jsonChar = value := by
      induction value with
      | nil => rfl
      | cons c value ih =>
        obtain ⟨hc, hvalue⟩ := List.forall_mem_cons.mp h
        rw [List.flatMap_cons, jsonChar_of_isPlain hc, ih hvalue, List.singleton_append]
    rw [jsonString, hchars]
    rfl

end Plain

end TypeNotation
