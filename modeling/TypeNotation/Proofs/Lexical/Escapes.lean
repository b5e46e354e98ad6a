import TypeNotation.Proofs.Lexical.Spellings

/-!
# Escapes that name no character

A numeric escape takes a fixed number of characters, or all up to a closing brace, before it is
known whether they are the number of a character. If they are not, the escape stands for its mark,
and what was taken is kept as it stands, undecoded. A backslash among it is therefore no escape,
although it begins one to the lexer, which pairs each backslash with the character behind it. As
long as no backslash is taken, the decoder comes by every pair of the lexer, and what follows an
escape is decoded as if the escape were not there; else a pair is passed over, and what is left of
it may be read as something else.
-/

namespace TypeNotation

/-! ## Numbers of characters -/

instance (c : Char) (value : Nat) : Decidable (IsHexDigit c value) :=
  inferInstanceAs (Decidable (_ ∨ _))

theorem isHexDigit_of_digit? {c : Char} {value : Nat} (h : Hex.digit? c = some value) :
    IsHexDigit c value := by
  -- a digit is as far behind the first one of its kind as its value is behind the first value
  have key {first : Char} (offset count : Nat) (hlow : first ≤ c)
      (hhigh : c.toNat < first.toNat + count)
      (hall : ∀ n < count, IsHexDigit (Char.ofNat (first.toNat + n)) (n + offset)) :
      IsHexDigit c (c.toNat - first.toNat + offset) := by
    have hle : first.toNat ≤ c.toNat := UInt32.le_iff_toNat_le.mp hlow
    have hdigit := hall (c.toNat - first.toNat) (by omega)
    rwa [Nat.add_sub_cancel' hle, Char.ofNat_toNat] at hdigit
  have hlt {last : Char} {bound : Nat} (hhigh : c ≤ last) (hbound : last.toNat < bound) :
      c.toNat < bound :=
    Nat.lt_of_le_of_lt (UInt32.le_iff_toNat_le.mp hhigh) hbound
  unfold Hex.digit? at h
  split_ifs at h with hdecimal hlower hupper <;> cases h
  · exact key 0 10 hdecimal.1 (hlt hdecimal.2 (by decide)) (by decide)
  · exact key 10 6 hlower.1 (hlt hlower.2 (by decide)) (by decide)
  · exact key 10 6 hupper.1 (hlt hupper.2 (by decide)) (by decide)

theorem exists_values_of_valueFrom? {digits : List Char} {high n : Nat}
    (h : Hex.valueFrom? high digits = some n) :
    ∃ values, List.Forall₂ IsHexDigit digits values := by
  induction digits generalizing high with
  | nil => exact ⟨[], .nil⟩
  | cons digit digits ih =>
    obtain ⟨value, hdigit, hbehind⟩ := Option.bind_eq_some_iff.mp h
    obtain ⟨values, hvalues⟩ := ih hbehind
    exact ⟨value :: values, .cons (isHexDigit_of_digit? hdigit) hvalues⟩

theorem toNat_ofNat_of_isValidChar {n : Nat} (h : n.isValidChar) : (Char.ofNat n).toNat = n := by
  rw [Char.ofNat, dif_pos h]
  rfl

theorem namesChar_of_char? {digits : List Char} {c : Char} (h : Hex.char? digits = some c) :
    NamesChar digits c := by
  obtain ⟨n, hvalue, hvalid⟩ := Option.bind_eq_some_iff.mp h
  have hne : digits ≠ [] := by
    rintro rfl
    cases hvalue
  have hvalueFrom : Hex.valueFrom? 0 digits = some n := by
    rwa [Hex.value?.eq_2 _ hne] at hvalue
  obtain ⟨values, hvalues⟩ := exists_values_of_valueFrom? hvalueFrom
  rw [Hex.valueFrom?_of_forall₂ hvalues, Nat.zero_mul, Nat.zero_add] at hvalueFrom
  refine .mk hne hvalues ?_
  split_ifs at hvalid with hchar
  cases hvalid
  rw [Option.some.inj hvalueFrom, toNat_ofNat_of_isValidChar hchar]

/-- Behind the mark of an escape, the text is the number of the character. -/
inductive IsNumbered : Char → List Char → Char → Prop
  | byte {digits : List Char} {c : Char} (hlength : digits.length = 2)
      (hname : NamesChar digits c) : IsNumbered 'x' digits c
  | unit {digits : List Char} {c : Char} (hlength : digits.length = 4)
      (hname : NamesChar digits c) : IsNumbered 'u' digits c
  | braced {digits : List Char} {c : Char} (hname : NamesChar digits c) :
      IsNumbered 'u' ('{' :: (digits ++ ['}'])) c

/-- The text behind the mark of an escape does not begin with the number of a character. -/
def NamesNothing (mark : Char) (rest : List Char) : Prop :=
  ∀ number c, IsNumbered mark number c → ¬number <+: rest

/-- The text begins with a plus sign and a digit. -/
def BeginsSigned (rest : List Char) : Prop :=
  ∃ digit c, NamesChar [digit] c ∧ ['+', digit] <+: rest

/-! ## What an escape takes -/

/-- What an escape takes for a number behind its mark, whether or not it is one. -/
def numberTaken : Char → List Char → List Char
  | 'x', rest => rest.take 2
  | 'u', '{' :: rest => '{' :: rest.take ((rest.takeWhile (· ≠ '}')).length + 1)
  | 'u', rest => rest.take 4
  | _, _ => []

theorem numberTaken_isPrefix (mark : Char) (rest : List Char) : numberTaken mark rest <+: rest := by
  unfold numberTaken
  split
  · exact List.take_prefix _ _
  · exact List.cons_prefix_cons.mpr ⟨rfl, List.take_prefix _ _⟩
  · exact List.take_prefix _ _
  · exact List.nil_prefix

theorem numberTaken_append_drop (mark : Char) (rest : List Char) :
    numberTaken mark rest ++ rest.drop (numberTaken mark rest).length = rest :=
  List.prefix_iff_eq_append.mp (numberTaken_isPrefix mark rest)

/-- The text up to a closing brace, which is all of it if there is none. -/
theorem take_braced (rest : List Char) :
    rest.take ((rest.takeWhile (· ≠ '}')).length + 1) =
      rest.takeWhile (· ≠ '}') ++
        if (rest.takeWhile (· ≠ '}')).length < rest.length then ['}'] else [] := by
  induction rest with
  | nil => rfl
  | cons c rest ih =>
    by_cases hc : c = '}'
    · subst hc
      simp
    · rw [List.takeWhile_cons_of_pos (by simpa using hc), List.length_cons, List.take_succ_cons, ih,
        List.length_cons, List.cons_append]
      simp only [Nat.add_lt_add_iff_right]

theorem isNumbered_or_beginsSigned {rest : List Char} {c : Char}
    (h : byteChar? (rest.take 2) = some c) :
    IsNumbered 'x' (rest.take 2) c ∨ BeginsSigned rest := by
  have hbegins := List.take_prefix 2 rest
  generalize rest.take 2 = digits at h hbegins ⊢
  unfold byteChar? at h
  split at h
  · rename_i high low
    split_ifs at h with hplus
    · subst hplus
      exact .inr ⟨low, c, namesChar_of_char? h, hbegins⟩
    · exact .inl (.byte rfl (namesChar_of_char? h))
  · cases h

/-- An escape with a brace takes all up to the closing one. -/
theorem escapeAt_brace (rest : List Char) :
    let taken := rest.take ((rest.takeWhile (· ≠ '}')).length + 1)
    ∃ value, escapeAt ('u' :: '{' :: rest) = (value, 2 + taken.length) ∧
      (value = 'u' :: '{' :: taken ∨ ∃ c, value = [c] ∧ IsNumbered 'u' ('{' :: taken) c) := by
  intro taken
  have htaken : taken = _ := take_braced rest
  rw [htaken, escapeAt]
  split_ifs
  · have hlength : 3 + (rest.takeWhile (· ≠ '}')).length =
        2 + (rest.takeWhile (· ≠ '}') ++ ['}']).length := by
      rw [List.length_append, List.length_singleton]
      omega
    rw [hlength]
    split
    · next c hchar =>
      exact ⟨_, rfl, .inr ⟨c, rfl, .braced (namesChar_of_char? hchar)⟩⟩
    · exact ⟨_, rfl, .inl rfl⟩
  · rw [List.append_nil]
    exact ⟨_, rfl, .inl rfl⟩

/-- An escape takes its mark and the number behind it, or what stands in place of a number. If the
mark is that of a numeric escape, it stands for the character of this number, or for what it
takes. -/
theorem escapeAt_cons (mark : Char) (rest : List Char) :
    ∃ value, escapeAt (mark :: rest) = (value, 1 + (numberTaken mark rest).length) ∧
      (mark ∈ ['x', 'u'] → value = mark :: numberTaken mark rest ∨
        ∃ c, value = [c] ∧
          (IsNumbered mark (numberTaken mark rest) c ∨ mark = 'x' ∧ BeginsSigned rest)) := by
  unfold numberTaken
  split
  · rw [escapeAt]
    split
    · next c hbyte =>
      refine ⟨_, rfl, fun _ ↦ .inr ⟨c, rfl, ?_⟩⟩
      exact (isNumbered_or_beginsSigned hbyte).imp_right fun hsigned ↦ ⟨rfl, hsigned⟩
    · exact ⟨_, rfl, fun _ ↦ .inl rfl⟩
  · next rest =>
    obtain ⟨value, heq, hvalue⟩ := escapeAt_brace rest
    refine ⟨value, ?_, fun _ ↦ hvalue.imp_right ?_⟩
    · rw [heq, List.length_cons, ← Nat.add_assoc, Nat.add_right_comm]
    · rintro ⟨c, hc, hnumber⟩
      exact ⟨c, hc, .inl hnumber⟩
  · next hbrace =>
    rw [escapeAt.eq_8 _ (by simpa using hbrace)]
    split
    · next c hchar =>
      split_ifs at hchar with hlength
      exact ⟨_, rfl, fun _ ↦ .inr ⟨c, rfl, .inl (.unit hlength (namesChar_of_char? hchar))⟩⟩
    · exact ⟨_, rfl, fun _ ↦ .inl rfl⟩
  · next hx hu _ =>
    have hmark : mark ∉ ['x', 'u'] := by simpa using ⟨hx, hu⟩
    obtain ⟨c, heq⟩ : ∃ c, escapeAt (mark :: rest) = ([c], 1) := by
      unfold escapeAt
      split <;> simp_all
    exact ⟨[c], heq, fun hmem ↦ absurd hmem hmark⟩

theorem drop_escapeAt (mark : Char) (rest : List Char) :
    (mark :: rest).drop (escapeAt (mark :: rest)).2 =
      rest.drop (numberTaken mark rest).length := by
  obtain ⟨value, heq, -⟩ := escapeAt_cons mark rest
  rw [heq, Nat.add_comm, List.drop_succ_cons]

theorem escapeAt_of_namesNothing {mark : Char} {rest : List Char} (hmark : mark ∈ ['x', 'u'])
    (h : NamesNothing mark rest) (hsigned : mark = 'x' → ¬BeginsSigned rest) :
    escapeAt (mark :: rest) =
      (mark :: numberTaken mark rest, 1 + (numberTaken mark rest).length) := by
  obtain ⟨value, heq, hnumeric⟩ := escapeAt_cons mark rest
  obtain rfl | ⟨c, -, hnumber | ⟨hx, hplus⟩⟩ := hnumeric hmark
  · exact heq
  · exact absurd (numberTaken_isPrefix mark rest) (h _ c hnumber)
  · exact absurd hplus (hsigned hx)

/-! ## Reading from escape to escape -/

/-- A reader that passes over a backslash and as many characters behind it as it takes, and over
any other character alone, comes from the one text to the other. -/
inductive Reaches (taken : List Char → Nat) : List Char → List Char → Prop
  | here (text : List Char) : Reaches taken text text
  | plain {c : Char} {text left : List Char} (hc : c ≠ '\\') (h : Reaches taken text left) :
      Reaches taken (c :: text) left
  | escape {text left : List Char} (h : Reaches taken (text.drop (taken text)) left) :
      Reaches taken ('\\' :: text) left

/-- The lexer pairs a backslash with the character behind it. -/
abbrev ByPairs : List Char → List Char → Prop :=
  Reaches fun _ ↦ 1

/-- The decoder takes with a backslash what the escape takes. -/
abbrev ByEscapes : List Char → List Char → Prop :=
  Reaches fun rest ↦ (escapeAt rest).2

namespace Reaches

variable {taken : List Char → Nat} {text left : List Char}

theorem length_le (h : Reaches taken text left) : left.length ≤ text.length := by
  induction h with
  | here => exact Nat.le_refl _
  | plain _ _ ih => exact Nat.le_succ_of_le ih
  | escape _ ih =>
    rw [List.length_drop] at ih
    rw [List.length_cons]
    omega

theorem not_nil : ¬Reaches taken [] ('\\' :: left) := by
  intro h
  cases h

theorem cons_iff {c : Char} (hc : c ≠ '\\') :
    Reaches taken (c :: text) ('\\' :: left) ↔ Reaches taken text ('\\' :: left) := by
  constructor
  · intro h
    cases h with
    | here => exact absurd rfl hc
    | plain _ h => exact h
    | escape => exact absurd rfl hc
  · exact .plain hc

theorem append_iff {front : List Char} (hfront : '\\' ∉ front) :
    Reaches taken (front ++ text) ('\\' :: left) ↔ Reaches taken text ('\\' :: left) := by
  induction front with
  | nil => rfl
  | cons c front ih =>
    rw [List.mem_cons, not_or] at hfront
    rw [List.cons_append, cons_iff (Ne.symm hfront.1), ih hfront.2]

theorem escape_iff :
    Reaches taken ('\\' :: text) ('\\' :: left) ↔
      left = text ∨ Reaches taken (text.drop (taken text)) ('\\' :: left) := by
  constructor
  · intro h
    cases h with
    | here => exact .inl rfl
    | plain hc => exact absurd rfl hc
    | escape h => exact .inr h
  · rintro (rfl | h)
    · exact .here _
    · exact .escape h

theorem lone_iff : Reaches taken ['\\'] ('\\' :: left) ↔ left = [] := by
  rw [escape_iff, List.drop_nil, or_iff_left not_nil]

end Reaches

/-- Decoding goes on behind what an escape takes. -/
@[elab_as_elim]
theorem decoding_induction {motive : List Char → Prop} (nil : motive []) (lone : motive ['\\'])
    (escape : ∀ mark rest, motive (rest.drop (numberTaken mark rest).length) →
      motive ('\\' :: mark :: rest))
    (plain : ∀ c rest, c ≠ '\\' → motive rest → motive (c :: rest)) (body : List Char) :
    motive body := by
  induction body using unescape.induct with
  | case1 => exact nil
  | case2 rest ih =>
    cases rest with
    | nil => exact lone
    | cons mark rest =>
      rw [drop_escapeAt] at ih
      exact escape mark rest ih
  | case3 c rest hc ih => exact plain c rest hc ih

theorem Reaches.exists_unescape_eq {body left : List Char} (h : ByEscapes body left) :
    ∃ value, unescape body = value ++ unescape left := by
  induction h with
  | here => exact ⟨[], rfl⟩
  | plain hc _ ih =>
    obtain ⟨value, hvalue⟩ := ih
    exact ⟨_ :: value, by rw [unescape, if_neg hc, hvalue, List.cons_append]⟩
  | escape _ ih =>
    obtain ⟨value, hvalue⟩ := ih
    exact ⟨_ ++ value, by rw [unescape, if_pos rfl, hvalue, List.append_assoc]⟩

theorem Reaches.isBody {quote : Char} {body left : List Char} (h : ByPairs body left)
    (hbody : IsBody quote body) : IsBody quote left := by
  induction h with
  | here => exact hbody
  | plain hc _ ih =>
    cases hbody with
    | plain _ _ hbody => exact ih hbody
    | escape => exact absurd rfl hc
  | escape _ ih =>
    cases hbody with
    | plain _ hbackslash => exact absurd rfl hbackslash
    | escape _ hbody => exact ih hbody

theorem byPairs_escape_iff {mark : Char} {rest left : List Char} :
    ByPairs ('\\' :: mark :: rest) ('\\' :: left) ↔
      left = mark :: rest ∨ ByPairs rest ('\\' :: left) :=
  Reaches.escape_iff

theorem byEscapes_escape_iff {mark : Char} {rest left : List Char} :
    ByEscapes ('\\' :: mark :: rest) ('\\' :: left) ↔
      left = mark :: rest ∨
        ByEscapes (rest.drop (numberTaken mark rest).length) ('\\' :: left) := by
  rw [ByEscapes, Reaches.escape_iff, drop_escapeAt]

/-- No escape that the decoder comes to takes a backslash behind its mark. -/
def TakesNoBackslash (body : List Char) : Prop :=
  ∀ mark rest, ByEscapes body ('\\' :: mark :: rest) → '\\' ∉ numberTaken mark rest

theorem takesNoBackslash_cons_iff {c : Char} (hc : c ≠ '\\') {body : List Char} :
    TakesNoBackslash (c :: body) ↔ TakesNoBackslash body :=
  forall₂_congr fun _ _ ↦ imp_congr_left (Reaches.cons_iff hc)

theorem takesNoBackslash_escape_iff {mark : Char} {rest : List Char} :
    TakesNoBackslash ('\\' :: mark :: rest) ↔ '\\' ∉ numberTaken mark rest ∧
      TakesNoBackslash (rest.drop (numberTaken mark rest).length) := by
  constructor
  · intro h
    exact ⟨h mark rest (.here _), fun mark' rest' hreach ↦
      h mark' rest' (byEscapes_escape_iff.mpr (.inr hreach))⟩
  · rintro ⟨htaken, hbehind⟩ mark' rest' hreach
    obtain heq | hreach := byEscapes_escape_iff.mp hreach
    · cases heq
      exact htaken
    · exact hbehind mark' rest' hreach

/-- What stands behind the mark of an escape is as good as what stands behind the number, if the
lexer sees no backslash in between. -/
theorem byPairs_drop_iff {mark : Char} {rest left : List Char}
    (h : '\\' ∉ numberTaken mark rest) :
    ByPairs (rest.drop (numberTaken mark rest).length) ('\\' :: left) ↔
      ByPairs rest ('\\' :: left) := by
  conv_rhs => rw [← numberTaken_append_drop mark rest]
  exact (Reaches.append_iff h).symm

/-- The decoder goes on behind the number, so it comes to what is further behind only from there. -/
theorem byEscapes_drop {mark : Char} {rest left : List Char}
    (h : ByEscapes ('\\' :: mark :: rest) ('\\' :: left)) (hlt : left.length ≤ rest.length) :
    ByEscapes (rest.drop (numberTaken mark rest).length) ('\\' :: left) := by
  refine (byEscapes_escape_iff.mp h).resolve_left ?_
  rintro rfl
  exact absurd hlt (Nat.not_succ_le_self _)

/-- A decoder that takes no backslash comes to the backslashes that the lexer comes to. -/
theorem byPairs_iff_byEscapes {body : List Char} (h : TakesNoBackslash body) (left : List Char) :
    ByPairs body ('\\' :: left) ↔ ByEscapes body ('\\' :: left) := by
  induction body using decoding_induction with
  | nil => exact iff_of_false Reaches.not_nil Reaches.not_nil
  | lone => exact Reaches.lone_iff.trans Reaches.lone_iff.symm
  | escape mark rest ih =>
    obtain ⟨htaken, hbehind⟩ := takesNoBackslash_escape_iff.mp h
    rw [byPairs_escape_iff, byEscapes_escape_iff, ← byPairs_drop_iff htaken, ih hbehind]
  | plain c rest hc ih =>
    rw [ByPairs, ByEscapes, Reaches.cons_iff hc, Reaches.cons_iff hc]
    exact ih ((takesNoBackslash_cons_iff hc).mp h)

/-- A backslash that an escape takes begins a pair of the lexer, which the decoder passes over. -/
theorem notMem_numberTaken_of_byPairs {mark : Char} {rest : List Char}
    (h : ∀ left, ByPairs ('\\' :: mark :: rest) ('\\' :: left) →
      ByEscapes ('\\' :: mark :: rest) ('\\' :: left)) : '\\' ∉ numberTaken mark rest := by
  intro hmem
  obtain ⟨front, back, htaken, hfront⟩ := List.eq_append_cons_of_mem hmem
  have hrest := numberTaken_append_drop mark rest
  set remainder := rest.drop (numberTaken mark rest).length with hremainder
  rw [htaken, List.append_assoc, List.cons_append] at hrest
  have hpair : ByPairs rest ('\\' :: (back ++ remainder)) := by
    rw [← hrest]
    exact (Reaches.append_iff hfront).mpr (.here _)
  have hlength := hpair.length_le
  have hreach := byEscapes_drop (h _ (byPairs_escape_iff.mpr (.inr hpair)))
    (Nat.le_of_succ_le hlength)
  have hle := hreach.length_le
  rw [← hremainder, List.length_cons, List.length_append] at hle
  omega

theorem takesNoBackslash_of_byPairs {body : List Char}
    (h : ∀ left, ByPairs body ('\\' :: left) → ByEscapes body ('\\' :: left)) :
    TakesNoBackslash body := by
  induction body using decoding_induction with
  | nil => exact fun _ _ hreach ↦ absurd hreach Reaches.not_nil
  | lone => exact fun _ _ hreach ↦ absurd (Reaches.lone_iff.mp hreach) (List.cons_ne_nil _ _)
  | escape mark rest ih =>
    have htaken := notMem_numberTaken_of_byPairs h
    refine takesNoBackslash_escape_iff.mpr ⟨htaken, ih fun left hpair ↦ ?_⟩
    have hbehind := (byPairs_drop_iff htaken).mp hpair
    exact byEscapes_drop (h left (byPairs_escape_iff.mpr (.inr hbehind)))
      (Nat.le_of_succ_le hbehind.length_le)
  | plain c rest hc ih =>
    refine (takesNoBackslash_cons_iff hc).mpr (ih fun left hpair ↦ ?_)
    exact (Reaches.cons_iff hc).mp (h left ((Reaches.cons_iff hc).mpr hpair))

/-! ## What is written for a malformed escape -/

theorem unescape_append {front : List Char} (hfront : '\\' ∉ front) (rest : List Char) :
    unescape (front ++ rest) = front ++ unescape rest := by
  induction front with
  | nil => rfl
  | cons c front ih =>
    rw [List.mem_cons, not_or] at hfront
    rw [List.cons_append, unescape, if_neg (Ne.symm hfront.1), ih hfront.2, List.cons_append]

/-- What a malformed escape takes is written as it stands. -/
theorem unescape_of_namesNothing {mark : Char} {rest : List Char} (hmark : mark ∈ ['x', 'u'])
    (h : NamesNothing mark rest) (hsigned : mark = 'x' → ¬BeginsSigned rest) :
    unescape ('\\' :: mark :: rest) = mark :: (numberTaken mark rest ++
      unescape (rest.drop (numberTaken mark rest).length)) := by
  rw [unescape, if_pos rfl, drop_escapeAt, escapeAt_of_namesNothing hmark h hsigned,
    List.cons_append]

theorem escapeAt_signed {digit c : Char} (h : NamesChar [digit] c) (rest : List Char) :
    escapeAt ('x' :: '+' :: digit :: rest) = ([c], 3) := by
  have hbyte : byteChar? ['+', digit] = some c := by rw [byteChar?, if_pos rfl, h.char?_eq]
  rw [escapeAt, List.take_succ_cons, List.take_succ_cons, List.take_zero, hbyte]
  rfl

theorem unescape_signed {digit c : Char} (h : NamesChar [digit] c) (rest : List Char) :
    unescape ('\\' :: 'x' :: '+' :: digit :: rest) = c :: unescape rest := by
  have hescape : escapeAt (['x', '+', digit] ++ rest) = ([c], ['x', '+', digit].length) :=
    escapeAt_signed h rest
  exact unescape_escape hescape

/-- **A malformed escape hides a backslash that it takes.** A numeric escape without a number stands
for its mark and for what it takes, undecoded; if no backslash is among that, decoding goes on as it
would right behind the mark. A plus sign and a digit pass for the two digits of a byte. The decoder
comes to every pair of the lexer exactly if none of the escapes it comes to takes a backslash, and
then it never comes to a lone backslash at the end of a string literal. -/
theorem unescape_malformed (body : List Char) :
    (∀ mark ∈ ['x', 'u'], NamesNothing mark body → (mark = 'x' → ¬BeginsSigned body) →
      unescape ('\\' :: mark :: body) = mark :: (numberTaken mark body ++
          unescape (body.drop (numberTaken mark body).length)) ∧
        ('\\' ∉ numberTaken mark body →
          unescape ('\\' :: mark :: body) = mark :: unescape body)) ∧
      (∀ digit c, NamesChar [digit] c →
        unescape ('\\' :: 'x' :: '+' :: digit :: body) = c :: unescape body) ∧
      (∀ left, ByEscapes body left → ∃ value, unescape body = value ++ unescape left) ∧
      ((∀ left, ByPairs body ('\\' :: left) → ByEscapes body ('\\' :: left)) ↔
        TakesNoBackslash body) ∧
      ∀ quote, IsBody quote body → TakesNoBackslash body → ¬ByEscapes body ['\\'] := by
  refine ⟨fun mark hmark h hsigned ↦ ?_, fun digit c h ↦ unescape_signed h body,
    fun left h ↦ h.exists_unescape_eq, ⟨takesNoBackslash_of_byPairs, fun h left ↦ ?_⟩,
    fun quote hbody h hlone ↦ ?_⟩
  · have heq := unescape_of_namesNothing hmark h hsigned
    refine ⟨heq, fun htaken ↦ ?_⟩
    rw [heq, ← unescape_append htaken, numberTaken_append_drop]
  · exact (byPairs_iff_byEscapes h left).mp
  · have hleft := ((byPairs_iff_byEscapes h []).mpr hlone).isBody hbody
    cases hleft with
    | plain _ hbackslash => exact hbackslash rfl

/-- The escape takes the first of two backslashes, which are one character to the lexer. The second
is left alone at the end. -/
theorem unescape_malformed_ne :
    NamesNothing 'x' "a\\\\".toList ∧ IsBody '"' "\\xa\\\\".toList ∧
      tokenize "\"\\xa\\\\\"" = .ok [⟨.string "xa\\\\", ⟨0, 7⟩⟩] ∧
      unescape "\\xa\\\\".toList = "xa\\\\".toList ∧
      'x' :: unescape "a\\\\".toList = "xa\\".toList ∧
      ByPairs "\\xa\\\\".toList "\\\\".toList ∧
      ¬ByEscapes "\\xa\\\\".toList "\\\\".toList ∧
      ByEscapes "\\xa\\\\".toList ['\\'] := by
  refine ⟨?_, ?_, by decide +kernel, by decide +kernel, by decide +kernel, ?_, ?_, ?_⟩
  · rintro number c (⟨hlength, hname⟩) hbegins
    rw [List.prefix_iff_eq_take, hlength] at hbegins
    have hdigits : ∀ d ∈ number, d ≠ '\\' := hname.ne_of_mem rfl
    exact hdigits '\\' (hbegins ▸ by decide) rfl
  · exact .escape (by decide) (.plain (by decide) (by decide) (.escape (by decide) .nil))
  · exact .escape (.plain (by decide) (.here _))
  · intro h
    -- only one character is left behind what the escape takes
    obtain heq | hbehind := byEscapes_escape_iff.mp h
    · exact absurd heq (by decide)
    · exact absurd hbehind.length_le (by decide)
  · exact .escape (.here _)

end TypeNotation
