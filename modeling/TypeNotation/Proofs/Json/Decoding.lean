import Mathlib.Data.Nat.Init
import TypeNotation.Json.AnyValue
import TypeNotation.Proofs.Json.Texts

/-!
# Decoding JSON texts

What the readers make of a text that stands for a JSON value depends on the value only, and not on
which of its texts it is. So a reader is described by the values from which it reads something. Such
descriptions are put together like the readers themselves: a reader of arrays reads the items of an
array one by one, a reader of objects passes from state to state. The reader of any value gives the
value back; hence a text stands for one value at most.
-/

namespace TypeNotation

/-! ## Reading -/

/-- The reader takes the value from the text, whatever white space is in front of the text and
whatever is behind it. -/
def Reads {α : Type} (reader : JsonReader α) (text : List Char) (a : α) : Prop :=
  ∀ space rest, IsSpace space → reader.take (space ++ (text ++ rest)) = .ok (a, rest)

/-- The reader takes the same from every text that stands for the JSON value. -/
def Decodes {α : Type} (reader : JsonReader α) (value : JsonValue) (a : α) : Prop :=
  ∀ text, IsJson text value → Reads reader text a

theorem skipSpace_append {space : List Char} (h : IsSpace space) (rest : List Char) :
    skipSpace (space ++ rest) = skipSpace rest :=
  List.dropWhile_append_of_pos h

theorem skipSpace_cons {c : Char} (h : isJsonSpace c = false) (rest : List Char) :
    skipSpace (c :: rest) = c :: rest :=
  List.dropWhile_cons_of_neg (by rw [h]; decide)

theorem take_afterSpace {α : Type} (reader : JsonReader α) (input : List Char) :
    JsonReader.take (afterSpace reader) input = reader.take (skipSpace input) := by
  unfold JsonReader.take afterSpace
  cases reader (skipSpace input) <;> rfl

theorem reads_afterSpace {α : Type} {reader : JsonReader α} {c : Char} {text : List Char} {a : α}
    (hc : isJsonSpace c = false) (h : ∀ rest, reader.take (c :: text ++ rest) = .ok (a, rest)) :
    Reads (afterSpace reader) (c :: text) a := by
  intro space rest hspace
  rw [take_afterSpace, skipSpace_append hspace, List.cons_append, skipSpace_cons hc]
  exact h rest

theorem Decodes.map {α β : Type} {reader : JsonReader α} {value : JsonValue} {a : α}
    (h : Decodes reader value a) (f : α → β) :
    Decodes (fun input ↦ (reader input).map (·.map f)) value (f a) := by
  intro text htext space rest hspace
  obtain ⟨_, hread⟩ := JsonReader.take_eq_ok_iff.mp (h text htext space rest hspace)
  rw [JsonReader.take, hread]
  rfl

/-! ## Strings -/

section Strings

variable {c : Char} {input behind rest : List Char} {value : List Char}

theorem take_readStringBody_quote (rest : List Char) :
    JsonReader.take readStringBody ('"' :: rest) = .ok ([], rest) := by
  rw [JsonReader.take, readStringBody]
  rfl

theorem take_readStringBody_escape (hescape : JsonReader.take readEscape input = .ok (c, behind))
    (hbody : JsonReader.take readStringBody behind = .ok (value, rest)) :
    JsonReader.take readStringBody ('\\' :: input) = .ok (c :: value, rest) := by
  obtain ⟨_, hescape⟩ := JsonReader.take_eq_ok_iff.mp hescape
  obtain ⟨_, hbody⟩ := JsonReader.take_eq_ok_iff.mp hbody
  rw [JsonReader.take, readStringBody, hescape]
  change Except.map _ (readStringBody behind >>= _) = _
  rw [hbody]
  rfl

theorem take_readStringBody_plain (hquote : c ≠ '"') (hbackslash : c ≠ '\\') (hcontrol : ¬c < ' ')
    (hbody : JsonReader.take readStringBody input = .ok (value, rest)) :
    JsonReader.take readStringBody (c :: input) = .ok (c :: value, rest) := by
  obtain ⟨_, hbody⟩ := JsonReader.take_eq_ok_iff.mp hbody
  rw [JsonReader.take, readStringBody, if_neg hcontrol, hbody]
  · rfl
  · exact hquote
  · exact hbackslash

theorem take_readHexDigits {digits : List Char} {n : Nat} (hlength : digits.length = 4)
    (hvalue : Hex.value? digits = some n) (rest : List Char) :
    JsonReader.take readHexDigits (digits ++ rest) = .ok (n, rest) := by
  obtain ⟨a, b, c, d, rfl⟩ := List.length_eq_four.mp hlength
  have hsize : ¬utf8Length (a :: b :: c :: d :: rest) < 4 := by
    have := a.utf8Size_pos
    have := b.utf8Size_pos
    have := c.utf8Size_pos
    have := d.utf8Size_pos
    simp only [utf8Length_cons]
    omega
  simp only [JsonReader.take, readHexDigits, List.cons_append, List.nil_append, if_neg hsize, hvalue]
  rfl

theorem take_readEscape_mark {mark : Char} (hmark : jsonEscape? mark = some c) (rest : List Char) :
    JsonReader.take readEscape (mark :: rest) = .ok (c, rest) := by
  unfold jsonEscape? at hmark
  split at hmark <;> cases hmark <;> rfl

theorem take_readEscape_u (input : List Char) :
    JsonReader.take readEscape ('u' :: input) = JsonReader.take readUnicodeEscape input := by
  unfold JsonReader.take
  rw [readEscape]
  cases readUnicodeEscape input <;> rfl

theorem take_readUnicodeEscape_unit {n : Nat} (hfirst : isFirstHalf n = false)
    (hsecond : isSecondHalf n = false)
    (hdigits : JsonReader.take readHexDigits input = .ok (n, rest)) :
    JsonReader.take readUnicodeEscape input = .ok (Char.ofNat n, rest) := by
  obtain ⟨_, hdigits⟩ := JsonReader.take_eq_ok_iff.mp hdigits
  have hnotSecond : ¬(0xDC00 ≤ n ∧ n ≤ 0xDFFF) := by simpa [isSecondHalf] using hsecond
  have hnotFirst : n < 0xD800 ∨ 0xDBFF < n := by
    simp only [isFirstHalf, Bool.and_eq_false_iff, decide_eq_false_iff_not] at hfirst
    omega
  rw [JsonReader.take, readUnicodeEscape, hdigits]
  change Except.map _ (if 0xDC00 ≤ n ∧ n ≤ 0xDFFF then _ else _) = _
  rw [if_neg hnotSecond, if_pos hnotFirst]
  rfl

theorem take_readSecondHalf {n n' : Nat} (hsecond : isSecondHalf n' = true)
    (hdigits : JsonReader.take readHexDigits input = .ok (n', rest)) :
    JsonReader.take (readSecondHalf n) ('\\' :: 'u' :: input) =
      .ok (Char.ofNat (0x10000 + (n - 0xD800) * 0x400 + (n' - 0xDC00)), rest) := by
  obtain ⟨_, hdigits⟩ := JsonReader.take_eq_ok_iff.mp hdigits
  have hhalf : ¬(n' < 0xDC00 ∨ 0xDFFF < n') := by
    simp only [isSecondHalf, Bool.and_eq_true, decide_eq_true_eq] at hsecond
    omega
  rw [JsonReader.take, readSecondHalf, hdigits]
  change Except.map _ (if n' < 0xDC00 ∨ 0xDFFF < n' then _ else _) = _
  rw [if_neg hhalf]
  simp only [Except.map, Taken.map, Taken.within]

theorem take_readUnicodeEscape_pair {n : Nat} (hfirst : isFirstHalf n = true)
    (hdigits : JsonReader.take readHexDigits input = .ok (n, behind))
    (hhalf : JsonReader.take (readSecondHalf n) behind = .ok (c, rest)) :
    JsonReader.take readUnicodeEscape input = .ok (c, rest) := by
  obtain ⟨_, hdigits⟩ := JsonReader.take_eq_ok_iff.mp hdigits
  obtain ⟨_, hhalf⟩ := JsonReader.take_eq_ok_iff.mp hhalf
  simp only [isFirstHalf, Bool.and_eq_true, decide_eq_true_eq] at hfirst
  have hnotSecond : ¬(0xDC00 ≤ n ∧ n ≤ 0xDFFF) := by omega
  have hnotUnit : ¬(n < 0xD800 ∨ 0xDBFF < n) := by omega
  rw [JsonReader.take, readUnicodeEscape, hdigits]
  change Except.map _ (if 0xDC00 ≤ n ∧ n ≤ 0xDFFF then _ else if n < 0xD800 ∨ 0xDBFF < n then _ else
    (readSecondHalf n behind).map _) = _
  rw [if_neg hnotSecond, if_neg hnotUnit, hhalf]
  rfl

theorem take_readStringBody_char {text : List Char} (hchar : IsJsonChar text c)
    (hbody : JsonReader.take readStringBody input = .ok (value, rest)) :
    JsonReader.take readStringBody (text ++ input) = .ok (c :: value, rest) := by
  cases hchar with
  | plain hquote hbackslash hcontrol =>
    exact take_readStringBody_plain hquote hbackslash hcontrol hbody
  | escape hmark => exact take_readStringBody_escape (take_readEscape_mark hmark input) hbody
  | unit hunit hfirst hsecond =>
    obtain ⟨hlength, hvalue⟩ := hunit
    have hescape :=
      take_readUnicodeEscape_unit hfirst hsecond (take_readHexDigits hlength hvalue input)
    exact take_readStringBody_escape ((take_readEscape_u _).trans hescape) hbody
  | pair hunit hunit' hfirst hsecond =>
    obtain ⟨hlength, hvalue⟩ := hunit
    obtain ⟨hlength', hvalue'⟩ := hunit'
    have hescape := take_readUnicodeEscape_pair hfirst (take_readHexDigits hlength hvalue _)
      (take_readSecondHalf hsecond (take_readHexDigits hlength' hvalue' input))
    rw [List.append_assoc]
    exact take_readStringBody_escape ((take_readEscape_u _).trans hescape) hbody

/-- Every text that stands for a string is read as that string. -/
theorem take_readStringBody {body : List Char} (h : IsJsonBody body value) (rest : List Char) :
    JsonReader.take readStringBody (body ++ rest) = .ok (value, rest) := by
  induction h with
  | close => exact take_readStringBody_quote rest
  | char hchar _ ih =>
    rw [List.append_assoc]
    exact take_readStringBody_char hchar ih

end Strings

/-! ## Scalars -/

/-- How texts of values begin. -/
theorem IsJson.exists_cons {text : List Char} {value : JsonValue} (h : IsJson text value) :
    ∃ c rest, text = c :: rest ∧ isJsonSpace c = false ∧ c ≠ ']' ∧ (c = 'n' → value = .null) := by
  cases h with
  | null => exact ⟨_, _, rfl, rfl, by decide, fun _ ↦ rfl⟩
  | bool value => cases value <;> exact ⟨_, _, rfl, rfl, by decide, fun h ↦ absurd h (by decide)⟩
  | string htext =>
    obtain ⟨-⟩ := htext
    exact ⟨_, _, rfl, rfl, by decide, fun h ↦ absurd h (by decide)⟩
  | array => exact ⟨_, _, rfl, rfl, by decide, fun h ↦ absurd h (by decide)⟩
  | object => exact ⟨_, _, rfl, rfl, by decide, fun h ↦ absurd h (by decide)⟩

theorem decodes_readText (value : String) : Decodes readText (.string value) value := by
  intro text htext
  cases htext with
  | string hstring =>
    obtain ⟨hbody⟩ := hstring
    refine reads_afterSpace rfl fun rest ↦ ?_
    obtain ⟨_, hread⟩ := JsonReader.take_eq_ok_iff.mp (take_readStringBody hbody rest)
    simp only [JsonReader.take, List.cons_append, hread, Except.map, Taken.map, Taken.within,
      String.ofList_toList]

theorem decodes_readBool (value : Bool) : Decodes readBool (.bool value) value := by
  intro text htext
  cases htext with
  | bool =>
    cases value with
    | true => exact reads_afterSpace rfl fun rest ↦ rfl
    | false => exact reads_afterSpace rfl fun rest ↦ rfl

theorem Decodes.readNullable {α : Type} {reader : JsonReader α} {value : JsonValue} {a : α}
    (h : Decodes reader value a) (hvalue : value ≠ .null) :
    Decodes (readNullable reader) value (some a) := by
  intro text htext
  obtain ⟨c, text', rfl, hspace, -, hnull⟩ := htext.exists_cons
  refine reads_afterSpace hspace fun rest ↦ ?_
  have hread := h _ htext [] rest isSpace_nil
  rw [List.nil_append] at hread
  rw [JsonReader.take]
  generalize hinput : c :: text' ++ rest = input at hread ⊢
  split
  · cases hinput
    exact absurd (hnull rfl) hvalue
  · obtain ⟨_, hread⟩ := JsonReader.take_eq_ok_iff.mp hread
    rw [hread]
    rfl

/-! ## Arrays -/

section Arrays

variable {α : Type} {first : Bool} {space lead input behind rest : List Char}

theorem nextItem_close (hspace : IsSpace space) (first : Bool) (rest : List Char) :
    nextItem first (space ++ ']' :: rest) = .ok none := by
  have hskip : skipSpace (space ++ ']' :: rest) = ']' :: rest := skipSpace_append hspace _
  unfold nextItem
  split
  · next heq _ => cases hskip.symm.trans heq
  · rfl
  · next hne heq _ =>
    cases hskip.symm.trans heq
    exact absurd rfl hne

theorem exists_nextItem_true {c : Char} (hskip : skipSpace input = c :: rest) (hclose : c ≠ ']') :
    ∃ h, nextItem true input = .ok (some ⟨c :: rest, h⟩) := by
  unfold nextItem
  split
  · next heq _ => cases hskip.symm.trans heq
  · next heq _ =>
    cases hskip.symm.trans heq
    exact absurd rfl hclose
  · next h _ heq _ =>
    cases hskip.symm.trans heq
    exact ⟨h, rfl⟩

theorem exists_nextItem_false {c : Char} (hcomma : skipSpace input = ',' :: behind)
    (hskip : skipSpace behind = c :: rest) (hclose : c ≠ ']') :
    ∃ h, nextItem false input = .ok (some ⟨c :: rest, h⟩) := by
  have hle := length_skipSpace_le input
  have hle' := length_skipSpace_le behind
  rw [hcomma, List.length_cons] at hle
  rw [hskip] at hle'
  unfold nextItem
  split
  · next heq _ => cases hcomma.symm.trans heq
  · next heq _ => cases hcomma.symm.trans heq
  · next heq _ =>
    cases hcomma.symm.trans heq
    rw [if_neg Bool.false_ne_true, if_pos rfl]
    split
    · next heq' _ => cases hskip.symm.trans heq'
    · next heq' _ =>
      cases hskip.symm.trans heq'
      exact absurd rfl hclose
    · refine ⟨by omega, ?_⟩
      exact congrArg (fun start ↦ Except.ok (some start)) (Subtype.ext hskip)

theorem exists_nextItem (hlead : IsLead first lead) {c : Char} (hspace : isJsonSpace c = false)
    (hclose : c ≠ ']') (rest : List Char) :
    ∃ h, nextItem first (lead ++ c :: rest) = .ok (some ⟨c :: rest, h⟩) := by
  have hstays := skipSpace_cons hspace rest
  cases hlead with
  | first hlead => exact exists_nextItem_true ((skipSpace_append hlead _).trans hstays) hclose
  | next hfront hback =>
    rw [List.append_assoc]
    exact exists_nextItem_false (skipSpace_append hfront _)
      ((skipSpace_append hback _).trans hstays) hclose

theorem take_readArrayEnd (hspace : IsSpace space) (rest : List Char) :
    JsonReader.take readArrayEnd (space ++ ']' :: rest) = .ok ((), rest) := by
  rw [readArrayEnd, take_afterSpace, skipSpace_append hspace]
  rfl

theorem take_readArrayItems_close {item : JsonReader α} (hspace : IsSpace space) (first : Bool)
    (rest : List Char) :
    JsonReader.take (readArrayItems item first) (space ++ ']' :: rest) = .ok ([], rest) := by
  obtain ⟨_, hend⟩ := JsonReader.take_eq_ok_iff.mp (take_readArrayEnd hspace rest)
  rw [JsonReader.take, readArrayItems, nextItem_close hspace]
  change Except.map _ ((readArrayEnd _).map _) = _
  rw [hend]
  rfl

theorem take_readArrayItems_cons {item : JsonReader α} {c : Char} {a : α} {as : List α}
    (hlead : IsLead first lead) (hspace : isJsonSpace c = false) (hclose : c ≠ ']')
    (hitem : item.take (c :: input) = .ok (a, behind))
    (hitems : JsonReader.take (readArrayItems item false) behind = .ok (as, rest)) :
    JsonReader.take (readArrayItems item first) (lead ++ c :: input) = .ok (a :: as, rest) := by
  obtain ⟨_, hnext⟩ := exists_nextItem hlead hspace hclose input
  obtain ⟨_, hitem⟩ := JsonReader.take_eq_ok_iff.mp hitem
  obtain ⟨_, hitems⟩ := JsonReader.take_eq_ok_iff.mp hitems
  rw [JsonReader.take, readArrayItems, hnext]
  -- a bind reduces when what comes before it is known, so each `change` brings out the next reader
  change Except.map _ (item (c :: input) >>= _) = _
  rw [hitem]
  change Except.map _ (readArrayItems item false behind >>= _) = _
  rw [hitems]
  rfl

theorem Entries.take_readArrayItems {item : JsonReader α} {body : List Char}
    {values : List JsonValue} {as : List α} (h : Entries IsJson ']' first body values)
    (hitems : List.Forall₂ (Decodes item) values as) (rest : List Char) :
    JsonReader.take (readArrayItems item first) (body ++ rest) = .ok (as, rest) := by
  induction h generalizing as with
  | close hspace =>
    cases hitems
    rw [List.append_assoc]
    exact take_readArrayItems_close hspace _ rest
  | cons hlead hvalue _ ih =>
    cases hitems with
    | cons hitem hitems =>
      have hread (behind : List Char) := hitem _ hvalue [] behind isSpace_nil
      obtain ⟨c, text, rfl, hspace, hclose, -⟩ := hvalue.exists_cons
      rw [List.append_assoc, List.append_assoc, List.cons_append]
      exact take_readArrayItems_cons hlead hspace hclose (hread _) (ih hitems)

theorem decodes_readArray {inner : Nat} {item : (l : Nat) → l < inner + 1 → JsonReader α}
    {values : List JsonValue} {as : List α}
    (h : List.Forall₂ (Decodes (item inner (Nat.lt_succ_self _))) values as) :
    Decodes (readArray (inner + 1) item) (.array values) as := by
  intro text htext
  cases htext with
  | array hbody =>
    refine reads_afterSpace rfl fun rest ↦ ?_
    obtain ⟨_, hread⟩ := JsonReader.take_eq_ok_iff.mp (hbody.take_readArrayItems h rest)
    simp only [JsonReader.take, List.cons_append, hread, Except.map, Taken.within]

/-- Items that are read from their values are read from an array of these. -/
theorem decodes_readArray_map {levels : Nat} {item : (l : Nat) → l < levels → JsonReader α}
    {f : α → JsonValue} {as : List α} (h : (JsonValue.array (as.map f)).depth ≤ levels)
    (hitem : ∀ l hl a, (f a).depth ≤ l → Decodes (item l hl) (f a) a) :
    Decodes (readArray levels item) (.array (as.map f)) as := by
  obtain ⟨inner, rfl, hdepth⟩ := JsonValue.depth_array_le_iff.mp h
  refine decodes_readArray ?_
  rw [List.forall₂_map_left_iff]
  refine List.forall₂_same.mpr fun a ha ↦ hitem inner _ a ?_
  exact hdepth (f a) (List.mem_map_of_mem ha)

end Arrays

/-! ## Objects -/

section Objects

variable {α σ : Type} {first : Bool} {space lead input behind rest : List Char}

theorem take_readColon (hspace : IsSpace space) (rest : List Char) :
    JsonReader.take readColon (space ++ ':' :: rest) = .ok ((), rest) := by
  rw [readColon, take_afterSpace, skipSpace_append hspace]
  rfl

/-- The reader takes the same from every text that stands for the value of a member, beginning with
the colon behind the key. -/
def DecodesField (reader : JsonReader α) (value : JsonValue) (a : α) : Prop :=
  ∀ text space, IsJson text value → IsSpace space → Reads reader (':' :: (space ++ text)) a

theorem Decodes.readField {reader : JsonReader α} {value : JsonValue} {a : α}
    (h : Decodes reader value a) : DecodesField (readField reader) value a := by
  intro text space htext hspace space' rest hspace'
  obtain ⟨_, hcolon⟩ :=
    JsonReader.take_eq_ok_iff.mp (take_readColon hspace' (space ++ (text ++ rest)))
  obtain ⟨_, hread⟩ := JsonReader.take_eq_ok_iff.mp (h text htext space rest hspace)
  rw [List.cons_append, List.append_assoc, JsonReader.take, TypeNotation.readField, hcolon]
  change Except.map _ ((reader _).map _) = _
  rw [hread]
  rfl

/-! The members of an object are read one after the other, each into the state that the ones before
it have left. -/

theorem exists_nextMember_close (hspace : IsSpace space) (first : Bool) (rest : List Char) :
    ∃ h, nextMember first (space ++ '}' :: rest) = .ok (.close rest h) := by
  have hskip : skipSpace (space ++ '}' :: rest) = '}' :: rest := skipSpace_append hspace _
  unfold nextMember
  split
  · next heq _ => cases hskip.symm.trans heq
  · next h heq _ =>
    cases hskip.symm.trans heq
    exact ⟨h, rfl⟩
  · next hne heq _ =>
    cases hskip.symm.trans heq
    exact absurd rfl hne

theorem exists_nextMember_true (hskip : skipSpace input = '"' :: rest) :
    ∃ h, nextMember true input = .ok (.key rest h) := by
  unfold nextMember
  split
  · next heq _ => cases hskip.symm.trans heq
  · next heq _ => cases hskip.symm.trans heq
  · next h _ heq _ =>
    cases hskip.symm.trans heq
    exact ⟨h, rfl⟩

theorem exists_nextMember_false (hcomma : skipSpace input = ',' :: behind)
    (hskip : skipSpace behind = '"' :: rest) :
    ∃ h, nextMember false input = .ok (.key rest h) := by
  have hle := length_skipSpace_le behind
  rw [hskip] at hle
  unfold nextMember
  split
  · next heq _ => cases hcomma.symm.trans heq
  · next heq _ => cases hcomma.symm.trans heq
  · next h _ heq _ =>
    cases hcomma.symm.trans heq
    rw [if_neg Bool.false_ne_true, if_pos rfl]
    split
    · next heq' _ => cases hskip.symm.trans heq'
    · next h' heq' _ =>
      cases hskip.symm.trans heq'
      exact ⟨Nat.lt_trans h' h, rfl⟩
    · next heq' _ => cases hskip.symm.trans heq'
    · next hquote _ => exact absurd (proof_irrel_heq _ _) (hquote rest hle hskip)

theorem exists_nextMember (hlead : IsLead first lead) (rest : List Char) :
    ∃ h, nextMember first (lead ++ '"' :: rest) = .ok (.key rest h) := by
  cases hlead with
  | first hlead => exact exists_nextMember_true (skipSpace_append hlead _)
  | next hfront hback =>
    rw [List.append_assoc]
    exact exists_nextMember_false (skipSpace_append hfront _) (skipSpace_append hback _)

theorem take_readMembers_close {member : σ → String → JsonReader σ} (hspace : IsSpace space)
    (first : Bool) (state : σ) (rest : List Char) :
    JsonReader.take (readMembers member state first) (space ++ '}' :: rest) = .ok (state, rest) := by
  obtain ⟨_, hnext⟩ := exists_nextMember_close hspace first rest
  rw [JsonReader.take, readMembers, hnext]
  rfl

theorem take_readMembers_cons {member : σ → String → JsonReader σ} {state next last : σ}
    {keyText : List Char} {key : String} (hlead : IsLead first lead)
    (hkey : IsJsonString keyText key.toList)
    (hmember : (member state key).take input = .ok (next, behind))
    (hmembers : JsonReader.take (readMembers member next false) behind = .ok (last, rest)) :
    JsonReader.take (readMembers member state first) (lead ++ (keyText ++ input)) =
      .ok (last, rest) := by
  obtain ⟨hbody⟩ := hkey
  rename_i body
  obtain ⟨_, hnext⟩ := exists_nextMember hlead (body ++ input)
  obtain ⟨_, hname⟩ := JsonReader.take_eq_ok_iff.mp (take_readStringBody hbody input)
  obtain ⟨_, hmember⟩ := JsonReader.take_eq_ok_iff.mp hmember
  obtain ⟨_, hmembers⟩ := JsonReader.take_eq_ok_iff.mp hmembers
  rw [List.cons_append, JsonReader.take, readMembers, hnext]
  change Except.map _ (readStringBody (body ++ input) >>= _) = _
  rw [hname]
  change Except.map _ (member state (String.ofList key.toList) input >>= _) = _
  rw [String.ofList_toList, hmember]
  change Except.map _ (readMembers member next false behind >>= _) = _
  rw [hmembers]
  rfl

/-- The members, read one after the other, lead from one state to another. -/
inductive Steps (member : σ → String → JsonReader σ) :
    σ → List (String × JsonValue) → σ → Prop
  | nil {state : σ} : Steps member state [] state
  | cons {state last : σ} {key : String} {value : JsonValue} {members : List (String × JsonValue)}
      (next : σ) (hmember : DecodesField (member state key) value next)
      (hmembers : Steps member next members last) :
      Steps member state ((key, value) :: members) last

theorem Entries.take_readMembers {member : σ → String → JsonReader σ} {body : List Char}
    {members : List (String × JsonValue)} {state last : σ}
    (h : Entries (IsMember IsJson) '}' first body members) (hsteps : Steps member state members last)
    (rest : List Char) :
    JsonReader.take (readMembers member state first) (body ++ rest) = .ok (last, rest) := by
  induction h generalizing state with
  | close hspace =>
    cases hsteps
    rw [List.append_assoc]
    exact take_readMembers_close hspace _ _ rest
  | cons hlead hentry _ ih =>
    obtain ⟨hkey, hspace, hspace', hvalue⟩ := hentry
    cases hsteps with
    | cons _ hmember hmembers =>
      rw [List.append_assoc, List.append_assoc, List.append_assoc]
      refine take_readMembers_cons hlead hkey ?_ (ih hmembers)
      rw [List.append_assoc]
      exact hmember _ _ hvalue hspace' _ _ hspace

theorem decodes_readRecord {name : String} {inner : Nat}
    {ordered keyed : (l : Nat) → l < inner + 1 → JsonReader α}
    {members : List (String × JsonValue)} {a : α}
    (h : ∀ body, Entries (IsMember IsJson) '}' true body members → ∀ rest,
      (keyed inner (Nat.lt_succ_self _)).take (body ++ rest) = .ok (a, rest)) :
    Decodes (readRecord name (inner + 1) ordered keyed) (.object members) a := by
  intro text htext
  cases htext with
  | object hbody =>
    refine reads_afterSpace rfl fun rest ↦ ?_
    obtain ⟨_, hread⟩ := JsonReader.take_eq_ok_iff.mp (h _ hbody rest)
    simp only [JsonReader.take, List.cons_append, hread, Except.map, Taken.within]

end Objects

/-! ## Any value -/

theorem steps_readAnyValue {inner : Nat} {members : List (String × JsonValue)}
    (h : ∀ member ∈ members, Decodes (readAnyValue inner) member.2 member.2)
    (before : List (String × JsonValue)) :
    Steps (fun members key ↦ readField fun value ↦
        (readAnyValue inner value).map (·.map fun v ↦ members ++ [(key, v)]))
      before members (before ++ members) := by
  induction members generalizing before with
  | nil =>
    rw [List.append_nil]
    exact .nil
  | cons member members ih =>
    obtain ⟨hmember, hmembers⟩ := List.forall_mem_cons.mp h
    have hbehind := ih hmembers (before ++ [member])
    rw [List.append_assoc, List.singleton_append] at hbehind
    exact .cons _ (hmember.map fun v ↦ before ++ [(member.1, v)]).readField hbehind

theorem decodes_readAnyValue {levels : Nat} {value : JsonValue} (h : value.depth ≤ levels) :
    Decodes (readAnyValue levels) value value := by
  induction levels using Nat.strongRecOn generalizing value with
  | ind levels ih =>
    intro text htext
    rw [readAnyValue]
    cases htext with
    | null => exact reads_afterSpace rfl fun rest ↦ rfl
    | bool value =>
      cases value with
      | true => exact reads_afterSpace rfl fun rest ↦ rfl
      | false => exact reads_afterSpace rfl fun rest ↦ rfl
    | string hstring =>
      obtain ⟨hbody⟩ := hstring
      refine reads_afterSpace rfl fun rest ↦ ?_
      obtain ⟨_, hread⟩ := JsonReader.take_eq_ok_iff.mp (take_readStringBody hbody rest)
      simp only [JsonReader.take, List.cons_append, hread, Except.map, Taken.map, Taken.within,
        String.ofList_toList]
    | array hbody =>
      obtain ⟨inner, rfl, hitems⟩ := JsonValue.depth_array_le_iff.mp h
      refine reads_afterSpace rfl fun rest ↦ ?_
      have hread := hbody.take_readArrayItems (List.forall₂_same.mpr fun item hitem ↦
        ih inner (Nat.lt_succ_self inner) (hitems item hitem)) rest
      obtain ⟨_, hread⟩ := JsonReader.take_eq_ok_iff.mp hread
      simp only [JsonReader.take, List.cons_append, hread, Except.map, Taken.map, Taken.within]
    | @object body members hbody =>
      obtain ⟨inner, rfl, hmembers⟩ := JsonValue.depth_object_le_iff.mp h
      refine reads_afterSpace rfl fun rest ↦ ?_
      have hsteps := steps_readAnyValue (fun member hmember ↦
        ih inner (Nat.lt_succ_self inner) (hmembers member hmember)) []
      obtain ⟨_, hread⟩ := JsonReader.take_eq_ok_iff.mp (hbody.take_readMembers hsteps rest)
      change Except.map _ (Except.map _ (readMembers _ [] true (body ++ rest))) = _
      rw [hread]
      rfl

theorem IsJson.unique {text : List Char} {value value' : JsonValue} (h : IsJson text value)
    (h' : IsJson text value') : value = value' := by
  have hdecodes := decodes_readAnyValue (Nat.le_max_left value.depth value'.depth)
  have hdecodes' := decodes_readAnyValue (Nat.le_max_right value.depth value'.depth)
  have hread := hdecodes text h [] [] isSpace_nil
  have hread' := hdecodes' text h' [] [] isSpace_nil
  exact (Prod.mk.inj (Except.ok.inj (hread.symm.trans hread'))).1

/-! ## Whole texts -/

theorem Decodes.readWhole {α : Type} {reader : JsonReader α} {value : JsonValue} {a : α}
    (h : Decodes reader value a) {text : String} (htext : IsJson text.toList value) :
    readWhole reader text = .ok a := by
  have hread := h _ htext [] [] isSpace_nil
  rw [List.nil_append, List.append_nil] at hread
  rw [TypeNotation.readWhole, hread]
  rfl

end TypeNotation
