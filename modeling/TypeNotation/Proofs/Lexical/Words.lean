import TypeNotation.Token.Lexeme

/-!
# Words

What an identifier is, said of the whole text and not of a longest match: a letter, underscore or
dollar sign, then any of these and digits, and no keyword. The longest match in front of a text that
goes on with anything else is then the whole word; that condition, `EndsRun`, is what every run of
characters needs of the text behind it.
-/

namespace TypeNotation

/-! ## Runs of characters -/

/-- A run of characters of the class does not go on into the text. -/
def EndsRun (p : Char → Bool) (rest : List Char) : Prop := ∀ c ∈ rest.head?, p c = false

section Runs

variable {p : Char → Bool} {run rest : List Char}

theorem endsRun_nil : EndsRun p [] := fun _ h ↦ by cases h

theorem endsRun_cons {c : Char} : EndsRun p (c :: rest) ↔ p c = false := by
  simp [EndsRun]

theorem EndsRun.mono {q : Char → Bool} (h : EndsRun p rest)
    (hpq : ∀ c, q c = true → p c = true) : EndsRun q rest := by
  intro c hc
  have hp := h c hc
  cases hq : q c with
  | false => rfl
  | true => rw [hpq c hq] at hp; cases hp

/-- A nonempty text ends a run together with whatever is behind it. -/
theorem EndsRun.append (h : EndsRun p run) (hrest : EndsRun p rest) : EndsRun p (run ++ rest) := by
  cases run with
  | nil => exact hrest
  | cons c run => exact endsRun_cons.mpr (endsRun_cons.mp h)

theorem EndsRun.append_of_ne_nil (h : EndsRun p run) (hne : run ≠ []) (rest : List Char) :
    EndsRun p (run ++ rest) := by
  obtain ⟨c, others, rfl⟩ := List.exists_cons_of_ne_nil hne
  exact endsRun_cons.mpr (endsRun_cons.mp h)

theorem runLength_le_length (p : Char → Bool) (text : List Char) : runLength p text ≤ text.length :=
  (List.takeWhile_sublist p).length_le

theorem runLength_append_of_forall (hrun : ∀ c ∈ run, p c = true) (rest : List Char) :
    runLength p (run ++ rest) = run.length + runLength p rest := by
  rw [runLength, runLength, List.takeWhile_append_of_pos hrun, List.length_append]

theorem runLength_of_endsRun (hrest : EndsRun p rest) : runLength p rest = 0 := by
  cases rest with
  | nil => rfl
  | cons c rest =>
    rw [runLength, List.takeWhile_cons_of_neg (by simp [endsRun_cons.mp hrest])]
    rfl

theorem runLength_append (hrun : ∀ c ∈ run, p c = true) (hrest : EndsRun p rest) :
    runLength p (run ++ rest) = run.length := by
  rw [runLength_append_of_forall hrun, runLength_of_endsRun hrest, Nat.add_zero]

/-- Where a run ends is determined by the text. -/
theorem eq_of_append_eq_append {run' rest' : List Char} (hrun : ∀ c ∈ run, p c = true)
    (hrun' : ∀ c ∈ run', p c = true) (hrest : EndsRun p rest) (hrest' : EndsRun p rest')
    (heq : run ++ rest = run' ++ rest') : run = run' ∧ rest = rest' := by
  refine List.append_inj heq ?_
  rw [← runLength_append hrun hrest, heq, runLength_append hrun' hrest']

theorem endsRun_dropWhile (p : Char → Bool) (text : List Char) :
    EndsRun p (text.dropWhile p) := by
  induction text with
  | nil => exact endsRun_nil
  | cons c text ih =>
    cases h : p c with
    | false =>
      rw [List.dropWhile_cons_of_neg (by simp [h])]
      exact endsRun_cons.mpr h
    | true => rwa [List.dropWhile_cons_of_pos h]

theorem of_mem_take_runLength {text : List Char} {c : Char}
    (h : c ∈ text.take (runLength p text)) : p c = true := by
  rw [take_runLength] at h
  exact List.all_eq_true.mp List.all_takeWhile c h

end Runs

theorem isLayout_cases {c : Char} (h : isLayout c = true) :
    c = ' ' ∨ c = '\t' ∨ c = '\r' ∨ c = '\n' ∨ c = '\x0c' := by
  simpa only [isLayout, Bool.or_eq_true, decide_eq_true_eq, or_assoc] using h

/-! ## Words and identifiers -/

/-- A letter, underscore or dollar sign, and then any of these and digits. -/
inductive IsWord : List Char → Prop
  | mk {first : Char} {others : List Char} (start : isIdentifierStart first = true)
      (parts : ∀ c ∈ others, isIdentifierPart c = true) : IsWord (first :: others)

instance decidableIsWord : (word : List Char) → Decidable (IsWord word)
  | [] => .isFalse fun h ↦ by cases h
  | first :: others =>
    decidable_of_iff (isIdentifierStart first = true ∧ others.all isIdentifierPart = true)
      ⟨fun ⟨hstart, hparts⟩ ↦ ⟨hstart, List.all_eq_true.mp hparts⟩,
        fun ⟨hstart, hparts⟩ ↦ ⟨hstart, List.all_eq_true.mpr hparts⟩⟩

theorem IsWord.exists_cons {word : List Char} (h : IsWord word) :
    ∃ first others, word = first :: others ∧ isIdentifierStart first = true := by
  obtain ⟨hstart, -⟩ := h
  exact ⟨_, _, rfl, hstart⟩

theorem IsWord.isIdentifierPart {word : List Char} (h : IsWord word) :
    ∀ c ∈ word, isIdentifierPart c = true := by
  obtain ⟨hstart, hparts⟩ := h
  refine List.forall_mem_cons.mpr ⟨?_, hparts⟩
  simp only [isIdentifierStart, Bool.or_eq_true, decide_eq_true_eq] at hstart
  simp only [TypeNotation.isIdentifierPart, Char.isAlphanum, Bool.or_eq_true, decide_eq_true_eq]
  rcases hstart with (halpha | hscore) | hdollar
  · exact .inl (.inl (.inl halpha))
  · exact .inl (.inr hscore)
  · exact .inr hdollar

/-- A word that is no keyword. -/
structure IsIdentifier (name : String) : Prop where
  word : IsWord name.toList
  ne_any : name ≠ "any"
  ne_union : name ≠ "union"

instance decidableIsIdentifier (name : String) : Decidable (IsIdentifier name) :=
  decidable_of_iff (IsWord name.toList ∧ name ≠ "any" ∧ name ≠ "union")
    ⟨fun ⟨hword, hany, hunion⟩ ↦ ⟨hword, hany, hunion⟩,
      fun ⟨hword, hany, hunion⟩ ↦ ⟨hword, hany, hunion⟩⟩

theorem wordToken_of_isIdentifier {name : String} (h : IsIdentifier name) :
    wordToken name.toList = .identifier name := by
  have hany : name.toList ≠ ['a', 'n', 'y'] := fun heq ↦
    h.ne_any (String.toList_injective heq)
  have hunion : name.toList ≠ ['u', 'n', 'i', 'o', 'n'] := fun heq ↦
    h.ne_union (String.toList_injective heq)
  rw [wordToken, if_neg hany, if_neg hunion, String.ofList_toList]

theorem isIdentifier_of_wordToken {word : List Char} {name : String} (hword : IsWord word)
    (h : wordToken word = .identifier name) : IsIdentifier name := by
  unfold wordToken at h
  split at h
  · cases h
  · next hany =>
    split at h
    · cases h
    · next hunion =>
      cases h
      refine ⟨by rwa [String.toList_ofList], fun heq ↦ hany ?_, fun heq ↦ hunion ?_⟩
      · rw [← String.toList_ofList (l := word), heq]
        rfl
      · rw [← String.toList_ofList (l := word), heq]
        rfl

/-! ## Dotted names -/

/-- One or more parts of the given kind, with single dots between them. -/
def IsDotted (Part : String → Prop) (name : String) : Prop :=
  ∃ first others, (∀ part ∈ first :: others, Part part) ∧
    name = ".".intercalate (first :: others)

/-- One or more words with single dots between them. -/
def IsPath (name : String) : Prop := IsDotted (fun part ↦ IsWord part.toList) name

theorem isPath_of_isWord {word : String} (h : IsWord word.toList) : IsPath word :=
  ⟨word, [], by simpa using h, rfl⟩

theorem IsDotted.isPath {name : String} (h : IsDotted IsIdentifier name) : IsPath name := by
  obtain ⟨first, others, hparts, rfl⟩ := h
  exact ⟨first, others, fun part hpart ↦ (hparts part hpart).word, rfl⟩

theorem toList_intercalate_dot (first : String) (others : List String) :
    (".".intercalate (first :: others)).toList =
      first.toList ++ others.flatMap fun part ↦ '.' :: part.toList := by
  induction others generalizing first with
  | nil => simp
  | cons second others ih =>
    rw [String.intercalate_cons_cons, String.toList_append, String.toList_append, ih,
      List.flatMap_cons]
    simp

theorem IsPath.exists_cons {name : String} (h : IsPath name) :
    ∃ first others, name.toList = first :: others ∧ isIdentifierStart first = true := by
  obtain ⟨first, others, hparts, rfl⟩ := h
  obtain ⟨c, rest, hfirst, hstart⟩ := (hparts first List.mem_cons_self).exists_cons
  exact ⟨c, _, by rw [toList_intercalate_dot, hfirst]; rfl, hstart⟩

/-- The further parts of a dotted name end its first part. -/
theorem endsRun_segments (segments : List String) {rest : List Char}
    (hrest : EndsRun isIdentifierPart rest) :
    EndsRun isIdentifierPart ((segments.flatMap fun part ↦ '.' :: part.toList) ++ rest) := by
  cases segments with
  | nil => exact hrest
  | cons segment segments => exact endsRun_cons.mpr rfl

/-! ## The lexeme of a word -/

theorem lexemeAt?_word {word rest : List Char} (hword : IsWord word)
    (hrest : EndsRun isIdentifierPart rest) :
    lexemeAt? (word ++ rest) = some (wordToken word, word.length) := by
  obtain ⟨hstart, hparts⟩ := hword
  rename_i first others
  have hlength : 1 + runLength isIdentifierPart (others ++ rest) = (first :: others).length := by
    rw [runLength_append hparts hrest, List.length_cons, Nat.add_comm]
  rw [List.cons_append, lexemeAt?, if_pos hstart]
  dsimp only
  rw [hlength, ← List.cons_append, List.take_left]

theorem lexemeAt?_identifier {name : String} {rest : List Char} (h : IsIdentifier name)
    (hrest : EndsRun isIdentifierPart rest) :
    lexemeAt? (name.toList ++ rest) = some (.identifier name, name.toList.length) := by
  rw [lexemeAt?_word h.word hrest, wordToken_of_isIdentifier h]

theorem isWord_take {first : Char} {rest : List Char} (hstart : isIdentifierStart first = true) :
    IsWord ((first :: rest).take (1 + runLength isIdentifierPart rest)) := by
  rw [Nat.add_comm, List.take_succ_cons]
  exact ⟨hstart, fun _ ↦ of_mem_take_runLength⟩

end TypeNotation
