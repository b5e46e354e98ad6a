import TypeNotation.Parser.Productions
import TypeNotation.Proofs.Grammar.Derivation
import TypeNotation.Proofs.Grammar.Recognition

/-!
# Productions without bounds

The productions carry bounds on what is left, which make them terminate. Their answers do not depend
on the bounds. Here each production becomes a reader, and each reader is written as a combination of
the readers below it, as the grammar has it: a list ends or goes on with an item, an optional comma
and the rest of the list; a type is taken apart by its first token.

A parameter is the one place where two pieces are looked at before anything is read. That choice is
moved behind the identifier, where it rests on one piece.
-/

namespace TypeNotation

variable {α β : Type}

/-! ## Answers without bounds -/

theorem Outcome.result_andThen {bound : Nat} {outcome : Outcome α bound}
    {next : α → (rest : List Piece) → rest.length < bound → Outcome β bound}
    {read : Production α} {view : α → Production β} {input : List Piece}
    (hread : outcome.result = read input)
    (hview : ∀ value rest h, (next value rest h).result = view value rest) :
    (outcome.andThen next).result = read.andThen view input := by
  cases h : outcome.result with
  | error refusal =>
    rw [result_andThen_of_error h, Production.andThen_of_error (hread.symm.trans h)]
  | ok answer =>
    obtain ⟨value, rest⟩ := answer
    rw [result_andThen_of_ok h, Production.andThen_of_ok (hread.symm.trans h), hview]

theorem Outcome.result_map_eq {bound : Nat} {outcome : Outcome α bound} {read : Production α}
    {input : List Piece} (f : α → β) (hread : outcome.result = read input) :
    (outcome.map f).result = read.map f input := by
  rw [result_map, hread]
  rfl

/-- The answers of a list depend on those of its items only. -/
theorem result_readItems_congr {close : Symbol} {bound bound' : Nat}
    {item : (input : List Piece) → input.length < bound → Outcome α input.length}
    {item' : (input : List Piece) → input.length < bound' → Outcome α input.length}
    (hitem : ∀ input h h', (item input h).result = (item' input h').result) (input : List Piece)
    (h : input.length < bound) (h' : input.length < bound') :
    (readItems close item input h).result = (readItems close item' input h').result := by
  suffices key : ∀ (n : Nat) (input : List Piece), input.length < n → ∀ h h',
      (readItems close item input h).result = (readItems close item' input h').result from
    key _ input (Nat.lt_succ_self _) h h'
  -- on the length of the input, since an item and a comma leave less of it
  intro n
  induction n with
  | zero => intro input hn; exact absurd hn (Nat.not_lt_zero _)
  | succ n ih =>
    intro input hn h h'
    cases input with
    | nil => rw [readItems, readItems]
    | cons piece pieces =>
      rw [readItems, readItems]
      split
      · rfl
      · cases hfirst : (item (piece :: pieces) h).result with
        | error refusal =>
          rw [Outcome.result_andThen_of_error hfirst,
            Outcome.result_andThen_of_error ((hitem _ h h').symm.trans hfirst)]
        | ok answer =>
          obtain ⟨value, rest⟩ := answer
          have hrest := Nat.lt_of_le_of_lt (length_dropComma_le rest)
            (Outcome.length_lt_of_result hfirst)
          rw [Outcome.result_andThen_of_ok hfirst,
            Outcome.result_andThen_of_ok ((hitem _ h h').symm.trans hfirst), Outcome.result_map,
            Outcome.result_map, Outcome.result_within, Outcome.result_within,
            ih (dropComma rest) (by omega) (Nat.lt_trans hrest h) (Nat.lt_trans hrest h')]

namespace Production

/-- The answers of a reader with bounded outcomes. -/
def ofOutcome (read : (input : List Piece) → Outcome α input.length) : Production α :=
  fun input ↦ (read input).result

def type : Production TypeExpr := ofOutcome readType

/-- Reads the parts of a dotted name behind the first. -/
def segments : Production (List String) := fun input ↦ (readSegments input).result

/-- Reads a comma, if there is one. -/
def comma : Production Unit := choose (headIs .comma) (symbol .comma) (accept ())

theorem length_lt_bound (input : List Piece) : input.length < input.length + 1 :=
  Nat.lt_succ_self _

/-- Reads items up to and including the symbol `close`. -/
def items (close : Symbol) (read : (input : List Piece) → Outcome α input.length) :
    Production (List α) :=
  fun input ↦ (readItems close (fun inner _ ↦ read inner) input (length_lt_bound input)).result

/-- Reads a name, a colon and a type. -/
def typed : Production (String × TypeExpr) :=
  identifier.andThen fun name ↦ (symbol .colon).andThen fun _ ↦ type.map (name, ·)

def startsIdentifier : List Piece → Bool
  | .ok ⟨.identifier _, _⟩ :: _ => true
  | _ => false

theorem startsIdentifier_iff {input : List Piece} :
    startsIdentifier input = true ↔
      ∃ name span rest, input = .ok ⟨.identifier name, span⟩ :: rest := by
  unfold startsIdentifier
  split
  · simp
  · next hother =>
    simp only [Bool.false_eq_true, false_iff, not_exists]
    exact fun name span rest h ↦ hother _ _ _ h

/-- Reads a parameter that begins with an identifier: its name, if a colon stands behind it. -/
def wordParam : Production Param :=
  identifier.andThen fun name ↦
    choose (headIs .colon) ((symbol .colon).andThen fun _ ↦ type.map (.named name))
      (segments.map fun parts ↦ .unnamed (.entity (".".intercalate (name :: parts))))

/-- Reads any other parameter. -/
def otherParam : Production Param :=
  choose (headIs .ellipsis)
    ((symbol .ellipsis).andThen fun _ ↦ typed.map fun (name, t) ↦ .variadic name t)
    (type.map .unnamed)

/-- Reads an arrow and a type, if there is an arrow. -/
def result : Production (Option TypeExpr) :=
  choose (headIs .arrow) ((symbol .arrow).andThen fun _ ↦ type.map some) (accept none)

theorem comma_apply (input : List Piece) : comma input = .ok ((), dropComma input) := by
  unfold comma choose dropComma
  split
  · exact symbol_of_headIs ‹_›
  · rfl

theorem segments_eq :
    segments = choose (headIs .dot)
      ((symbol .dot).andThen fun _ ↦ identifier.andThen fun segment ↦ segments.map (segment :: ·))
      (accept []) := by
  funext input
  cases hdot : headIs .dot input with
  | true =>
    rw [choose_of_true hdot, andThen_of_ok (symbol_of_headIs hdot)]
    obtain ⟨span, rest, rfl⟩ := headIs_iff.mp hdot
    rw [List.tail_cons]
    by_cases hword : ∃ name span rest', rest = .ok ⟨.identifier name, span⟩ :: rest'
    · obtain ⟨name, span', rest', rfl⟩ := hword
      rw [andThen_of_ok (rfl : identifier (_ :: rest') = .ok (name, rest')), segments, readSegments]
      exact Outcome.result_map_eq _ (Outcome.result_within _ _)
    · have hne : ∀ name span rest', rest ≠ .ok ⟨.identifier name, span⟩ :: rest' :=
        fun name span rest' h ↦ hword ⟨name, span, rest', h⟩
      rw [andThen_of_error (identifier_of_ne hne), segments, readSegments.eq_2 span rest hne]
      rfl
  | false =>
    rw [choose_of_false hdot, segments, readSegments.eq_3]
    · rfl
    · rintro span segment span' rest rfl
      exact absurd hdot (by simp [headIs])
    · rintro span rest rfl
      exact absurd hdot (by simp [headIs])

theorem readItems_eq {close : Symbol} {bound : Nat}
    {item : (input : List Piece) → input.length < bound → Outcome α input.length}
    {read : (input : List Piece) → Outcome α input.length}
    (hitem : ∀ input h, (item input h).result = (read input).result) (input : List Piece)
    (h : input.length < bound) : (readItems close item input h).result = items close read input :=
  result_readItems_congr (fun input h _ ↦ hitem input h) input h _

theorem items_eq (close : Symbol) (read : (input : List Piece) → Outcome α input.length) :
    items close read = choose (fun input ↦ input.isEmpty || headIs close input)
      ((symbol close).map fun _ ↦ [])
      ((ofOutcome read).andThen fun a ↦ comma.andThen fun _ ↦
        (items close read).map (a :: ·)) := by
  funext input
  unfold choose
  cases input with
  | nil =>
    rw [items, readItems]
    rfl
  | cons piece pieces =>
    rw [items, readItems]
    simp only [List.isEmpty_cons, Bool.false_or]
    split
    · next hclose =>
      rw [map_of_ok _ (symbol_of_headIs hclose)]
      rfl
    · refine Outcome.result_andThen rfl fun value rest h ↦ ?_
      rw [andThen_of_ok (comma_apply rest)]
      refine Outcome.result_map_eq _ ?_
      rw [Outcome.result_within]
      exact readItems_eq (fun _ _ ↦ rfl) _ _

theorem readTyped_eq {bound : Nat} (input : List Piece) (h : input.length < bound) :
    (readTyped (fun inner _ ↦ readType inner) input h).result = typed input := by
  by_cases hword : ∃ name span rest, input = .ok ⟨.identifier name, span⟩ :: rest
  · obtain ⟨name, span, rest, rfl⟩ := hword
    rw [readTyped, typed, andThen_of_ok (rfl : identifier (_ :: rest) = .ok (name, rest))]
    refine Outcome.result_andThen (Outcome.result_within _ _) fun _ rest' _ ↦ ?_
    exact Outcome.result_map_eq _ (Outcome.result_within _ _)
  · have hne : ∀ name span rest, input ≠ .ok ⟨.identifier name, span⟩ :: rest :=
      fun name span rest heq ↦ hword ⟨name, span, rest, heq⟩
    rw [readTyped.eq_2 _ _ _ fun name span rest _ heq _ ↦ hne name span rest heq, typed,
      andThen_of_error (identifier_of_ne hne)]
    rfl

/-! ## Types by their first token -/

section First

variable (span : Span) (rest : List Piece)

theorem type_any : type (.ok ⟨.symbol .any, span⟩ :: rest) = .ok (.any, rest) := by
  rw [type, ofOutcome, readType]
  rfl

theorem type_string (value : String) :
    type (.ok ⟨.string value, span⟩ :: rest) = .ok (.text value, rest) := by
  rw [type, ofOutcome, readType]
  rfl

theorem type_number (text : String) :
    type (.ok ⟨.number text, span⟩ :: rest) = .ok (.number text, rest) := by
  rw [type, ofOutcome, readType]
  rfl

theorem type_identifier (name : String) :
    type (.ok ⟨.identifier name, span⟩ :: rest) =
      segments.map (fun parts ↦ .entity (".".intercalate (name :: parts))) rest := by
  rw [type, ofOutcome, readType]
  exact Outcome.result_map_eq _ rfl

theorem type_question :
    type (.ok ⟨.symbol .question, span⟩ :: rest) = type.map .nullable rest := by
  rw [type, ofOutcome, readType]
  exact Outcome.result_map_eq _ (Outcome.result_within _ _)

theorem type_leftBracket :
    type (.ok ⟨.symbol .leftBracket, span⟩ :: rest) =
      type.andThen (fun element ↦ (symbol .rightBracket).map fun _ ↦ .array element) rest := by
  rw [type, ofOutcome, readType]
  refine Outcome.result_andThen (Outcome.result_within _ _) fun _ _ _ ↦ ?_
  exact Outcome.result_map_eq _ (Outcome.result_within _ _)

theorem type_union :
    type (.ok ⟨.symbol .union, span⟩ :: rest) =
      (symbol .less).andThen (fun _ ↦ (items .greater readType).map .union) rest := by
  rw [type, ofOutcome, readType]
  refine Outcome.result_andThen (Outcome.result_within _ _) fun _ rest' _ ↦ ?_
  exact Outcome.result_map_eq _
    ((Outcome.result_within _ _).trans (readItems_eq (fun _ _ ↦ rfl) _ _))

end First

theorem readType_refused {input : List Piece}
    (h : ∀ located rest, input = .ok located :: rest →
      located.token.begins = false ∨ located.token = .symbol .ellipsis) :
    readType input = .refused ⟨.type, input⟩ [] := by
  have key {token : Token} {span : Span} {rest : List Piece}
      (heq : input = .ok ⟨token, span⟩ :: rest) (hbegins : token.begins = true)
      (hne : token ≠ .symbol .ellipsis) : False := by
    rcases h _ _ heq with hno | hellipsis
    · exact Bool.false_ne_true (hno.symm.trans hbegins)
    · exact hne hellipsis
  rw [readType.eq_10]
  all_goals
    intros
    exact key ‹_› rfl (by simp)

theorem type_refused {input : List Piece}
    (h : ∀ located rest, input = .ok located :: rest →
      located.token.begins = false ∨ located.token = .symbol .ellipsis) :
    type input = .error ⟨.type, input⟩ := by
  rw [type, ofOutcome, readType_refused h]
  rfl

def param : Production Param := choose startsIdentifier wordParam otherParam

theorem wordParam_of_named {name : String} {span : Span} {rest : List Piece}
    (h : headIs .colon rest = true) :
    wordParam (.ok ⟨.identifier name, span⟩ :: rest) =
      typed.map (fun (name, t) ↦ .named name t) (.ok ⟨.identifier name, span⟩ :: rest) := by
  have htyped : type.map (name, ·) rest.tail = typed (.ok ⟨.identifier name, span⟩ :: rest) := by
    rw [typed, andThen_of_ok (rfl : identifier (_ :: rest) = .ok (name, rest)),
      andThen_of_ok (symbol_of_headIs h)]
  calc wordParam (.ok ⟨.identifier name, span⟩ :: rest)
      = type.map (.named name) rest.tail := by
        rw [wordParam, andThen_of_ok (rfl : identifier (_ :: rest) = .ok (name, rest)),
          choose_of_true h, andThen_of_ok (symbol_of_headIs h)]
    _ = (type.map (name, ·)).map (fun (name, t) ↦ .named name t) rest.tail := by
        rw [map_map]
        rfl
    _ = _ := map_congr _ htyped

theorem wordParam_of_unnamed {name : String} {span : Span} {rest : List Piece}
    (h : headIs .colon rest = false) :
    wordParam (.ok ⟨.identifier name, span⟩ :: rest) =
      type.map .unnamed (.ok ⟨.identifier name, span⟩ :: rest) := by
  calc wordParam (.ok ⟨.identifier name, span⟩ :: rest)
      = segments.map (fun parts ↦ .unnamed (.entity (".".intercalate (name :: parts)))) rest := by
        rw [wordParam, andThen_of_ok (rfl : identifier (_ :: rest) = .ok (name, rest)),
          choose_of_false h]
    _ = (segments.map fun parts ↦ .entity (".".intercalate (name :: parts))).map .unnamed rest := by
        rw [map_map]
        rfl
    _ = _ := map_congr _ (type_identifier span rest name).symm

theorem param_ellipsis (span : Span) (rest : List Piece) :
    param (.ok ⟨.symbol .ellipsis, span⟩ :: rest) =
      typed.map (fun (name, t) ↦ .variadic name t) rest := by
  have hhead : headIs .ellipsis (.ok ⟨.symbol .ellipsis, span⟩ :: rest) = true := by
    simp [headIs]
  rw [param, choose_of_false rfl, otherParam, choose_of_true hhead,
    andThen_of_ok (symbol_of_headIs hhead)]
  rfl

theorem param_unnamed {token : Token} {span : Span} {rest : List Piece}
    (hellipsis : token ≠ .symbol .ellipsis)
    (hnamed : startsNamed (.ok ⟨token, span⟩ :: rest) = false) :
    param (.ok ⟨token, span⟩ :: rest) = type.map .unnamed (.ok ⟨token, span⟩ :: rest) := by
  by_cases hword : ∃ name, token = .identifier name
  · obtain ⟨name, rfl⟩ := hword
    rw [param, choose_of_true rfl, wordParam_of_unnamed hnamed]
  · have hstarts : startsIdentifier (.ok ⟨token, span⟩ :: rest) = false := by
      cases token <;> simp_all [startsIdentifier]
    have hhead : headIs .ellipsis (.ok ⟨token, span⟩ :: rest) = false := by
      cases token <;> simp_all [headIs]
    rw [param, choose_of_false hstarts, otherParam, choose_of_false hhead]

theorem param_refused {input : List Piece} (hne : ∀ located rest, input ≠ .ok located :: rest) :
    param input = .error ⟨.type, input⟩ := by
  have hstarts : startsIdentifier input = false := by
    unfold startsIdentifier
    split
    · exact absurd rfl (hne _ _)
    · rfl
  have hhead : headIs .ellipsis input = false := by
    unfold headIs
    split
    · exact absurd rfl (hne _ _)
    · rfl
  rw [param, choose_of_false hstarts, otherParam, choose_of_false hhead]
  exact map_of_error _ (type_refused fun located rest heq ↦ absurd heq (hne located rest))

/-- Looking two pieces ahead comes to the same as reading an identifier first. -/
theorem readParam_eq {bound : Nat} (input : List Piece) (h : input.length < bound) :
    (readParam (fun inner _ ↦ readType inner) input h).result = param input := by
  rcases exists_located_or input with ⟨⟨token, span⟩, rest, rfl⟩ | hne
  · by_cases hellipsis : token = .symbol .ellipsis
    · subst hellipsis
      rw [readParam, param_ellipsis]
      exact Outcome.result_map_eq _ ((Outcome.result_within _ _).trans (readTyped_eq _ _))
    · rw [readParam.eq_2 _ _ _ _ _ hellipsis]
      by_cases hnamed : startsNamed (.ok ⟨token, span⟩ :: rest) = true
      · obtain ⟨name, rfl⟩ : ∃ name, token = .identifier name := by
          cases token <;> simp_all [startsNamed]
        rw [if_pos hnamed, Outcome.result_noting, param, choose_of_true rfl,
          wordParam_of_named hnamed]
        exact Outcome.result_map_eq _ (readTyped_eq _ _)
      · rw [if_neg hnamed, Outcome.result_noting,
          param_unnamed hellipsis (Bool.eq_false_iff.mpr hnamed)]
        exact Outcome.result_map_eq _ rfl
  · rw [readParam.eq_3 _ _ _ (fun _ _ _ heq _ ↦ hne _ _ heq) (fun _ _ _ _ heq _ ↦ hne _ _ heq),
      param_refused hne]
    rfl

theorem readMember_eq {bound : Nat} (input : List Piece) (h : input.length < bound) :
    (readMember (fun inner _ ↦ readType inner) input h).result =
      typed.map (fun (name, t) ↦ ⟨name, t⟩) input :=
  Outcome.result_map_eq _ (readTyped_eq _ _)

/-- The parameters of a function, read one after the other. -/
def paramOutcome (input : List Piece) : Outcome Param input.length :=
  readParam (fun inner _ ↦ readType inner) input (length_lt_bound input)

/-- The members of a record, read one after the other. -/
def memberOutcome (input : List Piece) : Outcome Member input.length :=
  readMember (fun inner _ ↦ readType inner) input (length_lt_bound input)

theorem type_leftBrace (span : Span) (rest : List Piece) :
    type (.ok ⟨.symbol .leftBrace, span⟩ :: rest) =
      (items .rightBrace memberOutcome).map .object rest := by
  rw [type, ofOutcome, readType]
  refine Outcome.result_map_eq _ ((Outcome.result_within _ _).trans (readItems_eq ?_ _ _))
  intro input h
  rw [readMember_eq, memberOutcome, readMember_eq]

theorem result_of_arrow {rest : List Piece} (h : headIs .arrow rest = true) :
    result rest = type.map some rest.tail := by
  rw [result, choose_of_true h, andThen_of_ok (symbol_of_headIs h)]

theorem result_of_no_arrow {rest : List Piece} (h : headIs .arrow rest = false) :
    result rest = .ok (none, rest) := by
  rw [result, choose_of_false h]
  rfl

theorem type_leftParen (span : Span) (rest : List Piece) :
    type (.ok ⟨.symbol .leftParen, span⟩ :: rest) =
      (items .rightParen paramOutcome).andThen (fun params ↦ result.map (.function params))
        rest := by
  rw [type, ofOutcome, readType]
  refine Outcome.result_andThen ((Outcome.result_within _ _).trans (readItems_eq ?_ _ _)) ?_
  · intro input h
    rw [readParam_eq, paramOutcome, readParam_eq]
  · intro params rest' h
    split
    · next harrow =>
      calc _ = type.map (fun t ↦ TypeExpr.function params (some t)) rest'.tail :=
            Outcome.result_map_eq _ (Outcome.result_within _ _)
        _ = (type.map some).map (TypeExpr.function params) rest'.tail := by
            rw [map_map]
            rfl
        _ = _ := map_congr _ (result_of_arrow harrow).symm
    · next harrow =>
      rw [map_of_ok _ (result_of_no_arrow (Bool.eq_false_iff.mpr harrow))]
      rfl

end Production

end TypeNotation
