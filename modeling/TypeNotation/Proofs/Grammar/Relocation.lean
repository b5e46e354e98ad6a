import TypeNotation.Proofs.Grammar.Annotation
import TypeNotation.Proofs.Lexical.Scans

/-!
# Annotations further on in a text

An annotation may stand anywhere in a longer text, as a line does in a file. Nothing in front of it
is looked at, so it is read as if it stood alone and only the places are counted from further in
front: a reader does with shifted pieces what it does with the pieces, and reports at the shifted
place.

As in the recognition of the grammar, a bound on the length of the input takes the place of the
termination proofs.
-/

namespace TypeNotation

variable {α β : Type}

/-! ## Shifted places -/

/-- The same error in a text that has `offset` more bytes in front. -/
def LexicalError.shift (offset : Nat) : LexicalError → LexicalError
  | unrecognizedCharacter character span => unrecognizedCharacter character (span.shift offset)
  | unterminatedString span => unterminatedString (span.shift offset)

def SyntaxError.shift (offset : Nat) : SyntaxError → SyntaxError
  | unexpectedToken expected found span => unexpectedToken expected found (span.shift offset)
  | unexpectedEnd expected span => unexpectedEnd expected (span.shift offset)
  | lexical error => lexical (error.shift offset)

def Located.shift (offset : Nat) (located : Located) : Located :=
  ⟨located.token, located.span.shift offset⟩

def Piece.shift (offset : Nat) : Piece → Piece
  | .ok located => .ok (located.shift offset)
  | .error error => .error (error.shift offset)

def shiftPieces (offset : Nat) (pieces : List Piece) : List Piece := pieces.map (Piece.shift offset)

/-- The same answer for pieces in a text that has `offset` more bytes in front. -/
def shiftAnswer (offset : Nat) :
    Except Refusal (α × List Piece) → Except Refusal (α × List Piece)
  | .ok (a, rest) => .ok (a, shiftPieces offset rest)
  | .error refusal => .error ⟨refusal.expected, shiftPieces offset refusal.remaining⟩

theorem headIs_shiftPieces (symbol : Symbol) (offset : Nat) (input : List Piece) :
    headIs symbol (shiftPieces offset input) = headIs symbol input := by
  rcases input with _ | ⟨error | ⟨token, span⟩, rest⟩
  · rfl
  · rfl
  · cases token <;> rfl

theorem isEmpty_shiftPieces (offset : Nat) (input : List Piece) :
    (shiftPieces offset input).isEmpty = input.isEmpty := by
  cases input <;> rfl

/-! ## Readers -/

/-- On inputs shorter than `bound` the reader does with shifted pieces what it does with the pieces,
and it leaves no more than there was. -/
structure Relocates (bound : Nat) (read : Production α) : Prop where
  shift : ∀ {input : List Piece}, input.length < bound → ∀ offset,
    read (shiftPieces offset input) = shiftAnswer offset (read input)
  length_le : ∀ {input a rest}, input.length < bound → read input = .ok (a, rest) →
    rest.length ≤ input.length

namespace Relocates

open Production

variable {bound : Nat} {read : Production α}

theorem zero : Relocates 0 read where
  shift hlen := absurd hlen (Nat.not_lt_zero _)
  length_le hlen := absurd hlen (Nat.not_lt_zero _)

theorem accept (a : α) : Relocates bound (accept a) where
  shift _ _ := rfl
  length_le _ h := by
    cases h
    exact Nat.le_refl _

theorem map (f : α → β) (h : Relocates bound read) : Relocates bound (read.map f) where
  shift {input} hlen offset := by
    have hshift := h.shift hlen offset
    cases hread : read input with
    | error refusal =>
      rw [hread] at hshift
      rw [map_of_error f hshift, map_of_error f hread]
      rfl
    | ok answer =>
      obtain ⟨a, rest⟩ := answer
      rw [hread] at hshift
      rw [map_of_ok f hshift, map_of_ok f hread]
      rfl
  length_le {input b rest} hlen hmap := by
    cases hread : read input with
    | error refusal =>
      rw [map_of_error f hread] at hmap
      cases hmap
    | ok answer =>
      obtain ⟨a, rest'⟩ := answer
      rw [map_of_ok f hread] at hmap
      cases hmap
      exact h.length_le hlen hread

/-- The second reader needs only a bound on what the first one leaves. -/
theorem andThen_of_lt {bound' : Nat} {next : α → Production β} (h : Relocates bound read)
    (hnext : ∀ a, Relocates bound' (next a))
    (hlt : ∀ {input a rest}, input.length < bound → read input = .ok (a, rest) →
      rest.length < bound') :
    Relocates bound (read.andThen next) where
  shift {input} hlen offset := by
    have hshift := h.shift hlen offset
    cases hread : read input with
    | error refusal =>
      rw [hread] at hshift
      rw [andThen_of_error hshift, andThen_of_error hread]
      rfl
    | ok answer =>
      obtain ⟨a, rest⟩ := answer
      rw [hread] at hshift
      rw [andThen_of_ok hshift, andThen_of_ok hread]
      exact (hnext a).shift (hlt hlen hread) offset
  length_le {input b rest} hlen hthen := by
    cases hread : read input with
    | error refusal =>
      rw [andThen_of_error hread] at hthen
      cases hthen
    | ok answer =>
      obtain ⟨a, rest'⟩ := answer
      rw [andThen_of_ok hread] at hthen
      exact Nat.le_trans ((hnext a).length_le (hlt hlen hread) hthen) (h.length_le hlen hread)

theorem andThen {next : α → Production β} (h : Relocates bound read)
    (hnext : ∀ a, Relocates bound (next a)) : Relocates bound (read.andThen next) :=
  h.andThen_of_lt hnext fun hlen hread ↦ Nat.lt_of_le_of_lt (h.length_le hlen hread) hlen

theorem choose {test : List Piece → Bool} {yes no : Production α} (hyes : Relocates bound yes)
    (hno : Relocates bound no)
    (htest : ∀ offset input, test (shiftPieces offset input) = test input) :
    Relocates bound (choose test yes no) where
  shift {input} hlen offset := by
    cases h : test input with
    | true =>
      rw [choose_of_true h, choose_of_true ((htest offset input).trans h)]
      exact hyes.shift hlen offset
    | false =>
      rw [choose_of_false h, choose_of_false ((htest offset input).trans h)]
      exact hno.shift hlen offset
  length_le {input a rest} hlen hread := by
    cases h : test input with
    | true =>
      rw [choose_of_true h] at hread
      exact hyes.length_le hlen hread
    | false =>
      rw [choose_of_false h] at hread
      exact hno.length_le hlen hread

theorem ofOutcome {read : (input : List Piece) → Outcome α input.length}
    (h : ∀ {input : List Piece}, input.length < bound → ∀ offset,
      (read (shiftPieces offset input)).result = shiftAnswer offset (read input).result) :
    Relocates bound (ofOutcome read) where
  shift := h
  length_le _ hread := Nat.le_of_lt (Outcome.length_lt_of_result hread)

theorem symbol (s : Symbol) : Relocates bound (symbol s) where
  shift {input} _ offset := by
    have hhead := headIs_shiftPieces s offset input
    cases h : headIs s input with
    | true =>
      rw [symbol_of_headIs h, symbol_of_headIs (hhead.trans h)]
      obtain ⟨span, rest, rfl⟩ := headIs_iff.mp h
      rfl
    | false =>
      rw [symbol_of_not_headIs h, symbol_of_not_headIs (hhead.trans h)]
      rfl
  length_le _ hread := Nat.le_of_lt (Outcome.length_lt_of_result hread)

theorem identifier : Relocates bound identifier where
  shift {input} _ offset := by
    rcases input with _ | ⟨error | ⟨token, span⟩, rest⟩
    · rfl
    · rfl
    · cases token <;> rfl
  length_le {input name rest} _ hread := by
    unfold Production.identifier at hread
    split at hread <;> cases hread
    exact Nat.le_succ _

theorem mono {bound' : Nat} (h : Relocates bound read) (hbound : bound' ≤ bound) :
    Relocates bound' read where
  shift hlen := h.shift (Nat.lt_of_lt_of_le hlen hbound)
  length_le hlen := h.length_le (Nat.lt_of_lt_of_le hlen hbound)

end Relocates

/-! ## Productions -/

section Productions

open Production

variable {bound : Nat}

theorem startsIdentifier_shiftPieces (offset : Nat) (input : List Piece) :
    startsIdentifier (shiftPieces offset input) = startsIdentifier input := by
  rcases input with _ | ⟨error | ⟨token, span⟩, rest⟩
  · rfl
  · rfl
  · cases token <;> rfl

theorem relocates_segments (bound : Nat) : Relocates bound segments := by
  induction bound with
  | zero => exact .zero
  | succ bound ih =>
    have hpart : Relocates bound (identifier.andThen fun segment ↦ segments.map (segment :: ·)) :=
      Relocates.identifier.andThen fun segment ↦ ih.map (segment :: ·)
    rw [segments_eq]
    refine .choose ?_ (.accept []) (headIs_shiftPieces .dot)
    refine (Relocates.symbol .dot).andThen_of_lt (fun _ ↦ hpart) fun hlen hdot ↦ ?_
    exact Nat.lt_of_lt_of_le (Outcome.length_lt_of_result hdot) (Nat.le_of_lt_succ hlen)

theorem relocates_comma (bound : Nat) : Relocates bound comma :=
  .choose (.symbol .comma) (.accept ()) (headIs_shiftPieces .comma)

theorem relocates_items (close : Symbol) {read : (input : List Piece) → Outcome α input.length}
    (h : Relocates bound (ofOutcome read)) : Relocates bound (items close read) := by
  induction bound with
  | zero => exact .zero
  | succ bound ih =>
    have hrest := ih (h.mono (Nat.le_succ _))
    have hbehind (a : α) :
        Relocates bound (comma.andThen fun _ ↦ (items close read).map (a :: ·)) :=
      (relocates_comma bound).andThen fun _ ↦ hrest.map (a :: ·)
    rw [items_eq]
    refine .choose ((Relocates.symbol close).map _) (h.andThen_of_lt hbehind ?_) ?_
    · intro input a rest hlen hitem
      exact Nat.lt_of_lt_of_le (Outcome.length_lt_of_result hitem) (Nat.le_of_lt_succ hlen)
    · intro offset input
      rw [isEmpty_shiftPieces, headIs_shiftPieces]

theorem relocates_typed (h : Relocates bound type) : Relocates bound typed :=
  Relocates.identifier.andThen fun _ ↦ (Relocates.symbol .colon).andThen fun _ ↦ h.map _

theorem relocates_param (h : Relocates bound type) : Relocates bound (ofOutcome paramOutcome) := by
  have heq : ofOutcome paramOutcome = param := funext fun input ↦ readParam_eq input _
  rw [heq]
  refine .choose ?_ ?_ startsIdentifier_shiftPieces
  · refine Relocates.identifier.andThen fun name ↦ ?_
    refine .choose ?_ ((relocates_segments bound).map _) (headIs_shiftPieces .colon)
    exact (Relocates.symbol .colon).andThen fun _ ↦ h.map _
  · refine .choose ?_ (h.map _) (headIs_shiftPieces .ellipsis)
    exact (Relocates.symbol .ellipsis).andThen fun _ ↦ (relocates_typed h).map _

theorem relocates_member (h : Relocates bound type) :
    Relocates bound (ofOutcome memberOutcome) := by
  have heq : ofOutcome memberOutcome = typed.map fun member ↦ (⟨member.1, member.2⟩ : Member) :=
    funext fun input ↦ readMember_eq input _
  rw [heq]
  exact (relocates_typed h).map _

theorem relocates_result (h : Relocates bound type) : Relocates bound result :=
  .choose ((Relocates.symbol .arrow).andThen fun _ ↦ h.map some) (.accept none)
    (headIs_shiftPieces .arrow)

/-- What a type does behind its first token, wherever that token stands. -/
theorem type_shift_of_first {token : Token} {read : Production TypeExpr}
    (hread : Relocates bound read)
    (htype : ∀ span rest, type (.ok ⟨token, span⟩ :: rest) = read rest) {span : Span}
    {rest : List Piece} (hlen : rest.length < bound) (offset : Nat) :
    type (shiftPieces offset (.ok ⟨token, span⟩ :: rest)) =
      shiftAnswer offset (type (.ok ⟨token, span⟩ :: rest)) := by
  rw [htype, ← hread.shift hlen offset]
  exact htype (span.shift offset) _

theorem type_shift_of_refused {input : List Piece}
    (h : ∀ located rest, input = .ok located :: rest →
      located.token.begins = false ∨ located.token = .symbol .ellipsis) (offset : Nat) :
    type (shiftPieces offset input) = shiftAnswer offset (type input) := by
  have hshifted : ∀ located rest, shiftPieces offset input = .ok located :: rest →
      located.token.begins = false ∨ located.token = .symbol .ellipsis := by
    rcases input with _ | ⟨error | first, others⟩
    · intro _ _ heq
      cases heq
    · intro _ _ heq
      cases heq
    · intro _ _ heq
      cases heq
      exact h first others rfl
  rw [type_refused h, type_refused hshifted]
  rfl

theorem relocates_type (bound : Nat) : Relocates bound type := by
  induction bound with
  | zero => exact .zero
  | succ bound ih =>
    refine .ofOutcome fun {input} hlen offset ↦ ?_
    change type (shiftPieces offset input) = shiftAnswer offset (type input)
    rcases exists_located_or input with ⟨⟨token, span⟩, rest, rfl⟩ | hne
    · have hrest : rest.length < bound := Nat.lt_of_succ_lt_succ hlen
      cases token with
      | identifier name =>
        have hparts := (relocates_segments bound).map fun parts ↦
          TypeExpr.entity (".".intercalate (name :: parts))
        exact type_shift_of_first hparts (type_identifier · · name) hrest offset
      | number text =>
        exact type_shift_of_first (.accept _) (type_number · · text) hrest offset
      | string value =>
        exact type_shift_of_first (.accept _) (type_string · · value) hrest offset
      | symbol s =>
        cases s with
        | any => exact type_shift_of_first (.accept _) type_any hrest offset
        | question => exact type_shift_of_first (ih.map _) type_question hrest offset
        | leftBracket =>
          have harray : Relocates bound (type.andThen fun element ↦
              (symbol .rightBracket).map fun _ ↦ TypeExpr.array element) :=
            ih.andThen fun _ ↦ (Relocates.symbol .rightBracket).map _
          exact type_shift_of_first harray type_leftBracket hrest offset
        | union =>
          have hunion : Relocates bound ((symbol .less).andThen fun _ ↦
              (items .greater readType).map TypeExpr.union) :=
            (Relocates.symbol .less).andThen fun _ ↦ (relocates_items .greater ih).map _
          exact type_shift_of_first hunion type_union hrest offset
        | leftBrace =>
          have hobject := (relocates_items .rightBrace (relocates_member ih)).map TypeExpr.object
          exact type_shift_of_first hobject type_leftBrace hrest offset
        | leftParen =>
          have hparams := relocates_items .rightParen (relocates_param ih)
          have hfunction : Relocates bound ((items .rightParen paramOutcome).andThen fun params ↦
              result.map (TypeExpr.function params)) :=
            hparams.andThen fun _ ↦ (relocates_result ih).map _
          exact type_shift_of_first hfunction type_leftParen hrest offset
        | _ =>
          refine type_shift_of_refused (fun _ _ heq ↦ ?_) offset
          cases heq
          simp [Token.begins]
    · exact type_shift_of_refused (fun located rest heq ↦ absurd heq (hne located rest)) offset

theorem relocates_finish (bound : Nat) (t : TypeExpr) : Relocates bound (finish t) where
  shift {input} _ offset := by cases input <;> rfl
  length_le {input t' rest} _ h := by
    cases input <;> cases h
    exact Nat.le_refl _

theorem whole_shiftPieces (offset : Nat) (input : List Piece) :
    whole (shiftPieces offset input) = shiftAnswer offset (whole input) :=
  ((relocates_type _).andThen (relocates_finish _)).shift (Nat.lt_succ_self _) offset

end Productions

/-! ## Cursors -/

namespace Cursor

/-- The same place in a text that has `offset` more bytes in front. -/
def shift (offset : Nat) (cursor : Cursor) : Cursor := ⟨cursor.offset + offset, cursor.rest⟩

variable (cursor : Cursor) (offset : Nat)

theorem advance_shift (n : Nat) :
    (cursor.shift offset).advance n = (cursor.advance n).shift offset := by
  simp only [shift, advance, Nat.add_right_comm]

theorem finish_shift : (cursor.shift offset).finish = cursor.finish + offset :=
  Nat.add_right_comm _ _ _

theorem pieceAt_shift (first : Char) :
    (cursor.shift offset).pieceAt first =
      ((cursor.pieceAt first).1.shift offset, (cursor.pieceAt first).2) := by
  have hrest : (cursor.shift offset).rest = cursor.rest := rfl
  unfold pieceAt
  rw [hrest, finish_shift]
  cases hfound : lexemeAt? cursor.rest with
  | some found =>
    simp only [advance_shift]
    rfl
  | none =>
    by_cases hquote : isQuote first = true
    · simp only [if_pos hquote]
      rfl
    · simp only [if_neg hquote, shift, Piece.shift, LexicalError.shift, Span.shift,
        Nat.add_right_comm]

theorem scan_shift :
    (cursor.shift offset).scan =
      (cursor.scan.1.map (Piece.shift offset), cursor.scan.2.shift offset) := by
  have hskip : (cursor.shift offset).skipLayout = cursor.skipLayout.shift offset :=
    advance_shift _ _ _
  have hrest : (cursor.skipLayout.shift offset).rest = cursor.skipLayout.rest := rfl
  unfold scan
  rw [hskip, hrest]
  cases cursor.skipLayout.rest with
  | nil => rfl
  | cons first rest =>
    simp only [pieceAt_shift, advance_shift]
    rfl

theorem pieces_shift : (cursor.shift offset).pieces = shiftPieces offset cursor.pieces := by
  induction cursor using Cursor.pieces.induct with
  | case1 cursor next hscan =>
    rw [pieces_eq, pieces_eq, scan_shift, hscan]
    rfl
  | case2 cursor piece next hscan ih =>
    rw [pieces_eq, pieces_eq, scan_shift, hscan]
    exact congrArg (piece.shift offset :: ·) ih

end Cursor

/-! ## Readings -/

open Production

theorem Refusal.error_shift (expected : Expected) (remaining : List Piece) (finish offset : Nat) :
    Refusal.error ⟨expected, shiftPieces offset remaining⟩ (finish + offset) =
      (Refusal.error ⟨expected, remaining⟩ finish).shift offset := by
  rcases remaining with _ | ⟨error | located, rest⟩ <;> rfl

namespace Cursor

variable {cursor : Cursor}

theorem read_of_ok {t : TypeExpr} (h : whole cursor.pieces = .ok (t, [])) :
    cursor.read.result = .ok t ∧
      cursor.read.next = cursor.skipPieces (cursor.pieces.length + 1) := by
  rw [← readWholeType_eq] at h
  simp only [read, h]
  exact ⟨trivial, rfl⟩

theorem read_of_error {refusal : Refusal} (h : whole cursor.pieces = .error refusal) :
    cursor.read.result = .error (refusal.error cursor.finish) ∧
      cursor.read.next =
        cursor.skipPieces (cursor.pieces.length - refusal.remaining.length + 1) := by
  rw [← readWholeType_eq] at h
  simp only [read, h]
  exact ⟨trivial, trivial⟩

/-- What comes of reading does not depend on what is in front, but for the place of an error. -/
theorem result_read_shift (cursor : Cursor) (offset : Nat) :
    (cursor.shift offset).read.result = cursor.read.result.mapError (·.shift offset) := by
  have hshift : whole (cursor.shift offset).pieces = shiftAnswer offset (whole cursor.pieces) := by
    rw [pieces_shift, whole_shiftPieces]
  cases hread : whole cursor.pieces with
  | ok answer =>
    obtain ⟨t, rest⟩ := answer
    obtain rfl := eq_nil_of_whole hread
    rw [hread] at hshift
    rw [(read_of_ok hread).1, (read_of_ok hshift).1]
    rfl
  | error refusal =>
    rw [hread] at hshift
    rw [(read_of_error hread).1, (read_of_error hshift).1, finish_shift, Refusal.error_shift]
    rfl

/-- A reading that starts further on in a text is one of the text from there on. -/
theorem result_read_eq (cursor : Cursor) :
    cursor.read.result =
      (parse (String.ofList cursor.rest)).mapError (·.shift cursor.offset) := by
  have hshift := result_read_shift (atStart cursor.rest) cursor.offset
  have hcursor : (atStart cursor.rest).shift cursor.offset = cursor := by
    rw [shift, atStart, Nat.zero_add]
  rw [hcursor] at hshift
  rw [hshift, parse, Reading.ofSource, String.toList_ofList]

end Cursor

end TypeNotation
