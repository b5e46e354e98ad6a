import TypeNotation.Proofs.Grammar.OnDemand
import TypeNotation.Proofs.Grammar.Resumption
import TypeNotation.Proofs.Lexical.Progress

/-!
# Everything comes to an end

Neither tokenizing nor the descent has a bound, and both always come to an end. What carries this
is that every step takes something: a scan that finds something moves on in the text, and a type, a
member or a parameter takes a token, so a list has fewer pieces in front of it with each item. A
whole descent has the result of a reading and stops where it stops.
-/

namespace TypeNotation

/-! ## Taking tokens -/

namespace Scanner

/-- From one scanner to the other the tokens are taken, by one scan each. -/
structure Takes (scanner : Scanner) (tokens : List Located) (stop : Scanner) : Prop where
  ahead : scanner.ahead = piecesOf tokens ++ stop.ahead
  scans : stop = next^[tokens.length] scanner

theorem Takes.trans {scanner middle stop : Scanner} {tokens tokens' : List Located}
    (h : scanner.Takes tokens middle) (h' : middle.Takes tokens' stop) :
    scanner.Takes (tokens ++ tokens') stop where
  ahead := by rw [h.ahead, h'.ahead, piecesOf_append, List.append_assoc]
  scans := by
    rw [h'.scans, h.scans, ← Function.iterate_add_apply, List.length_append, Nat.add_comm]

end Scanner

theorem Arrival.scanner_iterate_next (place : Arrival) (n : Nat) :
    (Arrival.next^[n] place).scanner = Scanner.next^[n] place.scanner := by
  induction n with
  | zero => rfl
  | succ n ih =>
    rw [Function.iterate_succ_apply', Function.iterate_succ_apply', ← ih]
    rfl

theorem Arrival.Passes.takes {place stop : Arrival} {tokens : List Located}
    (h : Passes tokens place stop) (hplace : place.fault = none) (hstop : stop.fault = none) :
    place.scanner.Takes tokens stop.scanner := by
  have hpieces := h.pieces_eq
  rw [Arrival.pieces, hplace, Arrival.pieces, hstop] at hpieces
  exact ⟨hpieces, by rw [h.eq_iterate, Arrival.scanner_iterate_next]⟩

namespace Descent

variable {α β : Type} {least : Nat} {d : Descent α}

/-- From every scanner the descent comes to an end, and where it succeeds, it has taken so many
tokens at least. -/
def TakesAtLeast (least : Nat) (d : Descent α) : Prop :=
  ∀ scanner, ∃ answer stop, d scanner = some (answer, stop) ∧
    ∀ value, answer = .ok value → ∃ tokens, least ≤ tokens.length ∧ scanner.Takes tokens stop

/-- What agrees with a production comes to an end, and it takes what the production takes. -/
theorem Agrees.exists_takes {scanner : Scanner} {answer : Except Refusal (α × List Piece)}
    (h : Agrees d ⟨scanner, none⟩ answer) :
    ∃ result stop, d scanner = some (result, stop) ∧ ∀ value, result = .ok value →
      ∃ tokens, scanner.Takes tokens stop ∧ answer = .ok (value, stop.ahead) := by
  cases h with
  | @accepted found tokens place hpass hrun =>
    cases hfault : place.fault with
    | some fault =>
      refine ⟨_, _, hrun.trans (runAt_of_fault hfault), fun value hresult ↦ ?_⟩
      cases hresult
    | none =>
      refine ⟨_, _, hrun.trans (runAt_of_no_fault hfault), fun value hresult ↦ ?_⟩
      cases hresult
      refine ⟨tokens, hpass.takes rfl hfault, ?_⟩
      rw [Arrival.pieces, hfault]
  | @refused _ _ place _ hrun =>
    cases hfault : place.fault with
    | some fault =>
      refine ⟨_, _, hrun.trans (runAt_of_fault hfault), fun value hresult ↦ ?_⟩
      cases hresult
    | none =>
      refine ⟨_, _, hrun.trans (runAt_of_no_fault hfault), fun value hresult ↦ ?_⟩
      cases hresult

section Follows

variable {read : Production α} (h : ∀ bound, Follows bound d read)
include h

theorem exists_takes_of_follows (scanner : Scanner) :
    ∃ result stop, d scanner = some (result, stop) ∧ ∀ value, result = .ok value →
      ∃ tokens, scanner.Takes tokens stop ∧ read scanner.ahead = .ok (value, stop.ahead) :=
  (h _ ⟨scanner, none⟩ (Production.length_lt_bound _)).exists_takes

theorem takesAtLeast_of_follows : TakesAtLeast 0 d := by
  intro scanner
  obtain ⟨answer, stop, hrun, htakes⟩ := exists_takes_of_follows h scanner
  refine ⟨answer, stop, hrun, fun value hanswer ↦ ?_⟩
  obtain ⟨tokens, htokens, -⟩ := htakes value hanswer
  exact ⟨tokens, Nat.zero_le _, htokens⟩

/-- Where the production leaves less than there was, a token at least is taken. -/
theorem takesAtLeast_one_of_follows
    (hread : ∀ {input value rest}, read input = .ok (value, rest) → rest.length < input.length) :
    TakesAtLeast 1 d := by
  intro scanner
  obtain ⟨answer, stop, hrun, htakes⟩ := exists_takes_of_follows h scanner
  refine ⟨answer, stop, hrun, fun value hanswer ↦ ?_⟩
  obtain ⟨tokens, htokens, haccepts⟩ := htakes value hanswer
  have hlen := hread haccepts
  rw [htokens.ahead, List.length_append, length_piecesOf] at hlen
  exact ⟨tokens, by omega, htokens⟩

end Follows

theorem TakesAtLeast.ends (h : TakesAtLeast least d) : TakesAtLeast 0 d := by
  intro scanner
  obtain ⟨answer, stop, hrun, htakes⟩ := h scanner
  refine ⟨answer, stop, hrun, fun value hanswer ↦ ?_⟩
  obtain ⟨tokens, -, htokens⟩ := htakes value hanswer
  exact ⟨tokens, Nat.zero_le _, htokens⟩

theorem TakesAtLeast.bind {f : α → Descent β} (h : TakesAtLeast least d)
    (hf : ∀ value, TakesAtLeast 0 (f value)) : TakesAtLeast least (d >>= f) := by
  intro scanner
  obtain ⟨answer, middle, hrun, htakes⟩ := h scanner
  rw [bind_apply, hrun]
  cases answer with
  | error error => exact ⟨_, _, rfl, nofun⟩
  | ok value =>
    obtain ⟨tokens, hleast, htokens⟩ := htakes value rfl
    obtain ⟨answer, stop, hrun', htakes'⟩ := hf value middle
    refine ⟨answer, stop, hrun', fun value' hanswer ↦ ?_⟩
    obtain ⟨tokens', -, htokens'⟩ := htakes' value' hanswer
    refine ⟨tokens ++ tokens', ?_, htokens.trans htokens'⟩
    rw [List.length_append]
    exact Nat.le_add_right_of_le hleast

theorem takesAtLeast_pure (value : α) : TakesAtLeast 0 (pure value : Descent α) :=
  fun _ ↦ ⟨_, _, rfl, fun _ _ ↦ ⟨[], Nat.le_refl _, rfl, rfl⟩⟩

theorem takesAtLeast_token_bind {f : Option Token → Descent α}
    (h : ∀ current, TakesAtLeast least (f current)) : TakesAtLeast least (token >>= f) :=
  fun scanner ↦ h scanner.token scanner

theorem follows_matchSymbol (symbol : Symbol) (bound : Nat) :
    Follows bound (matchSymbol symbol) (Production.choose (headIs symbol)
      ((Production.symbol symbol).andThen fun _ ↦ Production.accept true)
      (Production.accept false)) := by
  intro place _
  rw [← bind_pure (matchSymbol symbol)]
  exact agrees_matchSymbol_bind (fun _ ↦ agrees_pure true place.next) fun _ ↦
    agrees_pure false place

theorem takesAtLeast_matchSymbol (symbol : Symbol) : TakesAtLeast 0 (matchSymbol symbol) :=
  takesAtLeast_of_follows (follows_matchSymbol symbol)

theorem takesAtLeast_expect (symbol : Symbol) : TakesAtLeast 1 (expect symbol) :=
  takesAtLeast_one_of_follows (fun _ place _ ↦ agrees_expect symbol place)
    Outcome.length_lt_of_result

theorem takesAtLeast_type : TakesAtLeast 1 Rule.type.read :=
  takesAtLeast_one_of_follows follows_type Outcome.length_lt_of_result

theorem takesAtLeast_item (kind : ListKind) : TakesAtLeast 1 (Rule.item kind).read :=
  takesAtLeast_one_of_follows (fun bound ↦ follows_item (follows_type bound) kind)
    Outcome.length_lt_of_result

theorem takesAtLeast_round (kind : ListKind) : TakesAtLeast 1 (Rule.round kind).read := by
  rw [Rule.read]
  exact (takesAtLeast_item kind).bind fun item ↦
    (takesAtLeast_matchSymbol .comma).bind fun _ ↦ takesAtLeast_pure item

theorem takesAtLeast_items (kind : ListKind) : TakesAtLeast 1 (Rule.items kind).read := by
  have hitems : TakesAtLeast 0 (Rule.items kind).read :=
    takesAtLeast_of_follows fun bound ↦ follows_items (follows_item (follows_type bound) kind)
  rw [Rule.read]
  refine takesAtLeast_token_bind fun current ↦ ?_
  split
  · exact (takesAtLeast_expect kind.close).bind fun _ ↦ takesAtLeast_pure []
  · exact (takesAtLeast_round kind).bind fun first ↦
      hitems.bind fun others ↦ takesAtLeast_pure (first :: others)

/-- Whatever is to be read, there is an end to it. -/
theorem takesAtLeast_read (rule : Rule α) : TakesAtLeast 0 rule.read := by
  cases rule with
  | segments name => exact takesAtLeast_of_follows fun bound ↦ follows_segments bound name
  | type => exact takesAtLeast_type.ends
  | typed => exact takesAtLeast_of_follows fun bound ↦ follows_typed (follows_type bound)
  | item kind => exact (takesAtLeast_item kind).ends
  | round kind => exact (takesAtLeast_round kind).ends
  | items kind => exact (takesAtLeast_items kind).ends

end Descent

/-! ## Whole annotations -/

namespace Scanner

open Arrival (Passes)

theorem cursor_iterate_next (scanner : Scanner) (n : Nat) :
    (next^[n] scanner).cursor = scanner.cursor.skipPieces n := by
  induction n with
  | zero => rfl
  | succ n ih => rw [Function.iterate_succ_apply', cursor_next, ih, Cursor.skipPieces_succ]

theorem token_next {scanner : Scanner} {found : Option Token} (h : scanner.scan.1 = .ok found) :
    scanner.next.token = found := by
  revert h
  unfold next scan
  rcases scanner.cursor.scan with ⟨_ | (fault | located), behind⟩ <;> rintro ⟨⟩ <;> rfl

theorem iterate_next_arrival (scanner : Scanner) (n : Nat) :
    Arrival.next^[n] scanner.arrival = (next^[n] scanner).arrival := by
  induction n with
  | zero => rfl
  | succ n ih =>
    rw [Function.iterate_succ_apply', ih, Function.iterate_succ_apply']
    rfl

/-- Behind a scan and some tokens, a scanner is where one more scan leads from them. -/
theorem eq_arrival_of_passes {scanner : Scanner} {tokens : List Located} {stop : Arrival}
    (h : Passes tokens scanner.arrival stop) :
    stop = (next^[tokens.length] scanner).arrival := by
  rw [h.eq_iterate, iterate_next_arrival]

theorem cursor_of_passes {scanner : Scanner} {tokens : List Located} {stop : Arrival}
    (h : Passes tokens scanner.arrival stop) :
    stop.scanner.cursor =
      scanner.cursor.skipPieces (scanner.cursor.pieces.length - stop.pieces.length + 1) := by
  rw [← scanner.pieces_arrival, h.pieces_eq, List.length_append, length_piecesOf,
    Nat.add_sub_cancel, ← cursor_iterate_next, Function.iterate_succ_apply',
    eq_arrival_of_passes h]
  rfl

end Scanner

namespace Descent

/-- Behind a scan, a descent refuses with the error of the refusal. -/
theorem runAt_refuse_arrival {α : Type} (expected : Expected) (scanner : Scanner) :
    (refuse expected : Descent α).runAt scanner.arrival =
      some (.error (Refusal.error ⟨expected, scanner.cursor.pieces⟩ scanner.cursor.finish),
        scanner.next) := by
  rw [scanner.pieces_eq]
  cases hscan : scanner.scan.1 with
  | error fault => exact runAt_of_fault (by rw [Scanner.arrival, hscan])
  | ok found =>
    rw [runAt_of_no_fault (by rw [Scanner.arrival, hscan])]
    cases found with
    | none =>
      change refuse expected scanner.next = _
      rw [Scanner.next_of_none hscan]
      rfl
    | some token =>
      change refuse expected scanner.next = _
      rw [refuse, Scanner.token_next hscan]
      rfl

theorem agrees_finish (t : TypeExpr) (place : Arrival) :
    Agrees (token >>= fun current ↦ if current = none then pure t else refuse .endOfInput) place
      (Production.finish t place.pieces) := by
  cases hpieces : place.pieces with
  | nil =>
    have hpure := agrees_pure t place
    rw [hpieces] at hpure
    refine hpure.congr fun hfault ↦ ?_
    rw [runAt_token_bind, if_pos ((token_eq_none_iff hfault).mpr hpieces)]
  | cons piece rest =>
    have hrefuse := agrees_refuse (α := TypeExpr) .endOfInput place
    rw [hpieces] at hrefuse
    refine hrefuse.congr fun hfault ↦ ?_
    rw [runAt_token_bind, if_neg]
    rw [token_eq_none_iff hfault, hpieces]
    exact List.cons_ne_nil _ _

theorem agrees_whole (place : Arrival) :
    Agrees (Rule.type.read >>= fun t ↦ token >>= fun current ↦
        if current = none then pure t else refuse .endOfInput) place
      (Production.whole place.pieces) :=
  (follows_type _ place (Production.length_lt_bound _)).andThen fun t stop _ _ ↦
    agrees_finish t stop

/-- A descent through a whole annotation is a reading. -/
theorem annotation_eq (scanner : Scanner) :
    ∃ after, annotation scanner = some (scanner.cursor.read.result, after) ∧
      after.cursor = scanner.cursor.read.next := by
  have hrun : annotation scanner = (Rule.type.read >>= fun t ↦ token >>= fun current ↦
      if current = none then pure t else refuse .endOfInput).runAt scanner.arrival :=
    @runAt_advance_bind _ ⟨scanner, none⟩ _ rfl
  have hagrees := agrees_whole scanner.arrival
  rw [scanner.pieces_arrival] at hagrees
  generalize hread : Production.whole scanner.cursor.pieces = answer at hagrees
  cases hagrees with
  | @accepted t tokens stop hpass hpure =>
    have hnil := Production.eq_nil_of_whole hread
    rw [hnil] at hread
    obtain ⟨hresult, hnext⟩ := Cursor.read_of_ok hread
    refine ⟨stop.scanner, ?_, ?_⟩
    · rw [hrun, hpure, hresult, runAt_of_no_fault (Arrival.fault_of_pieces_nil hnil)]
      rfl
    · rw [Scanner.cursor_of_passes hpass, hnext, hnil, List.length_nil, Nat.sub_zero]
  | @refused expected tokens stop hpass hrefuse =>
    obtain ⟨hresult, hnext⟩ := Cursor.read_of_error hread
    refine ⟨stop.scanner, ?_, (Scanner.cursor_of_passes hpass).trans hnext.symm⟩
    rw [hrun, hrefuse, hresult, Scanner.eq_arrival_of_passes hpass, runAt_refuse_arrival,
      Scanner.finish_iterate_next, Scanner.pieces_arrival]
    rfl

end Descent

open Descent (Rule TakesAtLeast)

/-- **Scanning and reading always come to an end.** A scan moves on or is at the end for good.
Scanning until nothing is found is how an annotation is tokenized. Whatever a scanner holds, there
is an end to all that is read from it; a type, an item of a list and a round of the loop of a list
take a token where they succeed. And without any bound a whole descent comes to what a reading
finds. -/
theorem scans_and_descents_end :
    (∀ (source : String) (n : Nat), (Scanner.after source n).MovesOn source.toList ∨
      (Scanner.after source n).IsAtEnd source.toList) ∧
    (∀ source : String, (Scanner.ofSource source).collect [] = some (tokenize source)) ∧
    (∀ (α : Type) (rule : Rule α), TakesAtLeast 0 rule.read) ∧
    TakesAtLeast 1 Rule.type.read ∧
    (∀ kind, TakesAtLeast 1 (Rule.item kind).read ∧ TakesAtLeast 1 (Rule.round kind).read ∧
      TakesAtLeast 1 (Rule.items kind).read) ∧
    (∀ scanner, ∃ stop, Descent.annotation scanner = some (scanner.cursor.read.result, stop) ∧
      stop.cursor = scanner.cursor.read.next) ∧
    (∀ source : String, ∃ stop,
      Descent.annotation (.ofSource source) = some (parse source, stop)) := by
  refine ⟨fun source n ↦ Scanner.movesOn_or_isAtEnd (Scanner.isIn_after source n),
    Scanner.collect_ofSource, fun _ ↦ Descent.takesAtLeast_read, Descent.takesAtLeast_type,
    fun kind ↦ ⟨Descent.takesAtLeast_item kind, Descent.takesAtLeast_round kind,
      Descent.takesAtLeast_items kind⟩, Descent.annotation_eq, fun source ↦ ?_⟩
  obtain ⟨stop, hrun, -⟩ := Descent.annotation_eq (.ofSource source)
  exact ⟨stop, hrun⟩

end TypeNotation
