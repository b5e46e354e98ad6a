import TypeNotation.Proofs.Lexical.Escapes

/-!
# Closing quotes

Where a string literal ends. A backslash is meant to escape the character behind it, whichever that
is, so a literal is closed by the first quote that is not escaped, and never closed if there is no
such quote. A line feed may stand in a literal, but a backslash in front of it breaks the literal
off, although a quote may follow that would close it. Up to the first quote that is not escaped this
is the only thing that can go wrong.
-/

namespace TypeNotation

/-! ## Quotes and backslashes -/

/-- The text has no quote that is not escaped, and no backslash is left at its end. A backslash
escapes the character behind it, whichever that is. -/
inductive HoldsNoQuote (quote : Char) : List Char → Prop
  | nil : HoldsNoQuote quote []
  | plain {c : Char} {text : List Char} (hquote : c ≠ quote) (hbackslash : c ≠ '\\')
      (h : HoldsNoQuote quote text) : HoldsNoQuote quote (c :: text)
  | escape {c : Char} {text : List Char} (h : HoldsNoQuote quote text) :
      HoldsNoQuote quote ('\\' :: c :: text)

/-- The text in front of its first quote that is not escaped. -/
def ClosedBehind (quote : Char) (text body : List Char) : Prop :=
  HoldsNoQuote quote body ∧ body ++ [quote] <+: text

/-- Somewhere in the text a line feed is escaped. -/
def EscapesLineFeed (text : List Char) : Prop := ∃ left, ByPairs text ('\\' :: '\n' :: left)

theorem escapesLineFeed_cons_iff {c : Char} (hc : c ≠ '\\') {text : List Char} :
    EscapesLineFeed (c :: text) ↔ EscapesLineFeed text :=
  exists_congr fun _ ↦ Reaches.cons_iff hc

theorem escapesLineFeed_escape_iff {c : Char} {text : List Char} :
    EscapesLineFeed ('\\' :: c :: text) ↔ c = '\n' ∨ EscapesLineFeed text := by
  constructor
  · rintro ⟨left, h⟩
    obtain heq | h := byPairs_escape_iff.mp h
    · exact .inl (List.cons.inj heq).1.symm
    · exact .inr ⟨left, h⟩
  · rintro (rfl | ⟨left, h⟩)
    · exact ⟨text, .here _⟩
    · exact ⟨left, byPairs_escape_iff.mpr (.inr h)⟩

/-- A body of a string literal holds no quote and no escaped line feed. -/
theorem isBody_iff {quote : Char} {body : List Char} :
    IsBody quote body ↔ HoldsNoQuote quote body ∧ ¬EscapesLineFeed body := by
  constructor
  · intro h
    induction h with
    | nil => exact ⟨.nil, fun ⟨_, hreach⟩ ↦ Reaches.not_nil hreach⟩
    | plain hquote hbackslash _ ih =>
      exact ⟨.plain hquote hbackslash ih.1, mt (escapesLineFeed_cons_iff hbackslash).mp ih.2⟩
    | escape hfeed _ ih =>
      refine ⟨.escape ih.1, fun h ↦ ?_⟩
      exact (escapesLineFeed_escape_iff.mp h).elim hfeed ih.2
  · rintro ⟨h, hfeed⟩
    induction h with
    | nil => exact .nil
    | plain hquote hbackslash _ ih =>
      exact .plain hquote hbackslash (ih (mt (escapesLineFeed_cons_iff hbackslash).mpr hfeed))
    | escape _ ih =>
      rw [escapesLineFeed_escape_iff, not_or] at hfeed
      exact .escape hfeed.1 (ih hfeed.2)

theorem HoldsNoQuote.unique {quote : Char} {body body' rest rest' : List Char} (hne : quote ≠ '\\')
    (h : HoldsNoQuote quote body) (h' : HoldsNoQuote quote body')
    (heq : body ++ quote :: rest = body' ++ quote :: rest') : body = body' := by
  induction h generalizing body' with
  | nil =>
    cases h' with
    | nil => rfl
    | plain hquote => exact absurd (List.cons.inj heq).1.symm hquote
    | escape => exact absurd (List.cons.inj heq).1 hne
  | plain hquote hbackslash _ ih =>
    cases h' with
    | nil => exact absurd (List.cons.inj heq).1 hquote
    | plain _ _ h' =>
      obtain ⟨rfl, htail⟩ := List.cons.inj heq
      rw [ih h' htail]
    | escape => exact absurd (List.cons.inj heq).1 hbackslash
  | escape _ ih =>
    cases h' with
    | nil => exact absurd (List.cons.inj heq).1.symm hne
    | plain _ hbackslash => exact absurd (List.cons.inj heq).1.symm hbackslash
    | escape h' =>
      obtain ⟨rfl, htail⟩ := List.cons.inj (List.cons.inj heq).2
      rw [ih h' htail]

theorem closedBehind_subsingleton {quote : Char} (hne : quote ≠ '\\') (text : List Char) :
    {body | ClosedBehind quote text body}.Subsingleton := by
  rintro body ⟨h, rest, htext⟩ body' ⟨h', rest', htext'⟩
  have heq : body ++ quote :: rest = body' ++ quote :: rest' := by
    simpa using htext.trans htext'.symm
  exact h.unique hne h' heq

/-! ## One scan -/

section Scan

variable {source text : List Char} {scanner : Scanner} {start : Nat} {quote : Char}

theorem Skips.isIn {cursor : Cursor} (h : Skips source cursor start text) :
    cursor.IsIn source := by
  obtain ⟨-, -⟩ := h
  rename_i before layout
  exact ⟨before, rfl, rfl⟩

theorem Skips.skipLayout_eq {cursor : Cursor} (h : Skips source cursor start text) :
    cursor.skipLayout = ⟨start, text⟩ := by
  obtain ⟨hlayout, hends⟩ := h
  rename_i before layout
  rw [Cursor.skipLayout, runLength_append hlayout hends, Cursor.advance, List.take_left,
    List.drop_left]

/-- A quote with a body and a quote behind it is a string. -/
theorem scan_of_isBody {body : List Char} (hquote : isQuote quote = true)
    (hplace : Skips source scanner.cursor start (quote :: text)) (hbody : IsBody quote body)
    (hbegins : body ++ [quote] <+: text) :
    scanner.scan.1 = .ok (some (.string (String.ofList (unescape body)))) ∧
      scanner.next.span = ⟨start, start + utf8Length (quote :: (body ++ [quote]))⟩ := by
  obtain ⟨rest, rfl⟩ := hbegins
  have hskip := hplace.skipLayout_eq
  have hword : quote :: (body ++ [quote] ++ rest) = quote :: (body ++ [quote]) ++ rest := rfl
  have hlexeme : lexemeAt? scanner.cursor.skipLayout.rest =
      some (.string (String.ofList (unescape body)), (quote :: (body ++ [quote])).length) := by
    rw [hskip, hword]
    exact lexemeAt?_string hquote hbody rest
  have hscan := Cursor.scan_of_lexeme hlexeme
  rw [hskip, Cursor.advance, hword, List.take_left] at hscan
  rw [Scanner.next, Scanner.scan, hscan]
  exact ⟨rfl, rfl⟩

/-- A quote that no body with a quote stands behind is a fault. -/
theorem scan_of_not_isBody (hquote : isQuote quote = true)
    (hplace : Skips source scanner.cursor start (quote :: text))
    (hnone : ∀ body, IsBody quote body → ¬body ++ [quote] <+: text) :
    scanner.scan.1 = .error (.unterminatedString ⟨start, utf8Length source⟩) := by
  have hskip := hplace.skipLayout_eq
  have hopen : (stringReach quote text).closed = false := by
    by_contra hclosed
    obtain ⟨body, rest, rfl, hbody⟩ := exists_body_of_closed (Bool.eq_true_of_not_eq_false hclosed)
    exact hnone body hbody ⟨rest, by simp⟩
  have hlexeme : lexemeAt? scanner.cursor.skipLayout.rest = none := by
    have hstart := not_isIdentifierStart_of_isQuote hquote
    rw [hskip, lexemeAt?, if_neg (by simp [hstart]), if_pos hquote]
    simp only [hopen]
    rfl
  obtain ⟨error, n, hscan, herror⟩ := Cursor.exists_scan_of_fault (by rw [hskip]) hlexeme
  have hfinish : scanner.cursor.skipLayout.finish = utf8Length source :=
    (hplace.isIn.advance _).finish_eq
  have hoffset : scanner.cursor.skipLayout.offset = start := by rw [hskip]
  rw [hoffset, hfinish] at herror
  rw [Scanner.scan, hscan]
  cases herror with
  | unterminated => rfl
  | unrecognized hother => exact absurd (hquote.symm.trans hother) (by decide)

end Scan

/-- **Nothing but an escaped line feed breaks off a string that is closed.** Where a scan meets a
quote, it answers with an unterminated string exactly if there is no quote behind it that is not
escaped, or a line feed is escaped in front of the first such quote. Otherwise it answers with the
string up to that quote, and the span ends right behind it. There is one first quote at most. -/
theorem scan_at_quote {source text : List Char} {scanner : Scanner} {start : Nat} {quote : Char}
    (hquote : isQuote quote = true)
    (hplace : Skips source scanner.cursor start (quote :: text)) :
    (scanner.scan.1 = .error (.unterminatedString ⟨start, utf8Length source⟩) ↔
      ∀ body, ClosedBehind quote text body → EscapesLineFeed body) ∧
    (∀ body, ClosedBehind quote text body → ¬EscapesLineFeed body →
      scanner.scan.1 = .ok (some (.string (String.ofList (unescape body)))) ∧
        scanner.next.span = ⟨start, start + utf8Length (quote :: (body ++ [quote]))⟩) ∧
    {body | ClosedBehind quote text body}.Subsingleton := by
  have hstring : ∀ body, ClosedBehind quote text body → ¬EscapesLineFeed body →
      scanner.scan.1 = .ok (some (.string (String.ofList (unescape body)))) ∧
        scanner.next.span = ⟨start, start + utf8Length (quote :: (body ++ [quote]))⟩ := by
    intro body hclosed hfeed
    exact scan_of_isBody hquote hplace (isBody_iff.mpr ⟨hclosed.1, hfeed⟩) hclosed.2
  refine ⟨⟨?_, ?_⟩, hstring, closedBehind_subsingleton (ne_backslash_of_isQuote hquote) text⟩
  · intro hscan body hclosed
    by_contra hfeed
    rw [(hstring body hclosed hfeed).1] at hscan
    cases hscan
  · intro h
    refine scan_of_not_isBody hquote hplace fun body hbody hbegins ↦ ?_
    obtain ⟨hholds, hfeed⟩ := isBody_iff.mp hbody
    exact hfeed (h body ⟨hholds, hbegins⟩)

/-- A string with an escaped quote and a line feed, behind another token and layout. -/
theorem scan_at_quote_over_lines :
    isQuote '\'' = true ∧
      Skips "? 'it\\'s\nso'".toList (Scanner.after "? 'it\\'s\nso'" 1).cursor 2
        "'it\\'s\nso'".toList ∧
      (Scanner.after "? 'it\\'s\nso'" 1).scan.1 = .ok (some (.string "it's\nso")) ∧
      (Scanner.after "? 'it\\'s\nso'" 1).next.span = ⟨2, 12⟩ := by
  have hplace : Skips "? 'it\\'s\nso'".toList (Scanner.after "? 'it\\'s\nso'" 1).cursor 2
      "'it\\'s\nso'".toList := by
    have hskips := @Skips.mk ['?'] [' '] "'it\\'s\nso'".toList (List.all_eq_true.mp rfl)
      (endsRun_cons.mpr rfl)
    exact hskips
  have hbody : IsBody '\'' "it\\'s\nso".toList := by
    have hend : IsBody '\'' "s\nso".toList := isBody_of_forall (by simp)
    exact .plain (by decide) (by decide) (.plain (by decide) (by decide) (.escape (by decide) hend))
  obtain ⟨hholds, hfeed⟩ := isBody_iff.mp hbody
  obtain ⟨hscan, hspan⟩ := (scan_at_quote rfl hplace).2.1 _ ⟨hholds, by decide⟩ hfeed
  refine ⟨rfl, hplace, ?_, hspan⟩
  rw [hscan]
  decide +kernel

/-- The quote behind an escaped line feed would close the string. -/
theorem scan_at_quote_ne :
    Skips "\"\\\n\"".toList (Scanner.ofSource "\"\\\n\"").cursor 0 ['"', '\\', '\n', '"'] ∧
      ClosedBehind '"' ['\\', '\n', '"'] ['\\', '\n'] ∧
      (Scanner.ofSource "\"\\\n\"").scan.1 = .error (.unterminatedString ⟨0, 4⟩) := by
  refine ⟨?_, ⟨.escape .nil, by decide⟩, by decide⟩
  exact @Skips.mk [] [] ['"', '\\', '\n', '"'] (List.all_eq_true.mp rfl) (endsRun_cons.mpr rfl)

end TypeNotation
