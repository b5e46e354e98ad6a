import TypeNotation.Proofs.Lexical.Numbers

/-!
# The patterns of tokens

Which texts are tokens, said of a whole text and without regard to what the lexer does: the
spellings of the symbols, words, numbers, and strings in either kind of quotes. A text can match two
patterns, since a keyword is a word too; then it is the keyword.

The lexer decides by the first character which pattern to try and computes a length. What it finds
is the longest text in front that matches any pattern, and it finds nothing only where no pattern
matches. Both halves rest on one fact: in front of a text that some pattern matches, the lexer finds
at least as much.
-/

namespace TypeNotation

/-! ## The patterns -/

def Symbol.spellings : Symbol → List String
  | any => ["any", "*"]
  | union => ["union"]
  | question => ["?"]
  | dot => ["."]
  | ellipsis => ["..."]
  | comma => [","]
  | colon => [":"]
  | leftParen => ["("]
  | rightParen => [")"]
  | leftBracket => ["["]
  | rightBracket => ["]"]
  | leftBrace => ["\x7b"]
  | rightBrace => ["\x7d"]
  | less => ["<"]
  | greater => [">"]
  | arrow => ["→", "->"]

/-- What may stand between two quotes: anything but the quote and the backslash, and a backslash
with anything but a line feed. -/
inductive IsBody (quote : Char) : List Char → Prop
  | nil : IsBody quote []
  | plain {c : Char} {body : List Char} (hquote : c ≠ quote) (hbackslash : c ≠ '\\')
      (hbody : IsBody quote body) : IsBody quote (c :: body)
  | escape {c : Char} {body : List Char} (hfeed : c ≠ '\n') (hbody : IsBody quote body) :
      IsBody quote ('\\' :: c :: body)

/-- The text as a whole matches a pattern, which makes this token of it. -/
inductive Matches : List Char → Token → Prop
  | symbol {symbol : Symbol} {spelling : String} (hspelling : spelling ∈ symbol.spellings) :
      Matches spelling.toList (.symbol symbol)
  | identifier {word : List Char} (hword : IsWord word) :
      Matches word (.identifier (String.ofList word))
  | number {text : List Char} (hnumber : IsNumber text) :
      Matches text (.number (String.ofList text))
  | string {quote : Char} {body : List Char} (hquote : isQuote quote = true)
      (hbody : IsBody quote body) :
      Matches (quote :: (body ++ [quote])) (.string (String.ofList (unescape body)))

/-- The text is this token: a symbol if it spells one, and otherwise what a pattern makes of it. -/
structure IsLexeme (word : List Char) (token : Token) : Prop where
  matched : Matches word token
  spelled : ∀ {symbol}, Matches word (.symbol symbol) → token = .symbol symbol

/-- The token is the longest text in front that matches any pattern. -/
structure LongestMatch (text word : List Char) (token : Token) : Prop where
  front : word <+: text
  lexeme : IsLexeme word token
  longest : ∀ {other token'}, other <+: text → Matches other token' → other.length ≤ word.length

/-- No text in front matches a pattern. -/
def NoMatch (text : List Char) : Prop := ∀ word token, word <+: text → ¬Matches word token

/-! ## Strings -/

section Strings

variable {quote : Char}

theorem stringReach_body {body : List Char} (hne : quote ≠ '\\') (h : IsBody quote body)
    (rest : List Char) : stringReach quote (body ++ quote :: rest) = ⟨true, body.length + 1⟩ := by
  induction h with
  | nil =>
    rw [List.nil_append, stringReach.eq_4 _ _ _ (fun heq ↦ absurd heq hne)
      fun _ _ heq ↦ absurd heq hne, if_pos rfl]
    rfl
  | plain hquote hbackslash _ ih =>
    rw [List.cons_append, stringReach.eq_4 _ _ _ (fun heq ↦ absurd heq hbackslash)
      fun _ _ heq ↦ absurd heq hbackslash, if_neg hquote, ih]
    rfl
  | escape hfeed _ ih =>
    rw [List.cons_append, List.cons_append, stringReach, if_neg hfeed, ih]
    rfl

/-- What a closed string reaches to is a body and its quote. -/
theorem exists_body_of_closed {text : List Char} (h : (stringReach quote text).closed = true) :
    ∃ body rest, text = body ++ quote :: rest ∧ IsBody quote body := by
  induction text using stringReach.induct quote with
  | case1 => cases h
  | case2 => cases h
  | case3 => simp [stringReach] at h
  | case4 c rest hfeed ih =>
    rw [stringReach, if_neg hfeed] at h
    obtain ⟨body, rest', rfl, hbody⟩ := ih h
    exact ⟨'\\' :: c :: body, rest', rfl, .escape hfeed hbody⟩
  | case5 rest hlone hpair => exact ⟨[], rest, rfl, .nil⟩
  | case6 c rest hlone hpair hne ih =>
    rw [stringReach.eq_4 _ _ _ hlone hpair, if_neg hne] at h
    obtain ⟨body, rest', rfl, hbody⟩ := ih h
    have hbackslash : c ≠ '\\' := by
      rintro rfl
      cases hrest : body ++ quote :: rest' with
      | nil => simp at hrest
      | cons second others => exact hpair _ _ rfl hrest
    exact ⟨c :: body, rest', rfl, .plain hne hbackslash hbody⟩

end Strings

/-! ## Symbols -/

theorem matches_symbol_iff {word : List Char} {symbol : Symbol} :
    Matches word (.symbol symbol) ↔ ∃ spelling ∈ symbol.spellings, word = spelling.toList := by
  constructor
  · intro h
    cases h with
    | symbol hspelling => exact ⟨_, hspelling, rfl⟩
  · rintro ⟨spelling, hspelling, rfl⟩
    exact .symbol hspelling

/-- Punctuation other than a single dot is read, whatever follows. -/
theorem lexemeAt?_punctuation {symbol : Symbol} {spelling : String}
    (h : spelling ∈ symbol.spellings) (hword : ¬IsWord spelling.toList) (hdot : symbol ≠ .dot)
    (rest : List Char) :
    lexemeAt? (spelling.toList ++ rest) = some (.symbol symbol, spelling.toList.length) := by
  cases symbol with
  | dot => exact absurd rfl hdot
  | any =>
    rcases List.mem_cons.mp h with rfl | h
    · exact absurd (by decide) hword
    · obtain rfl := List.mem_singleton.mp h
      rfl
  | union =>
    obtain rfl := List.mem_singleton.mp h
    exact absurd (by decide) hword
  | arrow =>
    rcases List.mem_cons.mp h with rfl | h
    · rfl
    · obtain rfl := List.mem_singleton.mp h
      rfl
  | _ =>
    obtain rfl := List.mem_singleton.mp h
    rfl

theorem lexemeAt?_dot_cons (rest : List Char) :
    lexemeAt? ('.' :: rest) =
      (punctuationAt? ('.' :: rest)).map fun (symbol, n) ↦ (.symbol symbol, n) := by
  rw [lexemeAt?, if_neg (by decide), if_neg (by decide)]
  rfl

theorem lexemeAt?_dot {rest : List Char} (hrest : EndsRun (· = '.') rest) :
    lexemeAt? ('.' :: rest) = some (.symbol .dot, 1) := by
  have hpunctuation : punctuationAt? ('.' :: rest) = some (.dot, 1) := by
    cases rest with
    | nil => rfl
    | cons c rest =>
      have hne : c ≠ '.' := by simpa using endsRun_cons.mp hrest
      unfold punctuationAt?
      split <;> simp_all
  rw [lexemeAt?_dot_cons, hpunctuation]
  rfl

/-- A dot may begin an ellipsis, but some punctuation it does begin. -/
theorem exists_lexemeAt?_dot (rest : List Char) :
    ∃ token n, lexemeAt? ('.' :: rest) = some (token, n) ∧ 1 ≤ n := by
  obtain ⟨symbol, n, hn⟩ : ∃ symbol n, punctuationAt? ('.' :: rest) = some (symbol, n) := by
    unfold punctuationAt?
    split <;> simp_all
  exact ⟨.symbol symbol, n, by rw [lexemeAt?_dot_cons, hn]; rfl, punctuationAt?_pos hn⟩

/-- A spelling is a word, or the lexer finds punctuation in front of it at least as long. -/
theorem exists_lexemeAt?_spelling {symbol : Symbol} {spelling : String}
    (h : spelling ∈ symbol.spellings) (hword : ¬IsWord spelling.toList) (rest : List Char) :
    ∃ token n, lexemeAt? (spelling.toList ++ rest) = some (token, n) ∧
      spelling.toList.length ≤ n := by
  by_cases hdot : symbol = .dot
  · subst hdot
    obtain rfl := List.mem_singleton.mp h
    exact exists_lexemeAt?_dot rest
  · exact ⟨_, _, lexemeAt?_punctuation h hword hdot rest, Nat.le_refl _⟩

theorem wordToken_spelling {symbol : Symbol} {spelling : String}
    (h : spelling ∈ symbol.spellings) (hword : IsWord spelling.toList) :
    wordToken spelling.toList = .symbol symbol := by
  have key : ∀ spelling ∈ symbol.spellings, IsWord spelling.toList →
      wordToken spelling.toList = .symbol symbol := by
    cases symbol <;> decide
  exact key spelling h hword

/-- A spelling is read as its symbol where no lexeme goes on. -/
theorem lexemeAt?_spelling {symbol : Symbol} {spelling : String} (h : spelling ∈ symbol.spellings)
    {rest : List Char} (hrest : EndsRun extendsLexeme rest) :
    lexemeAt? (spelling.toList ++ rest) = some (.symbol symbol, spelling.toList.length) := by
  by_cases hword : IsWord spelling.toList
  · rw [lexemeAt?_word hword (isIdentifierPart_of_extends hrest), wordToken_spelling h hword]
  · by_cases hdot : symbol = .dot
    · subst hdot
      obtain rfl := List.mem_singleton.mp h
      exact lexemeAt?_dot (hrest.mono fun c hc ↦ by simp [extendsLexeme, of_decide_eq_true hc])
    · exact lexemeAt?_punctuation h hword hdot rest

theorem mem_spellings_of_punctuationAt? {text : List Char} {symbol : Symbol} {n : Nat}
    (h : punctuationAt? text = some (symbol, n)) :
    String.ofList (text.take n) ∈ symbol.spellings ∧ n ≤ text.length := by
  unfold punctuationAt? at h
  split at h <;> cases h <;> refine ⟨?_, ?_⟩
  all_goals simp [Symbol.spellings]

/-! ## Lexemes -/

theorem not_isIdentifierStart_of_isQuote {c : Char} (h : isQuote c = true) :
    isIdentifierStart c = false := by
  simp only [isQuote, Bool.or_eq_true, decide_eq_true_eq] at h
  rcases h with rfl | rfl <;> rfl

theorem ne_backslash_of_isQuote {c : Char} (h : isQuote c = true) : c ≠ '\\' := by
  rintro rfl
  cases h

theorem lexemeAt?_string {quote : Char} {body : List Char} (hquote : isQuote quote = true)
    (hbody : IsBody quote body) (rest : List Char) :
    lexemeAt? (quote :: (body ++ [quote]) ++ rest) =
      some (.string (String.ofList (unescape body)), (quote :: (body ++ [quote])).length) := by
  have hstart := not_isIdentifierStart_of_isQuote hquote
  have hreach := stringReach_body (ne_backslash_of_isQuote hquote) hbody rest
  rw [List.cons_append, List.append_assoc, List.singleton_append, lexemeAt?,
    if_neg (by simp [hstart]), if_pos hquote]
  dsimp only
  rw [hreach, if_pos rfl, Nat.add_sub_cancel, List.take_left]
  simp only [List.length_cons, List.length_append, List.length_nil, Option.some.injEq,
    Prod.mk.injEq, true_and]
  omega

theorem exists_lexemeAt?_word {word : List Char} (h : IsWord word) (rest : List Char) :
    ∃ token n, lexemeAt? (word ++ rest) = some (token, n) ∧ word.length ≤ n := by
  obtain ⟨hstart, hparts⟩ := h
  rename_i first others
  have hrun := runLength_append_of_forall hparts rest
  rw [List.cons_append, lexemeAt?, if_pos hstart]
  refine ⟨_, _, rfl, ?_⟩
  rw [hrun, List.length_cons]
  omega

theorem exists_lexemeAt?_number {text : List Char} (h : IsNumber text) (rest : List Char) :
    ∃ token n, lexemeAt? (text ++ rest) = some (token, n) ∧ text.length ≤ n := by
  have hle := h.length_le rest
  obtain ⟨first, others, rfl, hfirst⟩ := h.exists_cons
  obtain ⟨n, hn⟩ : ∃ n, numberLength (first :: others ++ rest) = n + 1 :=
    Nat.exists_eq_add_one.mpr (Nat.lt_of_lt_of_le (Nat.zero_lt_succ _) hle)
  exact ⟨_, _, lexemeAt?_of_numberLength hfirst hn, hn ▸ hle⟩

/-- In front of a text that some pattern matches, the lexer finds at least as much. -/
theorem Matches.exists_lexemeAt? {word : List Char} {token : Token} (h : Matches word token)
    (rest : List Char) :
    ∃ token' n, lexemeAt? (word ++ rest) = some (token', n) ∧ word.length ≤ n := by
  cases h with
  | symbol hspelling =>
    rename_i symbol spelling
    by_cases hword : IsWord spelling.toList
    · exact exists_lexemeAt?_word hword rest
    · exact exists_lexemeAt?_spelling hspelling hword rest
  | identifier hword => exact exists_lexemeAt?_word hword rest
  | number hnumber => exact exists_lexemeAt?_number hnumber rest
  | string hquote hbody => exact ⟨_, _, lexemeAt?_string hquote hbody rest, Nat.le_refl _⟩

theorem Matches.isLexeme {word : List Char} {token : Token} {n : Nat} (h : Matches word token)
    (hread : lexemeAt? (word ++ []) = some (token, n)) : IsLexeme word token where
  matched := h
  spelled hsymbol := by
    obtain ⟨spelling, hspelling, rfl⟩ := matches_symbol_iff.mp hsymbol
    rw [lexemeAt?_spelling hspelling endsRun_nil] at hread
    cases hread
    rfl

theorem wordToken_cases (word : List Char) :
    (∃ symbol, wordToken word = .symbol symbol) ∨
      wordToken word = .identifier (String.ofList word) := by
  unfold wordToken
  split
  · exact .inl ⟨_, rfl⟩
  · split
    · exact .inl ⟨_, rfl⟩
    · exact .inr rfl

theorem matches_wordToken {word : List Char} (h : IsWord word) : Matches word (wordToken word) := by
  unfold wordToken
  split
  · next hany => exact matches_symbol_iff.mpr ⟨"any", List.mem_cons_self, hany⟩
  · split
    · next hunion =>
      exact matches_symbol_iff.mpr ⟨"union", List.mem_cons_self, hunion⟩
    · exact .identifier h

theorem isLexeme_wordToken {word : List Char} (h : IsWord word) : IsLexeme word (wordToken word) :=
  (matches_wordToken h).isLexeme (lexemeAt?_word h endsRun_nil)

theorem isLexeme_number {text : List Char} (h : IsNumber text) :
    IsLexeme text (.number (String.ofList text)) :=
  (Matches.number h).isLexeme (lexemeAt?_number h endsRun_nil)

theorem isLexeme_string {quote : Char} {body : List Char} (hquote : isQuote quote = true)
    (hbody : IsBody quote body) :
    IsLexeme (quote :: (body ++ [quote])) (.string (String.ofList (unescape body))) :=
  (Matches.string hquote hbody).isLexeme (lexemeAt?_string hquote hbody [])

theorem isLexeme_take_of_punctuationAt? {text : List Char} {symbol : Symbol} {n : Nat}
    (h : punctuationAt? text = some (symbol, n)) :
    n ≤ text.length ∧ IsLexeme (text.take n) (.symbol symbol) := by
  obtain ⟨hspelling, hle⟩ := mem_spellings_of_punctuationAt? h
  have hlexeme := (Matches.symbol hspelling).isLexeme (lexemeAt?_spelling hspelling endsRun_nil)
  rw [String.toList_ofList] at hlexeme
  exact ⟨hle, hlexeme⟩

theorem isLexeme_of_lexemeAt? {text : List Char} {token : Token} {n : Nat}
    (h : lexemeAt? text = some (token, n)) : n ≤ text.length ∧ IsLexeme (text.take n) token := by
  have hfound := h
  unfold lexemeAt? at h
  split at h
  · cases h
  · next c rest =>
    split at h
    · next hstart =>
      cases h
      have hle := runLength_le_length isIdentifierPart rest
      exact ⟨by rw [List.length_cons]; omega, isLexeme_wordToken (isWord_take hstart)⟩
    · split at h
      · next hquote =>
        dsimp only at h
        split at h
        · next hclosed =>
          -- the length is that of a body and its quotes
          obtain ⟨body, rest', rfl, hbody⟩ := exists_body_of_closed hclosed
          have hsplit : c :: (body ++ c :: rest') = c :: (body ++ [c]) ++ rest' := by simp
          rw [hsplit, lexemeAt?_string hquote hbody] at hfound
          cases hfound
          rw [hsplit, List.take_left, List.length_append]
          exact ⟨Nat.le_add_right _ _, isLexeme_string hquote hbody⟩
        · cases h
      · split at h
        · obtain ⟨⟨symbol, n⟩, hpunctuation, heq⟩ := Option.map_eq_some_iff.mp h
          cases heq
          exact isLexeme_take_of_punctuationAt? hpunctuation
        · next n hn =>
          cases h
          have hle := numberLength_le_length (c :: rest)
          exact ⟨by omega, isLexeme_number (isNumber_take hn)⟩

/-- A lexeme is read as its token where it cannot go on. -/
theorem IsLexeme.lexemeAt?_append {word : List Char} {token : Token} (h : IsLexeme word token)
    {rest : List Char} (hrest : EndsRun extendsLexeme rest) :
    lexemeAt? (word ++ rest) = some (token, word.length) := by
  cases h.matched with
  | symbol hspelling => exact lexemeAt?_spelling hspelling hrest
  | identifier hword =>
    have hread := lexemeAt?_word hword (isIdentifierPart_of_extends hrest)
    rcases wordToken_cases word with ⟨symbol, hsymbol⟩ | hidentifier
    · -- a keyword is no identifier
      have hmatch := matches_wordToken hword
      rw [hsymbol] at hmatch
      cases h.spelled hmatch
    · rwa [hidentifier] at hread
  | number hnumber => exact lexemeAt?_number hnumber (isNumberPart_of_extends hrest)
  | string hquote hbody => exact lexemeAt?_string hquote hbody rest

theorem IsLexeme.lexemeAt?_eq {word : List Char} {token : Token} (h : IsLexeme word token) :
    lexemeAt? word = some (token, word.length) := by
  have hread := h.lexemeAt?_append endsRun_nil
  rwa [List.append_nil] at hread

theorem IsLexeme.unique {word : List Char} {token token' : Token} (h : IsLexeme word token)
    (h' : IsLexeme word token') : token = token' := by
  have heq := h.lexemeAt?_eq.symm.trans h'.lexemeAt?_eq
  cases heq
  rfl

/-! ## Longest matches -/

theorem longestMatch_take {text : List Char} {token : Token} {n : Nat}
    (h : lexemeAt? text = some (token, n)) :
    (text.take n).length = n ∧ LongestMatch text (text.take n) token := by
  obtain ⟨hle, hlexeme⟩ := isLexeme_of_lexemeAt? h
  have hlength : (text.take n).length = n := List.length_take_of_le hle
  refine ⟨hlength, List.take_prefix n text, hlexeme, ?_⟩
  rintro other token' ⟨rest, rfl⟩ hmatch
  obtain ⟨_, n', hfound, hother⟩ := hmatch.exists_lexemeAt? rest
  rw [h] at hfound
  cases hfound
  rwa [hlength]

theorem LongestMatch.unique {text word word' : List Char} {token token' : Token}
    (h : LongestMatch text word token) (h' : LongestMatch text word' token') :
    word = word' ∧ token = token' := by
  have hlength : word.length = word'.length :=
    Nat.le_antisymm (h'.longest h.front h.lexeme.matched) (h.longest h'.front h'.lexeme.matched)
  obtain rfl : word = word' := by
    rw [List.prefix_iff_eq_take.mp h.front, List.prefix_iff_eq_take.mp h'.front, hlength]
  exact ⟨rfl, h.lexeme.unique h'.lexeme⟩

/-- The lexer finds the longest text in front that matches any pattern. -/
theorem lexemeAt?_eq_some_iff {text : List Char} {token : Token} {n : Nat} :
    lexemeAt? text = some (token, n) ↔ ∃ word, word.length = n ∧ LongestMatch text word token := by
  constructor
  · intro h
    obtain ⟨hlength, hlongest⟩ := longestMatch_take h
    exact ⟨_, hlength, hlongest⟩
  · rintro ⟨word, rfl, hlongest⟩
    obtain ⟨rest, hrest⟩ := hlongest.front
    obtain ⟨token', n, hfound, -⟩ := hlongest.lexeme.matched.exists_lexemeAt? rest
    rw [hrest] at hfound
    obtain ⟨hlength, hlongest'⟩ := longestMatch_take hfound
    obtain ⟨hword, rfl⟩ := hlongest.unique hlongest'
    rw [hfound, hword, hlength]

-- an exponent with no digits in it is not part of the number
example : lexemeAt? "1e+".toList = some (.number "1", 1) := by decide

/-- The lexer finds nothing exactly where no pattern matches. -/
theorem lexemeAt?_eq_none_iff {text : List Char} : lexemeAt? text = none ↔ NoMatch text := by
  constructor
  · rintro h word token ⟨rest, rfl⟩ hmatch
    obtain ⟨token', n, hfound, -⟩ := hmatch.exists_lexemeAt? rest
    rw [h] at hfound
    cases hfound
  · intro h
    cases hfound : lexemeAt? text with
    | none => rfl
    | some found =>
      obtain ⟨token, n⟩ := found
      obtain ⟨-, hlongest⟩ := longestMatch_take hfound
      exact absurd hlongest.lexeme.matched (h _ _ hlongest.front)

end TypeNotation
