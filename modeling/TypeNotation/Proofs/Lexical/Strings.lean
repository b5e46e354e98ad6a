import TypeNotation.Proofs.Lexical.Patterns
import TypeNotation.TypeExpr.Canonical

/-!
# Strings in canonical form

The canonical form of a string is a string literal whatever text follows it, and its value is the
string. Each character is treated alike: it is written as itself or as a backslash and a mark, and
either way the lexer passes over what was written as a whole and decodes it to the character.
-/

namespace TypeNotation

/-! ## One character -/

theorem canonicalChar_cases (c : Char) :
    canonicalChar c = [c] ∧ c ≠ '"' ∧ c ≠ '\\' ∨
      ∃ mark, canonicalChar c = ['\\', mark] ∧ mark ≠ '\n' ∧
        ∀ rest, escapeAt (mark :: rest) = ([c], 1) := by
  by_cases hquote : c = '"'
  · subst hquote
    exact .inr ⟨'"', rfl, by decide, fun _ ↦ rfl⟩
  by_cases hbackslash : c = '\\'
  · subst hbackslash
    exact .inr ⟨'\\', rfl, by decide, fun _ ↦ rfl⟩
  by_cases hfeed : c = '\n'
  · subst hfeed
    exact .inr ⟨'n', rfl, by decide, fun _ ↦ rfl⟩
  by_cases hreturn : c = '\r'
  · subst hreturn
    exact .inr ⟨'r', rfl, by decide, fun _ ↦ rfl⟩
  by_cases htab : c = '\t'
  · subst htab
    exact .inr ⟨'t', rfl, by decide, fun _ ↦ rfl⟩
  by_cases hzero : c = '\x00'
  · subst hzero
    exact .inr ⟨'0', rfl, by decide, fun _ ↦ rfl⟩
  · refine .inl ⟨?_, hquote, hbackslash⟩
    rw [canonicalChar, if_neg hquote, if_neg hbackslash, if_neg hfeed, if_neg hreturn,
      if_neg htab, if_neg hzero]

theorem unescape_canonicalChar (c : Char) (rest : List Char) :
    unescape (canonicalChar c ++ rest) = c :: unescape rest := by
  rcases canonicalChar_cases c with ⟨hchar, -, hbackslash⟩ | ⟨mark, hchar, -, hescape⟩
  · rw [hchar, List.singleton_append, unescape, if_neg hbackslash]
  · rw [hchar, List.cons_append, List.singleton_append, unescape, if_pos rfl, hescape]
    rfl

/-! ## Whole strings -/

theorem isBody_canonical (value : List Char) : IsBody '"' (value.flatMap canonicalChar) := by
  induction value with
  | nil => exact .nil
  | cons c value ih =>
    rw [List.flatMap_cons]
    rcases canonicalChar_cases c with ⟨hchar, hquote, hbackslash⟩ | ⟨mark, hchar, hfeed, -⟩
    · rw [hchar]
      exact .plain hquote hbackslash ih
    · rw [hchar]
      exact .escape hfeed ih

theorem unescape_canonical (value : List Char) :
    unescape (value.flatMap canonicalChar) = value := by
  induction value with
  | nil => rw [List.flatMap_nil, unescape]
  | cons c value ih => rw [List.flatMap_cons, unescape_canonicalChar, ih]

theorem lexemeAt?_canonicalString (value : String) (rest : List Char) :
    lexemeAt? (canonicalString value.toList ++ rest) =
      some (.string value, (canonicalString value.toList).length) := by
  have hread := lexemeAt?_string rfl (isBody_canonical value.toList) rest
  rw [unescape_canonical, String.ofList_toList] at hread
  exact hread

end TypeNotation
