import TypeNotation.Proofs.TypeScript.Imports
import TypeNotation.Proofs.TypeScript.Legibility

/-!
# Import lines

A line `import type { A, B } from "origin";` imports the names between the braces from the origin
that its string stands for. The names are read back from the lines of a rendering whatever the
origins are, since no path goes on over a comma or a space. The origins are not escaped, so they are
read back exactly if they hold no character that would have to be; where one does, the line reads as
another origin or not at all.
-/

namespace TypeNotation

/-! ## Reading lines -/

/-- The text is the name. -/
inductive ReadsName : List Char → String → Prop
  | mk {name : String} (hname : IsPath name) : ReadsName name.toList name

/-- The line of an import, given the texts of its names and of its origin. -/
def importLine (nameText originText : List Char) : List Char :=
  "import type \x7b ".toList ++ (nameText ++ (" \x7d from ".toList ++ (originText ++ [';'])))

/-- The line imports the names from the origin. -/
inductive ReadsImport : List Char → String × List String → Prop
  | mk {nameText originText : List Char} {origin : String} {names : List String}
      (hnames : SeparatedBy ", ".toList ReadsName nameText names)
      (horigin : IsJsonString originText origin.toList) :
      ReadsImport (importLine nameText originText) (origin, names)

theorem importLine_inj {nameText originText originText' : List Char} :
    importLine nameText originText = importLine nameText originText' ↔
      originText = originText' := by
  unfold importLine
  simp only [List.append_cancel_left_eq, List.append_cancel_right_eq]

theorem unambiguous_name (bound : Nat) :
    Unambiguous bound (EndsRun extendsLexeme) ReadsName := by
  rintro a b u v x y - ⟨hname⟩ ⟨hname'⟩ heq hu hv
  obtain ⟨hnames, -⟩ := eq_of_append_eq_append hname.extendsLexeme hname'.extendsLexeme hu hv heq
  exact ⟨hnames, String.toList_injective hnames⟩

theorem unambiguous_names (bound : Nat) :
    Unambiguous bound (∃ rest, · = ' ' :: '}' :: rest) (SeparatedBy ", ".toList ReadsName) := by
  refine (unambiguous_name bound).separatedBy (fun others ↦ endsRun_cons.mpr rfl) ?_ ?_
  · rintro _ ⟨rest, rfl⟩
    exact endsRun_cons.mpr rfl
  · rintro others ⟨rest, heq⟩
    cases (List.cons.inj heq).1

section Reading

variable {nameText originText line : List Char} {origin : String} {names names' : List String}

/-- A line with readable names imports these names, and from what the text of the origin says. -/
theorem readsImport_importLine_iff (hnames : SeparatedBy ", ".toList ReadsName nameText names) :
    ReadsImport (importLine nameText originText) (origin, names') ↔
      names' = names ∧ IsJsonString originText origin.toList := by
  constructor
  · generalize hline : importLine nameText originText = line
    rintro ⟨hnames', horigin⟩
    have hrest := List.append_cancel_left hline
    obtain ⟨rfl, rfl⟩ := unambiguous_names _ (Nat.lt_succ_self _) hnames hnames' hrest ⟨_, rfl⟩
      ⟨_, rfl⟩
    have htexts := List.append_cancel_left (List.append_cancel_left hrest)
    obtain rfl := List.append_cancel_right htexts
    exact ⟨rfl, horigin⟩
  · rintro ⟨rfl, horigin⟩
    exact .mk hnames horigin

theorem ReadsImport.unique {read read' : String × List String} (h : ReadsImport line read)
    (h' : ReadsImport line read') : read = read' := by
  obtain ⟨hnames, horigin⟩ := h
  obtain ⟨origin', names'⟩ := read'
  obtain ⟨rfl, horigin'⟩ := (readsImport_importLine_iff hnames).mp h'
  obtain ⟨-, heq⟩ := horigin.unique (u := []) (v := []) horigin' rfl
  rw [String.toList_injective heq]

theorem separatedBy_names (hne : names ≠ []) (hpaths : ∀ name ∈ names, IsPath name) :
    SeparatedBy ", ".toList ReadsName (", ".intercalate names).toList names := by
  rw [String.toList_intercalate]
  refine separatedBy_of_forall₂ ?_ (by simpa using hne)
  rw [List.forall₂_map_left_iff]
  exact List.forall₂_same.mpr fun name hname ↦ .mk (hpaths name hname)

end Reading

/-! ## Written lines -/

theorem toList_line (names : List String) (origin : String) :
    ("import type \x7b " ++ ", ".intercalate names ++ " \x7d from \"" ++ origin ++ "\";").toList =
      importLine (", ".intercalate names).toList (betweenQuotes origin.toList) := by
  unfold importLine betweenQuotes
  simp only [String.toList_append, List.append_assoc, List.cons_append]
  rfl

/-- The line that imports names from an origin, with its quotes and whatever else needs it
escaped. -/
def escapedLine (entry : String × List String) : List Char :=
  importLine (", ".intercalate entry.2).toList (jsonString entry.1.toList)

/-- There are names under every origin, and all of them are used. -/
theorem names_of_mem_importsOf {uses : List ImportUse} {entry : String × List String}
    (h : entry ∈ importsOf uses) :
    entry.2 ≠ [] ∧ ∀ name ∈ entry.2, ∃ use ∈ uses, use.name = name := by
  obtain ⟨origin, horigin, rfl⟩ := List.mem_map.mp h
  constructor
  · obtain ⟨use, huse, rfl⟩ := List.mem_map.mp (List.mem_eraseDups.mp horigin)
    exact List.ne_nil_of_mem (mem_namesFrom.mpr (List.mem_map_of_mem huse))
  · intro name hname
    obtain ⟨use, huse, heq⟩ := List.mem_map.mp (mem_namesFrom.mp hname)
    exact ⟨use, huse, congrArg Prod.snd heq⟩

/-- If all names with origins are written as paths, the names of the imports of a type can be
read. -/
theorem separatedBy_of_mem_imports {map : NameMap} {t : TypeExpr} {entry : String × List String}
    (hmap : ∀ raw name origin, map.resolve raw = some ⟨name, some origin⟩ → IsPath name)
    (h : entry ∈ (map.render t).imports) :
    SeparatedBy ", ".toList ReadsName (", ".intercalate entry.2).toList entry.2 := by
  obtain ⟨himports, -, -⟩ := map.collectedFrom_renderFragments t.fragments
  have hentry : entry ∈ (map.renderFragments t.fragments).imports := h
  rw [himports] at hentry
  obtain ⟨hne, hnames⟩ := names_of_mem_importsOf hentry
  refine separatedBy_names hne fun name hname ↦ ?_
  obtain ⟨use, huse, rfl⟩ := hnames name hname
  obtain ⟨raw, -, hresolve⟩ := List.mem_filterMap.mp huse
  exact hmap raw use.name use.origin (NameMap.use?_eq_some_iff.mp hresolve).1

/-- A map that imports one name gives no other name with an origin. -/
theorem isPath_of_resolve_importing {raw key name origin origin' : String}
    (h : (NameMap.empty.importing raw none origin).resolve key = some ⟨name, some origin'⟩)
    (hraw : IsPath raw) : IsPath name := by
  rw [NameMap.importing, NameMap.resolve_put] at h
  split at h
  · next hkey =>
    obtain ⟨rfl, -⟩ := Replacement.mk.inj (Option.some.inj h)
    rwa [hkey]
  · cases h

theorem forall₂_lines {R : String → String × List String → Prop} {imports : Imports} :
    List.Forall₂ R imports.lines imports ↔ ∀ entry ∈ imports,
      R ("import type \x7b " ++ ", ".intercalate entry.2 ++ " \x7d from \"" ++ entry.1 ++ "\";")
        entry := by
  rw [Imports.lines, List.forall₂_map_left_iff]
  exact List.forall₂_same

/-- **Import lines are read back if nothing in the origins has to be escaped, and only then.** The
imported names being paths, there is one line for each origin, and it can only be read as importing
the names under that origin, in their order, from whatever the origin between quotes says as a
string. That is the origin itself exactly if none of its characters is a quote, a backslash or a
control character, which is when the line is the one with the origin escaped as string types are.
Escaped lines would be read back always. A line is read in one way at most, and an alias has the
same imports. -/
theorem import_lines_read_back {map : NameMap} (t : TypeExpr)
    (hmap : ∀ raw name origin, map.resolve raw = some ⟨name, some origin⟩ → IsPath name) :
    List.Forall₂ (fun line entry ↦
        (∀ origin names, ReadsImport line.toList (origin, names) ↔
          names = entry.2 ∧ IsJsonString (betweenQuotes entry.1.toList) origin.toList) ∧
        (line.toList = escapedLine entry ↔ ∀ c ∈ entry.1.toList, IsPlain c) ∧
        ReadsImport (escapedLine entry) entry)
      (map.render t).imports.lines (map.render t).imports ∧
    (List.Forall₂ (fun line entry ↦ ReadsImport line.toList entry)
        (map.render t).imports.lines (map.render t).imports ↔
      ∀ entry ∈ (map.render t).imports, ∀ c ∈ entry.1.toList, IsPlain c) ∧
    (∀ text read read', ReadsImport text read → ReadsImport text read' → read = read') ∧
    ∀ aliasName, (map.renderAlias aliasName t).imports = (map.render t).imports := by
  have hnames (entry : String × List String) (hentry : entry ∈ (map.render t).imports) :=
    separatedBy_of_mem_imports hmap hentry
  refine ⟨forall₂_lines.mpr fun entry hentry ↦ ⟨fun origin names ↦ ?_, ?_, ?_⟩, ?_,
    fun text read read' h h' ↦ h.unique h',
    fun aliasName ↦ (map.collected_renderAlias aliasName t).1⟩
  · rw [toList_line]
    exact readsImport_importLine_iff (hnames entry hentry)
  · rw [toList_line, eq_comm]
    exact importLine_inj.trans jsonString_eq_betweenQuotes_iff
  · exact .mk (hnames entry hentry) (isJsonString_jsonString _)
  · rw [forall₂_lines]
    refine forall₂_congr fun entry hentry ↦ ?_
    rw [toList_line, ← isJsonString_betweenQuotes_iff]
    exact (readsImport_importLine_iff (hnames entry hentry)).trans (and_iff_right rfl)

/-- The line that imports a node from a file. -/
theorem import_lines_read_back_node :
    ReadsImport "import type \x7b Node \x7d from \"./dom\";".toList ("./dom", ["Node"]) := by
  have hmap (raw name origin : String)
      (h : (NameMap.empty.importing "Node" none "./dom").resolve raw = some ⟨name, some origin⟩) :
      IsPath name :=
    isPath_of_resolve_importing h (isPath_of_isWord (by decide))
  have himports : ((NameMap.empty.importing "Node" none "./dom").render
      (.array (.entity "Node"))).imports = [("./dom", ["Node"])] := by decide
  have hplain : "./dom".toList.all (IsPlain ·) = true := by decide
  obtain ⟨-, hback, -⟩ := import_lines_read_back (.array (.entity "Node")) hmap
  rw [himports, List.forall_mem_singleton] at hback
  have hlines := hback.mpr fun c hc ↦ of_decide_eq_true (List.all_eq_true.mp hplain c hc)
  exact (List.forall₂_cons.mp hlines).1

/-- An origin with a quote in it leaves a line that is no import at all. -/
theorem import_lines_read_back_ne :
    ∃ map : NameMap, (NameMap.empty.importing "a" none "x\"y") = map ∧
      (∀ raw name origin, map.resolve raw = some ⟨name, some origin⟩ → IsPath name) ∧
      (map.render (.entity "a")).imports = [("x\"y", ["a"])] ∧
      (map.render (.entity "a")).imports.lines = ["import type \x7b a \x7d from \"x\"y\";"] ∧
      ¬∃ read, List.Forall₂ (fun line entry ↦ ReadsImport line.toList entry)
        (map.render (.entity "a")).imports.lines read := by
  have himports : ((NameMap.empty.importing "a" none "x\"y").render (.entity "a")).imports =
      [("x\"y", ["a"])] := by decide
  have hpath : IsPath "a" := isPath_of_isWord (by decide)
  refine ⟨_, rfl, fun raw name origin h ↦ isPath_of_resolve_importing h hpath, himports,
    congrArg Imports.lines himports, ?_⟩
  rw [himports]
  rintro ⟨read, hread⟩
  obtain ⟨⟨origin, names⟩, _, hline, -⟩ := List.forall₂_cons_left_iff.mp hread
  rw [toList_line] at hline
  have hnames : SeparatedBy ", ".toList ReadsName (", ".intercalate ["a"]).toList ["a"] :=
    separatedBy_names (List.cons_ne_nil _ _) (List.forall_mem_singleton.mpr hpath)
  obtain ⟨-, horigin⟩ := (readsImport_importLine_iff hnames).mp hline
  -- the string is over at the second quote
  have hshort : IsJsonString (betweenQuotes ['x']) ['x'] :=
    isJsonString_betweenQuotes_iff.mpr (List.forall_mem_singleton.mpr (by decide))
  have hsplit : betweenQuotes ['x'] ++ ['y', '"'] = betweenQuotes "x\"y".toList ++ [] := by decide
  obtain ⟨heq, -⟩ := hshort.unique horigin hsplit
  cases heq

end TypeNotation
