import Mathlib.Data.List.Perm.Basic
import TypeNotation.Proofs.FirstOccurrences
import TypeNotation.Proofs.TypeScript.WrittenNames

/-!
# Imports in order of first use

What a rendering imports, told by the names in the type alone. Each name that has an origin is a use
of an import; from left to right, the first use of an import adds it and is logged, and any further
use changes nothing. So the origins are in the order of their first uses, and so are the names under
each of them, although a name may stand for several others and an origin come back after another.

The invariant is about all uses so far, and one use more keeps it.
-/

namespace TypeNotation

/-! ## Uses of imports -/

/-- The import that is used: a name and the origin that it is imported from. -/
def ImportUse.target (use : ImportUse) : String × String := (use.origin, use.name)

/-- The use of an import that a name is, if what stands for it has an origin. -/
def NameMap.use? (map : NameMap) (raw : String) : Option ImportUse :=
  match map.resolve raw with
  | some ⟨name, some origin⟩ => some ⟨name, origin, raw⟩
  | _ => none

/-- The names that are used from an origin, in order of first use. -/
def namesFrom (origin : String) (uses : List ImportUse) : List String :=
  ((uses.filter (·.origin = origin)).map (·.name)).eraseDups

/-- What is imported for uses: the origins in order of first use, each with its names. -/
def importsOf (uses : List ImportUse) : Imports :=
  (uses.map (·.origin)).eraseDups.map fun origin ↦ (origin, namesFrom origin uses)

/-- All imports, without their grouping. -/
def Imports.targets (imports : Imports) : List (String × String) :=
  imports.flatMap fun (origin, names) ↦ names.map (origin, ·)

theorem NameMap.use?_eq_some_iff {map : NameMap} {raw : String} {use : ImportUse} :
    map.use? raw = some use ↔
      map.resolve raw = some ⟨use.name, some use.origin⟩ ∧ use.raw = raw := by
  obtain ⟨name, origin, raw'⟩ := use
  unfold use?
  split
  · next hresolve =>
    rw [hresolve]
    simp [eq_comm, and_assoc]
  · next hother =>
    constructor
    · rintro ⟨⟩
    · rintro ⟨hresolve, -⟩
      exact absurd hresolve (hother name origin)

theorem mem_namesFrom {origin name : String} {uses : List ImportUse} :
    name ∈ namesFrom origin uses ↔ (origin, name) ∈ uses.map ImportUse.target := by
  simp [namesFrom, ImportUse.target, and_comm, and_assoc]

theorem namesFrom_concat (origin : String) (uses : List ImportUse) (use : ImportUse) :
    namesFrom origin (uses ++ [use]) =
      if use.origin = origin ∧ use.name ∉ namesFrom origin uses then
        namesFrom origin uses ++ [use.name]
      else namesFrom origin uses := by
  by_cases horigin : use.origin = origin
  · have hfilter : (uses ++ [use]).filter (·.origin = origin) =
        uses.filter (·.origin = origin) ++ [use] := by
      rw [List.filter_append, List.filter_cons_of_pos (by simpa using horigin), List.filter_nil]
    rw [namesFrom, hfilter, List.map_append, List.map_singleton, eraseDups_concat, ← namesFrom]
    by_cases hname : use.name ∈ namesFrom origin uses
    · rw [if_pos (List.mem_eraseDups.mp hname), if_neg fun h ↦ h.2 hname]
    · rw [if_neg fun h ↦ hname (List.mem_eraseDups.mpr h), if_pos ⟨horigin, hname⟩]
  · have hfilter : (uses ++ [use]).filter (·.origin = origin) =
        uses.filter (·.origin = origin) := by
      rw [List.filter_append, List.filter_cons_of_neg (by simpa using horigin), List.filter_nil,
        List.append_nil]
    rw [namesFrom, hfilter, ← namesFrom, if_neg fun h ↦ horigin h.1]

theorem mem_targets_importsOf {target : String × String} {uses : List ImportUse} :
    target ∈ (importsOf uses).targets ↔ target ∈ uses.map ImportUse.target := by
  obtain ⟨origin, name⟩ := target
  have horigin (h : (origin, name) ∈ uses.map ImportUse.target) : origin ∈ uses.map (·.origin) := by
    obtain ⟨use, huse, heq⟩ := List.mem_map.mp h
    exact List.mem_map.mpr ⟨use, huse, congrArg Prod.fst heq⟩
  simp only [Imports.targets, importsOf, List.mem_flatMap, List.mem_map, List.mem_eraseDups]
  constructor
  · rintro ⟨_, ⟨origin', -, rfl⟩, name', hname, heq⟩
    cases heq
    exact List.mem_map.mp (mem_namesFrom.mp hname)
  · intro h
    exact ⟨_, ⟨origin, List.mem_map.mp (horigin (List.mem_map.mpr h)), rfl⟩, name,
      mem_namesFrom.mpr (List.mem_map.mpr h), rfl⟩

theorem contains_importsOf {use : ImportUse} {uses : List ImportUse} :
    (importsOf uses).contains use.origin use.name = true ↔
      use.target ∈ uses.map ImportUse.target := by
  rw [← mem_targets_importsOf]
  simp only [Imports.contains, Imports.targets, List.any_eq_true, List.mem_flatMap, List.mem_map,
    Bool.and_eq_true, decide_eq_true_eq, List.contains_iff_mem]
  constructor
  · rintro ⟨⟨key, names⟩, hentry, rfl, hname⟩
    exact ⟨⟨_, names⟩, hentry, use.name, hname, rfl⟩
  · rintro ⟨⟨key, names⟩, hentry, name, hname, heq⟩
    obtain ⟨rfl, rfl⟩ := Prod.mk.inj heq
    exact ⟨⟨_, names⟩, hentry, rfl, hname⟩

/-- No import comes twice, since the names under different origins are different imports. -/
theorem nodup_targets_importsOf (uses : List ImportUse) : (importsOf uses).targets.Nodup := by
  rw [Imports.targets, importsOf, List.flatMap_map]
  refine List.nodup_flatMap.mpr ⟨fun origin _ ↦ ?_, (nodup_eraseDups _).imp fun hne ↦ ?_⟩
  · exact (nodup_eraseDups _).map fun _ _ heq ↦ (Prod.mk.inj heq).2
  · rintro target htarget htarget'
    obtain ⟨name, -, rfl⟩ := List.mem_map.mp htarget
    obtain ⟨name', -, heq⟩ := List.mem_map.mp htarget'
    exact hne (Prod.mk.inj heq).1.symm

/-! ## One more use -/

/-- Adding a name changes nothing but the names under its origin, and adds the origin if it is not
there. -/
theorem add_map {origins : List String} {names : String → List String} {origin : String}
    (hnodup : origins.Nodup) (hnames : origin ∉ origins → names origin = []) (name : String) :
    Imports.add origin name (origins.map fun key ↦ (key, names key)) =
      (if origin ∈ origins then origins else origins ++ [origin]).map fun key ↦
        (key, if origin = key ∧ name ∉ names key then names key ++ [name] else names key) := by
  induction origins with
  | nil => simp [Imports.add, hnames List.not_mem_nil]
  | cons key origins ih =>
    obtain ⟨hkey, hnodup⟩ := List.nodup_cons.mp hnodup
    rw [List.map_cons, Imports.add]
    by_cases horigin : key = origin
    · -- the origin does not come again behind
      subst horigin
      have hrest : ∀ other ∈ origins, ¬(key = other ∧ name ∉ names other) := by
        rintro other hother ⟨rfl, -⟩
        exact hkey hother
      rw [if_pos rfl, if_pos List.mem_cons_self, List.map_cons]
      congr 1
      · by_cases hname : name ∈ names key <;> simp [hname]
      · exact List.map_congr_left fun other hother ↦ by rw [if_neg (hrest other hother)]
    · rw [if_neg horigin, ih hnodup fun h ↦ hnames fun hmem ↦ (List.mem_cons.mp hmem).elim
        (fun heq ↦ horigin heq.symm) h]
      by_cases hmem : origin ∈ origins <;> simp [hmem, Ne.symm horigin]

theorem add_importsOf (uses : List ImportUse) (use : ImportUse) :
    (importsOf uses).add use.origin use.name = importsOf (uses ++ [use]) := by
  have hnames : use.origin ∉ (uses.map (·.origin)).eraseDups → namesFrom use.origin uses = [] := by
    intro horigin
    refine List.eq_nil_iff_forall_not_mem.mpr fun name hname ↦ horigin (List.mem_eraseDups.mpr ?_)
    obtain ⟨other, hother, heq⟩ := List.mem_map.mp (mem_namesFrom.mp hname)
    exact List.mem_map.mpr ⟨other, hother, congrArg Prod.fst heq⟩
  rw [importsOf, add_map (nodup_eraseDups _) hnames, importsOf, List.map_append, List.map_singleton,
    eraseDups_concat]
  simp only [List.mem_eraseDups, namesFrom_concat]

/-- One use after others: its import is added, and logged if it was not there. -/
def collectUse : Imports × List ImportUse → ImportUse → Imports × List ImportUse
  | (imports, firsts), use =>
    (imports.add use.origin use.name,
      if imports.contains use.origin use.name then firsts else firsts ++ [use])

/-- What is collected from uses: their imports, and the first use of each of them. -/
structure CollectedFrom (uses : List ImportUse) (imports : Imports) (firsts : List ImportUse) :
    Prop where
  imports_eq : imports = importsOf uses
  targets_eq : firsts.map ImportUse.target = (uses.map ImportUse.target).eraseDups
  first : ∀ use ∈ firsts, uses.find? (·.target = use.target) = some use

/-- A use whose import was there leaves the first uses as they are. -/
theorem CollectedFrom.collectUse {uses firsts : List ImportUse} {imports : Imports}
    (h : CollectedFrom uses imports firsts) (use : ImportUse) :
    CollectedFrom (uses ++ [use]) (collectUse (imports, firsts) use).1
      (collectUse (imports, firsts) use).2 := by
  obtain ⟨rfl, htargets, hfirst⟩ := h
  have hold : ∀ other ∈ firsts, (uses ++ [use]).find? (·.target = other.target) = some other := by
    intro other hother
    rw [List.find?_append, hfirst other hother, Option.some_or]
  rw [TypeNotation.collectUse, add_importsOf]
  by_cases htarget : use.target ∈ uses.map ImportUse.target
  · rw [if_pos (contains_importsOf.mpr htarget)]
    refine ⟨rfl, ?_, hold⟩
    rw [List.map_append, List.map_singleton, eraseDups_concat, if_pos htarget, htargets]
  · rw [if_neg fun hcontains ↦ htarget (contains_importsOf.mp hcontains)]
    have hnone : uses.find? (·.target = use.target) = none := by
      refine List.find?_eq_none.mpr fun other hother heq ↦ htarget ?_
      exact List.mem_map.mpr ⟨other, hother, of_decide_eq_true heq⟩
    refine ⟨rfl, ?_, List.forall_mem_append.mpr ⟨hold, List.forall_mem_singleton.mpr ?_⟩⟩
    · rw [List.map_append, List.map_append, List.map_singleton, eraseDups_concat, if_neg htarget,
        htargets]
    · rw [List.find?_append, hnone, Option.none_or, List.find?_cons_of_pos (by simp)]

theorem collectedFrom_foldl (uses : List ImportUse) :
    CollectedFrom uses (uses.foldl collectUse ([], [])).1 (uses.foldl collectUse ([], [])).2 := by
  induction uses using List.reverseRecOn with
  | nil => exact ⟨rfl, rfl, fun use huse ↦ by cases huse⟩
  | append_singleton uses use ih =>
    rw [List.foldl_append]
    exact ih.collectUse use

/-! ## Renderings -/

namespace NameMap

variable (map : NameMap)

/-- Fragments are collected by their names, as far as these have origins. -/
theorem foldl_collectFragment (fragments : List Fragment) (collected : Imports × List ImportUse) :
    fragments.foldl map.collectFragment collected =
      ((namesAmong fragments).filterMap map.use?).foldl collectUse collected := by
  induction fragments generalizing collected with
  | nil => rfl
  | cons fragment fragments ih =>
    cases fragment with
    | literal text => exact ih collected
    | name raw =>
      rw [List.foldl_cons, ih, namesAmong_name, List.filterMap_cons, collectFragment, use?]
      cases map.resolve raw with
      | none => rfl
      | some replacement =>
        obtain ⟨name, _ | origin⟩ := replacement <;> rfl

theorem collectedFrom_renderFragments (fragments : List Fragment) :
    CollectedFrom ((namesAmong fragments).filterMap map.use?)
      (map.renderFragments fragments).imports (map.renderFragments fragments).uses := by
  have hcollected := collectedFrom_foldl ((namesAmong fragments).filterMap map.use?)
  rwa [← map.foldl_collectFragment] at hcollected

/-- Text around a type is no use of a name. -/
theorem collected_renderAlias (aliasName : String) (t : TypeExpr) :
    (map.renderAlias aliasName t).imports = (map.render t).imports ∧
      (map.renderAlias aliasName t).uses = (map.render t).uses := by
  have hnames : namesAmong (.literal ("export type " ++ aliasName ++ " = ").toList :: t.fragments ++
      [.literal [';']]) = namesAmong t.fragments := by simp
  simp only [renderAlias, render, renderFragments, foldl_collectFragment, hnames, and_self]

theorem text_renderAlias (aliasName : String) (t : TypeExpr) :
    (map.renderAlias aliasName t).text =
      "export type " ++ aliasName ++ " = " ++ (map.render t).text ++ ";" := by
  rw [← String.toList_inj]
  simp [renderAlias, render, renderFragments, fragmentChars]

end NameMap

/-- **Imports are collected in order of first use.** Take the names of a type from left to right and
of them those that have an origin. Their origins, each once, are those of the imports, and under
each stand the names that are imported from it, each once, all in order of first use; these are the
imports of the names that stand in the type and no others. What is logged is the first use of each
import, in order and with the name that stands there. As an alias the type has the same imports and
the same log. -/
theorem imports_in_order_of_use (map : NameMap) (t : TypeExpr) :
    let uses := t.entityNames.filterMap map.use?
    let rendering := map.render t
    rendering.imports = importsOf uses ∧
    (∀ origin name, (origin, name) ∈ rendering.imports.targets ↔
      ∃ raw ∈ t.entityNames, map.resolve raw = some ⟨name, some origin⟩) ∧
    (rendering.imports.targets.Perm (rendering.uses.map ImportUse.target) ∧
      rendering.uses.map ImportUse.target = (uses.map ImportUse.target).eraseDups ∧
      ∀ use ∈ rendering.uses, uses.find? (·.target = use.target) = some use) ∧
    rendering.log = (rendering.uses.map fun use ↦ ⟨.debug, renderTarget,
      "importing " ++ use.name ++ " from " ++ use.origin ++ " for " ++ use.raw⟩) ∧
    ∀ aliasName,
      (map.renderAlias aliasName t).imports = rendering.imports ∧
      (map.renderAlias aliasName t).log = rendering.log ∧
      (map.renderAlias aliasName t).text =
        "export type " ++ aliasName ++ " = " ++ rendering.text ++ ";" := by
  intro uses rendering
  obtain ⟨himports, htargets, hfirst⟩ : CollectedFrom
      ((namesAmong t.fragments).filterMap map.use?) rendering.imports rendering.uses :=
    map.collectedFrom_renderFragments t.fragments
  rw [t.namesAmong_fragments] at himports htargets hfirst
  refine ⟨himports, fun origin name ↦ ?_, ⟨?_, htargets, hfirst⟩, rfl, fun aliasName ↦ ?_⟩
  · rw [himports, mem_targets_importsOf]
    constructor
    · intro h
      obtain ⟨use, huse, heq⟩ := List.mem_map.mp h
      obtain ⟨raw, hraw, hresolve⟩ := List.mem_filterMap.mp huse
      obtain ⟨rfl, rfl⟩ := Prod.mk.inj heq
      exact ⟨raw, hraw, (NameMap.use?_eq_some_iff.mp hresolve).1⟩
    · rintro ⟨raw, hraw, hresolve⟩
      have huse : map.use? raw = some ⟨name, origin, raw⟩ :=
        NameMap.use?_eq_some_iff.mpr ⟨hresolve, rfl⟩
      exact List.mem_map.mpr ⟨_, List.mem_filterMap.mpr ⟨raw, hraw, huse⟩, rfl⟩
  · have hnodup : (rendering.uses.map ImportUse.target).Nodup := htargets ▸ nodup_eraseDups _
    rw [himports]
    refine (List.perm_ext_iff_of_nodup (nodup_targets_importsOf _) hnodup).mpr fun target ↦ ?_
    rw [mem_targets_importsOf, htargets, List.mem_eraseDups]
  · obtain ⟨himports', huses'⟩ := map.collected_renderAlias aliasName t
    exact ⟨himports', by rw [Rendering.log, huses']; rfl, map.text_renderAlias aliasName t⟩

end TypeNotation
