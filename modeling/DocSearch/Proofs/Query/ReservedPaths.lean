import DocSearch.Proofs.Query.Narrowing
import DocSearch.Proofs.Query.OwnWords

/-!
# Searches under reserved paths

A path filter narrows what a description finds to the entities that its clause admits
(`Description.finds_withPath_iff`).

* The clause for a reserved path is a pattern for the top-level area, made of the path in another
  way than the one that decides that the path is reserved.  For every reserved path the two agree on
  what is left without the blanks and slashes around it (`Scope.contextOf_of_isReserved`).
* This is nothing, or the name of an area, which is a short pattern for itself
  (`Scope.areas_plain`), so the index can look for it.

So a search under a reserved path finds what lies in the area that the path names, capitals not
counted (`Description.reservedPath_finds_iff`).  A path of slashes is reserved as an empty one, but
is not blank: the pattern for it is empty, and no entity in an area fits it
(`Description.reservedPath_finds_not`).
-/

namespace DocSearch

/-! ## Reserved paths -/

namespace Path

/-- A blank or a slash. -/
def isPadding (c : Char) : Bool := Text.isBlank c || c == '/'

/-- A `path` without the blanks and slashes around it. -/
def bare (path : String) : String := String.ofList (Text.trim isPadding path.toList)

theorem toList_bare (path : String) : (bare path).toList = Text.trim isPadding path.toList :=
  String.toList_ofList

/-- Nothing is left of a blank path. -/
theorem bare_of_trimmed {path : String} (h : Text.trimmed path = "") : bare path = "" := by
  have hempty : Text.trim Text.isBlank path.toList = [] := by
    rw [← Text.toList_trimmed, h]
    rfl
  rw [← String.toList_inj, toList_bare]
  refine Text.trim_eq_nil_iff.mpr fun c hc => ?_
  rw [isPadding, Text.trim_eq_nil_iff.mp hempty c hc, Bool.true_or]

end Path

namespace Scope

/-- Slashes and blanks leave the name of an area alone. -/
theorem trim_slash_area : ∀ area ∈ areas, Text.trim (· == '/') ('/' :: area.toList) = area.toList ∧
    Text.trim Path.isPadding ('/' :: area.toList) = area.toList := by
  decide +kernel

/-- The names of the areas, and the empty one, are in lower case; they are patterns for themselves,
and short ones. -/
theorem areas_plain : ∀ area ∈ "" :: areas, Text.lower area = area ∧ Text.fold area = area ∧
    Wildcard.hasWildcard area = false ∧ area.toList.length ≤ 249 := by
  decide +kernel

/-- What is left of a reserved path: nothing, or the name of an area.  The pattern for the path is
the same. -/
theorem contextOf_of_isReserved {path : String} (h : isReserved path = true) :
    Path.bare path ∈ "" :: areas ∧ Description.contextOf (Text.trimmed path) = Path.bare path := by
  have hpadding : ∀ c, (c == '/') = true → Path.isPadding c = true := fun c hc => by
    rw [Path.isPadding, hc, Bool.or_true]
  have hblank : ∀ c, Text.isBlank c = true → Path.isPadding c = true := fun c hc => by
    rw [Path.isPadding, hc, Bool.true_or]
  -- All of them are made of the text that decides that the path is reserved.
  obtain ⟨cs, hcs⟩ : ∃ cs, cs = Text.trimEnd (· == '/') (Text.trim Text.isBlank path.toList) :=
    ⟨_, rfl⟩
  have hbare : (Path.bare path).toList = Text.trim Path.isPadding cs := by
    rw [hcs, Text.trim_trimEnd_of_imp hpadding, Text.trim_trim_of_imp hblank, Path.toList_bare]
  have hcontext : Description.contextOf (Text.trimmed path) =
      Text.lower (String.ofList (Text.trim (· == '/') cs)) := by
    rw [hcs, Description.contextOf, Text.toList_trimmed, Text.trim_trim, Text.trim_trimEnd]
  rw [isReserved, ← hcs, Bool.or_eq_true, List.isEmpty_iff, List.any_eq_true] at h
  rcases h with rfl | ⟨area, harea, heq⟩
  · have hnone : Path.bare path = "" := by rw [← String.toList_inj, hbare]; rfl
    rw [hcontext, hnone]
    exact ⟨.head _, (areas_plain "" (.head _)).1⟩
  · rw [beq_iff_eq.mp heq] at hbare hcontext
    rw [(trim_slash_area area harea).2, String.toList_inj] at hbare
    rw [(trim_slash_area area harea).1, String.ofList_toList,
      (areas_plain area (.tail _ harea)).1] at hcontext
    rw [hcontext, hbare]
    exact ⟨.tail _ harea, rfl⟩

end Scope

/-! ## The filter on the path -/

namespace Description

variable {schema : Schema} {scope : Scope} {e : Entity} {i : Index} {later : List Change}
  {path : String}

/-- The clauses for a `path`. -/
def pathClauses (path : String) (scope : Scope) : List Clause :=
  asked (some path) fun v => [pathClause v scope]

/-- In every domain a `path` has the same clauses, beside those for the rest of the description. -/
theorem mem_ownClauses_iff {q : Description} {d : Domain} {c : Clause} :
    c ∈ { q with path := some path }.ownClauses scope d ↔
      c ∈ { q with path := none }.ownClauses scope d ∨ c ∈ pathClauses path scope := by
  have hnone : ∀ clauses, asked none clauses = [] := fun _ => rfl
  cases d with
  | document =>
    simp only [ownClauses, documentClauses, hnone, List.mem_append, List.not_mem_nil, or_false,
      pathClauses, lastModifiedClauses, or_right_comm (c := c ∈ asked (some path) _)]
  | folder =>
    simp only [ownClauses, folderClauses, hnone, List.mem_append, List.not_mem_nil, or_false,
      pathClauses]
  | mail =>
    simp only [ownClauses, mailClauses, hnone, List.mem_append, List.not_mem_nil, false_or,
      pathClauses, or_comm (a := c ∈ asked (some path) _),
      or_right_comm (c := c ∈ asked (some path) _)]

/-- A `path` narrows what is found to what its clauses admit, if the index can look for their
patterns. -/
theorem finds_withPath_iff (others : ∀ c ∈ later, c.id ≠ e.id) (q : Description)
    (hsearchable : ∀ c ∈ pathClauses path scope, ∀ p ∈ c.condition.patterns,
      Wildcard.isSearchable p = true) :
    (i.storing e later).Finds ({ q with path := some path }.compile schema scope) e.id ↔
      (i.storing e later).Finds ({ q with path := none }.compile schema scope) e.id ∧
        Pass Phrase.occurs e (pathClauses path scope) := by
  have hnarrows : Narrows { q with path := some path } { q with path := none } schema scope
      fun _ => pathClauses path scope :=
    ⟨rfl, fun _ _ => mem_ownClauses_iff, rfl⟩
  obtain ⟨d, hd⟩ := Domain.exists_covers e.kind
  exact hnarrows.finds_iff others hd fun _ => hsearchable

/-! ## Reserved paths as filters -/

/-- The pattern for a reserved path is a text that stands for itself, which the index can look
for. -/
theorem pattern_of_isReserved (h : Scope.isReserved path = true) :
    Wildcard.pattern (contextOf (Text.trimmed path)) = (Path.bare path).toList.map .literal ∧
      Wildcard.isSearchable (Wildcard.pattern (contextOf (Text.trimmed path))) = true := by
  obtain ⟨hbare, hcontext⟩ := Scope.contextOf_of_isReserved h
  obtain ⟨_, _, hplain, hlength⟩ := Scope.areas_plain _ hbare
  rw [hcontext, Wildcard.pattern_of_hasWildcard hplain]
  exact ⟨rfl, Wildcard.isSearchable_literals hlength⟩

/-- The clauses for a reserved path admit everything if it is blank, and otherwise what lies in the
area it names. -/
theorem pass_pathClauses_of_isReserved (h : Scope.isReserved path = true) :
    Pass Phrase.occurs e (pathClauses path .empty) ↔
      Text.trimmed path = "" ∨ Text.fold (Path.bare path) = Text.fold e.context := by
  have hlies : e.LiesUnder .empty (Text.trimmed path) ↔
      Text.fold (Path.bare path) = Text.fold e.context := by
    change Wildcard.Fits (Wildcard.pattern (contextOf (Text.trimmed path)))
      (Text.fold e.context).toList ↔ _
    rw [(pattern_of_isReserved h).1, Wildcard.fits_literals, String.toList_inj,
      (Scope.areas_plain _ (Scope.contextOf_of_isReserved h).1).2.1, eq_comm]
  rw [pathClauses, pass_asked pass_pathClause, asks_iff, ← hlies]
  simp only [Option.bind_some, Text.nonBlank?_eq_some_iff, and_imp, forall_eq]
  exact or_iff_not_imp_left.symm

theorem isSearchable_of_mem_pathClauses (h : Scope.isReserved path = true) {c : Clause}
    (hc : c ∈ pathClauses path .empty) : ∀ p ∈ c.condition.patterns,
    Wildcard.isSearchable p = true := by
  rw [pathClauses, asked, Option.bind_some] at hc
  split at hc
  · rename_i v hv
    rw [List.mem_singleton, (Text.nonBlank?_eq_some_iff.mp hv).1] at hc
    change c = .wildcard Field.context.label (contextOf (Text.trimmed path)) at hc
    intro p hp
    rw [hc, Clause.patterns_wildcard (by decide), List.mem_singleton] at hp
    exact hp ▸ (pattern_of_isReserved h).2
  · cases hc

/-- A reserved path is not expanded, and a search with it finds an entity iff the search without it
does and
* something is left of the path, or the path is blank: nothing is left of the path, or the entity
  lies in the area that the path names, capitals not counted;
* the path consists of slashes: the entity lies in no area. -/
theorem reservedPath_finds_iff (hreserved : Scope.isReserved path = true) (r : Repository)
    (others : ∀ c ∈ later, c.id ≠ e.id) (q : Description) (schema : Schema) :
    Scope.resolve r path = .ok .empty ∧
    (¬ (Path.bare path = "" ∧ Text.trimmed path ≠ "") →
      ((i.storing e later).Finds ({ q with path := some path }.compile schema .empty) e.id ↔
        (i.storing e later).Finds ({ q with path := none }.compile schema .empty) e.id ∧
          (Path.bare path = "" ∨ Text.fold (Path.bare path) = Text.fold e.context))) ∧
    (Path.bare path = "" ∧ Text.trimmed path ≠ "" →
      ((i.storing e later).Finds ({ q with path := some path }.compile schema .empty) e.id ↔
        (i.storing e later).Finds ({ q with path := none }.compile schema .empty) e.id ∧
          e.context = "")) := by
  have hfinds :
      (i.storing e later).Finds ({ q with path := some path }.compile schema .empty) e.id ↔
      (i.storing e later).Finds ({ q with path := none }.compile schema .empty) e.id ∧
        (Text.trimmed path = "" ∨ Text.fold (Path.bare path) = Text.fold e.context) := by
    rw [finds_withPath_iff others q fun c hc => isSearchable_of_mem_pathClauses hreserved hc,
      pass_pathClauses_of_isReserved hreserved]
  refine ⟨if_pos hreserved, fun hfilter => ?_, fun hslashes => ?_⟩
  -- Outside the slashes, a bare path is blank only if the path is.
  · have hblank : Text.trimmed path = "" ↔ Path.bare path = "" := by
      refine ⟨Path.bare_of_trimmed, fun hbare => ?_⟩
      by_contra hne
      exact hfilter ⟨hbare, hne⟩
    rw [hfinds, hblank]
  · obtain ⟨hbare, hne⟩ := hslashes
    have hempty : Text.fold "" = "" := Text.fold_eq_empty_iff.mpr rfl
    rw [hfinds, or_iff_right hne, hbare, hempty, eq_comm (a := ""), Text.fold_eq_empty_iff]

/-- The search for documents filed under finance, under a `path`. -/
def financeUnder (path : Option String) : Description :=
  { documents with keywords := .ofList ["Finance"], path }

/-- The `redReport` is found in an index that keeps nothing else. -/
def ReportFound (q : Description) : Prop :=
  ((Index.empty 100).storing redReport []).Finds (q.compile .empty .empty) redReport.id

instance (q : Description) : Decidable (ReportFound q) :=
  inferInstanceAs (Decidable (Index.Finds _ _ _))

/-- The report lies in the main area: it is found under the path of this area, however that is
padded, and not under that of another one. -/
theorem reservedPath_finds_padded : ReportFound (financeUnder (some " /okm:root// ")) ∧
    ¬ ReportFound (financeUnder (some "/okm:trash")) := by
  have hpadded : Scope.isReserved " /okm:root// " = true := by decide +kernel
  have htrash : Scope.isReserved "/okm:trash" = true := by decide +kernel
  obtain ⟨_, hfound, _⟩ := reservedPath_finds_iff hpadded .empty (i := .empty 100) (e := redReport)
    (List.forall_mem_nil _) (financeUnder none) .empty
  obtain ⟨_, hother, _⟩ := reservedPath_finds_iff htrash .empty (i := .empty 100) (e := redReport)
    (List.forall_mem_nil _) (financeUnder none) .empty
  refine ⟨(hfound (by decide +kernel)).mpr ⟨by decide +kernel, by decide +kernel⟩, fun h => ?_⟩
  exact absurd ((hother (by decide +kernel)).mp h).2 (by decide +kernel)

/-- A path of slashes is reserved, and nothing is left of it; but the report, which is found without
a path and under a blank one, is not found under it. -/
theorem reservedPath_finds_not : Scope.isReserved "//" = true ∧ Path.bare "//" = "" ∧
    ReportFound (financeUnder none) ∧ ReportFound (financeUnder (some " ")) ∧
    ¬ ReportFound (financeUnder (some "//")) := by
  decide +kernel

end Description

end DocSearch
