import DocSearch.Proofs.Repository.Built

/-!
# The entry of a path

Two things are wanted of the entry of a path: it names a node only if that node lies there
(`Repository.NamesOnlyThere`), and it is missing only if no node lies there
(`Repository.MissesOnlyNone`).

* The first is kept by every update but one, the insertion of the named node at another path
  (`Repository.MovesAway`, `Repository.namesOnlyThere_after_iff`).
* The second is kept by every update but the removal of a node that leaves another one behind at its
  path (`Repository.LeavesBehind`, `Repository.missesOnlyNone_after_iff`).
* What every update keeps but the bad ones holds throughout a run iff no bad one is made
  (`Repository.throughout_iff_never`, by induction on the run).

So along a run of updates each holds throughout iff no such update is made
(`Repository.idOfPath?_throughout_iff`).  What the updates do to nodes and entries is said once for
each of them in front.
-/

namespace DocSearch.Repository

/-- A change of a repository. -/
inductive Update where
  | insert (n : Node)
  | remove (id : String)
  | setKeywords (id : String) (keywords : SortedSet String)
deriving DecidableEq

/-- The repository after an update.  Setting the keywords of a node that does not exist changes
nothing. -/
def after (r : Repository) : Update → Repository
  | .insert n => r.insert n
  | .remove id => (r.remove id).2
  | .setKeywords id keywords => (r.setKeywords? id keywords).getD r

/-- A node of the identifier `id` exists and `path` is its path. -/
def LiesAt (r : Repository) (id path : String) : Prop :=
  ∃ n, r.nodes.get? id = some n ∧ n.summary.path = path

variable {r : Repository} {id path : String}

instance : Decidable (r.LiesAt id path) :=
  decidable_of_iff (∃ n ∈ r.nodes.get? id, n.summary.path = path) Iff.rfl

/-! ## What an update does to nodes and entries -/

/-- Inserting a node puts it at its path, and nowhere else. -/
theorem liesAt_insert {n : Node} : (r.insert n).LiesAt id path ↔
    if id = n.summary.id then n.summary.path = path else r.LiesAt id path := by
  rw [LiesAt, get?_nodes_insert]
  split
  · simp
  · rfl

theorem liesAt_remove {gone : String} :
    (r.remove gone).2.LiesAt id path ↔ id ≠ gone ∧ r.LiesAt id path := by
  rw [LiesAt, get?_nodes_remove]
  split
  · rename_i hid
    simp [hid]
  · rename_i hid
    rw [and_iff_right hid]
    rfl

theorem liesAt_after_setKeywords {node : String} {keywords : SortedSet String} :
    (r.after (.setKeywords node keywords)).LiesAt id path ↔ r.LiesAt id path := by
  rw [after]
  cases hset : r.setKeywords? node keywords with
  | none => rfl
  | some r' =>
    obtain ⟨n, hn, hget⟩ := get?_nodes_setKeywords hset
    rw [Option.getD_some, LiesAt, LiesAt, hget]
    split
    · rename_i hid
      simp [hid, hn]
    · rfl

/-- Inserting a node enters its path for it; the entry of its old path stays. -/
theorem get?_paths_insert {n : Node} : (r.insert n).paths.get? path =
    if path = n.summary.path then some n.summary.id else r.paths.get? path := SortedMap.get?_insert

/-- Removing a node takes out the entry of its path, whichever node it names. -/
theorem get?_paths_remove {gone : String} : (r.remove gone).2.paths.get? path =
    if r.LiesAt gone path then none else r.paths.get? path := by
  unfold remove
  cases hgone : r.nodes.get? gone with
  | none => simp [LiesAt, hgone]
  | some m => simp [LiesAt, hgone, SortedMap.get?_erase, eq_comm]

theorem paths_after_setKeywords {node : String} {keywords : SortedSet String} :
    (r.after (.setKeywords node keywords)).paths = r.paths := by
  rw [after, setKeywords?]
  cases r.nodes.get? node <;> rfl

/-- The slashes at the end of a path do not count, so one without them is looked up as it is. -/
theorem idOfPath?_eq_get? (bare : path.toList.getLast? ≠ some '/') :
    r.idOfPath? path = r.paths.get? path := by
  have hkept : path.toList.reverse.dropWhile (· = '/') = path.toList.reverse := by
    rw [← List.head?_reverse] at bare
    cases hrev : path.toList.reverse with
    | nil => rfl
    | cons c cs =>
      rw [hrev] at bare
      exact List.dropWhile_cons_of_neg (by simpa using bare)
  rw [idOfPath?, Path.withoutTrailing, hkept, List.reverse_reverse, String.ofList_toList]

/-! ## What is wanted of an entry -/

/-- The entry of a `path` names a node only if it lies there. -/
def NamesOnlyThere (path : String) (r : Repository) : Prop :=
  ∀ id, r.idOfPath? path = some id → r.LiesAt id path

/-- A `path` has no entry only if no node lies there. -/
def MissesOnlyNone (path : String) (r : Repository) : Prop :=
  r.idOfPath? path = none → ∀ id, ¬ r.LiesAt id path

/-- The node that is named for a `path` is inserted at another one. -/
def MovesAway (path : String) (r : Repository) : Update → Prop
  | .insert n => r.idOfPath? path = some n.summary.id ∧ n.summary.path ≠ path
  | _ => False

instance (u : Update) : Decidable (MovesAway path r u) :=
  match u with
  | .insert _ => inferInstanceAs (Decidable (_ ∧ _))
  | .remove _ => inferInstanceAs (Decidable False)
  | .setKeywords _ _ => inferInstanceAs (Decidable False)

/-- A node is removed and another one stays behind at its `path`. -/
def LeavesBehind (path : String) (r : Repository) : Update → Prop
  | .remove gone => r.LiesAt gone path ∧ ∃ id, id ≠ gone ∧ r.LiesAt id path
  | _ => False

/-- An entry that names only what is there goes on to do so iff the node it names is not moved away
(`MovesAway`). -/
theorem namesOnlyThere_after_iff (bare : path.toList.getLast? ≠ some '/')
    (h : NamesOnlyThere path r)
    (u : Update) : NamesOnlyThere path (r.after u) ↔ ¬ MovesAway path r u := by
  simp only [NamesOnlyThere, MovesAway, idOfPath?_eq_get? bare] at h ⊢
  cases u with
  | insert n =>
    simp only [after, get?_paths_insert, liesAt_insert]
    by_cases hpath : path = n.summary.path
    · simp [hpath]
    · rw [if_neg hpath]
      constructor
      · rintro hnames ⟨hmoved, _⟩
        have hlies := hnames _ hmoved
        rw [if_pos rfl] at hlies
        exact hpath hlies.symm
      · intro hstays id hid
        -- The named node is another one than that which was inserted, so it is where it was.
        have hother : id ≠ n.summary.id := fun heq => hstays ⟨heq ▸ hid, Ne.symm hpath⟩
        rw [if_neg hother]
        exact h id hid
  | remove gone =>
    simp only [after, get?_paths_remove, liesAt_remove, not_false_eq_true, iff_true]
    intro id hid
    split at hid
    · cases hid
    · rename_i helsewhere
      refine ⟨?_, h id hid⟩
      rintro rfl
      exact helsewhere (h id hid)
  | setKeywords node keywords =>
    simp only [paths_after_setKeywords, liesAt_after_setKeywords, not_false_eq_true, iff_true]
    exact h

/-- A path that misses no node goes on to do so iff none is left behind when another one is removed
(`LeavesBehind`). -/
theorem missesOnlyNone_after_iff (bare : path.toList.getLast? ≠ some '/')
    (h : MissesOnlyNone path r)
    (u : Update) : MissesOnlyNone path (r.after u) ↔ ¬ LeavesBehind path r u := by
  simp only [MissesOnlyNone, LeavesBehind, idOfPath?_eq_get? bare] at h ⊢
  cases u with
  | insert n =>
    simp only [after, get?_paths_insert, liesAt_insert, not_false_eq_true, iff_true]
    split
    · intro hnone
      cases hnone
    · rename_i hpath
      intro hnone id
      split
      · exact Ne.symm hpath
      · exact h hnone id
  | remove gone =>
    simp only [after, get?_paths_remove, liesAt_remove]
    by_cases hthere : r.LiesAt gone path
    -- The entry goes with the node, so no other node may lie at the path.
    · rw [if_pos hthere, eq_self, true_imp_iff, and_iff_right hthere]
      exact not_exists.symm
    · rw [if_neg hthere]
      simp only [hthere, false_and, not_false_eq_true, iff_true]
      rintro hnone id ⟨_, hid⟩
      exact h hnone id hid
  | setKeywords node keywords =>
    simp only [paths_after_setKeywords, liesAt_after_setKeywords, not_false_eq_true, iff_true]
    exact h

/-! ## Runs of updates -/

/-- A repository has the property `holds`, and has it still after each of some updates. -/
def Throughout (holds : Repository → Prop) : Repository → List Update → Prop
  | r, [] => holds r
  | r, u :: us => holds r ∧ Throughout holds (r.after u) us

/-- None of some updates is a `bad` one for the repository to which it is made. -/
def Never (bad : Repository → Update → Prop) : Repository → List Update → Prop
  | _, [] => True
  | r, u :: us => ¬ bad r u ∧ Never bad (r.after u) us

/-- What every update keeps but the `bad` ones holds throughout a run iff no bad one is made. -/
theorem throughout_iff_never {holds : Repository → Prop} {bad : Repository → Update → Prop}
    (step : ∀ r, holds r → ∀ u, holds (r.after u) ↔ ¬ bad r u) (us : List Update) (h : holds r) :
    Throughout holds r us ↔ Never bad r us := by
  induction us generalizing r with
  | nil => exact iff_of_true h trivial
  | cons u us ih =>
    rw [Throughout, Never, and_iff_right h]
    constructor
    · intro hrest
      have hnext : holds (r.after u) := by
        cases us with
        | nil => exact hrest
        | cons => exact hrest.1
      exact ⟨(step r h u).mp hnext, (ih hnext).mp hrest⟩
    · rintro ⟨hgood, hrest⟩
      exact (ih ((step r h u).mpr hgood)).mpr hrest

/-- Along a run of updates from the empty repository, a path that does not end with a slash
* never leads to a node that is not there iff the node it leads to is never inserted at another
  path;
* always leads to some node if one is there iff no removal leaves another node behind at the
path. -/
theorem idOfPath?_throughout_iff (us : List Update) {path : String}
    (bare : path.toList.getLast? ≠ some '/') :
    (Throughout (NamesOnlyThere path) empty us ↔ Never (MovesAway path) empty us) ∧
    (Throughout (MissesOnlyNone path) empty us ↔ Never (LeavesBehind path) empty us) := by
  constructor
  · refine throughout_iff_never (fun r h => namesOnlyThere_after_iff bare h) us ?_
    intro id hid
    rw [idOfPath?_eq_get? bare] at hid
    cases hid
  · refine throughout_iff_never (fun r h => missesOnlyNone_after_iff bare h) us ?_
    rintro _ id ⟨n, hn, _⟩
    cases hn

/-! ## A shared path -/

/-- A document of the identifier `id` at a `path`. -/
def documentAt (id path : String) : Node := ⟨⟨id, .document, path, none, none, .empty⟩, none, none⟩

/-- Two documents come to lie at one path, and the first one is moved from there before it is
removed. -/
def sharing : List Update :=
  [.insert (documentAt "1" "/a"), .insert (documentAt "2" "/a"), .insert (documentAt "1" "/b"),
    .remove "1"]

/-- The document that was inserted last is found throughout. -/
theorem idOfPath?_throughout_sharing :
    Throughout (NamesOnlyThere "/a") empty sharing ∧
    Throughout (MissesOnlyNone "/a") empty sharing := by
  have hbare : "/a".toList.getLast? ≠ some '/' := by decide
  obtain ⟨names, misses⟩ := idOfPath?_throughout_iff sharing hbare
  constructor
  · exact names.mpr ⟨by decide +kernel, by decide +kernel, by decide +kernel, by
      decide +kernel, trivial⟩
  · have hmoved : ¬ (([.insert (documentAt "1" "/a"), .insert (documentAt "2" "/a"),
        .insert (documentAt "1" "/b")].foldl after empty).LiesAt "1" "/a") := by decide +kernel
    exact misses.mpr ⟨not_false, not_false, not_false, fun hbehind => hmoved hbehind.1, trivial⟩

/-- A document that was moved is still found at its old path, and a document that shared its path is
not found any more when the other one was removed. -/
theorem idOfPath?_misled :
    ¬ NamesOnlyThere "/a"
      ([.insert (documentAt "1" "/a"), .insert (documentAt "1" "/b")].foldl after empty) ∧
    ¬ MissesOnlyNone "/a"
      ([.insert (documentAt "1" "/a"), .insert (documentAt "2" "/a"), .remove "2"].foldl after
        empty) := by
  constructor
  · intro names
    have hthere := names "1" (by decide +kernel)
    revert hthere
    decide +kernel
  · intro misses
    have hgone := misses (by decide +kernel) "1"
    revert hgone
    decide +kernel

end DocSearch.Repository
