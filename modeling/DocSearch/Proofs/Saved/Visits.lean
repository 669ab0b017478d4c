import DocSearch.Proofs.Saved.Confinement
import Mathlib.Data.List.Induction

/-!
# Visits and the searches they are from

A visit is kept under the name of the dashboard search that it is from (`SavedRow.IsSourceOf`).

* Of what users do to saved searches, all but edits take a visit away if and only if they take away
  the last search that it is from (`SavedStore.Purges`, `Turn.purges_take`).
* An edit leaves every visit, also if it gives the search another name or makes it one that is no
  dashboard search (`Operation.Leaves.edit_cases`).
* So the visits that are from no search after a turn are those that were from none before, and those
  that the turn abandons (`Turn.Abandons`, `Turn.mem_visits_take_iff`), which is the step.
* Over a run they are those that some edit has left so and that have not been from any search since
  (`SavedStore.IsAbandoned`, `SavedStore.isStray_after_iff`, by induction from the last turn).

If a user has deleted all searches, these are all that is left of the visits of this user
(`SavedStore.visits_after_deleting`).

The time of a visit is written by the turn in which it is made, and only by such turns
(`Turn.mem_visitRows_take`), so that visits can always be listed (`SavedStore.visited_after`).
-/

namespace DocSearch

/-! ## Sources of visits -/

/-- Whether the visit `v` is from the search in a row. -/
def SavedRow.IsSourceOf (r : SavedRow) (v : Visit) : Prop :=
  r.user = v.user ∧ r.isDashboard = true ∧ r.name = v.source

instance (r : SavedRow) (v : Visit) : Decidable (r.IsSourceOf v) :=
  inferInstanceAs (Decidable (_ ∧ _))

namespace SavedStore

/-- Whether there is a search that the visit `v` is from. -/
def HasSource (s : SavedStore) (v : Visit) : Prop := ∃ r ∈ s.rows, r.IsSourceOf v

instance (s : SavedStore) (v : Visit) : Decidable (s.HasSource v) :=
  inferInstanceAs (Decidable (∃ r ∈ s.rows, _))

/-- The visit `v` is kept, but there is no search that it is from. -/
def IsStray (s : SavedStore) (v : Visit) : Prop := v ∈ s.visits ∧ ¬ s.HasSource v

/-- Of the visits that are from no search afterwards, those stay that were from none before. -/
def Purges (s t : SavedStore) : Prop := ∀ v, ¬ t.HasSource v → (v ∈ t.visits ↔ s.IsStray v)

/-- No two rows have one identifier. -/
def IsKeyed (s : SavedStore) : Prop := (s.rows.map (·.id)).Nodup

variable {s t : SavedStore} {id : String} {row before after gone : SavedRow} {v : Visit}

/-! ## One change -/

/-- A visit is from the row of an identifier, or from one of the other rows. -/
theorem hasSource_iff_of_row? (hkeyed : s.IsKeyed) (hrow : s.row? id = some row) :
    s.HasSource v ↔ row.IsSourceOf v ∨ ∃ r ∈ s.rows.filter (·.id ≠ id), r.IsSourceOf v := by
  have hmem : row ∈ s.rows := List.mem_of_find?_eq_some hrow
  have hid : row.id = id := id_of_row? hrow
  constructor
  · rintro ⟨r, hr, hsource⟩
    by_cases heq : r.id = id
    · have hsame : r = row := List.inj_on_of_nodup_map hkeyed hr hmem (heq.trans hid.symm)
      exact .inl (hsame ▸ hsource)
    · exact .inr ⟨r, List.mem_filter.mpr ⟨hr, decide_eq_true heq⟩, hsource⟩
  · rintro (hsource | ⟨r, hr, hsource⟩)
    · exact ⟨row, hmem, hsource⟩
    · exact ⟨r, (List.mem_filter.mp hr).1, hsource⟩

/-- If visits are the same and no visit loses its source, nothing has to be taken away. -/
theorem purges_of_imp (hvisits : t.visits = s.visits)
    (hsource : ∀ v, s.HasSource v → t.HasSource v) : s.Purges t := by
  intro v hlost
  rw [hvisits]
  exact ⟨fun hv => ⟨hv, mt (hsource v) hlost⟩, fun hstray => hstray.1⟩

theorem purges_insert (s : SavedStore) (r : SavedRow) : s.Purges (s.insert r) := by
  refine purges_of_imp rfl ?_
  rintro v ⟨r', hr', hsource⟩
  exact ⟨r', List.mem_append_left _ hr', hsource⟩

/-- A visit changes no row of a search. -/
theorem rows_visit (s : SavedStore) (v : Visit) (now : Timestamp) :
    (s.visit v now).rows = s.rows := by
  rw [visit]
  split <;> rfl

/-- A row of a visit was there before another visit is made, or it states the time of this one. -/
theorem mem_visitRows_visit {now : Timestamp} {r : VisitRow} (h : r ∈ (s.visit v now).visitRows) :
    r ∈ s.visitRows ∨ r.visitedAt = now.fixedText := by
  rw [SavedStore.visit] at h
  split at h
  · obtain ⟨before, hbefore, rfl⟩ := List.mem_map.mp h
    split
    · exact .inr rfl
    · exact .inl hbefore
  · refine (List.mem_append.mp h).imp_right fun hnew => ?_
    rw [List.mem_singleton.mp hnew]
    rfl

/-- A visit that has a source is remembered. -/
theorem purges_visit (h : s.HasSource v) (now : Timestamp) : s.Purges (s.visit v now) := by
  intro w hlost
  have hlost : ¬ s.HasSource w := by rwa [HasSource, rows_visit] at hlost
  have hne : w ≠ v := fun heq => hlost (heq ▸ h)
  rw [mem_visits_visit_iff, or_iff_left hne]
  exact ⟨fun hw => ⟨hw, hlost⟩, fun hstray => hstray.1⟩

theorem Rewritten.visits (h : s.Rewritten t before after) : t.visits = s.visits := by
  rw [SavedStore.visits, h.visitRows, SavedStore.visits]

/-- With a search the visits of its user from there are taken out, if it is a dashboard search. -/
theorem TakenOut.mem_visits_iff (h : s.TakenOut t gone) :
    v ∈ t.visits ↔ v ∈ s.visits ∧ ¬ gone.IsSourceOf v := by
  have hsource : (gone.isDashboard = true ∧ v.user = gone.user ∧ v.source = gone.name) ↔
      gone.IsSourceOf v := by
    rw [SavedRow.IsSourceOf, eq_comm (a := gone.user), eq_comm (a := gone.name)]
    exact and_left_comm
  simp only [SavedStore.visits, h.visitRows, List.mem_map, List.mem_filter, decide_eq_true_eq]
  constructor
  · rintro ⟨r, ⟨hr, hkept⟩, rfl⟩
    exact ⟨⟨r, hr, rfl⟩, mt hsource.mpr hkept⟩
  · rintro ⟨⟨r, hr, rfl⟩, hnot⟩
    exact ⟨r, ⟨hr, mt hsource.mp hnot⟩, rfl⟩

/-- With a search the visits go that are from it. -/
theorem TakenOut.purges (h : s.TakenOut t gone) (hkeyed : s.IsKeyed) : s.Purges t := by
  intro v hlost
  have hsource : s.HasSource v ↔ gone.IsSourceOf v := by
    rw [hasSource_iff_of_row? hkeyed h.row_before, ← h.rows]
    exact or_iff_left hlost
  rw [h.mem_visits_iff, IsStray, hsource]

theorem TakenOut.isKeyed (h : s.TakenOut t gone) (hkeyed : s.IsKeyed) : t.IsKeyed := by
  rw [IsKeyed, h.rows]
  exact hkeyed.sublist (List.filter_sublist.map _)

theorem Rewritten.isKeyed (h : s.Rewritten t before after) (hkeyed : s.IsKeyed) : t.IsKeyed := by
  rw [IsKeyed, h.places]
  exact hkeyed

/-- A visit that is from no search after a row was replaced, but was before, was from this row. -/
theorem Rewritten.source_cases (h : s.Rewritten t before after) (hkeyed : s.IsKeyed)
    (hsource : s.HasSource v) :
    t.HasSource v ∨ (before.IsSourceOf v ∧ ¬ after.IsSourceOf v) := by
  rw [hasSource_iff_of_row? hkeyed h.row_before] at hsource
  rw [hasSource_iff_of_row? (h.isKeyed hkeyed) h.row_after, h.others]
  rcases hsource with hbefore | hother
  · by_cases hafter : after.IsSourceOf v
    · exact .inl (.inl hafter)
    · exact .inr ⟨hbefore, hafter⟩
  · exact .inl (.inr hother)

theorem Rewritten.purges (h : s.Rewritten t before after) (hkeyed : s.IsKeyed)
    (hsource : ∀ v, before.IsSourceOf v → after.IsSourceOf v) : s.Purges t := by
  refine purges_of_imp h.visits fun v hv => ?_
  rcases h.source_cases hkeyed hv with hv | ⟨hbefore, hafter⟩
  · exact hv
  · exact absurd (hsource v hbefore) hafter

end SavedStore

open SavedStore

/-! ## What operations do to the store -/

namespace Operation

/-- The store is as it was, or the operation has had its effect. -/
def Leaves (o : Operation) (s t : SavedStore) : Prop := t = s ∨ o.Effect s t

variable {o : Operation} {s t : SavedStore}

theorem Leaves.isKeyed (h : o.Leaves s t) (hkeyed : s.IsKeyed) : t.IsKeyed := by
  rcases h with rfl | heffect
  · exact hkeyed
  · cases o with
    | delete id user =>
      obtain ⟨gone, _, _, htaken⟩ := heffect
      exact htaken.isKeyed hkeyed
    | _ =>
      obtain ⟨before, after, _, hrewritten⟩ := heffect
      exact hrewritten.isKeyed hkeyed

/-- No operation makes a visit. -/
theorem Leaves.visitRows_subset (h : o.Leaves s t) : t.visitRows ⊆ s.visitRows := by
  rcases h with rfl | heffect
  · exact List.Subset.refl _
  cases o with
  | delete id user =>
    obtain ⟨gone, _, _, htaken⟩ := heffect
    rw [htaken.visitRows]
    exact List.filter_sublist.subset
  | _ =>
    obtain ⟨before, after, _, hrewritten⟩ := heffect
    rw [hrewritten.visitRows]
    exact List.Subset.refl _

/-- A run leaves the name of a search and that it is a dashboard search. -/
theorem Leaves.purges (h : o.Leaves s t) (hkeyed : s.IsKeyed)
    (hother : ∀ id user e, o ≠ .edit id user e) :
    s.Purges t := by
  rcases h with rfl | heffect
  · exact purges_of_imp rfl fun _ hsource => hsource
  · cases o with
    | edit id user e => exact absurd rfl (hother id user e)
    | run id user moment =>
      obtain ⟨before, after, ⟨_, _, _, found, updatedAt, _, rfl⟩, hrewritten⟩ := heffect
      exact hrewritten.purges hkeyed fun _ hsource => hsource
    | delete id user =>
      obtain ⟨gone, _, _, htaken⟩ := heffect
      exact htaken.purges hkeyed

/-- An edit leaves the visits as they are.  One that was from the search and is from none any more
is a visit of the user, and the edit gives the search another name or makes it no dashboard
search. -/
theorem Leaves.edit_cases {id user : String} {e : SearchEdit} (h : (edit id user e).Leaves s t)
    (hkeyed : s.IsKeyed) :
    t.visits = s.visits ∧ ∀ v, s.HasSource v → ¬ t.HasSource v →
      user = v.user ∧ ((∃ name, e.name = some name ∧ name ≠ v.source) ∨
        e.isDashboard = some false) := by
  rcases h with rfl | ⟨before, after, ⟨_, howner, found, updatedAt, _, hafter⟩, hrewritten⟩
  · exact ⟨rfl, fun v hsource hlost => absurd hsource hlost⟩
  · refine ⟨hrewritten.visits, fun v hsource hlost => ?_⟩
    obtain ⟨⟨huser, hdashboard, hname⟩, hnot⟩ :=
      (hrewritten.source_cases hkeyed hsource).resolve_left hlost
    refine ⟨howner.symm.trans huser, ?_⟩
    -- An edit that gives neither leaves the search as one that the visit is from.
    by_contra hkept
    rw [not_or] at hkept
    obtain ⟨hnames, hflag⟩ := hkept
    refine hnot (hafter ▸ ⟨huser, ?_, ?_⟩)
    · cases hgiven : e.isDashboard with
      | none => exact hdashboard
      | some given =>
        cases given with
        | true => rfl
        | false => exact absurd hgiven hflag
    · cases hgiven : e.name with
      | none => exact hname
      | some given =>
        by_contra hne
        exact hnames ⟨given, hgiven, hne⟩

end Operation

namespace Archive

variable {s : Archive} {id user : String} {row : SavedRow} {found : SavedSearch} (now : Timestamp)

theorem saved_edit (hown : s.saved.IsOwn id user row found) (e : SearchEdit) :
    (s.perform now (.edit id user e)).2.saved =
      s.saved.modify id ((e.rowWrite found).apply now) := by
  obtain ⟨_, _, _, _, hrevision⟩ := hown.parts
  rw [Call.edit, perform_loadOwned_of_isOwn hown, hrevision, perform_write hown.row_eq rfl]
  rfl

theorem saved_delete (hown : s.saved.IsOwn id user row found) :
    (s.perform now (.delete id user)).2.saved =
      s.saved.erase id user (if row.isDashboard then some row.name else none) := by
  obtain ⟨_, _, hname, hdashboard, _⟩ := hown.parts
  rw [Call.delete, perform_loadOwned_of_isOwn hown, hname, hdashboard]
  rfl

variable (s id user)

/-- A call on the search of a user changes nothing if there is no such search. -/
theorem leaves_loadOwned {α : Type} (o : Operation) (otherwise : Failure)
    (next : SavedSearch → Call α)
    (hnext : ∀ row found, s.saved.IsOwn id user row found →
      o.Leaves s.saved (s.perform now (.loadOwned id user otherwise next)).2.saved) :
    o.Leaves s.saved (s.perform now (.loadOwned id user otherwise next)).2.saved := by
  rcases perform_loadOwned_cases s id user otherwise next
    now with ⟨row, found, hown, _⟩ | ⟨_, f, hperform⟩
  · exact hnext row found hown
  · rw [hperform]
    exact .inl rfl

theorem leaves_edit (e : SearchEdit) :
    (Operation.edit id user e).Leaves s.saved (s.perform now (.edit id user e)).2.saved := by
  refine leaves_loadOwned s id user now _ _ _ fun row found hown => ?_
  change (Operation.edit id user e).Leaves s.saved (s.perform now (.edit id user e)).2.saved
  rw [saved_edit now hown]
  exact .inr ⟨row, _, hown.computes_edit e now, rewritten_modify hown.row_eq _ now⟩

theorem leaves_delete :
    (Operation.delete id user).Leaves s.saved (s.perform now (.delete id user)).2.saved := by
  refine leaves_loadOwned s id user now _ _ _ fun row found hown => ?_
  change (Operation.delete id user).Leaves s.saved (s.perform now (.delete id user)).2.saved
  have htaken := takenOut_erase hown.row_eq
  rw [hown.owner] at htaken
  rw [saved_delete now hown]
  exact .inr ⟨row, hown.parts.1, hown.owner, htaken⟩

theorem leaves_attempt (moment : Timestamp) (again : Failure → Call ResultPage) :
    (Operation.run id user moment).Leaves s.saved
      (s.perform now (.attempt id user moment again)).2.saved := by
  refine leaves_loadOwned s id user now _ _ _ fun row found hown => ?_
  change (Operation.run id user moment).Leaves s.saved
    (s.perform now (.attempt id user moment again)).2.saved
  rcases perform_attempt_cases hown moment again now with
    ⟨hgranted, page, t, hperform, hsaved⟩ | ⟨_, f, t, hperform, hsaved⟩
  · rw [hperform, hsaved]
    exact .inr ⟨row, _, hown.computes_run hgranted now, rewritten_modify hown.row_eq _ now⟩
  · rw [hperform]
    exact .inl hsaved

/-- An operation has its own effect or none, also if it fails behind its write. -/
theorem leaves_call (o : Operation) : o.Leaves s.saved (s.perform now o.call).2.saved := by
  cases o with
  | edit id user e => exact leaves_edit s id user now e
  | run id user moment =>
    exact leaves_attempt s id user now moment fun _ => .runWithin id user moment 1
  | delete id user => exact leaves_delete s id user now

end Archive

/-! ## Turns -/

/-- What is done to the saved searches. -/
inductive Action where
  | save (id user : String) (request : NewSearch)
  | perform (o : Operation)
  | visit (v : Visit)
  | list (user : String)

/-- An action, the time at which it is taken, and what else is in the archive by then. -/
structure Turn where
  action : Action
  now : Timestamp
  around : Archive

namespace Turn

/-- The saved searches after a turn. -/
def take (t : Turn) (s : SavedStore) : SavedStore :=
  match t.action with
  | .save id user request => ({ t.around with saved := s }.save id user request t.now).2.saved
  | .perform o => ({ t.around with saved := s }.perform t.now o.call).2.saved
  | .visit v => s.visit v t.now
  | .list _ => s

/-- Whether a turn can be taken: a search is saved under an identifier that is not in use, and a
visit is from a search. -/
def Fits (t : Turn) (s : SavedStore) : Prop :=
  match t.action with
  | .save id _ _ => s.row? id = none
  | .visit v => s.HasSource v
  | _ => True

/-- An edit by the user of the visit `v` that gives a search another name, or makes it no dashboard
search, so that the visit, which was from this search, is from none. -/
structure Abandons (t : Turn) (s : SavedStore) (v : Visit) : Prop where
  edits : ∃ id e, t.action = .perform (.edit id v.user e) ∧
    ((∃ name, e.name = some name ∧ name ≠ v.source) ∨ e.isDashboard = some false)
  kept : v ∈ s.visits
  source_before : s.HasSource v
  no_source_after : ¬ (t.take s).HasSource v

variable {t : Turn} {s : SavedStore} {v : Visit}

theorem take_save {id user : String} {request : NewSearch} (h : t.action = .save id user request) :
    t.take s = s.insert (.ofNew id user request t.now) := by
  rw [take, h]
  rfl

theorem leaves_take {o : Operation} (h : t.action = .perform o) : o.Leaves s (t.take s) := by
  rw [take, h]
  exact ({ t.around with saved := s } : Archive).leaves_call t.now o

section

variable {id user : String} {row : SavedRow} {found : SavedSearch}

theorem take_edit {e : SearchEdit} (h : t.action = .perform (.edit id user e))
    (hown : s.IsOwn id user row found) :
    t.take s = s.modify id ((e.rowWrite found).apply t.now) := by
  rw [take, h]
  exact Archive.saved_edit (s := { t.around with saved := s }) t.now hown e

theorem take_delete (h : t.action = .perform (.delete id user)) (hown : s.IsOwn id user row found) :
    t.take s = s.erase id user (if row.isDashboard then some row.name else none) := by
  rw [take, h]
  exact Archive.saved_delete (s := { t.around with saved := s }) t.now hown

end

theorem take_visit (h : t.action = .visit v) : t.take s = s.visit v t.now := by rw [take, h]

theorem take_list {user : String} (h : t.action = .list user) : t.take s = s := by rw [take, h]

/-- No turn gives two rows one identifier. -/
theorem isKeyed_take (hfits : t.Fits s) (hkeyed : s.IsKeyed) : (t.take s).IsKeyed := by
  cases haction : t.action with
  | save id user request =>
    rw [Fits, haction] at hfits
    have hfree : ∀ r ∈ s.rows, r.id ≠ id := fun r hr => by
      simpa using List.find?_eq_none.mp hfits r hr
    rw [take_save haction]
    show ((s.rows ++ [SavedRow.ofNew id user request t.now]).map (·.id)).Nodup
    rw [List.map_append, List.map_singleton, List.nodup_append]
    refine ⟨hkeyed, List.nodup_singleton _, fun a ha b hb => ?_⟩
    obtain ⟨r, hr, rfl⟩ := List.mem_map.mp ha
    rw [List.mem_singleton.mp hb]
    exact hfree r hr
  | perform o => exact (leaves_take haction).isKeyed hkeyed
  | visit v =>
    rw [take_visit haction, IsKeyed, rows_visit]
    exact hkeyed
  | list user =>
    rw [take_list haction]
    exact hkeyed

/-- A turn that is no edit takes away the visits that are from no search any more. -/
theorem purges_take (hfits : t.Fits s) (hkeyed : s.IsKeyed)
    (hother : ∀ id user e, t.action ≠ .perform (.edit id user e)) : s.Purges (t.take s) := by
  cases haction : t.action with
  | save id user request =>
    rw [take_save haction]
    exact purges_insert s _
  | perform o =>
    refine (leaves_take haction).purges hkeyed fun id user e heq => hother id user e ?_
    rw [haction, heq]
  | visit v =>
    rw [Fits, haction] at hfits
    rw [take_visit haction]
    exact purges_visit hfits t.now
  | list user =>
    rw [take_list haction]
    exact purges_of_imp rfl fun _ hsource => hsource

/-- Of the visits that are from no search after a turn, those are kept that were from none before,
and those that the turn `Abandons`. -/
theorem mem_visits_take_iff (hfits : t.Fits s) (hkeyed : s.IsKeyed)
    (hlost : ¬ (t.take s).HasSource v) :
    v ∈ (t.take s).visits ↔ s.IsStray v ∨ t.Abandons s v := by
  by_cases hedit : ∃ id user e, t.action = .perform (.edit id user e)
  · obtain ⟨id, user, e, haction⟩ := hedit
    obtain ⟨hvisits, hedits⟩ := (leaves_take haction).edit_cases hkeyed
    rw [hvisits]
    constructor
    · intro hv
      by_cases hsource : s.HasSource v
      · obtain ⟨rfl, hgiven⟩ := hedits v hsource hlost
        exact .inr ⟨⟨id, e, haction, hgiven⟩, hv, hsource, hlost⟩
      · exact .inl ⟨hv, hsource⟩
    · rintro (hstray | habandons)
      · exact hstray.1
      · exact habandons.kept
  · have hother : ∀ id user e, t.action ≠ .perform (.edit id user e) :=
      fun id user e h => hedit ⟨id, user, e, h⟩
    rw [purges_take hfits hkeyed hother v hlost]
    refine (or_iff_left fun habandons => ?_).symm
    obtain ⟨id, e, haction, _⟩ := habandons.edits
    exact hother id _ e haction

/-- A row of a visit is one that there was before the turn, or it was written by the turn. -/
theorem mem_visitRows_take {r : VisitRow} (h : r ∈ (t.take s).visitRows) :
    r ∈ s.visitRows ∨ r.visitedAt = t.now.fixedText := by
  cases haction : t.action with
  | save id user request =>
    rw [take_save haction] at h
    exact .inl h
  | perform o => exact .inl ((leaves_take haction).visitRows_subset h)
  | visit v =>
    rw [take_visit haction] at h
    exact mem_visitRows_visit h
  | list user =>
    rw [take_list haction] at h
    exact .inl h

end Turn

/-! ## Runs -/

namespace SavedStore

/-- The saved searches after some turns. -/
def after (s : SavedStore) (ts : List Turn) : SavedStore := ts.foldl (fun s t => t.take s) s

/-- Whether some turns can be taken one after the other. -/
def Admits (s : SavedStore) : List Turn → Prop
  | [] => True
  | t :: ts => t.Fits s ∧ (t.take s).Admits ts

theorem after_concat (s : SavedStore) (ts : List Turn) (t : Turn) :
    s.after (ts ++ [t]) = t.take (s.after ts) := by
  rw [after, List.foldl_append]
  rfl

theorem admits_concat_iff {t : Turn} : ∀ {ts : List Turn} {s : SavedStore},
    s.Admits (ts ++ [t]) ↔ s.Admits ts ∧ t.Fits (s.after ts)
  | [], s => by simp [Admits, after]
  | u :: ts, s => by
    rw [List.cons_append, Admits, Admits, admits_concat_iff, and_assoc]
    rfl

theorem isKeyed_after {ts : List Turn} (hadmits : empty.Admits ts) : (empty.after ts).IsKeyed := by
  induction ts using List.reverseRecOn with
  | nil => exact List.nodup_nil
  | append_singleton ts t ih =>
    obtain ⟨hadmits, hfits⟩ := admits_concat_iff.mp hadmits
    rw [after_concat]
    exact Turn.isKeyed_take hfits (ih hadmits)

/-- Some turn has abandoned the visit `v`, and the visit has not been from any search since. -/
def IsAbandoned (ts : List Turn) (v : Visit) : Prop :=
  ∃ before t later, ts = before ++ t :: later ∧ t.Abandons (empty.after before) v ∧
    ∀ between, between <+: later → ¬ (empty.after (before ++ t :: between)).HasSource v

variable {ts : List Turn} {v : Visit}

/-- A turn goes on with what was abandoned, if it gives it no search again, and abandons visits
itself. -/
theorem isAbandoned_concat_iff {t : Turn} : IsAbandoned (ts ++ [t]) v ↔
    (IsAbandoned ts v ∨ t.Abandons (empty.after ts) v) ∧
    ¬ (empty.after (ts ++ [t])).HasSource v := by
  constructor
  · rintro ⟨before, u, later, heq, habandons, hlost⟩
    -- The turn that abandons the visit is the last one, or there is a last one behind it.
    rcases List.eq_nil_or_concat later with rfl | ⟨later, w, rfl⟩
    · obtain ⟨rfl, hsame⟩ := List.append_inj' heq rfl
      obtain rfl : t = u := by simpa using hsame
      exact ⟨.inr habandons, hlost [] List.prefix_rfl⟩
    · rw [List.concat_eq_append, ← List.cons_append, ← List.append_assoc] at heq
      obtain ⟨rfl, hsame⟩ := List.append_inj' heq rfl
      obtain rfl : t = w := by simpa using hsame
      rw [List.concat_eq_append] at hlost
      refine ⟨.inl ⟨before, u, later, rfl, habandons, fun between h => hlost between ?_⟩, ?_⟩
      · exact h.trans (List.prefix_append _ _)
      · rw [List.append_assoc, List.cons_append]
        exact hlost _ List.prefix_rfl
  · rintro ⟨⟨before, u, later, rfl, habandons, hlost⟩ | habandons, hlast⟩
    · refine ⟨before, u, later ++ [t], by simp, habandons, fun between h => ?_⟩
      rcases List.prefix_concat_iff.mp h with rfl | h
      · rwa [List.append_assoc, List.cons_append] at hlast
      · exact hlost between h
    · refine ⟨ts, t, [], rfl, habandons, fun between h => ?_⟩
      rw [List.prefix_nil.mp h]
      exact hlast

/-- The visits that are from no search after a run are those that it has abandoned. -/
theorem isStray_after_iff (hadmits : empty.Admits ts) :
    (empty.after ts).IsStray v ↔ IsAbandoned ts v := by
  induction ts using List.reverseRecOn with
  | nil => simp [IsStray, IsAbandoned, after, empty, SavedStore.visits]
  | append_singleton ts t ih =>
    obtain ⟨hadmits, hfits⟩ := admits_concat_iff.mp hadmits
    rw [isAbandoned_concat_iff, ← ih hadmits, after_concat, IsStray, and_congr_left_iff]
    exact Turn.mem_visits_take_iff hfits (isKeyed_after hadmits)

/-- After any turns that can be taken from the beginning, by this user and by others: if a user has
deleted all searches,
* the visits of the user that are left are those that an edit has abandoned and that have not been
  from any search since;
* none are left if no edit by the user gives a search a name or makes it no dashboard search. -/
theorem visits_after_deleting (hadmits : empty.Admits ts) {user : String}
    (hdeleted : ∀ r ∈ (empty.after ts).rows, r.user ≠ user) :
    (∀ v : Visit, v.user = user → (v ∈ (empty.after ts).visits ↔ IsAbandoned ts v)) ∧
    ((∀ t ∈ ts, ∀ id e, t.action = .perform (.edit id user e) → e.name = none ∧
      e.isDashboard ≠ some false) →
        ∀ v ∈ (empty.after ts).visits, v.user ≠ user) := by
  have hleft : ∀ v : Visit, v.user = user → (v ∈ (empty.after ts).visits ↔ IsAbandoned ts v) := by
    intro v hv
    rw [← isStray_after_iff hadmits]
    refine (and_iff_left ?_).symm
    rintro ⟨r, hr, huser, _⟩
    exact hdeleted r hr (huser.trans hv)
  refine ⟨hleft, fun hkept v hv huser => ?_⟩
  obtain ⟨before, t, later, rfl, habandons, _⟩ := (hleft v huser).mp hv
  obtain ⟨id, e, haction, hedits⟩ := habandons.edits
  obtain ⟨hname, hflag⟩ := hkept t (by simp) id e (huser ▸ haction)
  rcases hedits with ⟨name, hgiven, _⟩ | hgiven
  · rw [hname] at hgiven
    cases hgiven
  · exact hflag hgiven

/-! ## Listing visits -/

/-- The rows of visits were written at the times of turns. -/
theorem visitedAt_after {r : VisitRow} (hr : r ∈ (empty.after ts).visitRows) :
    ∃ t ∈ ts, r.visitedAt = t.now.fixedText := by
  induction ts using List.reverseRecOn with
  | nil => cases hr
  | append_singleton ts t ih =>
    rw [after_concat] at hr
    rcases Turn.mem_visitRows_take hr with hr | htime
    · obtain ⟨u, hu, htime⟩ := ih hr
      exact ⟨u, List.mem_append_left _ hu, htime⟩
    · exact ⟨t, List.mem_append_right _ (.head _), htime⟩

/-- So each of these rows can be read, with the time of its turn, if the clock showed years of four
places. -/
theorem exists_visited_of_mem (hclock : ∀ t ∈ ts, t.now.day.HasFourPlaceYear) {r : VisitRow}
    (hr : r ∈ (empty.after ts).visitRows) : ∃ t, r.visited = .ok ⟨r.visit, t.now⟩ ∧ t ∈ ts := by
  obtain ⟨t, ht, htime⟩ := visitedAt_after hr
  refine ⟨t, ?_, ht⟩
  rw [VisitRow.visited, htime, SavedRow.time_fixedText (hclock t ht)]
  rfl

/-- After any turns at which the clock shows a year of four places, visits can be listed: what is
listed of a `user` and a `source` are the visits of this user from there, each with the time of a
turn. -/
theorem visited_after (hclock : ∀ t ∈ ts, t.now.day.HasFourPlaceYear) (user source : String) :
    ∃ nodes, (empty.after ts).visited user source = .ok nodes ∧
      (∀ n ∈ nodes, ∃ t ∈ ts, n.visitedAt = t.now) ∧
      ∀ v, (∃ n ∈ nodes, n.visit = v) ↔
        v ∈ (empty.after ts).visits ∧ v.user = user ∧ v.source = source := by
  have hread := fun r hr => exists_visited_of_mem hclock (r := r) hr
  have : Nonempty Turn := ⟨⟨.list user, .epoch, .empty (.fixed "") {} .live⟩⟩
  choose! turn hread hturn using hread
  -- The rows that are asked for, in any order.
  have hmem : ∀ r,
      r ∈ ((empty.after ts).visitRows.filter fun r =>
          r.visit.user = user ∧ r.visit.source = source).mergeSort
        (fun a b => ¬ b.visit.node < a.visit.node) ↔
      r ∈ (empty.after ts).visitRows ∧ r.visit.user = user ∧ r.visit.source = source := by
    intro r
    rw [List.mem_mergeSort, List.mem_filter, decide_eq_true_eq]
  refine ⟨_, mapM_eq_ok fun r hr => hread r ((hmem r).mp hr).1, ?_, fun v => ?_⟩
  · rintro n hn
    obtain ⟨r, hr, rfl⟩ := List.mem_map.mp hn
    exact ⟨turn r, hturn r ((hmem r).mp hr).1, rfl⟩
  · simp only [List.mem_map, hmem, visits]
    constructor
    · rintro ⟨_, ⟨r, ⟨hr, huser, hsource⟩, rfl⟩, rfl⟩
      exact ⟨⟨r, hr, rfl⟩, huser, hsource⟩
    · rintro ⟨⟨r, hr, rfl⟩, huser, hsource⟩
      exact ⟨_, ⟨r, ⟨hr, huser, hsource⟩, rfl⟩, rfl⟩

/-! ### A search that is renamed and deleted -/

open StoredQuery (clock)
open Confinement (recent)

/-- A turn in an archive that holds nothing else. -/
def turnOf (a : Action) : Turn := ⟨a, clock, .empty (.fixed "") {} .live⟩

/-- A node that `ann` opened from a dashboard search. -/
def opened : Visit := ⟨"ann", "Recent", "7"⟩

/-- The visit `opened` as it is stored. -/
def openedRow : VisitRow := .ofNew opened clock

/-- Ann saves the dashboard search, opens the node from it, edits the search and deletes it. -/
def editedTurns (e : SearchEdit) : List Turn :=
  [turnOf (.save "s" "ann" ⟨"Recent", .documents, true⟩), turnOf (.visit opened),
    turnOf (.perform (.edit "s" "ann" e)), turnOf (.perform (.delete "s" "ann"))]

theorem admits_editedTurns (e : SearchEdit) : empty.Admits (editedTurns e) :=
  ⟨rfl, ⟨_, .head _, rfl, rfl, rfl⟩, trivial, trivial, trivial⟩

/-- The row of the search after the edit `e`. -/
def editedRow (e : SearchEdit) : SavedRow :=
  (e.rowWrite ⟨"s", "ann", "Recent", .documents, true, 0, clock, clock⟩).apply clock recent

/-- The search is gone, and the visit too if the search still has its name and is a dashboard search
when it is deleted. -/
theorem after_editedTurns (e : SearchEdit) : empty.after (editedTurns e) =
    ⟨[], if (editedRow e).isDashboard = true ∧
      (editedRow e).name = "Recent" then [] else [openedRow]⟩ := by
  have hclock : clock.day.HasFourPlaceYear := by decide
  have hown : (⟨[recent], [openedRow]⟩ : SavedStore).IsOwn "s" "ann" recent
      ⟨"s", "ann", "Recent", .documents, true, 0, clock, clock⟩ :=
    ⟨rfl, SavedRow.search_ofNew hclock _ _ _, rfl⟩
  obtain ⟨new, hnew⟩ : ∃ new, (editedRow e).search = .ok new := by
    have hquery : (e.rowWrite ⟨"s", "ann", "Recent", .documents, true, 0, clock, clock⟩).query =
        (e.query.getD .documents).write := rfl
    exact Archive.exists_search_apply hown.read hquery hclock
  have hown' : (⟨[editedRow e], [openedRow]⟩ : SavedStore).IsOwn "s" "ann" (editedRow e) new :=
    ⟨rfl, hnew, rfl⟩
  have hedited : (turnOf (.perform (.edit "s" "ann" e))).take ⟨[recent], [openedRow]⟩ =
      ⟨[editedRow e], [openedRow]⟩ :=
    Turn.take_edit rfl hown
  have hsaved :
      (turnOf (.save "s" "ann" ⟨"Recent", .documents, true⟩)).take empty = ⟨[recent], []⟩ :=
    Turn.take_save rfl
  have hvisited : (turnOf (.visit opened)).take ⟨[recent], []⟩ = ⟨[recent], [openedRow]⟩ :=
    Turn.take_visit rfl
  have hid : (editedRow e).id = "s" := rfl
  rw [after, editedTurns, List.foldl_cons, List.foldl_cons, List.foldl_cons, List.foldl_cons,
    List.foldl_nil, hsaved, hvisited, hedited, Turn.take_delete rfl hown']
  -- `erase` purges under the name and the flag of the edited row, not of the one visited.
  by_cases hdashboard : (editedRow e).isDashboard = true
  · by_cases hname : (editedRow e).name = "Recent"
    · simp [erase, hdashboard, hname, hid, openedRow, VisitRow.ofNew, opened]
    · simp [erase, hdashboard, hname, hid, openedRow, VisitRow.ofNew, opened,
        eq_comm (a := "Recent")]
  · simp [erase, hdashboard, hid]

/-- The visit is abandoned if Ann renames the search, and gone if she does not. -/
theorem visits_after_deleting_recent :
    IsAbandoned (editedTurns ⟨some "Latest", none, none⟩) opened ∧
    ∀ v ∈ (empty.after (editedTurns ⟨none, some .documents, none⟩)).visits, v.user ≠ "ann" := by
  have hdeleted : ∀ e, ∀ r ∈ (empty.after (editedTurns e)).rows, r.user ≠ "ann" := by
    intro e r hr
    rw [after_editedTurns] at hr
    cases hr
  obtain ⟨hrenamed, _⟩ :=
    visits_after_deleting (admits_editedTurns ⟨some "Latest", none, none⟩) (hdeleted _)
  obtain ⟨_, hgone⟩ :=
    visits_after_deleting (admits_editedTurns ⟨none, some .documents, none⟩) (hdeleted _)
  refine ⟨(hrenamed opened rfl).mp ?_, hgone ?_⟩
  · rw [after_editedTurns]
    exact .head _
  · intro t ht id e haction
    simp only [editedTurns, List.mem_cons, List.not_mem_nil, or_false] at ht
    rcases ht with rfl | rfl | rfl | rfl
    · cases haction
    · cases haction
    · cases haction
      exact ⟨rfl, by decide⟩
    · cases haction

/-- The turns can be taken, and afterwards there is no search but still the visit. -/
def Outlasts (e : SearchEdit) : Prop :=
  empty.Admits (editedTurns e) ∧ empty.after (editedTurns e) = ⟨[], [openedRow]⟩

/-- The visit outlasts the search that Ann renames, or makes no dashboard search, before she deletes
it. -/
theorem visits_after_deleting_not :
    Outlasts ⟨some "Latest", none, none⟩ ∧ Outlasts ⟨none, none, some false⟩ := by
  have houtlasts : ∀ e, ¬ ((editedRow e).isDashboard = true ∧ (editedRow e).name = "Recent") →
      Outlasts e := by
    intro e hchanged
    refine ⟨admits_editedTurns e, ?_⟩
    rw [after_editedTurns, if_neg hchanged]
  exact ⟨houtlasts _ (by decide), houtlasts _ (by decide)⟩

end SavedStore

end DocSearch
