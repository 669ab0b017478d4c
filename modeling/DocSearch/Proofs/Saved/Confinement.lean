import DocSearch.Proofs.Saved.StoredQuery

/-!
# What an operation leaves alone

An operation on a saved search that nothing interferes with either fails, and then the store is as
it was, or it does what it was asked for to the search of its user (`SavedStore.IsOwn`).

* An edit or a run replaces the row (`SavedStore.Rewritten`); a deletion takes it out and with it
  the visits from a dashboard search (`SavedStore.TakenOut`).  All other rows and visits stay.
* What a call ends as is stated once for all operations (`Operation.EndsAs`), and shown for edits,
  deletions and attempts to run (`Archive.endsAs_edit`, `Archive.endsAs_delete`,
  `Archive.endsAs_attempt`).  Without interference a run is not started over
  (`Archive.endsAs_call`).

From this `Operation.effect_of_perform` says when an operation succeeds, and what it does then.  A
row that was written is read again before the operation answers, so the clock has to show a year of
four places.
-/

namespace DocSearch

/-! ## Changes of one row -/

namespace SavedStore

/-- The `row` of the identifier `id` can be read, as `found`, and belongs to the `user`. -/
structure IsOwn (s : SavedStore) (id user : String) (row : SavedRow)
    (found : SavedSearch) : Prop where
  row_eq : s.row? id = some row
  read : row.search = .ok found
  owner : row.user = user

/-- A row was replaced.  The other rows and all visits are as they were, and every row has kept its
place. -/
structure Rewritten (s t : SavedStore) (before after : SavedRow) : Prop where
  row_before : s.row? before.id = some before
  row_after : t.row? before.id = some after
  others : t.rows.filter (·.id ≠ before.id) = s.rows.filter (·.id ≠ before.id)
  places : t.rows.map (·.id) = s.rows.map (·.id)
  visitRows : t.visitRows = s.visitRows

/-- A row was taken out, and if it is that of a dashboard search, the visits of its user from
there.  All else is as it was. -/
structure TakenOut (s t : SavedStore) (gone : SavedRow) : Prop where
  row_before : s.row? gone.id = some gone
  rows : t.rows = s.rows.filter (·.id ≠ gone.id)
  visitRows : t.visitRows = s.visitRows.filter fun r =>
    ¬ (gone.isDashboard = true ∧ r.visit.user = gone.user ∧ r.visit.source = gone.name)

variable {s : SavedStore} {id user : String} {row : SavedRow} {found : SavedSearch}

/-- What is read of a row has the parts of the row. -/
theorem IsOwn.parts (h : s.IsOwn id user row found) :
    row.id = id ∧ found.user = user ∧ found.name = row.name ∧
    found.isDashboard = row.isDashboard ∧ found.revision = row.revision := by
  obtain ⟨huser, hname, hdashboard, hrevision⟩ := SavedRow.search_eq_ok h.read
  exact ⟨id_of_row? h.row_eq, huser.trans h.owner, hname, hdashboard, hrevision⟩

theorem IsOwn.unique {row' : SavedRow} {found' : SavedSearch} (h : s.IsOwn id user row found)
    (h' : s.IsOwn id user row' found') : row = row' ∧ found = found' := by
  have hrow := Option.some.inj (h.row_eq.symm.trans h'.row_eq)
  subst hrow
  exact ⟨rfl, Except.ok.inj (h.read.symm.trans h'.read)⟩

/-- Writing to a row that is there replaces it. -/
theorem rewritten_modify (hrow : s.row? id = some row) (w : RowWrite) (now : Timestamp) :
    s.Rewritten (s.modify id (w.apply now)) row (w.apply now row) := by
  obtain rfl := id_of_row? hrow
  have hid : ∀ r : SavedRow, (if r.id = row.id then w.apply now r else r).id = r.id := by
    intro r
    split
    · rfl
    · rfl
  refine ⟨hrow, ?_, ?_, ?_, rfl⟩
  · have hmodify : (s.modify row.id (w.apply now)).row? row.id =
        if row.id = row.id then (s.row? row.id).map (w.apply now) else s.row? row.id :=
          row?_modify fun _ => rfl
    rw [hmodify, if_pos rfl, hrow, Option.map_some]
  · show (s.rows.map fun r => if r.id = row.id then w.apply now r else r).filter _ = _
    have hsame : ((fun r : SavedRow => decide (r.id ≠ row.id)) ∘
        fun r => if r.id = row.id then w.apply now r else r) = fun r => decide (r.id ≠ row.id) := by
      funext r
      rw [Function.comp_apply, hid]
    rw [List.filter_map, hsame]
    -- Of the rows that are left, none has the identifier.
    have hleft : ∀ r ∈ s.rows.filter (·.id ≠ row.id),
        (if r.id = row.id then w.apply now r else r) = r := by
      intro r hr
      exact if_neg (by simpa using (List.mem_filter.mp hr).2)
    rw [List.map_congr_left hleft, List.map_id']
  · show (s.rows.map fun r => if r.id = row.id then w.apply now r else r).map _ = _
    rw [List.map_map]
    exact List.map_congr_left fun r _ => hid r

theorem takenOut_erase (hrow : s.row? id = some row) :
    s.TakenOut (s.erase id row.user (if row.isDashboard then some row.name else none)) row := by
  obtain rfl := id_of_row? hrow
  refine ⟨hrow, rfl, ?_⟩
  cases hdashboard : row.isDashboard with
  | true => simp [erase]
  | false => simp [erase]

end SavedStore

open SavedStore

/-! ## What operations do -/

/-- What an edit writes of the search `found`. -/
def SearchEdit.rowWrite (e : SearchEdit) (found : SavedSearch) : RowWrite :=
  ⟨some (e.name.getD found.name), (e.query.getD found.query).write,
    some (e.isDashboard.getD found.isDashboard)⟩

namespace Operation

/-- What an operation does to the store if it succeeds. -/
def Effect : Operation → SavedStore → SavedStore → Prop
  | delete id user, s, t => ∃ gone, gone.id = id ∧ gone.user = user ∧ s.TakenOut t gone
  | o, s, t => ∃ before after, o.Computes before after ∧ s.Rewritten t before after

/-- Whether an operation can do what it is asked for: the search can be read and is the user's own,
and what is run is a dashboard search for which something can be answered. -/
def IsGranted (s : Archive) : Operation → Prop
  | edit id user _ => ∃ row found, s.saved.IsOwn id user row found
  | run id user now => ∃ row found, s.saved.IsOwn id user row found ∧ row.isDashboard = true ∧
      ∃ page, (s.find (found.query.advance now) user).1 = .ok page
  | delete id user => ∃ row found, s.saved.IsOwn id user row found

/-- What a call answers, and the archive as it leaves it, are what an operation should end as that
writes at the time `now`. -/
def EndsAs {α : Type} (o : Operation) (s : Archive) (now : Timestamp)
    (x : Except Failure α × Archive) : Prop :=
  match x.1 with
  | .ok _ => o.IsGranted s ∧ o.Effect s.saved x.2.saved
  | .error _ => now.day.HasFourPlaceYear → ¬ o.IsGranted s ∧ x.2.saved = s.saved

/-- A call has ended as it should once it has had its effect, if it answers with a four-place year
on the clock. -/
theorem endsAs_of_effect {α : Type} {o : Operation} {s : Archive} {now : Timestamp}
    {x : Except Failure α × Archive} (hgranted : o.IsGranted s)
    (heffect : o.Effect s.saved x.2.saved)
    (hanswers : now.day.HasFourPlaceYear → ∃ a, x.1 = .ok a) : o.EndsAs s now x := by
  rw [EndsAs]
  cases hanswer : x.1 with
  | ok a => exact ⟨hgranted, heffect⟩
  | error f =>
    intro hnow
    obtain ⟨a, ha⟩ := hanswers hnow
    rw [hanswer] at ha
    cases ha

end Operation

namespace SavedStore.IsOwn

variable {s : Archive} {id user : String} {row : SavedRow} {found : SavedSearch}
  (h : s.saved.IsOwn id user row found)

include h

theorem computes_edit (e : SearchEdit) (now : Timestamp) :
    (Operation.edit id user e).Computes row ((e.rowWrite found).apply now row) := by
  obtain ⟨hid, _, hname, hdashboard, _⟩ := h.parts
  refine ⟨hid, h.owner, found, now.fixedText, h.read, ?_⟩
  rw [SearchEdit.rowWrite, hname, hdashboard]
  rfl

theorem computes_run {moment : Timestamp} (hgranted : (Operation.run id user moment).IsGranted s)
    (now : Timestamp) : (Operation.run id user moment).Computes row
      ((RowWrite.ofQuery (found.query.advance moment)).apply now row) := by
  obtain ⟨row', found', hown, hdashboard, _⟩ := hgranted
  obtain ⟨rfl, rfl⟩ := h.unique hown
  exact ⟨h.parts.1, h.owner, hdashboard, found, now.fixedText, h.read, rfl⟩

end SavedStore.IsOwn

namespace Archive

variable {s : Archive} {id user : String} {now : Timestamp}

/-- A call that goes on with the answer of another one does so where the other one ended. -/
theorem perform_andThen {α β : Type} (now : Timestamp) (next : Except Failure α → Call β) :
    ∀ (c : Call α) (s : Archive),
      perform now (c.andThen next) s = perform now (next (perform now c s).1) (perform now c s).2
  | .done _, _ => rfl
  | .read id k, s => perform_andThen now next (k (s.saved.row? id)) s
  | .swap id expected w k, s =>
    perform_andThen now next (k (s.swap id expected w now).1) (s.swap id expected w now).2
  | .erase id user source k, s => perform_andThen now next k (s.erase id user source)
  | .search q user k, s => perform_andThen now next (k (s.find q user).1) (s.find q user).2

/-- A call on the search of a `user` goes on with that search, if there is one. -/
theorem perform_loadOwned_of_isOwn {α : Type} {otherwise : Failure} {next : SavedSearch → Call α}
    {row : SavedRow} {found : SavedSearch} (hown : s.saved.IsOwn id user row found)
    (now : Timestamp) :
    perform now (.loadOwned id user otherwise next) s = perform now (next found) s := by
  rw [Call.loadOwned, perform_load hown.row_eq hown.read, if_pos hown.parts.2.1]

/-- A call on the search of a `user` goes on with that search, or it fails at once. -/
theorem perform_loadOwned_cases {α : Type} (s : Archive) (id user : String) (otherwise : Failure)
    (next : SavedSearch → Call α) (now : Timestamp) :
    (∃ row found, s.saved.IsOwn id user row found ∧
      perform now (.loadOwned id user otherwise next) s = perform now (next found) s) ∨
    (¬ ∃ row found, s.saved.IsOwn id user row found) ∧
      ∃ f, perform now (.loadOwned id user otherwise next) s = (.error f, s) := by
  by_cases howns : ∃ row found, s.saved.IsOwn id user row found
  · obtain ⟨row, found, hown⟩ := howns
    exact .inl ⟨row, found, hown, perform_loadOwned_of_isOwn hown now⟩
  -- No row, one that cannot be read, or one of another user: a failure each time.
  refine .inr ⟨howns, ?_⟩
  cases hrow : s.saved.row? id with
  | none =>
    refine ⟨.searchNotFound id, ?_⟩
    rw [Call.loadOwned, Call.load, perform, hrow]
    rfl
  | some row =>
    cases hread : row.search with
    | error f =>
      refine ⟨f, ?_⟩
      rw [Call.loadOwned, Call.load, perform, hrow]
      dsimp only
      rw [hread]
      rfl
    | ok found =>
      have howner : found.user ≠ user := fun heq =>
        howns ⟨row, found, hrow, hread, (SavedRow.search_eq_ok hread).1 ▸ heq⟩
      refine ⟨otherwise, ?_⟩
      rw [Call.loadOwned, perform_load hrow hread, if_neg howner]
      rfl

/-- A row that is written under the revision it has is read again. -/
theorem perform_write {row : SavedRow} (hrow : s.saved.row? id = some row) {w : RowWrite}
    {missing : Failure}
    {next : Bool → Call SavedSearch} (hnext : next true = .load id missing .succeed)
    (now : Timestamp) :
    perform now (.swap id row.revision w next) s =
      ((w.apply now row).search, { s with saved := s.saved.modify id (w.apply now) }) := by
  have hswap : s.swap id row.revision w now =
      (true, { s with saved := s.saved.modify id (w.apply now) }) := by
    rw [swap, swap?_eq_some_iff.mpr ⟨⟨row, hrow, rfl⟩, rfl⟩]
  rw [perform, hswap]
  dsimp only
  rw [hnext, Call.load, perform]
  dsimp only
  rw [row?_written hrow w now]
  dsimp only
  cases (w.apply now row).search with
  | ok new => rfl
  | error f => rfl

/-- What was written of a row that could be read can be read, if the clock shows a year of four
places. -/
theorem exists_search_apply {row : SavedRow} {found : SavedSearch} {w : RowWrite} {q : Description}
    (hread : row.search = .ok found) (hquery : w.query = q.write)
    (hnow : now.day.HasFourPlaceYear) :
    ∃ new, (w.apply now row).search = .ok new := by
  obtain ⟨_, _, hread⟩ := bind_eq_ok hread
  obtain ⟨createdAt, hcreated, _⟩ := bind_eq_ok hread
  exact ⟨_, SavedRow.exists_search (r := w.apply now row) hquery hcreated
    (SavedRow.time_fixedText hnow)⟩

/-! ## Edits and deletions -/

/-- An edit changes the search of its user, or fails. -/
theorem endsAs_edit (s : Archive) (id user : String) (e : SearchEdit) (now : Timestamp) :
    (Operation.edit id user e).EndsAs s now (perform now (.edit id user e) s) := by
  rw [Call.edit]
  rcases perform_loadOwned_cases s id user .notOwner _ now with
    ⟨row, found, hown, hperform⟩ | ⟨hnone, f, hperform⟩
  · obtain ⟨_, _, _, _, hrevision⟩ := hown.parts
    rw [hperform, hrevision, perform_write hown.row_eq rfl]
    have heffect : (Operation.edit id user e).Effect s.saved
        (s.saved.modify id ((e.rowWrite found).apply now)) :=
      ⟨row, _, hown.computes_edit e now, rewritten_modify hown.row_eq _ now⟩
    exact Operation.endsAs_of_effect ⟨row, found, hown⟩ heffect fun hnow =>
      exists_search_apply (w := e.rowWrite found) hown.read rfl hnow
  · rw [hperform]
    exact fun _ => ⟨hnone, rfl⟩

theorem endsAs_delete (s : Archive) (id user : String) (now : Timestamp) :
    (Operation.delete id user).EndsAs s now (perform now (.delete id user) s) := by
  rw [Call.delete]
  rcases perform_loadOwned_cases s id user .notOwner _ now with
    ⟨row, found, hown, hperform⟩ | ⟨hnone, f, hperform⟩
  · obtain ⟨hid, _, hname, hdashboard, _⟩ := hown.parts
    rw [hperform, hname, hdashboard]
    refine ⟨⟨row, found, hown⟩, row, hid, hown.owner, ?_⟩
    have htaken := takenOut_erase hown.row_eq
    rwa [hown.owner] at htaken
  · rw [hperform]
    exact fun _ => ⟨hnone, rfl⟩

/-! ## Runs -/

/-- A run ends if its query cannot be written back, unless that is for another write. -/
theorem settle_error {page : ResultPage} {again : Failure → Call ResultPage} {f : Failure}
    (hf : ∀ detail, f ≠ .conflict detail) : Call.settle page again (.error f) = .fail f := by
  cases f with
  | conflict detail => exact absurd rfl (hf detail)
  | _ => rfl

/-- A run that has found a page and writes the query back under the revision of the row answers with
the page, or the row cannot be read any more. -/
theorem perform_writeBack {row : SavedRow} (hrow : s.saved.row? id = some row) (q : Description)
    (page : ResultPage)
    (again : Failure → Call ResultPage) (now : Timestamp) :
    perform now ((Call.replaceQuery id row.revision q).andThen (Call.settle page again)) s =
      (((RowWrite.ofQuery q).apply now row).search.map fun _ => page,
        { s with saved := s.saved.modify id ((RowWrite.ofQuery q).apply now) }) := by
  rw [perform_andThen, Call.replaceQuery, perform_write hrow rfl]
  cases hread : ((RowWrite.ofQuery q).apply now row).search with
  | ok new => rfl
  | error f =>
    dsimp only
    rw [settle_error fun detail heq => SavedRow.search_ne_conflict _ detail (heq ▸ hread)]
    rfl

/-- Whether a run is granted depends on what is found for the search that is run. -/
theorem isGranted_run_iff {row : SavedRow} {found : SavedSearch}
    (hown : s.saved.IsOwn id user row found)
    {moment : Timestamp} : (Operation.run id user moment).IsGranted s ↔
      row.isDashboard = true ∧ ∃ page, (s.find (found.query.advance moment) user).1 = .ok page := by
  constructor
  · rintro ⟨row', found', hown', hgranted⟩
    obtain ⟨rfl, rfl⟩ := hown.unique hown'
    exact hgranted
  · exact fun hgranted => ⟨row, found, hown, hgranted⟩

/-- An attempt to run the search of its user writes the query back that it has searched for, or it
fails and writes nothing. -/
theorem perform_attempt_cases {row : SavedRow} {found : SavedSearch}
    (hown : s.saved.IsOwn id user row found) (moment : Timestamp)
    (again : Failure → Call ResultPage) (now : Timestamp) :
    ((Operation.run id user moment).IsGranted s ∧ ∃ page t,
      perform now (.attempt id user moment again) s =
        (((RowWrite.ofQuery (found.query.advance moment)).apply now row).search.map fun _ => page,
          t) ∧
      t.saved = s.saved.modify id ((RowWrite.ofQuery (found.query.advance moment)).apply now)) ∨
    (¬ (Operation.run id user moment).IsGranted s ∧ ∃ f t,
      perform now (.attempt id user moment again) s = (.error f, t) ∧ t.saved = s.saved) := by
  obtain ⟨_, _, _, hdashboard, hrevision⟩ := hown.parts
  rw [Call.attempt, perform_loadOwned_of_isOwn hown, isGranted_run_iff hown, ← hdashboard]
  by_cases hruns : found.isDashboard = true
  · rw [if_pos hruns, perform]
    have hsaved := find_saved s (found.query.advance moment) user
    cases hfind : (s.find (found.query.advance moment) user).1 with
    | error f =>
      refine .inr ⟨?_, f, _, rfl, hsaved⟩
      rintro ⟨_, page, heq⟩
      cases heq
    | ok page =>
      have hrow : (s.find (found.query.advance moment) user).2.saved.row? id = some row := by
        rw [hsaved, hown.row_eq]
      -- Between reading and writing nothing else happens here, so the revision still fits.
      have hback := perform_writeBack hrow (found.query.advance moment) page again now
      rw [← hrevision, hsaved] at hback
      exact .inl ⟨⟨hruns, page, rfl⟩, page, _, hback, rfl⟩
  · rw [if_neg hruns]
    exact .inr ⟨fun h => hruns h.1, _, s, rfl, rfl⟩

/-- An attempt to run a search changes its window, or fails. -/
theorem endsAs_attempt (s : Archive) (id user : String) (moment : Timestamp)
    (again : Failure → Call ResultPage) (now : Timestamp) :
    (Operation.run id user moment).EndsAs s now
      (perform now (.attempt id user moment again) s) := by
  rcases perform_loadOwned_cases s id user (.otherOwner id) _ now with
    ⟨row, found, hown, _⟩ | ⟨hnone, f, hperform⟩
  · rcases perform_attempt_cases hown moment again now with
      ⟨hgranted, page, t, hperform, hsaved⟩ | ⟨hnot, f, t, hperform, hsaved⟩
    · have heffect : (Operation.run id user moment).Effect s.saved t.saved := by
        rw [hsaved]
        exact ⟨row, _, hown.computes_run hgranted now, rewritten_modify hown.row_eq _ now⟩
      rw [hperform]
      refine Operation.endsAs_of_effect hgranted heffect fun hnow => ?_
      obtain ⟨new, hnew⟩ := exists_search_apply
        (w := .ofQuery (found.query.advance moment)) hown.read rfl hnow
      rw [hnew]
      exact ⟨page, rfl⟩
    · rw [hperform]
      exact fun _ => ⟨hnot, hsaved⟩
  · rw [Call.attempt, hperform]
    refine fun _ => ⟨?_, rfl⟩
    rintro ⟨row, found, hown, _⟩
    exact hnone ⟨row, found, hown⟩

/-- Without interference a run is not started over. -/
theorem endsAs_call (o : Operation) (s : Archive) (now : Timestamp) :
    o.EndsAs s now (perform now o.call s) := by
  cases o with
  | edit id user e => exact endsAs_edit s id user e now
  | run id user moment =>
    exact endsAs_attempt s id user moment (fun _ => .runWithin id user moment 1) now
  | delete id user => exact endsAs_delete s id user now

end Archive

/-- An operation on saved searches that nothing interferes with
* leaves the store as it was if it fails;
* has its effect on the search of its user, and no other, if it succeeds (`Operation.Effect`);
* succeeds iff the search can be read and is the user's own and, if it is to be run, is a dashboard
  search for which something can be answered (`Operation.IsGranted`).

The first and the last hold if the clock shows a year of four places when the operation writes. -/
theorem Operation.effect_of_perform (o : Operation) (s : Archive) (now : Timestamp) :
    (now.day.HasFourPlaceYear → ∀ f, (s.perform now o.call).1 = .error f →
      (s.perform now o.call).2.saved = s.saved) ∧
    (∀ answer, (s.perform now o.call).1 = .ok answer →
      o.Effect s.saved (s.perform now o.call).2.saved) ∧
    (now.day.HasFourPlaceYear →
      ((∃ answer, (s.perform now o.call).1 = .ok answer) ↔ o.IsGranted s)) := by
  have hends := s.endsAs_call o now
  unfold EndsAs at hends
  cases hanswer : (s.perform now o.call).1 with
  | ok answer =>
    rw [hanswer] at hends
    exact ⟨fun _ f hf => (nomatch hf), fun _ _ => hends.2,
      fun _ => ⟨fun _ => hends.1, fun _ => ⟨answer, rfl⟩⟩⟩
  | error f =>
    rw [hanswer] at hends
    refine ⟨fun hnow _ _ => (hends hnow).2, fun _ h => (nomatch h),
      fun hnow => ⟨?_, fun hgranted => ?_⟩⟩
    · rintro ⟨answer, h⟩
      cases h
    · exact absurd hgranted (hends hnow).1

/-! ### A search that its owner runs and deletes -/

namespace Confinement

open StoredQuery (clock)

/-- A dashboard search of `ann`. -/
def recent : SavedRow := .ofNew "s" "ann" ⟨"Recent", .documents, true⟩ clock

/-- A dashboard search of `bob` that has the same name. -/
def another : SavedRow := .ofNew "t" "bob" ⟨"Recent", .documents, true⟩ clock

/-- An archive with the two searches and visits from them and from one that `ann` has no more. -/
def kept : Archive :=
  { Archive.empty (.fixed "") {} .live with
    saved := ⟨[recent, another],
      [.ofNew ⟨"ann", "Recent", "7"⟩ clock, .ofNew ⟨"ann", "Latest", "7"⟩ clock,
      .ofNew ⟨"bob", "Recent", "7"⟩ clock]⟩ }

theorem isOwn_recent : kept.saved.IsOwn "s" "ann" recent
    ⟨"s", "ann", "Recent", .documents, true, 0, clock, clock⟩ :=
  ⟨rfl, SavedRow.search_ofNew (by decide) _ _ _, rfl⟩

theorem isGranted_run : (Operation.run "s" "ann" clock).IsGranted kept := by
  refine ⟨recent, _, isOwn_recent, rfl, ⟨0, []⟩, ?_⟩
  decide +kernel

/-- `bob` cannot run the search.  When `ann` runs it, its window is moved, and when she deletes it,
her visits from there are gone; the search of `bob` and all other visits stay. -/
theorem effect_of_perform_recent :
    (kept.perform clock (Operation.run "s" "bob" clock).call).2.saved = kept.saved ∧
    (∃ after, after.query = (Description.documents.advance clock).write ∧
      kept.saved.Rewritten (kept.perform clock (Operation.run "s" "ann" clock).call).2.saved
        recent after) ∧
    (kept.perform clock (Operation.delete "s" "ann").call).2.saved =
      ⟨[another], [.ofNew ⟨"ann", "Latest", "7"⟩ clock, .ofNew ⟨"bob", "Recent", "7"⟩ clock]⟩ := by
  have hclock : clock.day.HasFourPlaceYear := by decide
  obtain ⟨hkeeps, _, hgranted⟩ := (Operation.run "s" "bob" clock).effect_of_perform kept clock
  obtain ⟨_, hruns, hrun⟩ := (Operation.run "s" "ann" clock).effect_of_perform kept clock
  obtain ⟨_, hdeletes, hdelete⟩ := (Operation.delete "s" "ann").effect_of_perform kept clock
  refine ⟨?_, ?_, ?_⟩
  · cases hanswer : (kept.perform clock (Operation.run "s" "bob" clock).call).1 with
    | error f => exact hkeeps hclock f hanswer
    | ok page =>
      -- A page would make the search one of `bob`.
      obtain ⟨row, found, hown, _⟩ := (hgranted hclock).mp ⟨page, hanswer⟩
      have hrow := Option.some.inj (hown.row_eq.symm.trans isOwn_recent.row_eq)
      have howner := hown.owner
      rw [hrow] at howner
      exact absurd howner (by decide)
  · obtain ⟨page, hpage⟩ := (hrun hclock).mpr isGranted_run
    obtain ⟨before, after, ⟨hid, _, _, found, _, hread, hafter⟩, hrewritten⟩ := hruns page hpage
    have hrow := hrewritten.row_before
    rw [hid] at hrow
    obtain rfl := Option.some.inj (hrow.symm.trans isOwn_recent.row_eq)
    obtain rfl := Except.ok.inj (hread.symm.trans isOwn_recent.read)
    exact ⟨after, by rw [hafter], hrewritten⟩
  · obtain ⟨answer, hanswer⟩ := (hdelete hclock).mpr ⟨recent, _, isOwn_recent⟩
    obtain ⟨gone, hid, _, htaken⟩ := hdeletes answer hanswer
    have hrow := htaken.row_before
    rw [hid] at hrow
    obtain rfl := Option.some.inj (hrow.symm.trans isOwn_recent.row_eq)
    have hrows := htaken.rows
    have hvisits := htaken.visitRows
    cases hsaved : (kept.perform clock (Operation.delete "s" "ann").call).2.saved with
    | mk rows visits =>
      rw [hsaved] at hrows hvisits
      show (⟨rows, visits⟩ : SavedStore) = _
      rw [show rows = _ from hrows, show visits = _ from hvisits]
      rfl

end Confinement

end DocSearch
