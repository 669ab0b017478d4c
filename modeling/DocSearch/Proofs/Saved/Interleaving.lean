import DocSearch.Proofs.Saved.Operation
import DocSearch.Proofs.Saved.StoredQuery

/-!
# Operations side by side

A `World` is an archive with any number of operations in progress on its saved searches, and the log
of all events so far.  In a reachable world (`World.Reachable`) operations were started and their
statements taken in any order; in between searches were saved, each under an identifier of its own,
and everything but the rows of the saved searches changed as it liked.

`World.Sound` is the invariant.  It says that

* the rows have their history (`History`),
* every write is what its operation computes from the row that it replaced,
* every operation in progress still keeps to what it should do (`Call.Keeps`).

Each kind of step preserves it, with one lemma for each (`World.Sound.advance` for a statement,
which rests on `History.event` and `Call.Keeps.step`), so it holds of every reachable world
(`World.Reachable.sound`).  What is said of all interleavings in `World.writes_of_reachable` is read
off it.
-/

namespace DocSearch

open Event

/-- An operation and what is left of its call. -/
structure Process where
  operation : Operation
  rest : Call operation.Answer

/-- An archive on which operations are in progress. -/
structure World where
  archive : Archive
  /-- The rows of all searches, as they were when they were saved. -/
  saved : List SavedRow
  /-- The operations that were started, in their order; those that have ended stay. -/
  processes : List Process
  /-- The events so far, each with the number of its process. -/
  log : List (Nat × Event)

namespace World

/-- All events so far. -/
def events (w : World) : List Event := w.log.map (·.2)

/-- The events of the process `n`. -/
def eventsOf (w : World) (n : Nat) : List Event := (w.log.filter (·.1 = n)).map (·.2)

/-- The world in which nothing was done yet. -/
def initial (s : Archive) : World := ⟨s, [], [], []⟩

/-- The operation `o` is started. -/
def start (w : World) (o : Operation) : World :=
  { w with processes := w.processes ++ [⟨o, o.call⟩] }

/-- The process `n` takes the statement it waits for. -/
def advance (w : World) (n : Nat) (now : Timestamp) : World :=
  match w.processes[n]? with
  | none => w
  | some p => { w with
      archive := (Archive.step now p.rest w.archive).2
      processes := w.processes.set n ⟨p.operation, (Archive.step now p.rest w.archive).1⟩
      log := w.log ++ (p.rest.event? now w.archive).toList.map (n, ·) }

/-- A search is saved. -/
def save (w : World) (id user : String) (request : NewSearch) (now : Timestamp) : World :=
  { w with
    archive := (w.archive.save id user request now).2
    saved := w.saved ++ [.ofNew id user request now] }

theorem advance_of_some {w : World} {n : Nat} {p : Process} (hp : w.processes[n]? = some p)
    (now : Timestamp) : w.advance n now = { w with
      archive := (Archive.step now p.rest w.archive).2
      processes := w.processes.set n ⟨p.operation, (Archive.step now p.rest w.archive).1⟩
      log := w.log ++ (p.rest.event? now w.archive).toList.map (n, ·) } := by
  rw [advance, hp]

theorem events_advance {w : World} {n : Nat} {p : Process} (hp : w.processes[n]? = some p)
    (now : Timestamp) :
    (w.advance n now).events = w.events ++ (p.rest.event? now w.archive).toList := by
  rw [advance_of_some hp, events, events, List.map_append, List.map_map]
  exact congrArg _ (List.map_id _)

/-- A statement adds to the events of its process only. -/
theorem eventsOf_advance {w : World} {n : Nat} {p : Process} (hp : w.processes[n]? = some p)
    (now : Timestamp) (m : Nat) : (w.advance n now).eventsOf m =
      w.eventsOf m ++ if n = m then (p.rest.event? now w.archive).toList else [] := by
  rw [advance_of_some hp, eventsOf, eventsOf, List.filter_append, List.map_append]
  congr 1
  by_cases h : n = m
  · cases p.rest.event? now w.archive <;> simp [h]
  · cases p.rest.event? now w.archive <;> simp [h]

theorem processes_advance {w : World} {n : Nat} {p : Process} (hp : w.processes[n]? = some p)
    (now : Timestamp) : (w.advance n now).processes =
      w.processes.set n ⟨p.operation, (Archive.step now p.rest w.archive).1⟩ := by
  rw [advance_of_some hp]

/-- What is in the log was there before, or it is the event of the statement. -/
theorem mem_log_advance {w : World} {n : Nat} {p : Process} (hp : w.processes[n]? = some p)
    {now : Timestamp} {x : Nat × Event} (hx : x ∈ (w.advance n now).log) :
    x ∈ w.log ∨ ∃ e, p.rest.event? now w.archive = some e ∧ (n, e) = x := by
  rw [advance_of_some hp] at hx
  refine (List.mem_append.mp hx).imp_right fun hnew => ?_
  obtain ⟨e, he, heq⟩ := List.mem_map.mp hnew
  exact ⟨e, Option.mem_toList.mp he, heq⟩

/-- A process keeps its number and its operation, whichever process takes a statement. -/
theorem exists_process_advance {w : World} {m : Nat} {q : Process}
    (hq : w.processes[m]? = some q) (n : Nat) (now : Timestamp) :
    ∃ q', (w.advance n now).processes[m]? = some q' ∧ q'.operation = q.operation := by
  cases hp : w.processes[n]? with
  | none =>
    rw [advance, hp]
    exact ⟨q, hq, rfl⟩
  | some p =>
    rw [processes_advance hp]
    by_cases hnm : n = m
    · subst hnm
      rw [hp] at hq
      cases hq
      exact ⟨_, List.getElem?_set_self (List.getElem?_eq_some_iff.mp hp).1, rfl⟩
    · exact ⟨q, by rw [List.getElem?_set_ne hnm, hq], rfl⟩

theorem mem_events_of_mem_eventsOf {w : World} {n : Nat} {e : Event} (h : e ∈ w.eventsOf n) :
    e ∈ w.events := by
  obtain ⟨x, hx, rfl⟩ := List.mem_map.mp h
  exact List.mem_map.mpr ⟨x, (List.mem_filter.mp hx).1, rfl⟩

/-- The worlds that can come about from an archive without saved searches. -/
inductive Reachable : World → Prop where
  | initial (s : Archive) : s.saved.rows = [] → Reachable (initial s)
  | start {w : World} (o : Operation) : Reachable w → Reachable (w.start o)
  | advance {w : World} (n : Nat) (now : Timestamp) : Reachable w → Reachable (w.advance n now)
  /-- Identifiers are new ones. -/
  | save {w : World} (id user : String) (request : NewSearch) (now : Timestamp) :
      (∀ first ∈ w.saved, first.id ≠ id) → Reachable w → Reachable (w.save id user request now)
  /-- Whatever else is done to the archive. -/
  | change {w : World} (s : Archive) : s.saved.rows = w.archive.saved.rows → Reachable w →
      Reachable { w with archive := s }

/-- What holds of every reachable world. -/
structure Sound (w : World) : Prop where
  history : History w.saved w.events w.archive.saved.row?
  /-- Events are those of processes. -/
  numbered : ∀ x ∈ w.log, x.1 < w.processes.length
  /-- What was written is what the operation computes from the row it replaced. -/
  computed : ∀ n before after, (n, .wrote before after) ∈ w.log →
    ∃ p, w.processes[n]? = some p ∧ p.operation.Computes before after
  keeps : ∀ (n : Nat) (p : Process), w.processes[n]? = some p →
    p.rest.Keeps p.operation p.operation.Ends (w.eventsOf n)

namespace Sound

variable {w : World}

theorem initial {s : Archive} (h : s.saved.rows = []) : (initial s).Sound where
  history := {
    revision_saved := fun _ hfirst => nomatch hfirst
    saved_of_row := fun id r hr => by simp [World.initial, SavedStore.row?, h] at hr
    saved_of_write := fun _ hw => nomatch hw
    leads := fun _ hfirst => nomatch hfirst
    read := fun _ _ hread => nomatch hread }
  numbered := fun _ hx => nomatch hx
  computed := fun _ _ _ hx => nomatch hx
  keeps := fun n p hp => by simp [World.initial] at hp

/-- An operation that is started keeps to what it should do (`Call.keeps_call`). -/
theorem start (h : w.Sound) (o : Operation) : (w.start o).Sound where
  history := h.history
  numbered x hx := by
    rw [World.start, List.length_append]
    exact Nat.lt_add_right _ (h.numbered x hx)
  computed n before after hx := by
    obtain ⟨p, hp, hcomputes⟩ := h.computed n before after hx
    refine ⟨p, ?_, hcomputes⟩
    rw [World.start, List.getElem?_append_left (h.numbered _ hx), hp]
  keeps n p hp := by
    rw [World.start] at hp
    by_cases hn : n < w.processes.length
    · rw [List.getElem?_append_left hn] at hp
      exact h.keeps n p hp
    · rw [List.getElem?_append_right (Nat.le_of_not_lt hn)] at hp
      have hnew : p = ⟨o, o.call⟩ := by
        have hmem := List.mem_of_getElem? hp
        exact List.mem_singleton.mp hmem
      -- No event has the number of the new process yet.
      have hnone : (w.start o).eventsOf n = [] := by
        rw [eventsOf, List.map_eq_nil_iff, List.filter_eq_nil_iff]
        intro x hx
        have hlt := h.numbered x hx
        simp only [decide_eq_true_eq]
        omega
      rw [hnone, hnew]
      exact Call.keeps_call o

/-- A statement fits the rows, so their history goes on with its event. -/
theorem history_advance (h : w.Sound) {n : Nat} {p : Process} (hp : w.processes[n]? = some p)
    (now : Timestamp) : History (w.advance n now).saved (w.advance n now).events
      (w.advance n now).archive.saved.row? := by
  rw [events_advance hp, advance_of_some hp]
  dsimp only
  rw [Archive.row?_step]
  cases hevent : p.rest.event? now w.archive with
  | none =>
    rw [Option.toList_none, List.append_nil]
    exact h.history
  | some e => exact h.history.event (Archive.fits_event hevent)

/-- A statement fits the rows, so their history goes on, and its process keeps to what it should do;
the other processes did nothing. -/
theorem advance (h : w.Sound) (n : Nat) (now : Timestamp) : (w.advance n now).Sound := by
  cases hp : w.processes[n]? with
  | none =>
    rw [World.advance, hp]
    exact h
  | some p =>
    obtain ⟨hkeeps, hcomputes⟩ := (h.keeps n p hp).step now w.archive
      fun id r hread row hrow => (h.history.read id r (mem_events_of_mem_eventsOf hread)).2 row hrow
    refine ⟨h.history_advance hp now, ?_, ?_, ?_⟩
    · intro x hx
      rw [processes_advance hp, List.length_set]
      rcases mem_log_advance hp hx with hold | ⟨e, _, rfl⟩
      · exact h.numbered x hold
      · exact (List.getElem?_eq_some_iff.mp hp).1
    · intro m before after hx
      rcases mem_log_advance hp hx with hold | ⟨e, he, heq⟩
      · obtain ⟨q, hq, hcomputed⟩ := h.computed m before after hold
        obtain ⟨q', hq', hoperation⟩ := exists_process_advance hq n now
        exact ⟨q', hq', hoperation ▸ hcomputed⟩
      · cases heq
        obtain ⟨q', hq', hoperation⟩ := exists_process_advance hp n now
        exact ⟨q', hq', hoperation ▸ hcomputes before after he⟩
    · intro m q hq
      rw [processes_advance hp] at hq
      rw [eventsOf_advance hp]
      -- The process that moved has one statement less to go; no event of the others is new.
      by_cases hnm : n = m
      · subst hnm
        rw [List.getElem?_set_self (List.getElem?_eq_some_iff.mp hp).1] at hq
        cases hq
        rw [if_pos rfl]
        exact hkeeps
      · rw [List.getElem?_set_ne hnm] at hq
        rw [if_neg hnm, List.append_nil]
        exact h.keeps m q hq

/-- A search that is saved has a history of no writes. -/
theorem save (h : w.Sound) {id : String} (fresh : ∀ first ∈ w.saved, first.id ≠ id) (user : String)
    (request : NewSearch) (now : Timestamp) : (w.save id user request now).Sound where
  history := by
    have hrow : (w.save id user request now).archive.saved.row? = fun x =>
        if x = id then some (.ofNew id user request now) else w.archive.saved.row? x := by
      -- There is no row of the identifier, since none was ever saved.
      have hnone : w.archive.saved.row? id = none := by
        refine Option.eq_none_iff_forall_ne_some.mpr fun r hr => ?_
        obtain ⟨_, first, hfirst, hid⟩ := h.history.saved_of_row id r hr
        exact fresh first hfirst hid
      funext x
      exact SavedStore.row?_insert (r := .ofNew id user request now) hnone x
    rw [hrow]
    exact h.history.save (.ofNew id user request now) fresh rfl
  numbered := h.numbered
  computed := h.computed
  keeps := h.keeps

theorem change (h : w.Sound) {s : Archive} (same : s.saved.rows = w.archive.saved.rows) :
    ({ w with archive := s } : World).Sound where
  history := by
    have hrow : s.saved.row? = w.archive.saved.row? := by
      funext x
      rw [SavedStore.row?, SavedStore.row?, same]
    exact hrow ▸ h.history
  numbered := h.numbered
  computed := h.computed
  keeps := h.keeps

end Sound

/-- Every reachable world is sound. -/
theorem Reachable.sound {w : World} (h : w.Reachable) : w.Sound := by
  induction h with
  | initial s hrows => exact Sound.initial hrows
  | start o _ ih => exact ih.start o
  | advance n now _ ih => exact ih.advance n now
  | save id user request now fresh _ ih => exact ih.save fresh user request now
  | change s same _ ih => exact ih.change same

/-- However operations on saved searches are interleaved:
* the revision of a row counts the writes since the search was saved;
* the writes to it lead, revision by revision, from the row that was saved to the row that is there
  (`Leads`);
* every write is what its operation computes from the row at the revision before
  (`Operation.Computes`);
* an operation that ends with a conflict has changed nothing;
* a run that ends with a page has written once, and the page is what was found for the query
  written. -/
theorem writes_of_reachable {w : World} (h : w.Reachable) :
    (∀ id r, w.archive.saved.row? id = some r →
      r.revision = (writesTo id w.events).length ∧ ∃ first ∈ w.saved, first.id = id) ∧
    (∀ first ∈ w.saved, first.revision = 0 ∧ ∃ last, Leads first (writesTo first.id w.events) last ∧
      ∀ r, w.archive.saved.row? first.id = some r → r = last) ∧
    (∀ n before after, (n, .wrote before after) ∈ w.log →
      ∃ p, w.processes[n]? = some p ∧ p.operation.Computes before after) ∧
    (∀ (n : Nat) (p : Process) (detail : String), w.processes[n]? = some p →
      p.rest = .done (.error (.conflict detail)) → Quiet (w.eventsOf n)) ∧
    (∀ (n : Nat) (id user : String) (now : Timestamp) (page : ResultPage),
      w.processes[n]? = some ⟨.run id user now, .done (.ok page)⟩ → ∃ s q before after,
        writes (w.eventsOf n) = [(before, after)] ∧ after.query = q.write ∧
        .searched s q user ∈ w.eventsOf n ∧ (s.find q user).1 = .ok page) := by
  have sound := h.sound
  refine ⟨?_, ?_, sound.computed, ?_, ?_⟩
  · intro id r hr
    exact ⟨sound.history.revision_eq hr, (sound.history.saved_of_row id r hr).2⟩
  · intro first hfirst
    exact ⟨sound.history.revision_saved first hfirst, sound.history.leads first hfirst⟩
  · intro n p detail hp hrest
    have hkeeps := sound.keeps n p hp
    rw [hrest] at hkeeps
    exact hkeeps.1 detail rfl
  · intro n id user now page hp
    have hkeeps := sound.keeps n _ hp
    exact hkeeps.2 page rfl

/-! ## A search that is renamed while it runs -/

/-- Noon on the first of May. -/
def noon : Timestamp := ⟨⟨2024, 5, 1, by decide⟩, 43200, 0, by decide⟩

/-- A dashboard search for all documents, as it is saved. -/
def recent : SavedRow := .ofNew "s" "ann" ⟨"Recent", .documents, true⟩ noon

theorem search_recent :
    recent.search = .ok ⟨"s", "ann", "Recent", .documents, true, 0, noon, noon⟩ :=
  SavedRow.search_ofNew (by decide) _ _ _

/-- The change of a name. -/
def rename : SearchEdit := ⟨some "Latest", none, none⟩

/-- A run of the search and a change of its name have been started. -/
def started : World :=
  (((initial (.empty (.fixed "") {} .live)).save "s" "ann" ⟨"Recent", .documents, true⟩ noon).start
    (.run "s" "ann" noon)).start (.edit "s" "ann" rename)

/-- Both have read the search. -/
def bothRead : World := (started.advance 0 noon).advance 1 noon

/-- The name was written. -/
def renamed : World := bothRead.advance 1 noon

/-- The world `renamed` came about by these steps. -/
theorem reachable_renamed : renamed.Reachable := by
  have hstarted : started.Reachable := by
    refine .start _ (.start _ (.save _ _ _ _ ?_ (.initial _ rfl)))
    intro first hfirst
    cases hfirst
  exact ((hstarted.advance 0 noon).advance 1 noon).advance 1 noon

/-- The write that changes the name. -/
def latest : RowWrite := ⟨some "Latest", Description.documents.write, some true⟩

theorem log_renamed : renamed.log =
    [(0, .read "s" (some recent)), (1, .read "s" (some recent)),
      (1, .wrote recent (latest.apply noon recent))] := by
  have hstep : Archive.step noon (Call.edit "s" "ann" rename) started.archive = _ :=
    Call.step_edit rfl search_recent rfl noon
  have hwaits : bothRead.processes[1]? = some ⟨.edit "s" "ann" rename,
      (Archive.step noon (Call.edit "s" "ann" rename) started.archive).1⟩ := rfl
  rw [hstep] at hwaits
  rw [renamed, advance_of_some hwaits]
  rfl

/-- The name was written while the run went on, so the row has revision one. -/
theorem writes_of_renamed :
    (∀ r, renamed.archive.saved.row? "s" = some r → r.revision = 1) ∧
    ∃ p, renamed.processes[1]? = some p ∧
    p.operation.Computes recent (latest.apply noon recent) := by
  obtain ⟨revisions, _, computed, _⟩ := writes_of_reachable reachable_renamed
  refine ⟨fun r hr => ?_, computed 1 recent (latest.apply noon recent) ?_⟩
  · rw [(revisions "s" r hr).1, events, log_renamed]
    decide
  · rw [log_renamed]
    simp

end World

end DocSearch
