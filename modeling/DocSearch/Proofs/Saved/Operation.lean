import DocSearch.Proofs.Data.Results
import DocSearch.Proofs.Saved.History

/-!
# What operations on saved searches do

Edits, dashboard runs and deletions are the operations that write.

* `Operation.Computes` says which row an operation makes of a row, and `Operation.Ends` how it
  should end: with a conflict only if it changed nothing, and with a page only if the page is what
  was found for the query it wrote.
* `Call.Keeps` says, of a call and the events it has caused, that however its statements turn out it
  writes only what its operation computes from a row that it read, and that it ends so.

Each operation keeps to that from its start (`Call.keeps_call`), for runs by induction on the
attempts that are left (`Call.keeps_runWithin`).  Every statement it takes preserves it
(`Call.Keeps.step`); this is where the revision that a write expects is needed, since a row that was
read is still there unless its revision has grown.
-/

namespace DocSearch

/-- An operation that a user asks for on the search of an identifier. -/
inductive Operation where
  | edit (id user : String) (e : SearchEdit)
  | run (id user : String) (now : Timestamp)
  | delete (id user : String)

namespace Event

/-- Whether an event changes rows. -/
def Changes : Event → Prop
  | wrote _ _ | erased _ => True
  | _ => False

/-- Whether none of some events changes a row. -/
def Quiet (log : List Event) : Prop := ∀ e ∈ log, ¬ e.Changes

variable {log : List Event} {e : Event}

theorem quiet_nil : Quiet [] := by
  intro e he
  cases he

theorem Quiet.append (h : Quiet log) (he : ¬ e.Changes) : Quiet (log ++ [e]) := by
  intro a ha
  rcases List.mem_append.mp ha with hold | hnew
  · exact h a hold
  · rwa [List.mem_singleton.mp hnew]

/-- There are no writes among events that are `Quiet`. -/
theorem Quiet.writes_eq_nil (h : Quiet log) : writes log = [] := by
  refine List.filterMap_eq_nil_iff.mpr fun e he => ?_
  have hquiet := h e he
  cases e with
  | wrote before after => exact absurd trivial hquiet
  | _ => rfl

end Event

open Event

namespace Operation

/-- What an operation answers if it succeeds. -/
def Answer : Operation → Type
  | edit _ _ _ => SavedSearch
  | run _ _ _ => ResultPage
  | delete _ _ => Unit

/-- The call that carries an operation out. -/
def call : (o : Operation) → Call o.Answer
  | edit id user e => .edit id user e
  | run id user now => .runDashboard id user now
  | delete id user => .delete id user

/-- The rows that an operation makes of a row.  An edit sets what it names and keeps the rest; a run
moves the window of the query that the row holds and keeps everything else. -/
def Computes : Operation → (before after : SavedRow) → Prop
  | edit id user e, before, after => before.id = id ∧ before.user = user ∧
      ∃ s updatedAt, before.search = .ok s ∧ after = { before with
        name := e.name.getD before.name
        query := (e.query.getD s.query).write
        isDashboard := e.isDashboard.getD before.isDashboard
        revision := before.revision + 1
        updatedAt := updatedAt }
  | run id user now, before, after => before.id = id ∧ before.user = user ∧
      before.isDashboard = true ∧ ∃ s updatedAt, before.search = .ok s ∧ after = { before with
        query := (s.query.advance now).write
        revision := before.revision + 1
        updatedAt := updatedAt }
  | delete _ _, _, _ => False

/-- A run that succeeds has written once, and shows what was found for the query it wrote. -/
def Shows : (o : Operation) → List Event → Except Failure o.Answer → Prop
  | run _ user _, log, answer => ∀ page, answer = .ok page → ∃ s q before after,
      writes log = [(before, after)] ∧ after.query = q.write ∧
      .searched s q user ∈ log ∧ (s.find q user).1 = .ok page
  | _, _, _ => True

/-- How the operation `o` ends: with a conflict only if it changed nothing. -/
def Ends (o : Operation) (log : List Event) (answer : Except Failure o.Answer) : Prop :=
  (∀ detail, answer = .error (.conflict detail) → Quiet log) ∧ o.Shows log answer

variable {o : Operation} {log : List Event}

theorem shows_error (f : Failure) : o.Shows log (.error f) := by
  cases o with
  | run id user now =>
    intro page h
    cases h
  | _ => trivial

/-- A failure that is no conflict may come at any time. -/
theorem ends_error {f : Failure} (h : ∀ detail, f ≠ .conflict detail) : o.Ends log (.error f) := by
  refine ⟨fun detail heq => ?_, shows_error f⟩
  exact absurd (Except.error.inj heq) (h detail)

theorem ends_of_quiet (h : Quiet log) (f : Failure) : o.Ends log (.error f) :=
  ⟨fun _ _ => h, shows_error f⟩

end Operation

namespace SavedRow

/-- The parts of a row that are not read from texts. -/
theorem search_eq_ok {r : SavedRow} {s : SavedSearch} (h : r.search = .ok s) : s.user = r.user ∧
    s.name = r.name ∧ s.isDashboard = r.isDashboard ∧ s.revision = r.revision := by
  obtain ⟨query, _, h⟩ := bind_eq_ok h
  obtain ⟨createdAt, _, h⟩ := bind_eq_ok h
  obtain ⟨updatedAt, _, h⟩ := bind_eq_ok h
  cases h
  exact ⟨rfl, rfl, rfl, rfl⟩

theorem description_ne_conflict (text detail : String) :
    description text ≠ .error (.conflict detail) := by
  unfold description
  split <;> simp

theorem time_ne_conflict (text detail : String) : time text ≠ .error (.conflict detail) := by
  unfold time
  split <;> simp [Failure.invalidTimestamp]

/-- A row that cannot be read is no conflict. -/
theorem search_ne_conflict (r : SavedRow) (detail : String) :
    r.search ≠ .error (.conflict detail) := by
  refine bind_ne_error (description_ne_conflict _ _) fun query => ?_
  refine bind_ne_error (time_ne_conflict _ _) fun createdAt => ?_
  refine bind_ne_error (time_ne_conflict _ _) fun updatedAt => ?_
  intro h
  cases h

end SavedRow

namespace Call

variable {α : Type} {o : Operation} {ends : List Event → Except Failure α → Prop}

/-- Whether a call, after some events, writes only what the operation `o` computes from a row that
it read under the revision it expects, and `ends` as it should, whatever it is told on the way. -/
def Keeps (o : Operation) (ends : List Event → Except Failure α → Prop) :
    Call α → List Event → Prop
  | .done answer, log => ends log answer
  | .read id next, log => ∀ row : Option SavedRow, (∀ r ∈ row, r.id = id) →
      Keeps o ends (next row) (log ++ [.read id row])
  | .swap id expected w next, log =>
    (∃ r, .read id (some r) ∈ log ∧ (r.revision : Int) = expected ∧
      ∀ now, o.Computes r (w.apply now r)) ∧
    (∀ before now, Keeps o ends (next true) (log ++ [.wrote before (w.apply now before)])) ∧
    Keeps o ends (next false) (log ++ [.refused id])
  | .erase id _ _ next, log => Keeps o ends next (log ++ [.erased id])
  | .search q user next, log => ∀ s : Archive,
      Keeps o ends (next (s.find q user).1) (log ++ [.searched s q user])

/-- A statement preserves what a call keeps to, if a row that was read is still there unless its
revision has grown.  A write is then made to the row that was read. -/
theorem Keeps.step {c : Call α} {log : List Event} (h : c.Keeps o ends log) (now : Timestamp)
    (s : Archive) (current : ∀ id r, .read id (some r) ∈ log → ∀ row, s.saved.row? id = some row →
      row = r ∨ r.revision < row.revision) :
    (Archive.step now c s).1.Keeps o ends (log ++ (c.event? now s).toList) ∧
      ∀ before after, c.event? now s = some (.wrote before after) → o.Computes before after := by
  cases c with
  | done answer =>
    refine ⟨?_, fun _ _ heq => nomatch heq⟩
    rw [Archive.step, event?, Option.toList_none, List.append_nil]
    exact h
  | read id next =>
    refine ⟨h (s.saved.row? id) fun r hr => SavedStore.id_of_row? hr, ?_⟩
    intro before after heq
    cases heq
  | swap id expected w next =>
    obtain ⟨⟨r, hread, hexpected, hcomputes⟩, htrue, hfalse⟩ := h
    rcases s.swap_cases id expected w
      now with ⟨row, hrow, hrevision, hevent, hswap⟩ | ⟨hevent, hswap⟩
    -- The revision has not grown since the row was read, so the row is still the same.
    · have hsame : row = r := by
        rcases current id r hread row hrow with heq | hlt
        · exact heq
        · omega
      rw [Archive.step, hswap, event?, hevent]
      refine ⟨htrue row now, ?_⟩
      intro before after heq
      cases heq
      exact hsame ▸ hcomputes now
    · rw [Archive.step, hswap, event?, hevent]
      refine ⟨hfalse, ?_⟩
      intro before after heq
      cases heq
  | erase id user source next =>
    refine ⟨h, ?_⟩
    intro before after heq
    cases heq
  | search q user next =>
    refine ⟨h s, ?_⟩
    intro before after heq
    cases heq

/-! ## The calls there are -/

variable {log : List Event}

/-- A call that reads a search, which may be `missing` or not readable. -/
theorem keeps_load {o : Operation} {id : String} {missing : Failure}
    {next : SavedSearch → Call o.Answer}
    (hmissing : ∀ detail, missing ≠ .conflict detail)
    (hnext : ∀ r s, r.id = id → r.search = .ok s →
      (next s).Keeps o o.Ends (log ++ [.read id (some r)])) :
    (load id missing next).Keeps o o.Ends log := by
  intro row hrow
  cases row with
  | none => exact Operation.ends_error hmissing
  | some r =>
    dsimp only
    cases hsearch : r.search with
    | error f =>
      refine Operation.ends_error fun detail heq => ?_
      exact r.search_ne_conflict detail (heq ▸ hsearch)
    | ok s => exact hnext r s (hrow r rfl) hsearch

/-- A call that reads a search of its `user`. -/
theorem keeps_loadOwned {o : Operation} {id user : String} {otherwise : Failure}
    {next : SavedSearch → Call o.Answer} (hotherwise : ∀ detail, otherwise ≠ .conflict detail)
    (hnext : ∀ r s, r.id = id → r.user = user → r.search = .ok s →
      (next s).Keeps o o.Ends (log ++ [.read id (some r)])) :
    (loadOwned id user otherwise next).Keeps o o.Ends log := by
  refine keeps_load (fun _ heq => nomatch heq) fun r s hid hsearch => ?_
  split
  · rename_i howner
    exact hnext r s hid ((SavedRow.search_eq_ok hsearch).1 ▸ howner) hsearch
  · exact Operation.ends_error hotherwise

/-- An edit that finds the search of its `user` waits for the write of what it names. -/
theorem step_edit {s : Archive} {id user : String} {row : SavedRow} {found : SavedSearch}
    {e : SearchEdit} (hrow : s.saved.row? id = some row) (hfound : row.search = .ok found)
    (howner : found.user = user) (now : Timestamp) :
    Archive.step now (edit id user e) s = (.swap id found.revision
      ⟨some (e.name.getD found.name), (e.query.getD found.query).write,
        some (e.isDashboard.getD found.isDashboard)⟩ fun
        | true => load id .searchDisappeared succeed
        | false => fail (.changedSince id found.revision), s) := by
  rw [edit, loadOwned, load, Archive.step, hrow]
  dsimp only
  rw [hfound]
  exact congrArg (fun c => (c, s)) (if_pos howner)

/-- An edit writes what it names into the row that it read, under its revision. -/
theorem keeps_edit (id user : String) (e : SearchEdit) :
    (edit id user e).Keeps (.edit id user e) (Operation.edit id user e).Ends [] := by
  refine keeps_loadOwned (o := .edit id user e) (fun _ heq => nomatch heq) ?_
  intro r s hid howner hsearch
  obtain ⟨_, hname, hdashboard, hrevision⟩ := SavedRow.search_eq_ok hsearch
  refine ⟨⟨r, by simp, by rw [hrevision], fun now => ?_⟩, fun before now => ?_, ?_⟩
  · refine ⟨hid, howner, s, now.fixedText, hsearch, ?_⟩
    rw [hname, hdashboard]
    rfl
  · refine keeps_load (o := .edit id user e) (fun _ heq => nomatch heq) ?_
    intro r s _ _
    exact ⟨by simp, trivial⟩
  · have hquiet :=
      (quiet_nil.append (e := .read id (some r)) not_false).append (e := .refused id) not_false
    exact Operation.ends_of_quiet hquiet _

/-- A deletion writes nothing. -/
theorem keeps_delete (id user : String) :
    (delete id user).Keeps (.delete id user) (Operation.delete id user).Ends [] := by
  refine keeps_loadOwned (o := .delete id user) (fun _ heq => nomatch heq) ?_
  intro r s _ _ _
  exact ⟨by simp, trivial⟩

/-! ## Dashboard runs -/

/-- How a run goes on when its query was to be written back. -/
def settle (page : ResultPage) (again : Failure → Call ResultPage) :
    Except Failure SavedSearch → Call ResultPage
  | .ok _ => succeed page
  | .error (.conflict detail) => again (.conflict detail)
  | .error e => fail e

section

variable {id user : String} {now : Timestamp} {page : ResultPage}
  {again : Failure → Call ResultPage}

theorem keeps_settle_error {f : Failure} (hf : ∀ detail, f ≠ .conflict detail) :
    (settle page again (.error f)).Keeps (.run id user now)
    (Operation.run id user now).Ends log := by
  have hends : (Operation.run id user now).Ends log (.error f) := Operation.ends_error hf
  cases f with
  | conflict detail => exact absurd rfl (hf detail)
  | _ => exact hends

/-- A search that is read when a run settles. -/
theorem keeps_load_settle {next : SavedSearch → Call SavedSearch}
    (hnext : ∀ r s, ((next s).andThen (settle page again)).Keeps (.run id user now)
      (Operation.run id user now).Ends (log ++ [.read id (some r)])) :
    ((load id (.searchNotFound id) next).andThen (settle page again)).Keeps (.run id user now)
      (Operation.run id user now).Ends log := by
  intro row _
  cases row with
  | none => exact keeps_settle_error fun _ heq => nomatch heq
  | some r =>
    dsimp only
    cases hsearch : r.search with
    | error f =>
      refine keeps_settle_error fun detail heq => ?_
      exact r.search_ne_conflict detail (heq ▸ hsearch)
    | ok s => exact hnext r s

/-- The end of an attempt, when the query that was searched for is written back. -/
theorem keeps_writeBack {s : SavedSearch} {r : SavedRow} {a : Archive} (hquiet : Quiet log)
    (hread : .read id (some r) ∈ log) (hid : r.id = id) (howner : r.user = user)
    (hdashboard : r.isDashboard = true) (hsearch : r.search = .ok s)
    (hfound : .searched a (s.query.advance now) user ∈ log)
    (hpage : (a.find (s.query.advance now) user).1 = .ok page)
    (hagain : ∀ detail log, Quiet log →
      (again (.conflict detail)).Keeps (.run id user now) (Operation.run id user now).Ends log) :
    ((replaceQuery id s.revision (s.query.advance now)).andThen (settle page again)).Keeps
      (.run id user now) (Operation.run id user now).Ends log := by
  have hrevision := (SavedRow.search_eq_ok hsearch).2.2.2
  refine ⟨⟨r, hread, by rw [hrevision], fun later => ?_⟩, fun before later => ?_, ?_⟩
  · exact ⟨hid, howner, hdashboard, s, later.fixedText, hsearch, rfl⟩
  -- Written: the events before were quiet, so this is the only write.
  · refine keeps_load_settle fun row _ => ⟨fun _ heq => (nomatch heq), fun shown heq => ?_⟩
    cases heq
    refine ⟨a, s.query.advance now, before,
      (RowWrite.ofQuery (s.query.advance now)).apply later before, ?_, rfl, ?_, hpage⟩
    · rw [writes_append_of_none rfl, writes_append_wrote, hquiet.writes_eq_nil, List.nil_append]
    · exact List.mem_append_left _ (List.mem_append_left _ hfound)
  -- Refused: nothing has changed yet, and the run may start over.
  · refine keeps_load_settle fun row _ => ?_
    have hrefused := hquiet.append (e := .refused id) not_false
    exact hagain _ _ (hrefused.append (e := .read id (some row)) not_false)

/-- An attempt to run a search, if what is done after a conflict keeps to it as well. -/
theorem keeps_attempt (hquiet : Quiet log) (hagain : ∀ detail log, Quiet log →
      (again (.conflict detail)).Keeps (.run id user now) (Operation.run id user now).Ends log) :
    (attempt id user now again).Keeps (.run id user now) (Operation.run id user now).Ends log := by
  refine keeps_loadOwned (o := .run id user now) (fun _ heq => nomatch heq) ?_
  intro r s hid howner hsearch
  have hread := hquiet.append (e := .read id (some r)) not_false
  split
  · rename_i hdashboard
    intro a
    have hsearched := hread.append (e := .searched a (s.query.advance now) user) not_false
    cases hpage : (a.find (s.query.advance now) user).1 with
    | error f => exact Operation.ends_of_quiet hsearched f
    | ok page =>
      refine keeps_writeBack hsearched (r := r) ?_ hid howner ?_ hsearch ?_ hpage hagain
      · simp
      · rw [← (SavedRow.search_eq_ok hsearch).2.2.1, hdashboard]
      · simp
  · exact Operation.ends_of_quiet hread _

/-- The induction is on the attempts that are left, the `retries`; none of those before has changed
anything. -/
theorem keeps_runWithin : ∀ {retries : Nat} {log : List Event}, Quiet log →
    (runWithin id user now retries).Keeps (.run id user now) (Operation.run id user now).Ends log
  | 0, _, hquiet => keeps_attempt hquiet fun _ _ h => Operation.ends_of_quiet h _
  | _ + 1, _, hquiet => keeps_attempt hquiet fun _ _ h => keeps_runWithin h

end

/-- Every operation keeps to what it should do. -/
theorem keeps_call (o : Operation) : o.call.Keeps o o.Ends [] := by
  cases o with
  | edit id user e => exact keeps_edit id user e
  | run id user now => exact keeps_runWithin quiet_nil
  | delete id user => exact keeps_delete id user

end Call

end DocSearch
