import DocSearch.Archive.Perform

/-!
# The events of calls

A call that takes a statement learns something or changes something, and an `Event` says what.

* What the statement does to the rows of the store follows from its event (`Event.effect`,
  `Archive.row?_step`).
* The event fits the rows that were there before (`Event.Fits`, `Archive.fits_event`): what was read
  is what was there, and what was written replaced the row that was there, with the next revision.

With these two a history of events can be told without the calls that made them.  A write that is to
take place under a revision is one event or another, as the row has this revision or not
(`SavedStore.swapEvent`).
-/

namespace DocSearch

/-- What happened when a call took a statement. -/
inductive Event where
  /-- The row of an identifier was read. -/
  | read (id : String) (row : Option SavedRow)
  /-- A row was written. -/
  | wrote (before after : SavedRow)
  /-- Nothing was written, as no row had the revision expected. -/
  | refused (id : String)
  /-- The row of an identifier was removed, if there was one. -/
  | erased (id : String)
  /-- The archive was searched as it was. -/
  | searched (s : Archive) (q : Description) (user : String)

namespace Event

/-- The `rows` by identifier after an event. -/
def effect (rows : String → Option SavedRow) : Event → String → Option SavedRow
  | wrote before after => fun id => if id = before.id then some after else rows id
  | erased gone => fun id => if id = gone then none else rows id
  | _ => rows

/-- Whether an event can happen to the `rows`. -/
def Fits (rows : String → Option SavedRow) : Event → Prop
  | read id row => row = rows id
  | wrote before after => rows before.id = some before ∧ after.id = before.id ∧
      after.revision = before.revision + 1
  | _ => True

end Event

/-- The event of a write that is to take place if the row has the revision `expected`. -/
def SavedStore.swapEvent (s : SavedStore) (id : String) (expected : Int) (w : RowWrite)
    (now : Timestamp) : Event :=
  match s.row? id with
  | some r => if (r.revision : Int) = expected then .wrote r (w.apply now r) else .refused id
  | none => .refused id

/-- A row is found under its identifier once it was put in, if there was none. -/
theorem SavedStore.row?_insert {s : SavedStore} {r : SavedRow} (h : s.row? r.id = none)
    (x : String) :
    (s.insert r).row? x = if x = r.id then some r else s.row? x := by
  rw [row?, insert, List.find?_append, ← row?]
  by_cases hx : x = r.id
  · rw [if_pos hx, hx, h]
    simp
  · have hr : r.id ≠ x := fun heq => hx heq.symm
    simp [hx, hr]

namespace Call

variable {α : Type}

/-- The event of the statement that a call waits for. -/
def event? (now : Timestamp) (s : Archive) : Call α → Option Event
  | .done _ => none
  | .read id _ => some (.read id (s.saved.row? id))
  | .swap id expected w _ => some (s.saved.swapEvent id expected w now)
  | .erase id _ _ _ => some (.erased id)
  | .search q user _ => some (.searched s q user)

end Call

namespace Archive

variable {α : Type}

/-- A write takes place, or it is refused and changes nothing. -/
theorem swap_cases (s : Archive) (id : String) (expected : Int) (w : RowWrite) (now : Timestamp) :
    (∃ r, s.saved.row? id = some r ∧ (r.revision : Int) = expected ∧
      s.saved.swapEvent id expected w now = .wrote r (w.apply now r) ∧
      s.swap id expected w now = (true, { s with saved := s.saved.modify id (w.apply now) })) ∨
    (s.saved.swapEvent id expected w now = .refused id ∧
      s.swap id expected w now = (false, s)) := by
  unfold SavedStore.swapEvent swap SavedStore.swap?
  cases hrow : s.saved.row? id with
  | none => exact .inr ⟨rfl, rfl⟩
  | some r =>
    by_cases hrevision : (r.revision : Int) = expected
    · exact .inl ⟨r, rfl, hrevision, by simp [hrevision], by simp [hrevision]⟩
    · exact .inr ⟨by simp [hrevision], by simp [hrevision]⟩

/-- A search leaves the saved searches alone. -/
theorem find_saved (s : Archive) (q : Description) (user : String) :
    (s.find q user).2.saved = s.saved := by
  have hcompile : (s.compile q).2.saved = s.saved := rfl
  unfold find findPage
  split
  · rename_i heq
    rw [heq] at hcompile
    exact hcompile
  · rename_i heq
    rw [heq] at hcompile
    exact hcompile

/-- The rows after a statement are those before with the `Event.effect` of its event. -/
theorem row?_step (now : Timestamp) (c : Call α) (s : Archive) :
    (step now c s).2.saved.row? =
      match c.event? now s with
      | some e => e.effect s.saved.row?
      | none => s.saved.row? := by
  cases c with
  | done answer => rfl
  | read id next => rfl
  | swap id expected w next =>
    -- A swap writes if the revision is the expected one, and does nothing otherwise.
    rcases swap_cases s id expected w now with ⟨r, hrow, _, hevent, hswap⟩ | ⟨hevent, hswap⟩
    · rw [Call.event?, hevent, step, hswap]
      funext x
      have hid := SavedStore.id_of_row? hrow
      have hmodify : (s.saved.modify id (w.apply now)).row? x =
          if x = id then (s.saved.row? x).map (w.apply now) else s.saved.row? x :=
        SavedStore.row?_modify fun _ => rfl
      rw [hmodify]
      simp only [Event.effect, hid]
      split
      · rename_i hx
        rw [hx, hrow, Option.map_some]
      · rfl
    · rw [Call.event?, hevent, step, hswap]
      rfl
  | erase id user source next =>
    funext x
    exact SavedStore.row?_erase
  | search q user next =>
    rw [step, find_saved]
    rfl

/-- The event of a statement fits the rows that were there. -/
theorem fits_event {now : Timestamp} {c : Call α} {s : Archive} {e : Event}
    (h : c.event? now s = some e) : e.Fits s.saved.row? := by
  cases c with
  | done answer => cases h
  | read id next =>
    cases h
    rfl
  | swap id expected w next =>
    cases h
    rcases swap_cases s id expected w now with ⟨r, hrow, _, hevent, _⟩ | ⟨hevent, _⟩
    · have hid := SavedStore.id_of_row? hrow
      rw [hevent]
      exact ⟨by rw [hid, hrow], rfl, rfl⟩
    · rw [hevent]
      trivial
  | erase id user source next =>
    cases h
    trivial
  | search q user next =>
    cases h
    trivial

end Archive

end DocSearch
