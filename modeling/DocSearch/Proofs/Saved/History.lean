import DocSearch.Proofs.Saved.Events

/-!
# The history of saved searches

`History` relates the rows of the store to the rows that were saved and to the events since then:

* the writes to an identifier lead, revision by revision, from the row that was saved to the row
  that is there now (`Leads`);
* a row that was read is still there unless its revision has grown.

Every event that fits the rows keeps the history (`History.event`), and so does saving a search
under a new identifier (`History.save`); rows may also vanish (`History.of_rows`).  So the revision
of a row counts the writes to its identifier (`History.revision_eq`).

A history knows of no calls: which events there are, and in which order, is left to those who keep
it.
-/

namespace DocSearch

namespace Event

/-- The rows before and after a write. -/
def write? : Event → Option (SavedRow × SavedRow)
  | wrote before after => some (before, after)
  | _ => none

/-- The writes among some events. -/
def writes (log : List Event) : List (SavedRow × SavedRow) := log.filterMap write?

/-- The writes to the identifier `id`. -/
def writesTo (id : String) (log : List Event) : List (SavedRow × SavedRow) :=
  (writes log).filter (·.1.id = id)

variable {log : List Event} {e : Event}

theorem writes_append_of_none (h : e.write? = none) : writes (log ++ [e]) = writes log := by
  simp [writes, h]

theorem writes_append_wrote {before after : SavedRow} :
    writes (log ++ [.wrote before after]) = writes log ++ [(before, after)] := by
  simp [writes, write?]

theorem writesTo_append_of_none (h : e.write? = none) (id : String) :
    writesTo id (log ++ [e]) = writesTo id log := by
  rw [writesTo, writes_append_of_none h, writesTo]

theorem writesTo_append_wrote {before after : SavedRow} (id : String) :
    writesTo id (log ++ [.wrote before after]) =
      writesTo id log ++ if before.id = id then [(before, after)] else [] := by
  rw [writesTo, writes_append_wrote, List.filter_append, writesTo]
  by_cases h : before.id = id <;> simp [h]

end Event

open Event

/-- Whether writes lead from one row to another: each is made to the row that the one before it
left, and the revision grows by one. -/
def Leads : SavedRow → List (SavedRow × SavedRow) → SavedRow → Prop
  | first, [], last => last = first
  | first, w :: ws, last => w.1 = first ∧ w.2.revision = first.revision + 1 ∧ Leads w.2 ws last

namespace Leads

/-- The revision counts the writes. -/
theorem revision_eq : ∀ {ws : List (SavedRow × SavedRow)} {first last : SavedRow},
    Leads first ws last → last.revision = first.revision + ws.length
  | [], first, last, h => by
    rw [show last = first from h]
    rfl
  | w :: ws, first, last, ⟨_, hrevision, h⟩ => by
    rw [h.revision_eq, hrevision, List.length_cons]
    omega

theorem append : ∀ {ws : List (SavedRow × SavedRow)} {first before after : SavedRow},
    Leads first ws before → after.revision = before.revision + 1 →
      Leads first (ws ++ [(before, after)]) after
  | [], first, before, after, h, hrevision => by
    rw [show before = first from h] at hrevision ⊢
    exact ⟨rfl, hrevision, rfl⟩
  | w :: ws, first, before, after, ⟨hw, hfirst, h⟩, hrevision => ⟨hw, hfirst, h.append hrevision⟩

end Leads

/-- How the `rows` came about, from the rows that were `saved` and the events since then. -/
structure History (saved : List SavedRow) (log : List Event) (rows : String → Option SavedRow) :
    Prop where
  revision_saved : ∀ first ∈ saved, first.revision = 0
  saved_of_row : ∀ id r, rows id = some r → r.id = id ∧ ∃ first ∈ saved, first.id = id
  saved_of_write : ∀ w ∈ writes log, ∃ first ∈ saved, first.id = w.1.id
  leads : ∀ first ∈ saved, ∃ last, Leads first (writesTo first.id log) last ∧
    ∀ r, rows first.id = some r → r = last
  /-- What was read is still there, or there is a later revision, or nothing any more. -/
  read : ∀ id r, Event.read id (some r) ∈ log → (r.id = id ∧ ∃ first ∈ saved, first.id = id) ∧
    ∀ current, rows id = some current → current = r ∨ r.revision < current.revision

namespace History

variable {saved : List SavedRow} {log : List Event} {rows : String → Option SavedRow}

/-- The revision of a row counts the writes to its identifier. -/
theorem revision_eq (h : History saved log rows) {id : String} {r : SavedRow}
    (hr : rows id = some r) : r.revision = (writesTo id log).length := by
  obtain ⟨_, first, hfirst, rfl⟩ := h.saved_of_row id r hr
  obtain ⟨last, hleads, hlast⟩ := h.leads first hfirst
  rw [hlast r hr, hleads.revision_eq, h.revision_saved first hfirst, Nat.zero_add]

/-- Rows may vanish. -/
theorem of_rows (h : History saved log rows) {rows' : String → Option SavedRow}
    (hrows : ∀ id r, rows' id = some r → rows id = some r) : History saved log rows' where
  revision_saved := h.revision_saved
  saved_of_row id r hr := h.saved_of_row id r (hrows id r hr)
  saved_of_write := h.saved_of_write
  leads first hfirst := by
    obtain ⟨last, hleads, hlast⟩ := h.leads first hfirst
    exact ⟨last, hleads, fun r hr => hlast r (hrows _ r hr)⟩
  read id r hread := by
    obtain ⟨hsaved, hcurrent⟩ := h.read id r hread
    exact ⟨hsaved, fun current hc => hcurrent current (hrows id current hc)⟩

/-- An event that writes nothing, and reads only what is there. -/
theorem silent (h : History saved log rows) {e : Event} (hwrite : e.write? = none)
    (hread : ∀ id r, e = .read id (some r) → rows id = some r) :
      History saved (log ++ [e]) rows where
  revision_saved := h.revision_saved
  saved_of_row := h.saved_of_row
  saved_of_write := by
    rw [writes_append_of_none hwrite]
    exact h.saved_of_write
  leads first hfirst := by
    rw [writesTo_append_of_none hwrite]
    exact h.leads first hfirst
  read id r hmem := by
    rcases List.mem_append.mp hmem with hold | hnew
    · exact h.read id r hold
    · have hr := hread id r (List.mem_singleton.mp hnew).symm
      refine ⟨h.saved_of_row id r hr, fun current hc => .inl ?_⟩
      rw [hr] at hc
      exact (Option.some.inj hc).symm

/-- A write to the row that is there. -/
theorem wrote (h : History saved log rows) {before after : SavedRow}
    (hbefore : rows before.id = some before) (hid : after.id = before.id)
    (hrevision : after.revision = before.revision + 1) :
    History saved (log ++ [.wrote before after])
      (fun id => if id = before.id then some after else rows id) where
  revision_saved := h.revision_saved
  saved_of_row id r hr := by
    split at hr
    · rename_i heq
      cases hr
      exact ⟨hid.trans heq.symm, heq ▸ (h.saved_of_row _ before hbefore).2⟩
    · exact h.saved_of_row id r hr
  saved_of_write w hw := by
    rw [writes_append_wrote] at hw
    rcases List.mem_append.mp hw with hold | hnew
    · exact h.saved_of_write w hold
    · rw [List.mem_singleton.mp hnew]
      exact (h.saved_of_row _ before hbefore).2
  leads first hfirst := by
    obtain ⟨last, hleads, hlast⟩ := h.leads first hfirst
    rw [writesTo_append_wrote]
    by_cases heq : before.id = first.id
    -- The row that is written is the one that the last write to it left.
    · have hbeforeLast : before = last := hlast before (heq ▸ hbefore)
      rw [if_pos heq, ← heq, if_pos rfl]
      rw [← hbeforeLast] at hleads
      exact ⟨after, heq ▸ hleads.append hrevision, fun r hr => (Option.some.inj hr).symm⟩
    · rw [if_neg heq, if_neg (Ne.symm heq), List.append_nil]
      exact ⟨last, hleads, hlast⟩
  read id r hmem := by
    have hold : Event.read id (some r) ∈ log := by simpa using hmem
    obtain ⟨hsaved, hcurrent⟩ := h.read id r hold
    refine ⟨hsaved, fun current hc => ?_⟩
    split at hc
    · rename_i heq
      cases hc
      -- The new revision is greater than any that was read.
      rcases hcurrent before (heq ▸ hbefore) with rfl | hlt
      · exact .inr (by omega)
      · exact .inr (by omega)
    · exact hcurrent current hc

/-- An event that `Fits` the rows. -/
theorem event (h : History saved log rows) {e : Event} (fits : e.Fits rows) :
    History saved (log ++ [e]) (e.effect rows) := by
  cases e with
  | read id row =>
    refine h.silent rfl ?_
    intro id' r heq
    cases heq
    exact fits.symm
  | wrote before after => exact h.wrote fits.1 fits.2.1 fits.2.2
  | erased gone =>
    have hsilent := h.silent (e := .erased gone) rfl (by intro id r heq; cases heq)
    refine hsilent.of_rows fun id r hr => ?_
    by_cases heq : id = gone
    · simp [effect, heq] at hr
    · simpa [effect, heq] using hr
  | refused id => exact h.silent rfl (by intro id r heq; cases heq)
  | searched s q user => exact h.silent rfl (by intro id r heq; cases heq)

/-- A search that is saved under a new identifier. -/
theorem save (h : History saved log rows) (row : SavedRow)
    (fresh : ∀ first ∈ saved, first.id ≠ row.id) (hrevision : row.revision = 0) :
    History (saved ++ [row]) log (fun id => if id = row.id then some row else rows id) where
  revision_saved first hfirst := by
    rcases List.mem_append.mp hfirst with hold | hnew
    · exact h.revision_saved first hold
    · rw [List.mem_singleton.mp hnew, hrevision]
  saved_of_row id r hr := by
    split at hr
    · rename_i heq
      cases hr
      exact ⟨heq.symm, row, List.mem_append_right _ (.head _), heq.symm⟩
    · obtain ⟨hid, first, hfirst, hfirstId⟩ := h.saved_of_row id r hr
      exact ⟨hid, first, List.mem_append_left _ hfirst, hfirstId⟩
  saved_of_write w hw := by
    obtain ⟨first, hfirst, hid⟩ := h.saved_of_write w hw
    exact ⟨first, List.mem_append_left _ hfirst, hid⟩
  leads first hfirst := by
    rcases List.mem_append.mp hfirst with hold | hnew
    · rw [if_neg (fresh first hold)]
      exact h.leads first hold
    · rw [List.mem_singleton.mp hnew, if_pos rfl]
      -- Whoever wrote to the identifier had it saved before.
      have hnone : writesTo row.id log = [] := by
        refine List.filter_eq_nil_iff.mpr fun w hw => ?_
        obtain ⟨first, hfirst, hid⟩ := h.saved_of_write w hw
        simpa [← hid] using fresh first hfirst
      rw [hnone]
      exact ⟨row, rfl, fun r hr => (Option.some.inj hr).symm⟩
  read id r hmem := by
    obtain ⟨⟨hid, first, hfirst, hfirstId⟩, hcurrent⟩ := h.read id r hmem
    refine ⟨⟨hid, first, List.mem_append_left _ hfirst, hfirstId⟩, fun current hc => ?_⟩
    rw [if_neg (fun heq => fresh first hfirst (hfirstId.trans heq))] at hc
    exact hcurrent current hc

end History

end DocSearch
