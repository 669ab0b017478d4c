import DocSearch.Index.Store

/-!
# What is published of an entity

A change concerns one identifier (`Change.id`) and leaves the documents of all others alone
(`Change.mem_foldl_apply_of_ne`).  So once an entity was entered, and after it only others were, a
commit publishes its document and no other one of its identifier (`Index.mem_published_storing`),
whatever the index held before.

`Index.storing` is this state; what a search finds is stated of it from here on.
-/

namespace DocSearch

/-- The identifier that a change concerns. -/
def Change.id : Change → String
  | .add d => d.id
  | .delete id => id

namespace Change

variable {d : Document}

/-- A change that concerns another identifier leaves the document `d` where it is. -/
theorem mem_apply_of_ne {c : Change} (h : c.id ≠ d.id) {docs : List Document} :
    d ∈ c.apply docs ↔ d ∈ docs := by
  cases c with
  | add a =>
    have hne : d ≠ a := fun heq => h (congrArg Document.id heq).symm
    simp [apply, hne]
  | delete id =>
    have hne : d.id ≠ id := fun heq => h heq.symm
    simp [apply, hne]

/-- Changes that concern other identifiers leave the document `d` where it is. -/
theorem mem_foldl_apply_of_ne {cs : List Change} (h : ∀ c ∈ cs, c.id ≠ d.id)
    {docs : List Document} : d ∈ cs.foldl apply docs ↔ d ∈ docs := by
  induction cs generalizing docs with
  | nil => rfl
  | cons c cs ih =>
    rw [List.foldl_cons, ih fun a ha => h a (.tail _ ha), mem_apply_of_ne (h c (.head _))]

end Change

namespace Index

/-- Changes that are written wait behind those that waited before. -/
theorem foldl_write (cs : List Change) (i : Index) :
    cs.foldl write i = { i with pending := i.pending ++ cs } := by
  induction cs generalizing i with
  | nil => simp
  | cons c cs ih => rw [List.foldl_cons, ih, write, ← List.append_cons]

/-- The index after the entity `e` was entered, the changes in `later` were made behind it, and all
was committed. -/
def storing (i : Index) (e : Entity) (later : List Change) : Index :=
  (later.foldl write (i.enter e)).commit

/-- What is published under the identifier of `e` is its document. -/
theorem mem_published_storing {i : Index} {e : Entity} {later : List Change}
    (others : ∀ c ∈ later, c.id ≠ e.id) {d : Document} (hid : d.id = e.id) :
    d ∈ (i.storing e later).published ↔ d = .ofEntity e := by
  rw [storing, foldl_write, commit, List.foldl_append,
    Change.mem_foldl_apply_of_ne (by rwa [hid])]
  simp [enter, remove, write, Change.apply, hid]

end Index

end DocSearch
