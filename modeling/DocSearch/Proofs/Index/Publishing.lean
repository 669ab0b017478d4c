import DocSearch.Index.Store
import DocSearch.Proofs.Sorted.Entries
import Mathlib.Data.List.Perm.Basic

/-!
# The index as a map of entities

An index is a list of documents and a list of changes that wait.  What it is meant to be is a map:
an `EntityStore` is a plain map from identifiers to entities, as of the last commit and as of now,
and every `IndexOperation` is one line on it.

* `Represents` says that a list of documents is that of a map: one document for each identifier, and
  no others.  It is kept when a document is deleted or entered (`Represents.delete`,
  `Represents.enter`).
* `Index.Mirrors` says that the published documents represent the published entities, and that after
  the changes that wait they would represent the latest ones.
* Every operation keeps this (`Index.Mirrors.after`), and so does a run of them
  (`Index.mirrors_run`).

So after any operations the searchable documents are those of the published map
(`Index.run_publishes`).
-/

namespace DocSearch

/-! ## Entities by identifier -/

/-- An operation on an index. -/
inductive IndexOperation where
  | enter (e : Entity)
  | remove (id : String)
  | commit
  | reopen

/-- Entities by identifier. -/
structure EntityStore where
  /-- The entities as of the last commit. -/
  published : SortedMap String Entity
  /-- The entities with the changes since then. -/
  latest : SortedMap String Entity

namespace EntityStore

/-- The store without entities. -/
def empty : EntityStore := ⟨.empty, .empty⟩

/-- The store after an operation. -/
def after (s : EntityStore) : IndexOperation → EntityStore
  | .enter e => { s with latest := s.latest.insert e.id e }
  | .remove id => { s with latest := s.latest.erase id }
  | .commit => { s with published := s.latest }
  | .reopen => { s with latest := s.published }

/-- The store after the operations `ops`. -/
def run (ops : List IndexOperation) : EntityStore := ops.foldl after empty

end EntityStore

namespace Index

/-- The index after an operation. -/
def after (i : Index) : IndexOperation → Index
  | .enter e => i.enter e
  | .remove id => i.remove id
  | .commit => i.commit
  | .reopen => i.reopen

/-- The index after the operations `ops`, for excerpts of `excerptLength` characters. -/
def run (excerptLength : Nat) (ops : List IndexOperation) : Index :=
  ops.foldl after (.empty excerptLength)

end Index

/-! ## Documents of a map -/

/-- Each entity of the map `m`, which is kept under its own identifier, has one document, and there
are no others. -/
structure Represents (docs : List Document) (m : SortedMap String Entity) : Prop where
  nodup_ids : (docs.map (·.id)).Nodup
  mem_iff : ∀ d, d ∈ docs ↔ ∃ e, m.get? e.id = some e ∧ d = .ofEntity e
  id_eq : ∀ {id e}, m.get? id = some e → e.id = id

namespace Represents

variable {docs : List Document} {m : SortedMap String Entity}

theorem empty : Represents [] .empty where
  nodup_ids := .nil
  mem_iff d := by simp [SortedMap.get?_empty]
  id_eq h := by cases h

/-- Deleting `id` takes its document away. -/
theorem delete (h : Represents docs m) (id : String) :
    Represents ((Change.delete id).apply docs) (m.erase id) where
  nodup_ids := h.nodup_ids.sublist (List.filter_sublist.map _)
  mem_iff d := by
    rw [Change.apply, List.mem_filter, h.mem_iff, decide_eq_true_eq]
    simp only [SortedMap.get?_erase]
    constructor
    · rintro ⟨⟨e, he, rfl⟩, hne⟩
      exact ⟨e, (if_neg hne).trans he, rfl⟩
    · rintro ⟨e, he, rfl⟩
      split at he
      · cases he
      · rename_i hne
        exact ⟨⟨e, he, rfl⟩, hne⟩
  id_eq := by
    intro x e he
    rw [SortedMap.get?_erase] at he
    split at he
    · cases he
    · exact h.id_eq he

/-- Adding the document of an entity whose identifier is not in use enters the entity. -/
theorem add (h : Represents docs m) {e : Entity} (fresh : m.get? e.id = none) :
    Represents ((Change.add (.ofEntity e)).apply docs) (m.insert e.id e) where
  nodup_ids := by
    rw [Change.apply, List.map_append, List.map_singleton, List.nodup_append]
    refine ⟨h.nodup_ids, List.nodup_singleton _, ?_⟩
    intro id hid other hother heq
    obtain ⟨d, hd, rfl⟩ := List.mem_map.mp hid
    obtain ⟨x, hx, rfl⟩ := (h.mem_iff d).mp hd
    -- A document with this identifier would be one of the entities, and there is none.
    have hsame : x.id = e.id := heq.trans (List.mem_singleton.mp hother)
    rw [hsame, fresh] at hx
    cases hx
  mem_iff d := by
    rw [Change.apply, List.mem_append, h.mem_iff, List.mem_singleton]
    simp only [SortedMap.get?_insert]
    constructor
    · rintro (⟨x, hx, rfl⟩ | rfl)
      · refine ⟨x, ?_, rfl⟩
        rw [if_neg, hx]
        intro hsame
        rw [hsame, fresh] at hx
        cases hx
      · exact ⟨e, if_pos rfl, rfl⟩
    · rintro ⟨x, hx, rfl⟩
      split at hx
      · cases hx
        exact .inr rfl
      · exact .inl ⟨x, hx, rfl⟩
  id_eq := by
    intro x a ha
    rw [SortedMap.get?_insert] at ha
    split at ha
    · rename_i hx
      cases ha
      exact hx.symm
    · exact h.id_eq ha

/-- What documents represent depends on what is stored under each identifier only. -/
theorem of_get?_eq {m' : SortedMap String Entity} (h : Represents docs m)
    (same : ∀ id, m'.get? id = m.get? id) : Represents docs m' where
  nodup_ids := h.nodup_ids
  mem_iff d := by simpa only [same] using h.mem_iff d
  id_eq he := h.id_eq (same _ ▸ he)

/-- Entering the entity `e` replaces the document of its identifier. -/
theorem enter (h : Represents docs m) (e : Entity) :
    Represents ((Change.add (.ofEntity e)).apply ((Change.delete e.id).apply docs))
    (m.insert e.id e) := by
  have hgone : (m.erase e.id).get? e.id = none := by rw [SortedMap.get?_erase, if_pos rfl]
  refine ((h.delete e.id).add hgone).of_get?_eq fun id => ?_
  rw [SortedMap.get?_insert, SortedMap.get?_insert, SortedMap.get?_erase]
  split <;> rfl

/-- The values of the map are the entities stored under their own identifiers. -/
theorem mem_values_iff (h : Represents docs m) {e : Entity} :
    e ∈ m.values ↔ m.get? e.id = some e := by
  rw [SortedMap.mem_values_iff]
  constructor
  · rintro ⟨id, hid⟩
    rwa [h.id_eq hid]
  · exact fun he => ⟨e.id, he⟩

/-- No two values of the map have one identifier. -/
theorem nodup_values (h : Represents docs m) : (m.values.map (·.id)).Nodup := by
  rw [SortedMap.map_values_eq_keys h.id_eq]
  exact m.nodup_keys

/-- Up to their order, the documents are those of the entities in the map. -/
theorem perm (h : Represents docs m) : docs.Perm (m.values.map .ofEntity) := by
  have hdocs : docs.Nodup := .of_map _ h.nodup_ids
  have hvalues : (m.values.map Document.ofEntity).Nodup := by
    refine .of_map (·.id) ?_
    rw [List.map_map]
    exact h.nodup_values
  rw [List.perm_ext_iff_of_nodup hdocs hvalues]
  intro d
  rw [h.mem_iff, List.mem_map]
  simp only [h.mem_values_iff, eq_comm]

/-- Under `id` there is the document of its entity, if there is one, and nothing else. -/
theorem filter_id_eq (h : Represents docs m) (id : String) :
    docs.filter (·.id = id) = (m.get? id).toList.map .ofEntity := by
  have hperm : (docs.filter (·.id = id)).Perm ((m.get? id).toList.map .ofEntity) := by
    have hfiltered : (docs.filter (·.id = id)).Nodup := (List.Nodup.of_map _ h.nodup_ids).filter _
    have hone : ((m.get? id).toList.map Document.ofEntity).Nodup := by
      cases m.get? id with
      | none => exact .nil
      | some e => exact List.nodup_singleton _
    rw [List.perm_ext_iff_of_nodup hfiltered hone]
    intro d
    rw [List.mem_filter, h.mem_iff, decide_eq_true_eq, List.mem_map]
    simp only [Option.mem_toList]
    constructor
    · rintro ⟨⟨e, he, rfl⟩, rfl⟩
      exact ⟨e, he, rfl⟩
    · rintro ⟨e, he, rfl⟩
      obtain rfl := h.id_eq he
      exact ⟨⟨e, he, rfl⟩, rfl⟩
  -- A list of at most one document has no other order.
  cases hid : m.get? id with
  | none =>
    rw [hid] at hperm
    exact hperm.eq_nil
  | some e =>
    rw [hid] at hperm
    exact hperm.eq_singleton

end Represents

/-! ## Runs of operations -/

namespace Index

/-- The searchable documents are those of the published entities, and would be those of the latest
ones if the changes that wait were made. -/
structure Mirrors (i : Index) (s : EntityStore) : Prop where
  published : Represents i.published s.published
  latest : Represents (i.pending.foldl Change.apply i.published) s.latest

/-- An operation on both keeps an index the mirror of its store. -/
theorem Mirrors.after {i : Index} {s : EntityStore} (h : i.Mirrors s) (op : IndexOperation) :
    (i.after op).Mirrors (s.after op) := by
  cases op with
  | enter e =>
    refine ⟨h.published, ?_⟩
    simp only [Index.after, Index.enter, Index.remove, write, List.foldl_append, List.foldl_cons,
      List.foldl_nil]
    exact h.latest.enter e
  | remove id =>
    refine ⟨h.published, ?_⟩
    simp only [Index.after, Index.remove, write, List.foldl_append, List.foldl_cons, List.foldl_nil]
    exact h.latest.delete id
  | commit => exact ⟨h.latest, h.latest⟩
  | reopen => exact ⟨h.published, h.published⟩

/-- So do operations one after the other, by induction on `ops`. -/
theorem Mirrors.foldl_after (ops : List IndexOperation) : ∀ {i : Index} {s : EntityStore},
    i.Mirrors s →
      (ops.foldl Index.after i).Mirrors (ops.foldl EntityStore.after s) := by
  induction ops with
  | nil => exact id
  | cons op ops ih => exact fun h => ih (h.after op)

/-- After any operations the index mirrors the store after the same ones. -/
theorem mirrors_run (excerptLength : Nat) (ops : List IndexOperation) :
    (run excerptLength ops).Mirrors (.run ops) := .foldl_after ops ⟨.empty, .empty⟩

/-- After any operations `ops` the index has published what a plain map from identifiers to entities
has:
* up to their order, the documents of its entities;
* under each identifier the document of the entity of that identifier, and no other one;
* as many documents as there are entities;
* so a search finds, whatever it asks, the documents of those entities that meet it. -/
theorem run_publishes (excerptLength : Nat) (ops : List IndexOperation) :
    (run excerptLength ops).published.Perm ((EntityStore.run ops).published.values.map .ofEntity) ∧
    (∀ id, (run excerptLength ops).published.filter (·.id = id) =
      ((EntityStore.run ops).published.get? id).toList.map .ofEntity) ∧
    (run excerptLength ops).size = (EntityStore.run ops).published.size ∧
    ∀ c, ((run excerptLength ops).found c).Perm
      (((EntityStore.run ops).published.values.map .ofEntity).filter c.holds) := by
  have hpublished := (mirrors_run excerptLength ops).published
  refine ⟨hpublished.perm, hpublished.filter_id_eq, ?_, fun c => hpublished.perm.filter _⟩
  rw [Index.size, hpublished.perm.length_eq, List.length_map, SortedMap.values, List.length_map,
    SortedMap.size]

end Index

end DocSearch
