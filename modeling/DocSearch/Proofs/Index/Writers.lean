import DocSearch.Proofs.Index.Publishing

/-!
# Calls that write to the index at the same time

A call of the index is made in atomic steps: entering an entity is one step that deletes its
identifier and a later one that adds its document, all else is one step.  `Reaches` are the states
that an index and the calls in progress reach together, in whatever order the steps are made, with
the operations that the steps amount to: an addition counts as entering the entity and the deletion
before it as a removal.

As long as no two calls in progress enter entities of one identifier (`WriterTask.Apart`), what
waits to be added is not there.  This is the invariant, `Orderly`; a call that begins keeps it
(`Orderly.call`) and so does a step (`Orderly.step`).  So the index is that of those operations made
one after the other, with one document for each identifier (`Index.publishes_of_reaches`).

Two calls that enter entities of one identifier at the same time can both delete before either adds,
and then both documents are published (`Index.reaches_twice`).
-/

namespace DocSearch

/-! ## Steps -/

/-- A call of the index. -/
inductive WriterCall where
  | enter (e : Entity)
  | remove (id : String)
  | commit

/-- What a call has still to do: all of it, or the addition of an entity whose identifier it has
deleted. -/
inductive WriterTask where
  | whole (c : WriterCall)
  | add (e : Entity)

namespace WriterTask

/-- The index `i` after the next step of a task. -/
def act (i : Index) : WriterTask → Index
  | whole (.enter e) => i.remove e.id
  | whole (.remove id) => i.remove id
  | whole .commit => i.commit
  | add e => i.write (.add (.ofEntity e))

/-- What is left of a task after its next step. -/
def rest : WriterTask → List WriterTask
  | whole (.enter e) => [add e]
  | _ => []

/-- The operation that the next step of a task amounts to. -/
def operation : WriterTask → IndexOperation
  | whole (.enter e) => .remove e.id
  | whole (.remove id) => .remove id
  | whole .commit => .commit
  | add e => .enter e

/-- The identifier of the entity that a task enters. -/
def entering? : WriterTask → Option String
  | whole (.enter e) => some e.id
  | add e => some e.id
  | _ => none

/-- No two of the `tasks` enter entities of one identifier. -/
def Apart (tasks : List WriterTask) : Prop := (tasks.filterMap entering?).Nodup

/-- What is left of a task enters nothing that the task did not. -/
theorem sublist_entering_rest (t : WriterTask) :
    (t.rest.filterMap entering?).Sublist (entering? t).toList := by
  cases t with
  | whole c =>
    cases c with
    | enter e => exact .refl _
    | remove id => exact .refl _
    | commit => exact .refl _
  | add e => exact List.nil_sublist _

/-- What some tasks enter, with that of the task `t` in its place. -/
theorem filterMap_entering_middle (earlier later : List WriterTask) (t : WriterTask) :
    (earlier ++ t :: later).filterMap entering? =
      earlier.filterMap entering? ++ (entering? t).toList ++ later.filterMap entering? := by
  rw [List.filterMap_append, List.filterMap_cons, List.append_assoc]
  cases entering? t with
  | none => rfl
  | some id => rfl

/-- Tasks that are apart stay so when one of them makes a step. -/
theorem Apart.step {earlier later : List WriterTask} {t : WriterTask}
    (h : Apart (earlier ++ t :: later)) :
    Apart (earlier ++ t.rest ++ later) := by
  rw [Apart, filterMap_entering_middle] at h
  rw [Apart, List.filterMap_append, List.filterMap_append]
  exact h.sublist (((List.Sublist.refl _).append t.sublist_entering_rest).append (.refl _))

/-- A task that adds an entity has the identifier to itself. -/
theorem Apart.ne {earlier later : List WriterTask} {e other : Entity}
    (h : Apart (earlier ++ add e :: later))
    (hother : add other ∈ earlier ++ later) : other.id ≠ e.id := by
  have hnodup : (e.id :: (earlier ++ later).filterMap entering?).Nodup := by
    rw [List.filterMap_append, ← List.nodup_middle]
    rwa [Apart, filterMap_entering_middle, List.append_assoc] at h
  have hentering : other.id ∈ (earlier ++ later).filterMap entering? :=
    List.mem_filterMap.mpr ⟨_, hother, rfl⟩
  intro heq
  exact (List.nodup_cons.mp hnodup).1 (heq ▸ hentering)

end WriterTask

open WriterTask

/-- The states that an index and the calls in progress reach together, and the operations that the
steps so far amount to: a call begins, if the calls in progress are `allowed` then, or one of them
makes its next step. -/
inductive Reaches (allowed : List WriterTask → Prop) (excerptLength : Nat) :
    List IndexOperation → Index → List WriterTask → Prop
  | start : Reaches allowed excerptLength [] (.empty excerptLength) []
  | call {ops : List IndexOperation} {i : Index} {tasks : List WriterTask}
      (before : Reaches allowed excerptLength ops i tasks) (c : WriterCall)
      (may : allowed (whole c :: tasks)) :
      Reaches allowed excerptLength ops i (whole c :: tasks)
  | step {ops : List IndexOperation} {i : Index} {earlier later : List WriterTask} {t : WriterTask}
      (before : Reaches allowed excerptLength ops i (earlier ++ t :: later)) :
      Reaches allowed excerptLength (ops ++ [t.operation]) (t.act i) (earlier ++ t.rest ++ later)

/-- The first one of the calls in progress makes its next step. -/
theorem Reaches.head {allowed : List WriterTask → Prop} {excerptLength : Nat}
    {ops : List IndexOperation} {i : Index}
    {t : WriterTask} {later : List WriterTask}
    (h : Reaches allowed excerptLength ops i (t :: later)) :
    Reaches allowed excerptLength (ops ++ [t.operation]) (t.act i) (t.rest ++ later) :=
  @Reaches.step allowed excerptLength ops i [] later t h

/-! ## Entries of one identifier that do not overlap -/

/-- The index mirrors a store, no two calls in progress enter entities of one identifier, and what
waits to be added is not in the store. -/
structure Orderly (i : Index) (tasks : List WriterTask) (s : EntityStore) : Prop where
  mirrors : i.Mirrors s
  apart : Apart tasks
  absent : ∀ e, add e ∈ tasks → s.latest.get? e.id = none

namespace Orderly

variable {i : Index} {tasks earlier later : List WriterTask} {s : EntityStore} {t : WriterTask}

/-- A call that may begin keeps the index `Orderly`. -/
theorem call (h : Orderly i tasks s) {c : WriterCall} (hmay : Apart (whole c :: tasks)) :
    Orderly i (whole c :: tasks) s :=
  ⟨h.mirrors, hmay, fun e he => h.absent e ((List.mem_cons.mp he).resolve_left (nomatch ·))⟩

/-- What a step does to the index is what its operation does to the store. -/
theorem mirrors_step (h : Orderly i (earlier ++ t :: later) s) :
    (t.act i).Mirrors (s.after t.operation) := by
  cases t with
  | whole c =>
    cases c with
    | enter e => exact h.mirrors.after (.remove e.id)
    | remove id => exact h.mirrors.after (.remove id)
    | commit => exact h.mirrors.after .commit
  | add e =>
    refine ⟨h.mirrors.published, ?_⟩
    have habsent := h.absent e (List.mem_append_right _ (.head _))
    show Represents ((i.pending ++ [Change.add (.ofEntity e)]).foldl Change.apply i.published)
      (s.latest.insert e.id e)
    rw [List.foldl_append]
    exact h.mirrors.latest.add habsent

/-- What waited to be added before a step of another call is not there after it either. -/
theorem absent_step (h : Orderly i (earlier ++ t :: later) s) {e : Entity}
    (he : add e ∈ earlier ++ later) :
    (s.after t.operation).latest.get? e.id = none := by
  have hbefore : s.latest.get? e.id = none := by
    refine h.absent e ?_
    rcases List.mem_append.mp he with he | he
    · exact List.mem_append_left _ he
    · exact List.mem_append_right _ (.tail _ he)
  have herase : ∀ id, (s.latest.erase id).get? e.id = none := by
    intro id
    rw [SortedMap.get?_erase, hbefore, ite_self]
  cases t with
  | whole c =>
    cases c with
    | enter other => exact herase other.id
    | remove id => exact herase id
    | commit => exact hbefore
  | add other =>
    show (s.latest.insert other.id other).get? e.id = none
    rw [SortedMap.get?_insert, if_neg (h.apart.ne he), hbefore]

/-- An entity waits to be added only after its identifier was deleted. -/
theorem absent_rest {e : Entity} (he : add e ∈ t.rest) :
    (s.after t.operation).latest.get? e.id = none := by
  cases t with
  | whole c =>
    cases c with
    | enter other =>
      obtain rfl := WriterTask.add.inj (List.mem_singleton.mp he)
      show (s.latest.erase e.id).get? e.id = none
      rw [SortedMap.get?_erase, if_pos rfl]
    | remove id => cases he
    | commit => cases he
  | add other => cases he

/-- A step of a call keeps the index `Orderly`. -/
theorem step (h : Orderly i (earlier ++ t :: later) s) :
    Orderly (t.act i) (earlier ++ t.rest ++ later) (s.after t.operation) := by
  refine ⟨h.mirrors_step, h.apart.step, fun e he => ?_⟩
  rcases List.mem_append.mp he with he | he
  · rcases List.mem_append.mp he with he | he
    · exact h.absent_step (List.mem_append_left _ he)
    · exact absent_rest he
  · exact h.absent_step (List.mem_append_right _ he)

/-- Whatever the order of the steps, the index is that of their operations made one after the
other. -/
theorem of_reaches {excerptLength : Nat} {ops : List IndexOperation}
    (h : Reaches Apart excerptLength ops i tasks) :
    Orderly i tasks (.run ops) := by
  induction h with
  | start => exact ⟨⟨.empty, .empty⟩, .nil, fun e he => (nomatch he)⟩
  | call _ c may ih => exact ih.call may
  | step _ ih =>
    rw [EntityStore.run, List.foldl_append]
    exact ih.step

end Orderly

namespace Index

/-- If no two calls in progress ever enter entities of one identifier, then however the steps of the
calls are ordered, the index has published what a plain map has after their operations `ops`:
* up to their order, the documents of its entities;
* under each identifier the document of the entity of that identifier, and no other one;
* so no two documents have the same identifier. -/
theorem publishes_of_reaches {excerptLength : Nat} {ops : List IndexOperation} {i : Index}
    {tasks : List WriterTask}
    (h : Reaches Apart excerptLength ops i tasks) :
    i.published.Perm ((EntityStore.run ops).published.values.map .ofEntity) ∧
    (∀ id, i.published.filter (·.id = id) =
      ((EntityStore.run ops).published.get? id).toList.map .ofEntity) ∧
    (i.published.map (·.id)).Nodup := by
  have hpublished := (Orderly.of_reaches h).mirrors.published
  exact ⟨hpublished.perm, hpublished.filter_id_eq, hpublished.nodup_ids⟩

/-! ## Entries of one identifier that overlap -/

/-- Two calls that enter entities `e` and `e'` of one identifier, if they may be in progress
together, can leave an index that has published both. -/
theorem reaches_twice (excerptLength : Nat) {e e' : Entity} (hid : e.id = e'.id) :
    ∃ ops i, Reaches (fun _ => True) excerptLength ops i [] ∧
      i.published = [.ofEntity e, .ofEntity e'] ∧ ¬ (i.published.map (·.id)).Nodup := by
  have hstart : Reaches (fun _ => True) excerptLength _ _ [] := .start
  -- Both delete before either adds.
  have hdeleted : Reaches _ excerptLength _ _ [add e'] := (hstart.call (.enter e') trivial).head
  have hboth : Reaches _ excerptLength _ _ [add e, add e'] :=
    (hdeleted.call (.enter e) trivial).head
  have hadded : Reaches _ excerptLength _ _ [add e'] := hboth.head
  have hdone : Reaches _ excerptLength _ _ [] := hadded.head
  have hcommitted : Reaches _ excerptLength _ _ [] := (hdone.call .commit trivial).head
  refine ⟨_, _, hcommitted, rfl, ?_⟩
  intro hnodup
  exact (List.nodup_cons.mp hnodup).1 (List.mem_singleton.mpr hid)

end Index

end DocSearch
