import DocSearch.Archive.Find
import DocSearch.Proofs.Repository.Built

/-!
# Answers of an index as a user is shown them

`ResultPage.Shows` says what a user is shown for an answer of an index, whatever the index is: its
failure, the first hit without an entity, or the hits that the user may read.

* Hits whose entities all exist are gone through one by one (`IndexHit.readable_eq`), and those that
  the user may read are shown in their order (`IndexHit.filterMap_shownTo?_eq_iff`).
* Otherwise there is a first hit without an entity, which fails the page
  (`IndexHit.exist_or_missing`, `IndexHit.readable_of_missing`).

What comes out is what `Shows` says (`ResultPage.shows_ofAnswer`) and nothing else
(`ResultPage.eq_ofAnswer_of_shows`); together, and for the searches of an archive, that is
`ResultPage.ofAnswer_eq_iff`.
-/

namespace DocSearch

/-! ## What a user may read -/

/-- A hit as a `user` is shown it, if the user may read the entity. -/
def IndexHit.shownTo? (r : Repository) (user : String) (h : IndexHit) : Option Hit :=
  (r.summary? h.id user).join.map fun entity => ⟨h.excerpt, h.score.percent, entity⟩

/-- If all entities exist, the `user` is shown the hits that the user may read. -/
theorem IndexHit.readable_eq {r : Repository} {user : String} : ∀ {hits : List IndexHit},
    (∀ h ∈ hits, ∃ n, r.nodes.get? h.id = some n) →
      readable r user hits = .ok (hits.filterMap (shownTo? r user))
  | [], _ => rfl
  | h :: hits, exist => by
    have ih : readable r user hits = .ok (hits.filterMap (shownTo? r user)) :=
      readable_eq fun x hx => exist x (.tail _ hx)
    obtain ⟨n, hn⟩ := exist h (.head _)
    rw [readable, ih]
    cases hsummary : r.summary? h.id user with
    | none =>
      rw [Repository.summary?, hn] at hsummary
      cases hsummary
    | some entity? =>
      cases entity? with
      | none =>
        have hshown : shownTo? r user h = none := by
          rw [shownTo?, hsummary]
          rfl
        rw [List.filterMap_cons_none hshown]
      | some entity =>
        have hshown : shownTo? r user h = some ⟨h.excerpt, h.score.percent, entity⟩ := by
          rw [shownTo?, hsummary]
          rfl
        rw [List.filterMap_cons_some hshown]
        rfl

/-- A hit is shown with the entity of its identifier to those who may read it. -/
theorem IndexHit.exists_shownTo?_iff {r : Repository} (built : r.Built) {user id : String}
    {h : IndexHit} :
    (∃ hit, h.shownTo? r user = some hit ∧ hit.entity.id = id) ↔
      h.id = id ∧ ∃ n, r.nodes.get? id = some n ∧ n.isReadable user = true := by
  unfold shownTo? Repository.summary?
  cases hn : r.nodes.get? h.id with
  | none =>
    constructor
    · rintro ⟨hit, hhit, _⟩
      cases hhit
    · rintro ⟨rfl, n, hn', _⟩
      rw [hn] at hn'
      cases hn'
  | some n =>
    -- The entity shown carries the identifier that the node is kept under.
    have hid := built.id_eq hn
    by_cases hreads : n.isReadable user = true
    · simp only [Option.map_some, if_pos hreads, Option.join_some, Option.some.injEq,
        exists_eq_left', hid]
      constructor
      · rintro rfl
        exact ⟨rfl, n, hn, hreads⟩
      · rintro ⟨rfl, _⟩
        rfl
    · simp only [Option.map_some, if_neg hreads, Option.join_some]
      constructor
      · rintro ⟨hit, hhit, _⟩
        cases hhit
      · rintro ⟨rfl, m, hm, hmreads⟩
        rw [hn] at hm
        cases hm
        exact absurd hmreads hreads

/-! ## Hits without an entity -/

/-- The first hit without an entity fails the page. -/
theorem IndexHit.readable_of_missing {r : Repository} {user : String} {h : IndexHit}
    {after : List IndexHit}
    (missing : r.nodes.get? h.id = none) : ∀ {before : List IndexHit},
      (∀ x ∈ before, ∃ n, r.nodes.get? x.id = some n) →
      readable r user (before ++ h :: after) = .error (.missingEntity h.id)
  | [], _ => by
    rw [List.nil_append, readable, Repository.summary?, missing]
    rfl
  | x :: before, exist => by
    obtain ⟨⟨n, hn⟩, hrest⟩ := List.forall_mem_cons.mp exist
    rw [List.cons_append, readable, readable_of_missing missing hrest, Repository.summary?, hn,
      Option.map_some]
    -- Whether or not the user may read this hit, the later one fails the page.
    cases n.isReadable user <;> rfl

/-- Every hit of a list has an entity, or there is a first one that has none. -/
theorem IndexHit.exist_or_missing (r : Repository) (hits : List IndexHit) :
    (∀ h ∈ hits, ∃ n, r.nodes.get? h.id = some n) ∨
    ∃ before h after, hits = before ++ h :: after ∧
    (∀ x ∈ before, ∃ n, r.nodes.get? x.id = some n) ∧
      r.nodes.get? h.id = none := by
  cases hfind : hits.find? fun h => (r.nodes.get? h.id).isNone with
  | none =>
    refine .inl fun h hh => ?_
    exact Option.ne_none_iff_exists'.mp
      (mt Option.isNone_iff_eq_none.mpr (List.find?_eq_none.mp hfind h hh))
  | some h =>
    obtain ⟨hmissing, before, after, hsplit, hbefore⟩ := List.find?_eq_some_iff_append.mp hfind
    refine .inr ⟨before, h, after, hsplit, fun x hx => ?_, Option.isNone_iff_eq_none.mp hmissing⟩
    exact Option.isSome_iff_exists.mp (by simpa using hbefore x hx)

/-! ## What is shown for an answer -/

/-- Whether a `user` may read the entity of an identifier. -/
def Repository.mayRead (r : Repository) (user id : String) : Bool :=
  (r.nodes.get? id).any (·.isReadable user)

/-- What is shown for a hit: its own excerpt, its own score in percent and the summary kept under
its own identifier. -/
structure IndexHit.ShownAs (r : Repository) (h : IndexHit) (hit : Hit) : Prop where
  excerpt : hit.excerpt = h.excerpt
  percent : hit.percent = h.score.percent
  entity : ∃ n, r.nodes.get? h.id = some n ∧ hit.entity = n.summary

/-- What a `user` is shown for an answer of an index. -/
inductive ResultPage.Shows (r : Repository) (user : String) :
    Except Failure IndexPage → Except Failure ResultPage → Prop
  /-- A failure of the index is passed on. -/
  | failed (e : Failure) : Shows r user (.error e) (.error e)
  /-- The first hit without an entity is named, and nothing of the page is shown. -/
  | missing {page : IndexPage} {before after : List IndexHit} {h : IndexHit}
    (hits : page.hits = before ++ h :: after)
      (earlier : ∀ x ∈ before, ∃ n, r.nodes.get? x.id = some n) (gone : r.nodes.get? h.id = none) :
      Shows r user (.ok page) (.error (.repository ("indexed entity not found: " ++ h.id)))
  /-- The total is kept, and the hits that the user may read are shown in their order. -/
  | shown {page : IndexPage} {results : List Hit}
    (exist : ∀ h ∈ page.hits, ∃ n, r.nodes.get? h.id = some n)
      (hits : List.Forall₂ (IndexHit.ShownAs r)
        (page.hits.filter fun h => r.mayRead user h.id) results) :
      Shows r user (.ok page) (.ok ⟨page.total, results⟩)

namespace IndexHit

variable {r : Repository} {user : String}

theorem shownTo?_of_not_mayRead {h : IndexHit} (hreads : r.mayRead user h.id = false) :
    h.shownTo? r user = none := by
  unfold Repository.mayRead at hreads
  unfold shownTo? Repository.summary?
  cases hn : r.nodes.get? h.id with
  | none => rfl
  | some n =>
    rw [hn, Option.any_some] at hreads
    simp [hreads]

/-- A hit that the user may read is shown in one way. -/
theorem exists_shownTo?_of_mayRead {h : IndexHit} (hreads : r.mayRead user h.id = true) :
    ∃ hit, h.shownTo? r user = some hit ∧ ∀ hit', h.ShownAs r hit' ↔ hit' = hit := by
  unfold Repository.mayRead at hreads
  unfold shownTo? Repository.summary?
  cases hn : r.nodes.get? h.id with
  | none =>
    rw [hn] at hreads
    cases hreads
  | some n =>
    rw [hn, Option.any_some] at hreads
    refine ⟨⟨h.excerpt, h.score.percent, n.summary⟩, by simp [hreads], fun hit' => ?_⟩
    constructor
    · rintro ⟨hexcerpt, hpercent, m, hm, hentity⟩
      obtain rfl : n = m := Option.some.inj (hn.symm.trans hm)
      obtain ⟨excerpt, percent, entity⟩ := hit'
      rw [Hit.mk.injEq]
      exact ⟨hexcerpt, hpercent, hentity⟩
    · rintro rfl
      exact ⟨rfl, rfl, n, hn, rfl⟩

/-- Hits are shown if the user may read them, each as it is required, and in their order. -/
theorem filterMap_shownTo?_eq_iff : ∀ {hits : List IndexHit} {results : List Hit},
    hits.filterMap (shownTo? r user) = results ↔
      List.Forall₂ (ShownAs r) (hits.filter fun h => r.mayRead user h.id) results
  | [], results => by simp [eq_comm]
  | h :: hits, results => by
    by_cases hreads : r.mayRead user h.id = true
    · obtain ⟨hit, hshown, hunique⟩ := exists_shownTo?_of_mayRead hreads
      rw [List.filterMap_cons_some hshown, List.filter_cons, if_pos hreads,
        List.forall₂_cons_left_iff]
      simp only [hunique, ← filterMap_shownTo?_eq_iff]
      constructor
      · rintro rfl
        exact ⟨hit, _, rfl, rfl, rfl⟩
      · rintro ⟨_, _, rfl, rfl, rfl⟩
        rfl
    · rw [List.filterMap_cons_none (shownTo?_of_not_mayRead (by simpa using hreads)),
        List.filter_cons, if_neg hreads]
      exact filterMap_shownTo?_eq_iff

end IndexHit

namespace ResultPage

variable {r : Repository} {user : String}

/-- What a user is shown is what there is to be shown. -/
theorem shows_ofAnswer (answer : Except Failure IndexPage) :
    Shows r user answer (ofAnswer r user answer) := by
  cases answer with
  | error e => exact .failed e
  | ok page =>
    rw [ofAnswer]
    rcases IndexHit.exist_or_missing r
      page.hits with exist | ⟨before, h, after, hits, earlier, missing⟩
    · rw [IndexHit.readable_eq exist]
      exact .shown exist (IndexHit.filterMap_shownTo?_eq_iff.mp rfl)
    · rw [hits, IndexHit.readable_of_missing missing earlier]
      exact .missing hits earlier missing

/-- Nothing else is to be shown. -/
theorem eq_ofAnswer_of_shows {answer : Except Failure IndexPage} {shown : Except Failure ResultPage}
    (h : Shows r user answer shown) : ofAnswer r user answer = shown := by
  cases h with
  | failed e => rfl
  | missing hits earlier missing =>
    rw [ofAnswer, hits, IndexHit.readable_of_missing missing earlier]
    rfl
  | shown exist hits =>
    rw [ofAnswer, IndexHit.readable_eq exist, IndexHit.filterMap_shownTo?_eq_iff.mpr hits]
    rfl

/-- For every answer of whatever index, a user is shown what there is to be shown of it, and nothing
else (`Shows`):
* a failure of the index as it is;
* the failure of the first hit without an entity, if there is one;
* otherwise the total and the hits that the user may read.

So the searches of an archive, for compiled queries and for statements, show this of the answers of
its index. -/
theorem ofAnswer_eq_iff :
    (∀ (r : Repository) (user : String) (answer : Except Failure IndexPage)
      (shown : Except Failure ResultPage),
      ofAnswer r user answer = shown ↔ Shows r user answer shown) ∧
    ∀ (s : Archive) (request : IndexRequest) (offset : UInt64) (limit : Option UInt64)
    (user : String)
      (shown : Except Failure ResultPage), (s.ask request offset limit user).1 = shown ↔
        Shows s.repository user
        (s.index.search request offset.toNat (s.settings.pageSize limit).toNat) shown := by
  have hiff : ∀ (r : Repository) (user : String) (answer : Except Failure IndexPage)
      (shown : Except Failure ResultPage), ofAnswer r user answer = shown ↔
        Shows r user answer shown := by
    intro r user answer shown
    constructor
    · rintro rfl
      exact shows_ofAnswer answer
    · exact eq_ofAnswer_of_shows
  exact ⟨hiff, fun s request offset limit user shown => hiff s.repository user _ shown⟩

end ResultPage

end DocSearch
