import DocSearch.Proofs.Query.SingleDomains

/-!
# Filters that narrow a search

Every kind of entities is covered by just one domain (`Domain.exists_covers`), so whether a
description finds an entity is decided by its clauses for this domain
(`Description.finds_compile_iff`).

A filter is a part of a description that adds clauses to those there are without it
(`Description.Narrows`).  With it, an entity is found iff it is found without it and passes the
clauses that it adds in the domain of the entity (`Description.Narrows.finds_iff`).  The clauses
that are added must be ones that the index can look for; clauses without patterns always are.
-/

namespace DocSearch

theorem Domain.exists_covers : ∀ k : EntityKind, ∃ d : Domain, d.Covers k
  | .document => ⟨.document, .inl rfl⟩
  | .attachment => ⟨.document, .inr rfl⟩
  | .folder => ⟨.folder, rfl⟩
  | .mail => ⟨.mail, rfl⟩

namespace Description

variable {schema : Schema} {scope : Scope} {e : Entity} {i : Index} {later : List Change}

/-- An entity is found by a description `q` iff it passes the clauses for a domain that covers its
kind. -/
theorem finds_compile_iff (others : ∀ c ∈ later, c.id ≠ e.id) (q : Description) :
    (i.storing e later).Finds (q.compile schema scope) e.id ↔
      (∀ d ∈ q.domains, ∀ c ∈ q.ownClauses scope d ++ q.commonClauses schema,
        ∀ p ∈ c.condition.patterns,
        Wildcard.isSearchable p = true) ∧
      ∃ d ∈ q.domains, d.Covers e.kind ∧
        Pass Phrase.occurs e (q.ownClauses scope d ++ q.commonClauses schema) := by
  rw [Index.finds_storing_iff others, isSearchable_compile_iff, holds_compile_iff]
  simp only [compile_only, Compiled.isSearchable_alone_iff]
  refine and_congr_right fun _ => exists_congr fun d => and_congr_right fun _ => ?_
  rw [← compile_only, holds_only_iff, Condition.holds, DomainQuery.holdsBy_iff, mem_kinds_iff,
    Group.holdsBy_all, Pass]

/-- One description asks for what another one does and, in each domain, for the clauses `added`. -/
structure Narrows (narrow wide : Description) (schema : Schema) (scope : Scope)
    (added : Domain → List Clause) :
    Prop where
  domains : narrow.domains = wide.domains
  own : ∀ d c, c ∈ narrow.ownClauses scope d ↔ c ∈ wide.ownClauses scope d ∨ c ∈ added d
  common : narrow.commonClauses schema = wide.commonClauses schema

namespace Narrows

variable {narrow wide : Description} {added : Domain → List Clause}
  (h : Narrows narrow wide schema scope added)

include h

theorem mem_iff {d : Domain} {c : Clause} :
    c ∈ narrow.ownClauses scope d ++ narrow.commonClauses schema ↔
      c ∈ wide.ownClauses scope d ++ wide.commonClauses schema ∨ c ∈ added d := by
  rw [List.mem_append, List.mem_append, h.own, h.common, or_right_comm]

/-- The description with the clauses more finds what the other one does and what passes these
clauses, if the index can look for their patterns. -/
theorem finds_iff (others : ∀ c ∈ later, c.id ≠ e.id) {d : Domain} (hd : d.Covers e.kind)
    (hsearchable : ∀ d, ∀ c ∈ added d, ∀ p ∈ c.condition.patterns, Wildcard.isSearchable p = true) :
    (i.storing e later).Finds (narrow.compile schema scope) e.id ↔
      (i.storing e later).Finds (wide.compile schema scope) e.id ∧
      Pass Phrase.occurs e (added d) := by
  rw [finds_compile_iff others, finds_compile_iff others, h.domains]
  simp only [Pass, h.mem_iff]
  constructor
  · rintro ⟨hall, d', hmem, hd', hpass⟩
    obtain rfl := Domain.eq_of_covers hd hd'
    exact ⟨⟨fun d hd c hc => hall d hd c (.inl hc), d, hmem, hd, fun c hc => hpass c (.inl hc)⟩,
      fun c hc => hpass c (.inr hc)⟩
  · rintro ⟨⟨hall, d', hmem, hd', hpass⟩, hadded⟩
    obtain rfl := Domain.eq_of_covers hd hd'
    exact ⟨fun d hd c hc => hc.elim (hall d hd c) (hsearchable d c), d, hmem, hd,
      fun c hc => hc.elim (hpass c) (hadded c)⟩

end Narrows

end Description

end DocSearch
