import DocSearch.Property.Loader

/-!
# Schemas of a source that changes

A `Loading` is a schema source that changes, the loader over it and the calls of the loader so far.
The rule that a version never stands for two documents is `SchemaSource.Shows`.

* What a loader can answer for a source, and what it remembers then, is `Loader.Outcome`, with one
  case for each way through a call (`Loader.outcome_resolve`).
* The invariant is `Loading.Sound`: the loader remembers the answer of the last call that succeeded,
  and the schema is that of the document the version stands for.  A step keeps it
  (`Loading.Sound.after`), and so do any changes and calls (`Loading.sound_foldl_after`).

So a loader answers with the schema of the current document, by the object that it answered with
last iff the version is still the same, and reads the document iff the version is another one
(`Loading.resolve_of_run`).
-/

namespace DocSearch

namespace SchemaSource

/-- The document, if it can be read, is the one that the version stands for. -/
def Shows (contents : String → String) (source : SchemaSource) : Prop :=
  ∀ version body, source.version = .ok version → source.body = .ok body → body = contents version

/-- The document can be read and states the `schema`. -/
def States (source : SchemaSource) (schema : Schema) : Prop :=
  ∃ body, source.body = .ok body ∧ Schema.parse body = .ok schema

end SchemaSource

/-! ## One call -/

namespace Loader

/-- What a loader can answer for a `source`, and the loader as it is then. -/
inductive Outcome (l : Loader) (source : SchemaSource) : Except Failure LoadedSchema × Loader → Prop
  | unversioned {f : Failure} : source.version = .error f → Outcome l source (.error f, l)
  | remembered {loaded : LoadedSchema} : source.version = .ok loaded.version →
    l.cached = some loaded →
      Outcome l source (.ok loaded, l)
  | unreadable {version : String} {f : Failure} : source.version = .ok version →
      (∀ loaded, l.cached = some loaded → loaded.version ≠ version) →
      (¬ ∃ schema, source.States schema) →
      Outcome l source (.error f, { l with readings := l.readings + 1 })
  | read {version : String} {schema : Schema} : source.version = .ok version →
      (∀ loaded, l.cached = some loaded → loaded.version ≠ version) → source.States schema →
      Outcome l source (.ok ⟨version, schema, l.readings + 1⟩,
        ⟨some ⟨version, schema, l.readings + 1⟩, l.readings + 1⟩)

/-- The version can be seen, and it is not the one of the remembered schema. -/
def Lacks (l : Loader) (source : SchemaSource) : Prop :=
  ∃ version, source.version = .ok version ∧ ∀ loaded, l.cached = some loaded →
    loaded.version ≠ version

variable {l : Loader} {source : SchemaSource}

/-- Reading the document succeeds or fails, and is counted either way. -/
theorem outcome_load {version : String} (hversion : source.version = .ok version)
    (hother : ∀ loaded, l.cached = some loaded → loaded.version ≠ version) :
    l.Outcome source (l.load version source) := by
  unfold load
  cases hbody : source.body with
  | error f =>
    refine .unreadable hversion hother ?_
    rintro ⟨schema, body, hread, _⟩
    rw [hbody] at hread
    cases hread
  | ok body =>
    dsimp only
    cases hparse : Schema.parse body with
    | error fault =>
      refine .unreadable hversion hother ?_
      rintro ⟨schema, body', hread, hparse'⟩
      rw [hbody] at hread
      cases hread
      rw [hparse] at hparse'
      cases hparse'
    | ok schema => exact .read hversion hother ⟨body, hbody, hparse⟩

/-- A call has one of the outcomes of `Outcome`. -/
theorem outcome_resolve (l : Loader) (source : SchemaSource) :
    l.Outcome source (l.resolve source) := by
  unfold resolve
  cases hversion : source.version with
  | error f => exact .unversioned hversion
  | ok version =>
    dsimp only
    cases hcached : l.cached with
    | none =>
      refine outcome_load hversion fun loaded hloaded => ?_
      rw [hcached] at hloaded
      cases hloaded
    | some loaded =>
      dsimp only
      by_cases hsame : loaded.version = version
      · rw [if_pos hsame]
        exact .remembered (hsame ▸ hversion) hcached
      · rw [if_neg hsame]
        refine outcome_load hversion fun loaded' hloaded => ?_
        rw [hcached] at hloaded
        cases hloaded
        exact hsame

namespace Outcome

variable {x : Except Failure LoadedSchema × Loader} {f : Failure}

/-- A call that fails leaves the remembered schema alone. -/
theorem cached_of_error (h : l.Outcome source x) (hanswer : x.1 = .error f) :
    x.2.cached = l.cached := by
  cases h with
  | unversioned _ => rfl
  | remembered _ _ => cases hanswer
  | unreadable _ _ _ => rfl
  | read _ _ _ => cases hanswer

/-- What a call answers with is remembered under the version of the `source`. -/
theorem cached_of_ok {loaded : LoadedSchema} (h : l.Outcome source x) (hanswer : x.1 = .ok loaded) :
    source.version = .ok loaded.version ∧ x.2.cached = some loaded := by
  cases h with
  | unversioned _ => cases hanswer
  | remembered hversion hcached =>
    cases hanswer
    exact ⟨hversion, hcached⟩
  | unreadable _ _ _ => cases hanswer
  | read hversion _ _ =>
    cases hanswer
    exact ⟨hversion, rfl⟩

/-- The document is read once if the loader `Lacks` its schema. -/
theorem readings_of_lacks (h : l.Outcome source x) (hlacks : l.Lacks source) :
    x.2.readings = l.readings + 1 := by
  obtain ⟨version, hversion, hother⟩ := hlacks
  cases h with
  | unversioned hnone =>
    rw [hversion] at hnone
    cases hnone
  | remembered hsame hcached =>
    rw [hversion] at hsame
    exact absurd (Except.ok.inj hsame).symm (hother _ hcached)
  | unreadable _ _ _ => rfl
  | read _ _ _ => rfl

/-- Otherwise nothing changes. -/
theorem loader_of_not_lacks (h : l.Outcome source x) (hlacks : ¬ l.Lacks source) : x.2 = l := by
  cases h with
  | unversioned _ => rfl
  | remembered _ _ => rfl
  | unreadable hversion hother _ => exact absurd ⟨_, hversion, hother⟩ hlacks
  | read hversion hother _ => exact absurd ⟨_, hversion, hother⟩ hlacks

end Outcome

/-- A loader that answered answers with the same again. -/
theorem resolve_resolve {loaded : LoadedSchema} (h : (l.resolve source).1 = .ok loaded) :
    ((l.resolve source).2.resolve source).1 = .ok loaded := by
  obtain ⟨hversion, hcached⟩ := (l.outcome_resolve source).cached_of_ok h
  rw [resolve, hversion]
  dsimp only
  rw [hcached]
  dsimp only
  rw [if_pos rfl]

/-- A loader that lacks no schema answers whatever the document is. -/
theorem resolve_of_not_lacks (hlacks : ¬ l.Lacks source) (body : Except Failure String) :
    l.resolve { source with body } = l.resolve source := by
  unfold resolve
  cases hversion : source.version with
  | error f => rfl
  | ok version =>
    dsimp only
    cases hcached : l.cached with
    | none =>
      refine absurd ⟨version, hversion, fun loaded hloaded => ?_⟩ hlacks
      rw [hcached] at hloaded
      cases hloaded
    | some loaded =>
      dsimp only
      by_cases hsame : loaded.version = version
      · rw [if_pos hsame, if_pos hsame]
      · refine absurd ⟨version, hversion, fun loaded' hloaded => ?_⟩ hlacks
        rw [hcached] at hloaded
        cases hloaded
        exact hsame

end Loader

/-! ## Changes and calls -/

/-- What is done to a source and the loader over it. -/
inductive LoadingStep where
  | change (source : SchemaSource)
  | resolve

/-- A call of a loader: the `source` as it was then, and the `answer`. -/
structure LoaderCall where
  source : SchemaSource
  answer : Except Failure LoadedSchema

/-- A source, the loader over it, and the calls so far, the latest one first. -/
structure Loading where
  source : SchemaSource
  loader : Loader
  calls : List LoaderCall

/-- The last success among some calls: the version that was seen and the answer. -/
def LoaderCall.lastSuccess? : List LoaderCall → Option (String × LoadedSchema)
  | [] => none
  | c :: earlier =>
    match c.source.version, c.answer with
    | .ok version, .ok loaded => some (version, loaded)
    | _, _ => lastSuccess? earlier

namespace LoaderCall

variable {c : LoaderCall} {earlier : List LoaderCall} {loaded : LoadedSchema} {version : String}
  {f : Failure}

/-- A call that succeeds is the last success. -/
theorem lastSuccess?_cons_ok (hversion : c.source.version = .ok version)
    (hanswer : c.answer = .ok loaded) :
    lastSuccess? (c :: earlier) = some (version, loaded) := by
  rw [lastSuccess?, hversion, hanswer]

theorem lastSuccess?_cons_error (hanswer : c.answer = .error f) :
    lastSuccess? (c :: earlier) = lastSuccess? earlier := by
  rw [lastSuccess?, hanswer]
  cases c.source.version with
  | ok version => rfl
  | error f => rfl

end LoaderCall

namespace Loading

open LoaderCall

/-- A `source` whose loader was not called yet. -/
def initial (source : SchemaSource) : Loading := ⟨source, .fresh, []⟩

/-- What a step leads to. -/
def after (g : Loading) : LoadingStep → Loading
  | .change source => { g with source }
  | .resolve => { g with
      loader := (g.loader.resolve g.source).2
      calls := ⟨g.source, (g.loader.resolve g.source).1⟩ :: g.calls }

/-- What some `steps` lead to. -/
def run (source : SchemaSource) (steps : List LoadingStep) : Loading :=
  steps.foldl after (initial source)

/-- The version can be seen, and it is not that of the last success. -/
def IsStale (g : Loading) : Prop :=
  ∃ version, g.source.version = .ok version ∧
    ∀ seen loaded, lastSuccess? g.calls = some (seen, loaded) → version ≠ seen

/-- The loader remembers the last success, which is of the document that its version stands for in
`contents`. -/
structure Sound (contents : String → String) (g : Loading) : Prop where
  remembers : lastSuccess? g.calls = g.loader.cached.map fun loaded => (loaded.version, loaded)
  parse_eq : ∀ loaded, g.loader.cached = some loaded →
    Schema.parse (contents loaded.version) = .ok loaded.schema
  reading_le : ∀ loaded, g.loader.cached = some loaded → loaded.reading ≤ g.loader.readings

namespace Sound

variable {contents : String → String} {g : Loading}

theorem initial (source : SchemaSource) : (Loading.initial source).Sound contents where
  remembers := rfl
  parse_eq := fun _ h => nomatch h
  reading_le := fun _ h => nomatch h

/-- What is stale is what the loader `Loader.Lacks`. -/
theorem isStale_iff (h : g.Sound contents) : g.IsStale ↔ g.loader.Lacks g.source := by
  rw [IsStale, h.remembers, Loader.Lacks]
  cases g.loader.cached with
  | none => simp
  | some last => simp [eq_comm]

/-- A step keeps `Sound`: a change leaves the loader, and a call that succeeds is remembered as the
last success. -/
theorem after (h : g.Sound contents) (hshows : g.source.Shows contents) (step : LoadingStep) :
    (g.after step).Sound contents := by
  cases step with
  | change source => exact ⟨h.remembers, h.parse_eq, h.reading_le⟩
  | resolve =>
    have houtcome := g.loader.outcome_resolve g.source
    unfold Loading.after
    generalize g.loader.resolve g.source = x at houtcome ⊢
    cases houtcome with
    | unversioned hversion =>
      exact ⟨(lastSuccess?_cons_error rfl).trans h.remembers, h.parse_eq, h.reading_le⟩
    | remembered hversion hcached =>
      refine ⟨?_, h.parse_eq, h.reading_le⟩
      rw [lastSuccess?_cons_ok hversion rfl, hcached, Option.map_some]
    | unreadable hversion hother hnone =>
      refine ⟨(lastSuccess?_cons_error rfl).trans h.remembers, h.parse_eq, fun loaded hloaded => ?_⟩
      exact Nat.le_succ_of_le (h.reading_le loaded hloaded)
    | read hversion hother hstates =>
      obtain ⟨body, hbody, hparse⟩ := hstates
      refine ⟨lastSuccess?_cons_ok hversion rfl, fun loaded hloaded => ?_, fun loaded hloaded => ?_⟩
      -- The body that was read is the one that its version stands for.
      · cases hloaded
        rw [← hshows _ body hversion hbody]
        exact hparse
      · cases hloaded
        exact Nat.le_refl _

end Sound

/-- Some `steps` keep `Sound`, if all the sources that come up show `contents`; by induction on the
steps. -/
theorem sound_foldl_after {contents : String → String} (steps : List LoadingStep) : ∀ {g : Loading},
    g.Sound contents → g.source.Shows contents →
      (∀ a, .change a ∈ steps → a.Shows contents) →
      (steps.foldl Loading.after g).Sound contents ∧
      (steps.foldl Loading.after g).source.Shows contents := by
  induction steps with
  | nil => exact fun hsound hshows _ => ⟨hsound, hshows⟩
  | cons step steps ih =>
    intro g hsound hshows hsteps
    refine ih (hsound.after hshows step) ?_ fun a ha => hsteps a (.tail _ ha)
    cases step with
    | change source => exact hsteps source (.head _)
    | resolve => exact hshows

section Call

variable {contents : String → String} {g : Loading} {x : Except Failure LoadedSchema × Loader}
  {loaded last : LoadedSchema} {seen : String}

/-- A call that succeeds answers with the schema that its version stands for. -/
theorem Sound.parse_of_outcome (h : g.Sound contents) (hshows : g.source.Shows contents)
    (houtcome : g.loader.Outcome g.source x) (hanswer : x.1 = .ok loaded) :
    (∃ version, g.source.version = .ok version ∧
      Schema.parse (contents version) = .ok loaded.schema) ∧
      ∀ body, g.source.body = .ok body → Schema.parse body = .ok loaded.schema := by
  have hstands : ∃ version, g.source.version = .ok version ∧
      Schema.parse (contents version) = .ok loaded.schema := by
    cases houtcome with
    | unversioned _ => cases hanswer
    | remembered hversion hcached =>
      cases hanswer
      exact ⟨_, hversion, h.parse_eq _ hcached⟩
    | unreadable _ _ _ => cases hanswer
    | read hversion _ hstates =>
      cases hanswer
      obtain ⟨body, hbody, hparse⟩ := hstates
      exact ⟨_, hversion, hshows _ body hversion hbody ▸ hparse⟩
  refine ⟨hstands, fun body hbody => ?_⟩
  obtain ⟨version, hversion, hparse⟩ := hstands
  rw [hshows version body hversion hbody]
  exact hparse

/-- The object is that of the last success iff the version is. -/
theorem Sound.reading_eq_iff (h : g.Sound contents) (houtcome : g.loader.Outcome g.source x)
    (hanswer : x.1 = .ok loaded) (hlast : lastSuccess? g.calls = some (seen, last)) :
    (loaded.reading = last.reading ↔ g.source.version = .ok seen) ∧
      (loaded.reading = last.reading → loaded = last) := by
  rw [h.remembers] at hlast
  obtain ⟨cached, hcached, hpair⟩ := Option.map_eq_some_iff.mp hlast
  cases hpair
  cases houtcome with
  | unversioned _ => cases hanswer
  | remembered hversion hcached' =>
    cases hanswer
    obtain rfl := Option.some.inj (hcached.symm.trans hcached')
    exact ⟨iff_of_true rfl hversion, fun _ => rfl⟩
  | unreadable _ _ _ => cases hanswer
  | read hversion hother _ =>
    cases hanswer
    -- The new reading comes after all those before it.
    have hle := h.reading_le last hcached
    have hnew : g.loader.readings + 1 ≠ last.reading := by omega
    refine ⟨iff_of_false hnew fun hsame => hother last hcached ?_, fun hsame => absurd hsame hnew⟩
    exact (Except.ok.inj (hversion.symm.trans hsame)).symm

/-- A call fails iff the version cannot be seen, or the document is looked at and states no
schema. -/
theorem Sound.exists_error_iff (h : g.Sound contents) (houtcome : g.loader.Outcome g.source x) :
    (∃ f, x.1 = .error f) ↔
      (∃ f, g.source.version = .error f) ∨ g.IsStale ∧ ¬ ∃ schema, g.source.States schema := by
  rw [h.isStale_iff]
  cases houtcome with
  | unversioned hversion => exact iff_of_true ⟨_, rfl⟩ (.inl ⟨_, hversion⟩)
  | remembered hversion hcached =>
    refine iff_of_false (fun ⟨f, hf⟩ => (nomatch hf)) ?_
    rintro (⟨f, hf⟩ | ⟨⟨version, hversion', hother⟩, _⟩)
    · rw [hversion] at hf
      cases hf
    · rw [hversion] at hversion'
      exact hother _ hcached (Except.ok.inj hversion')
  | unreadable hversion hother hnone =>
    exact iff_of_true ⟨_, rfl⟩ (.inr ⟨⟨_, hversion, hother⟩, hnone⟩)
  | read hversion hother hstates =>
    refine iff_of_false (fun ⟨f, hf⟩ => (nomatch hf)) ?_
    rintro (⟨f, hf⟩ | ⟨_, hnone⟩)
    · rw [hversion] at hf
      cases hf
    · exact hnone ⟨_, hstates⟩

end Call

/-- Whatever changes and calls there were, if a version never stands for two documents
(`SchemaSource.Shows`), then
* a call that succeeds answers with the schema of the current document, which the version stands for
  even when the document cannot be read;
* it answers with the same object as the last success iff the version is the one that was seen then;
* a call fails iff the version cannot be seen, or it is not that of the last success and the
  document cannot be read or states no schema;
* a call that fails leaves what is remembered as it was;
* a call reads the document once if the version can be seen and is not that of the last success, and
  otherwise does not look at it. -/
theorem resolve_of_run {contents : String → String} {source : SchemaSource}
    {steps : List LoadingStep}
    (hsource : source.Shows contents) (hsteps : ∀ a, .change a ∈ steps → a.Shows contents) :
    let g := run source steps
    let call := g.loader.resolve g.source
    (∀ loaded, call.1 = .ok loaded →
      (∃ version, g.source.version = .ok version ∧
        Schema.parse (contents version) = .ok loaded.schema) ∧
      ∀ body, g.source.body = .ok body → Schema.parse body = .ok loaded.schema) ∧
    (∀ loaded seen last, call.1 = .ok loaded → lastSuccess? g.calls = some (seen, last) →
      (loaded.reading = last.reading ↔ g.source.version = .ok seen) ∧
        (loaded.reading = last.reading → loaded = last)) ∧
    ((∃ f, call.1 = .error f) ↔ (∃ f, g.source.version = .error f) ∨
      g.IsStale ∧ ¬ ∃ schema, g.source.States schema) ∧
    (∀ f, call.1 = .error f → call.2.cached = g.loader.cached) ∧
    (g.IsStale → call.2.readings = g.loader.readings + 1) ∧
    (¬ g.IsStale → call.2.readings = g.loader.readings ∧
      ∀ body, g.loader.resolve { g.source with body } = call) := by
  intro g call
  obtain ⟨hsound, hshows⟩ := sound_foldl_after steps (Sound.initial source) hsource hsteps
  have houtcome := g.loader.outcome_resolve g.source
  refine ⟨fun loaded => hsound.parse_of_outcome hshows houtcome,
    fun loaded seen last => hsound.reading_eq_iff houtcome, hsound.exists_error_iff houtcome,
    fun f => houtcome.cached_of_error, fun hstale => ?_, fun hfresh => ⟨?_, fun body => ?_⟩⟩
  · exact houtcome.readings_of_lacks (hsound.isStale_iff.mp hstale)
  · rw [houtcome.loader_of_not_lacks (mt hsound.isStale_iff.mpr hfresh)]
  · exact Loader.resolve_of_not_lacks (mt hsound.isStale_iff.mpr hfresh) body

/-! ### A document that is changed and changed back -/

/-- The source of a schema of no groups. -/
def emptySource : SchemaSource := ⟨.ok "1", .ok ""⟩

/-- The source of a document that states no schema. -/
def faultySource : SchemaSource := ⟨.ok "2", .ok "[[group"⟩

/-- What each `version` stands for. -/
def twoContents (version : String) : String := if version = "1" then "" else "[[group"

theorem emptySource_shows : emptySource.Shows twoContents := by
  rintro _ _ ⟨⟩ ⟨⟩
  rfl

theorem faultySource_shows : faultySource.Shows twoContents := by
  rintro _ _ ⟨⟩ ⟨⟩
  rfl

theorem not_states_faultySource (schema : Schema) : ¬ faultySource.States schema := by
  rintro ⟨_, ⟨⟩, hparse⟩
  have hfault : (Schema.parse "[[group").isOk = false := by decide +kernel
  rw [hparse] at hfault
  cases hfault

/-- The call after the document got a fault fails, and the one after the fault was taken out again
answers with the object of the first call. -/
theorem resolve_of_run_reverted :
    let faulty := run emptySource [.resolve, .change faultySource]
    let reverted := run emptySource [.resolve, .change faultySource, .resolve, .change emptySource]
    (∃ f, (faulty.loader.resolve faulty.source).1 = .error f) ∧
      ∃ loaded, (reverted.loader.resolve reverted.source).1 = .ok loaded ∧
      loaded = ⟨"1", .empty, 1⟩ := by
  intro faulty reverted
  have hfaulty : ∀ a, LoadingStep.change a ∈ [.resolve, .change faultySource] →
      a.Shows twoContents := by
    intro a ha
    obtain rfl : a = faultySource := by simpa using ha
    exact faultySource_shows
  have hreverted :
      ∀ a, LoadingStep.change a ∈ [.resolve, .change faultySource, .resolve, .change emptySource] →
        a.Shows twoContents := by
    intro a ha
    obtain rfl | rfl : a = faultySource ∨ a = emptySource := by simpa using ha
    · exact faultySource_shows
    · exact emptySource_shows
  have hfirst : lastSuccess? faulty.calls = some ("1", ⟨"1", .empty, 1⟩) := by decide +kernel
  have hlast : lastSuccess? reverted.calls = some ("1", ⟨"1", .empty, 1⟩) := by decide +kernel
  obtain ⟨_, _, hfails, _⟩ := resolve_of_run emptySource_shows hfaulty
  obtain ⟨_, hsame, hfails', _⟩ := resolve_of_run emptySource_shows hreverted
  refine ⟨hfails.mpr (.inr ⟨⟨"2", rfl, fun seen loaded h => ?_⟩, fun ⟨schema, h⟩ => ?_⟩), ?_⟩
  · rw [hfirst] at h
    cases h
    decide
  · exact not_states_faultySource schema h
  · cases hcall : (reverted.loader.resolve reverted.source).1 with
    | error f =>
      rcases hfails'.mp ⟨f, hcall⟩ with ⟨_, h⟩ | ⟨⟨version, h, hother⟩, _⟩
      · cases h
      · cases h
        exact absurd rfl (hother _ _ hlast)
    | ok loaded =>
      obtain ⟨hobject, heq⟩ := hsame loaded _ _ hcall hlast
      exact ⟨loaded, rfl, heq (hobject.mpr rfl)⟩

end Loading

end DocSearch
