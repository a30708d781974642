import Acai.Lib.Runs
import Mathlib.Data.List.Count
import Mathlib.Data.Set.Insert

/-!
# Ledgers of acquired and released resources

A component acquires resources, uses them and releases them. The record of these
events is a ledger; a resource is live in it from its acquisition to its release.
A ledger is well used if no event uses or releases a resource that is not live,
and then a release answers to an acquisition of its own.
-/

namespace Acai

namespace Ledger

variable {Resource : Type*}

inductive Event (Resource : Type*) where
  | acquire (resource : Resource)
  | release (resource : Resource)
  | use (resource : Resource)
  deriving DecidableEq

def step (live : Set Resource) : Event Resource → Set Resource
  | .acquire resource => insert resource live
  | .release resource => live \ {resource}
  | .use _ => live

/-- The resources that are live at the end of a ledger. -/
def live (events : List (Event Resource)) : Set Resource := Runs.after step ∅ events

/-- An event that works on live resources only. -/
def Permitted (live : Set Resource) : Event Resource → Prop
  | .acquire _ => True
  | .release resource | .use resource => resource ∈ live

def WellUsed (events : List (Event Resource)) : Prop := Runs.Throughout step Permitted ∅ events

/-- No resource is acquired while it is live. -/
def Fresh (events : List (Event Resource)) : Prop :=
  Runs.Throughout step (fun live event => ∀ resource, event = .acquire resource → resource ∉ live) ∅
    events

theorem live_append (earlier later : List (Event Resource)) :
    live (earlier ++ later) = Runs.after step (live earlier) later :=
  Runs.after_append ∅ earlier later

theorem wellUsed_append (earlier later : List (Event Resource)) :
    WellUsed (earlier ++ later) ↔
      WellUsed earlier ∧ Runs.Throughout step Permitted (live earlier) later :=
  Runs.throughout_append ∅ earlier later

theorem live_acquire (events : List (Event Resource)) (resource : Resource) :
    live (events ++ [.acquire resource]) = insert resource (live events) :=
  live_append events [.acquire resource]

theorem live_release (events : List (Event Resource)) (resource : Resource) :
    live (events ++ [.release resource]) = live events \ {resource} :=
  live_append events [.release resource]

theorem live_use (events : List (Event Resource)) (resource : Resource) :
    live (events ++ [.use resource]) = live events :=
  live_append events [.use resource]

theorem Fresh.notMem {earlier : List (Event Resource)} {resource : Resource}
    (fresh : Fresh (earlier ++ [.acquire resource])) : resource ∉ live earlier :=
  ((Runs.throughout_append ∅ earlier _).1 fresh).2.1 resource rfl

theorem mem_after_cases {start : Set Resource} {resource : Resource}
    {events : List (Event Resource)} (isLive : resource ∈ Runs.after step start events) :
    .acquire resource ∈ events ∨ resource ∈ start ∧ .release resource ∉ events := by
  induction events generalizing start with
  | nil => exact Or.inr ⟨isLive, by simp⟩
  | cons event events ih =>
      rcases ih isLive with acquired | ⟨held, kept⟩
      · exact Or.inl (List.mem_cons_of_mem _ acquired)
      · cases event with
        | acquire other =>
            rcases held with rfl | held
            · exact Or.inl (List.mem_cons_self ..)
            · exact Or.inr ⟨held, by simpa using kept⟩
        | release other =>
            refine Or.inr ⟨held.1, ?_⟩
            have differs : resource ≠ other := held.2
            simpa [differs] using kept
        | use other => exact Or.inr ⟨held, by simpa using kept⟩

/-- A resource that is live after its release was acquired again. -/
theorem WellUsed.acquired_of_permitted {earlier between later : List (Event Resource)}
    {resource : Resource} {event : Event Resource}
    (wellUsed : WellUsed (earlier ++ .release resource :: (between ++ event :: later)))
    (names : event = .release resource ∨ event = .use resource) :
    .acquire resource ∈ between := by
  have behind := ((wellUsed_append earlier _).1 wellUsed).2.2
  have permitted := ((Runs.throughout_append _ between _).1 behind).2.1
  have isLive : resource ∈ Runs.after step (live earlier \ {resource}) between := by
    rcases names with rfl | rfl
    · exact permitted
    · exact permitted
  rcases mem_after_cases isLive with acquired | ⟨held, -⟩
  · exact acquired
  · exact absurd rfl held.2

theorem mem_after_of_kept {start : Set Resource} {resource : Resource}
    {events : List (Event Resource)} (held : resource ∈ start) (kept : .release resource ∉ events) :
    resource ∈ Runs.after step start events := by
  induction events generalizing start with
  | nil => exact held
  | cons event events ih =>
      rw [List.mem_cons, not_or] at kept
      rcases kept with ⟨now, later⟩
      refine ih ?_ later
      cases event with
      | acquire other => exact Set.mem_insert_of_mem _ held
      | release other => exact ⟨held, fun same => now (by rw [Set.mem_singleton_iff.1 same])⟩
      | use other => exact held

/-- A resource that is not live at the end was released after its last acquisition. -/
theorem released_of_not_live {earlier later : List (Event Resource)} {resource : Resource}
    (notLive : resource ∉ live (earlier ++ .acquire resource :: later)) :
    .release resource ∈ later := by
  by_contra kept
  apply notLive
  rw [live_append, Runs.after_cons]
  exact mem_after_of_kept (Set.mem_insert ..) kept

section Counts

variable [DecidableEq Resource]

theorem releases_le_of_throughout {start : Set Resource} {events : List (Event Resource)}
    (permitted : Runs.Throughout step Permitted start events) (resource : Resource) :
    events.count (.release resource) ≤ events.count (.acquire resource) + 1 ∧
      (resource ∉ start →
        events.count (.release resource) ≤ events.count (.acquire resource)) := by
  induction events generalizing start with
  | nil => simp
  | cons event events ih =>
      rcases permitted with ⟨now, later⟩
      rcases ih later with ⟨atMost, atMost'⟩
      cases event with
      | acquire other =>
          by_cases same : other = resource
          · subst same
            simp
            omega
          · have others : resource ∉ start → resource ∉ insert other start := by
              simp [Ne.symm same]
            simp only [List.count_cons_of_ne, ne_eq, reduceCtorEq, not_false_eq_true,
              Event.acquire.injEq, same]
            exact ⟨atMost, fun free => atMost' (others free)⟩
      | release other =>
          by_cases same : other = resource
          · subst same
            have held : other ∈ start := now
            have gone := atMost' (by simp [step])
            simp [held]
            omega
          · have others : resource ∉ start → resource ∉ start \ {other} := by
              simp [Ne.symm same]
            simp only [List.count_cons_of_ne, ne_eq, reduceCtorEq, not_false_eq_true,
              Event.release.injEq, same]
            exact ⟨atMost, fun free => atMost' (others free)⟩
      | use other => simpa [step] using ⟨atMost, atMost'⟩

/-- A resource is released at most once for each time it was acquired. -/
theorem WellUsed.releases_le {events : List (Event Resource)} (wellUsed : WellUsed events)
    (resource : Resource) :
    events.count (.release resource) ≤ events.count (.acquire resource) := by
  exact (releases_le_of_throughout wellUsed resource).2 (Set.notMem_empty resource)

/-- Every resource is released exactly as many times as it was acquired. -/
def Balanced (events : List (Event Resource)) : Prop :=
  ∀ resource, events.count (.release resource) = events.count (.acquire resource)

@[simp]
theorem balanced_nil : Balanced ([] : List (Event Resource)) := fun _ => rfl

theorem count_acquire_map_acquire (resources : List Resource) (resource : Resource) :
    (resources.map Event.acquire).count (.acquire resource) = resources.count resource :=
  List.count_map_of_injective _ _ (fun _ _ same => Event.acquire.inj same) _

theorem count_release_map_release (resources : List Resource) (resource : Resource) :
    (resources.map Event.release).count (.release resource) = resources.count resource :=
  List.count_map_of_injective _ _ (fun _ _ same => Event.release.inj same) _

theorem count_release_map_acquire (resources : List Resource) (resource : Resource) :
    (resources.map Event.acquire).count (.release resource) = 0 := by
  rw [List.count_eq_zero]
  simp

theorem count_acquire_map_release (resources : List Resource) (resource : Resource) :
    (resources.map Event.release).count (.acquire resource) = 0 := by
  rw [List.count_eq_zero]
  simp

/-- Resources that are acquired and never released are balanced only if there are none. -/
@[simp]
theorem balanced_acquires_iff {resources : List Resource} :
    Balanced (resources.map .acquire) ↔ resources = [] := by
  constructor
  · intro balanced
    rw [List.eq_nil_iff_forall_not_mem]
    intro resource member
    have equal := balanced resource
    rw [count_release_map_acquire, count_acquire_map_acquire] at equal
    exact absurd member (List.count_eq_zero.mp equal.symm)
  · rintro rfl
    exact balanced_nil

theorem balanced_acquires_releases (resources : List Resource) :
    Balanced (resources.map .acquire ++ resources.map .release) := by
  intro resource
  rw [List.count_append, List.count_append, count_release_map_acquire, count_release_map_release,
    count_acquire_map_acquire, count_acquire_map_release]
  omega

end Counts

/-- Releasing resources one after another leaves the others live. -/
theorem after_releases (start : Set Resource) (resources : List Resource) :
    Runs.after step start (resources.map .release) = start \ {resource | resource ∈ resources} := by
  induction resources generalizing start with
  | nil =>
      ext other
      simp
  | cons resource resources ih =>
      rw [List.map_cons, Runs.after_cons, ih]
      ext other
      simp [step, and_assoc]

theorem throughout_releases {start : Set Resource} {resources : List Resource}
    (held : ∀ resource ∈ resources, resource ∈ start) (distinct : resources.Nodup) :
    Runs.Throughout step Permitted start (resources.map .release) := by
  induction resources generalizing start with
  | nil => exact Runs.throughout_nil _
  | cons resource resources ih =>
      rcases List.nodup_cons.1 distinct with ⟨fresh, distinct⟩
      refine ⟨held resource (List.mem_cons_self ..), ih (fun other member => ?_) distinct⟩
      refine ⟨held other (List.mem_cons_of_mem _ member), ?_⟩
      rintro rfl
      exact fresh member

theorem throughout_uses {start : Set Resource} {resource : Resource} (held : resource ∈ start)
    {events : List (Event Resource)} (uses : ∀ event ∈ events, event = .use resource) :
    Runs.Throughout step Permitted start events := by
  induction events with
  | nil => exact Runs.throughout_nil _
  | cons event events ih =>
      have now := uses event (List.mem_cons_self ..)
      subst now
      exact ⟨held, ih fun event member => uses event (List.mem_cons_of_mem _ member)⟩

theorem after_uses (start : Set Resource) {resource : Resource} {events : List (Event Resource)}
    (uses : ∀ event ∈ events, event = .use resource) : Runs.after step start events = start := by
  induction events with
  | nil => rfl
  | cons event events ih =>
      have now := uses event (List.mem_cons_self ..)
      subst now
      exact ih fun event member => uses event (List.mem_cons_of_mem _ member)

end Ledger

end Acai
