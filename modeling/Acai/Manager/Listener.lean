import Acai.Manager.Reply

/-!
# The host as the peer of the guest

The listener thread of the manager waits for faults on the escape page and runs
`on_fault` for each of them. This file packs the manager and its listener into
one state, `Host`, that answers the guest's doorbell: while the listener runs, a
fault is handled on the current contents of the page; a result other than 0 ends
the listener, and later faults find nobody.

The kernel's completion of a hook is taken to succeed. The outcomes of the
system calls are an arbitrary sequence, one entry for each request served. The
requests that the handler took up are recorded in `served`.
-/

namespace Acai

/-- A request that `on_fault` took up, and whether it returned 0. -/
structure Served where
  action : ℕ
  page : ByteMem
  completed : Bool

/-- The manager with its listener. -/
structure Host where
  manager : Manager
  serving : Bool
  /-- The outcomes of the system calls, by request. -/
  outcomes : ℕ → FaultOutcome
  served : List Served

namespace Host

def outcome (host : Host) : FaultOutcome := host.outcomes host.served.length

def handle (host : Host) (page : ByteMem) : Option Handled :=
  onFault host.outcome host.manager page

section Handle

variable {host : Host} {page page' : ByteMem} {manager : Manager} {ret : ℤ}

theorem handle_of_died (turn : page.get FaultData.turn = FhTurn.host.code)
    (died : handleAction host.outcome host.manager page = none) : host.handle page = none := by
  simp [handle, onFault, turn, died]

theorem handle_of_refused (turn : page.get FaultData.turn = FhTurn.host.code)
    (handled : handleAction host.outcome host.manager page = some (ret, manager, page'))
    (negative : ret < 0) : host.handle page = some (ret, manager, page') := by
  simp [handle, onFault, turn, handled, negative]

theorem handle_of_completed (turn : page.get FaultData.turn = FhTurn.host.code)
    (handled : handleAction host.outcome host.manager page = some (ret, manager, page'))
    (nonneg : 0 ≤ ret) :
    host.handle page = some (0, manager, page'.set FaultData.turn FhTurn.guest.code) := by
  simp [handle, onFault, turn, handled, not_lt.mpr nonneg]

end Handle

/-- Whether the listener survives the next fault. -/
@[irreducible]
def completes (host : Host) (page : ByteMem) : Bool :=
  fhFaultHandlerNext (host.handle page) = .completeHook

/-- The record of requests after the next fault; an unintended fault is no request. -/
def servedAfter (host : Host) (page : ByteMem) : List Served :=
  if page.get FaultData.turn = FhTurn.host.code then
    host.served ++ [⟨page.get FaultData.action, page, host.completes page⟩]
  else host.served

/-- One fault on the escape page: an iteration of `_fh_fault_handler`. -/
def onEscape (host : Host) (page : ByteMem) : Host × ByteMem :=
  if host.serving then
    match host.handle page with
    | some (_, manager, page') =>
        ({ host with
            manager := manager
            serving := host.completes page
            served := host.servedAfter page },
          page')
    | none =>
        ({ host with serving := false, served := host.servedAfter page }, page)
  else (host, page)

theorem onEscape_outcomes (host : Host) (page : ByteMem) :
    (host.onEscape page).1.outcomes = host.outcomes := by
  simp only [onEscape]
  split
  · split <;> rfl
  · rfl

theorem onEscape_of_idle {host : Host} {page : ByteMem}
    (idle : host.serving = false ∨ page.get FaultData.turn ≠ FhTurn.host.code) :
    host.onEscape page = (host, page) := by
  rcases idle with ended | notTurn
  · simp [onEscape, ended]
  · have handled : host.handle page = some (0, host.manager, page) := by
      simp [handle, onFault, notTurn]
    have completed : host.completes page = true := by
      simp [completes, handled, fhFaultHandlerNext]
    cases serving : host.serving with
    | false => simp [onEscape, serving]
    | true =>
        simp only [onEscape, serving, ↓reduceIte, handled, completed, servedAfter, notTurn]
        rw [← serving]

/-- How a fault leaves the host and the page when the handler takes up a request. -/
structure TakesUp (host : Host) (page : ByteMem) (host' : Host) (page' : ByteMem) : Prop where
  served : host'.served = host.served ++ [⟨page.get FaultData.action, page, host.completes page⟩]
  serving : host'.serving = host.completes page
  turn : page'.get FaultData.turn =
    if host.completes page then FhTurn.guest.code else FhTurn.host.code

theorem onEscape_takesUp {host : Host} {page : ByteMem} (serving : host.serving = true)
    (turn : page.get FaultData.turn = FhTurn.host.code) :
    host.TakesUp page (host.onEscape page).1 (host.onEscape page).2 := by
  cases handled : handleAction host.outcome host.manager page with
  | none =>
      have died := handle_of_died turn handled
      have notCompleted : host.completes page = false := by
        simp [completes, died, fhFaultHandlerNext]
      constructor <;> simp [onEscape, serving, died, servedAfter, turn, notCompleted]
  | some result =>
      rcases result with ⟨ret, manager', page'⟩
      have header := handleAction_headerEq handled
      by_cases negative : ret < 0
      · have returned := handle_of_refused turn handled negative
        have notCompleted : host.completes page = false := by
          simp [completes, returned, fhFaultHandlerNext]
          omega
        constructor
        · simp [onEscape, serving, returned, servedAfter, turn]
        · simp [onEscape, serving, returned]
        · simp only [onEscape, serving, ↓reduceIte, returned, notCompleted, Bool.false_eq_true]
          rw [header.get_eq (by decide), turn]
      · have returned := handle_of_completed turn handled (not_lt.mp negative)
        have completed : host.completes page = true := by
          simp [completes, returned, fhFaultHandlerNext]
        constructor
        · simp [onEscape, serving, returned, servedAfter, turn]
        · simp [onEscape, serving, returned]
        · simp only [onEscape, serving, ↓reduceIte, returned, completed]
          rw [ByteMem.get_set_same]
          rfl

def completing (host : Host) (page : ByteMem) (manager : Manager) : Host :=
  { host with
    manager := manager
    served := host.served ++ [⟨page.get FaultData.action, page, true⟩] }

theorem onEscape_of_handled {host : Host} {page page' : ByteMem} {manager : Manager} {ret : ℤ}
    (serving : host.serving = true) (turn : page.get FaultData.turn = FhTurn.host.code)
    (handled : handleAction host.outcome host.manager page = some (ret, manager, page'))
    (nonneg : 0 ≤ ret) :
    host.onEscape page =
      (host.completing page manager, page'.set FaultData.turn FhTurn.guest.code) := by
  have returned := handle_of_completed turn handled nonneg
  have completed : host.completes page = true := by
    simp [completes, returned, fhFaultHandlerNext]
  simp only [onEscape, serving, ↓reduceIte, returned, completed, servedAfter, turn, completing]

theorem onEscape_manager {host : Host} {page page' : ByteMem} {manager : Manager} {ret : ℤ}
    (serving : host.serving = true) (turn : page.get FaultData.turn = FhTurn.host.code)
    (handled : handleAction host.outcome host.manager page = some (ret, manager, page')) :
    (host.onEscape page).1.manager = manager := by
  have returned : ∃ ret' page'', host.handle page = some (ret', manager, page'') := by
    by_cases negative : ret < 0
    · exact ⟨ret, page', handle_of_refused turn handled negative⟩
    · exact ⟨0, _, handle_of_completed turn handled (not_lt.mp negative)⟩
  rcases returned with ⟨ret', page'', returned⟩
  simp only [onEscape, serving, ↓reduceIte, returned]

theorem completes_of_refused {host : Host} {page page' : ByteMem} {manager : Manager} {ret : ℤ}
    (turn : page.get FaultData.turn = FhTurn.host.code)
    (handled : handleAction host.outcome host.manager page = some (ret, manager, page'))
    (negative : ret < 0) : host.completes page = false := by
  have returned := handle_of_refused turn handled negative
  simp [completes, returned, fhFaultHandlerNext]
  omega

theorem completes_of_died {host : Host} {page : ByteMem}
    (turn : page.get FaultData.turn = FhTurn.host.code)
    (died : handleAction host.outcome host.manager page = none) : host.completes page = false := by
  have ended := handle_of_died turn died
  simp [completes, ended, fhFaultHandlerNext]

theorem onEscape_of_died {host : Host} {page : ByteMem}
    (turn : page.get FaultData.turn = FhTurn.host.code)
    (died : handleAction host.outcome host.manager page = none) :
    (host.onEscape page).1.manager = host.manager := by
  have ended := handle_of_died turn died
  cases serving : host.serving <;> simp [onEscape, serving, ended]

theorem onEscape_of_refused {host : Host} {page page' : ByteMem} {manager : Manager} {ret : ℤ}
    (serving : host.serving = true) (turn : page.get FaultData.turn = FhTurn.host.code)
    (handled : handleAction host.outcome host.manager page = some (ret, manager, page'))
    (negative : ret < 0) : (host.onEscape page).2 = page' := by
  have returned := handle_of_refused turn handled negative
  simp only [onEscape, serving, ↓reduceIte, returned]

end Host

end Acai
