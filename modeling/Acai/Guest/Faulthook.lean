import Acai.Lib.Program
import Acai.Manager.Listener

/-!
# The guest's escape to the host

`fh_do_faulthook` hands a request to the host: it gives the turn to the host,
writes the action, and stores a fresh nonce to the hooked word of the page, which
faults and lets the host run. When the store returns, the turn says whether the
host has replied.
-/

namespace Acai

def fhDoFaulthook (action : FhAction) : Prog ℤ := do
  let nonce ← Prog.increment
  Prog.storeField FaultData.turn FhTurn.host.code
  Prog.storeField FaultData.action action.code
  -- the store to the hooked word escapes to the host
  Prog.storeField FaultData.nonce nonce
  Prog.doorbell
  let turn ← Prog.loadField FaultData.turn
  if turn ≠ FhTurn.guest.code then pure (-Errno.ENXIO.code) else pure 0

/-- The page as the host finds it when `fh_do_faulthook` rings. -/
def escapePage (action : FhAction) (nonce : ℕ) (page : ByteMem) : ByteMem :=
  ((page.set FaultData.turn FhTurn.host.code).set FaultData.action action.code).set
    FaultData.nonce nonce

theorem escapePage_turn (action : FhAction) (nonce : ℕ) (page : ByteMem) :
    (escapePage action nonce page).get FaultData.turn = FhTurn.host.code := by
  simp only [escapePage]
  rw [ByteMem.get_set_of_disjoint (by decide), ByteMem.get_set_of_disjoint (by decide),
    ByteMem.get_set_same]
  rfl

theorem escapePage_action (action : FhAction) (nonce : ℕ) (page : ByteMem) :
    (escapePage action nonce page).get FaultData.action = action.code := by
  simp only [escapePage]
  rw [ByteMem.get_set_of_disjoint (by decide), ByteMem.get_set_same]
  exact Nat.mod_eq_of_lt action.code_lt

theorem escapePage_apply_of_le {action : FhAction} {nonce address : ℕ} {page : ByteMem}
    (inData : FaultData.data ≤ address) : escapePage action nonce page address = page address := by
  have turn : FaultData.turn.offset + FaultData.turn.width ≤ FaultData.data := by decide
  have word : FaultData.action.offset + FaultData.action.width ≤ FaultData.data := by decide
  have hook : FaultData.nonce.offset + FaultData.nonce.width ≤ FaultData.data := by decide
  simp only [escapePage]
  rw [ByteMem.set_apply_of_ge (by omega), ByteMem.set_apply_of_ge (by omega),
    ByteMem.set_apply_of_ge (by omega)]

theorem readBytes_escapePage {action : FhAction} {nonce offset count : ℕ} {page : ByteMem}
    (inData : FaultData.data ≤ offset) :
    (escapePage action nonce page).readBytes offset count = page.readBytes offset count :=
  ByteMem.readBytes_congr fun _ _ => escapePage_apply_of_le (by omega)

theorem get_escapePage {action : FhAction} {nonce : ℕ} {page : ByteMem} {field : Field}
    (inData : FaultData.data ≤ field.offset) :
    (escapePage action nonce page).get field = page.get field :=
  ByteMem.get_congr fun _ _ => escapePage_apply_of_le (by omega)

theorem getInt_escapePage {action : FhAction} {nonce : ℕ} {page : ByteMem} {field : Field}
    (inData : FaultData.data ≤ field.offset) :
    (escapePage action nonce page).getInt field = page.getInt field := by
  simp only [ByteMem.getInt, get_escapePage inData]

def escaping {σ : Type} (action : FhAction) (machine : Machine σ) : Machine σ :=
  { machine with
    page := escapePage action (machine.counter + 1) machine.page
    counter := machine.counter + 1 }

theorem run_checkTurn {σ : Type} (answer : σ → ByteMem → σ × ByteMem) (machine : Machine σ) :
    (Prog.loadField FaultData.turn >>= fun turn =>
        if turn ≠ FhTurn.guest.code then pure (-Errno.ENXIO.code) else pure 0 : Prog ℤ).run
      answer machine =
        (.done (if machine.page.get FaultData.turn ≠ FhTurn.guest.code then -Errno.ENXIO.code
          else 0), machine) := by
  rw [Prog.run_bind_of_done answer (Prog.run_loadField answer FaultData.turn machine)]
  split <;> rfl

/-- `fh_do_faulthook` lets the host handle the page and reports whether the turn came back. -/
theorem run_fhDoFaulthook {σ : Type} (answer : σ → ByteMem → σ × ByteMem) (action : FhAction)
    (machine : Machine σ) :
    (fhDoFaulthook action).run answer machine =
      (.done (if ((escaping action machine).answered answer).page.get FaultData.turn ≠
          FhTurn.guest.code then -Errno.ENXIO.code else 0),
        (escaping action machine).answered answer) := by
  rw [← run_checkTurn answer]
  simp only [fhDoFaulthook, Prog.run_bind, Prog.run_increment, Prog.andThen_done,
    Prog.run_storeField, Prog.run_doorbell, escaping, escapePage]

theorem run_fhDoFaulthook_of_handled {action : FhAction} {machine : Machine Host} {ret : ℤ}
    {manager : Manager} {page : ByteMem} (serving : machine.peer.serving = true)
    (handled : handleAction machine.peer.outcome machine.peer.manager
      (escapePage action (machine.counter + 1) machine.page) = some (ret, manager, page))
    (nonneg : 0 ≤ ret) :
    (fhDoFaulthook action).run Host.onEscape machine =
      (.done 0,
        { machine with
          page := page.set FaultData.turn FhTurn.guest.code
          counter := machine.counter + 1
          peer := machine.peer.completing
            (escapePage action (machine.counter + 1) machine.page) manager }) := by
  have answered := Host.onEscape_of_handled serving (escapePage_turn action _ machine.page)
    handled nonneg
  rw [run_fhDoFaulthook]
  simp only [Machine.answered, escaping, answered, ByteMem.get_set_same]
  rfl

theorem run_fhDoFaulthook_of_notCompleted {action : FhAction} {machine : Machine Host}
    (notCompleted : machine.peer.serving = false ∨
      machine.peer.completes (escapePage action (machine.counter + 1) machine.page) = false) :
    (fhDoFaulthook action).run Host.onEscape machine =
      (.done (-Errno.ENXIO.code), (escaping action machine).answered Host.onEscape) := by
  have turn := escapePage_turn action (machine.counter + 1) machine.page
  have kept : ((escaping action machine).answered Host.onEscape).page.get FaultData.turn =
      FhTurn.host.code := by
    simp only [Machine.answered, escaping]
    cases serving : machine.peer.serving with
    | false =>
        rw [Host.onEscape_of_idle (Or.inl serving)]
        exact turn
    | true =>
        have refused : machine.peer.completes
            (escapePage action (machine.counter + 1) machine.page) = false := by
          rcases notCompleted with ended | refused
          · rw [ended] at serving
            cases serving
          · exact refused
        rw [(Host.onEscape_takesUp serving turn).turn, refused]
        rfl
  rw [run_fhDoFaulthook, kept, if_pos (by decide)]

def Machine.cleared : Machine Host where
  page := ByteMem.zero
  locked := false
  counter := 0
  peer :=
    { manager := Manager.awaitingDma
      serving := true
      outcomes := fun _ => FaultOutcome.success
      served := [] }

end Acai
