import Acai.Guest.Faulthook

/-!
# Requests under unintended faults

A fault on the escape page need not come from the guest's store to the nonce:
the handler's own comment says that faults are also caused unintentionally. This
file runs the guest's requests while the host is woken any number of times before
each access of the guest, and asks whether each request is carried out exactly
once, with its own action and payload.

The turn word is what keeps a stray fault harmless. Before the guest gives the
turn to the host, a fault is ignored. Once the turn and the action are written,
the request is complete: whichever fault comes first serves it, and the later
ones find the turn handed back. Between these two stores the turn already
belongs to the host while the action is still the one of an earlier request. A
stray fault there makes the host serve the old action on the new payload. This is
the only such point: a request is `Undisturbed` when no fault falls there, or when
the action word happens to hold the right code already.
-/

namespace Acai

structure Request where
  payload : List (ℕ × List UInt8)
  action : FhAction

def storeAll {α : Type} : List (ℕ × List UInt8) → Prog α → Prog α
  | [], next => next
  | (offset, bytes) :: rest, next => .store (FaultData.data + offset) bytes (storeAll rest next)

def storedPage (page : ByteMem) : List (ℕ × List UInt8) → ByteMem
  | [] => page
  | (offset, bytes) :: rest =>
      storedPage (page.writeBytes (FaultData.data + offset) bytes) rest

theorem storedPage_headerEq (page : ByteMem) (payload : List (ℕ × List UInt8)) :
    HeaderEq page (storedPage page payload) := by
  induction payload generalizing page with
  | nil => exact HeaderEq.refl page
  | cons store rest ih => exact (HeaderEq.writeBytes_of_le (by omega)).trans (ih _)

def Request.program (request : Request) : Prog ℤ :=
  storeAll request.payload (fhDoFaulthook request.action)

/-- A request together with the unintended faults before each of its accesses. -/
structure Attempt where
  request : Request
  wakes : List ℕ

namespace Attempt

def run (attempt : Attempt) (machine : Machine Host) : Result ℤ × Machine Host :=
  attempt.request.program.runSpurious Host.onEscape attempt.wakes machine

def after (attempt : Attempt) (machine : Machine Host) : Machine Host :=
  (attempt.run machine).2

/-- The unintended faults between the store of the turn and the store of the action. -/
def inWindow (attempt : Attempt) : ℕ :=
  attempt.wakes.getD (attempt.request.payload.length + 1) 0

/--
The host carries the request out exactly once, with its own action and payload,
and `fh_do_faulthook` returns 0 exactly when the host has completed it.
-/
def ExactlyOnce (attempt : Attempt) (machine : Machine Host) : Prop :=
  ∃ (served : Served) (ret : ℤ),
    (attempt.after machine).peer.served = machine.peer.served ++ [served] ∧
    served.action = attempt.request.action.code ∧
    (∀ address, FaultData.data ≤ address →
      served.page address = storedPage machine.page attempt.request.payload address) ∧
    (attempt.run machine).1 = .done ret ∧
    (ret = 0 ↔ served.completed = true)

/-- The listener runs, and no unintended fault can meet a stale action. -/
def Undisturbed (attempt : Attempt) (machine : Machine Host) : Prop :=
  machine.peer.serving = true ∧
    (attempt.inWindow = 0 ∨ machine.page.get FaultData.action = attempt.request.action.code)

end Attempt

/-- While the listener runs and no request is under way, it is not the host's turn. -/
def Quiet (machine : Machine Host) : Prop :=
  machine.peer.serving = true → machine.page.get FaultData.turn ≠ FhTurn.host.code

def Idle (machine : Machine Host) : Prop :=
  machine.peer.serving = false ∨ machine.page.get FaultData.turn ≠ FhTurn.host.code

theorem wake_of_isIdle {machine : Machine Host} (idle : Idle machine) (times : ℕ) :
    machine.wake Host.onEscape times = machine :=
  Machine.wake_of_idle (Host.onEscape_of_idle idle) times

/-! ## Pending and settled requests -/

/-- The turn is the host's and the request is on the page, not yet taken up. -/
structure Pending (base : List Served) (code : ℕ) (data : ByteMem) (machine : Machine Host) :
    Prop where
  serving : machine.peer.serving = true
  turn : machine.page.get FaultData.turn = FhTurn.host.code
  action : machine.page.get FaultData.action = code
  payload : ∀ address, FaultData.data ≤ address → machine.page address = data address
  served : machine.peer.served = base

/-- The request has been taken up once, and the page shows whether it was completed. -/
def Settled (base : List Served) (code : ℕ) (data : ByteMem) (machine : Machine Host) : Prop :=
  ∃ served : Served, machine.peer.served = base ++ [served] ∧ served.action = code ∧
    (∀ address, FaultData.data ≤ address → served.page address = data address) ∧
    machine.peer.serving = served.completed ∧
    machine.page.get FaultData.turn =
      if served.completed then FhTurn.guest.code else FhTurn.host.code

variable {base : List Served} {code : ℕ} {data : ByteMem} {machine : Machine Host}

theorem Settled.idle (settled : Settled base code data machine) : Idle machine := by
  rcases settled with ⟨served, -, -, -, serving, turn⟩
  cases completed : served.completed with
  | false => exact Or.inl (by rw [serving, completed])
  | true =>
      right
      rw [turn, completed]
      decide

theorem Settled.quiet (settled : Settled base code data machine) : Quiet machine := by
  intro serving
  rcases settled.idle with ended | notTurn
  · rw [ended] at serving
    cases serving
  · exact notTurn

theorem Pending.settled (pending : Pending base code data machine) :
    Settled base code data (machine.answered Host.onEscape) := by
  rcases Host.onEscape_takesUp pending.serving pending.turn with ⟨served, serving, turn⟩
  rw [pending.served] at served
  exact ⟨_, served, pending.action, pending.payload, serving, turn⟩

theorem Pending.wake (pending : Pending base code data machine) (times : ℕ) :
    Pending base code data (machine.wake Host.onEscape times) ∨
      Settled base code data (machine.wake Host.onEscape times) := by
  rcases times with _ | times
  · exact Or.inl pending
  · right
    have settled := pending.settled
    rw [Machine.wake, wake_of_isIdle settled.idle]
    exact settled

theorem Settled.set (settled : Settled base code data machine) (field : Field) {value : ℕ}
    (disjoint : field.Disjoint FaultData.turn) :
    Settled base code data (machine.storing field.offset (leBytes field.width value)) := by
  rcases settled with ⟨served, record, action, payload, serving, turn⟩
  refine ⟨served, record, action, payload, serving, ?_⟩
  rw [← turn]
  exact ByteMem.get_set_of_disjoint disjoint

theorem Settled.wake (settled : Settled base code data machine) (times : ℕ) :
    Settled base code data (machine.wake Host.onEscape times) := by
  rw [wake_of_isIdle settled.idle]
  exact settled

theorem Settled.ring (settled : Settled base code data machine) :
    Settled base code data (machine.answered Host.onEscape) := by
  rw [Machine.answered_of_idle (Host.onEscape_of_idle settled.idle)]
  exact settled

theorem Pending.setNonce (pending : Pending base code data machine) (value : ℕ) :
    Pending base code data
      (machine.storing FaultData.nonce.offset (leBytes FaultData.nonce.width value)) where
  serving := pending.serving
  turn := by
    rw [← pending.turn]
    exact @ByteMem.get_set_of_disjoint _ FaultData.nonce _ _ (by decide)
  action := by
    rw [← pending.action]
    exact @ByteMem.get_set_of_disjoint _ FaultData.nonce _ _ (by decide)
  payload := by
    intro address inData
    have hook : FaultData.nonce.offset + FaultData.nonce.width ≤ FaultData.data := by decide
    rw [← pending.payload address inData]
    exact @ByteMem.set_apply_of_ge _ FaultData.nonce _ _ (hook.trans inData)
  served := pending.served

/-- Once the turn is the host's and the payload is written, the action is all that is missing:
the request is pending for whatever action code the page holds. -/
theorem pending_of_turn (machine : Machine Host) (serving : machine.peer.serving = true) :
    Pending machine.peer.served (machine.page.get FaultData.action) machine.page
      (machine.storing FaultData.turn.offset
        (leBytes FaultData.turn.width FhTurn.host.code)) where
  serving := serving
  turn := by
    exact (ByteMem.get_set_same _ FaultData.turn _).trans (by decide)
  action := @ByteMem.get_set_of_disjoint _ FaultData.turn _ _ (by decide)
  payload := by
    intro address inData
    have word : FaultData.turn.offset + FaultData.turn.width ≤ FaultData.data := by decide
    exact @ByteMem.set_apply_of_ge _ FaultData.turn _ _ (word.trans inData)
  served := rfl

theorem Pending.complete (pending : Pending base code data machine) (action : FhAction) :
    Pending base action.code data
      (machine.storing FaultData.action.offset (leBytes FaultData.action.width action.code)) where
  serving := pending.serving
  turn := by
    rw [← pending.turn]
    exact @ByteMem.get_set_of_disjoint _ FaultData.action _ _ (by decide)
  action := (ByteMem.get_set_same _ FaultData.action _).trans (Nat.mod_eq_of_lt action.code_lt)
  payload := by
    intro address inData
    have word : FaultData.action.offset + FaultData.action.width ≤ FaultData.data := by decide
    rw [← pending.payload address inData]
    exact @ByteMem.set_apply_of_ge _ FaultData.action _ _ (word.trans inData)
  served := pending.served

/-! ## One request -/

def faulthookEnd (nonce : ℕ) : Prog ℤ := do
  Prog.storeField FaultData.nonce nonce
  Prog.doorbell
  let turn ← Prog.loadField FaultData.turn
  if turn ≠ FhTurn.guest.code then pure (-Errno.ENXIO.code) else pure 0

theorem fhDoFaulthook_eq (action : FhAction) :
    fhDoFaulthook action =
      .count fun nonce =>
        .store FaultData.turn.offset (leBytes FaultData.turn.width FhTurn.host.code)
          (.store FaultData.action.offset (leBytes FaultData.action.width action.code)
            (faulthookEnd nonce)) := rfl

theorem faulthookEnd_eq (nonce : ℕ) :
    faulthookEnd nonce =
      .store FaultData.nonce.offset (leBytes FaultData.nonce.width nonce)
        (.ring (.load FaultData.turn.offset FaultData.turn.width fun bytes =>
          if ofLE bytes ≠ FhTurn.guest.code then pure (-Errno.ENXIO.code) else pure 0)) := rfl

theorem Settled.runSpurious_load (settled : Settled base code data machine) (wakes : List ℕ) :
    ∃ ret, (Prog.load FaultData.turn.offset FaultData.turn.width fun bytes =>
          (if ofLE bytes ≠ FhTurn.guest.code then pure (-Errno.ENXIO.code)
            else pure 0 : Prog ℤ)).runSpurious Host.onEscape wakes machine = (.done ret, machine) ∧
        (ret = 0 ↔ machine.peer.serving = true) := by
  rcases id settled with ⟨served, -, -, -, serving, turn⟩
  have word : ofLE (machine.page.readBytes FaultData.turn.offset FaultData.turn.width) =
      if served.completed then FhTurn.guest.code else FhTurn.host.code := turn
  simp only [Prog.runSpurious, wake_of_isIdle settled.idle, word, serving]
  cases served.completed with
  | false => exact ⟨-Errno.ENXIO.code, rfl, by decide⟩
  | true => exact ⟨0, rfl, by decide⟩

theorem runSpurious_faulthookEnd
    (ready : Pending base code data machine ∨ Settled base code data machine) (nonce : ℕ)
    (wakes : List ℕ) :
    ∃ ret final, (faulthookEnd nonce).runSpurious Host.onEscape wakes machine = (.done ret, final) ∧
      Settled base code data final ∧ (ret = 0 ↔ final.peer.serving = true) := by
  have beforeStore : Pending base code data (machine.wake Host.onEscape (wakes.headD 0)) ∨
      Settled base code data (machine.wake Host.onEscape (wakes.headD 0)) := by
    rcases ready with pending | settled
    · exact pending.wake _
    · exact Or.inr (settled.wake _)
  obtain ⟨stored, storedEq⟩ : ∃ stored, stored =
      (machine.wake Host.onEscape (wakes.headD 0)).storing FaultData.nonce.offset
        (leBytes FaultData.nonce.width nonce) := ⟨_, rfl⟩
  have afterStore : Pending base code data stored ∨ Settled base code data stored := by
    rw [storedEq]
    rcases beforeStore with pending | settled
    · exact Or.inl (pending.setNonce nonce)
    · exact Or.inr (settled.set FaultData.nonce (by decide))
  obtain ⟨rung, rungEq⟩ : ∃ rung, rung =
      (stored.wake Host.onEscape (wakes.tail.headD 0)).answered Host.onEscape := ⟨_, rfl⟩
  have afterRing : Settled base code data rung := by
    rw [rungEq]
    rcases afterStore with pending | settled
    · rcases pending.wake (wakes.tail.headD 0) with pending | settled
      · exact pending.settled
      · exact settled.ring
    · exact (settled.wake _).ring
  rcases afterRing.runSpurious_load wakes.tail.tail with ⟨ret, loaded, returned⟩
  refine ⟨ret, rung, ?_, afterRing, returned⟩
  rw [faulthookEnd_eq, Prog.runSpurious, Prog.runSpurious, ← storedEq, ← rungEq, loaded]

theorem runSpurious_storeAll (idle : Idle machine) (payload : List (ℕ × List UInt8))
    (next : Prog ℤ) (wakes : List ℕ) :
    (storeAll payload next).runSpurious Host.onEscape wakes machine =
      next.runSpurious Host.onEscape (wakes.drop payload.length)
        { machine with page := storedPage machine.page payload } := by
  induction payload generalizing machine wakes with
  | nil => rfl
  | cons store rest ih =>
      rcases store with ⟨offset, bytes⟩
      simp only [storeAll, Prog.runSpurious, wake_of_isIdle idle]
      have header : HeaderEq machine.page
          (machine.page.writeBytes (FaultData.data + offset) bytes) :=
        HeaderEq.writeBytes_of_le (by omega)
      have idle' : Idle (machine.storing (FaultData.data + offset) bytes) := by
        rcases idle with ended | notTurn
        · exact Or.inl ended
        · right
          simp only [Machine.storing]
          rwa [header.get_eq (by decide)]
      rw [ih idle']
      simp [Machine.storing, storedPage, ← List.drop_one, List.drop_drop, Nat.add_comm]

def Attempt.written (attempt : Attempt) (machine : Machine Host) : Machine Host :=
  { machine with
    page := storedPage machine.page attempt.request.payload
    counter := machine.counter + 1 }

def Attempt.turned (attempt : Attempt) (machine : Machine Host) : Machine Host :=
  (attempt.written machine).storing FaultData.turn.offset
    (leBytes FaultData.turn.width FhTurn.host.code)

def Attempt.handedOver (attempt : Attempt) (machine : Machine Host) : Machine Host :=
  ((attempt.turned machine).wake Host.onEscape attempt.inWindow).storing FaultData.action.offset
    (leBytes FaultData.action.width attempt.request.action.code)

theorem Attempt.run_eq {attempt : Attempt} (idle : Idle machine) :
    attempt.run machine =
      (faulthookEnd (machine.counter + 1)).runSpurious Host.onEscape
        (attempt.wakes.drop (attempt.request.payload.length + 2)) (attempt.handedOver machine) := by
  have header := storedPage_headerEq machine.page attempt.request.payload
  have idle' : Idle (attempt.written machine) := by
    rcases idle with ended | notTurn
    · exact Or.inl ended
    · right
      simp only [Attempt.written]
      rwa [header.get_eq (by decide)]
  simp only [Attempt.run, Request.program]
  rw [runSpurious_storeAll idle, fhDoFaulthook_eq]
  simp only [Prog.runSpurious]
  rw [show Machine.mk (storedPage machine.page attempt.request.payload) machine.locked
    (machine.counter + 1) machine.peer = attempt.written machine from rfl, wake_of_isIdle idle']
  simp [Attempt.handedOver, Attempt.turned, Attempt.inWindow, ← List.drop_one, List.head?_drop]

/-- After the two stores of the hand-over the request is on the page, unless a fault between
them met a stale action. -/
theorem Attempt.handedOver_ready {attempt : Attempt} (undisturbed : attempt.Undisturbed machine) :
    Pending machine.peer.served attempt.request.action.code
        (storedPage machine.page attempt.request.payload) (attempt.handedOver machine) ∨
      Settled machine.peer.served attempt.request.action.code
        (storedPage machine.page attempt.request.payload) (attempt.handedOver machine) := by
  rcases undisturbed with ⟨serving, window⟩
  have turnGiven := pending_of_turn (attempt.written machine) serving
  have header := storedPage_headerEq machine.page attempt.request.payload
  rcases window with noFault | sameAction
  · left
    rw [Attempt.handedOver, noFault]
    exact turnGiven.complete attempt.request.action
  · have stale : (attempt.written machine).page.get FaultData.action =
        attempt.request.action.code := (header.get_eq (by decide)).trans sameAction
    rw [stale] at turnGiven
    rcases turnGiven.wake attempt.inWindow with pending | settled
    · exact Or.inl (pending.complete attempt.request.action)
    · exact Or.inr (settled.set FaultData.action (by decide))

theorem Attempt.run_settled {attempt : Attempt} (quiet : Quiet machine)
    (undisturbed : attempt.Undisturbed machine) :
    ∃ ret final, attempt.run machine = (.done ret, final) ∧
      Settled machine.peer.served attempt.request.action.code
        (storedPage machine.page attempt.request.payload) final ∧
      (ret = 0 ↔ final.peer.serving = true) := by
  rw [Attempt.run_eq (Or.inr (quiet undisturbed.1))]
  exact runSpurious_faulthookEnd (Attempt.handedOver_ready undisturbed) _ _

theorem Attempt.exactlyOnce_of_undisturbed {attempt : Attempt} (quiet : Quiet machine)
    (undisturbed : attempt.Undisturbed machine) : attempt.ExactlyOnce machine := by
  rcases attempt.run_settled quiet undisturbed with ⟨ret, final, ran, settled, returned⟩
  rcases settled with ⟨served, record, action, payload, serving, -⟩
  rw [serving] at returned
  refine ⟨served, ret, ?_, action, payload, by rw [ran], returned⟩
  rw [Attempt.after, ran]
  exact record

theorem Attempt.quiet_after {attempt : Attempt} (quiet : Quiet machine)
    (undisturbed : attempt.Undisturbed machine) : Quiet (attempt.after machine) := by
  rcases attempt.run_settled quiet undisturbed with ⟨ret, final, ran, settled, -⟩
  rw [Attempt.after, ran]
  exact settled.quiet

/-! ## Disturbed requests -/

theorem Host.served_isPrefix (host : Host) (page : ByteMem) :
    host.served <+: (host.onEscape page).1.served := by
  cases serving : host.serving with
  | false => simp [Host.onEscape_of_idle (Or.inl serving)]
  | true =>
      by_cases turn : page.get FaultData.turn = FhTurn.host.code
      · rw [(Host.onEscape_takesUp serving turn).served]
        exact List.prefix_append _ _
      · simp [Host.onEscape_of_idle (Or.inr turn)]

theorem served_isPrefix_runSpurious (program : Prog ℤ) (wakes : List ℕ) (machine : Machine Host) :
    machine.peer.served <+: (program.runSpurious Host.onEscape wakes machine).2.peer.served :=
  Prog.runSpurious_peer (r := fun before after : Host => before.served <+: after.served)
    (fun _ => List.prefix_rfl) (fun _ _ _ => List.IsPrefix.trans) Host.served_isPrefix
    program wakes machine

theorem peer_runSpurious_of_ended (program : Prog ℤ) (wakes : List ℕ)
    (ended : machine.peer.serving = false) :
    (program.runSpurious Host.onEscape wakes machine).2.peer = machine.peer :=
  Prog.runSpurious_peer (r := fun before after : Host => before.serving = false → after = before)
    (fun _ _ => rfl)
    (fun _ _ _ first second ended => by
      have same := first ended
      rw [second (by rw [same, ended]), same])
    (fun host page ended => by rw [Host.onEscape_of_idle (Or.inl ended)])
    program wakes machine ended

/-- A fault between the two stores makes the host serve the action that the page still holds. -/
theorem Attempt.served_stale {attempt : Attempt} (serving : machine.peer.serving = true)
    (woken : attempt.inWindow ≠ 0) :
    ∃ stale : Served, stale.action = machine.page.get FaultData.action ∧
      (attempt.handedOver machine).peer.served = machine.peer.served ++ [stale] := by
  have turnGiven := pending_of_turn (attempt.written machine) serving
  have header := storedPage_headerEq machine.page attempt.request.payload
  rcases Nat.exists_eq_succ_of_ne_zero woken with ⟨times, woken⟩
  have settled := turnGiven.settled
  rw [← wake_of_isIdle settled.idle times] at settled
  rcases settled with ⟨stale, record, action, -⟩
  refine ⟨stale, action.trans (header.get_eq (by decide)), ?_⟩
  rw [Attempt.handedOver, woken]
  exact record

theorem Attempt.undisturbed_of_exactlyOnce {attempt : Attempt} (quiet : Quiet machine)
    (once : attempt.ExactlyOnce machine) : attempt.Undisturbed machine := by
  rcases once with ⟨served, -, record, action, -⟩
  cases serving : machine.peer.serving with
  | false =>
      rw [Attempt.after, Attempt.run, peer_runSpurious_of_ended _ _ serving] at record
      simp at record
  | true =>
      refine ⟨serving, ?_⟩
      by_contra disturbed
      rcases not_or.mp disturbed with ⟨woken, otherAction⟩
      rcases Attempt.served_stale serving woken with ⟨stale, staleAction, staleRecord⟩
      rw [Attempt.after, Attempt.run_eq (Or.inr (quiet serving))] at record
      have grown := served_isPrefix_runSpurious (faulthookEnd (machine.counter + 1))
        (attempt.wakes.drop (attempt.request.payload.length + 2)) (attempt.handedOver machine)
      rw [record, staleRecord] at grown
      obtain rfl : stale = served := by simpa using grown
      exact otherAction (staleAction.symm.trans action)

/-! ## Sequences of requests -/

/-- Every attempt of a sequence, started in the state that the earlier ones leave, has a
property. -/
def Throughout (property : Attempt → Machine Host → Prop) : Machine Host → List Attempt → Prop
  | _, [] => True
  | machine, attempt :: later =>
      property attempt machine ∧ Throughout property (attempt.after machine) later

/--
From a state in which it is not the host's turn, for every sequence of requests and
every placement of unintended faults: the host carries out each request exactly
once, with its own action and payload, and the guest is told so, if and only if no
request is disturbed.
-/
theorem throughout_exactlyOnce_iff (machine : Machine Host) (attempts : List Attempt)
    (quiet : Quiet machine) :
    Throughout Attempt.ExactlyOnce machine attempts ↔
      Throughout Attempt.Undisturbed machine attempts := by
  induction attempts generalizing machine with
  | nil => exact Iff.rfl
  | cons attempt later ih =>
      constructor
      · rintro ⟨once, rest⟩
        have undisturbed := attempt.undisturbed_of_exactlyOnce quiet once
        exact ⟨undisturbed, (ih _ (attempt.quiet_after quiet undisturbed)).mp rest⟩
      · rintro ⟨undisturbed, rest⟩
        exact ⟨attempt.exactlyOnce_of_undisturbed quiet undisturbed,
          (ih _ (attempt.quiet_after quiet undisturbed)).mpr rest⟩

def setupAttempt : Attempt where
  request := ⟨[], .setup⟩
  wakes := [2, 0, 1, 1]

def openAttempt : Attempt where
  request := ⟨[(ActionOpenclose.device - FaultData.data, [0x2f, 0x64, 0])], .openDevice⟩
  wakes := [0, 0, 1]

theorem quiet_cleared : Quiet Machine.cleared := by
  intro serving
  decide

theorem setupAttempt_undisturbed : setupAttempt.Undisturbed Machine.cleared :=
  ⟨rfl, Or.inl rfl⟩

theorem throughout_exactlyOnce_setup :
    Quiet Machine.cleared ∧ Throughout Attempt.ExactlyOnce Machine.cleared [setupAttempt] :=
  ⟨quiet_cleared, (throughout_exactlyOnce_iff _ _ quiet_cleared).mpr
    ⟨setupAttempt_undisturbed, trivial⟩⟩

/-- A fault between the turn and the action makes the host serve the action of the request
before. -/
theorem stray_fault_serves_stale_action :
    ¬∀ (machine : Machine Host) (attempts : List Attempt), Quiet machine →
      Throughout Attempt.ExactlyOnce machine attempts := by
  intro claim
  rcases claim Machine.cleared [setupAttempt, openAttempt] quiet_cleared with ⟨-, once, -⟩
  have quiet := setupAttempt.quiet_after quiet_cleared setupAttempt_undisturbed
  rcases openAttempt.undisturbed_of_exactlyOnce quiet once with ⟨-, noFault | sameAction⟩
  · exact absurd noFault (by decide)
  · exact absurd sameAction (by decide +kernel)

end Acai
