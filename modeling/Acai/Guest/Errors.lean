import Acai.Guest.FileOps

/-!
# How host failures reach the guest's callers

The manager reports a failed device call with a negative `common.ret` and a
positive `common.err_no`, as user space does. The guest's operations pass
`common.err_no` on to the kernel as it is, where an error is a negative number, so
a failure that the host reports comes out as success. An escape that is not
answered at all is reported correctly.

The operations are run against any host that keeps to the protocol
(`HostReplies`), with a record of the pages that it leaves after each escape. The
manager of this repository is one of these hosts (`hostReplies_onEscape`).
-/

namespace Acai

/-- A peer that also records the page as it leaves it. -/
def logged {σ : Type} (answer : σ → ByteMem → σ × ByteMem) :
    σ × List ByteMem → ByteMem → (σ × List ByteMem) × ByteMem :=
  fun peer page =>
    (((answer peer.1 page).1, peer.2 ++ [(answer peer.1 page).2]), (answer peer.1 page).2)

def TurnBack (page : ByteMem) : Prop := page.get FaultData.turn = FhTurn.guest.code

def FhAction.repliesWithRet : FhAction → Bool
  | openDevice | closeDevice | mmap | dma => true
  | _ => false

/--
A host that keeps to the protocol while it is in a `good` state. It may leave an
escape unanswered. If it answers, it has taken the data of a transfer, or it has
written its reply as `set_ret_and_err_no` does, with a positive `errno` on
failure.
-/
structure HostReplies {σ : Type} (answer : σ → ByteMem → σ × ByteMem) (good : σ → Prop) :
    Prop where
  keeps : ∀ peer page, good peer → good (answer peer page).1
  action : ∀ peer page, good peer →
    (answer peer page).2.get FaultData.action = page.get FaultData.action
  transfer : ∀ peer page, good peer → page.get FaultData.turn = FhTurn.host.code →
    page.get FaultData.action = FhAction.transferEscapeData.code → TurnBack (answer peer page).2 →
      (page.getInt ActionTransferEscapeData.status = TransferStatus.transferSize.code →
        0 < (answer peer page).2.get ActionTransferEscapeData.chunkSize) ∧
      (page.getInt ActionTransferEscapeData.status = TransferStatus.transferData.code →
        (answer peer page).2.getInt ActionTransferEscapeData.status = TransferStatus.ok.code)
  reply : ∀ peer page, good peer → page.get FaultData.turn = FhTurn.host.code →
    ∀ action : FhAction, page.get FaultData.action = action.code →
      action.repliesWithRet = true → TurnBack (answer peer page).2 →
        ∃ ret errno : Int32, 0 < errno.toInt ∧
          (answer peer page).2.getInt ActionCommon.ret = ret.toInt ∧
          (answer peer page).2.getInt ActionCommon.errNo =
            if ret.toInt < 0 then errno.toInt else 0

/-- The host has answered a request other than a transfer, and reports a failure. -/
def ReportsFailure (page : ByteMem) : Prop :=
  page.get FaultData.action ≠ FhAction.transferEscapeData.code ∧
    page.getInt ActionCommon.ret < 0

/-- The operation has escaped, every escape was answered, and the host reports no failure. -/
def CarriedOut (log : List ByteMem) : Prop :=
  log ≠ [] ∧ ∀ page ∈ log, TurnBack page ∧ ¬ReportsFailure page

namespace FileOp

def checksReply : FileOp → Bool
  | charOpen _ | charClose _ | bridgeMmap _ | sgdmaReadWrite _ => true
  | _ => false

def successValue (op : FileOp) (log : List ByteMem) : ℤ :=
  match op with
  | sgdmaReadWrite _ => (log.getLast?.map fun page => page.getInt ActionCommon.ret).getD 0
  | _ => 0

/--
Host failures surface in the result of an operation: it is negative if and only
if the operation was not carried out, and the success value otherwise.
-/
def Surfaces (op : FileOp) (value : ℤ) (log : List ByteMem) : Prop :=
  (value < 0 ↔ ¬CarriedOut log) ∧ (CarriedOut log → value = op.successValue log)

/-- No escape of the operation is answered with a failure, and pages that the host has mapped can
be mapped in the guest. -/
def NotRefused (op : FileOp) (log : List ByteMem) : Prop :=
  (∀ page ∈ log, TurnBack page → ¬ReportsFailure page) ∧
    ∀ args, op = bridgeMmap args → CarriedOut log → args.remapRet = 0

end FileOp

/-! ## One escape -/

section

variable {σ : Type} {answer : σ → ByteMem → σ × ByteMem}

abbrev escaped (answer : σ → ByteMem → σ × ByteMem) (action : FhAction)
    (machine : Machine (σ × List ByteMem)) : Machine (σ × List ByteMem) :=
  (escaping action machine).answered (logged answer)

theorem run_fhDoFaulthook_unanswered {action : FhAction} {machine : Machine (σ × List ByteMem)}
    (unanswered : ¬TurnBack (escaped answer action machine).page) :
    (fhDoFaulthook action).run (logged answer) machine =
      (.done (-Errno.ENXIO.code), escaped answer action machine) := by
  rw [run_fhDoFaulthook, if_pos]
  exact unanswered

theorem run_fhDoFaulthook_answered {action : FhAction} {machine : Machine (σ × List ByteMem)}
    (answered : TurnBack (escaped answer action machine).page) :
    (fhDoFaulthook action).run (logged answer) machine =
      (.done 0, escaped answer action machine) := by
  rw [run_fhDoFaulthook, if_neg]
  exact not_not.mpr answered

section

variable {α : Type} {action : FhAction} {fail : ℤ → α} {success : Prog α}
  {machine : Machine (σ × List ByteMem)}

theorem run_escapeChecked_unanswered
    (unanswered : ¬TurnBack (escaped answer action machine).page) :
    (escapeChecked action fail success).run (logged answer) machine =
      (.done (fail (-Errno.ENXIO.code)), escaped answer action machine) := by
  rw [escapeChecked, Prog.run_bind_of_done _ (run_fhDoFaulthook_unanswered unanswered),
    if_pos (by decide), Prog.run_pure]

theorem run_escapeChecked_refused
    (answered : TurnBack (escaped answer action machine).page)
    (refused : (escaped answer action machine).page.getInt ActionCommon.ret < 0) :
    (escapeChecked action fail success).run (logged answer) machine =
      (.done (fail ((escaped answer action machine).page.getInt ActionCommon.errNo)),
        escaped answer action machine) := by
  rw [escapeChecked, Prog.run_bind_of_done _ (run_fhDoFaulthook_answered answered),
    if_neg (by decide), Prog.run_bind_of_done _ (Prog.run_loadInt _ _ _), if_pos refused,
    Prog.run_bind_of_done _ (Prog.run_loadInt _ _ _), Prog.run_pure]

theorem run_escapeChecked_success
    (answered : TurnBack (escaped answer action machine).page)
    (accepted : 0 ≤ (escaped answer action machine).page.getInt ActionCommon.ret) :
    (escapeChecked action fail success).run (logged answer) machine =
      success.run (logged answer) (escaped answer action machine) := by
  rw [escapeChecked, Prog.run_bind_of_done _ (run_fhDoFaulthook_answered answered),
    if_neg (by decide), Prog.run_bind_of_done _ (Prog.run_loadInt _ _ _),
    if_neg (not_lt.mpr accepted)]

end

/-! ## The ways in which an operation ends -/

def FileOp.hostValue (op : FileOp) (log : List ByteMem) : ℤ :=
  match op with
  | bridgeMmap args => args.remapRet
  | _ => op.successValue log

/-- How an operation ends. -/
inductive Ending (op : FileOp) (value : ℤ) (log : List ByteMem) : Prop where
  | early (negative : value < 0) (unfinished : ¬CarriedOut log)
      (noFailure : ∀ page ∈ log, TurnBack page → ¬ReportsFailure page)
  | refused (positive : 0 < value) (page : ByteMem) (page_mem : page ∈ log)
      (answered : TurnBack page) (failure : ReportsFailure page)
  | finished (carriedOut : CarriedOut log) (returned : value = op.hostValue log)
      (nonneg : 0 ≤ op.successValue log)

theorem Ending.surfaces_iff_notRefused {op : FileOp} {value : ℤ} {log : List ByteMem}
    (ending : Ending op value log) : op.Surfaces value log ↔ op.NotRefused log := by
  cases ending with
  | early negative unfinished noFailure =>
      exact ⟨fun _ => ⟨noFailure, fun _ _ carriedOut => absurd carriedOut unfinished⟩,
        fun _ => ⟨by simp [negative, unfinished], fun carriedOut => absurd carriedOut unfinished⟩⟩
  | refused positive page page_mem answered failure =>
      have notCarriedOut : ¬CarriedOut log :=
        fun carriedOut => (carriedOut.2 page page_mem).2 failure
      constructor
      · rintro ⟨negative, -⟩
        have := negative.mpr notCarriedOut
        omega
      · exact fun notRefused => absurd failure (notRefused.1 page page_mem answered)
  | finished carriedOut returned nonneg =>
      constructor
      · rintro ⟨-, success⟩
        refine ⟨fun page page_mem _ => (carriedOut.2 page page_mem).2, ?_⟩
        rintro args rfl _
        exact (returned.symm.trans (success carriedOut))
      · rintro ⟨-, mapped⟩
        have success : value = op.successValue log := by
          rw [returned]
          cases op with
          | bridgeMmap args => exact mapped args rfl carriedOut
          | _ => rfl
        refine ⟨?_, fun _ => success⟩
        simp only [carriedOut, not_true_eq_false, iff_false, not_lt, success, nonneg]

theorem carriedOut_append {before : List ByteMem} {page : ByteMem}
    (done : ∀ page ∈ before, TurnBack page ∧ ¬ReportsFailure page) (answered : TurnBack page)
    (accepted : ¬ReportsFailure page) : CarriedOut (before ++ [page]) := by
  refine ⟨by simp, ?_⟩
  intro other other_mem
  rcases List.mem_append.mp other_mem with earlier | last
  · exact done other earlier
  · rcases List.mem_singleton.mp last with rfl
    exact ⟨answered, accepted⟩

theorem escapeChecked_ending {good : σ → Prop} (replies : HostReplies answer good) (op : FileOp)
    {action : FhAction} (withRet : action.repliesWithRet = true) {α : Type} (fail : ℤ → α)
    (success : Prog α) (value : α → ℤ) (failValue : ∀ error, value (fail error) = error)
    (okValue : ByteMem → α) (ok : ∀ machine : Machine (σ × List ByteMem),
      success.run (logged answer) machine = (.done (okValue machine.page), machine))
    (okHost : ∀ (before : List ByteMem) (page : ByteMem) (ret : Int32),
      page.getInt ActionCommon.ret = ret.toInt → 0 ≤ ret.toInt →
        value (okValue page) = op.hostValue (before ++ [page]) ∧
          0 ≤ op.successValue (before ++ [page]))
    (machine : Machine (σ × List ByteMem)) (isGood : good machine.peer.1)
    (done : ∀ page ∈ machine.peer.2, TurnBack page ∧ ¬ReportsFailure page) :
    ∃ result final,
      (escapeChecked action fail success).run (logged answer) machine = (.done result, final) ∧
        Ending op (value result) final.peer.2 := by
  have turn := escapePage_turn action (machine.counter + 1) machine.page
  have code := escapePage_action action (machine.counter + 1) machine.page
  have action_eq : (escaped answer action machine).page.get FaultData.action = action.code :=
    (replies.action machine.peer.1 _ isGood).trans code
  have notTransfer : action.code ≠ FhAction.transferEscapeData.code := by
    cases action <;> simp_all [FhAction.repliesWithRet, FhAction.code]
  have log : (escaped answer action machine).peer.2 =
      machine.peer.2 ++ [(escaped answer action machine).page] := rfl
  by_cases answered : TurnBack (escaped answer action machine).page
  · rcases replies.reply machine.peer.1 _ isGood turn action code withRet answered
      with ⟨ret, errno, positive, ret_eq, errNo_eq⟩
    by_cases refused : (escaped answer action machine).page.getInt ActionCommon.ret < 0
    · refine ⟨_, _, run_escapeChecked_refused answered refused, ?_⟩
      rw [failValue]
      refine .refused ?_ (escaped answer action machine).page (by simp [log]) answered
        ⟨by rwa [action_eq], refused⟩
      have errNo : (escaped answer action machine).page.getInt ActionCommon.errNo =
          errno.toInt := by
        refine errNo_eq.trans (if_pos ?_)
        rwa [← ret_eq]
      exact lt_of_lt_of_eq positive errNo.symm
    · have accepted := not_lt.mp refused
      refine ⟨_, _, (run_escapeChecked_success answered accepted).trans (ok _), ?_⟩
      rcases okHost machine.peer.2 (escaped answer action machine).page ret
        ret_eq (ret_eq ▸ accepted) with ⟨valueEq, nonneg⟩
      exact .finished (carriedOut_append done answered fun failure => refused failure.2) valueEq
        nonneg
  · refine ⟨_, _, run_escapeChecked_unanswered answered, ?_⟩
    rw [failValue]
    refine .early (by decide) ?_ ?_
    · rintro ⟨-, all⟩
      exact answered (all _ (by simp [log])).1
    · intro page page_mem back
      rw [log] at page_mem
      rcases List.mem_append.mp page_mem with earlier | last
      · exact (done page earlier).2
      · rcases List.mem_singleton.mp last with rfl
        exact absurd back answered

/-! ## Transfers -/

/-- The pages that a transfer leaves, and its result: 0 if every escape was answered, and an error
if one was not. -/
structure TransferLog (ret : ℤ) (pages : List ByteMem) : Prop where
  nonempty : pages ≠ []
  action : ∀ page ∈ pages, page.get FaultData.action = FhAction.transferEscapeData.code
  result : (ret = 0 ∧ ∀ page ∈ pages, TurnBack page) ∨ (ret < 0 ∧ ∃ page ∈ pages, ¬TurnBack page)

theorem TransferLog.cons {ret : ℤ} {pages : List ByteMem} {page : ByteMem}
    (log : TransferLog ret pages)
    (action : page.get FaultData.action = FhAction.transferEscapeData.code)
    (answered : TurnBack page) : TransferLog ret (page :: pages) where
  nonempty := by simp
  action := by simpa [action] using log.action
  result := by
    rcases log.result with ⟨zero, all⟩ | ⟨negative, other, other_mem, unanswered⟩
    · exact Or.inl ⟨zero, by simpa [answered] using all⟩
    · exact Or.inr ⟨negative, other, List.mem_cons_of_mem _ other_mem, unanswered⟩

theorem transferLog_single {ret : ℤ} {page : ByteMem}
    (action : page.get FaultData.action = FhAction.transferEscapeData.code)
    (result : (ret = 0 ∧ TurnBack page) ∨ (ret < 0 ∧ ¬TurnBack page)) :
    TransferLog ret [page] where
  nonempty := by simp
  action := by simpa using action
  result := by simpa using result

section

variable {good : σ → Prop} {data : List UInt8} {machine : Machine (σ × List ByteMem)}

theorem escaped_transfer (replies : HostReplies answer good) (isGood : good machine.peer.1) :
    good (escaped answer .transferEscapeData machine).peer.1 ∧
      (escaped answer .transferEscapeData machine).page.get FaultData.action =
        FhAction.transferEscapeData.code :=
  ⟨replies.keeps _ _ isGood,
    (replies.action machine.peer.1 _ isGood).trans
      (escapePage_action .transferEscapeData (machine.counter + 1) machine.page)⟩

theorem transferRounds_logged (replies : HostReplies answer good) {transferSize sizeRemain : ℕ}
    (progress : 0 < transferSize) (isGood : good machine.peer.1)
    (remains : sizeRemain ≤ data.length) (pos : 0 < sizeRemain) :
    ∃ ret final pages, (∀ fuel, sizeRemain ≤ fuel →
        (transferRounds data transferSize fuel sizeRemain).run (logged answer) machine =
          (.done ret, final)) ∧
      good final.peer.1 ∧ final.peer.2 = machine.peer.2 ++ pages ∧ TransferLog ret pages := by
  induction sizeRemain using Nat.strong_induction_on generalizing machine with
  | _ sizeRemain ih =>
    obtain ⟨offered, offered_eq⟩ : ∃ offered : Machine (σ × List ByteMem), offered =
      { machine with page := chunkPage machine.page (nextChunk data transferSize sizeRemain) } :=
        ⟨_, rfl⟩
    have sent := run_sendChunk (logged answer) transferSize remains machine
    rw [← offered_eq] at sent
    have offeredGood : good offered.peer.1 := by rwa [offered_eq]
    have offeredLog : offered.peer.2 = machine.peer.2 := by rw [offered_eq]
    rcases escaped_transfer replies offeredGood with ⟨good', action⟩
    by_cases answered : TurnBack (escaped answer .transferEscapeData offered).page
    · rw [run_fhDoFaulthook_answered answered] at sent
      have status : (escaped answer .transferEscapeData offered).page.getInt
          ActionTransferEscapeData.status = TransferStatus.ok.code := by
        refine (replies.transfer _ _ offeredGood (escapePage_turn _ _ _)
          (escapePage_action _ _ _) answered).2 ?_
        rw [getInt_escapePage (by decide), offered_eq, chunkPage_status]
      have round : ∀ fuel, (transferRounds data transferSize (fuel + 1) sizeRemain).run
          (logged answer) machine =
            (if TransferStatus.ok.code = TransferStatus.ok.code ∧
                0 < sizeRemain - min transferSize sizeRemain then
              transferRounds data transferSize fuel (sizeRemain - min transferSize sizeRemain)
            else transferEnd 0).run (logged answer)
              (escaped answer .transferEscapeData offered) := by
        intro fuel
        rw [transferRounds, Prog.run_bind_of_done _ sent, if_neg (by decide),
          Prog.run_bind_of_done _ (Prog.run_loadInt _ _ _), status]
      by_cases more : 0 < sizeRemain - min transferSize sizeRemain
      · rcases ih (sizeRemain - min transferSize sizeRemain) (by omega) good' (by omega) more
          with ⟨ret, final, pages, ran, finalGood, grown, log⟩
        refine ⟨ret, final, (escaped answer .transferEscapeData offered).page :: pages, ?_,
          finalGood, ?_, log.cons action answered⟩
        · intro fuel enough
          rcases Nat.exists_eq_add_one_of_ne_zero (show fuel ≠ 0 by omega) with ⟨fuel, rfl⟩
          rw [round, if_pos ⟨rfl, more⟩, ran fuel (by omega)]
        · rw [grown, ← offeredLog, List.append_cons]
          rfl
      · refine ⟨0, _, [(escaped answer .transferEscapeData offered).page], ?_, good', ?_,
          transferLog_single action (Or.inl ⟨rfl, answered⟩)⟩
        · intro fuel enough
          rcases Nat.exists_eq_add_one_of_ne_zero (show fuel ≠ 0 by omega) with ⟨fuel, rfl⟩
          rw [round, if_neg (by simp only [true_and]; exact more), run_transferEnd,
            if_neg (not_not.mpr status)]
        · rw [← offeredLog]
          rfl
    · rw [run_fhDoFaulthook_unanswered answered] at sent
      refine ⟨if (escaped answer .transferEscapeData offered).page.getInt
          ActionTransferEscapeData.status ≠ TransferStatus.ok.code then -1 else -Errno.ENXIO.code,
        _, [(escaped answer .transferEscapeData offered).page], ?_, good', ?_,
        transferLog_single action (Or.inr ⟨?_, answered⟩)⟩
      · intro fuel enough
        rcases Nat.exists_eq_add_one_of_ne_zero (show fuel ≠ 0 by omega) with ⟨fuel, rfl⟩
        rw [transferRounds, Prog.run_bind_of_done _ sent, if_pos (by decide), run_transferEnd]
      · rw [← offeredLog]
        rfl
      · split <;> decide

theorem transferChunkToHost_logged (replies : HostReplies answer good) (infoCtx : Int32)
    (machine : Machine (σ × List ByteMem)) (isGood : good machine.peer.1) (pos : 0 < data.length) :
    ∃ ret final pages, (∀ fuel, data.length ≤ fuel →
        (transferChunkToHost fuel data infoCtx).run (logged answer) machine =
          (.done ret, final)) ∧
      good final.peer.1 ∧ final.peer.2 = machine.peer.2 ++ pages ∧ TransferLog ret pages := by
  obtain ⟨greeting, greeting_eq⟩ : ∃ greeting : Machine (σ × List ByteMem), greeting =
    { machine with page := handshakePage machine.page data.length infoCtx } := ⟨_, rfl⟩
  have sent := run_sendHandshake (logged answer) data.length infoCtx machine
  rw [← greeting_eq] at sent
  have greetingGood : good greeting.peer.1 := by rwa [greeting_eq]
  have greetingLog : greeting.peer.2 = machine.peer.2 := by rw [greeting_eq]
  rcases escaped_transfer replies greetingGood with ⟨good', action⟩
  by_cases answered : TurnBack (escaped answer .transferEscapeData greeting).page
  · rw [run_fhDoFaulthook_answered answered] at sent
    have progress : 0 < (escaped answer .transferEscapeData greeting).page.get
        ActionTransferEscapeData.chunkSize := by
      refine (replies.transfer _ _ greetingGood (escapePage_turn _ _ _)
        (escapePage_action _ _ _) answered).1 ?_
      rw [getInt_escapePage (by decide), greeting_eq, handshakePage_status]
    rcases transferRounds_logged replies progress good' le_rfl pos
      with ⟨ret, final, pages, ran, finalGood, grown, log⟩
    refine ⟨ret, final, (escaped answer .transferEscapeData greeting).page :: pages, ?_,
      finalGood, ?_, log.cons action answered⟩
    · intro fuel enough
      rw [transferChunkToHost, if_neg pos.ne', Prog.run_bind_of_done _ sent, if_neg (by decide),
        Prog.run_bind_of_done _ (Prog.run_loadField _ _ _), ran fuel enough]
    · rw [grown, ← greetingLog, List.append_cons]
      rfl
  · rw [run_fhDoFaulthook_unanswered answered] at sent
    refine ⟨-Errno.ENXIO.code, _, [(escaped answer .transferEscapeData greeting).page], ?_, good',
      ?_, transferLog_single action (Or.inr ⟨by decide, answered⟩)⟩
    · intro fuel enough
      rw [transferChunkToHost, if_neg pos.ne', Prog.run_bind_of_done _ sent, if_pos (by decide),
        Prog.run_pure]
    · rw [← greetingLog]
      rfl

end

/-! ## The operations -/

theorem not_carriedOut_nil : ¬CarriedOut [] := fun carriedOut => carriedOut.1 rfl

theorem Ending.of_noEscape {op : FileOp} {value : ℤ} (negative : value < 0) :
    Ending op value [] :=
  .early negative not_carriedOut_nil (by simp)

section

variable {good : σ → Prop} {machine : Machine (σ × List ByteMem)}

theorem fhCharOpen_ending (replies : HostReplies answer good) (args : OpenArgs)
    (isGood : good machine.peer.1) (fresh : machine.peer.2 = [])
    (free : machine.locked = false) :
    ∃ value final, (Prod.fst <$> fhCharOpen args).run (logged answer) machine =
        (.done value, final) ∧
      Ending (.charOpen args) value final.peer.2 := by
  rw [Prog.map_def, fhCharOpen]
  cases args.infoAlloc with
  | false =>
      refine ⟨-Errno.ENOMEM.code, machine, rfl, ?_⟩
      rw [fresh]
      exact .of_noEscape (by decide)
  | true =>
      rcases escapeChecked_ending replies (.charOpen args)
        (show FhAction.repliesWithRet .openDevice = true from rfl) (fun error => (error, none))
        (do
          let fd ← Prog.loadInt ActionCommon.fd
          pure (0, some fd))
        Prod.fst (fun _ => rfl) (fun page => (0, some (page.getInt ActionCommon.fd)))
        (fun _ => rfl) (fun _ _ _ _ _ => ⟨rfl, le_rfl⟩)
        { machine with locked := true, page := openPage args machine.page }
        isGood (by simp [fresh]) with ⟨result, final, ran, ending⟩
      refine ⟨result.1, { final with locked := false }, ?_, ending⟩
      have opened : (fhCharOpen { args with infoAlloc := true }).run (logged answer) machine =
          (.done result, { final with locked := false }) := by
        simp only [fhCharOpen, Bool.not_true, Bool.false_eq_true, ↓reduceIte]
        rw [Prog.run_bind_of_done _ (Prog.run_acquire_of_free _ free),
          Prog.run_bind_of_done _ (Prog.run_storeBytes _ _ _ _),
          Prog.run_bind_of_done _ (Prog.run_strlen _ _ _ _),
          Prog.run_bind_of_done _ (Prog.run_storeBytes _ _ _ _),
          Prog.run_bind_of_done _ (Prog.run_storeField _ _ _ _)]
        rw [openPage, ← strlen_devPrefix machine.page] at ran
        rw [Prog.run_bind_of_done _ ran, Prog.run_bind_of_done _ (Prog.run_release _ _),
          Prog.run_pure]
      exact Prog.run_bind_of_done _ opened

theorem fhCharClose_ending (replies : HostReplies answer good) (fd : ℤ)
    (isGood : good machine.peer.1) (fresh : machine.peer.2 = [])
    (free : machine.locked = false) :
    ∃ value final, (fhCharClose fd).run (logged answer) machine = (.done value, final) ∧
      Ending (.charClose fd) value final.peer.2 := by
  rcases escapeChecked_ending replies (.charClose fd)
    (show FhAction.repliesWithRet .closeDevice = true from rfl) id (pure 0) id (fun _ => rfl)
    (fun _ => 0) (fun _ => rfl)
    (fun _ _ _ _ _ => ⟨rfl, le_rfl⟩)
    { machine with locked := true, page := machine.page.setInt ActionCommon.fd fd }
    isGood (by simp [fresh]) with ⟨value, final, ran, ending⟩
  refine ⟨value, { final with locked := false }, ?_, ending⟩
  simp only [fhCharClose]
  rw [Prog.run_bind_of_done _ (Prog.run_acquire_of_free _ free),
    Prog.run_bind_of_done _ (Prog.run_storeInt _ _ _ _), Prog.run_bind_of_done _ ran,
    Prog.run_bind_of_done _ (Prog.run_release _ _), Prog.run_pure]

theorem fhBridgeMmap_ending (replies : HostReplies answer good) (args : MmapArgs)
    (isGood : good machine.peer.1) (fresh : machine.peer.2 = []) :
    ∃ rounds value final, (∀ fuel, rounds ≤ fuel →
        (fhBridgeMmap fuel args).run (logged answer) machine = (.done value, final)) ∧
      Ending (.bridgeMmap args) value final.peer.2 := by
  have noEscape : ∀ error : ℤ, error < 0 →
      (∀ fuel, fhBridgeMmap fuel args = pure error) → ∃ rounds value final,
        (∀ fuel, rounds ≤ fuel →
          (fhBridgeMmap fuel args).run (logged answer) machine = (.done value, final)) ∧
        Ending (.bridgeMmap args) value final.peer.2 := by
    intro error negative returns
    refine ⟨0, error, machine, fun fuel _ => by rw [returns, Prog.run_pure], ?_⟩
    rw [fresh]
    exact .of_noEscape negative
  by_cases noInfo : (!args.infoAlloc) = true
  · exact noEscape (-Errno.ENOMEM.code) (by decide)
      (fun fuel => by rw [fhBridgeMmap, if_pos noInfo])
  by_cases invalid : args.size ≤ 0
  · exact noEscape (-Errno.EINVAL.code) (by decide)
      (fun fuel => by rw [fhBridgeMmap, if_neg noInfo, if_pos invalid])
  cases pages : args.pfnStart with
  | none =>
      exact noEscape (-Errno.ENOMEM.code) (by decide)
        (fun fuel => by rw [fhBridgeMmap, if_neg noInfo, if_neg invalid, pages])
  | some pfnStart =>
      rcases run_mmapPfnLoop (logged answer)
        { machine with page := mmapPage args machine.page } pfnStart.toNat 0 with ⟨page, looped⟩
      rcases escapeChecked_ending replies
        (.bridgeMmap args) (show FhAction.repliesWithRet .mmap = true from rfl) id
        (pure (if args.remapRet ≠ 0 then args.remapRet else 0)) id (fun _ => rfl)
        (fun _ => if args.remapRet ≠ 0 then args.remapRet else 0) (fun _ => rfl)
        (fun _ _ _ _ _ => ⟨by simp [FileOp.hostValue]; omega, le_rfl⟩)
        { machine with page := page } isGood (by simp [fresh]) with ⟨value, final, ran, ending⟩
      refine ⟨(mmapPage args machine.page).get ActionMmapDevice.pfnSize + 1, value, final, ?_,
        ending⟩
      intro fuel enough
      have loop := looped fuel enough
      simp only [mmapPage] at loop
      rw [fhBridgeMmap, if_neg noInfo, if_neg invalid, pages]
      rw [Prog.run_bind_of_done _ (Prog.run_storeBytes _ _ _ _),
        Prog.run_bind_of_done _ (Prog.run_storeInt _ _ _ _),
        Prog.run_bind_of_done _ (Prog.run_storeField _ _ _ _),
        Prog.run_bind_of_done _ (Prog.run_storeField _ _ _ _),
        Prog.run_bind_of_done _ (Prog.run_storeField _ _ _ _),
        Prog.run_bind_of_done _ (Prog.run_storeField _ _ _ _),
        Prog.run_bind_of_done _ (Prog.run_storeField _ _ _ _),
        Prog.run_bind_of_done _ (Prog.run_storeField _ _ _ _),
        Prog.run_bind_of_done _ loop, ran]

theorem sgdmaLocked_ending (replies : HostReplies answer good) (args : SgdmaArgs)
    (pinned : PinPages) (pos : 0 < pinned.pagesNr) (isGood : good machine.peer.1)
    (fresh : machine.peer.2 = []) (free : machine.locked = false) :
    ∃ rounds value final, (∀ fuel, rounds ≤ fuel →
        (sgdmaLocked fuel args pinned).run (logged answer) machine = (.done value, final)) ∧
      Ending (.sgdmaReadWrite args) value final.peer.2 := by
  have nonempty : 0 < (chunkBytes pinned.pageChunks).length := by
    rw [length_chunkBytes, pinned.length_pageChunks]
    exact Nat.mul_pos (by decide) pos
  rcases transferChunkToHost_logged replies
    (Int32.ofInt FhAction.dma.code) { machine with locked := true } isGood nonempty
    with ⟨sent, afterTransfer, pages, ran, good', grown, log⟩
  rw [fresh, List.nil_append] at grown
  have noFailure : ∀ page ∈ pages, ¬ReportsFailure page := fun page page_mem failure =>
    failure.1 (log.action page page_mem)
  rcases log.result with ⟨zero, answered⟩ | ⟨negative, page, page_mem, unanswered⟩
  · obtain ⟨value, final, escape, ending⟩ := escapeChecked_ending replies
      (.sgdmaReadWrite args) (show FhAction.repliesWithRet .dma = true from rfl) id
      (do
        let ret ← Prog.loadInt ActionCommon.ret
        pure (i32 ret))
      id (fun _ => rfl) (fun page => i32 (page.getInt ActionCommon.ret)) (fun _ => rfl)
      (fun before page ret ret_eq nonneg => by
        simp [FileOp.hostValue, FileOp.successValue, ret_eq, i32_toInt, nonneg])
      { afterTransfer with page := dmaRequestPage args pinned afterTransfer.page }
      good' (by
        intro page page_mem
        rw [grown] at page_mem
        exact ⟨answered page page_mem, noFailure page page_mem⟩)
    rw [← run_dmaEscape (logged answer)] at escape
    refine ⟨(chunkBytes pinned.pageChunks).length, value, { final with locked := false }, ?_,
      ending⟩
    intro fuel enough
    rw [sgdmaLocked, Prog.run_bind_of_done _ (Prog.run_acquire_of_free _ free),
      Prog.run_bind_of_done _ (ran fuel enough), zero, if_neg (by decide),
      Prog.run_bind_of_done _ escape, Prog.run_bind_of_done _ (Prog.run_release _ _), Prog.run_pure]
  · refine ⟨(chunkBytes pinned.pageChunks).length, sent, { afterTransfer with locked := false }, ?_,
      .early negative ?_ ?_⟩
    · intro fuel enough
      rw [sgdmaLocked, Prog.run_bind_of_done _ (Prog.run_acquire_of_free _ free),
        Prog.run_bind_of_done _ (ran fuel enough)]
      simp only [negative, ↓reduceIte]
      rw [Prog.run_bind_of_done _ (Prog.run_pure _ _ _),
        Prog.run_bind_of_done _ (Prog.run_release _ _), Prog.run_pure]
    · rintro ⟨-, all⟩
      simp only [grown] at all
      exact unanswered (all page page_mem).1
    · simp only [grown]
      exact fun page page_mem _ => noFailure page page_mem

/-- Every operation that checks the reply ends in one of the ways of `Ending`. -/
theorem FileOp.ending (replies : HostReplies answer good) {op : FileOp}
    (checks : op.checksReply = true) (isGood : good machine.peer.1) (fresh : machine.peer.2 = [])
    (free : machine.locked = false) :
    ∃ rounds value final, (∀ fuel, rounds ≤ fuel →
        (op.program fuel).run (logged answer) machine = (.done value, final)) ∧
      Ending op value final.peer.2 := by
  cases op with
  | charOpen args =>
      rcases fhCharOpen_ending replies args isGood fresh free with ⟨value, final, ran, ending⟩
      exact ⟨0, value, final, fun _ _ => ran, ending⟩
  | charClose fd =>
      rcases fhCharClose_ending replies fd isGood fresh free with ⟨value, final, ran, ending⟩
      exact ⟨0, value, final, fun _ _ => ran, ending⟩
  | bridgeMmap args => exact fhBridgeMmap_ending replies args isGood fresh
  | sgdmaReadWrite args =>
      simp only [FileOp.program, charSgdmaReadWrite]
      cases pinning : fhPinPages args.kernel args.buf.toNat args.count.toNat with
      | error ret =>
          refine ⟨0, ret, machine, fun _ _ => rfl, ?_⟩
          rw [fresh]
          exact .of_noEscape (fhPinPages_error pinning)
      | ok pinned =>
          by_cases tooSmall : args.escapeSize < ActionDma.size + pinned.pagesNr * PageChunk.size
          · refine ⟨0, -Errno.ENOMEM.code, machine, fun _ _ => by simp [tooSmall], ?_⟩
            rw [fresh]
            exact .of_noEscape (by decide)
          · simp only [tooSmall, ↓reduceIte]
            exact sgdmaLocked_ending replies args pinned (fhPinPages_ok pinning).pos isGood fresh
              free
  | ctrlRead args => cases checks
  | ctrlWrite args => cases checks
  | ctrlIoctl fd cmd arg => cases checks

end

end

/-! ## The manager of this repository -/

namespace Host

theorem onEscape_page_cases (host : Host) {page : ByteMem}
    (turn : page.get FaultData.turn = FhTurn.host.code) :
    HeaderEq page (host.onEscape page).2 ∨
      ∃ ret manager page', handleAction host.outcome host.manager page =
          some (ret, manager, page') ∧ 0 ≤ ret ∧
        (host.onEscape page).2 = page'.set FaultData.turn FhTurn.guest.code := by
  cases serving : host.serving with
  | false =>
      left
      rw [onEscape_of_idle (Or.inl serving)]
      exact HeaderEq.refl page
  | true =>
      cases handled : handleAction host.outcome host.manager page with
      | none =>
          left
          have died : host.handle page = none := by simp [handle, onFault, turn, handled]
          simp only [onEscape, serving, ↓reduceIte, died]
          exact HeaderEq.refl page
      | some result =>
          rcases result with ⟨ret, manager, page'⟩
          by_cases negative : ret < 0
          · left
            rw [onEscape_of_refused serving turn handled negative]
            exact handleAction_headerEq handled
          · right
            refine ⟨ret, manager, page', rfl, not_lt.mp negative, ?_⟩
            rw [onEscape_of_handled serving turn handled (not_lt.mp negative)]

theorem onEscape_action (host : Host) (page : ByteMem) :
    (host.onEscape page).2.get FaultData.action = page.get FaultData.action := by
  by_cases turn : page.get FaultData.turn = FhTurn.host.code
  · rcases host.onEscape_page_cases turn with header | ⟨ret, manager, page', handled, -, answered⟩
    · exact header.get_eq (by decide)
    · rw [answered, ByteMem.get_set_of_disjoint (by decide)]
      exact (handleAction_headerEq handled).get_eq (by decide)
  · rw [onEscape_of_idle (Or.inr turn)]

theorem handled_of_turnBack {host : Host} {page : ByteMem}
    (turn : page.get FaultData.turn = FhTurn.host.code)
    (answered : TurnBack (host.onEscape page).2) :
    ∃ ret manager page', handleAction host.outcome host.manager page =
        some (ret, manager, page') ∧ 0 ≤ ret ∧
      (host.onEscape page).2 = page'.set FaultData.turn FhTurn.guest.code := by
  rcases host.onEscape_page_cases turn with header | handled
  · have kept := @HeaderEq.get_eq _ _ FaultData.turn header (by decide)
    rw [TurnBack, kept, turn] at answered
    exact absurd answered (by decide)
  · exact handled

end Host

theorem setRetAndErrNo_getInt_errNo (page : ByteMem) (ret : ℤ) (errno : Int32) :
    (setRetAndErrNo page ret errno.toInt).getInt ActionCommon.errNo =
      if ret < 0 then errno.toInt else 0 := by
  rw [setRetAndErrNo, ByteMem.getInt_setInt_same]
  have width : 256 ^ ActionCommon.errNo.width = 2 ^ 32 := by decide
  rw [width]
  split
  · exact i32_toInt errno
  · rfl

theorem handleAction_reply {outcome : FaultOutcome} {manager manager' : Manager}
    {page page' : ByteMem} {ret : ℤ} {action : FhAction}
    (code : page.get FaultData.action = action.code) (withRet : action.repliesWithRet = true)
    (handled : handleAction outcome manager page = some (ret, manager', page'))
    (nonneg : 0 ≤ ret) :
    ∃ (base : ByteMem) (result : Int32),
      page' = setRetAndErrNo base result.toInt outcome.errno.toInt := by
  simp only [handleAction, code, FhAction.ofCode_code] at handled
  cases action with
  | openDevice =>
      cases handled
      exact ⟨_, outcome.openRet, rfl⟩
  | closeDevice =>
      cases handled
      exact ⟨_, outcome.closeRet, rfl⟩
  | mmap =>
      rcases handleMmap_cases handled with ⟨-, refused⟩ | ⟨-, -, answered⟩
      · cases refused
        omega
      · cases answered
        exact ⟨_, outcome.mmapRet, rfl⟩
  | dma =>
      simp only [doDma] at handled
      split at handled
      · cases handled
        omega
      split at handled
      · cases handled
      split at handled
      · cases handled
        omega
      · cases handled
        exact ⟨_, outcome.dmaRet, rfl⟩
  | _ => cases withRet

/-- The manager keeps to the protocol as long as failed calls set `errno`. -/
theorem hostReplies_onEscape :
    HostReplies Host.onEscape fun host => ∀ request, 0 < (host.outcomes request).errno.toInt where
  keeps := by
    intro host page positive
    rw [Host.onEscape_outcomes]
    exact positive
  action := fun host page _ => host.onEscape_action page
  transfer := by
    intro host page _ turn action answered
    rcases Host.handled_of_turnBack turn answered with ⟨ret, manager, page', handled, nonneg, left⟩
    rw [left, ByteMem.get_set_of_disjoint (by decide), ByteMem.getInt_set_of_disjoint (by decide)]
    simp only [handleAction, action, FhAction.ofCode_code, doActionTransferEscapeData] at handled
    constructor
    · intro status
      rw [if_pos status] at handled
      simp only [transferHandshake] at handled
      split at handled
      · cases handled
        omega
      · cases handled
        rw [ByteMem.get_setInt_of_disjoint (by decide), ByteMem.get_set_same]
        decide
    · intro status
      have notSize : page.getInt ActionTransferEscapeData.status ≠
          TransferStatus.transferSize.code := by
        rw [status]
        decide
      rw [if_neg notSize, if_pos status] at handled
      have accepted : page' = page.setInt ActionTransferEscapeData.status
          TransferStatus.ok.code := by
        simp only [transferChunk] at handled
        split at handled
        · cases handled
          omega
        split at handled
        · cases handled
          rfl
        split at handled
        · cases handled
          rfl
        · cases handled
      rw [accepted, ByteMem.getInt_setInt_same]
      decide
  reply := by
    intro host page positive turn action code withRet answered
    rcases Host.handled_of_turnBack turn answered with ⟨ret, manager, page', handled, nonneg, left⟩
    rcases handleAction_reply code withRet handled nonneg with ⟨base, result, rfl⟩
    refine ⟨result, host.outcome.errno, positive _, ?_, ?_⟩
    · rw [left, ByteMem.getInt_set_of_disjoint (by decide), setRetAndErrNo_getInt_ret]
    · rw [left, ByteMem.getInt_set_of_disjoint (by decide), setRetAndErrNo_getInt_errNo]

/-! ## Failures and results -/

/--
Against any host that keeps to the protocol, an operation that escapes returns,
and the failures of the host surface in its result if and only if no escape of
the operation is answered with a failure (and, for a mapping, `remap_pfn_range`
succeeds once the host has done its part).
-/
theorem FileOp.surfaces_iff {σ : Type} {answer : σ → ByteMem → σ × ByteMem} {good : σ → Prop}
    (replies : HostReplies answer good) (op : FileOp) (checks : op.checksReply = true)
    (machine : Machine (σ × List ByteMem)) (isGood : good machine.peer.1)
    (fresh : machine.peer.2 = []) (free : machine.locked = false) :
    ∃ rounds value final, (∀ fuel, rounds ≤ fuel →
        (op.program fuel).run (logged answer) machine = (.done value, final)) ∧
      (op.Surfaces value final.peer.2 ↔ op.NotRefused final.peer.2) := by
  rcases FileOp.ending replies checks isGood fresh free with ⟨rounds, value, final, ran, ending⟩
  exact ⟨rounds, value, final, ran, ending.surfaces_iff_notRefused⟩

def closing (ret : Int32) : Machine (Host × List ByteMem) where
  page := ByteMem.zero
  locked := false
  counter := 0
  peer :=
    ({ Machine.cleared.peer with
        outcomes := fun _ => { FaultOutcome.success with closeRet := ret, errno := 5 } }, [])

theorem closing_errno_pos (ret : Int32) (request : ℕ) :
    0 < ((closing ret).peer.1.outcomes request).errno.toInt := by
  change 0 < (5 : Int32).toInt
  decide

theorem charClose_surfaces :
    ∃ rounds value final, (∀ fuel, rounds ≤ fuel →
        ((FileOp.charClose 3).program fuel).run (logged Host.onEscape) (closing 0) =
          (.done value, final)) ∧
      ((FileOp.charClose 3).Surfaces value final.peer.2 ↔
        (FileOp.charClose 3).NotRefused final.peer.2) :=
  FileOp.surfaces_iff hostReplies_onEscape (.charClose 3) rfl (closing 0)
    (closing_errno_pos 0) rfl rfl

/-- A `close` that fails on the host with `EIO` returns 5 to the guest's kernel. -/
theorem charClose_returns_positive_errno :
    ¬∀ (op : FileOp) (machine : Machine (Host × List ByteMem)), op.checksReply = true →
      (∀ request, 0 < (machine.peer.1.outcomes request).errno.toInt) → machine.peer.2 = [] →
        machine.locked = false → ∀ fuel value final,
          (op.program fuel).run (logged Host.onEscape) machine = (.done value, final) →
            op.Surfaces value final.peer.2 := by
  intro claim
  have ran : (((FileOp.charClose 3).program 0).run (logged Host.onEscape) (closing (-1))).1 =
      .done 5 := by
    decide +kernel
  rcases claim (.charClose 3) (closing (-1)) rfl
    (closing_errno_pos (-1)) rfl rfl 0 5 _ (Prod.ext ran rfl) with ⟨negative, success⟩
  have carriedOut : CarriedOut (((FileOp.charClose 3).program 0).run (logged Host.onEscape)
      (closing (-1))).2.peer.2 := by
    by_contra unfinished
    exact absurd (negative.mpr unfinished) (by decide)
  exact absurd (success carriedOut) (by simp [FileOp.successValue])

end Acai
