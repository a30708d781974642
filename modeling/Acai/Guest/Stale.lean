import Acai.Guest.FileOps
import Acai.Manager.Writes

/-!
# Stale contents of the escape page

All requests of the guest share one page, and no request clears it: a field that
neither the guest nor the host writes for a request holds what an earlier one has
left there. This file compares two runs of a file operation that find different
data on the page.

A request is safe when the guest has written every byte that the handler of the
host reads, and when the handler writes every byte that the guest reads after
it. The operations that open and close a file, map memory and transfer data are
of this kind. The host has no handler for the two operations on control
registers: the guest takes the result, the sizes and even the address of the
buffer from whatever the page holds.
-/

namespace Acai

open Prog

/-- After a reply, the guest reads bytes of the data area only where the host wrote them. -/
def FromReply (rung : Option (Machine Host)) (offset size : ℕ) : Prop :=
  ∀ request, rung = some request →
    (request.answered Host.onEscape).page.get FaultData.turn = FhTurn.guest.code →
      ∀ address ∈ Set.Ico offset (offset + size), FaultData.data ≤ address →
        address ∈ writtenBytes
          (replyWrites request.peer.outcome request.peer.manager request.page)

theorem fromReply_none (offset size : ℕ) : FromReply none offset size := by
  intro request rung
  cases rung

/-- What the host makes of an escape with the given page. -/
def escapeReply (action : FhAction) (machine : Machine Host) (page : ByteMem) :
    Option (ℤ × Manager × List HostWrite) :=
  replyOf machine.peer.outcome machine.peer.manager
    (escapePage action (machine.counter + 1) page)

/-- How an escape leaves two runs: the host refused both, or it has answered both and written the
bytes `reply`. -/
structure Escaped (known reply : Set ℕ) (value : ℤ) (rung : Option (Machine Host))
    (left right : Machine Host) : Prop where
  paired : Paired Host.Alike known left right
  ended : value < 0 ∧ (∀ offset size, FromReply rung offset size) ∨
    value = 0 ∧ Paired Host.Alike (known ∪ reply) left right ∧
      ∀ offset size, Set.Ico offset (offset + size) ⊆ reply → FromReply rung offset size

section

variable {left right : Machine Host} {rung : Option (Machine Host)} {known reply : Set ℕ}
  {action : FhAction}

theorem Escaped.of_answered
    (answered : Host.AnsweredAlike left.peer right.peer left.page right.page known)
    (locked : left.locked = right.locked) (counter : left.counter = right.counter)
    (covers : ∀ ret manager writes,
      replyOf left.peer.outcome left.peer.manager left.page = some (ret, manager, writes) →
        0 ≤ ret → reply ⊆ writtenBytes writes) :
    Escaped known reply
      (if (left.answered Host.onEscape).page.get FaultData.turn ≠ FhTurn.guest.code then
        -Errno.ENXIO.code else 0)
      (some left) (left.answered Host.onEscape) (right.answered Host.onEscape) := by
  refine ⟨⟨answered.page, locked, counter, answered.host⟩, ?_⟩
  by_cases turn : (left.answered Host.onEscape).page.get FaultData.turn = FhTurn.guest.code
  · rcases answered.replied turn with ⟨ret, manager, writes, replied, nonneg, agreed⟩
    have written := covers ret manager writes replied nonneg
    refine Or.inr ⟨if_neg (not_not.mpr turn), ⟨agreed.mono ?_, locked, counter, answered.host⟩, ?_⟩
    · exact Set.union_subset_union_right known written
    · rintro offset size inside request isLeft _ address isRead _
      cases isLeft
      rw [replyWrites_of_replyOf replied]
      exact written (inside isRead)
  · refine Or.inl ⟨?_, ?_⟩
    · rw [if_pos turn]
      decide
    · rintro offset size request isLeft guest
      cases isLeft
      exact absurd guest turn

theorem Escaped.mono {known' : Set ℕ} {value : ℤ}
    (escaped : Escaped known reply value rung left right) (fewer : known' ⊆ known) :
    Escaped known' reply value rung left right := by
  refine ⟨escaped.paired.mono fewer, escaped.ended.imp_right ?_⟩
  rintro ⟨zero, agreed, fresh⟩
  exact ⟨zero, agreed.mono (Set.union_subset_union_left reply fewer), fresh⟩

/-- The end of an escape, which reads the turn. -/
theorem Escaped.checkTurn
    (escaped : Escaped (known ∪ FaultData.turn.bytes) reply
      (if left.page.get FaultData.turn ≠ FhTurn.guest.code then -Errno.ENXIO.code else 0)
      rung left right)
    (fresh : FromReply rung FaultData.turn.offset FaultData.turn.width) :
    (loadField FaultData.turn >>= fun turn =>
      if turn ≠ FhTurn.guest.code then pure (-Errno.ENXIO.code) else pure 0 : Prog ℤ).Alike
        Host.onEscape Host.Alike FromReply (Escaped known reply) rung left right := by
  refine escaped.paired.loadField Set.subset_union_right fresh ?_
  have ended : Escaped known reply _ _ _ _ := escaped.mono Set.subset_union_left
  by_cases notGuest : left.page.get FaultData.turn ≠ FhTurn.guest.code
  · rw [if_pos notGuest] at ended ⊢
    exact (alike_pure _).mpr ended
  · rw [if_neg notGuest] at ended ⊢
    exact (alike_pure _).mpr ended

/-- An escape treats two pages alike when the handler makes the same of both. -/
theorem alike_fhDoFaulthook (paired : Paired Host.Alike known left right)
    (same : escapeReply action left left.page = escapeReply action left right.page)
    (covers : ∀ ret manager writes,
      escapeReply action left left.page = some (ret, manager, writes) →
        0 ≤ ret → reply ⊆ writtenBytes writes) :
    (fhDoFaulthook action).Alike Host.onEscape Host.Alike FromReply (Escaped known reply)
      rung left right := by
  have agree : Set.EqOn (escapePage action (left.counter + 1) left.page)
      (escapePage action (left.counter + 1) right.page) (known ∪ FaultData.turn.bytes) := by
    refine (ByteMem.eqOn_set (ByteMem.eqOn_set (ByteMem.eqOn_set paired.page _ _) _ _) _ _).mono ?_
    exact Set.subset_union_left.trans Set.subset_union_left
  have answered := Host.onEscape_alike paired.peer agree (escapePage_turn _ _ _)
    (escapePage_turn _ _ _) same
  have turns := ByteMem.get_eq_of_eqOn answered.page Set.subset_union_right
  obtain ⟨request', request'_eq⟩ : ∃ request', request' =
      { right with
        page := escapePage action (left.counter + 1) right.page, counter := right.counter + 1 } :=
    ⟨_, rfl⟩
  have counters : (escaping action left).counter = request'.counter := by
    rw [request'_eq]
    exact congrArg (· + 1) paired.counter
  have locked : (escaping action left).locked = request'.locked := by
    rw [request'_eq]
    exact paired.locked
  have escaped := @Escaped.of_answered (escaping action left) request'
    (known ∪ FaultData.turn.bytes) reply
    (by rw [request'_eq]; exact answered) locked counters covers
  have fresh : FromReply (some (escaping action left)) FaultData.turn.offset
      FaultData.turn.width := by
    intro _ _ _ address inside inData
    have inHeader := inside.2
    simp only [FaultData.turn, FaultData.data] at inHeader inData
    omega
  have loaded := escaped.checkTurn fresh
  rw [request'_eq] at loaded
  simp only [escaping, escapePage] at loaded
  rw [fhDoFaulthook]
  simp only [alike_bind, alike_increment, alike_storeField, alike_doorbell]
  refine ⟨paired.counter, ?_, ?_⟩
  · have host := answered.host
    simp only [escapePage] at host
    exact host
  · exact (alike_bind _ _).mp loaded

theorem eqOn_escapePage {page page' : ByteMem} (agree : Set.EqOn page page' known) (nonce : ℕ) :
    Set.EqOn (escapePage action nonce page) (escapePage action nonce page') known := by
  refine (ByteMem.eqOn_set (ByteMem.eqOn_set (ByteMem.eqOn_set agree _ _) _ _) _ _).mono ?_
  exact Set.subset_union_left.trans (Set.subset_union_left.trans Set.subset_union_left)

/-- The bytes of `common.fd`, `common.ret` and `common.err_no`. -/
def retBytes : Set ℕ := Set.Ico ActionCommon.fd.offset (ActionCommon.errNo.offset + 4)

theorem retBytes_subset (ret errno : ℤ) : retBytes ⊆ writtenBytes (retWrites ret errno) := by
  rintro address ⟨lower, upper⟩
  simp only [ActionCommon.fd, ActionCommon.errNo, dataField, FaultData.data] at lower upper
  rcases lt_or_ge address 36 with inFd | afterFd
  · exact ⟨ActionCommon.fd.writing ret, by simp [retWrites], lower, inFd⟩
  · rcases lt_or_ge address 44 with inRet | afterRet
    · exact ⟨ActionCommon.ret.writing ret, by simp [retWrites], afterFd, inRet⟩
    · exact ⟨ActionCommon.errNo.writing (if ret < 0 then errno else 0), by simp [retWrites],
        afterRet, upper⟩

/-- The program behaves alike in the two runs and keeps what is known of the page. -/
def KeepsAlike {α : Type} (known : Set ℕ) (program : Prog α) (rung : Option (Machine Host))
    (left right : Machine Host) : Prop :=
  program.Alike Host.onEscape Host.Alike FromReply
    (fun _ _ left' right' => Paired Host.Alike known left' right') rung left right

theorem keepsAlike_escapeChecked {α : Type} {fail : ℤ → α} {success : Prog α}
    (paired : Paired Host.Alike known left right)
    (same : escapeReply action left left.page = escapeReply action left right.page)
    (covers : ∀ ret manager writes,
      escapeReply action left left.page = some (ret, manager, writes) →
        0 ≤ ret → retBytes ⊆ writtenBytes writes)
    (succeeds : ∀ rung' left' right', Paired Host.Alike (known ∪ retBytes) left' right' →
      (∀ offset size, Set.Ico offset (offset + size) ⊆ retBytes → FromReply rung' offset size) →
        KeepsAlike known success rung' left' right') :
    KeepsAlike known (escapeChecked action fail success) rung left right := by
  refine Alike.bind (alike_fhDoFaulthook paired same covers) ?_
  rintro value rung' left' right' ⟨paired', ended⟩
  rcases ended with ⟨negative, -⟩ | ⟨rfl, agreed, fresh⟩
  · rw [if_pos negative]
    exact (alike_pure _).mpr paired'
  · have ret : ActionCommon.ret.bytes ⊆ retBytes := Set.Ico_subset_Ico (by decide) (by decide)
    have errNo : ActionCommon.errNo.bytes ⊆ retBytes := Set.Ico_subset_Ico (by decide) (by decide)
    rw [if_neg (lt_irrefl 0)]
    refine agreed.loadInt (ret.trans Set.subset_union_right) (fresh _ _ ret) ?_
    by_cases failed : left'.page.getInt ActionCommon.ret < 0
    · rw [if_pos failed]
      exact agreed.loadInt (errNo.trans Set.subset_union_right) (fresh _ _ errNo)
        ((alike_pure _).mpr paired')
    · rw [if_neg failed]
      exact succeeds rung' left' right' agreed fresh

end

/-! ## Opening and closing a file -/

section

variable {left right : Machine Host} {rung : Option (Machine Host)} {known : Set ℕ}

theorem openPage_null (args : OpenArgs) (base : ByteMem)
    (fits : args.name.length + devPrefix.length ≤ ActionOpenclose.deviceSize) :
    openPage args base (ActionOpenclose.device + (5 + args.name.length)) = 0 := by
  have prefixLength : devPrefix.length = 6 := rfl
  have beforeFlags : ActionOpenclose.device + (5 + args.name.length) <
      ActionOpenclose.flags.offset := by
    simp only [ActionOpenclose.deviceSize, prefixLength] at fits
    simp only [ActionOpenclose.device, ActionOpenclose.flags, dataField]
    omega
  have inName : args.name.length < (args.name ++ [(0 : UInt8)]).length := by simp
  rw [openPage, ByteMem.set, ByteMem.writeBytes_apply_of_lt beforeFlags, ← Nat.add_assoc,
    ByteMem.writeBytes_apply_add inName]
  simp

theorem keepsAlike_openEscape (paired : Paired Host.Alike known left right) {length : ℕ}
    (null : left.page (ActionOpenclose.device + length) = 0) (within : length < 4096)
    (path : Set.Ico ActionOpenclose.device (ActionOpenclose.device + length + 1) ⊆ known)
    (flags : ActionOpenclose.flags.bytes ⊆ known) :
    KeepsAlike known
      (escapeChecked .openDevice (fun error => ((error, none) : ℤ × Option ℤ)) do
        let fd ← loadInt ActionCommon.fd
        pure (0, some fd)) rung left right := by
  have agree := @eqOn_escapePage known .openDevice _ _ paired.page (left.counter + 1)
  have escapedNull : escapePage .openDevice (left.counter + 1) left.page
      (ActionOpenclose.device + length) = 0 := by
    rw [escapePage_apply_of_le (by simp only [ActionOpenclose.device]; omega)]
    exact null
  apply keepsAlike_escapeChecked paired
  · rw [escapeReply, escapeReply, replyOf_openDevice _ _ (escapePage_action _ _ _),
      replyOf_openDevice _ _ (escapePage_action _ _ _),
      devicePath_congr agree escapedNull within path, ByteMem.get_eq_of_eqOn agree flags]
  · intro ret manager writes reply _
    rw [escapeReply, replyOf_openDevice _ _ (escapePage_action _ _ _)] at reply
    cases reply
    exact (retBytes_subset left.peer.outcome.openRet.toInt
      left.peer.outcome.errno.toInt).trans (writtenBytes_mono (List.subset_cons_self _ _))
  · intro rung' left' right' agreed fresh
    have fd : ActionCommon.fd.bytes ⊆ retBytes := Set.Ico_subset_Ico (by decide) (by decide)
    exact agreed.loadInt (fd.trans Set.subset_union_right) (fresh _ _ fd)
      ((alike_pure _).mpr (agreed.mono Set.subset_union_left))

theorem devPrefix_null (base : ByteMem) :
    base.writeBytes ActionOpenclose.device devPrefix (ActionOpenclose.device + 5) = 0 := by
  rw [ByteMem.writeBytes_apply_add (by decide)]
  rfl

theorem devPrefix_before (base : ByteMem) {index : ℕ} (before : index < 5) :
    base.writeBytes ActionOpenclose.device devPrefix (ActionOpenclose.device + index) ≠ 0 := by
  have letters : ∀ index : Fin devPrefix.length, index.val < 5 → devPrefix.get index ≠ 0 := by
    decide
  have inside : index < devPrefix.length := before.trans (by decide)
  rw [ByteMem.writeBytes_apply_add inside]
  exact letters ⟨index, inside⟩ before

theorem keepsAlike_fhCharOpen (args : OpenArgs)
    (fits : args.name.length + devPrefix.length ≤ ActionOpenclose.deviceSize)
    (paired : Paired Host.Alike ∅ left right) : KeepsAlike ∅ (fhCharOpen args) none left right := by
  rw [fhCharOpen]
  by_cases allocated : args.infoAlloc = true
  swap
  · rw [if_pos (by simpa using allocated)]
    exact (alike_pure _).mpr paired
  rw [if_neg (by simpa using allocated)]
  refine paired.acquire fun left' right' paired' => ?_
  have prefixed := paired'.writing ActionOpenclose.device devPrefix
  have named := prefixed.writing (ActionOpenclose.device + 5) (args.name ++ [0])
  have opened : Paired Host.Alike
      (Set.Ico ActionOpenclose.device (ActionOpenclose.device + (5 + args.name.length) + 1) ∪
        ActionOpenclose.flags.bytes)
      { left' with page := openPage args left'.page }
      { right' with page := openPage args right'.page } := by
    refine (named.setting ActionOpenclose.flags args.flags).mono ?_
    refine Set.union_subset_union_left _ ?_
    have prefixLength : devPrefix.length = 6 := rfl
    rintro address ⟨lower, upper⟩
    rcases lt_or_ge address (ActionOpenclose.device + 6) with inPrefix | inName
    · exact Or.inl (Or.inr ⟨lower, by omega⟩)
    · refine Or.inr ⟨by omega, ?_⟩
      simp only [List.length_append, List.length_singleton]
      omega
  refine (alike_bind _ _).mpr ((alike_storeBytes _ _).mpr ?_)
  refine Alike.bind (prefixed.strlen (devPrefix_null left'.page)
    (fun _ before => devPrefix_before left'.page before) (by decide) Set.subset_union_right
    (fun _ _ => fromReply_none _ _)) ?_
  rintro _ _ _ _ ⟨rfl, rfl, rfl, rfl⟩
  refine (alike_bind _ _).mpr ((alike_storeBytes _ _).mpr ?_)
  refine (alike_bind _ _).mpr ((alike_storeField _ _).mpr ?_)
  refine Alike.bind (keepsAlike_openEscape opened (openPage_null args left'.page fits) ?_
    Set.subset_union_left Set.subset_union_right) ?_
  · have prefixLength : devPrefix.length = 6 := rfl
    simp only [ActionOpenclose.deviceSize] at fits
    omega
  · intro result rung' left'' right'' paired''
    exact paired''.release fun _ _ released =>
      (alike_pure _).mpr (released.mono (Set.empty_subset _))

theorem keepsAlike_fhCharClose (fd : ℤ) (paired : Paired Host.Alike ∅ left right) :
    KeepsAlike ∅ (fhCharClose fd) none left right := by
  refine paired.acquire fun _ _ acquired => acquired.storeInt fun left' right' stored => ?_
  have agree := @eqOn_escapePage _ .closeDevice _ _ stored.page (left'.counter + 1)
  refine Alike.bind (keepsAlike_escapeChecked stored ?_ ?_ ?_) ?_
  · rw [escapeReply, escapeReply, replyOf_closeDevice _ _ (escapePage_action _ _ _),
      replyOf_closeDevice _ _ (escapePage_action _ _ _),
      ByteMem.getInt_eq_of_eqOn agree Set.subset_union_right]
  · intro ret manager writes reply _
    rw [escapeReply, replyOf_closeDevice _ _ (escapePage_action _ _ _)] at reply
    cases reply
    exact retBytes_subset left'.peer.outcome.closeRet.toInt left'.peer.outcome.errno.toInt
  · intro rung' _ _ agreed _
    exact (alike_pure _).mpr (agreed.mono Set.subset_union_left)
  · intro ret rung' _ _ closed
    exact closed.release fun _ _ released => (alike_pure _).mpr (released.mono (Set.empty_subset _))

theorem keepsAlike_fhCharCtrlIoctl (fd : ℤ) (cmd arg : ℕ)
    (paired : Paired Host.Alike ∅ left right) :
    KeepsAlike ∅ (fhCharCtrlIoctl fd cmd arg) none left right := by
  refine paired.storeInt fun _ _ filed => filed.storeField fun _ _ commanded => ?_
  exact commanded.storeField fun _ _ filled =>
    (alike_pure _).mpr (filled.mono (Set.empty_subset _))

end

/-! ## Transferring escape data -/

section

variable {left right : Machine Host} {rung : Option (Machine Host)}

theorem eqOn_handshakePage {page page' : ByteMem} (size : ℕ) (infoCtx : Int32) :
    Set.EqOn (handshakePage page size infoCtx) (handshakePage page' size infoCtx)
      (Set.Ico FaultData.data (FaultData.data + ActionTransferEscapeData.size)) := by
  have written := ByteMem.eqOn_set (ByteMem.eqOn_set (ByteMem.eqOn_set (ByteMem.eqOn_set
    (Set.eqOn_empty page page') ActionTransferEscapeData.status
      (TransferStatus.transferSize.code % 256 ^ ActionTransferEscapeData.status.width).toNat)
    ActionTransferEscapeData.totalSize size) ActionTransferEscapeData.chunkSize 0)
    ActionTransferEscapeData.infoCtx
      (infoCtx.toInt % 256 ^ ActionTransferEscapeData.infoCtx.width).toNat
  refine written.mono ?_
  rintro address ⟨lower, upper⟩
  simp only [Field.bytes, ActionTransferEscapeData.status, ActionTransferEscapeData.totalSize,
    ActionTransferEscapeData.chunkSize, ActionTransferEscapeData.infoCtx,
    ActionTransferEscapeData.size, dataField, FaultData.data, Set.mem_union, Set.mem_Ico]
    at lower upper ⊢
  omega

theorem alike_sendHandshake_iff
    {post : ℤ → Option (Machine Host) → Machine Host → Machine Host → Prop} (size : ℕ)
    (infoCtx : Int32) :
    (sendHandshake size infoCtx).Alike Host.onEscape Host.Alike FromReply post rung left right ↔
      (fhDoFaulthook .transferEscapeData).Alike Host.onEscape Host.Alike FromReply post rung
        { left with page := handshakePage left.page size infoCtx }
        { right with page := handshakePage right.page size infoCtx } := by
  simp only [sendHandshake, alike_bind, alike_storeInt, alike_storeField, handshakePage]

theorem alike_sendHandshake (size : ℕ) (infoCtx : Int32) (paired : Paired Host.Alike ∅ left right) :
    (sendHandshake size infoCtx).Alike Host.onEscape Host.Alike FromReply
      (Escaped ∅ ActionTransferEscapeData.chunkSize.bytes) rung left right := by
  have offered := @eqOn_handshakePage left.page right.page size infoCtx
  have agree := @eqOn_escapePage _ .transferEscapeData _ _ offered (left.counter + 1)
  have status : ∀ page : ByteMem, (escapePage .transferEscapeData (left.counter + 1)
      (handshakePage page size infoCtx)).getInt ActionTransferEscapeData.status =
        TransferStatus.transferSize.code := by
    intro page
    rw [getInt_escapePage (by decide), handshakePage_status]
  have handshake : Paired Host.Alike ∅
      { left with page := handshakePage left.page size infoCtx }
      { right with page := handshakePage right.page size infoCtx } :=
    ⟨Set.eqOn_empty _ _, paired.locked, paired.counter, paired.peer⟩
  rw [alike_sendHandshake_iff]
  refine alike_fhDoFaulthook handshake ?_ ?_
  · have results := transferHandshake_congr left.peer.outcome left.peer.manager agree
      (Set.Ico_subset_Ico (by decide) (by decide)) (Set.Ico_subset_Ico (by decide) (by decide))
    dsimp only [escapeReply]
    rw [replyOf_handshake _ _ (escapePage_action _ _ _) (status _),
      replyOf_handshake _ _ (escapePage_action _ _ _) (status _), results]
  · intro ret manager writes reply _
    dsimp only [escapeReply] at reply
    rw [replyOf_handshake _ _ (escapePage_action _ _ _) (status _)] at reply
    cases reply
    intro address inside
    exact ⟨⟨ActionTransferEscapeData.chunkSize, transferMax⟩, List.mem_cons_self, inside⟩

/-- The bytes of a request that carries `count` bytes of the buffer. -/
def chunkBytesOf (count : ℕ) : Set ℕ :=
  Set.Ico FaultData.data (ActionTransferEscapeData.chunkData + count)

theorem eqOn_chunkPage {page page' : ByteMem} (bytes : List UInt8) :
    Set.EqOn (chunkPage page bytes) (chunkPage page' bytes) (chunkBytesOf bytes.length) := by
  have written := ByteMem.eqOn_set (ByteMem.eqOn_set (ByteMem.eqOn_writeBytes
    (Set.eqOn_empty page page') ActionTransferEscapeData.chunkData bytes)
    ActionTransferEscapeData.chunkDataSize bytes.length) ActionTransferEscapeData.status
      (TransferStatus.transferData.code % 256 ^ ActionTransferEscapeData.status.width).toNat
  refine written.mono ?_
  rintro address ⟨lower, upper⟩
  simp only [Field.bytes, ActionTransferEscapeData.status, ActionTransferEscapeData.chunkDataSize,
    ActionTransferEscapeData.chunkData, dataField, FaultData.data, Set.mem_union, Set.mem_Ico]
    at lower upper ⊢
  omega

theorem alike_sendChunk_iff
    {post : ℤ → Option (Machine Host) → Machine Host → Machine Host → Prop} {data : List UInt8}
    (transferSize : ℕ) {sizeRemain : ℕ} (remains : sizeRemain ≤ data.length) :
    (sendChunk data (min transferSize sizeRemain) sizeRemain).Alike Host.onEscape Host.Alike
        FromReply post rung left right ↔
      (fhDoFaulthook .transferEscapeData).Alike Host.onEscape Host.Alike FromReply post rung
        { left with page := chunkPage left.page (nextChunk data transferSize sizeRemain) }
        { right with page := chunkPage right.page (nextChunk data transferSize sizeRemain) } := by
  rw [chunkPage, chunkPage, length_nextChunk transferSize remains]
  simp only [sendChunk, alike_bind, alike_storeBytes, alike_storeField, alike_storeInt, nextChunk]

theorem status_subset_of_chunkReply {start manager : Manager} {page : ByteMem} {ret : ℤ}
    {writes : List HostWrite}
    (reply : (((transferChunk start page).map resultOf).map fun result =>
      (result.1, result.2,
        if start.transfer.size < u64 (start.transfer.chunk + chunkTransfer page) then []
        else [ActionTransferEscapeData.status.writing TransferStatus.ok.code])) =
          some (ret, manager, writes))
    (nonneg : 0 ≤ ret) : ActionTransferEscapeData.status.bytes ⊆ writtenBytes writes := by
  by_cases overruns : start.transfer.size < u64 (start.transfer.chunk + chunkTransfer page)
  · simp only [transferChunk, if_pos overruns, resultOf, Option.map_some, Option.some.injEq,
      Prod.mk.injEq] at reply
    omega
  · rw [if_neg overruns] at reply
    rcases Option.map_eq_some_iff.mp reply with ⟨result, -, result_eq⟩
    simp only [Prod.mk.injEq] at result_eq
    rw [← result_eq.2.2]
    intro address inside
    exact ⟨_, List.mem_cons_self, inside⟩

theorem alike_escapeChunk (bytes : List UInt8) (paired : Paired Host.Alike ∅ left right) :
    (fhDoFaulthook .transferEscapeData).Alike Host.onEscape Host.Alike FromReply
      (Escaped ActionTransferEscapeData.status.bytes ActionTransferEscapeData.status.bytes) rung
      { left with page := chunkPage left.page bytes }
      { right with page := chunkPage right.page bytes } := by
  have offered := @eqOn_chunkPage left.page right.page bytes
  have agree := @eqOn_escapePage _ .transferEscapeData _ _ offered (left.counter + 1)
  have status : ∀ page : ByteMem, (escapePage .transferEscapeData (left.counter + 1)
      (chunkPage page bytes)).getInt ActionTransferEscapeData.status =
        TransferStatus.transferData.code := by
    intro page
    rw [getInt_escapePage (by decide), chunkPage_status]
  have inChunk : ActionTransferEscapeData.status.bytes ⊆ chunkBytesOf bytes.length :=
    Set.Ico_subset_Ico (by decide) (le_trans (by decide) (Nat.le_add_right _ _))
  have chunk : Paired Host.Alike ActionTransferEscapeData.status.bytes
      { left with page := chunkPage left.page bytes }
      { right with page := chunkPage right.page bytes } :=
    ⟨offered.mono inChunk, paired.locked, paired.counter, paired.peer⟩
  have dataSize : ActionTransferEscapeData.chunkDataSize.bytes ⊆ chunkBytesOf bytes.length :=
    Set.Ico_subset_Ico (by decide) (le_trans (by decide) (Nat.le_add_right _ _))
  have transfer_le : chunkTransfer (escapePage .transferEscapeData (left.counter + 1)
      (chunkPage left.page bytes)) ≤ bytes.length := by
    rw [chunkTransfer, get_escapePage (by decide), chunkPage,
      ByteMem.get_setInt_of_disjoint (by decide), ByteMem.get_set_same]
    exact (min_le_left _ _).trans (Nat.mod_le _ _)
  refine alike_fhDoFaulthook chunk ?_ ?_
  · have results := transferChunk_congr left.peer.manager agree dataSize
      (Set.Ico_subset_Ico (by decide) (Nat.add_le_add_left transfer_le _))
    dsimp only [escapeReply]
    rw [replyOf_chunk _ _ (escapePage_action _ _ _) (status _),
      replyOf_chunk _ _ (escapePage_action _ _ _) (status _), ← chunkTransfer_congr agree dataSize,
      results]
  · intro ret manager writes reply nonneg
    dsimp only [escapeReply] at reply
    rw [replyOf_chunk _ _ (escapePage_action _ _ _) (status _)] at reply
    exact status_subset_of_chunkReply reply nonneg

theorem keepsAlike_transferEnd {known : Set ℕ} (ret : ℤ)
    (paired : Paired Host.Alike known left right)
    (status : ActionTransferEscapeData.status.bytes ⊆ known)
    (fresh : FromReply rung ActionTransferEscapeData.status.offset
      ActionTransferEscapeData.status.width) :
    KeepsAlike ∅ (transferEnd ret) rung left right := by
  have kept := paired.mono (Set.empty_subset known)
  refine paired.loadInt status fresh ?_
  by_cases notOk : left.page.getInt ActionTransferEscapeData.status ≠ TransferStatus.ok.code
  · rw [if_pos notOk]
    exact (alike_pure _).mpr kept
  · rw [if_neg notOk]
    exact (alike_pure _).mpr kept

theorem keepsAlike_transferRounds (data : List UInt8) (transferSize fuel : ℕ) {sizeRemain : ℕ}
    (remains : sizeRemain ≤ data.length) (paired : Paired Host.Alike ∅ left right) :
    KeepsAlike ∅ (transferRounds data transferSize fuel sizeRemain) rung left right := by
  induction fuel generalizing sizeRemain rung left right with
  | zero => exact alike_diverge
  | succ fuel ih =>
      refine Alike.bind ((alike_sendChunk_iff transferSize remains).mpr
        (alike_escapeChunk _ paired)) ?_
      rintro value rung' left' right' ⟨paired', ended⟩
      rcases ended with ⟨negative, fresh⟩ | ⟨rfl, -, fresh⟩
      · rw [if_pos negative.ne]
        exact keepsAlike_transferEnd value paired' subset_rfl (fresh _ _)
      · have replied := fresh ActionTransferEscapeData.status.offset
          ActionTransferEscapeData.status.width subset_rfl
        rw [if_neg (not_not.mpr rfl)]
        refine paired'.loadInt subset_rfl replied ?_
        generalize left'.page.getInt ActionTransferEscapeData.status = status
        by_cases further : status = TransferStatus.ok.code ∧
            0 < sizeRemain - min transferSize sizeRemain
        · rw [if_pos further]
          exact ih ((Nat.sub_le _ _).trans remains) (paired'.mono (Set.empty_subset _))
        · rw [if_neg further]
          exact keepsAlike_transferEnd 0 paired' subset_rfl replied

theorem keepsAlike_transferChunkToHost (fuel : ℕ) (data : List UInt8) (infoCtx : Int32)
    (paired : Paired Host.Alike ∅ left right) :
    KeepsAlike ∅ (transferChunkToHost fuel data infoCtx) rung left right := by
  rw [transferChunkToHost]
  by_cases empty : data.length = 0
  · rw [if_pos empty]
    exact (alike_pure _).mpr paired
  · rw [if_neg empty]
    refine Alike.bind (alike_sendHandshake data.length infoCtx paired) ?_
    rintro value rung' left' right' ⟨paired', ended⟩
    rcases ended with ⟨negative, -⟩ | ⟨rfl, agreed, fresh⟩
    · rw [if_pos negative.ne]
      exact (alike_pure _).mpr paired'
    · rw [if_neg (not_not.mpr rfl)]
      exact agreed.loadField Set.subset_union_right (fresh _ _ subset_rfl)
        (keepsAlike_transferRounds data _ fuel le_rfl paired')

/-! ## Starting a DMA -/

theorem keepsAlike_dmaEscape (args : SgdmaArgs) (pinned : PinPages)
    (paired : Paired Host.Alike ∅ left right) :
    KeepsAlike ∅ (dmaEscape args pinned) rung left right := by
  refine paired.storeInt fun _ _ written => written.storeInt fun _ _ filed => ?_
  refine filed.storeInt fun _ _ addressed => addressed.storeField fun _ _ sized => ?_
  refine sized.storeInt fun _ _ aperture => aperture.storeField fun _ _ counted => ?_
  refine counted.storeField fun left' right' filled => ?_
  have requested : Paired Host.Alike
      (ActionCommon.fd.bytes ∪
        Set.Ico (FaultData.data + 16) (FaultData.data + ActionDma.size)) left' right' := by
    refine filled.mono ?_
    intro address inside
    simp only [Field.bytes, ActionDma.doWrite, ActionCommon.fd, ActionDma.phyAddr, ActionDma.len,
      ActionDma.doAperture, ActionDma.pagesNr, ActionDma.userBuf, ActionDma.size, dataField,
      FaultData.data, Set.mem_union, Set.mem_Ico, Set.mem_empty_iff_false] at inside ⊢
    omega
  have agree := @eqOn_escapePage _ .dma _ _ requested.page (left'.counter + 1)
  refine (keepsAlike_escapeChecked requested ?_ ?_ ?_).imp ?_
  · rw [escapeReply, escapeReply, replyOf_dma _ _ (escapePage_action _ _ _),
      replyOf_dma _ _ (escapePage_action _ _ _),
      doDma_congr _ _ agree Set.subset_union_left Set.subset_union_right]
  · intro ret manager writes reply _
    rw [escapeReply, replyOf_dma _ _ (escapePage_action _ _ _)] at reply
    rcases Option.map_eq_some_iff.mp reply with ⟨result, -, result_eq⟩
    simp only [Prod.mk.injEq] at result_eq
    rw [← result_eq.2.2]
    exact retBytes_subset result.1 left'.peer.outcome.errno.toInt
  · intro rung' _ _ agreed fresh
    have ret : ActionCommon.ret.bytes ⊆ retBytes := Set.Ico_subset_Ico (by decide) (by decide)
    exact agreed.loadInt (ret.trans Set.subset_union_right) (fresh _ _ ret)
      ((alike_pure _).mpr (agreed.mono Set.subset_union_left))
  · exact fun _ _ _ _ kept => kept.mono (Set.empty_subset _)

theorem keepsAlike_charSgdmaReadWrite (fuel : ℕ) (args : SgdmaArgs)
    (paired : Paired Host.Alike ∅ left right) :
    KeepsAlike ∅ (charSgdmaReadWrite fuel args) none left right := by
  rw [charSgdmaReadWrite]
  split
  · exact (alike_pure _).mpr paired
  · split
    · exact (alike_pure _).mpr paired
    · refine paired.acquire fun _ _ acquired => ?_
      refine Alike.bind (keepsAlike_transferChunkToHost fuel _ _ acquired) ?_
      intro sent rung' _ _ transferred
      have released : ∀ (ret : ℤ) rung' left' right', Paired Host.Alike ∅ left' right' →
          KeepsAlike ∅ (release >>= fun _ => pure ret) rung' left' right' := by
        intro ret rung' left' right' paired'
        exact paired'.release fun _ _ ended => (alike_pure _).mpr ended
      by_cases failed : sent < 0
      · rw [if_pos failed]
        exact released sent _ _ _ transferred
      · rw [if_neg failed]
        exact Alike.bind (keepsAlike_dmaEscape args _ transferred) released

end

/-! ## Mapping memory -/

section

variable {left right : Machine Host}

/-- The bytes of a request to map memory that lists `count` page frame numbers. -/
def mmapBytes (count : ℕ) : Set ℕ :=
  Set.Ico FaultData.data (FaultData.data + ActionMmapDevice.size + 8 * count)

theorem bytes_subset_mmapBytes {field : Field} (lower : FaultData.data ≤ field.offset)
    (upper : field.offset + field.width ≤ FaultData.data + ActionMmapDevice.size) (count : ℕ) :
    field.bytes ⊆ mmapBytes count :=
  Set.Ico_subset_Ico lower (upper.trans (Nat.le_add_right _ _))

theorem alike_mmapPfnLoop (pfnStart fuel index : ℕ)
    (paired : Paired Host.Alike (mmapBytes index) left right) :
    (mmapPfnLoop pfnStart fuel index).Alike Host.onEscape Host.Alike FromReply
      (fun _ _ left' right' => Paired Host.Alike
        (mmapBytes (left'.page.get ActionMmapDevice.pfnSize)) left' right') none left right := by
  induction fuel generalizing index left right with
  | zero => exact alike_diverge
  | succ fuel ih =>
      refine paired.loadField (bytes_subset_mmapBytes (by decide) (by decide) index)
        (fromReply_none _ _) ?_
      by_cases more : index < left.page.get ActionMmapDevice.pfnSize
      · rw [if_pos more]
        refine paired.storeField fun left' right' listed => ih (index + 1) (listed.mono ?_)
        rintro address ⟨lower, upper⟩
        simp only [mmapBytes, Field.bytes, ActionMmapDevice.pfn, ActionMmapDevice.size, dataField,
          FaultData.data, Set.mem_union, Set.mem_Ico] at lower upper ⊢
        omega
      · rw [if_neg more]
        refine (alike_pure _).mpr (paired.mono ?_)
        exact Set.Ico_subset_Ico le_rfl (by omega)

theorem keepsAlike_mmapEscape {rung : Option (Machine Host)} (ret : ℤ)
    (paired : Paired Host.Alike (mmapBytes (left.page.get ActionMmapDevice.pfnSize)) left right) :
    KeepsAlike ∅ (escapeChecked .mmap id (pure ret)) rung left right := by
  have agree := @eqOn_escapePage _ .mmap _ _ paired.page (left.counter + 1)
  have pfnSize : (escapePage .mmap (left.counter + 1) left.page).get ActionMmapDevice.pfnSize =
      left.page.get ActionMmapDevice.pfnSize := get_escapePage (by decide)
  refine (keepsAlike_escapeChecked paired ?_ ?_ ?_).imp ?_
  · have request : Set.Ico (FaultData.data + 40)
        (FaultData.data + ActionMmapDevice.size +
          8 * (escapePage .mmap (left.counter + 1) left.page).get ActionMmapDevice.pfnSize) ⊆
          mmapBytes (left.page.get ActionMmapDevice.pfnSize) := by
      rw [pfnSize]
      exact Set.Ico_subset_Ico (by decide) le_rfl
    rcases handleMmap_congr left.peer.outcome left.peer.manager agree
      (bytes_subset_mmapBytes (by decide) (by decide) _) request with ⟨results, writes⟩
    rw [escapeReply, escapeReply, replyOf_mmap _ _ (escapePage_action _ _ _),
      replyOf_mmap _ _ (escapePage_action _ _ _), results, writes]
  · intro ret manager writes reply nonneg
    rw [escapeReply, replyOf_mmap _ _ (escapePage_action _ _ _), Option.map_map,
      Option.map_eq_some_iff] at reply
    rcases reply with ⟨handled, step, result⟩
    simp only [Function.comp_apply, resultOf, Prod.mk.injEq] at result
    rcases handleMmap_cases step with ⟨-, rfl⟩ | ⟨allocated, listed, -⟩
    · omega
    · rw [← result.2.2, handleMmapWrites, if_neg (by simp [allocated, listed])]
      exact retBytes_subset left.peer.outcome.mmapRet.toInt left.peer.outcome.errno.toInt
  · intro rung' _ _ agreed _
    exact (alike_pure _).mpr (agreed.mono Set.subset_union_left)
  · exact fun _ _ _ _ kept => kept.mono (Set.empty_subset _)

theorem keepsAlike_fhBridgeMmap (fuel : ℕ) (args : MmapArgs)
    (paired : Paired Host.Alike ∅ left right) :
    KeepsAlike ∅ (fhBridgeMmap fuel args) none left right := by
  rw [fhBridgeMmap]
  split
  · exact (alike_pure _).mpr paired
  · split
    · exact (alike_pure _).mpr paired
    · split
      · exact (alike_pure _).mpr paired
      · refine paired.storeBytes fun _ _ cleared => cleared.storeInt fun _ _ filed => ?_
        refine filed.storeField fun _ _ started => started.storeField fun _ _ ended => ?_
        refine ended.storeField fun _ _ pgoff => pgoff.storeField fun _ _ flags => ?_
        refine flags.storeField fun _ _ prot => prot.storeField fun _ _ sized => ?_
        refine Alike.bind (alike_mmapPfnLoop _ fuel 0 (sized.mono ?_)) ?_
        · rintro address ⟨lower, upper⟩
          refine Or.inl (Or.inl (Or.inl (Or.inl (Or.inl (Or.inl (Or.inl (Or.inr ⟨lower, ?_⟩)))))))
          rw [List.length_replicate]
          exact upper
        · intro _ rung' _ _ listed
          exact keepsAlike_mmapEscape _ listed

end

/-! ## The operations on control registers -/

section

variable {machine : Machine Host}

/-- The host does not touch the data of a request that it does not know. -/
theorem answered_ctrl {action : FhAction} (unknown : action = .read ∨ action = .write)
    {field : Field} (inData : FaultData.data ≤ field.offset) :
    ((escaping action machine).answered Host.onEscape).page.getInt field =
      machine.page.getInt field := by
  have turn := escapePage_turn action (machine.counter + 1) machine.page
  have code : (escapePage action (machine.counter + 1) machine.page).get FaultData.action =
        FhAction.read.code ∨
      (escapePage action (machine.counter + 1) machine.page).get FaultData.action =
        FhAction.write.code := by
    rw [escapePage_action]
    exact unknown.imp (congrArg _) (congrArg _)
  have handled := handleAction_of_replyOf
    (replyOf_ctrl machine.peer.outcome machine.peer.manager code)
  rw [ByteMem.applying_nil] at handled
  simp only [Machine.answered, escaping]
  cases serving : machine.peer.serving with
  | false =>
      rw [Host.onEscape_of_idle (Or.inl serving)]
      exact getInt_escapePage inData
  | true =>
      have apart : FaultData.turn.Disjoint field := Or.inl (le_trans (by decide) inData)
      rw [Host.onEscape_of_handled serving turn handled le_rfl,
        ByteMem.getInt_set_of_disjoint apart]
      exact getInt_escapePage inData

/-- `fh_char_ctrl_read` returns a negative number that it finds in `common.ret`. -/
theorem run_fhCharCtrlRead_stale (args : CtrlArgs) (free : machine.locked = false)
    (negative : machine.page.getInt ActionCommon.ret < 0) :
    ((Prod.fst <$> fhCharCtrlRead args).run Host.onEscape machine).1 =
      .done (machine.page.getInt ActionCommon.ret) := by
  obtain ⟨asking, asking_eq⟩ : ∃ asking : Machine Host, asking =
      { machine with locked := true, page := ctrlPage args args.count machine.page } := ⟨_, rfl⟩
  have kept : asking.page.getInt ActionCommon.ret = machine.page.getInt ActionCommon.ret := by
    rw [asking_eq, ctrlPage, ByteMem.getInt_set_of_disjoint (by decide),
      ByteMem.getInt_setInt_of_disjoint (by decide), ByteMem.getInt_setInt_of_disjoint (by decide)]
  have replied : ((escaping .read asking).answered Host.onEscape).page.getInt ActionCommon.ret =
      machine.page.getInt ActionCommon.ret := by
    rw [answered_ctrl (Or.inl rfl) (by decide), kept]
  have ran : (fhCharCtrlRead args).run Host.onEscape machine =
      (.done (machine.page.getInt ActionCommon.ret, none),
        { (escaping .read asking).answered Host.onEscape with locked := false }) := by
    have escaped := run_fhDoFaulthook Host.onEscape .read asking
    generalize (escaping .read asking).answered Host.onEscape = after at escaped replied ⊢
    rw [asking_eq] at escaped
    simp only [ctrlPage] at escaped
    rw [fhCharCtrlRead, run_bind_of_done _ (run_acquire_of_free _ free),
      run_bind_of_done _ (run_storeInt _ _ _ _), run_bind_of_done _ (run_storeInt _ _ _ _),
      run_bind_of_done _ (run_storeField _ _ _ _), run_bind_of_done _ escaped,
      run_bind_of_done _ (run_loadInt _ _ _), replied, if_pos negative,
      run_bind_of_done _ (run_release _ _), run_pure]
  rw [map_def, run_bind_of_done _ ran, run_pure]

/-- `fh_char_ctrl_write` copies to the address that it finds in `buffer`. -/
theorem loads_fhCharCtrlWrite (args : CtrlArgs) (free : machine.locked = false) :
    ((fhCharCtrlWrite args).loads Host.onEscape none machine).head? =
      some ⟨none, ActionReadWrite.buffer.offset,
        machine.page.readBytes ActionReadWrite.buffer.offset ActionReadWrite.buffer.width⟩ := by
  have fd : ActionCommon.fd.Disjoint
      ⟨ActionReadWrite.buffer.offset, ActionReadWrite.buffer.width⟩ := by decide
  have offset : ActionReadWrite.offset.Disjoint
      ⟨ActionReadWrite.buffer.offset, ActionReadWrite.buffer.width⟩ := by decide
  have count : ActionReadWrite.count.Disjoint
      ⟨ActionReadWrite.buffer.offset, ActionReadWrite.buffer.width⟩ := by decide
  rw [fhCharCtrlWrite, loads_acquire_bind free, loads_storeInt_bind, loads_storeInt_bind,
    loads_storeField_bind, loads_loadField_bind, List.head?_cons]
  dsimp only
  rw [ByteMem.readBytes_set_of_disjoint count, ByteMem.setInt, ByteMem.setInt,
    ByteMem.readBytes_set_of_disjoint offset, ByteMem.readBytes_set_of_disjoint fd]

end

/-! ## Every operation -/

namespace FileOp

/-- The operation makes the same of any two pages that differ in the data area, and what it reads
from a reply has been written for this request. -/
structure Unstained (op : FileOp) (fuel : ℕ) (machine : Machine Host) : Prop where
  same : ∀ page page', HeaderEq page page' →
    (op.program fuel).SameRun Host.onEscape Host.Alike none none { machine with page := page }
      { machine with page := page' }
  replies : ∀ page,
    ∀ load ∈ (op.program fuel).loads Host.onEscape none { machine with page := page },
    FromReply load.rung load.offset load.bytes.length

/-- The path of an open fits the field of the request; the kernel keeps names shorter. -/
def NameFits : FileOp → Prop
  | charOpen args => args.name.length + devPrefix.length ≤ ActionOpenclose.deviceSize
  | _ => True

/-- The operation works on control registers. -/
def OnCtrl : FileOp → Prop
  | ctrlRead _ | ctrlWrite _ => True
  | _ => False

theorem keepsAlike_program (op : FileOp) (fuel : ℕ) (fits : op.NameFits) (served : ¬op.OnCtrl)
    {left right : Machine Host} (paired : Paired Host.Alike ∅ left right) :
    KeepsAlike ∅ (op.program fuel) none left right := by
  cases op with
  | charOpen args => exact (alike_map _ _).mpr (keepsAlike_fhCharOpen args fits paired)
  | charClose fd => exact keepsAlike_fhCharClose fd paired
  | ctrlRead args => exact absurd trivial served
  | ctrlWrite args => exact absurd trivial served
  | ctrlIoctl fd cmd arg => exact keepsAlike_fhCharCtrlIoctl fd cmd arg paired
  | bridgeMmap args => exact keepsAlike_fhBridgeMmap fuel args paired
  | sgdmaReadWrite args => exact keepsAlike_charSgdmaReadWrite fuel args paired

theorem unstained_of_served (op : FileOp) (fuel : ℕ) (machine : Machine Host) (fits : op.NameFits)
    (served : ¬op.OnCtrl) : op.Unstained fuel machine := by
  have paired : ∀ page page', Paired Host.Alike ∅ { machine with page := page }
      { machine with page := page' } :=
    fun _ _ => ⟨Set.eqOn_empty _ _, rfl, rfl, rfl, rfl, rfl, rfl⟩
  constructor
  · intro page page' _
    exact (keepsAlike_program op fuel fits served (paired page page')).sameRun
      ⟨rfl, rfl, rfl, rfl⟩ none
  · intro page
    exact (keepsAlike_program op fuel fits served (paired page page)).loads_fresh

/-- A page that some earlier request has left. -/
def stalePage (field : Field) (value : ℤ) : ByteMem := ByteMem.zero.setInt field value

theorem stalePage_headerEq {field : Field} (inData : FaultData.data ≤ field.offset)
    (value value' : ℤ) : HeaderEq (stalePage field value) (stalePage field value') := by
  intro address inHeader
  exact ((HeaderEq.writeBytes_of_le inData) address inHeader).trans
    ((HeaderEq.writeBytes_of_le inData) address inHeader).symm

theorem getInt_stalePage (field : Field) (value : ℤ) :
    (stalePage field value).getInt field = Int.bmod value (256 ^ field.width) :=
  ByteMem.getInt_setInt_same _ _ _

theorem not_unstained_ctrlRead (args : CtrlArgs) (fuel : ℕ) {machine : Machine Host}
    (free : machine.locked = false) : ¬(ctrlRead args).Unstained fuel machine := by
  intro unstained
  have found : ∀ value : ℤ, Int.bmod value (256 ^ ActionCommon.ret.width) < 0 →
      (((ctrlRead args).program fuel).run Host.onEscape
        { machine with page := stalePage ActionCommon.ret value }).1 =
          .done (Int.bmod value (256 ^ ActionCommon.ret.width)) := by
    intro value negative
    rw [← getInt_stalePage] at negative ⊢
    exact @run_fhCharCtrlRead_stale { machine with page := stalePage ActionCommon.ret value } args
      free negative
  have same := (unstained.same (stalePage ActionCommon.ret (-1)) (stalePage ActionCommon.ret (-2))
    (stalePage_headerEq (by decide) (-1) (-2))).result
  have first := found (-1) (by decide)
  have second := found (-2) (by decide)
  have equal := Result.done.inj (first.symm.trans (same.trans second))
  exact absurd equal (by decide)

theorem not_unstained_ctrlWrite (args : CtrlArgs) (fuel : ℕ) {machine : Machine Host}
    (free : machine.locked = false) : ¬(ctrlWrite args).Unstained fuel machine := by
  intro unstained
  have same := (unstained.same (stalePage ActionReadWrite.buffer 0)
    (stalePage ActionReadWrite.buffer 1) (stalePage_headerEq (by decide) 0 1)).loads
  have copied : ∀ value : ℤ, (((ctrlWrite args).program fuel).loads Host.onEscape none
      { machine with page := stalePage ActionReadWrite.buffer value }).head? =
        some ⟨none, ActionReadWrite.buffer.offset,
          (stalePage ActionReadWrite.buffer value).readBytes ActionReadWrite.buffer.offset
            ActionReadWrite.buffer.width⟩ := by
    intro value
    exact @loads_fhCharCtrlWrite
      { machine with page := stalePage ActionReadWrite.buffer value } args free
  have heads := congrArg List.head? same
  rw [List.head?_map, List.head?_map, copied, copied] at heads
  simp only [Option.map_some, Option.some.injEq, Prod.mk.injEq, true_and] at heads
  have equal : (stalePage ActionReadWrite.buffer 0).getInt ActionReadWrite.buffer =
      (stalePage ActionReadWrite.buffer 1).getInt ActionReadWrite.buffer := by
    simp only [ByteMem.getInt, ByteMem.get, heads]
  rw [getInt_stalePage, getInt_stalePage] at equal
  exact absurd equal (by decide)

/--
An operation that finds other data on the page returns the same, loads the same
and leaves the host in the same state, and it reads nothing of a reply that the
host has not written, exactly when it is not one of the two operations on control
registers, for which the host has no handler.
-/
theorem unstained_iff (op : FileOp) (fuel : ℕ) (machine : Machine Host)
    (free : machine.locked = false) (fits : op.NameFits) :
    op.Unstained fuel machine ↔ ¬op.OnCtrl := by
  constructor
  · intro unstained onCtrl
    cases op with
    | ctrlRead args => exact not_unstained_ctrlRead args fuel free unstained
    | ctrlWrite args => exact not_unstained_ctrlWrite args fuel free unstained
    | charOpen _ | charClose _ | ctrlIoctl _ _ _ | bridgeMmap _ | sgdmaReadWrite _ => exact onCtrl
  · exact unstained_of_served op fuel machine fits

/-- The control device, opened for reading and writing. -/
def openControl : OpenArgs where
  infoAlloc := true
  name := [0x78, 0x64, 0x6d, 0x61]
  flags := 2

theorem charOpen_unstained : (charOpen openControl).Unstained 0 Machine.cleared :=
  (unstained_iff (charOpen openControl) 0 Machine.cleared rfl
    (show openControl.name.length + devPrefix.length ≤ ActionOpenclose.deviceSize by decide)).mpr id

def readControl : CtrlArgs where
  fd := 3
  pos := 0
  count := 4
  copyRet := 0

/-- A read of a control register returns -1 or -2, whichever an earlier request has left. -/
theorem ctrlRead_returns_stale :
    ¬∀ (op : FileOp) fuel machine, machine.locked = false → op.NameFits →
      op.Unstained fuel machine := by
  intro claim
  exact not_unstained_ctrlRead readControl 0 rfl
    (claim (ctrlRead readControl) 0 Machine.cleared rfl trivial)

end FileOp

end Acai
