import Paging.Proofs.Pager.Holding
import Paging.Proofs.Session.History

/-! The bytes of one file through a run. What a run leaves in a file that nobody else
fills is decided by the writes and the appends that pagers made to it, each with
the bytes that it moved, in their order. -/
namespace Paging

namespace Session

/-- Everything that has a name or that a pager has open is on the volume. -/
structure Held (session : Session) : Prop where
  volume : session.volume.Held
  pagers : session.AllPagers fun pager => pager.HeldBy session.volume

theorem held_empty : Held empty :=
  ⟨Volume.held_empty, allPagers_of_pagers_empty _ _⟩

/-- Pagers whose volume grows keep what they have open. -/
theorem Held.mono {session : Session} (hHeld : session.Held) {volume : Volume}
    (hVolume : volume.Held) (hSize : session.volume.contents.size ≤ volume.contents.size) :
    Held { session with volume } where
  volume := hVolume
  pagers := fun number pager hPager => (hHeld.pagers number pager hPager).mono hSize

theorem Held.step {session : Session} (hHeld : session.Held) {instruction : Instruction}
    (hSingle : instruction.isSingle = true) : (session.step instruction).2.Held := by
  rcases session.step_cases hSingle with hSame | ⟨number, config, pager, -, hCreated, hAfter⟩ |
    ⟨number, -, hAfter⟩ | ⟨number, operation, pager, -, hPager, hAfter⟩ |
      ⟨path, bytes, volume, -, hReplace, hAfter⟩
  · rwa [hSame]
  · rw [hAfter]
    exact ⟨hHeld.volume, hHeld.pagers.insert (Pager.heldBy_of_create_eq_ok hCreated _) _⟩
  · rw [hAfter]
    exact ⟨hHeld.volume, hHeld.pagers.erase number⟩
  · obtain ⟨hSize, hVolume⟩ := Pager.perform_held pager session.volume operation
    have hPerformer := (hHeld.pagers number pager hPager).perform hHeld.volume operation
    rw [hAfter]
    exact ⟨hVolume hHeld.volume,
      (hHeld.mono (hVolume hHeld.volume) hSize).pagers.insert hPerformer _⟩
  · obtain ⟨inode, opened, hOpen, rfl⟩ := Volume.replaceFile_eq_ok hReplace
    have hExtends := (Volume.openOrCreate_extends hOpen).1
    rw [hAfter]
    refine hHeld.mono ((hExtends.held hHeld.volume).setContent inode _) ?_
    rw [Volume.size_contents_setContent]
    exact hExtends.size_le

theorem Held.run {session : Session} (hHeld : session.Held) (instructions : List Instruction) :
    (session.run instructions).2.Held :=
  invariant_of_single (fun _ _ hSingle hBefore => hBefore.step hSingle) hHeld instructions

/-- The file that a pager has open under a descriptor. -/
def fileOf? (session : Session) (number : Nat) (fd : Descriptor) : Option Inode :=
  session.pagers[number]?.bind fun pager => (pager.handle? fd).map Handle.inode

/-- The file that a pager has open as its log. -/
def logOf? (session : Session) (number : Nat) : Option Inode :=
  session.pagers[number]?.bind Pager.log

/-- The files that some pager has open as its log. -/
def logs (session : Session) : List Inode :=
  session.pagers.toList.filterMap fun entry => entry.2.log

theorem mem_logs {session : Session} {number : Nat} {inode : Inode}
    (hLog : session.logOf? number = some inode) : inode ∈ session.logs := by
  obtain ⟨pager, hPager, hOpen⟩ := Option.bind_eq_some_iff.mp hLog
  exact List.mem_filterMap.mpr
    ⟨(number, pager), Std.ExtTreeMap.mem_toList_iff_getElem?_eq_some.mpr hPager, hOpen⟩

end Session

/-- A list of bytes after several writes, each with its place. -/
def overwriteAll (file : List UInt8) (writes : List (Nat × List UInt8)) : List UInt8 :=
  writes.foldl (fun file write => overwrite file write.1 write.2) file

theorem overwriteAll_of_nil {writes : List (Nat × List UInt8)}
    (hNone : ∀ write ∈ writes, write.2 = []) (file : List UInt8) :
    overwriteAll file writes = file := by
  induction writes with
  | nil => rfl
  | cons write rest ih =>
      rw [overwriteAll, List.foldl_cons, hNone write List.mem_cons_self, overwrite_nil]
      exact ih fun later hLater => hNone later (List.mem_cons_of_mem _ hLater)

namespace Moment

/-- How many of `count` bytes the operation of the moment moved. -/
def moved (moment : Moment) (count : Nat) : Nat :=
  match moment.answer with
  | .performed result _ => movedBy count result
  | _ => 0

/-- What was written into a file through descriptors: where, and the bytes that were
moved. -/
def pageWrites (inode : Inode) (moment : Moment) : List (Nat × List UInt8) :=
  match moment.instruction with
  | .perform number (.writePage fd page data count) =>
    if moment.before.fileOf? number fd = some inode then
      [(page.offset, data.toList.take (moment.moved count))]
    else []
  | _ => []

/-- The bytes that were appended to a file by pagers whose log it is. -/
def appends (inode : Inode) (moment : Moment) : List (List UInt8) :=
  match moment.instruction with
  | .perform number (.appendLog data count) =>
    if moment.after.logOf? number = some inode then [data.toList.take (moment.moved count)]
    else []
  | _ => []

/-- The file that someone else fills, if anyone does. -/
def filledOutside? (moment : Moment) : Option Inode :=
  match moment.instruction with
  | .replaceOutside path _ => (moment.before.volume.openOrCreate path).toOption.map Prod.fst
  | _ => none

/-- What a moment makes of the bytes of a file that nobody else fills. -/
def leave (inode : Inode) (file : List UInt8) (moment : Moment) : List UInt8 :=
  overwriteAll file (moment.pageWrites inode) ++ (moment.appends inode).flatten

/-- A moment at which a pager that there is performs an operation. -/
theorem after_of_perform {moment : Moment} {number : Nat} {operation : Operation} {pager : Pager}
    (hInstruction : moment.instruction = .perform number operation)
    (hPager : moment.before.pagers[number]? = some pager) :
    moment.after.volume = (pager.perform moment.before.volume operation).volume ∧
    moment.after.logOf? number = (pager.perform moment.before.volume operation).pager.log ∧
    ∀ count, moment.moved count =
      movedBy count (pager.perform moment.before.volume operation).result := by
  simp [after, Session.logOf?, moved, answer, hInstruction, Session.step, hPager]

/-- An operation that moves bytes into no file leaves every file as it was. -/
theorem leave_of_extends {moment : Moment} {inode : Inode}
    (hExtends : moment.before.volume.Extends moment.after.volume)
    (hWrites : ∀ write ∈ moment.pageWrites inode, write.2 = [])
    (hAppends : ∀ bytes ∈ moment.appends inode, bytes = []) :
    (moment.after.volume.content inode).toList =
      moment.leave inode (moment.before.volume.content inode).toList := by
  rw [leave, overwriteAll_of_nil hWrites, List.flatten_eq_nil_iff.mpr hAppends, List.append_nil,
    hExtends.content_eq]

/-- A write of a pager writes over the file that the descriptor stands for what it
moved there. -/
theorem content_after_writePage {moment : Moment} (hHeld : moment.before.Held) {number : Nat}
    {fd : Descriptor} {page : PageNo} {data : Array UInt8} {count : Nat} {pager : Pager}
    (hInstruction : moment.instruction = .perform number (.writePage fd page data count))
    (hPager : moment.before.pagers[number]? = some pager) (inode : Inode) :
    (moment.after.volume.content inode).toList =
      moment.leave inode (moment.before.volume.content inode).toList := by
  obtain ⟨hVolume, -, hMoved⟩ := after_of_perform hInstruction hPager
  have hFile : moment.before.fileOf? number fd = (pager.handle? fd).map Handle.inode := by
    simp [Session.fileOf?, hPager]
  have hResult : moment.moved count =
      movedBy count (pager.writePage moment.before.volume fd page data count).result := by
    rw [hMoved, Pager.perform, Outcome.map, movedBy_map]
  have hAppends : moment.appends inode = [] := by simp [appends, hInstruction]
  rw [Pager.perform, Outcome.map] at hVolume
  rcases Pager.writePage_cases pager moment.before.volume fd page data count with
    ⟨hSame, hNone⟩ | ⟨handle, content, hHandle, hAfter, hList⟩
  · refine leave_of_extends (by rw [hVolume, hSame]; exact Volume.Extends.refl _) ?_
      (by simp [hAppends])
    intro write hWrite
    simp only [pageWrites, hInstruction] at hWrite
    split at hWrite
    · rw [List.mem_singleton.mp hWrite, hResult, hNone, List.take_zero]
    · cases hWrite
  · have hIndex := (hHeld.pagers number pager hPager).handles fd handle hHandle
    rw [hVolume, hAfter, leave, hAppends, List.flatten_nil, List.append_nil]
    simp only [pageWrites, hInstruction, hFile, hHandle, Option.map_some, Option.some.injEq]
    split
    · rename_i hThis
      subst hThis
      rw [Volume.content_setContent_self _ _ hIndex, hList, hResult]
      rfl
    · rename_i hOther
      rw [Volume.content_setContent_of_ne _ _ (Ne.symm hOther)]
      rfl

/-- An append of a pager adds to its log what it moved there. -/
theorem content_after_appendLog {moment : Moment} (hHeld : moment.before.Held) {number : Nat}
    {data : Array UInt8} {count : Nat} {pager : Pager}
    (hInstruction : moment.instruction = .perform number (.appendLog data count))
    (hPager : moment.before.pagers[number]? = some pager) (inode : Inode) :
    (moment.after.volume.content inode).toList =
      moment.leave inode (moment.before.volume.content inode).toList := by
  obtain ⟨hVolume, hLog, hMoved⟩ := after_of_perform hInstruction hPager
  have hResult : moment.moved count =
      movedBy count (pager.appendLog moment.before.volume data count).result := by
    rw [hMoved, Pager.perform, Outcome.map, movedBy_map]
  have hWrites : moment.pageWrites inode = [] := by simp [pageWrites, hInstruction]
  have hNothing : moment.moved count = 0 → ∀ bytes ∈ moment.appends inode, bytes = [] := by
    intro hNone bytes hBytes
    simp only [appends, hInstruction] at hBytes
    split at hBytes
    · rw [List.mem_singleton.mp hBytes, hNone, List.take_zero]
    · cases hBytes
  rw [Pager.perform, Outcome.map] at hVolume hLog
  rcases Pager.appendLog_cases pager moment.before.volume data count with
    ⟨hSame, -, hNone⟩ | ⟨access, hAccess, hOpened, ⟨hAfter, hNone⟩ | ⟨content, hAfter, hList⟩⟩
  · exact leave_of_extends (by rw [hVolume, hSame]; exact Volume.Extends.refl _)
      (by simp [hWrites]) (hNothing (hResult.trans hNone))
  · refine leave_of_extends ?_ (by simp [hWrites]) (hNothing (hResult.trans hNone))
    rw [hVolume, hAfter]
    exact Pager.accessLog_extends hAccess
  · have hExtends := Pager.accessLog_extends hAccess
    have hIndex :=
      (hHeld.pagers number pager hPager).index_lt_of_accessLog hHeld.volume hAccess
    rw [hVolume, hAfter, leave, hWrites]
    simp only [appends, hInstruction, hLog, hOpened, Option.some.injEq]
    split
    · rename_i hThis
      subst hThis
      rw [Volume.content_setContent_self _ _ hIndex, hList, hExtends.content_eq, hResult]
      simp [overwriteAll]
    · rename_i hOther
      rw [Volume.content_setContent_of_ne _ _ (Ne.symm hOther), hExtends.content_eq]
      simp [overwriteAll]

theorem content_after_perform {moment : Moment} (hHeld : moment.before.Held) {number : Nat}
    {operation : Operation} {pager : Pager}
    (hInstruction : moment.instruction = .perform number operation)
    (hPager : moment.before.pagers[number]? = some pager) (inode : Inode) :
    (moment.after.volume.content inode).toList =
      moment.leave inode (moment.before.volume.content inode).toList := by
  cases operation with
  | writePage => exact content_after_writePage hHeld hInstruction hPager inode
  | appendLog => exact content_after_appendLog hHeld hInstruction hPager inode
  | _ =>
      refine leave_of_extends ?_ (by simp [pageWrites, hInstruction])
        (by simp [appends, hInstruction])
      rw [(after_of_perform hInstruction hPager).1]
      exact Pager.perform_extends pager _ rfl

/-- Where no byte is moved and the volume stays the same, so does every file. -/
theorem content_after_of_volume_eq {moment : Moment} {inode : Inode}
    (hVolume : moment.after.volume = moment.before.volume)
    (hWrites : moment.pageWrites inode = []) (hAppends : moment.appends inode = []) :
    (moment.after.volume.content inode).toList =
      moment.leave inode (moment.before.volume.content inode).toList := by
  refine leave_of_extends ?_ (by simp [hWrites]) (by simp [hAppends])
  rw [hVolume]
  exact Volume.Extends.refl _

/-- Someone else who fills a file leaves the other files as they were. -/
theorem content_after_replaceOutside {moment : Moment} {path : Path} {bytes : Array UInt8}
    (hInstruction : moment.instruction = .replaceOutside path bytes) {inode : Inode}
    (hInside : moment.filledOutside? ≠ some inode) :
    (moment.after.volume.content inode).toList =
      moment.leave inode (moment.before.volume.content inode).toList := by
  have hWrites : moment.pageWrites inode = [] := by simp [pageWrites, hInstruction]
  have hAppends : moment.appends inode = [] := by simp [appends, hInstruction]
  cases hReplace : moment.before.volume.replaceFile path bytes with
  | error fault =>
      refine content_after_of_volume_eq ?_ hWrites hAppends
      simp [after, hInstruction, Session.step, hReplace]
  | ok volume =>
      obtain ⟨filled, opened, hOpen, rfl⟩ := Volume.replaceFile_eq_ok hReplace
      have hOther : inode ≠ filled := by
        intro hSame
        simp [filledOutside?, hInstruction, hOpen, Except.toOption, hSame] at hInside
      have hAfter : moment.after.volume = opened.setContent filled (.ofBytes bytes) := by
        simp [after, hInstruction, Session.step, hReplace]
      rw [hAfter, Volume.content_setContent_of_ne _ _ hOther,
        (Volume.openOrCreate_extends hOpen).1.content_eq, leave, hWrites, hAppends]
      simp [overwriteAll]

/-- What one moment makes of a file that nobody else fills at that moment. -/
theorem content_after (moment : Moment) (hHeld : moment.before.Held)
    (hSingle : moment.instruction.isSingle = true) {inode : Inode}
    (hInside : moment.filledOutside? ≠ some inode) :
    (moment.after.volume.content inode).toList =
      moment.leave inode (moment.before.volume.content inode).toList := by
  cases hInstruction : moment.instruction with
  | allocateTogether | appendTogether | ensureOpenTogether =>
      rw [hInstruction] at hSingle
      cases hSingle
  | replaceOutside path bytes => exact content_after_replaceOutside hInstruction hInside
  | perform number operation =>
      cases hPager : moment.before.pagers[number]? with
      | some pager => exact content_after_perform hHeld hInstruction hPager inode
      | none =>
          have hAfter : moment.after = moment.before := by
            simp [after, hInstruction, Session.step, hPager]
          refine content_after_of_volume_eq (congrArg Session.volume hAfter) ?_ ?_
          · simp only [pageWrites, hInstruction]
            split <;> simp_all [Session.fileOf?]
          · simp only [appends, hInstruction, hAfter]
            split <;> simp_all [Session.logOf?]
  | build | drop | readOutside =>
      refine content_after_of_volume_eq ?_ (by simp [pageWrites, hInstruction])
        (by simp [appends, hInstruction])
      simp only [after, hInstruction, Session.step]
      try split <;> rfl

end Moment

namespace Session

/-- What a run of single operations makes of a file that nobody else fills. -/
theorem content_moments {session : Session} (hHeld : session.Held)
    {instructions : List Instruction}
    (hSingle : ∀ instruction ∈ instructions, instruction.isSingle = true) {inode : Inode}
    (hInside : ∀ moment ∈ session.moments instructions, moment.filledOutside? ≠ some inode) :
    ((session.run instructions).2.volume.content inode).toList =
      (session.moments instructions).foldl (Moment.leave inode)
        (session.volume.content inode).toList := by
  induction instructions generalizing session with
  | nil => rfl
  | cons instruction rest ih =>
      have hFirst := hSingle instruction List.mem_cons_self
      have hMoment :=
        Moment.content_after ⟨session, instruction⟩ hHeld hFirst (hInside _ List.mem_cons_self)
      rw [run_cons, moments, List.foldl_cons, ← hMoment]
      exact ih (hHeld.step hFirst)
        (fun later hLater => hSingle later (List.mem_cons_of_mem _ hLater))
        fun moment hLater => hInside moment (List.mem_cons_of_mem _ hLater)

/-- What a run makes of a file that nobody else fills. -/
theorem content_run {session : Session} (hHeld : session.Held)
    (instructions : List Instruction) {inode : Inode}
    (hInside : ∀ moment ∈ session.history instructions, moment.filledOutside? ≠ some inode) :
    ((session.run instructions).2.volume.content inode).toList =
      (session.history instructions).foldl (Moment.leave inode)
        (session.volume.content inode).toList := by
  rw [run_singly]
  refine content_moments hHeld (fun single hMember => ?_) hInside
  obtain ⟨instruction, -, hSingly⟩ := List.mem_flatMap.mp hMember
  exact Instruction.isSingle_of_mem_singly hSingly

end Session

/-- Moments that only write leave the file with all their writes in it. -/
theorem foldl_leave_of_appends {inode : Inode} {moments : List Moment}
    (hAppends : ∀ moment ∈ moments, moment.appends inode = []) (file : List UInt8) :
    moments.foldl (Moment.leave inode) file =
      overwriteAll file (moments.flatMap (Moment.pageWrites inode)) := by
  induction moments generalizing file with
  | nil => rfl
  | cons moment rest ih =>
      rw [List.foldl_cons, ih fun later hLater => hAppends later (List.mem_cons_of_mem _ hLater),
        Moment.leave, hAppends moment List.mem_cons_self, List.flatten_nil, List.append_nil,
        List.flatMap_cons, overwriteAll, overwriteAll, overwriteAll, List.foldl_append]

/-- Moments that only append leave the file with all that they appended at its end. -/
theorem foldl_leave_of_pageWrites {inode : Inode} {moments : List Moment}
    (hWrites : ∀ moment ∈ moments, moment.pageWrites inode = []) (file : List UInt8) :
    moments.foldl (Moment.leave inode) file =
      file ++ (moments.flatMap (Moment.appends inode)).flatten := by
  induction moments generalizing file with
  | nil => simp
  | cons moment rest ih =>
      rw [List.foldl_cons, ih fun later hLater => hWrites later (List.mem_cons_of_mem _ hLater),
        Moment.leave, hWrites moment List.mem_cons_self, overwriteAll, List.foldl_nil,
        List.flatMap_cons, List.flatten_append, List.append_assoc]

end Paging
