import Paging.Proofs.Pager.Checked
import Paging.Proofs.Pager.Records
import Paging.Proofs.Workplace.Openings

/-! Nothing stops a pager once it is built. Main statement: `operations_never_stop`. -/
namespace Paging

/-- A pager is refused exactly when its number of open files is none, or more than a word
counts. -/
theorem Pager.create_eq_error_iff (config : Config) :
    (∃ fault, Pager.create config = .error fault) ↔
      config.maxOpenFiles = 0 ∨ 4294967295 < config.maxOpenFiles := by
  have hWord : UInt32.size ≤ config.maxOpenFiles ↔ 4294967295 < config.maxOpenFiles := Iff.rfl
  rw [← hWord, create]
  by_cases hNone : config.maxOpenFiles = 0
  · simp [hNone]
  · by_cases hMany : UInt32.size ≤ config.maxOpenFiles
    · simp [hNone, hMany]
    · simp [hNone, hMany]

/-- A table that has room enters a new path under a descriptor that is not in use. -/
theorem OpenTable.Coherent.insert_fresh {table : OpenTable} (hCoherent : table.Coherent)
    (hCapacity : table.capacity < UInt32.size) {path : Path}
    (hNew : table.descriptor? path = none) (hRoom : table.isFull = false) (inode : Inode) :
    ∃ fd after, table.insert path inode = .ok (fd, after) ∧ table.file? fd = none ∧
      after.descriptor? path = some fd ∧
      after.file? fd = some ⟨path, ⟨inode, table.openings⟩⟩ := by
  have hCount : table.count < table.capacity := Nat.not_le.mp (of_decide_eq_false hRoom)
  obtain ⟨fd, released, watermark, hReserves, hInsert⟩ :=
    hCoherent.insert_eq_ok hNew hCount (Or.inl hCapacity) inode
  refine ⟨fd, _, hInsert, ?_, ?_, ?_⟩
  · exact Std.ExtTreeMap.getElem?_eq_none hReserves.least.1
  · exact Std.ExtTreeMap.getElem?_insert_self
  · exact Std.ExtTreeMap.getElem?_insert_self

/-- A pager is built unless it is to have no open files, or more than a word counts, and from
then on nothing stops it. After any run of a session, and after any moves of workers at a pager
of it, every operation does with a look at each step what it does without: the bytes that it
takes are in the buffer, the places, descriptors and page numbers that it comes to fit in their
words, no more is taken away than there is, and a file is entered in the table only where its
path is not known and there is room. The same holds of what is left to do of an operation that
was begun. Where a new path meets a table with room, it is entered under a descriptor that is
not in use. -/
theorem operations_never_stop :
    (∀ config, (∃ fault, Pager.create config = .error fault) ↔
      config.maxOpenFiles = 0 ∨ 4294967295 < config.maxOpenFiles) ∧
    ∀ (start : Volume) (earlier : List Instruction) (number : Nat) (pager : Pager),
      (Session.run ⟨∅, start⟩ earlier).2.pagers[number]? = some pager →
      ∀ (present : Volume) (moves : List Move) (volume : Volume),
        let reached := ((Workplace.quiet pager present).run moves).2.pager
        (∀ operation, reached.performChecked volume operation =
          .ok (reached.perform volume operation)) ∧
        (∀ unfinished, reached.completeChecked volume unfinished =
          .ok (reached.complete volume unfinished)) ∧
        ∀ path inode, reached.table.descriptor? path = none → reached.table.isFull = false →
          ∃ fd after, reached.table.insert path inode = .ok (fd, after) ∧
            reached.table.file? fd = none ∧ after.descriptor? path = some fd ∧
            after.file? fd = some ⟨path, ⟨inode, reached.table.openings⟩⟩ := by
  refine ⟨Pager.create_eq_error_iff, ?_⟩
  intro start earlier number pager hPager present moves volume reached
  have hStart : (Workplace.quiet pager present).Numbered :=
    Workplace.numbered_quiet (Session.numbered_run start earlier number pager hPager) present
  have hTable : reached.table.Numbered := (hStart.run moves).table
  exact ⟨Pager.performChecked_eq volume hTable.coherent hTable.capacity_lt,
    Pager.completeChecked_eq volume hTable.coherent hTable.capacity_lt,
    fun _ inode hNew hRoom => hTable.coherent.insert_fresh hTable.capacity_lt hNew hRoom inode⟩

/-- A pager for one open file, at which two workers looked for the file before either opened
it. -/
theorem operations_never_stop_one_place :
    let earlier : List Instruction :=
      [.build 0 { maxOpenFiles := 1 }, .perform 0 (.createFile ⟨"f"⟩),
        .perform 0 (.createFile ⟨"g"⟩)]
    let session := (Session.run ⟨∅, .empty⟩ earlier).2
    let moves : List Move := [.start 0 (.openFile ⟨"f"⟩), .start 1 (.openFile ⟨"./f"⟩),
      .start 2 (.openFile ⟨"g"⟩), .finish 0]
    (∃ pager ∈ session.pagers[0]?,
      let left := ((Workplace.quiet pager session.volume).run moves).2
      left.unfinished[1]? = some (.opening ⟨"./f"⟩) ∧
      left.unfinished[2]? = some (.opening ⟨"g"⟩) ∧
      left.pager.table.isFull = true ∧
      left.pager.completeChecked left.volume (.opening ⟨"./f"⟩) =
        .ok (left.pager.complete left.volume (.opening ⟨"./f"⟩)) ∧
      left.pager.completeChecked left.volume (.opening ⟨"g"⟩) =
        .ok (left.pager.complete left.volume (.opening ⟨"g"⟩))) ∧
    ∃ fault, Pager.create { maxOpenFiles := 4294967296 } = .error fault := by
  intro earlier session moves
  have hSome : session.pagers[0]?.isSome := by decide +kernel +revert
  obtain ⟨pager, hPager⟩ := Option.isSome_iff_exists.mp hSome
  have hEvaluated : ∀ pager ∈ session.pagers[0]?,
      let left := ((Workplace.quiet pager session.volume).run moves).2
      left.unfinished[1]? = some (.opening ⟨"./f"⟩) ∧
      left.unfinished[2]? = some (.opening ⟨"g"⟩) ∧ left.pager.table.isFull = true := by
    decide +kernel +revert
  obtain ⟨hFirst, hSecond, hFull⟩ := hEvaluated pager hPager
  obtain ⟨hRefused, hReached⟩ := operations_never_stop
  have hRest := (hReached .empty earlier 0 pager hPager session.volume moves
    ((Workplace.quiet pager session.volume).run moves).2.volume).2.1
  exact ⟨⟨pager, hPager, hFirst, hSecond, hFull, hRest _, hRest _⟩,
    (hRefused _).mpr (Or.inr (by decide))⟩

end Paging
