import Paging.Proofs.Pager.Parts
import Paging.Proofs.Session.History

/-! Descriptors in every table that a pager can come to have. Main statement: a new
path gets the least descriptor that is not in use, keeps it until it is closed,
and never one without a slot. -/
namespace Paging

namespace OpenTable

/-- A table whose parts are in step, with what follows for those who use it. -/
structure Orderly (table : OpenTable) : Prop where
  coherent : table.Coherent
  /-- A descriptor belongs to one path. -/
  sameAs_of_descriptor? : ∀ path other fd,
    table.descriptor? path = some fd → table.descriptor? other = some fd → path.SameAs other
  /-- A path belongs to one descriptor. -/
  eq_of_sameAs : ∀ fd other file same, table.file? fd = some file →
    table.file? other = some same → file.path.SameAs same.path → fd = other
  /-- A new path is entered, as long as there is room, under the least descriptor
  that is free. -/
  insert_least : ∀ path inode, table.descriptor? path = none → table.count < table.capacity →
    ∃ fd after, table.insert path inode = .ok (fd, after) ∧ after.descriptor? path = some fd ∧
      table.IsLeastFree fd ∧ fd.index < table.capacity
  index_lt : ∀ fd ∈ table.byDescriptor, fd.index < table.capacity
  count_eq : table.count = table.toList.length ∧ table.count = table.byPath.size
  count_le : table.count ≤ table.capacity

theorem Coherent.orderly {table : OpenTable} (hCoherent : table.Coherent)
    (hCounted : table.capacity < UInt32.size ∨ table.watermark.index + 1 < UInt32.size) :
    table.Orderly where
  coherent := hCoherent
  sameAs_of_descriptor? := fun _ _ _ hPath hOther => hCoherent.components_unique hPath hOther
  eq_of_sameAs := fun _ _ _ _ hFile hSame hPaths => hCoherent.descriptor_unique hFile hSame hPaths
  insert_least := by
    intro path inode hNew hRoom
    obtain ⟨fd, released, watermark, hReserves, hInsert⟩ :=
      hCoherent.insert_eq_ok hNew hRoom hCounted inode
    refine ⟨fd, _, hInsert, by simp [descriptor?], hReserves.least, ?_⟩
    have hBelow := (hReserves.below_iff fd).mpr (Or.inl (Or.inl rfl))
    exact Nat.lt_of_lt_of_le hBelow hReserves.watermark_le
  index_lt := fun _ hUsed => hCoherent.index_lt_capacity hUsed
  count_eq := ⟨by simp [count, toList], hCoherent.size_byPath.symm⟩
  count_le := hCoherent.count_le_capacity

end OpenTable

/-- A pager whose table is in step and has as many places as there are slots. -/
structure Pager.Sound (pager : Pager) : Prop where
  coherent : pager.table.Coherent
  slots_eq : pager.counters.slots = pager.table.capacity
  capacity_lt : pager.table.capacity < UInt32.size

theorem Pager.sound_of_create_eq_ok {config : Config} {pager : Pager}
    (hCreate : Pager.create config = .ok pager) : pager.Sound := by
  obtain ⟨rfl, hFits⟩ := create_eq_ok hCreate
  exact ⟨OpenTable.coherent_empty _ 0, rfl, hFits⟩

theorem Pager.Sound.perform {pager : Pager} (hSound : pager.Sound) (volume : Volume)
    (operation : Operation) : (pager.perform volume operation).pager.Sound := by
  obtain ⟨hSlots, hSame | ⟨path, inode, -, hAfter⟩ | ⟨fd, -, hAfter⟩, -⟩ :=
    Pager.perform_parts pager volume operation
  · exact ⟨hSame ▸ hSound.coherent, by rw [hSlots, hSame, hSound.slots_eq],
      hSame ▸ hSound.capacity_lt⟩
  all_goals
    refine ⟨?_, by rw [hSlots, hAfter, OpenTable.capacity_apply, hSound.slots_eq], ?_⟩
    · rw [hAfter]
      exact hSound.coherent.apply _ (Or.inl hSound.capacity_lt)
    · rw [hAfter, OpenTable.capacity_apply]
      exact hSound.capacity_lt

theorem Session.sound_run (volume : Volume) (instructions : List Instruction) :
    (Session.run ⟨∅, volume⟩ instructions).2.AllPagers Pager.Sound :=
  Session.allPagers_run (fun _ _ => Pager.sound_of_create_eq_ok)
    (fun _ volume operation hSound => hSound.perform volume operation)
    (Session.allPagers_of_pagers_empty _ volume) instructions

/-- A path that an operation makes known was entered under the least descriptor
that was free. -/
theorem Pager.Sound.isLeastFree_of_perform {pager : Pager} (hSound : pager.Sound)
    {volume : Volume} {operation : Operation} {path : Path} {fd : Descriptor}
    (hNew : pager.table.descriptor? path = none)
    (hKnown : (pager.perform volume operation).pager.table.descriptor? path = some fd) :
    pager.table.IsLeastFree fd := by
  have hCounted : pager.table.capacity < UInt32.size ∨
      pager.table.watermark.index + 1 < UInt32.size := Or.inl hSound.capacity_lt
  rcases (Pager.perform_parts pager volume operation).2.1 with
    hSame | ⟨other, inode, -, hAfter⟩ | ⟨closed, -, hAfter⟩
  · rw [hSame, hNew] at hKnown
    cases hKnown
  all_goals
    rw [hAfter] at hKnown
    exact hSound.coherent.isLeastFree_of_apply hNew hKnown hCounted

/-- A path that is open keeps its descriptor through every operation other than
closing that descriptor. -/
theorem Pager.Sound.descriptor?_perform {pager : Pager} (hSound : pager.Sound)
    {volume : Volume} {operation : Operation} {path : Path} {fd : Descriptor}
    (hKnown : pager.table.descriptor? path = some fd) (hOpen : operation ≠ .closeFile fd) :
    (pager.perform volume operation).pager.table.descriptor? path = some fd := by
  have hCounted : pager.table.capacity < UInt32.size ∨
      pager.table.watermark.index + 1 < UInt32.size := Or.inl hSound.capacity_lt
  rcases (Pager.perform_parts pager volume operation).2.1 with
    hSame | ⟨other, inode, -, hAfter⟩ | ⟨closed, hClosed, hAfter⟩
  · rw [hSame, hKnown]
  · rw [hAfter]
    exact hSound.coherent.descriptor?_apply hKnown (by simp) (by simp) hCounted
  · have hOther : closed ≠ fd := fun hSame => hOpen (hSame ▸ hClosed)
    rw [hAfter]
    exact hSound.coherent.descriptor?_apply hKnown (by simpa using hOther) (by simp) hCounted

/-- A descriptor in use has a slot, so handing out, telling and setting its next
page number are never refused for want of one. -/
theorem Pager.Sound.slot_of_mem {pager : Pager} (hSound : pager.Sound) {fd : Descriptor}
    (hUsed : fd ∈ pager.table.byDescriptor) (volume : Volume) (page : PageNo)
    (other : Descriptor) :
    (pager.allocatePage volume fd).result ≠ .error (.invalidDescriptor other) ∧
      (pager.nextPage volume fd).result ≠ .error (.invalidDescriptor other) ∧
      (pager.setNextPage volume fd page).result ≠ .error (.invalidDescriptor other) := by
  have hSlot : fd.index < pager.counters.slots := by
    rw [hSound.slots_eq]
    exact hSound.coherent.index_lt_capacity hUsed
  refine ⟨?_, ?_, ?_⟩
  · simp only [allocatePage, PageCounters.allocate, PageCounters.next, hSlot, if_true]
    cases (pager.counters.count fd).next? <;> simp [unchanged]
  · simp [nextPage, unchanged, PageCounters.next, hSlot]
  · simp [setNextPage, PageCounters.set, hSlot]

/-- Whether an instruction closes a descriptor of a pager: by its own operation, or
by putting an end to the pager. -/
def Instruction.Closes (number : Nat) (fd : Descriptor) : Instruction → Prop
  | .build other config => other = number ∧ ∃ pager, Pager.create config = .ok pager
  | .drop other => other = number
  | .perform other operation => other = number ∧ operation = .closeFile fd
  | _ => False

theorem Instruction.not_closes_of_mem_singly {instruction single : Instruction} {number : Nat}
    {fd : Descriptor} (hOpen : ¬instruction.Closes number fd)
    (hSingle : single ∈ instruction.singly) : ¬single.Closes number fd := by
  rcases Instruction.mem_singly_cases hSingle with
    rfl | ⟨_, _, rfl⟩ | ⟨_, _, rfl⟩ | ⟨_, _, rfl⟩
  · exact hOpen
  all_goals simp [Closes]

/-- The pager with this number has the path open under the descriptor. -/
def Session.HasOpen (number : Nat) (path : Path) (fd : Descriptor) (session : Session) : Prop :=
  ∃ pager, session.pagers[number]? = some pager ∧ pager.table.descriptor? path = some fd

/-- One step that does not close a descriptor leaves it with its path. -/
theorem Session.HasOpen.step {session : Session} (hSound : session.AllPagers Pager.Sound)
    {number : Nat} {path : Path} {fd : Descriptor} (hOpen : session.HasOpen number path fd)
    {instruction : Instruction} (hSingle : instruction.isSingle = true)
    (hNotClosed : ¬instruction.Closes number fd) :
    (session.step instruction).2.HasOpen number path fd := by
  obtain ⟨pager, hPager, hKnown⟩ := hOpen
  rcases session.pagers_step_cases hSingle number with
    hSame | ⟨config, created, rfl, hCreated, -⟩ | ⟨rfl, -⟩ |
      ⟨operation, performer, rfl, hPerformer, hAfter⟩
  · exact ⟨pager, hSame.trans hPager, hKnown⟩
  · exact absurd ⟨rfl, created, hCreated⟩ hNotClosed
  · exact absurd rfl hNotClosed
  · rw [hPager] at hPerformer
    cases hPerformer
    have hOperation : operation ≠ .closeFile fd := fun hSame => hNotClosed ⟨rfl, hSame⟩
    exact ⟨_, hAfter, (hSound number pager hPager).descriptor?_perform hKnown hOperation⟩

/-- A path keeps its descriptor through every run that does not close it. -/
theorem Session.HasOpen.run {session : Session} (hSound : session.AllPagers Pager.Sound)
    {number : Nat} {path : Path} {fd : Descriptor} (hOpen : session.HasOpen number path fd)
    {instructions : List Instruction}
    (hNotClosed : ∀ instruction ∈ instructions, ¬instruction.Closes number fd) :
    (session.run instructions).2.HasOpen number path fd := by
  rw [run_singly]
  refine (invariant_of_moments (P := fun session =>
    session.AllPagers Pager.Sound ∧ session.HasOpen number path fd)
    ⟨hSound, hOpen⟩ fun moment hMoment hBefore => ?_).2
  obtain ⟨instruction, hInstruction, hSingly⟩ := mem_singly_of_mem_history hMoment
  have hSingle := Instruction.isSingle_of_mem_singly hSingly
  refine ⟨?_, hBefore.2.step hBefore.1 hSingle
    (Instruction.not_closes_of_mem_singly (hNotClosed instruction hInstruction) hSingly)⟩
  exact allPagers_run (fun _ _ => Pager.sound_of_create_eq_ok)
    (fun _ volume operation hSound => hSound.perform volume operation)
    hBefore.1 [moment.instruction]

/-- Every table that insertions, removals and emptyings can make is orderly, and so is
the table of every pager, whatever was asked of it and of others before: a new
path gets the least free descriptor, which has a slot, and keeps it until that
descriptor is closed, and the number of open files is told exactly. A limit
beyond what descriptors can count is never given to a pager; for such a limit
the run must be shorter than descriptors are many. -/
theorem descriptors_least_free (capacity : Nat) (changes : List OpenTable.Change)
    (hCounted : capacity < UInt32.size ∨ changes.length + 1 < UInt32.size)
    (volume : Volume) (instructions : List Instruction) :
    (((OpenTable.empty capacity).applyAll changes).Orderly ∧
      ((OpenTable.empty capacity).applyAll changes).capacity = capacity ∧
      ∀ later path fd,
        capacity < UInt32.size ∨ changes.length + later.length < UInt32.size →
        ((OpenTable.empty capacity).applyAll changes).descriptor? path = some fd →
        .remove fd ∉ later → .drain ∉ later →
        ((OpenTable.empty capacity).applyAll (changes ++ later)).descriptor? path = some fd) ∧
    ∀ (number : Nat) (pager : Pager),
      (Session.run ⟨∅, volume⟩ instructions).2.pagers[number]? = some pager →
      pager.table.Orderly ∧ pager.counters.slots = pager.table.capacity ∧
      (∀ present operation path fd, pager.table.descriptor? path = none →
        (pager.perform present operation).pager.table.descriptor? path = some fd →
        pager.table.IsLeastFree fd ∧ fd.index < pager.counters.slots) ∧
      (∀ fd ∈ pager.table.byDescriptor, ∀ present page other,
        (pager.allocatePage present fd).result ≠ .error (.invalidDescriptor other) ∧
        (pager.nextPage present fd).result ≠ .error (.invalidDescriptor other) ∧
        (pager.setNextPage present fd page).result ≠ .error (.invalidDescriptor other)) ∧
      (∀ present, (pager.perform present .openCount).result =
        .ok (.count pager.table.toList.length)) ∧
      ∀ later path fd, pager.table.descriptor? path = some fd →
        (∀ instruction ∈ later, ¬instruction.Closes number fd) →
        (Session.run ⟨∅, volume⟩ (instructions ++ later)).2.HasOpen number path fd := by
  have hEmpty : (OpenTable.empty capacity).Coherent := OpenTable.coherent_empty capacity 0
  have hStart : (OpenTable.empty capacity).watermark.index = 0 := rfl
  have hLimit : (OpenTable.empty capacity).capacity = capacity := rfl
  obtain ⟨hTable, hWatermark⟩ := hEmpty.applyAll changes (by omega)
  have hCapacity : ((OpenTable.empty capacity).applyAll changes).capacity = capacity := by
    rw [OpenTable.capacity_applyAll, hLimit]
  refine ⟨⟨hTable.orderly (by omega), hCapacity, ?_⟩, ?_⟩
  · intro later path fd hLater hKnown hRemove hDrain
    rw [OpenTable.applyAll_append]
    exact hTable.descriptor?_applyAll hKnown hRemove hDrain (by omega)
  · intro number pager hPager
    have hAll := Session.sound_run volume instructions
    have hSound := hAll number pager hPager
    have hOrderly := hSound.coherent.orderly (Or.inl hSound.capacity_lt)
    refine ⟨hOrderly, hSound.slots_eq, ?_, ?_, ?_, ?_⟩
    · intro present operation path fd hNew hKnown
      refine ⟨hSound.isLeastFree_of_perform hNew hKnown, ?_⟩
      have hAfter := hSound.perform present operation
      have hUsed : fd ∈ (pager.perform present operation).pager.table.byDescriptor := by
        obtain ⟨file, hFile, -⟩ := (hAfter.coherent.byPath_iff _ _).mp hKnown
        exact Std.ExtTreeMap.mem_iff_isSome_getElem?.mpr (by simp [hFile])
      rw [← (Pager.perform_parts pager present operation).1, hAfter.slots_eq]
      exact hAfter.coherent.index_lt_capacity hUsed
    · intro fd hUsed present page other
      exact hSound.slot_of_mem hUsed present page other
    · intro present
      simp [Pager.perform, Pager.unchanged, hOrderly.count_eq.1]
    · intro later path fd hKnown hNotClosed
      rw [Session.run_append]
      exact Session.HasOpen.run hAll ⟨pager, hPager, hKnown⟩ hNotClosed

/-- Of two open files the first is closed; the second keeps its descriptor, and a
third gets the one that is free again. -/
theorem descriptors_least_free_after_removal :
    let table := (OpenTable.empty 2).applyAll
      [.insert ⟨"a"⟩ ⟨0⟩, .insert ⟨"b"⟩ ⟨1⟩, .remove ⟨0⟩]
    (2 < UInt32.size ∨ 3 + 1 < UInt32.size) ∧ table.Orderly ∧
      table.descriptor? ⟨"b//."⟩ = some ⟨1⟩ ∧ table.IsLeastFree ⟨0⟩ := by
  have hCounted : 2 < UInt32.size ∨ 3 + 1 < UInt32.size := Or.inl (by decide)
  have hTable := (descriptors_least_free 2
    [.insert ⟨"a"⟩ ⟨0⟩, .insert ⟨"b"⟩ ⟨1⟩, .remove ⟨0⟩] hCounted Volume.empty []).1.1
  refine ⟨hCounted, hTable, by decide +kernel, ?_⟩
  obtain ⟨fd, after, hInsert, -, hLeast, -⟩ :=
    hTable.insert_least ⟨"c"⟩ ⟨2⟩ (by decide +kernel) (by decide +kernel)
  have hLowest : (((OpenTable.empty 2).applyAll
      [.insert ⟨"a"⟩ ⟨0⟩, .insert ⟨"b"⟩ ⟨1⟩, .remove ⟨0⟩]).insert ⟨"c"⟩ ⟨2⟩).toOption.map
        Prod.fst = some ⟨0⟩ := by decide +kernel
  rw [hInsert] at hLowest
  cases hLowest
  exact hLeast

end Paging
