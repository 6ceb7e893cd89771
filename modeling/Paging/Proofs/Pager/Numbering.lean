import Paging.Proofs.Pager.Parts

/-! How a slot counts pages. A slot that stands at a number hands out that number and
moves on by one, until it stands at the number that no page has; there it stays. -/
namespace Paging

/-- What a slot hands out that has counted up to a number. The count may be larger than
any page number, and then nothing is left to hand out. -/
def handedOut (fd : Descriptor) (count : Nat) : Except Error PageNo :=
  if count < UInt32.size - 1 then .ok ⟨.ofNat count⟩ else .error (.pageSpaceExhausted fd)

/-- Counting on from where a count has stopped does not get it any further. -/
theorem min_min_add (count steps last : Nat) :
    min (min count last + steps) last = min (count + steps) last := by
  omega

/-- A count that stops at the last number hands out the same as one that does not. -/
theorem handedOut_min_add (fd : Descriptor) (count steps : Nat) :
    handedOut fd (min count (UInt32.size - 1) + steps) = handedOut fd (count + steps) := by
  unfold handedOut
  by_cases hLeft : count ≤ UInt32.size - 1
  · rw [Nat.min_eq_left hLeft]
  · rw [if_neg (by omega), if_neg (by omega)]

theorem handedOut_eq_ok {fd : Descriptor} {count : Nat} {page : PageNo}
    (hPage : handedOut fd count = .ok page) :
    page.number.toNat = count ∧ count < UInt32.size - 1 := by
  unfold handedOut at hPage
  split at hPage
  · rename_i hLeft
    cases hPage
    have hSize : count < UInt32.size := by omega
    exact ⟨UInt32.toNat_ofNat_of_lt hSize, hLeft⟩
  · cases hPage

namespace PageNo

theorem toNat_le (page : PageNo) : page.number.toNat ≤ UInt32.size - 1 := by
  have hBound := page.number.toNat_lt
  simp only [UInt32.size]
  omega

theorem isValid_iff (page : PageNo) :
    page.isValid = true ↔ page.number.toNat < UInt32.size - 1 := by
  have hInvalid : page = invalid ↔ page.number.toNat = UInt32.size - 1 := by
    refine ⟨fun hSame => by rw [hSame]; rfl, fun hLast => ?_⟩
    cases page
    exact congrArg mk (UInt32.toNat_inj.mp hLast)
  have hBound := page.toNat_le
  simp only [isValid, decide_eq_true_eq, ne_eq, hInvalid]
  omega

/-- Handing out goes by whether the number can belong to a page. -/
theorem handedOut_toNat (fd : Descriptor) (page : PageNo) :
    handedOut fd page.number.toNat =
      if page.isValid then .ok page else .error (.pageSpaceExhausted fd) := by
  unfold handedOut
  by_cases hValid : page.isValid = true
  · rw [if_pos ((isValid_iff page).mp hValid), if_pos hValid, UInt32.ofNat_toNat]
  · rw [if_neg fun hLeft => hValid ((isValid_iff page).mpr hLeft), if_neg hValid]

end PageNo

namespace Pager

/-- A slot hands out what it stands at and moves on by one. -/
theorem allocatePage_of_lt_slots {pager : Pager} {fd : Descriptor}
    (hSlot : fd.index < pager.counters.slots) (volume : Volume) :
    (pager.allocatePage volume fd).result =
      handedOut fd (pager.counters.count fd).number.toNat ∧
    ((pager.allocatePage volume fd).pager.counters.count fd).number.toNat =
      min ((pager.counters.count fd).number.toNat + 1) (UInt32.size - 1) := by
  have hNext : pager.counters.next fd = .ok (pager.counters.count fd) := by
    simp [PageCounters.next, hSlot]
  rw [PageNo.handedOut_toNat]
  cases hAfter : (pager.counters.count fd).next? with
  | none =>
      have hInvalid := (PageNo.next?_eq_none_iff _).mp hAfter
      have hLast : (pager.counters.count fd).number.toNat = UInt32.size - 1 := by
        rw [hInvalid]
        rfl
      have hNone : (pager.counters.count fd).isValid = false := by simp [PageNo.isValid, hInvalid]
      simp only [allocatePage, PageCounters.allocate, hNext, hAfter, unchanged, hNone,
        Bool.false_eq_true, if_false, true_and]
      omega
  | some after =>
      have hNumber := PageNo.toNat_of_next?_eq_some hAfter
      have hLater := after.toNat_le
      have hValid : (pager.counters.count fd).isValid = true := by
        rw [PageNo.isValid_iff]
        omega
      simp only [allocatePage, PageCounters.allocate, hNext, hAfter, hValid, if_true, true_and]
      simp only [PageCounters.count, Std.ExtTreeMap.getD_insert_self]
      simp only [PageCounters.count] at hNumber
      omega

theorem count_setNextPage {pager : Pager} {fd : Descriptor}
    (hSlot : fd.index < pager.counters.slots) (volume : Volume) (page : PageNo) :
    (pager.setNextPage volume fd page).pager.counters.count fd = page := by
  simp [setNextPage, PageCounters.set, hSlot, PageCounters.count]

theorem counters_of_create_eq_ok {config : Config} {pager : Pager}
    (hCreate : create config = .ok pager) :
    pager.counters.slots = config.maxOpenFiles ∧
      ∀ fd, pager.counters.count fd = .first := by
  rw [(create_eq_ok hCreate).1]
  exact ⟨rfl, fun fd => PageCounters.count_initial _ fd⟩

/-- A descriptor outside the range of slots has no page numbers, and asking for them
changes nothing. -/
theorem invalidDescriptor_of_slots_le {pager : Pager} {fd : Descriptor}
    (hNoSlot : pager.counters.slots ≤ fd.index) (volume : Volume) (page : PageNo) :
    pager.allocatePage volume fd = pager.unchanged volume (.error (.invalidDescriptor fd)) ∧
    pager.nextPage volume fd = pager.unchanged volume (.error (.invalidDescriptor fd)) ∧
    pager.setNextPage volume fd page =
      pager.unchanged volume (.error (.invalidDescriptor fd)) := by
  have hOutside : ¬fd.index < pager.counters.slots := Nat.not_lt.mpr hNoSlot
  simp [allocatePage, nextPage, setNextPage, PageCounters.allocate, PageCounters.next,
    PageCounters.set, hOutside]

/-- Where a slot stands is the business of those operations alone that hand out its
numbers or set them. -/
theorem count_perform (pager : Pager) (volume : Volume) {operation : Operation}
    {fd : Descriptor} (hAllocate : operation ≠ .allocatePage fd)
    (hSet : ∀ page, operation ≠ .setNextPage fd page) :
    (pager.perform volume operation).pager.counters.count fd = pager.counters.count fd := by
  cases operation with
  | allocatePage other =>
      have hOther : fd ≠ other := fun hSame => hAllocate (hSame ▸ rfl)
      simp only [perform, Outcome.map, allocatePage]
      split
      · rename_i hAllocated
        exact (PageCounters.count_of_allocate_eq_ok hAllocated).2.2 fd hOther
      · rfl
      · rfl
  | setNextPage other page =>
      have hOther : fd ≠ other := fun hSame => hSet page (hSame ▸ rfl)
      simp only [perform, Outcome.map, setNextPage]
      split
      · rename_i hCounted
        rw [PageCounters.count_of_set_eq_ok hCounted, if_neg hOther]
      · rfl
  | _ => rw [(perform_settings pager volume _).2 rfl]

end Pager

end Paging
