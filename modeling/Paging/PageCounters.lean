import Std.Data.ExtTreeMap
import Paging.Error
import Paging.Page

/-! Page numbers are handed out in order and never taken back. -/
namespace Paging

/-- The next page number of every slot. A slot belongs to its descriptor and
not to the file that is open under it, and starts at the first page. -/
structure PageCounters where
  /-- How many slots there are. -/
  slots : Nat
  /-- The next page numbers. A slot that is not listed stands at its start. -/
  counts : Std.ExtTreeMap Descriptor PageNo

namespace PageCounters

/-- All slots at their start. -/
def initial (slots : Nat) : PageCounters := ⟨slots, ∅⟩

/-- The next page number of a slot. -/
def count (counters : PageCounters) (fd : Descriptor) : PageNo :=
  counters.counts.getD fd .first

/-- The next page number of a descriptor, if it has a slot. -/
def next (counters : PageCounters) (fd : Descriptor) : Except Error PageNo :=
  if fd.index < counters.slots then .ok (counters.count fd) else .error (.invalidDescriptor fd)

/-- Sets the next page number of a descriptor, if it has a slot. -/
def set (counters : PageCounters) (fd : Descriptor) (page : PageNo) :
    Except Error PageCounters :=
  if fd.index < counters.slots then
    .ok { counters with counts := counters.counts.insert fd page }
  else .error (.invalidDescriptor fd)

/-- Hands out the next page number of a descriptor. A slot that has reached the
number that no page has stays there and hands out nothing. -/
def allocate (counters : PageCounters) (fd : Descriptor) :
    Except Error (PageNo × PageCounters) :=
  match counters.next fd with
  | .error error => .error error
  | .ok page =>
    match page.next? with
    | none => .error (.pageSpaceExhausted fd)
    | some after =>
      .ok (page, { counters with counts := counters.counts.insert fd after })

@[simp] theorem count_initial (slots : Nat) (fd : Descriptor) :
    (initial slots).count fd = .first := by
  simp [initial, count]

/-- What `set` does to the counts: one slot gets the page number, and no other
changes. -/
theorem count_of_set_eq_ok {counters after : PageCounters} {fd : Descriptor} {page : PageNo}
    (hSet : counters.set fd page = .ok after) (other : Descriptor) :
    after.count other = if other = fd then page else counters.count other := by
  simp only [set] at hSet
  split at hSet
  · cases hSet
    by_cases hSame : other = fd
    · subst hSame
      simp [count]
    · have hOther : ¬compare fd other = .eq :=
        fun hEqual => hSame (Std.LawfulEqCmp.eq_of_compare hEqual).symm
      simp [count, hSame, Std.ExtTreeMap.getD_insert, hOther]
  · cases hSet

/-- What `allocate` hands out is the count of its slot, which then moves on by
one; no other slot changes. -/
theorem count_of_allocate_eq_ok {counters after : PageCounters} {fd : Descriptor}
    {page : PageNo} (hAllocated : counters.allocate fd = .ok (page, after)) :
    page = counters.count fd ∧ page.next? = some (after.count fd) ∧
      ∀ other, other ≠ fd → after.count other = counters.count other := by
  simp only [allocate, next] at hAllocated
  split at hAllocated
  · cases hAllocated
  · rename_i current hCurrent
    split at hCurrent
    · cases hCurrent
      split at hAllocated
      · cases hAllocated
      · rename_i following hFollowing
        cases hAllocated
        refine ⟨rfl, ?_, fun other hOther => ?_⟩
        · simpa [count] using hFollowing
        · have hCompare : ¬compare fd other = .eq :=
            fun hEqual => hOther (Std.LawfulEqCmp.eq_of_compare hEqual).symm
          simp [count, Std.ExtTreeMap.getD_insert, hCompare]
    · cases hCurrent

end PageCounters

end Paging
