import Paging.Proofs.Pager.Failing
import Paging.Proofs.Session.Files

/-! Failed operations in a run. Whatever went before, an operation that fails leaves the open
files, the page numbers and the counts alone, and of the volume and the log it leaves what
its error tells. -/
namespace Paging

/-- Whatever went before, an operation that fails leaves the table of open files, the page
numbers and the counts as they were. The log that the pager knows and the volume are as
they were too, with these exceptions: a write of a page or an append that came up short has
stored exactly the bytes that it tells, an append that failed once it had the log has
opened it and has perhaps made its empty file, some directories above one that could not
be made are there, and a directory that could not be removed is empty. An operation that
was refused for its buffer, its descriptor or its path, or because something was used up,
has changed nothing at all. -/
theorem failures_leave_state (earlier : List Instruction) {number : Nat} {pager : Pager}
    (hPager : (Session.empty.run earlier).2.pagers[number]? = some pager)
    {operation : Operation} {error : Error}
    (hFailed : (pager.perform (Session.empty.run earlier).2.volume operation).result =
      .error error) :
    let volume := (Session.empty.run earlier).2.volume
    let outcome := pager.perform volume operation
    outcome.pager = { pager with log := outcome.pager.log } ∧
    pager.Remains volume operation error outcome.pager.log outcome.volume ∧
    (error.isRefusal = true → outcome.pager = pager ∧ outcome.volume = volume) := by
  intro volume outcome
  have hHeld := Session.held_empty.run earlier
  obtain ⟨hSame, hRemains⟩ :=
    Pager.perform_failsCleanly (hHeld.pagers number pager hPager) hHeld.volume operation error
      hFailed
  refine ⟨hSame, hRemains, fun hRefusal => ?_⟩
  obtain ⟨hLog, hVolume⟩ := hRemains.eq_of_isRefusal hRefusal
  refine ⟨?_, hVolume⟩
  rw [hLog] at hSame
  exact hSame

/-- A directory that cannot be made, since a file is on the way to it, leaves the one that is
made before the file is met. -/
theorem failures_leave_state_ancestor :
    let path : Path := ⟨"new/../f/x"⟩
    let earlier : List Instruction :=
      [.build 0 { maxOpenFiles := 1 }, .perform 0 (.createFile ⟨"f"⟩)]
    let volume := (Session.empty.run earlier).2.volume
    ∃ pager ∈ (Session.empty.run earlier).2.pagers[0]?, ∃ error,
      let outcome := pager.perform volume (.createDirectory path)
      outcome.result = .error error ∧
        outcome.pager = { pager with log := outcome.pager.log } ∧
        pager.Remains volume (.createDirectory path) error outcome.pager.log outcome.volume ∧
        volume.isDirectory ⟨"new"⟩ = false ∧ outcome.volume.isDirectory ⟨"new"⟩ = true := by
  intro path earlier volume
  have hEvaluated : ∀ pager ∈ (Session.empty.run earlier).2.pagers[0]?,
      let outcome := pager.perform volume (.createDirectory path)
      outcome.result.isOk = false ∧
        volume.isDirectory ⟨"new"⟩ = false ∧ outcome.volume.isDirectory ⟨"new"⟩ = true := by
    decide +kernel +revert
  have hSome : (Session.empty.run earlier).2.pagers[0]?.isSome := by decide +kernel +revert
  obtain ⟨pager, hPager⟩ := Option.isSome_iff_exists.mp hSome
  obtain ⟨hFailed, hBefore, hAfter⟩ := hEvaluated pager hPager
  cases hResult : (pager.perform volume (.createDirectory path)).result with
  | ok reply =>
      rw [hResult] at hFailed
      cases hFailed
  | error error =>
      obtain ⟨hPart, hRemains, -⟩ := failures_leave_state earlier hPager hResult
      exact ⟨pager, hPager, error, hResult, hPart, hRemains, hBefore, hAfter⟩

end Paging
