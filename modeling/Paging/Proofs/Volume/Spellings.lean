import Paging.Proofs.Volume.Names

/-! Spellings of one path. Paths that are the same look up the same names, so they cannot
lead to different files; one of them may still be refused where another is not. -/
namespace Paging

namespace Path

/-- No part of a text that was cut at its slashes has a slash in it. -/
theorem not_mem_of_mem_cutAtSlashes {text part : List Char} (hPart : part ∈ cutAtSlashes text) :
    '/' ∉ part := by
  induction text generalizing part with
  | nil =>
      rw [List.mem_singleton.mp hPart]
      simp
  | cons c rest ih =>
      unfold cutAtSlashes at hPart ih
      rw [List.foldr_cons] at hPart
      split at hPart
      · rcases List.mem_cons.mp hPart with rfl | hLater
        · simp
        · exact ih hLater
      · rename_i hOther
        split at hPart
        · rw [List.mem_singleton.mp hPart]
          simpa using Ne.symm hOther
        · rename_i first parts hParts
          rw [hParts] at ih
          rcases List.mem_cons.mp hPart with rfl | hLater
          · simpa [Ne.symm hOther] using ih List.mem_cons_self
          · exact ih (List.mem_cons_of_mem _ hLater)

theorem slash_not_mem_segments (path : Path) : "/" ∉ path.segments := by
  intro hSlash
  obtain ⟨part, hPart, hText⟩ := List.mem_map.mp hSlash
  have hOnly : part = ['/'] := by
    have hList := congrArg String.toList hText
    simpa using hList
  refine not_mem_of_mem_cutAtSlashes (List.mem_filter.mp hPart).1 ?_
  simp [hOnly]

/-- The names of a path in order, without the dots that name no step. -/
def steps (path : Path) : List String := path.segments.filter (· ≠ ".")

/-- What a path compares as, apart from a dot at its front. -/
theorem filter_components (path : Path) :
    path.components.filter (· ≠ ".") = (if path.isRooted then ["/"] else []) ++ path.steps := by
  unfold components steps
  split
  · simp
  · split
    · rename_i hDot
      simp [hDot]
    · simp

/-- Paths that are the same have the same names in the same order. -/
theorem SameAs.steps_eq {path other : Path} (hSame : path.SameAs other) :
    path.steps = other.steps := by
  have hFiltered := congrArg (List.filter (· ≠ ".")) hSame
  rw [filter_components, filter_components] at hFiltered
  have hNoSlash : ∀ path : Path, "/" ∉ path.steps :=
    fun path hSlash => path.slash_not_mem_segments (List.mem_filter.mp hSlash).1
  cases hRooted : path.isRooted <;> cases hOther : other.isRooted <;>
    simp only [hRooted, hOther, Bool.false_eq_true, if_true, if_false, List.nil_append,
      List.singleton_append, List.cons.injEq, true_and] at hFiltered
  · exact hFiltered
  · exact absurd (hFiltered ▸ List.mem_cons_self) (hNoSlash path)
  · exact absurd (hFiltered ▸ List.mem_cons_self) (hNoSlash other)
  · exact hFiltered

end Path

namespace Volume

/-- Dots are no steps of a walk. -/
theorem walk_filter (volume : Volume) (trail : List Directory) (segments : List String) :
    volume.walk trail (segments.filter (· ≠ ".")) = volume.walk trail segments := by
  induction segments generalizing trail with
  | nil => rfl
  | cons segment rest ih =>
      by_cases hDot : segment = "."
      · rw [List.filter_cons_of_neg (by simp [hDot]), ih, walk]
        simp [enter, hDot]
      · rw [List.filter_cons_of_pos (by simp [hDot]), walk, walk]
        simp only [ih]

/-- Where a path leads goes by its steps alone, if it leads to a name at all. -/
theorem EndsInName.steps_eq {path : Path} {name : String} (hName : EndsInName path name) :
    path.steps = path.segments.dropLast.filter (· ≠ ".") ++ [name] := by
  have hNotDot : [name].filter (· ≠ ".") = [name] := by simp [hName.name_ne]
  rw [Path.steps, hName.segments_eq, List.filter_append, hNotDot, List.dropLast_concat]

/-- Paths that are the same do not lead to different names. -/
theorem resolve_eq_of_sameAs {volume : Volume} {path other : Path} (hSame : path.SameAs other)
    {directory place : Directory} {name last : String}
    (hResolve : volume.resolve path = .ok (.name directory name))
    (hOther : volume.resolve other = .ok (.name place last)) :
    directory = place ∧ name = last := by
  obtain ⟨hName, trail, hWalk, rfl⟩ := resolve_eq_name_iff.mp hResolve
  obtain ⟨hLast, way, hOtherWalk, rfl⟩ := resolve_eq_name_iff.mp hOther
  have hSteps := hSame.steps_eq
  rw [hName.steps_eq, hLast.steps_eq] at hSteps
  obtain ⟨hFront, hEnd⟩ := List.append_inj' hSteps rfl
  have hTrails : volume.walk [] path.segments.dropLast =
      volume.walk [] other.segments.dropLast := by
    rw [← walk_filter, hFront, walk_filter]
  rw [hWalk, hOtherWalk] at hTrails
  cases hTrails
  exact ⟨rfl, List.singleton_inj.mp hEnd⟩

/-- Paths that are the same do not lead to different files. -/
theorem openFile_eq_of_sameAs {volume : Volume} {path other : Path} (hSame : path.SameAs other)
    {inode found : Inode} (hOpen : volume.openFile path = .ok inode)
    (hOther : volume.openFile other = .ok found) : inode = found := by
  obtain ⟨-, directory, name, hResolve, hEntry⟩ := openFile_eq_ok_iff.mp hOpen
  obtain ⟨-, place, last, hFound, hLast⟩ := openFile_eq_ok_iff.mp hOther
  obtain ⟨rfl, rfl⟩ := resolve_eq_of_sameAs hSame hResolve hFound
  rw [hEntry] at hLast
  cases hLast
  rfl

end Volume

end Paging
