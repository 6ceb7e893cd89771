import Mathlib.Logic.Relation
import Paging.Proofs.Volume.Spellings

/-! When two spellings are of one path. Main statements: paths are the same just when one can be
respelled into the other by adding and leaving out slashes and dots that do not matter, and just
when they agree on the root, on a dot at the front and on their steps. -/
namespace Paging.Path

/-- A path that may be spelled more plainly: one of two slashes in a row is left out, or a slash
at the end of a text in which it does not stand alone, or a dot between two slashes. -/
inductive Respells : Path → Path → Prop
  | slashes (front back : String) : Respells ⟨front ++ "//" ++ back⟩ ⟨front ++ "/" ++ back⟩
  | slashAtEnd {front : String} (hFront : front ≠ "") : Respells ⟨front ++ "/"⟩ ⟨front⟩
  | dot (front back : String) : Respells ⟨front ++ "/./" ++ back⟩ ⟨front ++ "/" ++ back⟩

theorem cutAtSlashes_slash (rest : List Char) :
    cutAtSlashes ('/' :: rest) = [] :: cutAtSlashes rest := rfl

theorem cutAtSlashes_cons {c : Char} (hOther : c ≠ '/') {rest part : List Char}
    {parts : List (List Char)} (hRest : cutAtSlashes rest = part :: parts) :
    cutAtSlashes (c :: rest) = (c :: part) :: parts := by
  unfold cutAtSlashes at hRest ⊢
  rw [List.foldr_cons, hRest, if_neg hOther]

/-- A text is its parts with slashes between them. -/
theorem exists_parts (text : List Char) :
    ∃ first rest, cutAtSlashes text = first :: rest ∧
      text = first ++ rest.flatMap ('/' :: ·) := by
  induction text with
  | nil => exact ⟨[], [], rfl, rfl⟩
  | cons c text ih =>
      obtain ⟨first, rest, hCut, hText⟩ := ih
      by_cases hSlash : c = '/'
      · subst hSlash
        refine ⟨[], first :: rest, by rw [cutAtSlashes_slash, hCut], ?_⟩
        rw [List.flatMap_cons, List.nil_append, List.cons_append, ← hText]
      · refine ⟨c :: first, rest, cutAtSlashes_cons hSlash hCut, ?_⟩
        rw [List.cons_append, ← hText]

theorem cutAtSlashes_ne_nil (text : List Char) : cutAtSlashes text ≠ [] := by
  obtain ⟨first, rest, hCut, -⟩ := exists_parts text
  rw [hCut]
  exact List.cons_ne_nil first rest

/-- The parts of a text with a slash in it are those before the slash and those behind it. -/
theorem cutAtSlashes_append (front back : List Char) :
    cutAtSlashes (front ++ '/' :: back) = cutAtSlashes front ++ cutAtSlashes back := by
  induction front with
  | nil => rfl
  | cons c front ih =>
      by_cases hSlash : c = '/'
      · subst hSlash
        rw [List.cons_append, cutAtSlashes_slash, cutAtSlashes_slash, ih, List.cons_append]
      · obtain ⟨first, rest, hCut, -⟩ := exists_parts front
        rw [hCut] at ih
        rw [cutAtSlashes_cons hSlash hCut, List.cons_append, cutAtSlashes_cons hSlash ih]
        rfl

/-- Whether a part that is not the first one matters. -/
def Matters (part : List Char) : Bool := part ≠ [] && part ≠ ['.']

theorem ofList_eq_dot_iff {part : List Char} : String.ofList part = "." ↔ part = ['.'] :=
  @String.ofList_inj part ['.']

theorem filter_names (parts : List (List Char)) :
    ((parts.filter (· ≠ [])).map String.ofList).filter (· ≠ ".") =
      (parts.filter Matters).map String.ofList := by
  rw [List.filter_map, List.filter_filter]
  congr 2
  funext part
  simp [Matters, ofList_eq_dot_iff, Bool.and_comm]

/-- A path starts at the root when its first part is empty and not the only one. -/
theorem isRooted_eq {path : Path} {first : List Char} {rest : List (List Char)}
    (hCut : cutAtSlashes path.text.toList = first :: rest) :
    path.isRooted = decide (first = [] ∧ rest ≠ []) := by
  obtain ⟨front, more, hSame, hText⟩ := exists_parts path.text.toList
  rw [hCut, List.cons.injEq] at hSame
  obtain ⟨rfl, rfl⟩ := hSame
  rw [isRooted, hText]
  cases first with
  | nil => cases rest <;> simp
  | cons c first =>
      have hOther : c ≠ '/' := by
        rintro rfl
        exact not_mem_of_mem_cutAtSlashes (hCut ▸ List.mem_cons_self) List.mem_cons_self
      simp [hOther]

/-- The components of a path, read off its parts. -/
theorem components_eq {path : Path} {first : List Char} {rest : List (List Char)}
    (hCut : cutAtSlashes path.text.toList = first :: rest) :
    path.components =
      if first = [] ∧ rest = [] then []
      else (if first = [] then "/" else String.ofList first) ::
        (rest.filter Matters).map String.ofList := by
  have hSegments : path.segments = ((first :: rest).filter (· ≠ [])).map String.ofList := by
    rw [segments, hCut]
  rw [components, isRooted_eq hCut, hSegments]
  by_cases hFirst : first = []
  · subst hFirst
    by_cases hRest : rest = []
    · simp [hRest]
    · simp only [hRest, ne_eq, not_false_eq_true, and_self, and_false, decide_true, if_true,
        if_false]
      rw [List.filter_cons_of_neg (by simp), filter_names]
  · rw [List.filter_cons_of_pos (by simpa using hFirst), List.map_cons]
    simp only [hFirst, false_and, decide_false, Bool.false_eq_true, if_false]
    split
    · rename_i names hNames
      obtain ⟨hDot, rfl⟩ := List.cons.inj hNames
      rw [hDot, filter_names]
    · rename_i hNot
      have hOther : String.ofList first ≠ "." := fun hDot => hNot _ (by rw [hDot])
      rw [List.filter_cons_of_pos (by simpa using hOther), filter_names]

/-- Paths with the same first part, and the same parts that matter behind it, are the same. -/
theorem sameAs_of_parts {path other : Path} {first : List Char} {rest more : List (List Char)}
    (hPath : cutAtSlashes path.text.toList = first :: rest)
    (hOther : cutAtSlashes other.text.toList = first :: more)
    (hMatters : rest.filter Matters = more.filter Matters)
    (hRoot : first = [] → (rest = [] ↔ more = [])) : path.SameAs other := by
  rw [SameAs, components_eq hPath, components_eq hOther, hMatters]
  by_cases hFirst : first = []
  · simp only [hRoot hFirst]
  · simp only [hFirst, false_and]

/-- A plainer spelling is of the same path. -/
theorem Respells.sameAs {path other : Path} (hRespells : path.Respells other) :
    path.SameAs other := by
  cases hRespells with
  | slashes front back =>
      obtain ⟨first, rest, hCut, -⟩ := exists_parts front.toList
      have hTwo : (front ++ "//" ++ back).toList = front.toList ++ '/' :: '/' :: back.toList := by
        simp
      have hOne : (front ++ "/" ++ back).toList = front.toList ++ '/' :: back.toList := by simp
      refine sameAs_of_parts (by rw [hTwo, cutAtSlashes_append, cutAtSlashes_slash, hCut]; rfl)
        (by rw [hOne, cutAtSlashes_append, hCut]; rfl) ?_ ?_
      · simp [Matters]
      · simp [cutAtSlashes_ne_nil]
  | slashAtEnd hFront =>
      rename_i front
      obtain ⟨first, rest, hCut, hText⟩ := exists_parts front.toList
      have hOne : (front ++ "/").toList = front.toList ++ ['/'] := by simp
      refine sameAs_of_parts (by rw [hOne, cutAtSlashes_append, hCut]; rfl) hCut ?_ ?_
      · simp [Matters, cutAtSlashes]
      · rintro rfl
        have hRest : rest ≠ [] := by
          rintro rfl
          exact hFront (String.toList_eq_nil_iff.mp hText)
        simp [hRest]
  | dot front back =>
      obtain ⟨first, rest, hCut, -⟩ := exists_parts front.toList
      have hTwo : (front ++ "/./" ++ back).toList =
          front.toList ++ '/' :: '.' :: '/' :: back.toList := by simp
      have hOne : (front ++ "/" ++ back).toList = front.toList ++ '/' :: back.toList := by simp
      have hDot : cutAtSlashes ('.' :: '/' :: back.toList) = ['.'] :: cutAtSlashes back.toList :=
        cutAtSlashes_cons (by decide) (cutAtSlashes_slash _)
      refine sameAs_of_parts (by rw [hTwo, cutAtSlashes_append, hDot, hCut]; rfl)
        (by rw [hOne, cutAtSlashes_append, hCut]; rfl) ?_ ?_
      · simp [Matters]
      · simp [cutAtSlashes_ne_nil]

/-- A dot behind the last slash may be left out along with the slash. -/
theorem eqvGen_dotAtEnd {front : String} (hFront : front ≠ "") :
    Relation.EqvGen Respells ⟨front ++ "/."⟩ ⟨front⟩ := by
  have hLonger : Respells ⟨front ++ "/." ++ "/"⟩ ⟨front ++ "/."⟩ := .slashAtEnd (by simp)
  have hDot : Respells ⟨front ++ "/./" ++ ""⟩ ⟨front ++ "/" ++ ""⟩ := .dot front ""
  have hSlash : Respells ⟨front ++ "/"⟩ ⟨front⟩ := .slashAtEnd hFront
  rw [String.append_assoc] at hLonger
  rw [String.append_empty, String.append_empty] at hDot
  exact (Relation.EqvGen.rel _ _ hLonger).symm.trans _ _ _
    ((Relation.EqvGen.rel _ _ hDot).trans _ _ _ (.rel _ _ hSlash))

theorem ofList_around (front back : List Char) (middle : String) :
    String.ofList (front ++ middle.toList ++ back) =
      String.ofList front ++ middle ++ String.ofList back := by
  rw [String.ofList_append, String.ofList_append, String.ofList_toList]

theorem respells_slashes (front back : List Char) :
    Respells ⟨.ofList (front ++ ['/', '/'] ++ back)⟩ ⟨.ofList (front ++ ['/'] ++ back)⟩ := by
  have hRespells := Respells.slashes (.ofList front) (.ofList back)
  rw [← ofList_around, ← ofList_around] at hRespells
  exact hRespells

theorem respells_dot (front back : List Char) :
    Respells ⟨.ofList (front ++ ['/', '.', '/'] ++ back)⟩ ⟨.ofList (front ++ ['/'] ++ back)⟩ := by
  have hRespells := Respells.dot (.ofList front) (.ofList back)
  rw [← ofList_around, ← ofList_around] at hRespells
  exact hRespells

/-- A part that does not matter may be left out behind a text that is not empty. -/
theorem eqvGen_drop {front part : List Char} (hFront : front ≠ []) (hPart : Matters part = false)
    (rest : List (List Char)) :
    Relation.EqvGen Respells ⟨.ofList (front ++ '/' :: part ++ rest.flatMap ('/' :: ·))⟩
      ⟨.ofList (front ++ rest.flatMap ('/' :: ·))⟩ := by
  have hText : String.ofList front ≠ "" := fun hNone => hFront (String.ofList_eq_empty_iff.mp hNone)
  have hKind : part = [] ∨ part = ['.'] := by
    simpa [Matters, Decidable.or_iff_not_imp_left] using hPart
  cases rest with
  | nil =>
      rw [List.flatMap_nil, List.append_nil, List.append_nil, String.ofList_append]
      rcases hKind with rfl | rfl
      · exact .rel _ _ (.slashAtEnd hText)
      · exact eqvGen_dotAtEnd hText
  | cons next rest =>
      -- Another slash follows, so the part is between two.
      have hSlashes := respells_slashes front (next ++ rest.flatMap ('/' :: ·))
      have hDot := respells_dot front (next ++ rest.flatMap ('/' :: ·))
      simp only [List.append_assoc, List.cons_append, List.nil_append] at hSlashes hDot
      rcases hKind with rfl | rfl
      · simpa using Relation.EqvGen.rel _ _ hSlashes
      · simpa using Relation.EqvGen.rel _ _ hDot

/-- Behind a text that is not empty, all parts that do not matter may be left out. -/
theorem eqvGen_filter {front : List Char} (hFront : front ≠ []) (rest : List (List Char)) :
    Relation.EqvGen Respells ⟨.ofList (front ++ rest.flatMap ('/' :: ·))⟩
      ⟨.ofList (front ++ (rest.filter Matters).flatMap ('/' :: ·))⟩ := by
  induction rest generalizing front with
  | nil => exact .refl _
  | cons part rest ih =>
      rw [List.flatMap_cons, ← List.append_assoc]
      cases hPart : Matters part with
      | true =>
          rw [List.filter_cons_of_pos hPart, List.flatMap_cons, ← List.append_assoc]
          exact ih (List.append_ne_nil_of_left_ne_nil hFront _)
      | false =>
          rw [List.filter_cons_of_neg (by simp [hPart])]
          exact (eqvGen_drop hFront hPart rest).trans _ _ _ (ih hFront)

/-- A text with the given components. Behind a root it has one slash more than it needs. -/
def plainText : List String → List Char
  | [] => []
  | first :: rest => first.toList ++ rest.flatMap fun name => '/' :: name.toList

/-- Every path can be respelled into one that is written down from its components. -/
theorem eqvGen_plainText (path : Path) :
    Relation.EqvGen Respells path ⟨.ofList (plainText path.components)⟩ := by
  obtain ⟨first, rest, hCut, hText⟩ := exists_parts path.text.toList
  have hPath : path = ⟨.ofList (first ++ rest.flatMap ('/' :: ·))⟩ := by
    rw [← hText, String.ofList_toList]
  have hNames : (rest.filter Matters).flatMap ('/' :: ·) =
      ((rest.filter Matters).map String.ofList).flatMap fun name => '/' :: name.toList := by
    simp [List.flatMap_map]
  rw [components_eq hCut]
  by_cases hFirst : first = []
  · subst hFirst
    cases rest with
    | nil =>
        rw [hPath, if_pos ⟨rfl, rfl⟩]
        exact .refl _
    | cons next rest =>
        have hMore : Respells ⟨.ofList (['/'] ++ (next :: rest).flatMap ('/' :: ·))⟩ path := by
          rw [hPath]
          exact respells_slashes [] (next ++ rest.flatMap ('/' :: ·))
        rw [if_neg (by simp), if_pos rfl, plainText, ← hNames]
        exact (Relation.EqvGen.rel _ _ hMore).symm.trans _ _ _
          (eqvGen_filter (List.cons_ne_nil _ _) (next :: rest))
  · rw [if_neg (fun hNone => hFirst hNone.1), if_neg hFirst, plainText, String.toList_ofList,
      ← hNames, hPath]
    exact eqvGen_filter hFirst rest

/-- Paths are the same just when one can be respelled into the other. -/
theorem sameAs_iff_eqvGen {path other : Path} :
    path.SameAs other ↔ Relation.EqvGen Respells path other := by
  constructor
  · intro hSame
    have hOther := (eqvGen_plainText other).symm
    rw [← hSame] at hOther
    exact (eqvGen_plainText path).trans _ _ _ hOther
  · intro hRespelled
    induction hRespelled with
    | rel path other hRespells => exact hRespells.sameAs
    | refl path => exact .refl path
    | symm path other _ ih => exact ih.symm
    | trans path other third _ _ ihFirst ihSecond => exact ihFirst.trans ihSecond

/-- Whether a path without a root has a dot at its front. -/
def startsWithDot (path : Path) : Bool := !path.isRooted && path.segments.head? = some "."

/-- What comes before the steps of a path: its root, or the dot at its front. -/
def front (path : Path) : List String :=
  if path.isRooted then ["/"] else if path.startsWithDot then ["."] else []

theorem components_eq_append (path : Path) : path.components = path.front ++ path.steps := by
  unfold components front startsWithDot steps
  cases path.isRooted with
  | true => rfl
  | false =>
      cases path.segments with
      | nil => rfl
      | cons first rest => by_cases hDot : first = "." <;> simp [hDot]

theorem isRooted_iff_front (path : Path) : path.isRooted = true ↔ path.front = ["/"] := by
  unfold front
  cases path.isRooted with
  | true => simp
  | false => cases path.startsWithDot <;> simp

theorem startsWithDot_iff_front (path : Path) :
    path.startsWithDot = true ↔ path.front = ["."] := by
  unfold front
  cases hRooted : path.isRooted with
  | true => simp [startsWithDot, hRooted]
  | false => cases path.startsWithDot <;> simp

/-- Paths are the same just when they agree on the root, on the dot at the front and on their
steps, which keep double dots. -/
theorem sameAs_iff {path other : Path} :
    path.SameAs other ↔ path.isRooted = other.isRooted ∧
      path.startsWithDot = other.startsWithDot ∧ path.steps = other.steps := by
  constructor
  · intro hSame
    have hSteps := hSame.steps_eq
    have hFront : path.front = other.front := by
      rw [SameAs, components_eq_append, components_eq_append, hSteps] at hSame
      exact List.append_cancel_right hSame
    refine ⟨?_, ?_, hSteps⟩
    · rw [Bool.eq_iff_iff, isRooted_iff_front, isRooted_iff_front, hFront]
    · rw [Bool.eq_iff_iff, startsWithDot_iff_front, startsWithDot_iff_front, hFront]
  · rintro ⟨hRooted, hDot, hSteps⟩
    rw [SameAs, components_eq_append, components_eq_append, front, front, hRooted, hDot, hSteps]

end Paging.Path
