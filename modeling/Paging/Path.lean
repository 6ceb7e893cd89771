/-! Paths are kept exactly as they are written. What two spellings have in
common is their list of components, and tables of paths are keyed by it. -/
namespace Paging

/-- A path as it was written. Nothing is normalised here, because a path comes
back in answers and messages the way it went in. -/
structure Path where
  text : String
  deriving DecidableEq

namespace Path

/-- Cuts a text at every slash. There is one part more than there are slashes,
and parts may be empty. -/
def cutAtSlashes (text : List Char) : List (List Char) :=
  text.foldr
    (fun c later =>
      if c = '/' then [] :: later
      else match later with
        | [] => [[c]]
        | part :: parts => (c :: part) :: parts)
    [[]]

/-- The names of a path in order, with dots kept and slashes dropped. This is
what a walk through a directory tree goes by. -/
def segments (path : Path) : List String :=
  ((cutAtSlashes path.text.toList).filter (· ≠ [])).map String.ofList

/-- Whether the path starts at the root rather than at the working directory. -/
def isRooted (path : Path) : Bool := path.text.toList.head? = some '/'

/-- Whether the path insists, by a slash at its end, on naming a directory. -/
def endsWithSlash (path : Path) : Bool := path.text.toList.getLast? = some '/'

/-- Whether the path holds the character that ends a name for the operating
system. -/
def holdsNul (path : Path) : Bool := path.text.toList.contains (Char.ofNat 0)

/-- The parts of a path that matter when two paths are compared. A root counts
as the component `/`. Repeated slashes, a slash at the end and dots are left
out, except for a dot at the very front of a path without a root. Two dots are
kept, since dropping them needs the directory tree. -/
def components (path : Path) : List String :=
  if path.isRooted then "/" :: path.segments.filter (· ≠ ".")
  else match path.segments with
    | "." :: rest => "." :: rest.filter (· ≠ ".")
    | names => names.filter (· ≠ ".")

/-- Two paths are the same when their components are. They may still be
spelled differently, and a file may have several paths that are not the same. -/
def SameAs (path other : Path) : Prop := path.components = other.components

instance (path other : Path) : Decidable (path.SameAs other) :=
  inferInstanceAs (Decidable (path.components = other.components))

/-- The plainest path with the given components. -/
def ofComponents : List String → Path
  | "/" :: rest => ⟨"/" ++ "/".intercalate rest⟩
  | names => ⟨"/".intercalate names⟩

/-- The path above this one, with one component less. A path of one component has
no path above it, since what that would name is always there. -/
def parent? (path : Path) : Option Path :=
  if path.components.length ≤ 1 then none else some (ofComponents path.components.dropLast)

theorem SameAs.refl (path : Path) : path.SameAs path := Eq.refl _

theorem SameAs.symm {path other : Path} (hSame : path.SameAs other) : other.SameAs path :=
  Eq.symm hSame

theorem SameAs.trans {path other third : Path} (hFirst : path.SameAs other)
    (hSecond : other.SameAs third) : path.SameAs third :=
  Eq.trans hFirst hSecond

instance : Setoid Path := ⟨SameAs, SameAs.refl, SameAs.symm, SameAs.trans⟩

end Path

end Paging
